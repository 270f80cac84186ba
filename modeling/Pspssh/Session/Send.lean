import Pspssh.Data.Buffer
import Pspssh.Data.Program
import Pspssh.Session.State

namespace Pspssh.Session

open Pspssh.Data
open Pspssh.Data.Program

/-! What is typed goes into the session once and in order. -/

abbrev Sending := @Program (List UInt8) fun _ => Int

def spinsMax : Nat := 2000

def sendLoop (text : Buffer) (len sent spins : Nat) : Sending Int :=
  if sent < len ∧ spins < spinsMax then
    .call (text.slice sent (len - sent)) fun n =>
      if n < 0 then pure (-1)
      else if n = 0 then sendLoop text len sent (spins + 1)
      else sendLoop text len (sent + n.toNat) 0
  else pure (if sent = len then 0 else -1)
termination_by (len - sent, spinsMax - spins)
decreasing_by
  · exact Prod.Lex.right _ (by omega)
  · exact Prod.Lex.left _ _ (by omega)

def sendAll (text : Buffer) (len : Nat) : Sending Int :=
  sendLoop text len 0 0

/-- The contract of `pspssh_write`, over the bytes the session accepted. -/
inductive Accepts (accepted offered : List UInt8) : Int → List UInt8 → Prop where
  | failed {n : Int} (negative : n < 0) : Accepts accepted offered n accepted
  | notYet : Accepts accepted offered 0 accepted
  | some {n : Nat} (positive : 1 ≤ n) (part : n ≤ offered.length) :
      Accepts accepted offered n (accepted ++ offered.take n)

def accepting : World (fun _ : List UInt8 => Int) (List UInt8) :=
  fun accepted offered n after => Accepts accepted offered n after

/-- `pspssh_write`, given the result `n` of `wolfSSH_stream_send` and the error
behind it. A full window only asks to be tried again. -/
def pspsshWrite (errorToName : SshError → List UInt8)
    (session : Option PspsshSession) (n : Int) (error : SshError) :
    Int × Option PspsshSession :=
  match session with
  | none => (-1, none)
  | some session =>
      if 0 ≤ n then (n, some session)
      else
        match error with
        | .wantRead | .wantWrite | .windowFull => (0, some session)
        | .eof | .other _ => (-1, some (setError session (errorToName error)))

/-- A stream that takes the front of what it is offered gives `pspssh_write` its
contract. -/
theorem pspsshWrite_accepts (errorToName : SshError → List UInt8)
    (session : PspsshSession) {n : Int} {offered : List UInt8}
    (part : n ≤ offered.length) (error : SshError) (accepted : List UInt8) :
    Accepts accepted offered (pspsshWrite errorToName (some session) n error).1
      (accepted ++ offered.take n.toNat) := by
  rcases lt_trichotomy n 0 with negative | rfl | positive
  · have nothing : accepted ++ offered.take n.toNat = accepted := by
      rw [Int.toNat_of_nonpos negative.le, List.take_zero, List.append_nil]
    simp only [pspsshWrite, if_neg (not_le.mpr negative), nothing]
    cases error with
    | wantRead => exact .notYet
    | wantWrite => exact .notYet
    | windowFull => exact .notYet
    | eof => exact .failed (Int.negSucc_lt_zero 0)
    | other code => exact .failed (Int.negSucc_lt_zero 0)
  · simpa [pspsshWrite] using Accepts.notYet
  · simp only [pspsshWrite, if_pos positive.le]
    have counted : Accepts accepted offered n.toNat
        (accepted ++ offered.take n.toNat) := .some (by omega) (by omega)
    rwa [Int.toNat_of_nonneg positive.le] at counted

/-! ## A run -/

abbrev Offers := List (Event fun _ : List UInt8 => Int)

/-- The last `count` offers were all answered by zero. -/
def EndsInZeros (count : Nat) (offers : Offers) : Prop :=
  ∃ before zeros, offers = before ++ zeros ∧ zeros.length = count ∧
    ∀ offer ∈ zeros, offer.2 = 0

def EndsInFailure (offers : Offers) : Prop :=
  ∃ before offered n, offers = before ++ [⟨offered, n⟩] ∧ n < 0

theorem endsInZeros_none (offers : Offers) : EndsInZeros 0 offers :=
  ⟨offers, [], (List.append_nil offers).symm, rfl, fun _ member =>
    absurd member List.not_mem_nil⟩

theorem EndsInZeros.next {count : Nat} {offers : Offers}
    (zeros : EndsInZeros count offers) (offered : List UInt8) :
    EndsInZeros (count + 1) (offers ++ [⟨offered, 0⟩]) := by
  obtain ⟨before, tail, rfl, size, every⟩ := zeros
  refine ⟨before, tail ++ [⟨offered, 0⟩], List.append_assoc .., ?_, ?_⟩
  · rw [List.length_append, size]
    rfl
  · intro offer member
    rcases List.mem_append.mp member with earlier | last
    · exact every offer earlier
    · rw [List.mem_singleton.mp last]

/-- At every point the session has the front of the text, and the offers are
counted. -/
def Sent (text : Buffer) (len : Nat) (state : List UInt8 × Offers) : Prop :=
  state.1 <+: text.take len ∧ state.2.length ≤ spinsMax * (len + 1)

inductive SendEnd (text : Buffer) (len : Nat) :
    Int → List UInt8 × Offers → Prop where
  | whole {offers : Offers} : SendEnd text len 0 (text.take len, offers)
  | cut {accepted : List UInt8} {offers : Offers}
      (short : accepted.length < len)
      (cause : EndsInFailure offers ∨ EndsInZeros spinsMax offers) :
      SendEnd text len (-1) (accepted, offers)

theorem sent_take {text : Buffer} {len sent spins : Nat} {offers : Offers}
    (part : sent ≤ len) (few : spins ≤ spinsMax)
    (counted : offers.length ≤ spinsMax * sent + spins) :
    Sent text len (text.take sent, offers) := by
  constructor
  · rw [← Buffer.take_take text part]
    exact List.take_prefix _ _
  · have := Nat.mul_le_mul_left spinsMax part
    rw [Nat.mul_add]
    exact counted.trans (by omega)

theorem Accepts.inversion {accepted offered after : List UInt8} {n : Int}
    (answer : Accepts accepted offered n after) :
    n < 0 ∧ after = accepted ∨ n = 0 ∧ after = accepted ∨
      ∃ count : Nat, n = count ∧ 1 ≤ count ∧ count ≤ offered.length ∧
        after = accepted ++ offered.take count := by
  cases answer with
  | failed negative => exact .inl ⟨negative, rfl⟩
  | notYet => exact .inr (.inl ⟨rfl, rfl⟩)
  | some positive part => exact .inr (.inr ⟨_, rfl, positive, part, rfl⟩)

theorem sendLoop_ensures (text : Buffer) (len sent spins : Nat)
    (offers : Offers) (part : sent ≤ len) (few : spins ≤ spinsMax)
    (zeros : EndsInZeros spins offers)
    (counted : offers.length ≤ spinsMax * sent + spins) :
    Ensures (Traced accepting) (Sent text len) (SendEnd text len)
      (sendLoop text len sent spins) (text.take sent, offers) := by
  induction sent, spins using sendLoop.induct len generalizing offers with
  | case1 sent spins more again progress =>
      rw [sendLoop, if_pos more]
      refine ⟨sent_take part few counted, ⟨0, _, traced .notYet offers⟩, ?_⟩
      intro n after made
      obtain ⟨accepted, offersAfter⟩ := after
      obtain ⟨answer, noted⟩ := made
      dsimp only at answer noted ⊢
      subst noted
      rcases answer.inversion with ⟨negative, rfl⟩ | ⟨rfl, rfl⟩ |
        ⟨count, rfl, positive, short, rfl⟩
      · rw [if_pos negative]
        refine ⟨sent_take part more.2 ?_, .cut ?_ (.inl ⟨_, _, _, rfl, negative⟩)⟩
        · rw [List.length_append]
          exact Nat.succ_le_succ counted
        · rw [Buffer.take_length]
          exact more.1
      · rw [if_neg (lt_irrefl 0), if_pos rfl]
        refine again _ part more.2 (zeros.next _) ?_
        rw [List.length_append]
        exact Nat.succ_le_succ counted
      · rw [if_neg (by omega), if_neg (by omega)]
        rw [Buffer.slice_length] at short
        rw [Buffer.take_slice text sent short, ← Buffer.take_add]
        refine progress count (by omega) (by omega) _ (by omega) (Nat.zero_le _)
          (endsInZeros_none _) ?_
        have next := Nat.mul_le_mul_left spinsMax positive
        rw [List.length_append, Int.toNat_natCast, Nat.mul_add]
        simp only [List.length_singleton]
        omega
  | case2 sent spins stop =>
      rw [sendLoop, if_neg stop]
      refine ⟨sent_take part few counted, ?_⟩
      split
      · rename_i whole
        rw [whole]
        exact .whole
      · refine .cut ?_ (.inr ?_)
        · rw [Buffer.take_length]
          omega
        · have spent : spins = spinsMax := by omega
          exact spent ▸ zeros

theorem sendAll_ensures (text : Buffer) (len : Nat) :
    Ensures (Traced accepting) (Sent text len) (SendEnd text len)
      (sendAll text len) ([], []) :=
  sendLoop_ensures text len 0 0 [] (Nat.zero_le len) (Nat.zero_le _)
    (endsInZeros_none []) (Nat.zero_le _)

theorem send_all_in_order (text : Buffer) (len : Nat) :
    (∃ value after,
        Returns (Traced accepting) (sendAll text len) ([], []) value after) ∧
      (∀ state, Passes (Traced accepting) (sendAll text len) ([], []) state →
        state.1 <+: text.take len ∧ state.2.length ≤ spinsMax * (len + 1)) ∧
      ∀ value accepted offers,
        Returns (Traced accepting) (sendAll text len) ([], []) value
          (accepted, offers) →
        (value = 0 ↔ accepted = text.take len) ∧ (value = 0 ∨ value = -1) ∧
          (value = -1 → EndsInFailure offers ∨ EndsInZeros spinsMax offers) := by
  have ensured := sendAll_ensures text len
  refine ⟨ensured.exists_returns, fun state run => ensured.passes run, ?_⟩
  intro value accepted offers run
  cases ensured.returns run with
  | whole => exact ⟨by simp, .inl rfl, by simp⟩
  | cut short cause =>
      refine ⟨⟨by simp, fun same => ?_⟩, .inr rfl, fun _ => cause⟩
      rw [same, Buffer.take_length] at short
      exact absurd short (lt_irrefl len)

end Pspssh.Session
