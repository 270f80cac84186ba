import Pspssh.Core.Session

namespace Pspssh.Core

open Pspssh.Data Pspssh.Session
open Pspssh.Data.Process (Returns iterate returns_bind returns_iterate)

/-! The two accounts of a session agree: what comes of its calls is what
`Session.pspsshOpen` and `Session.pspsshWrite` make of the answers. -/

/-- `wolfSSH_get_error` tells what the last attempt has left, and asking changes
nothing; a code has one name. -/
structure Steady {Op : Type} {Result : Op → Type} {σ : Type}
    (library : (call : LibraryCall) → Process Result call.Result)
    (world : World Result σ) (error : σ → SshError)
    (name : SshError → List UInt8) : Prop where
  error : ∀ state result after, Returns world (library .getError) state result after →
    result = error state ∧ after = state
  name : ∀ code state result after,
    Returns world (library (.errorToName code)) state result after → result = name code

section Agreement

variable {Op : Type} {Result : Op → Type} {σ : Type} {world : World Result σ}
  {library : (call : LibraryCall) → Process Result call.Result}
  {config : PspsshConfig Result} {error : σ → SshError} {name : SshError → List UInt8}
  {state after : σ} {session last : PspsshSession} {success : Bool}

/-- A key is checked as by a policy that answers what its process came to. -/
theorem hostkeyCheck_answers
    {onHostkey : Option (List UInt8 → List UInt8 → Process Result Int)}
    {key : List UInt8} {sha : Sha256} {encoded fingerprint : Buffer}
    {value : KeyAnswer × PspsshSession}
    (run : Returns world (hostkeyCheck onHostkey key sha encoded fingerprint session)
      state value after) :
    ∃ answer, value = Session.hostkeyCheck
      ⟨key, sha, encoded, fingerprint, onHostkey.map fun _ _ _ => answer⟩ session := by
  cases onHostkey with
  | none =>
      cases run
      exact ⟨0, rfl⟩
  | some policy =>
      simp only [hostkeyCheck] at run
      split_ifs at run with failed
      · cases run
        exact ⟨0, by simp only [Session.hostkeyCheck, Option.map_some, if_pos failed]⟩
      · obtain ⟨answer, _, _, run⟩ := returns_bind run
        refine ⟨answer, ?_⟩
        simp only [Session.hostkeyCheck, Option.map_some, if_neg failed]
        split_ifs at run ⊢ <;> (cases run; rfl)

/-- However often `wolfSSH_connect` asks, the session is left as the checks of the
keys leave it. -/
theorem connect_checks
    (run : Returns world (connect library config session) state (success, last) after) :
    ∃ offers : List Offer,
      last = offers.foldl (fun session offer => (Session.hostkeyCheck offer session).2)
        session := by
  obtain ⟨first, _, _, run⟩ := returns_bind run
  refine returns_iterate (motive := fun memory _ value _ => ∃ offers : List Offer,
    value.2 = offers.foldl (fun session offer => (Session.hostkeyCheck offer session).2)
      memory.2) run ?_ ?_
  · rintro ⟨turn, session⟩ state value after run
    cases turn with
    | asksKey =>
        obtain ⟨_, _, _, run⟩ := returns_bind run
        obtain ⟨_, _, _, run⟩ := returns_bind run
        cases run
    | asksAuth =>
        obtain ⟨_, _, _, run⟩ := returns_bind run
        cases run
    | returns =>
        cases run
        exact ⟨[], rfl⟩
  · rintro ⟨turn, session⟩ state middle between value after run ⟨offers, folded⟩
    cases turn with
    | asksKey key sha encoded fingerprint =>
        obtain ⟨checked, _, check, run⟩ := returns_bind run
        obtain ⟨answer, rfl⟩ := hostkeyCheck_answers check
        obtain ⟨_, _, _, run⟩ := returns_bind run
        cases run
        exact ⟨_ :: offers, folded⟩
    | asksAuth =>
        obtain ⟨_, _, _, run⟩ := returns_bind run
        cases run
        exact ⟨offers, folded⟩
    | returns => cases run

theorem isFinal_returns (steady : Steady library world error name) {final : Bool}
    (run : Returns world (isFinal library) state final after) :
    after = state ∧
      (final = true ↔ error state ≠ .wantRead ∧ error state ≠ .wantWrite) := by
  obtain ⟨first, _, asked, behind⟩ := returns_bind run
  obtain ⟨rfl, rfl⟩ := steady.error _ _ _ asked
  split_ifs at behind with read
  · obtain ⟨second, _, asked, last⟩ := returns_bind behind
    obtain ⟨rfl, rfl⟩ := steady.error _ _ _ asked
    cases last
    exact ⟨rfl, by simp [read]⟩
  · cases behind
    exact ⟨rfl, by simp [not_not.mp read]⟩

/-! ## The loop -/

/-- The loop looks at no attempt and no wait but those from its turn on. -/
theorem connectLoop_congr {run other : Handshake} {budget : Int} {turn : Nat}
    (same : ∀ later, turn ≤ later →
      run.connect later = other.connect later ∧ run.onWait later = other.onWait later)
    (waited : Int) (session : PspsshSession) :
    connectLoop run budget turn waited session =
      connectLoop other budget turn waited session := by
  induction left : (budget - waited).toNat using Nat.strong_induction_on
    generalizing turn waited session with
  | h left ih =>
      obtain ⟨attempt, wait⟩ := same turn (le_refl turn)
      rw [connectLoop, connectLoop, attempt, wait]
      cases (other.connect turn).outcome with
      | success => rfl
      | failure code =>
          have cost := one_le_waitCost (other.onWait turn)
          dsimp only
          split
          · rfl
          split
          · exact ih _ (by omega) (fun later behind => same later (by omega)) _ _ rfl
          · rfl

/-- What a round of the loop comes to, by the keys that were offered in it and by
what went wrong. -/
inductive Round (error : σ → SshError) (budget : Int) (memory : Int × PspsshSession) :
    (Int × PspsshSession) ⊕ (Bool × Int × PspsshSession) → σ → Prop where
  | connected (offers : List Offer) {after : σ} :
      Round error budget memory
        (.inr (true, memory.1, Attempt.check ⟨offers, .success⟩ memory.2)) after
  | failed (offers : List Offer) {after : σ}
      (final : error after ≠ .wantRead ∧ error after ≠ .wantWrite) :
      Round error budget memory
        (.inr (false, memory.1,
          Attempt.check ⟨offers, .failure (error after)⟩ memory.2)) after
  | expired (offers : List Offer) (code : SshError) (slept : Int32) {after : σ}
      (asks : ¬ (code ≠ .wantRead ∧ code ≠ .wantWrite))
      (spent : ¬ memory.1 + waitCost slept < budget) :
      Round error budget memory
        (.inr (false, memory.1 + waitCost slept,
          Attempt.check ⟨offers, .failure code⟩ memory.2)) after
  | waited (offers : List Offer) (code : SshError) (slept : Int32) {after : σ}
      (asks : ¬ (code ≠ .wantRead ∧ code ≠ .wantWrite))
      (more : memory.1 + waitCost slept < budget) :
      Round error budget memory
        (.inl (memory.1 + waitCost slept,
          Attempt.check ⟨offers, .failure code⟩ memory.2)) after

variable (config) in
/-- A round of the loop, with everything that it can come to. -/
theorem handshake_rounds (steady : Steady library world error name)
    (onWait : Process Result Int32) (budget : Int32) (session : PspsshSession) :
    ∃ body, handshake library config onWait budget session =
        iterate body ((0 : Int), session) ∧
      ∀ memory state left after, Returns world (body memory) state left after →
        Round error budget.toInt memory left after := by
  refine ⟨_, rfl, ?_⟩
  rintro ⟨waited, session⟩ state left after run
  obtain ⟨⟨success, checked⟩, _, tried, run⟩ := returns_bind run
  obtain ⟨offers, rfl⟩ := connect_checks tried
  dsimp only at run
  split_ifs at run with connected
  · cases run
    exact .connected offers
  obtain ⟨final, middle, asked, behind⟩ := returns_bind run
  obtain ⟨rfl, final_iff⟩ := isFinal_returns steady asked
  split_ifs at behind with final
  · cases behind
    exact .failed offers (final_iff.mp final)
  obtain ⟨slept, _, _, behind⟩ := returns_bind behind
  split_ifs at behind with more
  · cases behind
    exact .waited offers _ slept (mt final_iff.mpr final) more
  · cases behind
    exact .expired offers _ slept (mt final_iff.mpr final) more

/-- The loop was left so, and what went wrong last can still be asked for. -/
structure Left (error : σ → SshError) (budget : Int) (stopped : Stopped)
    (value : Bool × Int × PspsshSession) (after : σ) : Prop where
  waited : stopped.waited = value.2.1
  session : stopped.session = value.2.2
  success : value.1 = true → stopped.ret = .success
  failure : value.1 = false → ∃ code, stopped.ret = .failure code ∧
    (stopped.waited < budget → code = error after)

/-- The loop from one of its turns on is left as by some attempts and waits. -/
theorem handshake_left (steady : Steady library world error name)
    {onWait : Process Result Int32} {budget : Int32}
    {value : Bool × Int × PspsshSession}
    (run : Returns world (handshake library config onWait budget session) state value
      after) :
    ∃ run : Handshake,
      Left error budget.toInt (connectLoop run budget.toInt 0 0 session) value after := by
  obtain ⟨body, loop, rounds⟩ := handshake_rounds config steady onWait budget session
  rw [loop] at run
  refine returns_iterate (motive := fun memory _ value after => ∀ turn,
    ∃ run : Handshake, Left error budget.toInt
      (connectLoop run budget.toInt turn memory.1 memory.2) value after) run ?_ ?_ 0
  · intro memory state value after run turn
    cases rounds _ _ _ _ run with
    | connected offers =>
        refine ⟨⟨fun _ => ⟨offers, .success⟩, fun _ => 0⟩, ?_⟩
        rw [connectLoop]
        exact ⟨rfl, rfl, fun _ => rfl, fun other => absurd other (by simp)⟩
    | failed offers final =>
        refine ⟨⟨fun _ => ⟨offers, .failure (error after)⟩, fun _ => 0⟩, ?_⟩
        rw [connectLoop]
        dsimp only
        rw [if_pos final]
        exact ⟨rfl, rfl, fun other => absurd other (by simp),
          fun _ => ⟨_, rfl, fun _ => rfl⟩⟩
    | expired offers code slept asks spent =>
        refine ⟨⟨fun _ => ⟨offers, .failure code⟩, fun _ => slept⟩, ?_⟩
        rw [connectLoop]
        dsimp only
        rw [if_neg asks, if_neg spent]
        exact ⟨rfl, rfl, fun other => absurd other (by simp),
          fun _ => ⟨_, rfl, fun early => absurd early spent⟩⟩
  · intro memory state middle between value after run rest turn
    cases rounds _ _ _ _ run with
    | waited offers code slept asks more =>
        obtain ⟨later, left⟩ := rest (turn + 1)
        have apart {other : Nat} (behind : turn + 1 ≤ other) : other ≠ turn := by omega
        refine ⟨⟨Function.update later.connect turn ⟨offers, .failure code⟩,
          Function.update later.onWait turn slept⟩, ?_⟩
        rw [connectLoop]
        simp only [Function.update_self]
        rw [if_neg asks, if_pos more, connectLoop_congr]
        · exact left
        · intro other behind
          exact ⟨Function.update_of_ne (apart behind) _ _,
            Function.update_of_ne (apart behind) _ _⟩

/-! ## What becomes of it -/

theorem failed_returns {ctx ssh : Bool} {value : Except (List UInt8) PspsshSession}
    (run : Returns world (failed library ctx ssh session) state value after) :
    value = .error (reason session) := by
  obtain ⟨_, _, _, run⟩ := returns_bind run
  cases run
  rfl

theorem afterHandshake_returns (steady : Steady library world error name)
    {budget : Int32} {waited : Int} {stopped : Stopped}
    {value : Except (List UInt8) PspsshSession}
    (left : Left error budget.toInt stopped (success, waited, session) state)
    (run : Returns world (afterHandshake library config budget success waited session)
      state value after) :
    value = openResult name budget stopped := by
  obtain ⟨rfl, rfl, succeeded, gaveUp⟩ := left
  rw [afterHandshake] at run
  cases success with
  | true =>
      rw [openResult, succeeded rfl]
      simp only [not_true_eq_false, false_and, if_false] at run
      split_ifs at run
      · obtain ⟨_, _, _, run⟩ := returns_bind run
        cases run
        rfl
      · cases run
        rfl
  | false =>
      obtain ⟨code, ret, coded⟩ := gaveUp rfl
      rw [openResult, ret]
      dsimp only
      simp only [Bool.false_eq_true, not_false_eq_true, true_and, if_true] at run
      split_ifs at run ⊢ with spent refused
      · exact failed_returns run
      · exact failed_returns run
      · obtain ⟨_, _, asked, run⟩ := returns_bind run
        obtain ⟨rfl, rfl⟩ := steady.error _ _ _ asked
        obtain ⟨_, _, named, run⟩ := returns_bind run
        rw [coded (not_le.mp spent), ← steady.name _ _ _ _ named]
        exact failed_returns run

/-- Once there is a connection, `pspssh_open` fails on the way to the handshake, or
comes to what `Session.pspsshOpen` makes of some answers of the library, the policy
and the waits. -/
theorem openConnection_agrees (steady : Steady library world error name)
    {user : List UInt8} {onWait : Process Result Int32}
    {value : Except (List UInt8) PspsshSession}
    (run : Returns world (openConnection library config user onWait .fresh) state value
      after) :
    value = .error (reason (setError .fresh (ascii "the user name was not accepted"))) ∨
      value = .error
        (reason (setError .fresh (ascii "a pty session could not be requested"))) ∨
      ∃ run : Handshake,
        value = Session.pspsshOpen name config.handshakeTimeoutMs run := by
  obtain ⟨_, _, _, run⟩ := returns_bind run
  obtain ⟨_, _, _, run⟩ := returns_bind run
  obtain ⟨_, _, _, run⟩ := returns_bind run
  obtain ⟨_, _, _, run⟩ := returns_bind run
  obtain ⟨named, _, _, run⟩ := returns_bind run
  cases named with
  | false => exact .inl (failed_returns run)
  | true =>
      obtain ⟨requested, _, _, run⟩ := returns_bind run
      cases requested with
      | false => exact .inr (.inl (failed_returns run))
      | true =>
          obtain ⟨⟨success, waited, session⟩, _, shaken, run⟩ := returns_bind run
          obtain ⟨answers, left⟩ := handshake_left steady shaken
          exact .inr (.inr ⟨answers, afterHandshake_returns steady left run⟩)

/-- What is written is answered as by `Session.pspsshWrite`. -/
theorem pspsshWrite_agrees (steady : Steady library world error name)
    {data : List UInt8} {value : Int × PspsshSession}
    (run : Returns world (pspsshWrite library data session) state value after) :
    ∃ n between, Returns world (library (.streamSend data)) state n between ∧
      Session.pspsshWrite name (some session) n (error between) =
        (value.1, some value.2) := by
  obtain ⟨n, between, offered, run⟩ := returns_bind run
  refine ⟨n, between, offered, ?_⟩
  dsimp only [Session.pspsshWrite]
  split_ifs at run ⊢ with taken
  · cases run
    rfl
  obtain ⟨code, _, asked, behind⟩ := returns_bind run
  obtain ⟨rfl, rfl⟩ := steady.error _ _ _ asked
  cases failure : error _ with
  | wantRead | wantWrite =>
      rw [failure] at behind
      cases behind
      rfl
  | windowFull =>
      rw [failure] at behind
      obtain ⟨_, _, _, behind⟩ := returns_bind behind
      cases behind
      rfl
  | eof | other =>
      rw [failure] at behind
      obtain ⟨again, _, asked, behind⟩ := returns_bind behind
      obtain ⟨rfl, rfl⟩ := steady.error _ _ _ asked
      obtain ⟨_, _, named, behind⟩ := returns_bind behind
      obtain rfl := steady.name _ _ _ _ named
      cases behind
      rw [failure]

end Agreement

end Pspssh.Core
