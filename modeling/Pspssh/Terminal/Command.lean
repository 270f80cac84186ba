import Pspssh.Terminal.Surplus

namespace Pspssh.Terminal

open Pspssh.Data

/-! Sequences with one number, and sequences that redraw cells and do nothing
else. -/

/-- `ESC [`, a number and the final byte. -/
def numbered (number : Nat) (final : UInt8) : List UInt8 :=
  csi (decimalText number) final

theorem isBody_decimalText (number : Nat) :
    ∀ ch ∈ decimalText number, IsBody ch := fun ch member =>
  isBody_of_digit (decimalText_digits number ch member)

namespace Parameters

theorem spelt_decimalText {number : Nat} (fits : number ≤ 9999) :
    (spelt (decimalText number)).count = 1 ∧
      (spelt (decimalText number)).values 0 = number := by
  have decimals : Decimals [decimalText number] := by
    intro field member
    obtain rfl := List.mem_singleton.mp member
    exact ⟨decimalText_ne_nil number, decimalText_digits number⟩
  have few : [decimalText number].length ≤ maxParams := Nat.le_add_left 1 7
  have alone : joined [decimalText number] = decimalText number := by
    simp [joined]
  obtain ⟨count, values⟩ := spelt_decimals (List.cons_ne_nil _ []) few decimals
  rw [alone] at count values
  refine ⟨count, (values 0).trans ?_⟩
  change min (decimalValue (decimalText number)) 9999 = number
  rw [decimalValue_decimalText]
  exact min_eq_left fits

theorem valueOrZero_decimalText {number : Nat} (fits : number ≤ 9999) :
    (spelt (decimalText number)).valueOrZero 0 = number := by
  obtain ⟨count, value⟩ := spelt_decimalText fits
  simp [valueOrZero, count, value]

theorem value_decimalText {number : Nat} (positive : 1 ≤ number)
    (fits : number ≤ 9999) (fallback : Int) :
    (spelt (decimalText number)).value 0 fallback = number := by
  obtain ⟨count, value⟩ := spelt_decimalText fits
  have seen := seen_of_counted (decimalText number) (by omega)
  have nonzero : number ≠ 0 := by omega
  simp [Parameters.value, count, value, seen, nonzero]

end Parameters

namespace Term

variable {term : Term}

theorem termFeed_redraws (ground : term.state = .ground) {body : List UInt8}
    (whole : ∀ ch ∈ body, IsBody ch) {final : UInt8} (last : IsFinal final)
    {cells : Int → Int → Cell}
    (carried : ∀ marker,
      (term.collecting (Parameters.spelt body) marker).dispatchCsi final =
        (term.collecting (Parameters.spelt body) marker).withGrid cells) :
    (termFeed (csi body final) term).settled =
      (term.withGrid cells).settled := by
  obtain ⟨marker, fed⟩ := termFeed_csi ground whole last
  rw [fed, carried marker]
  unfold settled
  rw [← ground]
  rfl

theorem paramAt_collecting {count : Nat} (positive : 1 ≤ count)
    (fits : count ≤ 9999) (marker : UInt8) :
    (term.collecting (Parameters.spelt (decimalText count)) marker).paramAt 0 1
      = count :=
  (paramAt_zero _ 1).trans (Parameters.value_decimalText positive fits 1)

theorem termFeed_counted (safe : term.Safe) (ground : term.state = .ground)
    {count : Nat} (positive : 1 ≤ count) (fits : count ≤ 9999) {final : UInt8}
    (last : IsFinal final) {operation : Int → Term → Term}
    (passes : ∀ state : Term,
      state.dispatchCsi final = operation (state.paramAt 0 1) state)
    {cells : Int → Int → Cell}
    (carried : ∀ given marker, (term.collecting given marker).Geometry →
      operation count (term.collecting given marker) =
        (term.collecting given marker).withGrid cells) :
    (termFeed (numbered count final) term).settled =
      (term.withGrid cells).settled := by
  have whole := isBody_decimalText count
  apply termFeed_redraws ground whole last
  intro marker
  rw [passes, paramAt_collecting positive fits]
  exact carried _ marker (safe.collecting ground whole marker).toGeometry

theorem termFeed_then (safe : term.Safe) {first second : List UInt8}
    {once : Term} (next : Term → Term)
    (fed : (termFeed first term).settled = once.settled)
    (ground : once.state = .ground)
    (follows : ∀ {state : Term}, state.Safe → state.state = .ground →
      (termFeed second state).settled = (next state).settled)
    (commutes : ∀ state : Term,
      (next state).settled = (next state.settled).settled) :
    (termFeed (first ++ second) term).settled = (next once).settled := by
  have between : (termFeed first term).state = .ground :=
    (congrArg state fed).trans ground
  rw [termFeed_append, follows (safe.termFeed first) between, commutes, fed,
    ← commutes]

/-- The parser between two sequences, whatever it was reading. -/
def ready (term : Term) : Term :=
  { term with state := .ground }

theorem Safe.ready (safe : term.Safe) : term.ready.Safe :=
  safe.withState .ground

end Term

end Pspssh.Terminal
