import Mathlib

namespace Pspssh.Data

/-! A binary search in an index whose keys only increase. -/

section Search

variable {κ : Type} [LinearOrder κ] {keyAt : Nat → κ} {key : κ}
  {low high found : Nat}

/-- The place of the key among those in `low ≤ i < high`. -/
def binarySearch (keyAt : Nat → κ) (key : κ) (low high : Nat) : Option Nat :=
  if low < high then
    let middle := (low + high) / 2
    if key = keyAt middle then some middle
    else if key < keyAt middle then binarySearch keyAt key low middle
    else binarySearch keyAt key (middle + 1) high
  else none
termination_by high - low

theorem binarySearch_sound (search : binarySearch keyAt key low high = some found) :
    low ≤ found ∧ found < high ∧ keyAt found = key := by
  fun_induction binarySearch with
  | case1 low high room middle same =>
      have here : middle = found := Option.some.inj search
      rw [← here]
      exact ⟨by omega, by omega, same.symm⟩
  | case2 low high room middle other before ih =>
      obtain ⟨lower, upper, same⟩ := ih search
      exact ⟨lower, by omega, same⟩
  | case3 low high room middle other behind ih =>
      obtain ⟨lower, upper, same⟩ := ih search
      exact ⟨by omega, upper, same⟩
  | case4 => cases search

theorem binarySearch_complete (increasing : StrictMonoOn keyAt (Set.Ico low high))
    (lower : low ≤ found) (upper : found < high) (same : keyAt found = key) :
    binarySearch keyAt key low high = some found := by
  fun_induction binarySearch with
  | case1 low high room middle here =>
      have inside : middle ∈ Set.Ico low high := ⟨by omega, by omega⟩
      exact congrArg some
        (increasing.injOn inside ⟨lower, upper⟩ (here.symm.trans same.symm))
  | case2 low high room middle other before ih =>
      have inside : middle ∈ Set.Ico low high := ⟨by omega, by omega⟩
      have left : found < middle :=
        (increasing.lt_iff_lt ⟨lower, upper⟩ inside).mp (same.trans_lt before)
      refine ih (increasing.mono fun i member => ?_) lower left
      exact ⟨member.1, member.2.trans_le inside.2.le⟩
  | case3 low high room middle other behind ih =>
      have inside : middle ∈ Set.Ico low high := ⟨by omega, by omega⟩
      have above : keyAt middle < keyAt found := by
        rw [same]
        exact lt_of_le_of_ne (not_lt.mp behind) (Ne.symm other)
      have right : middle < found :=
        (increasing.lt_iff_lt inside ⟨lower, upper⟩).mp above
      refine ih (increasing.mono fun i member => ?_) right upper
      exact ⟨by have := member.1; omega, member.2⟩
  | case4 low high empty => omega

/-- The search finds the key where it is, and no key that is not there. -/
theorem binarySearch_eq_some_iff
    (increasing : StrictMonoOn keyAt (Set.Ico low high)) :
    binarySearch keyAt key low high = some found ↔
      low ≤ found ∧ found < high ∧ keyAt found = key := by
  constructor
  · exact binarySearch_sound
  · rintro ⟨lower, upper, same⟩
    exact binarySearch_complete increasing lower upper same

end Search

end Pspssh.Data
