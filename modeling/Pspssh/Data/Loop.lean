import Mathlib

namespace Pspssh.Data

/-! The counted loops of C over a state, with the rules that carry an invariant
through them. -/

def countUp (body : Int → σ → σ) : Nat → Int → σ → σ
  | 0, _, state => state
  | count + 1, counter, state => countUp body count (counter + 1) (body counter state)

/-- `for (i = low; i < high; i++) body(i)`. -/
def forUp (low high : Int) (body : Int → σ → σ) (state : σ) : σ :=
  countUp body (high - low).toNat low state

def countDown (body : Int → σ → σ) : Nat → Int → σ → σ
  | 0, _, state => state
  | count + 1, counter, state => countDown body count (counter - 1) (body counter state)

/-- `for (i = high; i > low; i--) body(i)`. -/
def forDown (high low : Int) (body : Int → σ → σ) (state : σ) : σ :=
  countDown body (high - low).toNat high state

/-- `while (test) body`, stopped after `fuel` passes. -/
def whileLoop (test : σ → Bool) (body : σ → σ) : Nat → σ → σ
  | 0, state => state
  | fuel + 1, state =>
      if test state then whileLoop test body fuel (body state) else state

theorem countUp_invariant {body : Int → σ → σ} (motive : Int → σ → Prop)
    {count : Nat} {low : Int} {state : σ}
    (start : motive low state)
    (step : ∀ i state, low ≤ i → i < low + count →
      motive i state → motive (i + 1) (body i state)) :
    motive (low + count) (countUp body count low state) := by
  induction count generalizing low state with
  | zero => simpa [countUp] using start
  | succ count ih =>
      have next : motive (low + 1) (body low state) :=
        step low state (by omega) (by omega) start
      have rest := ih next (fun i state lower upper =>
        step i state (by omega) (by omega))
      rw [show low + ((count + 1 : Nat) : Int) = low + 1 + (count : Int) by
        omega]
      exact rest

/-- An invariant indexed by the counter holds, after the loop, at the value
the counter stopped at. -/
theorem forUp_invariant {body : Int → σ → σ} (motive : Int → σ → Prop)
    {low high : Int} {state : σ}
    (start : motive low state)
    (step : ∀ i state, low ≤ i → i < high →
      motive i state → motive (i + 1) (body i state)) :
    motive (max low high) (forUp low high body state) := by
  have run : motive (low + ((high - low).toNat : Int))
      (countUp body (high - low).toNat low state) :=
    countUp_invariant motive start
      (fun i state lower upper => step i state lower (by omega))
  rw [show max low high = low + ((high - low).toNat : Int) by omega]
  exact run

/-- When `trace i` is the state the loop has reached as its counter becomes
`i`, the loop ends in the last of these states. -/
theorem forUp_eq {body : Int → σ → σ} (trace : Int → σ) {low high : Int}
    {state result : σ} (start : state = trace low)
    (step : ∀ i, low ≤ i → i < high → body i (trace i) = trace (i + 1))
    (finish : trace (max low high) = result) :
    forUp low high body state = result := by
  rw [← finish]
  apply forUp_invariant (fun i state => state = trace i) start
  intro i state lower upper reached
  rw [reached]
  exact step i lower upper

theorem countUp_shift (body : Int → σ → σ) (count : Nat) (low shift : Int)
    (state : σ) :
    countUp body count low state =
      countUp (fun i => body (i - shift)) count (low + shift) state := by
  induction count generalizing low state with
  | zero => rfl
  | succ count ih =>
      rw [countUp, countUp, ih, Int.add_sub_cancel, Int.add_right_comm]

/-- A loop may count from another start. -/
theorem forUp_shift (body : Int → σ → σ) (low high shift : Int) (state : σ) :
    forUp low high body state =
      forUp (low + shift) (high + shift) (fun i => body (i - shift)) state := by
  unfold forUp
  rw [countUp_shift _ _ _ shift, Int.add_sub_add_right]

theorem countDown_invariant {body : Int → σ → σ} (motive : Int → σ → Prop)
    {count : Nat} {high : Int} {state : σ}
    (start : motive high state)
    (step : ∀ i state, high - count < i → i ≤ high →
      motive i state → motive (i - 1) (body i state)) :
    motive (high - count) (countDown body count high state) := by
  induction count generalizing high state with
  | zero => simpa [countDown] using start
  | succ count ih =>
      have next : motive (high - 1) (body high state) :=
        step high state (by omega) (by omega) start
      have rest := ih next (fun i state lower upper =>
        step i state (by omega) (by omega))
      rw [show high - ((count + 1 : Nat) : Int) = high - 1 - (count : Int) by
        omega]
      exact rest

theorem forDown_invariant {body : Int → σ → σ} (motive : Int → σ → Prop)
    {high low : Int} {state : σ}
    (start : motive high state)
    (step : ∀ i state, low < i → i ≤ high →
      motive i state → motive (i - 1) (body i state)) :
    motive (min high low) (forDown high low body state) := by
  have run : motive (high - ((high - low).toNat : Int))
      (countDown body (high - low).toNat high state) :=
    countDown_invariant motive start
      (fun i state lower upper => step i state (by omega) upper)
  rw [show min high low = high - ((high - low).toNat : Int) by omega]
  exact run

theorem forDown_eq {body : Int → σ → σ} (trace : Int → σ) {high low : Int}
    {state result : σ} (start : state = trace high)
    (step : ∀ i, low < i → i ≤ high → body i (trace i) = trace (i - 1))
    (finish : trace (min high low) = result) :
    forDown high low body state = result := by
  rw [← finish]
  apply forDown_invariant (fun i state => state = trace i) start
  intro i state lower upper reached
  rw [reached]
  exact step i lower upper

/-- With a variant that the body brings down, the fuel bounds nothing: the
loop ends because its test fails, with its invariant still true. -/
theorem whileLoop_invariant {test : σ → Bool} {body : σ → σ}
    (motive : σ → Prop) (variant : σ → Nat) {fuel : Nat} {state : σ}
    (enough : variant state ≤ fuel)
    (positive : ∀ state, motive state → test state = true → 0 < variant state)
    (decrease : ∀ state, motive state → test state = true →
      variant (body state) < variant state)
    (start : motive state)
    (step : ∀ state, motive state → test state = true → motive (body state)) :
    motive (whileLoop test body fuel state) ∧
      test (whileLoop test body fuel state) = false := by
  induction fuel generalizing state with
  | zero =>
      refine ⟨start, ?_⟩
      cases holds : test state with
      | false => exact holds
      | true =>
          have := positive state start holds
          omega
  | succ fuel ih =>
      rw [whileLoop]
      cases holds : test state with
      | false => exact ⟨by simpa using start, by simpa using holds⟩
      | true =>
          have smaller := decrease state start holds
          simpa using ih (by omega) (step state start holds)

/-- When the test holds of `trace i` up to `high` and not there, the loop ends
in `trace high`. -/
theorem whileLoop_eq {test : σ → Bool} {body : σ → σ} (trace : Int → σ)
    {fuel : Nat} {low high : Int} {state : σ} (start : state = trace low)
    (enough : high ≤ low + fuel) (ordered : low ≤ high)
    (continues : ∀ i, low ≤ i → i < high → test (trace i) = true)
    (step : ∀ i, low ≤ i → i < high → body (trace i) = trace (i + 1))
    (stops : test (trace high) = false) :
    whileLoop test body fuel state = trace high := by
  subst start
  induction fuel generalizing low with
  | zero =>
      obtain rfl : low = high := by omega
      rfl
  | succ fuel ih =>
      rw [whileLoop]
      rcases Int.lt_or_eq_of_le ordered with more | rfl
      · rw [if_pos (continues low (Int.le_refl low) more),
          step low (Int.le_refl low) more]
        exact ih (by omega) (by omega)
          (fun i lower => continues i (by omega))
          (fun i lower => step i (by omega))
      · rw [if_neg (by simp [stops])]

theorem whileLoop_related {test : σ → Bool} {body : σ → σ}
    (relation : σ → σ → Prop)
    (sameTest : ∀ left right, relation left right → test left = test right)
    (step : ∀ left right, relation left right → test left = true →
      relation (body left) (body right))
    {fuel : Nat} {left right : σ} (start : relation left right) :
    relation (whileLoop test body fuel left)
      (whileLoop test body fuel right) := by
  induction fuel generalizing left right with
  | zero => exact start
  | succ fuel ih =>
      rw [whileLoop, whileLoop, ← sameTest left right start]
      split
      · rename_i holds
        exact ih (step left right start holds)
      · exact start

/-- A fold may start from the normal form of a state when each of its steps
may. -/
theorem foldl_normal {step : σ → α → σ} (normal : σ → σ) (valid : σ → Prop)
    (idempotent : ∀ state, normal (normal state) = normal state)
    (normal_valid : ∀ state, valid state → valid (normal state))
    (step_valid : ∀ state item, valid state → valid (step state item))
    (each : ∀ state item, valid state →
      normal (step state item) = normal (step (normal state) item))
    {state : σ} (start : valid state) (items : List α) :
    normal (items.foldl step state) =
      normal (items.foldl step (normal state)) := by
  induction items generalizing state with
  | nil => exact (idempotent state).symm
  | cons item items ih =>
      calc
        normal (items.foldl step (step state item)) =
            normal (items.foldl step (normal (step state item))) :=
          ih (step_valid state item start)
        _ = normal (items.foldl step (normal (step (normal state) item))) := by
          rw [each state item start]
        _ = normal (items.foldl step (step (normal state) item)) :=
          (ih (step_valid _ item (normal_valid state start))).symm

end Pspssh.Data
