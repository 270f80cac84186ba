import Mathlib

namespace Pspssh.Data

/-! What holds at the steps of a run, with the state each step starts from, and
the loops that such a run goes through. -/

variable {step : σ → α → σ} {holds : σ → α → Prop} {state : σ} {item : α}
  {items first rest : List α}

/-- At every step, `holds` is true of the state and of the item taken. -/
def Throughout (step : σ → α → σ) (holds : σ → α → Prop) (state : σ)
    (items : List α) : Prop :=
  ∀ first item rest, items = first ++ item :: rest →
    holds (first.foldl step state) item

/-- At some step, `holds` is true of the state and of the item taken. -/
def Somewhere (step : σ → α → σ) (holds : σ → α → Prop) (state : σ)
    (items : List α) : Prop :=
  ∃ first item rest, items = first ++ item :: rest ∧
    holds (first.foldl step state) item

@[simp] theorem throughout_nil : Throughout step holds state [] := by
  intro first item rest split
  simp at split

@[simp] theorem throughout_cons :
    Throughout step holds state (item :: rest) ↔
      holds state item ∧ Throughout step holds (step state item) rest := by
  constructor
  · intro every
    exact ⟨every [] item rest rfl, fun first other rest split =>
      every (item :: first) other rest (congrArg (item :: ·) split)⟩
  · rintro ⟨here, later⟩ first other behind split
    cases first with
    | nil =>
        cases split
        exact here
    | cons item first =>
        cases split
        exact later first other behind rfl

theorem somewhere_iff_not_throughout :
    Somewhere step holds state items ↔
      ¬ Throughout step (fun state item => ¬ holds state item) state items := by
  simp only [Somewhere, Throughout]
  push Not
  rfl

@[simp] theorem somewhere_nil : ¬ Somewhere step holds state [] := by
  simp [somewhere_iff_not_throughout]

@[simp] theorem somewhere_cons :
    Somewhere step holds state (item :: rest) ↔
      holds state item ∨ Somewhere step holds (step state item) rest := by
  simp only [somewhere_iff_not_throughout, throughout_cons]
  tauto

instance decidableThroughout [∀ state item, Decidable (holds state item)] :
    (state : σ) → (items : List α) →
      Decidable (Throughout step holds state items)
  | _, [] => isTrue throughout_nil
  | state, item :: rest =>
      have := decidableThroughout (step state item) rest
      decidable_of_iff' _ throughout_cons

/-- At some step `sets` is true, and `clears` is true at none after it. -/
def Since (step : σ → α → σ) (sets clears : σ → α → Prop) (state : σ)
    (items : List α) : Prop :=
  ∃ first item rest, items = first ++ item :: rest ∧
    sets (first.foldl step state) item ∧
    ¬ Somewhere step clears (step (first.foldl step state) item) rest

variable {sets clears : σ → α → Prop}

@[simp] theorem since_nil : ¬ Since step sets clears state [] := by
  rintro ⟨first, item, rest, split, _⟩
  simp at split

@[simp] theorem since_cons :
    Since step sets clears state (item :: rest) ↔
      sets state item ∧ ¬ Somewhere step clears (step state item) rest ∨
        Since step sets clears (step state item) rest := by
  constructor
  · rintro ⟨first, other, behind, split, here, later⟩
    cases first with
    | nil =>
        cases split
        exact .inl ⟨here, later⟩
    | cons item first =>
        cases split
        exact .inr ⟨first, other, behind, rfl, here, later⟩
  · rintro (⟨here, later⟩ | ⟨first, other, behind, split, here, later⟩)
    · exact ⟨[], item, rest, rfl, here, later⟩
    · exact ⟨item :: first, other, behind, congrArg (item :: ·) split, here,
        later⟩

theorem Since.somewhere (since : Since step sets clears state items) :
    Somewhere step sets state items := by
  obtain ⟨first, item, rest, split, here, _⟩ := since
  exact ⟨first, item, rest, split, here⟩

/-- A latch that `sets` raises and `clears` drops is up after a run if it was
raised in it and not dropped since, or was up before and is never dropped. -/
theorem latch_iff (latch valid : σ → Prop)
    (step_valid : ∀ state item, valid state → valid (step state item))
    (each : ∀ state item, valid state →
      (latch (step state item) ↔
        sets state item ∨ latch state ∧ ¬ clears state item))
    (start : valid state) :
    latch (items.foldl step state) ↔
      Since step sets clears state items ∨
        latch state ∧ ¬ Somewhere step clears state items := by
  induction items generalizing state with
  | nil => simp
  | cons item rest ih =>
      rw [List.foldl_cons, ih (step_valid state item start),
        each state item start, since_cons, somewhere_cons]
      tauto

/-- An invariant of the steps at which `holds` is true is an invariant of the
runs throughout which it is. -/
theorem Throughout.invariant (motive : σ → Prop)
    (every : Throughout step holds state items)
    (each : ∀ state item, motive state → holds state item →
      motive (step state item))
    (start : motive state) : motive (items.foldl step state) := by
  induction items generalizing state with
  | nil => exact start
  | cons item rest ih =>
      obtain ⟨here, later⟩ := throughout_cons.mp every
      exact ih later (each state item start here)

/-! ## Loops over what is read -/

/-- `while (!stops(state)) state = step(state, next())`, if the loop ends and
has taken exactly these items by then. -/
def runUntil (stops : σ → Bool) (step : σ → α → σ) : σ → List α → Option σ
  | state, [] => if stops state then some state else none
  | state, item :: rest =>
      if stops state then none else runUntil stops step (step state item) rest

theorem runUntil_eq_some_iff {stops : σ → Bool} {last : σ} :
    runUntil stops step state items = some last ↔
      Throughout step (fun state _ => ¬ stops state) state items ∧
        stops last ∧ items.foldl step state = last := by
  induction items generalizing state with
  | nil =>
      simp only [runUntil, throughout_nil, true_and, List.foldl_nil]
      constructor
      · intro found
        obtain ⟨ended, same⟩ := Option.ite_none_right_eq_some.mp found
        cases same
        exact ⟨ended, rfl⟩
      · rintro ⟨ended, rfl⟩
        exact if_pos ended
  | cons item rest ih =>
      rw [throughout_cons, List.foldl_cons, and_assoc, ← ih]
      exact Option.ite_none_left_eq_some

theorem runUntil_stopped {stops : σ → Bool} {last : σ} (stopped : stops state)
    (run : runUntil stops step state items = some last) : last = state := by
  cases items with
  | nil =>
      obtain ⟨_, same⟩ := Option.ite_none_right_eq_some.mp run
      cases same
      rfl
  | cons item rest =>
      obtain ⟨going, _⟩ := Option.ite_none_left_eq_some.mp run
      exact absurd stopped going

theorem getLastD_append (first rest : List α) (start : α) :
    (first ++ rest).getLastD start = rest.getLastD (first.getLastD start) := by
  simp only [List.getLastD_eq_getLast?, List.getLast?_append]
  cases rest.getLast? <;> rfl

end Pspssh.Data
