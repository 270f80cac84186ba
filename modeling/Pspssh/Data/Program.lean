import Mathlib

namespace Pspssh.Data

/-! Programs that act on an outside world by calls, and rules for what holds
while they run. -/

/-- A program either has its value or makes a call and goes on with its
result. -/
inductive Program {Op : Type} (Result : Op → Type) (α : Type) : Type where
  | done (value : α)
  | call (op : Op) (next : Result op → Program Result α)

/-- Which results a call may have in a state, and the states it may leave. -/
abbrev World {Op : Type} (Result : Op → Type) (σ : Type) :=
  σ → (op : Op) → Result op → σ → Prop

abbrev Event {Op : Type} (Result : Op → Type) :=
  (op : Op) × Result op

namespace Program

variable {Op : Type} {Result : Op → Type} {α β σ : Type}

def bind : Program Result α → (α → Program Result β) → Program Result β
  | .done value, rest => rest value
  | .call op next, rest => .call op fun result => (next result).bind rest

instance : Monad (Program Result) where
  pure := .done
  bind := Program.bind

/-! ## Runs -/

inductive Returns (world : World Result σ) :
    Program Result α → σ → α → σ → Prop where
  | done {value : α} {state : σ} : Returns world (.done value) state value state
  | call {op : Op} {next : Result op → Program Result α} {result : Result op}
      {state between after : σ} {value : α}
      (made : world state op result between)
      (rest : Returns world (next result) between value after) :
      Returns world (.call op next) state value after

/-- The program is somewhere in its run, or at its end: between two calls. -/
inductive Passes (world : World Result σ) :
    Program Result α → σ → σ → Prop where
  | here {program : Program Result α} {state : σ} :
      Passes world program state state
  | call {op : Op} {next : Result op → Program Result α} {result : Result op}
      {state between after : σ}
      (made : world state op result between)
      (rest : Passes world (next result) between after) :
      Passes world (.call op next) state after

/-- The world that also writes down the calls made in it. -/
def Traced (world : World Result σ) :
    World Result (σ × List (Event Result)) :=
  fun before op result after =>
    world before.1 op result after.1 ∧ after.2 = before.2 ++ [⟨op, result⟩]

variable {world : World Result σ}

theorem traced {op : Op} {result : Result op} {state after : σ}
    (made : world state op result after) (before : List (Event Result)) :
    Traced world (state, before) op result
      (after, before ++ [⟨op, result⟩]) :=
  ⟨made, rfl⟩

theorem returns_bind_iff {program : Program Result α}
    {rest : α → Program Result β} {state after : σ} {value : β} :
    Returns world (program.bind rest) state value after ↔
      ∃ middle between, Returns world program state middle between ∧
        Returns world (rest middle) between value after := by
  constructor
  · intro run
    induction program generalizing state with
    | done middle => exact ⟨middle, state, .done, run⟩
    | call op next ih =>
        cases run with
        | call made run =>
            obtain ⟨middle, between, first, second⟩ := ih _ run
            exact ⟨middle, between, .call made first, second⟩
  · intro found
    obtain ⟨middle, between, first, second⟩ := found
    induction first with
    | done => exact second
    | call made _ ih => exact .call made (ih second)

theorem bind_done (program : Program Result α) : program.bind .done = program := by
  induction program with
  | done value => rfl
  | call op next ih => exact congrArg (Program.call op) (funext ih)

theorem bind_pure (value : α) (rest : α → Program Result β) :
    (pure value : Program Result α).bind rest = rest value := rfl

theorem bind_assoc {γ : Type} (program : Program Result α)
    (next : α → Program Result β) (last : β → Program Result γ) :
    (program.bind next).bind last =
      program.bind fun value => (next value).bind last := by
  induction program with
  | done value => rfl
  | call op next ih => exact congrArg (Program.call op) (funext ih)

theorem Returns.passes {program : Program Result α} {state after : σ}
    {value : α} (run : Returns world program state value after) :
    Passes world program state after := by
  induction run with
  | done => exact .here
  | call made _ ih => exact .call made ih

theorem Returns.widen {wider : World Result σ} {program : Program Result α}
    {state after : σ} {value : α}
    (run : Returns world program state value after)
    (more : ∀ state op result after,
      world state op result after → wider state op result after) :
    Returns wider program state value after := by
  induction run with
  | done => exact .done
  | call made _ ih => exact .call (more _ _ _ _ made) ih

/-- Programs over a state run one after another, each with a result that is
`allowed`. -/
inductive Sequence {κ μ : Type} (world : World Result σ)
    (run : κ → μ → Program Result (α × μ)) (allowed : κ → α → Prop)
    (first : σ) (start : μ) : σ → μ → Prop where
  | nil : Sequence world run allowed first start first start
  | next {state after : σ} {memory last : μ} {which : κ} {value : α}
      (before : Sequence world run allowed first start state memory)
      (kind : allowed which value)
      (made : Returns world (run which memory) state (value, last) after) :
      Sequence world run allowed first start after last

theorem Sequence.invariant {κ μ : Type} {run : κ → μ → Program Result (α × μ)}
    {allowed : κ → α → Prop} {first last : σ} {start final : μ}
    (motive : σ → μ → Prop)
    (sequence : Sequence world run allowed first start last final)
    (initial : motive first start)
    (step : ∀ which value state memory after next, motive state memory →
      allowed which value →
      Returns world (run which memory) state (value, next) after →
      motive after next) : motive last final := by
  induction sequence with
  | nil => exact initial
  | next _ kind made ih => exact step _ _ _ _ _ _ ih kind made

/-! ## Rules -/

/-- Every run from the state keeps to `kept` at every point and ends in
`post`, and no call on the way is without a result. -/
def Ensures (world : World Result σ) (kept : σ → Prop)
    (post : α → σ → Prop) : Program Result α → σ → Prop
  | .done value, state => kept state ∧ post value state
  | .call op next, state =>
      kept state ∧ (∃ result after, world state op result after) ∧
        ∀ result after, world state op result after →
          Ensures world kept post (next result) after

namespace Ensures

variable {kept : σ → Prop} {post : α → σ → Prop}

theorem bind {program : Program Result α} {rest : α → Program Result β}
    {state : σ} {last : β → σ → Prop}
    (ensured : Ensures world kept
      (fun value after => Ensures world kept last (rest value) after)
      program state) :
    Ensures world kept last (program.bind rest) state := by
  induction program generalizing state with
  | done value => exact ensured.2
  | call op next ih =>
      obtain ⟨holds, possible, every⟩ := ensured
      exact ⟨holds, possible, fun result after made =>
        ih result (every result after made)⟩

theorem mono {program : Program Result α} {state : σ} {weaker : σ → Prop}
    {last : α → σ → Prop} (ensured : Ensures world kept post program state)
    (keeps : ∀ state, kept state → weaker state)
    (ends : ∀ value state, kept state → post value state → last value state) :
    Ensures world weaker last program state := by
  induction program generalizing state with
  | done value =>
      exact ⟨keeps state ensured.1, ends value state ensured.1 ensured.2⟩
  | call op next ih =>
      obtain ⟨holds, possible, every⟩ := ensured
      exact ⟨keeps state holds, possible, fun result after made =>
        ih result (every result after made)⟩

theorem holds {program : Program Result α} {state : σ}
    (ensured : Ensures world kept post program state) : kept state := by
  cases program with
  | done value => exact ensured.1
  | call op next => exact ensured.1

theorem returns {program : Program Result α} {state after : σ} {value : α}
    (ensured : Ensures world kept post program state)
    (run : Returns world program state value after) : post value after := by
  induction run with
  | done => exact ensured.2
  | call made _ ih => exact ih (ensured.2.2 _ _ made)

theorem passes {program : Program Result α} {state after : σ}
    (ensured : Ensures world kept post program state)
    (run : Passes world program state after) : kept after := by
  induction run with
  | here => exact ensured.holds
  | call made _ ih => exact ih (ensured.2.2 _ _ made)

theorem exists_returns {program : Program Result α} {state : σ}
    (ensured : Ensures world kept post program state) :
    ∃ value after, Returns world program state value after := by
  induction program generalizing state with
  | done value => exact ⟨value, state, .done⟩
  | call op next ih =>
      obtain ⟨_, ⟨result, between, made⟩, every⟩ := ensured
      obtain ⟨value, after, rest⟩ := ih result (every result between made)
      exact ⟨value, after, .call made rest⟩

theorem untraced {program : Program Result α} {state : σ}
    (before : List (Event Result))
    (ensured : Ensures (Traced world) (fun traced => kept traced.1)
      (fun value traced => post value traced.1) program (state, before)) :
    Ensures world kept post program state := by
  induction program generalizing state before with
  | done value => exact ensured
  | call op next ih =>
      obtain ⟨holds, ⟨result, after, made⟩, every⟩ := ensured
      refine ⟨holds, ⟨result, after.1, made.1⟩, fun result after made => ?_⟩
      exact ih result _ (every result (after, before ++ [⟨op, result⟩])
        ⟨made, rfl⟩)

end Ensures

end Program

end Pspssh.Data
