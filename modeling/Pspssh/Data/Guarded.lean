import Pspssh.Data.Program

namespace Pspssh.Data.Program

/-! What holds of the calls that a program makes. -/

variable {Op : Type} {Result : Op → Type} {α β σ : Type}
  {world : World Result σ}

/-- Some run of the program makes this call in this state. -/
inductive Asks (world : World Result σ) :
    Program Result α → σ → (op : Op) → σ → Prop where
  | here {op : Op} {next : Result op → Program Result α} {state : σ} :
      Asks world (.call op next) state op state
  | later {op other : Op} {next : Result op → Program Result α}
      {result : Result op} {state between reached : σ}
      (made : world state op result between)
      (rest : Asks world (next result) between other reached) :
      Asks world (.call op next) state other reached

/-- Every call of every run from the state is `allowed` where it is made, and
every run that ends does so in `post`. -/
def Guarded (world : World Result σ) (allowed : Op → σ → Prop)
    (post : α → σ → Prop) : Program Result α → σ → Prop
  | .done value, state => post value state
  | .call op next, state =>
      allowed op state ∧ ∀ result after, world state op result after →
        Guarded world allowed post (next result) after

namespace Guarded

variable {allowed : Op → σ → Prop} {post : α → σ → Prop}

theorem bind {program : Program Result α} {rest : α → Program Result β}
    {state : σ} {last : β → σ → Prop}
    (guarded : Guarded world allowed
      (fun value after => Guarded world allowed last (rest value) after)
      program state) :
    Guarded world allowed last (program.bind rest) state := by
  induction program generalizing state with
  | done value => exact guarded
  | call op next ih =>
      obtain ⟨permitted, every⟩ := guarded
      exact ⟨permitted, fun result after made =>
        ih result (every result after made)⟩

theorem mono {program : Program Result α} {state : σ} {last : α → σ → Prop}
    (guarded : Guarded world allowed post program state)
    (ends : ∀ value state, post value state → last value state) :
    Guarded world allowed last program state := by
  induction program generalizing state with
  | done value => exact ends value state guarded
  | call op next ih =>
      obtain ⟨permitted, every⟩ := guarded
      exact ⟨permitted, fun result after made =>
        ih result (every result after made)⟩

theorem returns {program : Program Result α} {state after : σ} {value : α}
    (guarded : Guarded world allowed post program state)
    (run : Returns world program state value after) : post value after := by
  induction run with
  | done => exact guarded
  | call made _ ih => exact ih (guarded.2 _ _ made)

theorem asks {program : Program Result α} {state reached : σ} {op : Op}
    (guarded : Guarded world allowed post program state)
    (asked : Asks world program state op reached) : allowed op reached := by
  induction asked with
  | here => exact guarded.1
  | later made _ ih => exact ih (guarded.2 _ _ made)

theorem and {program : Program Result α} {state : σ} {also : Op → σ → Prop}
    {last : α → σ → Prop}
    (guarded : Guarded world allowed post program state)
    (more : Guarded world also last program state) :
    Guarded world (fun op state => allowed op state ∧ also op state)
      (fun value state => post value state ∧ last value state) program state := by
  induction program generalizing state with
  | done value => exact ⟨guarded, more⟩
  | call op next ih =>
      obtain ⟨permitted, every⟩ := guarded
      obtain ⟨further, each⟩ := more
      exact ⟨⟨permitted, further⟩, fun result after made =>
        ih result (every result after made) (each result after made)⟩

end Guarded

end Pspssh.Data.Program
