import Pspssh.Data.Guarded

namespace Pspssh.Data

/-! Programs with loops that need not end, and the rules for what holds at their
calls and at their ends. -/

/-- A process has its value, makes a call and goes on with its result, or runs
a body over and over until that says to leave. -/
inductive Process {Op : Type} (Result : Op → Type) : Type → Type 1 where
  | done {α : Type} (value : α) : Process Result α
  | call {α : Type} (op : Op) (next : Result op → Process Result α) :
      Process Result α
  | loop {α β γ : Type} (body : β → Process Result (β ⊕ γ)) (start : β)
      (next : γ → Process Result α) : Process Result α

namespace Process

variable {Op : Type} {Result : Op → Type} {α β γ σ : Type}

def bind : Process Result α → (α → Process Result β) → Process Result β
  | .done value, rest => rest value
  | .call op next, rest => .call op fun result => (next result).bind rest
  | .loop body start next, rest =>
      .loop body start fun value => (next value).bind rest

instance : Monad (Process Result) where
  pure := .done
  bind := Process.bind

def ask (op : Op) : Process Result (Result op) :=
  .call op .done

def iterate (body : β → Process Result (β ⊕ γ)) (start : β) : Process Result γ :=
  .loop body start .done

/-- A program that makes its calls by way of others. -/
def via {Inner : Type} {Given : Inner → Type}
    (make : (op : Inner) → Process Result (Given op)) :
    Program Given α → Process Result α
  | .done value => .done value
  | .call op next => (make op).bind fun result => via make (next result)

theorem bind_assoc (process : Process Result α) (first : α → Process Result β)
    (second : β → Process Result γ) :
    (process.bind first).bind second =
      process.bind fun value => (first value).bind second := by
  induction process with
  | done value => rfl
  | call op next ih => exact congrArg _ (funext fun result => ih result first)
  | loop body start next _ ih => exact congrArg _ (funext fun value => ih value first)

theorem via_bind {Inner : Type} {Given : Inner → Type}
    {make : (op : Inner) → Process Result (Given op)} (program : Program Given α)
    (next : α → Program Given β) :
    via make (program >>= next) =
      via make program >>= fun value => via make (next value) := by
  change via make (program.bind next) = (via make program).bind _
  induction program with
  | done value => rfl
  | call op rest ih =>
      change (make op).bind _ = ((make op).bind _).bind _
      rw [bind_assoc]
      exact congrArg _ (funext ih)

/-! ## Runs -/

inductive Returns (world : World Result σ) :
    {α : Type} → Process Result α → σ → α → σ → Prop where
  | done {α : Type} {value : α} {state : σ} :
      Returns world (.done value) state value state
  | call {α : Type} {op : Op} {next : Result op → Process Result α}
      {result : Result op} {state between after : σ} {value : α}
      (made : world state op result between)
      (rest : Returns world (next result) between value after) :
      Returns world (.call op next) state value after
  | again {α β γ : Type} {body : β → Process Result (β ⊕ γ)} {start middle : β}
      {next : γ → Process Result α} {state between after : σ} {value : α}
      (round : Returns world (body start) state (.inl middle) between)
      (rest : Returns world (.loop body middle next) between value after) :
      Returns world (.loop body start next) state value after
  | leave {α β γ : Type} {body : β → Process Result (β ⊕ γ)} {start : β} {last : γ}
      {next : γ → Process Result α} {state between after : σ} {value : α}
      (round : Returns world (body start) state (.inr last) between)
      (rest : Returns world (next last) between value after) :
      Returns world (.loop body start next) state value after

/-- Some run of the process makes this call in this state. -/
inductive Asks (world : World Result σ) :
    {α : Type} → Process Result α → σ → (op : Op) → σ → Prop where
  | here {α : Type} {op : Op} {next : Result op → Process Result α} {state : σ} :
      Asks world (.call op next) state op state
  | later {α : Type} {op other : Op} {next : Result op → Process Result α}
      {result : Result op} {state between reached : σ}
      (made : world state op result between)
      (rest : Asks world (next result) between other reached) :
      Asks world (.call op next) state other reached
  | inside {α β γ : Type} {body : β → Process Result (β ⊕ γ)} {start : β}
      {next : γ → Process Result α} {op : Op} {state reached : σ}
      (asked : Asks world (body start) state op reached) :
      Asks world (.loop body start next) state op reached
  | again {α β γ : Type} {body : β → Process Result (β ⊕ γ)} {start middle : β}
      {next : γ → Process Result α} {op : Op} {state between reached : σ}
      (round : Returns world (body start) state (.inl middle) between)
      (rest : Asks world (.loop body middle next) between op reached) :
      Asks world (.loop body start next) state op reached
  | leave {α β γ : Type} {body : β → Process Result (β ⊕ γ)} {start : β} {last : γ}
      {next : γ → Process Result α} {op : Op} {state between reached : σ}
      (round : Returns world (body start) state (.inr last) between)
      (rest : Asks world (next last) between op reached) :
      Asks world (.loop body start next) state op reached

variable {world : World Result σ}

theorem returns_ask {op : Op} {result : Result op} {state after : σ}
    (run : Returns world (ask op) state result after) :
    world state op result after := by
  cases run with
  | call made rest =>
      cases rest
      exact made

theorem returns_bind {process : Process Result α} {rest : α → Process Result β}
    {state after : σ} {value : β}
    (run : Returns world (process.bind rest) state value after) :
    ∃ middle between, Returns world process state middle between ∧
      Returns world (rest middle) between value after := by
  induction process generalizing state with
  | done middle => exact ⟨middle, state, .done, run⟩
  | call op next ih =>
      cases run with
      | call made run =>
          obtain ⟨middle, between, first, second⟩ := ih _ run
          exact ⟨middle, between, .call made first, second⟩
  | loop body start next inner ih =>
      clear inner
      generalize whole : (Process.loop body start next).bind rest = process at run
      rw [Process.bind] at whole
      induction run generalizing start with
      | done => cases whole
      | call => cases whole
      | again round _ _ again =>
          cases whole
          obtain ⟨middle, between, first, second⟩ := again _ ih rfl
          exact ⟨middle, between, .again round first, second⟩
      | leave round run =>
          cases whole
          obtain ⟨middle, between, first, second⟩ := ih _ run
          exact ⟨middle, between, .leave round first, second⟩

/-- What holds of a loop that runs to its end, from its last round back. -/
theorem returns_iterate {body : β → Process Result (β ⊕ γ)}
    {motive : β → σ → γ → σ → Prop} {start : β} {state after : σ} {value : γ}
    (run : Returns world (iterate body start) state value after)
    (leaves : ∀ memory state value after,
      Returns world (body memory) state (.inr value) after →
        motive memory state value after)
    (goesOn : ∀ memory state middle between value after,
      Returns world (body memory) state (.inl middle) between →
        motive middle between value after → motive memory state value after) :
    motive start state value after := by
  generalize whole : iterate body start = process at run
  rw [iterate] at whole
  induction run generalizing start with
  | done => cases whole
  | call => cases whole
  | again round _ _ again =>
      cases whole
      exact goesOn _ _ _ _ _ _ round (again leaves goesOn rfl)
  | leave round rest =>
      cases whole
      cases rest
      exact leaves _ _ _ _ round

theorem asks_bind {process : Process Result α} {rest : α → Process Result β}
    {state reached : σ} {op : Op}
    (asked : Asks world (process.bind rest) state op reached) :
    Asks world process state op reached ∨
      ∃ middle between, Returns world process state middle between ∧
        Asks world (rest middle) between op reached := by
  induction process generalizing state with
  | done middle => exact .inr ⟨middle, state, .done, asked⟩
  | call first next ih =>
      cases asked with
      | here => exact .inl .here
      | later made asked =>
          rcases ih _ asked with before | ⟨middle, between, run, behind⟩
          · exact .inl (.later made before)
          · exact .inr ⟨middle, between, .call made run, behind⟩
  | loop body start next inner ih =>
      clear inner
      generalize whole : (Process.loop body start next).bind rest = process
        at asked
      rw [Process.bind] at whole
      induction asked generalizing start with
      | here => cases whole
      | later => cases whole
      | inside asked =>
          cases whole
          exact .inl (.inside asked)
      | again round _ again =>
          cases whole
          rcases again _ ih rfl with before | ⟨middle, between, run, behind⟩
          · exact .inl (.again round before)
          · exact .inr ⟨middle, between, .again round run, behind⟩
      | leave round asked =>
          cases whole
          rcases ih _ asked with before | ⟨middle, between, run, behind⟩
          · exact .inl (.leave round before)
          · exact .inr ⟨middle, between, .leave round run, behind⟩

/-- What a program does through the calls of a process, it does in the inner
world that `view` shows. -/
theorem returns_via {Inner τ : Type} {Given : Inner → Type}
    {make : (op : Inner) → Process Result (Given op)} {inside : World Given τ}
    (view : σ → τ)
    (each : ∀ op state result after,
      Returns world (make op) state result after →
        inside (view state) op result (view after))
    {program : Program Given α} {state after : σ} {value : α}
    (run : Returns world (via make program) state value after) :
    Program.Returns inside program (view state) value (view after) := by
  induction program generalizing state with
  | done value =>
      cases run
      exact .done
  | call op next ih =>
      obtain ⟨result, between, first, rest⟩ := returns_bind run
      exact .call (each op state result between first) (ih result rest)

theorem asks_via {Inner τ : Type} {Given : Inner → Type}
    {make : (op : Inner) → Process Result (Given op)} {inside : World Given τ}
    (view : σ → τ)
    (each : ∀ op state result after,
      Returns world (make op) state result after →
        inside (view state) op result (view after))
    {program : Program Given α} {state reached : σ} {op : Op}
    (asked : Asks world (via make program) state op reached) :
    ∃ inner start, Program.Asks inside program (view state) inner (view start) ∧
      Asks world (make inner) start op reached := by
  induction program generalizing state with
  | done value => cases asked
  | call inner next ih =>
      rcases asks_bind asked with here | ⟨result, between, first, asked⟩
      · exact ⟨inner, state, .here, here⟩
      · obtain ⟨later, start, reaches, made⟩ := ih result asked
        exact ⟨later, start, .later (each inner state result between first) reaches,
          made⟩

/-- Every call of every run from the state is so where it is made. -/
def Always (world : World Result σ) (process : Process Result α) (state : σ)
    (holds : Op → σ → Prop) : Prop :=
  ∀ op reached, Asks world process state op reached → holds op reached

/-- Every run from the state that ends does so in `post`. -/
def Ends (world : World Result σ) (process : Process Result α) (state : σ)
    (post : α → σ → Prop) : Prop :=
  ∀ value after, Returns world process state value after → post value after

/-- The world with somebody in it who takes note of the calls, and of the state in
which they are made. -/
def Observed {τ : Type} (world : World Result σ) (note : σ → τ → Event Result → τ) :
    World Result (σ × τ) :=
  fun before op result after =>
    world before.1 op result after.1 ∧ after.2 = note before.1 before.2 ⟨op, result⟩

/-- A program does nothing else because somebody takes note of it. -/
theorem guarded_observed {τ : Type} {note : σ → τ → Event Result → τ}
    {allowed : Op → σ → Prop} {post : α → σ → Prop} {program : Program Result α}
    {state : σ × τ} (guarded : Program.Guarded world allowed post program state.1) :
    Program.Guarded (Observed world note) (fun op state => allowed op state.1)
      (fun value state => post value state.1) program state := by
  induction program generalizing state with
  | done value => exact guarded
  | call op next ih =>
      obtain ⟨permitted, every⟩ := guarded
      exact ⟨permitted, fun result after made => ih result (every result _ made.1)⟩

/-! ## Rules -/

/-- Every call of every run from the state is `allowed` where it is made, and
every run that ends does so in `post`. -/
structure Guarded (world : World Result σ) (allowed : Op → σ → Prop)
    (post : α → σ → Prop) (process : Process Result α) (state : σ) : Prop where
  asks : ∀ op reached, Asks world process state op reached → allowed op reached
  returns : ∀ value after, Returns world process state value after →
    post value after

namespace Guarded

variable {allowed : Op → σ → Prop} {state : σ}

theorem done {post : α → σ → Prop} {value : α} (holds : post value state) :
    Guarded world allowed post (.done value) state where
  asks := by
    intro op reached asked
    cases asked
  returns := by
    intro value after run
    cases run
    exact holds

theorem call {post : α → σ → Prop} {op : Op} {next : Result op → Process Result α}
    (permitted : allowed op state)
    (rest : ∀ result after, world state op result after →
      Guarded world allowed post (next result) after) :
    Guarded world allowed post (.call op next) state where
  asks := by
    intro other reached asked
    cases asked with
    | here => exact permitted
    | later made asked => exact (rest _ _ made).asks _ _ asked
  returns := by
    intro value after run
    cases run with
    | call made run => exact (rest _ _ made).returns _ _ run

theorem bind {process : Process Result α} {rest : α → Process Result β}
    {post : β → σ → Prop}
    (first : Guarded world allowed
      (fun value after => Guarded world allowed post (rest value) after)
      process state) :
    Guarded world allowed post (process.bind rest) state where
  asks := by
    intro op reached asked
    rcases asks_bind asked with before | ⟨middle, between, run, behind⟩
    · exact first.asks op reached before
    · exact (first.returns middle between run).asks op reached behind
  returns := by
    intro value after run
    obtain ⟨middle, between, before, behind⟩ := returns_bind run
    exact (first.returns middle between before).returns value after behind

theorem mono {process : Process Result α} {post weaker : α → σ → Prop}
    (guarded : Guarded world allowed post process state)
    (ends : ∀ value after, post value after → weaker value after) :
    Guarded world allowed weaker process state where
  asks := guarded.asks
  returns value after run := ends value after (guarded.returns value after run)

theorem always {process : Process Result α} {post : α → σ → Prop}
    {holds : Op → σ → Prop} (guarded : Guarded world allowed post process state)
    (each : ∀ op state, allowed op state → holds op state) :
    Always world process state holds :=
  fun op reached asked => each op reached (guarded.asks op reached asked)

theorem permit {process : Process Result α} {post : α → σ → Prop}
    {wider : Op → σ → Prop}
    (guarded : Guarded world allowed post process state)
    (more : ∀ op state, allowed op state → wider op state) :
    Guarded world wider post process state where
  asks op reached asked := more op reached (guarded.asks op reached asked)
  returns := guarded.returns

/-- A loop with an invariant: each round that goes on keeps it, and the round
that leaves does so in a state from which the rest goes well. -/
theorem loop {body : β → Process Result (β ⊕ γ)} {start : β}
    {next : γ → Process Result α} {post : α → σ → Prop}
    (invariant : β → σ → Prop) (initially : invariant start state)
    (each : ∀ memory state, invariant memory state →
      Guarded world allowed (fun left after =>
        Sum.elim (fun memory => invariant memory after)
          (fun value => Guarded world allowed post (next value) after) left)
        (body memory) state) :
    Guarded world allowed post (.loop body start next) state where
  asks := by
    intro op reached asked
    generalize whole : Process.loop body start next = process at asked
    induction asked generalizing start with
    | here => cases whole
    | later => cases whole
    | inside asked =>
        cases whole
        exact (each _ _ initially).asks _ _ asked
    | again round _ again =>
        cases whole
        exact again ((each _ _ initially).returns _ _ round) each rfl
    | leave round asked =>
        cases whole
        exact ((each _ _ initially).returns _ _ round).asks _ _ asked
  returns := by
    intro value after run
    generalize whole : Process.loop body start next = process at run
    induction run generalizing start with
    | done => cases whole
    | call => cases whole
    | again round _ _ again =>
        cases whole
        exact again ((each _ _ initially).returns _ _ round) each rfl
    | leave round run =>
        cases whole
        exact ((each _ _ initially).returns _ _ round).returns _ _ run

theorem ask {post : α → σ → Prop} {op : Op} {next : Result op → Process Result α}
    (permitted : allowed op state)
    (rest : ∀ result after, world state op result after →
      Guarded world allowed post (next result) after) :
    Guarded world allowed post (Process.ask op >>= next) state :=
  .call permitted rest

theorem iterate {body : β → Process Result (β ⊕ γ)} {start : β}
    {post : γ → σ → Prop} (invariant : β → σ → Prop)
    (initially : invariant start state)
    (each : ∀ memory state, invariant memory state →
      Guarded world allowed (Sum.elim invariant post) (body memory) state) :
    Guarded world allowed post (Process.iterate body start) state := by
  refine .loop invariant initially fun memory state holds => ?_
  refine (each memory state holds).mono fun left after ends => ?_
  cases left with
  | inl memory => exact ends
  | inr value => exact .done ends

/-- A program is guarded if it is so in a world of its own, `related` to the
outer one, in which the processes make its calls. -/
theorem via {Inner τ : Type} {Given : Inner → Type}
    {make : (op : Inner) → Process Result (Given op)} {inside : World Given τ}
    {permitted : Inner → τ → Prop} {post : α → τ → Prop} (related : σ → τ → Prop)
    (each : ∀ op state within, related state within → permitted op within →
      Guarded world allowed
        (fun result after => ∃ left, inside within op result left ∧ related after left)
        (make op) state)
    {program : Program Given α} {within : τ}
    (guarded : Program.Guarded inside permitted post program within)
    (start : related state within) :
    Guarded world allowed (fun value after => ∃ left, post value left ∧
      related after left) (Process.via make program) state := by
  induction program generalizing state within with
  | done value => exact .done ⟨within, guarded, start⟩
  | call op next ih =>
      obtain ⟨sound, every⟩ := guarded
      refine .bind ((each op state within start sound).mono ?_)
      rintro result after ⟨left, made, still⟩
      exact ih result (every result left made) still

end Guarded

/-! ## Kinds of calls -/

/-- Whatever it is answered, the process makes no calls but those of a kind. -/
inductive Only (kind : Op → Prop) : {α : Type} → Process Result α → Prop where
  | done {α : Type} {value : α} : Only kind (.done value)
  | call {α : Type} {op : Op} {next : Result op → Process Result α} (among : kind op)
      (rest : ∀ result, Only kind (next result)) : Only kind (.call op next)
  | loop {α β γ : Type} {body : β → Process Result (β ⊕ γ)} {start : β}
      {next : γ → Process Result α} (round : ∀ memory, Only kind (body memory))
      (rest : ∀ value, Only kind (next value)) : Only kind (.loop body start next)

namespace Only

variable {kind : Op → Prop}

theorem ask {op : Op} (among : kind op) :
    Only kind (Process.ask op : Process Result (Result op)) :=
  .call among fun _ => .done

theorem bind {process : Process Result α} {rest : α → Process Result β}
    (first : Only kind process) (second : ∀ value, Only kind (rest value)) :
    Only kind (process >>= rest) := by
  change Only kind (process.bind rest)
  induction first with
  | done => exact second _
  | call among _ ih => exact .call among fun result => ih result second
  | loop round _ _ ih => exact .loop round fun value => ih value second

theorem iterate {body : β → Process Result (β ⊕ γ)} {start : β}
    (round : ∀ memory, Only kind (body memory)) :
    Only kind (Process.iterate body start) :=
  .loop round fun _ => .done

theorem via {Inner : Type} {Given : Inner → Type}
    {make : (op : Inner) → Process Result (Given op)}
    (each : ∀ op, Only kind (make op)) (program : Program Given α) :
    Only kind (Process.via make program) := by
  induction program with
  | done value => exact .done
  | call op next ih => exact .bind (each op) ih

theorem mono {process : Process Result α} {wider : Op → Prop}
    (only : Only kind process) (more : ∀ op, kind op → wider op) :
    Only wider process := by
  induction only with
  | done => exact .done
  | call among _ ih => exact .call (more _ among) ih
  | loop _ _ round rest => exact .loop round rest

/-- What calls of a kind keep, such a process keeps. -/
theorem guarded {allowed : Op → σ → Prop} {process : Process Result α} {state : σ}
    (only : Only kind process) (kept : σ → Prop) (start : kept state)
    (permits : ∀ op state, kind op → kept state → allowed op state)
    (keeps : ∀ op state result after, kind op → kept state →
      world state op result after → kept after) :
    Guarded world allowed (fun _ after => kept after) process state := by
  induction only generalizing state with
  | done => exact .done start
  | call among _ ih =>
      refine .call (permits _ _ among start) fun result after made => ?_
      exact ih result (keeps _ _ _ _ among start made)
  | loop _ _ round rest =>
      refine .loop (fun _ state => kept state) start fun memory state holds => ?_
      refine (round memory holds).mono fun left after still => ?_
      cases left with
      | inl memory => exact still
      | inr value => exact rest value still

end Only

end Process

end Pspssh.Data
