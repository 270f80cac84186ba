import Pspssh.Core.Session

namespace Pspssh.Core

open Pspssh.Data Pspssh.Session
open Pspssh.Data.Process (ask Guarded Asks Only Returns)

/-! What opening a session does with the library: in which order, with which
algorithms, and what is left of it when there is no session. -/

/-- There is the block of memory, no random source is tried out, and of the
context and the connection there is what is said. -/
structure Library.Has (ctx ssh : Bool) (library : Library) : Prop where
  block : library.block = true
  ctx : library.ctx = ctx
  ssh : library.ssh = ssh
  probe : library.probe = false

/-- The library has what a session that is open needs, and the lists that were
pinned. -/
structure Library.Open (library : Library) : Prop extends library.Has true true where
  lists : ∀ list, library.lists list = some (pinned list)

structure Library.Closed (library : Library) : Prop where
  block : library.block = false
  ctx : library.ctx = false
  ssh : library.ssh = false
  probe : library.probe = false

/-- A call where it belongs: nothing is used before it is made or after it is
freed, allocated twice, freed twice or freed before what is made of it; no
connection is made with a list that is not pinned or without a name, and no
password is given away before a key was accepted. -/
def Proper : LibraryCall → Library → Prop
  | .init, library | .cleanup, library | .calloc, library => library.Closed
  | .ctxNew, library => library.Has false false
  | .setCallback _, library | .setAlgoList _ _, library => library.Has true false
  | .new, library =>
      library.Has true false ∧ ∀ list, library.lists list = some (pinned list)
  | .initRng, library => library.Has true false
  | .freeRng, library =>
      library.probe = true ∧ { library with probe := false }.Has true false
  | .setCallbackCtx _, library | .setUsername _, library | .setChannelType, library =>
      library.Open
  | .connect, library => library.Open ∧ library.user ≠ none
  | .answerKey _, library => library.Open
  | .answerAuth answer, library =>
      library.Open ∧
        (answer = .failure ∨ answer = .invalidType ∨ library.Trusted)
  | .getError, library | .errorToName _, library => library.Open
  | .changeTerminalSize _ _, library => library.Open ∧ library.connected = true
  | .streamRead _, library | .streamSend _, library | .worker, library =>
      library.Open ∧ library.connected = true
  | .shutdown, library | .free, library => library.Has true true
  | .ctxFree, library => library.Has true false
  | .freeSession, library => library.Has false false

/-- The calls that only ask something, or set what is not looked at here. -/
def Quiet : LibraryCall → Prop
  | .setCallback _ | .setCallbackCtx _ | .setChannelType | .getError | .errorToName _
  | .changeTerminalSize _ _ => True
  | _ => False

theorem Quiet.same {call : LibraryCall} (quiet : Quiet call) {result : call.Result}
    {library after : Library} (did : library.Does call result after) :
    after = library := by
  cases call <;> first | exact did | contradiction

theorem Library.GoesOn.same {library after : Library} {turn : Connecting}
    (goes : library.GoesOn turn after) :
    after =
      { library with offered := after.offered, connected := after.connected } := by
  cases goes <;> rfl

theorem Library.Open.goesOn {library after : Library} {turn : Connecting}
    (opened : library.Open) (goes : library.GoesOn turn after) : after.Open := by
  rw [goes.same]
  exact { opened with }

structure Library.Named (user : List UInt8) (library : Library) : Prop
    extends library.Open where
  named : library.user = some user

theorem Library.Named.goesOn {user : List UInt8} {library after : Library}
    {turn : Connecting} (named : library.Named user)
    (goes : library.GoesOn turn after) :
    after.Named user where
  toOpen := named.toOpen.goesOn goes
  named := by
    rw [goes.same]
    exact named.named

theorem Library.Named.answered {user : List UInt8} {library : Library}
    (named : library.Named user) (answer : KeyAnswer) :
    (library.answered answer).Named user := by
  cases answer with
  | success => exact { named with }
  | rejected => exact { named with }

def Offering : LibraryCall → Prop
  | .connect | .answerKey _ | .answerAuth _ => True
  | _ => False

/-- What the caller has a say in: which key is accepted, under which name a
session is opened and with which password. The password goes with the name. -/
def Granted {Op σ : Type} {Result : Op → Type} (view : σ → Library)
    (approved : σ → Prop) (config : PspsshConfig Result) : LibraryCall → σ → Prop
  | .answerKey .success, state => approved state
  | .setUsername user, _ => config.user = some user
  | .answerAuth (.password text), state =>
      config.password = some text ∧ (view state).user = config.user
  | _, _ => True

/-- The library stands behind the calls of a process, while something else is
kept, and more is so when it has just offered a key. -/
structure Serves {Op σ : Type} {Result : Op → Type} (world : World Result σ)
    (allowed : Op → σ → Prop) (view : σ → Library) (kept fresh approved : σ → Prop)
    (config : PspsshConfig Result)
    (library : (call : LibraryCall) → Process Result call.Result) : Prop where
  calls : ∀ call state, kept state → Proper call (view state) →
    Granted view approved config call state →
    Guarded world allowed
      (fun result after => (view state).Does call result (view after) ∧ kept after ∧
        (Offering call → fresh after))
      (library call) state

section Opening

variable {Op σ α : Type} {Result : Op → Type} {world : World Result σ}
  {allowed : Op → σ → Prop} {view : σ → Library} {kept fresh approved : σ → Prop}
  {library : (call : LibraryCall) → Process Result call.Result}
  {config : PspsshConfig Result}

theorem Quiet.granted {call : LibraryCall} (quiet : Quiet call) {state : σ} :
    Granted view approved config call state := by
  cases call <;> trivial

namespace Serves

theorem next (serves : Serves world allowed view kept fresh approved config library)
    {call : LibraryCall} {rest : call.Result → Process Result α}
    {post : α → σ → Prop} {state : σ} (holds : kept state)
    (proper : Proper call (view state))
    (granted : Granted view approved config call state)
    (after : ∀ result after, (view state).Does call result (view after) →
      kept after → Guarded world allowed post (rest result) after) :
    Guarded world allowed post (library call >>= rest) state := by
  refine .bind ((serves.calls call state holds proper granted).mono ?_)
  rintro result left ⟨did, still, _⟩
  exact after result left did still

theorem quiet (serves : Serves world allowed view kept fresh approved config library)
    {call : LibraryCall} {rest : call.Result → Process Result α}
    {post : α → σ → Prop} {state : σ} (quiet : Quiet call) (holds : kept state)
    (proper : Proper call (view state))
    (after : ∀ result after, view after = view state → kept after →
      Guarded world allowed post (rest result) after) :
    Guarded world allowed post (library call >>= rest) state := by
  refine serves.next holds proper quiet.granted fun result left did still => ?_
  exact after result left (quiet.same did) still

variable (serves : Serves world allowed view kept fresh approved config library)
include serves

/-! ## Closing -/

theorem close {ctx ssh : Bool} {state : σ} (holds : kept state)
    (has : (view state).Has ctx ssh) (made : ssh = true → ctx = true) :
    Guarded world allowed (fun _ after => (view after).Closed ∧ kept after)
      (pspsshClose library ctx ssh) state := by
  have last {state : σ} (holds : kept state) (has : (view state).Has false false) :
      Guarded world allowed (fun _ after => (view after).Closed ∧ kept after)
        (library .freeSession) state := by
    refine (serves.calls .freeSession state holds has trivial).mono ?_
    rintro _ after ⟨did, still, _⟩
    have did : view after = { view state with block := false } := did
    rw [did]
    exact ⟨⟨rfl, has.ctx, has.ssh, has.probe⟩, still⟩
  have context {state : σ} (holds : kept state) (has : (view state).Has ctx false) :
      Guarded world allowed (fun _ after => (view after).Closed ∧ kept after)
        (do
          if ctx then
            library .ctxFree
          library .freeSession) state := by
    cases ctx with
    | false => exact last holds has
    | true =>
        refine serves.next holds has trivial fun _ after did still => last still ?_
        have did : view after = { view state with ctx := false } := did
        rw [did]
        exact ⟨has.block, rfl, has.ssh, has.probe⟩
  unfold pspsshClose
  cases ssh with
  | false => exact context holds has
  | true =>
      have hasCtx : ctx = true := made rfl
      subst hasCtx
      refine serves.next holds has trivial fun _ middle did still => ?_
      have same : view middle = view state := did
      rw [← same] at has
      refine serves.next still has trivial fun _ after did still => context still ?_
      have did : view after =
          { view middle with ssh := false, connected := false } := did
      rw [did]
      exact ⟨has.block, has.ctx, rfl, has.probe⟩

theorem failed {ctx ssh : Bool} {session : PspsshSession} {state : σ}
    (holds : kept state) (has : (view state).Has ctx ssh)
    (made : ssh = true → ctx = true) :
    Guarded world allowed
      (fun result after => result = .error (reason session) ∧
        (view after).Closed ∧ kept after)
      (failed library ctx ssh session) state := by
  refine .bind ((serves.close holds has made).mono ?_)
  intro _ after closed
  exact .done ⟨rfl, closed⟩

end Serves

/-! ## Connecting -/

def Library.Reaches (library : Library) : Connecting → Prop
  | .asksKey key sha _ _ =>
      library.offered = some key ∧ (sha.final key).2 = Pspssh.Data.Sha256.digest key
  | .asksAuth _ => library.Trusted
  | .returns success =>
      success = true → library.Trusted ∧ library.connected = true

theorem Library.GoesOn.reaches {library after : Library} {turn : Connecting}
    (goes : library.GoesOn turn after) : after.Reaches turn := by
  cases goes with
  | key digest => exact ⟨rfl, digest⟩
  | auth trusted => exact trusted
  | succeeds trusted => exact fun _ => ⟨trusted, rfl⟩
  | fails => exact nofun

/-- The callbacks of a caller leave the library alone, and the policy, which is
asked with the fingerprint of the key, says yes only to what is approved. -/
structure Policy (world : World Result σ) (allowed : Op → σ → Prop)
    (view : σ → Library) (kept fresh approved : σ → Prop)
    (config : PspsshConfig Result) : Prop where
  hostkey : ∀ onHostkey, config.onHostkey = some onHostkey →
    ∀ key state, kept state → fresh state → (view state).offered = some key →
      Guarded world allowed
        (fun answer after => (view after = view state ∧ kept after) ∧
          (answer ≠ 0 → approved after))
        (onHostkey (keyFingerprint key) key) state
  wait : ∀ onWait, config.onWait = some onWait → ∀ state, kept state →
    Guarded world allowed (fun _ after => view after = view state ∧ kept after)
      onWait state

theorem hostkeyCheck_policy {config : PspsshConfig Result}
    (policy : Policy world allowed view kept fresh approved config)
    (key : List UInt8) (sha : Sha256) (encoded fingerprint : Buffer)
    (session : PspsshSession) {state : σ} (holds : kept state) (new : fresh state)
    (offered : (view state).offered = some key)
    (digest : (sha.final key).2 = Pspssh.Data.Sha256.digest key) :
    Guarded world allowed
      (fun answer after => (view after = view state ∧ kept after) ∧
        (answer.1 = .success → approved after))
      (hostkeyCheck config.onHostkey key sha encoded fingerprint session) state := by
  cases given : config.onHostkey with
  | none => exact .done ⟨⟨rfl, holds⟩, nofun⟩
  | some onHostkey =>
      unfold hostkeyCheck
      dsimp only
      split
      · exact .done ⟨⟨rfl, holds⟩, nofun⟩
      rename_i made
      have text := fingerprintOf_text (Prod.ext (not_not.mp made) rfl)
      rw [digest] at text
      rw [text]
      refine .bind ((policy.hostkey _ given key _ holds new offered).mono ?_)
      rintro answer after ⟨still, yes⟩
      split
      · exact .done ⟨still, nofun⟩
      · rename_i nonzero
        exact .done ⟨still, fun _ => yes nonzero⟩

section Session

variable (serves : Serves world allowed view kept fresh approved config library)
  (policy : Policy world allowed view kept fresh approved config)
  {user : List UInt8}
include serves policy

theorem connect_named (session : PspsshSession) {state : σ} (holds : kept state)
    (name : config.user = some user) (named : (view state).Named user) :
    Guarded world allowed
      (fun result after => ((view after).Named user ∧ kept after) ∧
        (view after).Reaches (.returns result.1))
      (connect library config session) state := by
  have proper : Proper .connect (view state) :=
    ⟨named.toOpen, by rw [named.named]; exact Option.some_ne_none user⟩
  refine .bind ((serves.calls .connect state holds proper trivial).mono ?_)
  rintro turn after ⟨goes, still, new⟩
  have goes : (view state).GoesOn turn (view after) := goes
  refine .iterate (fun memory state => (((view state).Named user ∧ kept state) ∧
    fresh state) ∧ (view state).Reaches memory.1)
    ⟨⟨⟨named.goesOn goes, still⟩, new trivial⟩, goes.reaches⟩ ?_
  rintro ⟨turn, session⟩ state ⟨⟨⟨named, holds⟩, new⟩, reached⟩
  cases turn with
  | asksKey key sha encoded fingerprint =>
      refine .bind ((hostkeyCheck_policy policy key sha encoded fingerprint session
        holds new reached.1 reached.2).mono ?_)
      rintro ⟨answer, session⟩ after ⟨⟨same, still⟩, approves⟩
      dsimp only at approves ⊢
      rw [← same] at named
      have granted : Granted view approved config (.answerKey answer) after := by
        cases answer with
        | success => exact approves rfl
        | rejected => trivial
      refine .bind ((serves.calls (.answerKey answer) after still named.toOpen
        granted).mono ?_)
      rintro turn last ⟨goes, still, new⟩
      have goes : ((view after).answered answer).GoesOn turn (view last) := goes
      exact .done ⟨⟨⟨(named.answered answer).goesOn goes, still⟩, new trivial⟩,
        goes.reaches⟩
  | asksAuth kind =>
      have proper : Proper (.answerAuth (userAuth config.password kind))
          (view state) := by
        refine ⟨named.toOpen, ?_⟩
        cases kind with
        | other => exact .inr (.inl rfl)
        | password => exact .inr (.inr reached)
      have granted : Granted view approved config
          (.answerAuth (userAuth config.password kind)) state := by
        cases kind with
        | other => trivial
        | password =>
            unfold userAuth
            cases given : config.password with
            | none => trivial
            | some text => exact ⟨given, named.named.trans name.symm⟩
      refine .bind ((serves.calls _ state holds proper granted).mono ?_)
      rintro turn after ⟨goes, still, new⟩
      have goes : (view state).GoesOn turn (view after) := goes
      exact .done ⟨⟨⟨named.goesOn goes, still⟩, new trivial⟩, goes.reaches⟩
  | returns success => exact .done ⟨⟨named, holds⟩, reached⟩

omit policy in
theorem isFinal_quiet {state : σ} (holds : kept state) (opened : (view state).Open) :
    Guarded world allowed (fun _ after => view after = view state ∧ kept after)
      (isFinal library) state := by
  refine serves.quiet trivial holds opened fun error middle same still => ?_
  split
  · refine serves.quiet trivial still (same ▸ opened) fun error after again still => ?_
    exact .done ⟨again.trans same, still⟩
  · exact .done ⟨same, still⟩

theorem handshake_named {onWait : Process Result Int32} {budget : Int32}
    (given : config.onWait = some onWait) (session : PspsshSession) {state : σ}
    (holds : kept state) (name : config.user = some user)
    (named : (view state).Named user) :
    Guarded world allowed
      (fun result after => ((view after).Named user ∧ kept after) ∧
        (view after).Reaches (.returns result.1))
      (handshake library config onWait budget session) state := by
  refine .iterate (fun _ state => (view state).Named user ∧ kept state)
    ⟨named, holds⟩ ?_
  rintro ⟨waited, session⟩ state ⟨named, holds⟩
  refine .bind ((connect_named serves policy session holds name named).mono ?_)
  rintro ⟨success, session⟩ after ⟨⟨named, holds⟩, reached⟩
  dsimp only
  cases success with
  | true => exact .done ⟨⟨named, holds⟩, reached⟩
  | false =>
      refine .bind ((isFinal_quiet serves holds named.toOpen).mono ?_)
      rintro final after ⟨same, holds⟩
      rw [← same] at named
      split
      · exact .done ⟨⟨named, holds⟩, nofun⟩
      refine .bind ((policy.wait _ given _ holds).mono ?_)
      rintro slept after ⟨same, holds⟩
      rw [← same] at named
      split
      · exact .done ⟨named, holds⟩
      · exact .done ⟨⟨named, holds⟩, nofun⟩

end Session

/-! ## From the first call to the last -/

/-- What there is when `pspssh_open` returns: a session that is connected with a
key that was accepted, or nothing but a reason. -/
def Opened (library : Library) : Except (List UInt8) PspsshSession → Prop
  | .error text => library.Closed ∧ text ≠ []
  | .ok _ =>
      library.Open ∧ library.Trusted ∧ library.connected = true

theorem reason_ne_nil (session : PspsshSession) : reason session ≠ [] := by
  unfold reason
  split
  · decide +kernel
  · assumption

section Whole

variable (serves : Serves world allowed view kept fresh approved config library)
include serves

theorem failed_opened {ctx ssh : Bool} (session : PspsshSession) {state : σ}
    (holds : kept state) (has : (view state).Has ctx ssh)
    (made : ssh = true → ctx = true) :
    Guarded world allowed (fun result after => Opened (view after) result ∧ kept after)
      (failed library ctx ssh session) state := by
  refine (serves.failed holds has made).mono ?_
  rintro _ after ⟨rfl, closed, still⟩
  exact ⟨⟨closed, reason_ne_nil session⟩, still⟩

theorem afterHandshake_opened {budget : Int32} {success : Bool} {waited : Int}
    {session : PspsshSession} {state : σ} (holds : kept state)
    (opened : (view state).Open) (reached : (view state).Reaches (.returns success)) :
    Guarded world allowed (fun result after => Opened (view after) result ∧ kept after)
      (afterHandshake library config budget success waited session) state := by
  have fails (session : PspsshSession) {state : σ} (holds : kept state)
      (opened : (view state).Open) :=
    failed_opened serves session holds opened.toHas fun _ => rfl
  unfold afterHandshake
  split
  · exact fails _ holds opened
  split
  · split
    · refine serves.quiet trivial holds opened fun error middle same still => ?_
      rw [← same] at opened
      refine serves.quiet trivial still opened fun name after same still => ?_
      rw [← same] at opened
      exact fails _ still opened
    · exact fails _ holds opened
  · rename_i succeeded
    obtain ⟨verdict, connected⟩ := reached (by simpa using succeeded)
    split
    · refine serves.quiet trivial holds ⟨opened, connected⟩
        fun error after same still => ?_
      exact .done ⟨⟨same ▸ opened, same ▸ verdict, same ▸ connected⟩, still⟩
    · exact .done ⟨⟨opened, verdict, connected⟩, holds⟩

theorem openConnection_opened {user : List UInt8} {onWait : Process Result Int32}
    (policy : Policy world allowed view kept fresh approved config)
    (name : config.user = some user) (given : config.onWait = some onWait)
    {session : PspsshSession} {state : σ}
    (holds : kept state) (opened : (view state).Open) :
    Guarded world allowed (fun result after => Opened (view after) result ∧ kept after)
      (openConnection library config user onWait session) state := by
  have fails (session : PspsshSession) {state : σ} (holds : kept state)
      (opened : (view state).Open) :=
    failed_opened serves session holds opened.toHas fun _ => rfl
  refine serves.quiet trivial holds opened fun _ first same holds => ?_
  rw [← same] at opened
  refine serves.quiet trivial holds opened fun _ second same holds => ?_
  rw [← same] at opened
  refine serves.quiet trivial holds opened fun _ third same holds => ?_
  rw [← same] at opened
  refine serves.quiet trivial holds opened fun _ fourth same holds => ?_
  rw [← same] at opened
  refine serves.next holds opened name fun set fifth did holds => ?_
  have did : view fifth =
    if set then { view fourth with user := some user } else view fourth := did
  cases set with
  | false => exact fails _ holds (did ▸ opened)
  | true =>
      have named : (view fifth).Named user := by
        rw [did]
        exact { opened with named := rfl }
      refine serves.quiet trivial holds named.toOpen fun typed sixth same holds => ?_
      rw [← same] at named
      split
      · exact fails _ holds named.toOpen
      refine .bind ((handshake_named serves policy given session holds name
        named).mono ?_)
      rintro ⟨success, waited, session⟩ after ⟨⟨named, holds⟩, reached⟩
      exact afterHandshake_opened serves holds named.toOpen reached

/-- The lists are set one after another, and all of them if none fails. -/
theorem setAlgoLists_pinned (lists : List AlgoList) {state : σ} (holds : kept state)
    (has : (view state).Has true false) :
    Guarded world allowed
      (fun set after =>
        ((view after).Has true false ∧ kept after) ∧
        (set = true → ∀ list, (view state).lists list = some (pinned list) ∨
          list ∈ lists → (view after).lists list = some (pinned list)))
      (setAlgoLists library lists) state := by
  induction lists generalizing state with
  | nil =>
      refine .done ⟨⟨has, holds⟩, fun _ list already => ?_⟩
      exact already.resolve_right List.not_mem_nil
  | cons first rest ih =>
      refine serves.next holds has trivial fun set middle did still => ?_
      cases set with
      | false =>
          have same : view middle = view state := did
          rw [← same] at has
          exact .done ⟨⟨has, still⟩, nofun⟩
      | true =>
          have did : view middle = { view state with
            lists := Function.update (view state).lists first (some (pinned first)) } :=
            did
          have has : (view middle).Has true false := by
            rw [did]
            exact { has with }
          refine (ih still has).mono ?_
          rintro set after ⟨objects, all⟩
          refine ⟨objects, fun yes list already => all yes list ?_⟩
          rw [did]
          dsimp only
          by_cases here : list = first
          · left
            rw [here, Function.update_self]
          · rw [Function.update_of_ne here]
            exact already.imp_right fun member =>
              (List.mem_cons.mp member).resolve_left here

theorem newFailure_has (session : PspsshSession) {state : σ} (holds : kept state)
    (has : (view state).Has true false) :
    Guarded world allowed (fun _ after => (view after).Has true false ∧ kept after)
      (newFailure library session) state := by
  refine serves.next holds has trivial fun rng middle did holds => ?_
  have did : view middle = { view state with probe := decide (rng = 0) } := did
  split
  · rename_i failed
    refine .done ⟨?_, holds⟩
    rw [did]
    exact ⟨has.block, has.ctx, has.ssh, decide_eq_false failed⟩
  · rename_i started
    have proper : Proper .freeRng (view middle) := by
      rw [did]
      exact ⟨decide_eq_true (not_not.mp started), ⟨has.block, has.ctx, has.ssh, rfl⟩⟩
    refine serves.next holds proper trivial fun _ after freed holds => ?_
    have freed : view after = { view middle with probe := false } := freed
    refine .done ⟨?_, holds⟩
    rw [freed]
    exact proper.2

theorem openContext_opened {user : List UInt8} {onWait : Process Result Int32}
    (policy : Policy world allowed view kept fresh approved config)
    (name : config.user = some user) (given : config.onWait = some onWait)
    {session : PspsshSession} {state : σ}
    (holds : kept state) (has : (view state).Has true false) :
    Guarded world allowed (fun result after => Opened (view after) result ∧ kept after)
      (openContext library config user onWait session) state := by
  refine serves.quiet trivial holds has fun _ first same holds => ?_
  rw [← same] at has
  refine serves.quiet trivial holds has fun _ second same holds => ?_
  rw [← same] at has
  refine serves.quiet trivial holds has fun _ third same holds => ?_
  rw [← same] at has
  refine serves.quiet trivial holds has fun _ fourth same holds => ?_
  rw [← same] at has
  refine .bind ((setAlgoLists_pinned serves _ holds has).mono ?_)
  rintro set middle ⟨⟨has, holds⟩, all⟩
  split
  · exact failed_opened serves _ holds has nofun
  rename_i succeeded
  have lists (list : AlgoList) : (view middle).lists list = some (pinned list) :=
    all (by simpa using succeeded) list (.inr (by cases list <;> decide))
  refine serves.next holds ⟨has, lists⟩ trivial fun made after did holds => ?_
  have did : view after =
      { view middle with
        ssh := made
        user := none
        offered := none
        accepted := none
        refused := false
        connected := false } := did
  have has : (view after).Has true made := by
    rw [did]
    exact { has with ssh := rfl }
  cases made with
  | false =>
      refine .bind ((newFailure_has serves session holds has).mono ?_)
      rintro session after ⟨has, holds⟩
      exact failed_opened serves _ holds has nofun
  | true =>
      refine openConnection_opened serves policy name given holds
        { has with lists := ?_ }
      rw [did]
      exact lists

theorem pspsshOpen_opened
    (policy : Policy world allowed view kept fresh approved config) {state : σ}
    (holds : kept state) (closed : (view state).Closed) :
    Guarded world allowed (fun result after => Opened (view after) result ∧ kept after)
      (pspsshOpen library config) state := by
  have nothing {message : List UInt8} (text : message ≠ []) {state : σ}
      (holds : kept state) (closed : (view state).Closed) :
      Guarded world allowed
        (fun result after => Opened (view after) result ∧ kept after)
        (pure (.error message)) state := .done ⟨⟨closed, text⟩, holds⟩
  unfold pspsshOpen
  split
  · rename_i user onWait name given
    split
    · exact nothing (by decide +kernel) holds closed
    refine serves.next holds closed trivial fun made middle did holds => ?_
    have did : view middle = { view state with block := made } := did
    cases made with
    | false =>
        refine nothing (by decide +kernel) holds ?_
        rw [did]
        exact { closed with block := rfl }
    | true =>
        have has : (view middle).Has false false := by
          rw [did]
          exact ⟨rfl, closed.ctx, closed.ssh, closed.probe⟩
        refine serves.next holds has trivial fun made after did holds => ?_
        have did : view after =
          { view middle with ctx := made, lists := fun _ => none } := did
        have has : (view after).Has made false := by
          rw [did]
          exact { has with ctx := rfl }
        cases made with
        | false => exact failed_opened serves _ holds has nofun
        | true => exact openContext_opened serves policy name given holds has
  · exact nothing (by decide +kernel) holds closed

end Whole

end Opening

/-! ## A session and its caller -/

inductive CoreCall where
  | library (call : LibraryCall)
  | onHostkey (fingerprint key : List UInt8)
  | onWait

abbrev CoreCall.Result : CoreCall → Type
  | .library call => call.Result
  | .onHostkey _ _ => Int
  | .onWait => Int32

structure Caller where
  library : Library
  approved : Option (List UInt8)

/-- The policy and the wait may answer anything. -/
def callerWorld : World CoreCall.Result Caller := fun before call result after =>
  match call, result with
  | .library call, result =>
      before.library.Does call result after.library ∧ after.approved = none
  | .onHostkey _ key, answer =>
      after = { before with approved := if answer ≠ 0 then some key else none }
  | .onWait, _ => after = before

def Caller.Approves (caller : Caller) : Prop :=
  caller.library.offered ≠ none ∧ caller.approved = caller.library.offered

/-- A call where it belongs; the policy is asked about the key that is offered,
with its fingerprint, a key is accepted only if it says so, and the name and the
password are those of the configuration. -/
def CoreCall.Proper (config : PspsshConfig CoreCall.Result) : CoreCall → Caller → Prop
  | .library call, caller =>
      Core.Proper call caller.library ∧
        Granted Caller.library Caller.Approves config call caller
  | .onHostkey fingerprint key, caller =>
      caller.library.offered = some key ∧ fingerprint = keyFingerprint key
  | .onWait, _ => True

def callerConfig (user password : Option (List UInt8))
    (recv send policy wait : Bool) (handshakeTimeoutMs columns rows : Int32) :
    PspsshConfig CoreCall.Result where
  user := user
  password := password
  recv := recv
  send := send
  onHostkey :=
    if policy then some fun fingerprint key => ask (CoreCall.onHostkey fingerprint key)
    else none
  onWait := if wait then some (ask CoreCall.onWait) else none
  handshakeTimeoutMs := handshakeTimeoutMs
  columns := columns
  rows := rows

theorem caller_serves (config : PspsshConfig CoreCall.Result) :
    Serves callerWorld (CoreCall.Proper config) Caller.library (fun _ => True)
      (fun _ => True) Caller.Approves config
      (fun call => ask (CoreCall.library call)) where
  calls := by
    intro call state _ proper granted
    refine .call ⟨proper, granted⟩ fun result after did => .done ?_
    exact ⟨did.1, trivial, fun _ => trivial⟩

theorem caller_policy (user password : Option (List UInt8))
    (recv send policy wait : Bool) (handshakeTimeoutMs columns rows : Int32) :
    let config := callerConfig user password recv send policy wait handshakeTimeoutMs
      columns rows
    Policy callerWorld (CoreCall.Proper config) Caller.library (fun _ => True)
      (fun _ => True) Caller.Approves config where
  hostkey := by
    intro onHostkey given key state _ _ offered
    unfold callerConfig at given
    dsimp only at given
    split at given
    · cases given
      refine .call ⟨offered, rfl⟩ fun answer after did => .done ?_
      have did : after =
        { state with approved := if answer ≠ 0 then some key else none } := did
      subst did
      refine ⟨⟨rfl, trivial⟩, fun yes => ⟨?_, ?_⟩⟩
      · rw [offered]
        exact Option.some_ne_none key
      · exact (if_pos yes).trans offered.symm
    · cases given
  wait := by
    intro onWait given state _
    unfold callerConfig at given
    dsimp only at given
    split at given
    · cases given
      refine .call trivial fun slept after did => .done ?_
      have did : after = state := did
      exact ⟨congrArg _ did, trivial⟩
    · cases given

/-- Opening a session, whatever the library and the callbacks answer: every call
is made where it belongs, no key is accepted but one that the policy has just
said yes to, no connection is made and no password given away before the five
lists are pinned and, for the password, a key is accepted; the name and the
password are the ones given; and when it fails, everything is freed and there is
a reason. -/
theorem open_session_sound (user password : Option (List UInt8))
    (recv send policy wait : Bool) (handshakeTimeoutMs columns rows : Int32) :
    let config := callerConfig user password recv send policy wait handshakeTimeoutMs
      columns rows
    let opening := pspsshOpen (fun call => ask (CoreCall.library call)) config
    (∀ call caller, Asks callerWorld opening ⟨.empty, none⟩ call caller →
        call.Proper config caller) ∧
      ∀ result after, Returns callerWorld opening ⟨.empty, none⟩ result after →
        Opened after.library result := by
  intro config opening
  have guarded : Guarded callerWorld (CoreCall.Proper config) _ opening
      ⟨.empty, none⟩ :=
    pspsshOpen_opened (caller_serves config)
      (caller_policy user password recv send policy wait handshakeTimeoutMs columns
        rows) trivial ⟨rfl, rfl, rfl, rfl⟩
  exact ⟨guarded.asks, fun result after run => (guarded.returns result after run).1⟩

/-! ## Nothing else is called -/

section Kinds

variable {Op : Type} {Result : Op → Type} {kind : Op → Prop}
  {config : PspsshConfig Result}
  (hostkey : ∀ onHostkey, config.onHostkey = some onHostkey →
    ∀ fingerprint key, Only kind (onHostkey fingerprint key))

variable {library : (call : LibraryCall) → Process Result call.Result}
  (calls : ∀ call, Only kind (library call))

include calls

variable (wait : ∀ onWait, config.onWait = some onWait → Only kind onWait)

include hostkey wait

end Kinds

end Pspssh.Core
