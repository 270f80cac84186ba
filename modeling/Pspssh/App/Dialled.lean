import Pspssh.App.Sound

namespace Pspssh.App

open Pspssh.Data Pspssh.Card Pspssh.Core Pspssh.Hosts Pspssh.Known Pspssh.Menu
open Pspssh.Screen
open Pspssh.Data.Process (Guarded Only)

/-! A session from the password to the closed socket, and what it says to the
server. -/

/-- There is a connection with this server, for which this is the password. -/
structure Dialling (entry : HostEntry) (password : List UInt8) (fd : Int)
    (state : Machine × Seen) : Prop where
  dialled : Dialled entry state.1 state.2
  owns : Owns entry password state.2
  sockets : state.1.sockets = [fd]
  accepted : ∀ entry ∈ state.1.statics.hosts.entries.toList,
    hostsProblem (some entry) = none
  form : state.1.statics.form = Hosts.zeroEntry

variable {faults : IoCall → Prop} {entry : HostEntry} {password : List UInt8} {fd : Int}

theorem Dialling.keep {state after : Machine × Seen}
    (dialling : Dialling entry password fd state)
    (hosts : after.1.statics.hosts = state.1.statics.hosts)
    (form : after.1.statics.form = state.1.statics.form)
    (sockets : after.1.sockets = state.1.sockets)
    (target : after.2.target = state.2.target)
    (entered : after.2.entered = state.2.entered) :
    Dialling entry password fd after where
  dialled := ⟨hosts ▸ dialling.dialled.listed, target.trans dialling.dialled.target⟩
  owns := dialling.owns.imp_right fun typed => ⟨typed.1, entered.trans typed.2⟩
  sockets := sockets.trans dialling.sockets
  accepted := hosts ▸ dialling.accepted
  form := form.trans dialling.form

theorem Seen.heard_keeps (known : KnownHosts) (seen : Seen) (request : LibraryCall)
    (result : request.Result) :
    (seen.heard known request result).target = seen.target ∧
      (seen.heard known request result).entered = seen.entered := by
  cases request <;> exact ⟨rfl, rfl⟩

theorem Dialling.heard {state after : Machine × Seen} {request : LibraryCall}
    {result : request.Result} (dialling : Dialling entry password fd state)
    (made : scene faults state (.library request) result after) :
    Dialling entry password fd after := by
  obtain ⟨⟨_, same⟩, noted⟩ := made
  have noted : after.2 = state.2.heard state.1.statics.known request result := noted
  obtain ⟨target, entered⟩ :=
    state.2.heard_keeps state.1.statics.known request result
  refine dialling.keep ?_ ?_ ?_ (noted ▸ target) (noted ▸ entered)
  · rw [same]
  · rw [same]
  · rw [same]

/-! ## The library -/

/-- The keys that are remembered are those that were when the server may last have
offered its own. -/
def Fresh (state : Machine × Seen) : Prop :=
  state.2.store = state.1.statics.known

theorem fresh_of_offering {request : LibraryCall} {result : request.Result}
    {state after : Machine × Seen}
    (made : scene faults state (.library request) result after)
    (offering : Offering request) : Fresh after := by
  obtain ⟨⟨_, same⟩, noted⟩ := made
  have noted : after.2 = state.2.heard state.1.statics.known request result := noted
  have statics : after.1.statics = state.1.statics := by rw [same]
  rw [Fresh, noted, statics]
  cases request <;> first | rfl | exact absurd offering id

section Session

variable {config : PspsshConfig AppCall.Result}

theorem Dialling.meant {request : LibraryCall} {state : Machine × Seen}
    (dialling : Dialling entry password fd state)
    (user : config.user = some entry.user.text)
    (secret : config.password = some password)
    (granted : Granted (fun state : Machine × Seen => state.1.library)
      (fun state => Vouched state.1 state.2) config request state) :
    Meant request state := by
  cases request with
  | answerKey answer =>
      cases answer with
      | success => exact granted
      | rejected => trivial
  | setUsername name =>
      have named : config.user = some name := granted
      exact ⟨entry, dialling.dialled, Option.some.inj (user.symm.trans named)⟩
  | answerAuth answer =>
      cases answer with
      | password text =>
          obtain ⟨given, named⟩ : config.password = some text ∧
            state.1.library.user = config.user := granted
          have same := Option.some.inj (secret.symm.trans given)
          exact ⟨entry, dialling.dialled, named.trans user, same ▸ dialling.owns⟩
      | failure => trivial
      | invalidType => trivial
  | _ => trivial

theorem session_serves (user : config.user = some entry.user.text)
    (secret : config.password = some password) :
    Serves (scene faults) Sound (fun state => state.1.library)
      (Dialling entry password fd) Fresh (fun state => Vouched state.1 state.2) config
      library where
  calls := by
    rintro request state dialling proper granted
    refine .call ⟨proper, dialling.meant user secret granted⟩
      fun result after made => ?_
    exact .done ⟨made.1.1, dialling.heard made, fresh_of_offering made⟩

end Session

/-! ## The server's key -/

theorem checkHostkey_vouched {word : Field hostPasswordLen} {key : List UInt8}
    {device : Machine} {seen : Seen}
    (dialling : Dialling entry password fd (device, seen))
    (fresh : Fresh (device, seen)) (offered : device.library.offered = some key) :
    Guarded (scene faults) Sound
      (fun answer after => (after.1.library = device.library ∧
        Dialling entry password fd after) ∧ (answer ≠ 0 → Vouched after.1 after.2))
      (checkHostkey { entry with password := word } (keyFingerprint key))
      (device, seen) := by
  refine guarded_statics trivial ?_
  split
  · rename_i known found
    split
    · rename_i same
      refine guarded_silent trivial trivial fun _ =>
        .done ⟨⟨rfl, dialling⟩, fun _ => ?_⟩
      refine ⟨entry, key, dialling.dialled, offered, .inl ?_⟩
      refine (congrArg (pinnedFor entry) fresh).trans (Eq.trans found ?_)
      exact congrArg some (CString.ext (same.trans (keyFingerprint_text key).symm))
    · refine guarded_silent trivial trivial fun _ =>
        guarded_silent trivial trivial fun _ => ?_
      refine guarded_silent trivial trivial fun _ =>
        guarded_silent trivial trivial fun _ => ?_
      exact .done ⟨⟨rfl, dialling⟩, fun no => absurd rfl no⟩
  · rename_i missing
    refine guarded_silent trivial trivial fun _ =>
      guarded_call trivial fun yes after made => ?_
    obtain ⟨machine, watcher⟩ := after
    obtain ⟨same, noted⟩ := made
    dsimp only at same noted
    subst same
    have dialling : Dialling entry password fd (machine, watcher) := by
      rw [noted]
      exact dialling.keep rfl rfl rfl rfl rfl
    have still : watcher.store = machine.statics.known := by
      rw [noted]
      exact fresh
    split
    · exact .done ⟨⟨rfl, dialling⟩, fun no => absurd rfl no⟩
    · rename_i agreed
      have asked : watcher.confirmed = some (firstSight entry, keyFingerprint key) := by
        rw [noted]
        exact if_pos (not_not.mp agreed)
      refine onCard_next (fun _ _ => trivial) ?_
      rintro ⟨result, known⟩ card remembered
      have short : entry.address.toCString.text.length < addressLen :=
        entry.address.fits
      have learnt := remember_new missing short remembered
      rw [keyFingerprint_text, keyFingerprint_fits] at learnt
      have sound : Sound (.modify fun statics => { statics with known })
          ({ machine with card }, watcher) := by
        refine .inr fun address port => ?_
        by_cases here : entry.address.toCString = address ∧ entry.port = port
        · obtain ⟨rfl, rfl⟩ := here
          rcases learnt with nothing | learnt
          · exact .same (nothing.trans missing.symm)
          · have dialled : Dialled entry { machine with card } watcher :=
              ⟨dialling.dialled.listed, dialling.dialled.target⟩
            exact .learnt dialled ⟨rfl, rfl⟩ offered missing learnt asked
        · refine .same (remember_local ?_ ?_ remembered)
          · intro name named
            cases named
            exact short
          · rintro ⟨sameName, samePort⟩
            exact here ⟨(Option.some.inj sameName).symm, samePort.symm⟩
      refine guarded_modify sound ?_
      have vouched : Vouched
          { machine with statics := { machine.statics with known }, card } watcher :=
        ⟨entry, key, ⟨dialling.dialled.listed, dialling.dialled.target⟩, offered,
          .inr ⟨(congrArg (pinnedFor entry) still).trans missing, asked⟩⟩
      have ended : Dialling entry password fd
          ({ machine with statics := { machine.statics with known }, card }, watcher) :=
        dialling.keep rfl rfl rfl rfl rfl
      split
      · exact guarded_silent trivial trivial fun _ =>
          .done ⟨⟨rfl, ended⟩, fun _ => vouched⟩
      · exact .done ⟨⟨rfl, ended⟩, fun _ => vouched⟩

theorem session_policy (word : Field hostPasswordLen) :
    Policy (scene faults) Sound (fun state => state.1.library)
      (Dialling entry password fd) Fresh (fun state => Vouched state.1 state.2)
      (sessionConfig { entry with password := word }) where
  hostkey := by
    rintro onHostkey given key ⟨device, seen⟩ dialling fresh offered
    cases given
    exact checkHostkey_vouched dialling fresh offered
  wait := by
    rintro onWait given ⟨device, seen⟩ dialling
    cases given
    exact guarded_silent trivial trivial fun _ => .done ⟨rfl, dialling⟩

/-! ## The terminal -/

/-- The calls of a session's terminal that do not ask whether to leave. -/
def Exchanging : AppCall → Prop
  | .modify change => ∀ statics : Statics,
      (change statics).known = statics.known ∧ (change statics).hosts = statics.hosts ∧
        (change statics).form = statics.form
  | .library (.streamRead _) | .library (.streamSend _) | .library .worker
  | .library .getError | .library (.errorToName _) => True
  | .oskPrompt prompt _ _ _ _ => prompt = linePrompt
  | .statics | .draw _ | .padPressed | .uiConfirm _ _ | .uiMessage _ _ _
  | .delay _ => True
  | _ => False

def Conversing (op : AppCall) : Prop :=
  op = .padExitRequested ∨ Exchanging op

theorem call_exchanging {op : AppCall} (among : Exchanging op) :
    Only Exchanging (call op) :=
  .ask among

theorem modify_exchanging {change : Statics → Statics}
    (kept : ∀ statics : Statics, (change statics).known = statics.known ∧
      (change statics).hosts = statics.hosts ∧ (change statics).form = statics.form) :
    Only Exchanging (modify change) :=
  .ask kept

theorem readSession_exchanging (size : Nat) : Only Exchanging (readSession size) := by
  have read (session : Session.PspsshSession) :
      Only Exchanging (pspsshRead library size session) := by
    refine .bind (call_exchanging trivial) fun ⟨n, data⟩ => ?_
    dsimp only
    split
    · exact .done
    split
    · exact .done
    refine .bind (call_exchanging trivial) fun error => ?_
    have named (data : Int × List UInt8) : Only Exchanging (do
        let error ← library .getError
        let name ← library (.errorToName error)
        pure (-1, data.2, Session.setError session name) :
          Psp (Int × List UInt8 × Session.PspsshSession)) :=
      .bind (call_exchanging trivial) fun _ =>
        .bind (call_exchanging trivial) fun _ => .done
    split
    · exact .done
    · exact .done
    · exact .done
    · exact named (n, data)
    · exact named (n, data)
  refine .bind (call_exchanging trivial) fun statics => .bind (read _) fun _ => ?_
  exact .bind (modify_exchanging fun _ => ⟨rfl, rfl, rfl⟩) fun _ => .done

theorem writeSession_exchanging (data : List UInt8) :
    Only Exchanging (writeSession data) := by
  have write (session : Session.PspsshSession) :
      Only Exchanging (pspsshWrite library data session) := by
    refine .bind (call_exchanging trivial) fun n => ?_
    split
    · exact .done
    refine .bind (call_exchanging trivial) fun error => ?_
    have named : Only Exchanging (do
        let error ← library .getError
        let name ← library (.errorToName error)
        pure (-1, Session.setError session name) :
          Psp (Int × Session.PspsshSession)) :=
      .bind (call_exchanging trivial) fun _ =>
        .bind (call_exchanging trivial) fun _ => .done
    split
    · exact .done
    · exact .done
    · exact .bind (call_exchanging trivial) fun _ => .done
    · exact named
    · exact named
  refine .bind (call_exchanging trivial) fun statics =>
    .bind (write _) fun ⟨n, session⟩ => ?_
  refine .bind (modify_exchanging fun _ => ⟨rfl, rfl, rfl⟩) fun _ => ?_
  split
  · exact .bind (call_exchanging trivial) fun _ => .done
  · exact .done

theorem sendAll_exchanging (text : Buffer) (len : Nat) :
    Only Exchanging (sendAll text len) :=
  .via writeSession_exchanging _

theorem drain_exchanging : Only Exchanging drain := by
  refine .iterate fun drained => .bind (readSession_exchanging _) fun ⟨n, data⟩ => ?_
  dsimp only
  split
  · exact .bind (call_exchanging trivial) fun _ => .done
  split
  · exact .done
  refine .bind (modify_exchanging fun _ => ⟨rfl, rfl, rfl⟩) fun _ => ?_
  split
  · exact .done
  · exact .done

theorem Exchanging.conversing {α : Type} {process : Psp α}
    (only : Only Exchanging process) : Only Conversing process :=
  only.mono fun _ => .inr

section Passes

variable (build : Build) (host : HostEntry)

theorem drawFrame_exchanging (frames : Nat) :
    Only Exchanging (drawFrame build host frames) := by
  refine .bind (modify_exchanging fun _ => ⟨rfl, rfl, rfl⟩) fun _ => ?_
  refine .bind (call_exchanging trivial) fun statics =>
    .bind (call_exchanging trivial) fun _ => ?_
  exact modify_exchanging fun _ => ⟨rfl, rfl, rfl⟩

theorem typeLine_exchanging (running : Running) :
    Only Exchanging (typeLine build host running) := by
  refine .bind (call_exchanging trivial) fun statics => ?_
  refine .bind (call_exchanging rfl) fun ⟨result, text⟩ => .bind ?_ fun _ => .done
  split
  · refine .bind (sendAll_exchanging _ _) fun sent => ?_
    split
    · exact .done
    · exact .done
  · exact .done

theorem sendKeys_exchanging (pressed : UInt32) (running : Running) :
    Only Exchanging (sendKeys pressed running) := by
  unfold sendKeys
  split
  · exact .done
  · refine .bind (sendAll_exchanging _ _) fun sent => ?_
    split
    · exact .done
    · exact .done

theorem answerButtons_exchanging (pressed : UInt32) (running : Running) :
    Only Exchanging (answerButtons build host pressed running) := by
  unfold answerButtons
  split
  · exact .done
  split
  · exact .bind (typeLine_exchanging build host running) fun _ => .done
  refine .bind (sendKeys_exchanging pressed running) fun running => ?_
  split
  · refine .bind (call_exchanging trivial) fun yes => ?_
    split
    · exact .done
    · exact .done
  · exact .done

theorem terminalPass_conversing (running : Running) :
    Only Conversing (terminalPass build host running) := by
  unfold terminalPass
  split
  · exact .done
  refine .bind (.ask (.inl rfl)) fun leaving => ?_
  split
  · exact .done
  refine .bind (Exchanging.conversing drain_exchanging) fun failure => ?_
  refine .bind (Exchanging.conversing (drawFrame_exchanging build host _)) fun _ => ?_
  split
  · exact .done
  · refine .bind (Exchanging.conversing (call_exchanging trivial)) fun pressed => ?_
    exact Exchanging.conversing (answerButtons_exchanging build host pressed _)

theorem runTerminal_conversing (typed : Buffer) :
    Only Conversing (runTerminal build host typed) := by
  refine .bind (Exchanging.conversing (modify_exchanging fun _ => ⟨rfl, rfl, rfl⟩))
    fun _ => ?_
  refine .bind (.iterate (terminalPass_conversing build host)) fun left => ?_
  cases left with
  | returned typed => exact .done
  | ended typed ending =>
      exact .bind (Exchanging.conversing (call_exchanging trivial)) fun _ => .done

end Passes

structure Talking (entry : HostEntry) (password : List UInt8) (fd : Int)
    (state : Machine × Seen) : Prop extends Dialling entry password fd state where
  opened : state.1.library.Open
  connected : state.1.library.connected = true

theorem Exchanging.sound {op : AppCall} {state : Machine × Seen}
    (among : Exchanging op) (talking : Talking entry password fd state) :
    Sound op state := by
  cases op with
  | modify change => exact sound_of_same (among _).1
  | library request =>
      cases request with
      | streamRead size => exact ⟨⟨talking.opened, talking.connected⟩, trivial⟩
      | streamSend data => exact ⟨⟨talking.opened, talking.connected⟩, trivial⟩
      | worker => exact ⟨⟨talking.opened, talking.connected⟩, trivial⟩
      | getError => exact ⟨talking.opened, trivial⟩
      | errorToName error => exact ⟨talking.opened, trivial⟩
      | _ => exact absurd among id
  | netConnect => exact absurd among id
  | close => exact absurd among id
  | exitGame => exact absurd among id
  | _ => trivial

/-- What the terminal asks of the library leaves it as it is. -/
theorem Exchanging.same {request : LibraryCall} (among : Exchanging (.library request))
    {result : request.Result} {before after : Library}
    (did : before.Does request result after) : after = before := by
  cases request with
  | streamRead size => exact did.2.2
  | streamSend data => exact did.2
  | worker => exact did
  | getError => exact did
  | errorToName error => exact did
  | _ => exact absurd among id

theorem Talking.keep {state after : Machine × Seen}
    (talking : Talking entry password fd state) (same : after.1 = state.1)
    (target : after.2.target = state.2.target)
    (entered : after.2.entered = state.2.entered) :
    Talking entry password fd after where
  toDialling := talking.toDialling.keep (by rw [same]) (by rw [same]) (by rw [same])
    target entered
  opened := same ▸ talking.opened
  connected := same ▸ talking.connected

theorem Exchanging.keeps {op : AppCall} {state after : Machine × Seen}
    {result : op.Result} (among : Exchanging op)
    (talking : Talking entry password fd state)
    (made : scene faults state op result after) : Talking entry password fd after := by
  cases op with
  | library request =>
      have same : after.1.library = state.1.library := among.same made.1.1
      exact ⟨talking.toDialling.heard made, same ▸ talking.opened,
        same ▸ talking.connected⟩
  | modify change =>
      have did : after.1 =
        { state.1 with statics := change state.1.statics } := made.1
      have noted : after.2 = state.2 := made.2
      obtain ⟨_, hosts, form⟩ := among state.1.statics
      have dialling : Dialling entry password fd after := by
        refine talking.toDialling.keep ?_ ?_ ?_ (by rw [noted]) (by rw [noted])
        · rw [did, hosts]
        · rw [did, form]
        · rw [did]
      have same : after.1.library = state.1.library := by rw [did]
      exact ⟨dialling, same ▸ talking.opened, same ▸ talking.connected⟩
  | oskPrompt prompt initial outLen kind backdrop =>
      have line : prompt = linePrompt := among
      have noted : after.2.target = state.2.target ∧
          after.2.entered = state.2.entered := by
        have seen : after.2 = Seen.note state.1.statics.known state.2 _ := made.2
        rw [seen, Seen.note, if_pos line]
        split
        · exact ⟨rfl, rfl⟩
        · exact ⟨rfl, rfl⟩
      exact talking.keep made.1.2 noted.1 noted.2
  | statics => exact talking.keep made.1.2 (made.2 ▸ rfl) (made.2 ▸ rfl)
  | draw => exact talking.keep made.1 (made.2 ▸ rfl) (made.2 ▸ rfl)
  | padPressed => exact talking.keep made.1 (made.2 ▸ rfl) (made.2 ▸ rfl)
  | uiConfirm => exact talking.keep made.1 (made.2 ▸ rfl) (made.2 ▸ rfl)
  | uiMessage => exact talking.keep made.1 (made.2 ▸ rfl) (made.2 ▸ rfl)
  | delay => exact talking.keep made.1 (made.2 ▸ rfl) (made.2 ▸ rfl)
  | _ => exact absurd among id

theorem Conversing.sound {op : AppCall} {state : Machine × Seen} (among : Conversing op)
    (talking : Talking entry password fd state) : Sound op state := by
  rcases among with rfl | among
  · trivial
  · exact among.sound talking

theorem Conversing.keeps {op : AppCall} {state after : Machine × Seen}
    {result : op.Result} (among : Conversing op)
    (talking : Talking entry password fd state)
    (made : scene faults state op result after) : Talking entry password fd after := by
  rcases among with rfl | among
  · exact talking.keep made.1 (made.2 ▸ rfl) (made.2 ▸ rfl)
  · exact among.keeps talking made

theorem runTerminal_talking (build : Build) (host : HostEntry) (typed : Buffer)
    {state : Machine × Seen} (talking : Talking entry password fd state) :
    Guarded (scene faults) Sound (fun _ after => Talking entry password fd after)
      (runTerminal build host typed) state :=
  (runTerminal_conversing build host typed).guarded (Talking entry password fd) talking
    (fun _ _ among talking => among.sound talking)
    fun _ _ _ _ among talking made => among.keeps talking made

/-! ## A whole session -/

section Whole

variable (build : Build) (typed : Buffer)

/-- What is left behind a session: nothing, neither of it nor in its copy of the
server. -/
abbrev LeftBehind (left : HostEntry) (after : Machine × Seen) : Prop :=
  Calm after.1 ∧ left = Hosts.zeroEntry

theorem close_guarded {α : Type} {next : Unit → Psp α}
    {post : α → Machine × Seen → Prop} {device : Machine} {seen : Seen}
    (dialling : Dialling entry password fd (device, seen))
    (closed : device.library.Closed)
    (rest : ∀ device, Calm device → Guarded (scene faults) Sound post (next ())
      (device, seen)) :
    Guarded (scene faults) Sound post (call (.close fd) >>= next) (device, seen) := by
  refine guarded_call ⟨dialling.sockets, closed⟩ fun _ after made => ?_
  have did : after.1 = { device with sockets := device.sockets.erase fd } := made.1
  have noted : after.2 = seen := made.2
  rw [← Prod.eta after, noted]
  refine rest after.1 ?_
  rw [did]
  exact
    { sockets := by
        change device.sockets.erase fd = []
        rw [show device.sockets = [fd] from dialling.sockets, List.erase_cons_head]
      closed := closed
      accepted := dialling.accepted
      form := dialling.form }

theorem runConnected_sound {word : Field hostPasswordLen} {state : Machine × Seen}
    (dialling : Dialling entry word.text fd state) (closed : state.1.library.Closed) :
    Guarded (scene faults) Sound LeftBehind
      (runConnected build typed { entry with password := word } fd) state := by
  obtain ⟨device, seen⟩ := state
  refine guarded_silent trivial trivial fun _ => ?_
  have serves : Serves (scene faults) Sound (fun state => state.1.library)
      (Dialling entry word.text fd) Fresh (fun state => Vouched state.1 state.2)
      (sessionConfig { entry with password := word }) library :=
    session_serves rfl rfl
  refine .bind ((pspsshOpen_opened serves
    (session_policy word) dialling closed).mono ?_)
  rintro result ⟨device, seen⟩ ⟨opened, dialling⟩
  cases result with
  | error problem =>
      refine close_guarded dialling opened.1 fun device calm => ?_
      exact guarded_silent trivial trivial fun _ => .done ⟨calm, rfl⟩
  | ok session =>
      obtain ⟨opened, _, connected⟩ := opened
      refine guarded_modify_same rfl ?_
      have talking : Talking entry word.text fd
          ({ device with statics := { device.statics with session } }, seen) :=
        ⟨dialling.keep rfl rfl rfl rfl rfl, opened, connected⟩
      refine .bind ((runTerminal_talking build _ typed talking).mono ?_)
      rintro left ⟨device, seen⟩ talking
      refine .bind ((serves.close talking.toDialling talking.opened.toHas
        fun _ => rfl).mono ?_)
      rintro _ ⟨device, seen⟩ ⟨closed, dialling⟩
      exact close_guarded dialling closed fun device calm => .done ⟨calm, rfl⟩

theorem runDialled_sound {word : Field hostPasswordLen} {device : Machine}
    {seen : Seen} (calm : Calm device)
    (listed : entry ∈ device.statics.hosts.entries.toList)
    (owns : Owns entry word.text seen) :
    Guarded (scene faults) Sound LeftBehind
      (runDialled build typed { entry with password := word }) (device, seen) := by
  have announced {next : Unit → Psp HostEntry}
    {post : HostEntry → Machine × Seen → Prop}
      (rest : Guarded (scene faults) Sound post (next ()) (device, seen)) :
      Guarded (scene faults) Sound post
        (announce build { entry with password := word } >>= next) (device, seen) := by
    refine .bind ?_
    unfold announce
    refine guarded_silent trivial trivial fun _ =>
      guarded_silent trivial trivial fun _ => ?_
    refine guarded_silent trivial trivial fun _ =>
      guarded_silent trivial trivial fun _ => ?_
    refine .call trivial fun _ after made => .done ?_
    rw [Silent.same (by trivial) made]
    exact rest
  refine announced (guarded_silent trivial trivial fun started => ?_)
  split
  · exact guarded_silent trivial trivial fun _ => .done ⟨calm, rfl⟩
  refine guarded_call ⟨calm, entry, listed, rfl, rfl⟩ fun fd after made => ?_
  obtain ⟨⟨fresh, did⟩, noted⟩ := made
  obtain ⟨machine, watcher⟩ := after
  dsimp only at fresh did noted
  subst did noted
  split
  · rename_i negative
    have nothing : Calm { device with sockets :=
        if 0 ≤ fd then fd :: device.sockets else device.sockets } := by
      rw [if_neg (Int.not_le.mpr negative)]
      exact calm
    exact guarded_silent trivial trivial fun _ => .done ⟨nothing, rfl⟩
  · rename_i connected
    refine runConnected_sound build typed ?_ calm.closed
    exact
      { dialled := ⟨listed, rfl⟩
        owns := owns
        sockets := by
          change (if 0 ≤ fd then fd :: device.sockets else device.sockets) = [fd]
          rw [if_pos (Int.not_lt.mp connected), calm.sockets]
        accepted := calm.accepted
        form := calm.form }

end Whole

end Pspssh.App
