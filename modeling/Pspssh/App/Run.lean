import Pspssh.App.Dialled
import Pspssh.App.Edited

namespace Pspssh.App

open Pspssh.Data Pspssh.Card Pspssh.Core Pspssh.Hosts Pspssh.Known Pspssh.Menu
open Pspssh.Screen
open Pspssh.Data.Process (Always Ends Guarded)

/-! The application from its start to its end, whatever is pressed, answered or
sent, and whatever fails on the card. -/

/-! ## The list -/

structure Listing (state : Machine × Seen) (within : HostList × Option Question) :
    Prop where
  hosts : within.1 = state.1.statics.hosts
  asked : ∀ question, within.2 = some question → state.2.confirmed = some question
  calm : Calm state.1

section Listed

variable {faults : IoCall → Prop} {device : Machine} {seen : Seen}
  {within : HostList × Option Question}

abbrev Answered (within : HostList × Option Question) (op : UiCall)
    (result : op.Result) (after : Machine × Seen) : Prop :=
  ∃ left, askedWorld within op result left ∧ Listing after left

/-- An answer to something that is no question. -/
theorem Listing.answered {op : UiCall} {result : op.Result} {after : Machine × Seen}
    (calm : Calm after.1)
    (made : uiWorld within.1 op result after.1.statics.hosts)
    (plain : justAnswered ⟨op, result⟩ = none) : Answered within op result after :=
  ⟨(after.1.statics.hosts, none), ⟨made, plain.symm⟩, rfl, nofun, calm⟩

variable (build : Build)

theorem uiCall_answered (op : UiCall) (listing : Listing (device, seen) within)
    (sound : Menu.Sound op within.1 ∧ Confirmed op within) :
    Guarded (scene faults) App.Sound (Answered within op) (uiCall build op)
      (device, seen) := by
  have hosts := listing.hosts
  have calm := listing.calm
  dsimp only at hosts calm
  cases op with
  | hostsCount =>
      refine guarded_statics trivial
        (.done (Listing.answered calm ⟨?_, hosts.symm⟩ rfl))
      rw [hosts]
  | hostsAt index =>
      refine guarded_statics trivial
        (.done (Listing.answered calm ⟨?_, hosts.symm⟩ rfl))
      rw [hosts]
  | editForm index existing =>
      refine ((editForm_edited existing calm.toAtRest).permit fun _ _ kept =>
        kept.1).mono fun value after ends => ?_
      exact Listing.answered ends.calm trivial rfl
  | hostsRemove index =>
      refine guarded_statics trivial (onCard_next (fun _ _ => trivial) ?_)
      rintro ⟨result, after⟩ card run
      refine guarded_modify_same rfl (.done (Listing.answered ?_ trivial rfl))
      have run : Program.Returns (Step faults)
        (HostEdit.run (.remove index) device.statics.hosts) device.card
        (result, after) card := run
      refine ⟨⟨calm.sockets, calm.closed, ?_⟩, calm.form⟩
      change ∀ entry ∈ after.entries.toList, _
      rcases edit_cases run with ⟨_, _, same, _⟩ | ⟨changed, _⟩
      · rw [same]
        exact calm.accepted
      · exact onList_accepted calm.accepted changed
  | hostsError =>
      exact guarded_statics trivial (.done (Listing.answered calm hosts.symm rfl))
  | knownhostsLookup address port =>
      exact guarded_statics trivial (.done (Listing.answered calm hosts.symm rfl))
  | knownhostsForget address port =>
      refine guarded_statics trivial (onCard_next (fun _ _ => trivial) ?_)
      rintro ⟨result, after⟩ card run
      obtain ⟨entry, listed, rfl, rfl, asked⟩ := sound.2
      have name : cString entry.address.text = entry.address.toCString :=
        CString.ext (cString_text entry.address.noNul)
      rw [name] at run
      have forgotten :
        App.Sound (.modify fun statics => { statics with known := after })
          ({ device with card }, seen) := by
        refine .inr fun address port => ?_
        by_cases here : entry.address.toCString = address ∧ entry.port = port
        · obtain ⟨rfl, rfl⟩ := here
          exact .forgotten (hosts ▸ listed) ⟨rfl, rfl⟩ (forget_erases run)
            (listing.asked _ asked)
        · refine .same (forget_local ?_ run)
          rintro ⟨sameName, samePort⟩
          exact here ⟨(Option.some.inj sameName).symm, samePort.symm⟩
      exact guarded_modify forgotten
        (.done (Listing.answered
          ⟨⟨calm.sockets, calm.closed, calm.accepted⟩, calm.form⟩ hosts.symm rfl))
  | knownhostsError =>
      exact guarded_statics trivial (.done (Listing.answered calm hosts.symm rfl))
  | draw drawings =>
      refine .call trivial fun result after made => .done ?_
      have same : after.1 = device := made.1
      exact Listing.answered (same ▸ calm) (by rw [same]; exact hosts.symm) rfl
  | padExitRequested =>
      refine .call trivial fun result after made => .done ?_
      have same : after.1 = device := made.1
      exact Listing.answered (same ▸ calm) (by rw [same]; exact hosts.symm) rfl
  | padPressed =>
      refine guarded_call trivial fun result after made => .done ?_
      have same : after.1 = device := made.1
      exact Listing.answered (same ▸ calm) (by rw [same]; exact hosts.symm) rfl
  | uiConfirm question detail =>
      refine .call trivial fun yes after made => .done ?_
      have same : after.1 = device := made.1
      have noted : after.2.confirmed = if yes then some (question, detail) else none :=
        made.2 ▸ rfl
      exact ⟨(within.1, if yes then some (question, detail) else none), ⟨rfl, rfl⟩,
        by rw [same]; exact hosts, fun _ asked => noted.trans asked, same ▸ calm⟩
  | uiMessage title detail colour =>
      refine .call trivial fun result after made => .done ?_
      have same : after.1 = device := made.1
      exact Listing.answered (same ▸ calm) (by rw [same]; exact hosts.symm) rfl
  | dereferenceNull => exact absurd sound.1 id

/-- The list over and over, until a server is chosen or the list is left. -/
theorem uiHostList_chosen (calm : Calm device) :
    Guarded (scene faults) App.Sound
      (fun chosen after => Calm after.1 ∧
        (0 ≤ chosen → IsHost chosen after.1.statics.hosts))
      (uiHostList build) (device, seen) := by
  refine .iterate (fun view state => 0 ≤ view.top ∧ Calm state.1) ⟨le_refl 0, calm⟩ ?_
  rintro view ⟨device, seen⟩ ⟨top, calm⟩
  have sound : Program.Guarded askedWorld _ _ (hostListFrame build view)
      (device.statics.hosts, none) := Process.guarded_observed (frame_sound build top)
  have frame := sound.and (frame_asking build view)
  have listing : Listing (device, seen) (device.statics.hosts, none) :=
    ⟨rfl, nofun, calm⟩
  refine (Guarded.via Listing (fun op state within related permitted =>
    uiCall_answered build op related permitted) frame listing).mono ?_
  rintro next after ⟨left, ⟨ends, _⟩, listing⟩
  cases next with
  | inl view => exact ⟨ends, listing.calm⟩
  | inr chosen => exact ⟨listing.calm, fun row => listing.hosts ▸ ends row⟩

end Listed

/-! ## A session -/

section Session

variable {faults : IoCall → Prop} {device : Machine} {seen : Seen}
  (build : Build) (typed : Buffer)

/-- What `run_session` leaves: nothing of the session, and nothing in its copy of
the server. -/
theorem runSession_sound (calm : Calm device) {chosen : Option HostEntry}
    (listed : ∀ entry ∈ chosen, entry ∈ device.statics.hosts.entries.toList) :
    Guarded (scene faults) Sound
      (fun left after => Calm after.1 ∧ ∀ copy ∈ left, copy = Hosts.zeroEntry)
      (runSession build typed chosen) (device, seen) := by
  have ended {host : HostEntry} {state : Machine × Seen}
      (dialled : Guarded (scene faults) Sound LeftBehind
        (runDialled build typed host) state) :
      Guarded (scene faults) Sound
        (fun left after => Calm after.1 ∧ ∀ copy ∈ left, copy = Hosts.zeroEntry)
        (do
          let left ← runDialled build typed host
          pure (some left)) state := by
    refine .bind (dialled.mono ?_)
    rintro left after ⟨calm, empty⟩
    exact .done ⟨calm, fun copy same => (Option.some.inj same).symm.trans empty⟩
  cases chosen with
  | none => exact .done ⟨calm, nofun⟩
  | some entry =>
      have listed := listed entry rfl
      unfold runSession
      dsimp only
      split
      · rename_i unstored
        refine .bind ?_
        refine guarded_silent trivial trivial fun _ =>
          guarded_call trivial fun answer after made => ?_
        obtain ⟨⟨⟨noNul, fits⟩, same⟩, noted⟩ := made
        obtain ⟨result, text⟩ := answer
        obtain ⟨machine, watcher⟩ := after
        dsimp only at noNul fits same noted ⊢
        rw [same]
        split
        · refine guarded_silent trivial trivial fun _ =>
            guarded_silent trivial trivial fun _ => ?_
          exact .done (.done ⟨calm, fun copy same => (Option.some.inj same).symm⟩)
        · rename_i answered
          refine .done ?_
          dsimp only
          split
          · exact .done ⟨calm, fun copy same => (Option.some.inj same).symm⟩
          · refine ended
              (runDialled_sound build typed calm listed (.inr ⟨unstored, ?_⟩))
            rw [noted, Seen.note, if_pos (not_not.mp answered),
              if_neg (passwordPrompt_ne entry), copyField_text noNul fits]
      · have stored : Owns entry entry.password.text seen := .inl rfl
        exact ended (runDialled_sound build typed calm listed stored)

/-- However a session goes, it leaves nothing open and nothing in its copy of the
server, the password among it. -/
theorem session_leaves_nothing (calm : Calm device) {chosen : Option HostEntry}
    (listed : ∀ entry ∈ chosen, entry ∈ device.statics.hosts.entries.toList) :
    Ends (scene faults) (runSession build typed chosen) (device, seen) fun left after =>
      Calm after.1 ∧ ∀ copy ∈ left, copy = Hosts.zeroEntry :=
  (runSession_sound build typed calm listed).returns

end Session

theorem session_with_pi_leaves_nothing :
    let session :=
      runSession ⟨ascii "2.1.1", []⟩ (fun _ => 0) (hostsAt 0 (oneHost "pi"))
    Ends (scene anyFault) session (consoleWithHost, .nothing) fun left after =>
      Calm after.1 ∧ ∀ copy ∈ left, copy = Hosts.zeroEntry :=
  session_leaves_nothing ⟨ascii "2.1.1", []⟩ (fun _ => 0) consoleWithHost_calm
    fun _ found => mem_of_hostsAt found

/-! ## Forgetting the passwords -/

theorem forgotten_slots (hosts : HostList) (slot : Nat) :
    (hostsForgetPasswords hosts).entries.slots slot =
      if slot < hostsMax then
        { hosts.entries.slots slot with password := emptyField _ }
      else hosts.entries.slots slot := by
  let trace (i : Int) (slot : Nat) : HostEntry :=
    if (slot : Int) < i then { hosts.entries.slots slot with password := emptyField _ }
    else hosts.entries.slots slot
  have run : (hostsForgetPasswords hosts).entries.slots = trace hostsMax := by
    refine forUp_eq trace ?_ (fun i lower upper => ?_) rfl
    · funext slot
      exact (if_neg (by omega)).symm
    · funext slot
      dsimp only [trace]
      by_cases here : slot = i.toNat
      · subst here
        rw [Function.update_self, if_neg (by omega), if_pos (by omega)]
      · rw [Function.update_of_ne here]
        exact if_congr (by omega) rfl rfl
  rw [run]
  exact if_congr Int.ofNat_lt rfl rfl

theorem accepted_without_password {entry : HostEntry}
    (accepted : hostsProblem (some entry) = none) :
    hostsProblem (some { entry with password := emptyField _ }) = none := by
  simp only [hostsProblem] at accepted ⊢
  split_ifs at accepted with address user port profile plain
  rw [if_neg address, if_neg user, if_neg port, if_neg profile, if_neg]
  obtain ⟨name, address, user, _⟩ := plain
  exact not_not.mpr
    ⟨name, address, user, fun ch member => absurd member List.not_mem_nil⟩

theorem forgotten_accepted {hosts : HostList}
    (accepted : ∀ entry ∈ hosts.entries.toList, hostsProblem (some entry) = none) :
    ∀ entry ∈ (hostsForgetPasswords hosts).entries.toList,
      hostsProblem (some entry) = none := by
  intro entry member
  obtain ⟨slot, used, rfl⟩ := List.mem_map.mp member
  have within : slot < hosts.entries.count := List.mem_range.mp used
  have old : hosts.entries.slots slot ∈ hosts.entries.toList :=
    List.mem_map.mpr ⟨slot, List.mem_range.mpr within, rfl⟩
  rw [forgotten_slots, if_pos (within.trans_le hosts.entries.within)]
  exact accepted_without_password (accepted _ old)

theorem forgotten_passwords (hosts : HostList) :
    Forgotten (hostsForgetPasswords hosts) := by
  intro slot within
  rw [forgotten_slots, if_pos within]
  rfl

/-! ## The whole of a run -/

section Main

variable {faults : IoCall → Prop} {device : Machine} {seen : Seen}
  (build : Build) (typed : Buffer)

theorem mainPass_calm (calm : Calm device) :
    Guarded (scene faults) Sound (fun _ after => Calm after.1) (mainPass build typed)
      (device, seen) := by
  refine .bind ((uiHostList_chosen build calm).mono ?_)
  rintro chosen ⟨device, seen⟩ ⟨calm, listed⟩
  split
  · exact .done calm
  · rename_i row
    refine guarded_statics trivial
      (.bind ((runSession_sound build typed calm ?_).mono ?_))
    · exact fun entry found => mem_of_hostsAt found
    · exact fun left after ends => .done ends.1

variable [Libc]

/-- Before anything is shown, the keys may be loaded. -/
theorem loadKnown_next {α : Type} {next : Unit → Psp α}
    {post : α → Machine × Seen → Prop}
    (calm : Calm device)
    (rest : ∀ device, Calm device →
      Guarded (scene faults) Sound post (next ()) (device, .nothing)) :
    Guarded (scene faults) Sound post (loadKnown >>= next) (device, .nothing) := by
  refine .bind (guarded_statics trivial (onCard_next (fun _ _ => trivial) ?_))
  rintro ⟨result, known⟩ card _
  refine guarded_modify (.inl rfl) ?_
  have resting : Calm { device with card, statics := { device.statics with known } } :=
    ⟨⟨calm.sockets, calm.closed, calm.accepted⟩, calm.form⟩
  split
  · refine .call trivial fun _ after made => .done ?_
    rw [Silent.same (by trivial) made]
    exact rest _ resting
  · exact .done (rest _ resting)

theorem loadHosts_next {α : Type} {next : Unit → Psp α}
    {post : α → Machine × Seen → Prop}
    (calm : Calm device)
    (rest : ∀ device, Calm device →
      Guarded (scene faults) Sound post (next ()) (device, seen)) :
    Guarded (scene faults) Sound post (loadHosts >>= next) (device, seen) := by
  refine .bind (guarded_statics trivial (onCard_next (fun _ _ => trivial) ?_))
  rintro ⟨result, hosts⟩ card loaded
  refine guarded_modify_same rfl ?_
  have resting : Calm { device with card, statics := { device.statics with hosts } } :=
    ⟨⟨calm.sockets, calm.closed, loaded_accepted loaded⟩, calm.form⟩
  split
  · refine .call trivial fun _ after made => .done ?_
    rw [Silent.same (by trivial) made]
    exact rest _ resting
  · exact .done (rest _ resting)

theorem runApplication_sound (calm : Calm device) :
    Guarded (scene faults) Sound (fun _ _ => True) (runApplication build typed)
      (device, .nothing) := by
  refine loadKnown_next calm fun device calm =>
    loadHosts_next calm fun device calm => ?_
  have sessions : Guarded (scene faults) Sound (fun _ after => Calm after.1)
      (Process.iterate (fun _ => mainPass build typed) ()) (device, .nothing) := by
    refine .iterate (fun _ state => Calm state.1) calm ?_
    rintro _ ⟨device, seen⟩ calm
    refine (mainPass_calm build typed calm).mono fun next after calm => ?_
    cases next with
    | inl _ => exact calm
    | inr _ => exact calm
  refine .bind (sessions.mono ?_)
  rintro _ ⟨device, seen⟩ calm
  refine guarded_modify_same rfl
    (guarded_call ⟨calm.closed, trivial⟩ fun _ after made => ?_)
  obtain ⟨⟨same, others⟩, _⟩ := made
  have same : after.1.library = device.library := same
  refine guarded_silent trivial trivial fun _ => .call ?_ fun _ _ _ => .done trivial
  rw [Sound, others, same]
  exact ⟨⟨⟨calm.sockets, calm.closed, forgotten_accepted calm.accepted⟩, calm.form⟩,
    forgotten_passwords _⟩

theorem main_sound (card : MemoryCard) :
    Guarded (scene faults) Sound (fun _ _ => True) (main build typed)
      (booted card, .nothing) := by
  have calm := booted_calm card
  have forgotten : Forgotten (booted card).statics.hosts := fun _ _ => rfl
  have leaves {device : Machine} {seen : Seen} (calm : Calm device)
      (forgotten : Forgotten device.statics.hosts) :
      Guarded (scene faults) Sound (fun _ _ => True) (call .exitGame)
        (device, seen) := .call ⟨calm, forgotten⟩ fun _ _ _ => .done trivial
  refine guarded_silent trivial trivial fun failed => ?_
  split
  · exact leaves calm forgotten
  refine guarded_silent trivial trivial fun _ =>
    guarded_silent trivial trivial fun _ => ?_
  refine guarded_silent trivial trivial fun _ => .bind ?_
  refine guarded_call ⟨calm.closed, trivial⟩ fun started after made => .done ?_
  obtain ⟨⟨same, others⟩, noted⟩ := made
  have same : after.1.library = (booted card).library := same
  have others : after.1 = booted card := by
    rw [others, same]
  have noted : after.2 = Seen.nothing := noted
  rw [← Prod.eta after, others, noted]
  cases started with
  | false =>
      refine guarded_silent trivial trivial fun _ =>
        guarded_silent trivial trivial fun _ => ?_
      exact leaves calm forgotten
  | true => exact runApplication_sound build typed calm

end Main

/-! ## What is never done -/

def AcceptsVouched : AppCall → Machine × Seen → Prop
  | .library (.answerKey .success), (device, seen) => Vouched device seen
  | _, _ => True

/-- A session is opened under the name, and a password given away only with that
name and over a session whose key was accepted, of the server in the list that was
dialled. -/
def AnswersOwner : AppCall → Machine × Seen → Prop
  | .library (.setUsername user), (device, seen) =>
      ∃ entry, Dialled entry device seen ∧ entry.user.text = user
  | .library (.answerAuth (.password text)), (device, seen) =>
      device.library.Trusted ∧ ∃ entry, Dialled entry device seen ∧
        device.library.user = some entry.user.text ∧ Owns entry text seen
  | _, _ => True

/-- Once anything was shown, the keys that are remembered change only as the user
has just agreed to. -/
def KeepsKeys : AppCall → Machine × Seen → Prop
  | .modify change, (device, seen) =>
      seen = .nothing ∨
        ∀ address port, Agreed device seen (change device.statics).known address port
  | _, _ => True

section Never

variable [Libc] (faults : IoCall → Prop) (build : Build) (typed : Buffer)
  (card : MemoryCard)

/-- In every run of the application, a key is accepted only if it is the one that
was remembered for the server that was dialled when it was offered, or if none was
and the user has just said yes to it. -/
theorem keys_accepted_if_vouched :
    Always (scene faults) (main build typed)
      (booted card, .nothing) AcceptsVouched := by
  refine (main_sound build typed card).always fun op state sound => ?_
  cases op with
  | library request =>
      cases request with
      | answerKey answer =>
          cases answer with
          | success => exact sound.2
          | rejected => trivial
      | _ => trivial
  | _ => trivial

/-- In every run of the application, no server is told the name or the password
that belongs to another. -/
theorem passwords_stay_with_server :
    Always (scene faults) (main build typed) (booted card, .nothing) AnswersOwner := by
  refine (main_sound build typed card).always fun op state sound => ?_
  cases op with
  | library request =>
      cases request with
      | setUsername user => exact sound.2
      | answerAuth answer =>
          cases answer with
          | password text =>
              obtain ⟨⟨_, trusted⟩, owned⟩ := sound
              exact ⟨(trusted.resolve_left nofun).resolve_left nofun, owned⟩
          | failure => trivial
          | invalidType => trivial
      | _ => trivial
  | _ => trivial

/-- In every run of the application, no key is learnt, replaced or forgotten
behind the user's back. -/
theorem remembered_keys_stay :
    Always (scene faults) (main build typed) (booted card, .nothing) KeepsKeys := by
  refine (main_sound build typed card).always fun op state sound => ?_
  cases op with
  | modify change => exact sound
  | _ => trivial

end Never

end Pspssh.App
