import Pspssh.App.Main
import Pspssh.App.Seen
import Pspssh.Known.Edits
import Pspssh.Menu.Confirmed

namespace Pspssh.App

open Pspssh.Data Pspssh.Card Pspssh.Core Pspssh.Hosts Pspssh.Known Pspssh.Menu
open Pspssh.Data.Process (Guarded)

/-! What every call of the running application keeps to. -/

/-- No session is open, and every server in the list can be dialled. -/
structure AtRest (device : Machine) : Prop where
  sockets : device.sockets = []
  closed : device.library.Closed
  accepted : ∀ entry ∈ device.statics.hosts.entries.toList,
    hostsProblem (some entry) = none

/-- Nothing of a form is left either. -/
structure Calm (device : Machine) : Prop extends AtRest device where
  form : device.statics.form = Hosts.zeroEntry

theorem booted_calm (card : MemoryCard) : Calm (booted card) where
  sockets := rfl
  closed := ⟨rfl, rfl, rfl, rfl⟩
  accepted := fun _ member => absurd member List.not_mem_nil
  form := rfl

def consoleWithHost : Machine :=
  { booted blankCard with
    statics := { (booted blankCard).statics with hosts := oneHost "pi" } }

theorem consoleWithHost_calm : Calm consoleWithHost where
  sockets := rfl
  closed := ⟨rfl, rfl, rfl, rfl⟩
  accepted := by decide +kernel
  form := rfl

/-- The server in the list that was dialled last. -/
structure Dialled (entry : HostEntry) (device : Machine) (seen : Seen) : Prop where
  listed : entry ∈ device.statics.hosts.entries.toList
  target : seen.target = some (entry.address.text, entry.port)

def pinnedFor (entry : HostEntry) (known : KnownHosts) : Option CString :=
  knownhostsLookup (some entry.address.toCString) entry.port known

/-- The key that the server offers is the one that was remembered for it when it
was offered, or none was and the user has just said yes to its fingerprint. -/
def Vouched (device : Machine) (seen : Seen) : Prop :=
  ∃ entry key, Dialled entry device seen ∧ device.library.offered = some key ∧
    (pinnedFor entry seen.store = some (cString (keyFingerprint key)) ∨
      pinnedFor entry seen.store = none ∧
        seen.confirmed = some (firstSight entry, keyFingerprint key))

/-- The password is the one stored for the server, or none is and it is the one
that was typed for it. -/
def Owns (entry : HostEntry) (password : List UInt8) (seen : Seen) : Prop :=
  entry.password.text = password ∨
    entry.password.text = [] ∧ seen.entered = some (passwordPrompt entry, password)

/-- What a server is told is meant for it, the password for the name that the
session was opened under. -/
def Meant : LibraryCall → Machine × Seen → Prop
  | .answerKey .success, (device, seen) => Vouched device seen
  | .setUsername user, (device, seen) =>
      ∃ entry, Dialled entry device seen ∧ entry.user.text = user
  | .answerAuth (.password text), (device, seen) =>
      ∃ entry, Dialled entry device seen ∧
        device.library.user = some entry.user.text ∧ Owns entry text seen
  | _, _ => True

/-- The key remembered for an address is the same as before; or there was none,
and it is that of the server that was dialled there, which the user has just
said yes to; or the user has just said that it be forgotten, and the list is the
old one without its first key for that address. -/
inductive Agreed (device : Machine) (seen : Seen) (known : KnownHosts)
    (address : CString) (port : Int32) : Prop where
  | same
      (same : knownhostsLookup (some address) port known =
        knownhostsLookup (some address) port device.statics.known)
  | learnt {entry : HostEntry} {key : List UInt8} (dialled : Dialled entry device seen)
      (here : entry.address.toCString = address ∧ entry.port = port)
      (offered : device.library.offered = some key)
      (missing : knownhostsLookup (some address) port device.statics.known = none)
      (learnt : knownhostsLookup (some address) port known =
        some (cString (keyFingerprint key)))
      (asked : seen.confirmed = some (firstSight entry, keyFingerprint key))
  | forgotten {entry : HostEntry}
      (listed : entry ∈ device.statics.hosts.entries.toList)
      (here : entry.address.toCString = address ∧ entry.port = port)
      (taken : known.entries.toList =
        device.statics.known.entries.toList.eraseP (·.IsFor address.text port))
      (asked : seen.confirmed = some (forgetQuestion entry))

def Forgotten (hosts : HostList) : Prop :=
  ∀ slot < hostsMax, (hosts.entries.slots slot).password.text = []

/-- A call where it belongs. The keys are loaded before anything is shown. -/
def Sound : AppCall → Machine × Seen → Prop
  | .modify change, (device, seen) =>
      seen = .nothing ∨
        ∀ address port, Agreed device seen (change device.statics).known address port
  | .library request, (device, seen) =>
      Proper request device.library ∧ Meant request (device, seen)
  | .netConnect address port, (device, _) =>
      Calm device ∧ ∃ entry ∈ device.statics.hosts.entries.toList,
        entry.address.text = address ∧ entry.port = port
  | .close fd, (device, _) => device.sockets = [fd] ∧ device.library.Closed
  | .exitGame, (device, _) => Calm device ∧ Forgotten device.statics.hosts
  | _, _ => True

/-! ## Rules -/

section Rules

variable {faults : IoCall → Prop} {α : Type} {device : Machine} {seen : Seen}

theorem sound_of_same {change : Statics → Statics}
    (same : (change device.statics).known = device.statics.known) :
    Sound (.modify change) (device, seen) :=
  .inr fun _ _ => .same (by rw [same])

/-- A change that leaves the remembered keys alone. -/
theorem guarded_modify_same {change : Statics → Statics} {next : Unit → Psp α}
    {post : α → Machine × Seen → Prop}
    (same : (change device.statics).known = device.statics.known)
    (rest : Guarded (scene faults) Sound post (next ())
      ({ device with statics := change device.statics }, seen)) :
    Guarded (scene faults) Sound post (modify change >>= next) (device, seen) :=
  guarded_modify (sound_of_same same) rest

/-- What a store does on the card changes nothing else. -/
theorem onCard_guarded {allowed : AppCall → Machine × Seen → Prop}
    (permitted : ∀ request state, allowed (.card request) state)
    (program : Io α) :
    Guarded (scene faults) allowed
      (fun value after => ∃ card,
        Program.Returns (Step faults) program device.card value card ∧
          after = ({ device with card }, seen))
      (onCard program) (device, seen) := by
  induction program generalizing device with
  | done value => exact .done ⟨_, .done, rfl⟩
  | call request next ih =>
      refine guarded_call (permitted request _) fun result after made => ?_
      obtain ⟨⟨stepped, same⟩, noted⟩ := made
      have noted : after.2 = seen := noted
      obtain ⟨machine, watcher⟩ := after
      dsimp only at stepped same noted
      subst noted
      rw [same]
      have rest := @ih result { device with card := machine.card }
      refine rest.mono ?_
      rintro value after ⟨card, run, ended⟩
      exact ⟨card, .call stepped run, ended⟩

theorem onCard_next {allowed : AppCall → Machine × Seen → Prop} {β : Type}
    (permitted : ∀ request state, allowed (.card request) state)
    {program : Io β} {next : β → Psp α} {post : α → Machine × Seen → Prop}
    (rest : ∀ value card, Program.Returns (Step faults) program device.card value card →
      Guarded (scene faults) allowed post (next value) ({ device with card }, seen)) :
    Guarded (scene faults) allowed post (onCard program >>= next) (device, seen) := by
  refine .bind ((onCard_guarded permitted program).mono ?_)
  rintro value after ⟨card, run, rfl⟩
  exact rest value card run

end Rules

theorem keyFingerprint_noNul (key : List UInt8) : 0 ∉ keyFingerprint key := by
  rw [keyFingerprint, List.mem_append, not_or]
  exact ⟨by decide, Base64.encode_noNul _⟩

theorem keyFingerprint_text (key : List UInt8) :
    (cString (keyFingerprint key)).text = keyFingerprint key :=
  cString_text (keyFingerprint_noNul key)

theorem keyFingerprint_fits (key : List UInt8) :
    (copyField Known.fingerprintLen (keyFingerprint key)).toCString =
      cString (keyFingerprint key) := by
  apply CString.ext
  rw [keyFingerprint_text]
  refine copyField_text (keyFingerprint_noNul key) ?_
  rw [keyFingerprint, List.length_append, Base64.encode_length, Vector.length_toList]
  decide

theorem passwordPrompt_ne (entry : HostEntry) : passwordPrompt entry ≠ linePrompt := by
  intro same
  obtain ⟨rest, whole⟩ : (copyField promptLen
      (ascii "password for " ++ entry.user.text ++ ascii "@" ++
        entry.address.text)).text <+: _ := copyField_prefix _
  have first := congrArg List.head? whole
  rw [show (copyField promptLen _).text = linePrompt from same] at first
  exact absurd first (by simp [linePrompt, ascii])

end Pspssh.App
