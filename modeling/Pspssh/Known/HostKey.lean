import Pspssh.Hosts.Entry
import Pspssh.Known.Lookup

namespace Pspssh.Known

open Pspssh.Data
open Pspssh.Data.Program
open Pspssh.Card
open Pspssh.Hosts (HostEntry hostAddressLen)

/-! The check of a server's key while connecting: known keys stay pinned. -/

inductive Shown where
  | console (text : List UInt8)
  | message (title note : List UInt8)
  | confirm (question note : List UInt8)

def firstSight (host : HostEntry) : List UInt8 :=
  (host.address.text ++ ascii ":" ++ intText host.port ++
    ascii " has not been seen before").take (hostAddressLen + 40 - 1)

/-- `check_hostkey`, where `uiConfirm` is the user's answer to a question and
its note. -/
def checkHostkey (uiConfirm : List UInt8 → List UInt8 → Bool)
    (host : HostEntry) (fingerprint : CString) (known : KnownHosts) :
    Io (Int × KnownHosts × List Shown) :=
  match knownhostsLookup (some host.address.toCString) host.port known with
  | some expected =>
      if expected = fingerprint then
        pure (1, known,
          [.console (ascii "  host key " ++ fingerprint.text ++
            ascii " (known)\n")])
      else
        pure (0, known,
          [.console (ascii "\n  THE HOST KEY CHANGED\n"),
            .console (ascii "  expected " ++ expected.text ++ ascii "\n"),
            .console (ascii "  offered  " ++ fingerprint.text ++ ascii "\n"),
            .message
              (ascii "this is not the server you connected to before")
              (ascii "if you rebuilt it, forget its key from the list " ++
                [0xe2, 0x80, 0x94] ++ ascii " SELECT")])
  | none =>
      let shown :=
        [.console (ascii "  host key " ++ fingerprint.text ++ ascii "\n"),
          .confirm (firstSight host) fingerprint.text]
      if ¬ uiConfirm (firstSight host) fingerprint.text then
        pure (0, known, shown)
      else do
        let (result, remembered) ← knownhostsRemember
          (some host.address.toCString) host.port (some fingerprint) known
        if result ≠ 0 then
          pure (1, remembered, shown ++
            [.console (ascii "  (it could not be remembered: " ++
              ascii (knownhostsError remembered) ++ ascii ")\n")])
        else pure (1, remembered, shown)

inductive KeyCall where
  | check (uiConfirm : List UInt8 → List UInt8 → Bool) (host : HostEntry)
      (fingerprint : CString)
  | forget (address : Option CString) (port : Int32)

def KeyCall.run (call : KeyCall) (known : KnownHosts) : Io (Int × KnownHosts) :=
  match call with
  | .check uiConfirm host fingerprint => do
      let (verdict, after, _) ← checkHostkey uiConfirm host fingerprint known
      pure (verdict, after)
  | .forget address port => knownhostsForget address port known

def KeyCall.Forgets (address : CString) (port : Int32) : KeyCall → Prop
  | .check _ _ _ => False
  | .forget name number => name = some address ∧ number = port

section Pinning

variable {faults : IoCall → Prop} {uiConfirm : List UInt8 → List UInt8 → Bool}
  {host : HostEntry} {fingerprint : CString} {known after : KnownHosts}
  {card saved : MemoryCard} {verdict : Int} {shown : List Shown}

/-- The check accepts the pinned key, refuses any other, and adds a key only if
none is pinned and the user says so. -/
theorem check_cases
    (run : Returns (Step faults)
      (checkHostkey uiConfirm host fingerprint known) card
      (verdict, after, shown) saved) :
    (∃ expected,
        knownhostsLookup (some host.address.toCString) host.port known =
            some expected ∧
          verdict = (if expected = fingerprint then 1 else 0) ∧
          after = known ∧ saved = card) ∨
      knownhostsLookup (some host.address.toCString) host.port known = none ∧
        ((uiConfirm (firstSight host) fingerprint.text = false ∧ verdict = 0 ∧
            after = known ∧ saved = card) ∨
          uiConfirm (firstSight host) fingerprint.text = true ∧ verdict = 1 ∧
            ∃ result, Returns (Step faults)
              (knownhostsRemember (some host.address.toCString) host.port
                (some fingerprint) known) card (result, after) saved) := by
  unfold checkHostkey at run
  split at run
  · rename_i expected found
    left
    refine ⟨expected, found, ?_⟩
    split at run
    · rename_i same
      cases run
      exact ⟨by rw [if_pos same], rfl, rfl⟩
    · rename_i other
      cases run
      exact ⟨by rw [if_neg other], rfl, rfl⟩
  · rename_i missing
    right
    refine ⟨missing, ?_⟩
    dsimp only at run
    split at run
    · rename_i refused
      cases run
      exact .inl ⟨by simpa using refused, rfl, rfl, rfl⟩
    · rename_i accepted
      obtain ⟨⟨result, remembered⟩, middle, first, run⟩ :=
        returns_bind_iff.mp run
      refine .inr ⟨by simpa using accepted, ?_⟩
      dsimp only at run
      split at run
      · cases run
        exact ⟨rfl, result, first⟩
      · cases run
        exact ⟨rfl, result, first⟩

theorem check_returns (uiConfirm : List UInt8 → List UInt8 → Bool)
    (host : HostEntry) (fingerprint : CString) (known : KnownHosts)
    (card : MemoryCard) :
    Ensures (Step faults) (fun _ => True) (fun _ _ => True)
      (checkHostkey uiConfirm host fingerprint known) card := by
  unfold checkHostkey
  split
  · split
    · exact ⟨trivial, trivial⟩
    · exact ⟨trivial, trivial⟩
  · dsimp only
    split
    · exact ⟨trivial, trivial⟩
    · refine Ensures.bind ((remember_returns _ _ _ known card).mono
        (fun _ kept => kept) fun result after _ _ => ?_)
      obtain ⟨value, remembered⟩ := result
      dsimp only
      split
      · exact ⟨trivial, trivial⟩
      · exact ⟨trivial, trivial⟩

theorem exists_check (uiConfirm : List UInt8 → List UInt8 → Bool)
    (host : HostEntry) (fingerprint : CString) (known : KnownHosts)
    (card : MemoryCard) :
    ∃ result saved, Returns (Step faults)
      (checkHostkey uiConfirm host fingerprint known) card result saved :=
  (check_returns uiConfirm host fingerprint known card).exists_returns

variable {address : CString} {port : Int32} {pinned : CString}

theorem check_keeps
    (run : Returns (Step faults)
      (checkHostkey uiConfirm host fingerprint known) card
      (verdict, after, shown) saved)
    (found : knownhostsLookup (some address) port known = some pinned) :
    knownhostsLookup (some address) port after = some pinned := by
  obtain ⟨_, _, _, rfl, _⟩ | ⟨missing, ⟨_, _, rfl, _⟩ | ⟨_, _, result, run⟩⟩ :=
    check_cases run
  · exact found
  · exact found
  · obtain ⟨_, same, _⟩ | ⟨name, key, sameName, _, _, _, _, _, entries, placed,
      run⟩ := remember_cases run
    · rw [lookup_congr same, found]
    · rw [lookup_congr (save_entries run)]
      obtain rfl := Option.some.inj sameName
      rcases placed with ⟨index, present, _⟩ | ⟨_, room, rfl⟩
      · have absent := find_of_lookup_eq_none missing
        exact absurd (absent.symm.trans present).symm (Option.some_ne_none index)
      · exact lookup_push room found

theorem forget_keeps {name : Option CString} {number : Int32} {value : Int}
    (run : Returns (Step faults) (knownhostsForget name number known) card
      (value, after) saved)
    (other : ¬ (name = some address ∧ number = port)) :
    knownhostsLookup (some address) port after =
      knownhostsLookup (some address) port known := by
  rcases forget_cases run with ⟨same, _⟩ | ⟨asked, index, rfl, found, run⟩
  · exact lookup_congr same
  · rw [lookup_congr (save_entries run)]
    refine lookup_removeAt found ?_ zeroEntry
    intro found
    obtain ⟨rfl, rfl⟩ := found
    exact other ⟨rfl, rfl⟩

theorem keyCall_keeps {call : KeyCall} {value : Int}
    (run : Returns (Step faults) (call.run known) card (value, after) saved)
    (kind : ¬ call.Forgets address port)
    (found : knownhostsLookup (some address) port known = some pinned) :
    knownhostsLookup (some address) port after = some pinned := by
  cases call with
  | check uiConfirm host fingerprint =>
      obtain ⟨⟨verdict, checked, shown⟩, middle, first, last⟩ :=
        returns_bind_iff.mp run
      cases last
      exact check_keeps first found
  | forget name number => rw [forget_keeps run kind, found]

/-- In every run of checks and forgets, whatever fails on the card: a
fingerprint stays until its own key is forgotten, and a check accepts the one
it finds, refuses any other untouched, and asks only where there is none. -/
theorem hostkey_pinned {first : MemoryCard} {start : KnownHosts}
    (run : Sequence (Step faults) KeyCall.run
      (fun call _ => ¬ call.Forgets address port) first start card known) :
    (∀ pinned, knownhostsLookup (some address) port start = some pinned →
      knownhostsLookup (some address) port known = some pinned) ∧
    ∀ uiConfirm (host : HostEntry) fingerprint,
      (∃ result saved, Returns (Step faults)
        (checkHostkey uiConfirm host fingerprint known) card result saved) ∧
      ∀ verdict after shown saved,
        Returns (Step faults) (checkHostkey uiConfirm host fingerprint known)
          card (verdict, after, shown) saved →
        (verdict = 1 ∨ verdict = 0) ∧
        (verdict = 1 ↔
          knownhostsLookup (some host.address.toCString) host.port known =
              some fingerprint ∨
            knownhostsLookup (some host.address.toCString) host.port known =
                none ∧
              uiConfirm (firstSight host) fingerprint.text = true) ∧
        ∀ expected,
          knownhostsLookup (some host.address.toCString) host.port known =
            some expected →
          expected ≠ fingerprint →
            verdict = 0 ∧ after = known ∧ saved = card := by
  constructor
  · intro pinned found
    refine run.invariant (fun _ known =>
      knownhostsLookup (some address) port known = some pinned) found ?_
    intro call value card known saved after found kind made
    exact keyCall_keeps made kind found
  · intro uiConfirm host fingerprint
    refine ⟨exists_check uiConfirm host fingerprint known card,
      fun verdict after shown saved check => ?_⟩
    obtain ⟨expected, found, rfl, rfl, rfl⟩ | ⟨missing, answer⟩ :=
      check_cases check
    · rw [found]
      by_cases same : expected = fingerprint
      · simp [same]
      · simp [same]
    · rw [missing]
      rcases answer with ⟨refused, rfl, _⟩ | ⟨accepted, rfl, _⟩
      · simp [refused]
      · simp [accepted]

end Pinning

def oneKey : KnownHosts where
  entries :=
    { slots := fun _ =>
        { address := copyField _ (ascii "10.0.0.2")
          port := 22
          fingerprint := copyField _ (ascii "SHA256:one") }
      count := 1
      within := by decide }
  lastError := ""

theorem hostkey_pinned_after_check :
    let address := cString (ascii "10.0.0.2")
    let host := { Hosts.hostsBlank with
      address := copyField _ (ascii "10.0.0.3")
      user := copyField _ (ascii "root") }
    let offered := cString (ascii "SHA256:two")
    ∃ verdict card known,
      Returns (Step anyFault)
          ((KeyCall.check (fun _ _ => true) host offered).run oneKey) blankCard
          (verdict, known) card ∧
        knownhostsLookup (some address) 22 known =
          some (cString (ascii "SHA256:one")) := by
  intro address host offered
  obtain ⟨⟨verdict, known, shown⟩, card, check⟩ : ∃ result saved,
      Returns (Step anyFault) (checkHostkey (fun _ _ => true) host offered oneKey)
        blankCard result saved :=
    exists_check (fun _ _ => true) host offered oneKey blankCard
  have made : Returns (Step anyFault)
      ((KeyCall.check (fun _ _ => true) host offered).run oneKey) blankCard
      (verdict, known) card := returns_bind_iff.mpr ⟨_, _, check, .done⟩
  have run : Sequence (Step anyFault) KeyCall.run
      (fun call _ => ¬ call.Forgets address 22) blankCard oneKey card known :=
    .next .nil id made
  have found : knownhostsLookup (some address) 22 oneKey =
      some (cString (ascii "SHA256:one")) := by decide
  exact ⟨verdict, card, known, made, (hostkey_pinned run).1 _ found⟩

end Pspssh.Known
