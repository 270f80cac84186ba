import Pspssh.Known.Lookup

namespace Pspssh.Known

open Pspssh.Data
open Pspssh.Data.Program
open Pspssh.Card

/-! Changes that stay with their key, and changes that cannot be saved. -/

section Placing

variable {known : KnownHosts} {name key other : CString} {port otherPort : Int32}

def remembered (name : CString) (port : Int32) (key : CString) : KnownEntry :=
  ⟨copyField _ name.text, port, copyField _ key.text⟩

theorem remembered_isFor :
    (remembered name port key).IsFor other.text otherPort = true ↔
      port = otherPort ∧ (copyField addressLen name.text).text = other.text :=
  isFor_iff

theorem remembered_fails (short : name.text.length < addressLen)
    (different : ¬ (other = name ∧ otherPort = port)) :
    (remembered name port key).IsFor other.text otherPort = false := by
  rw [Bool.eq_false_iff, ne_eq, remembered_isFor,
    copyField_text name.noNul short]
  intro same
  exact different ⟨CString.ext same.2.symm, same.1.symm⟩

theorem short_of_found {index : Nat} (found : find name port known = some index) :
    name.text.length < addressLen := by
  have isFor := (isFor_iff.mp (Table.find_eq_some found).2.1).2
  rw [← isFor]
  exact (known.entries.slots index).address.fits

theorem lookup_store_other {index : Nat}
    (found : find name port known = some index)
    (different : ¬ (other = name ∧ otherPort = port)) :
    knownhostsLookup (some other) otherPort
        { known with
          entries := known.entries.store index (remembered name port key) } =
      knownhostsLookup (some other) otherPort known := by
  obtain ⟨used, passes, _⟩ := Table.find_eq_some found
  obtain ⟨samePort, sameAddress⟩ := isFor_iff.mp passes
  have old : (known.entries.slots index).IsFor other.text otherPort = false := by
    rw [Bool.eq_false_iff, ne_eq, isFor_iff, samePort, sameAddress]
    exact fun ⟨ports, texts⟩ => different ⟨CString.ext texts.symm, ports.symm⟩
  rw [knownhostsLookup_eq, knownhostsLookup_eq,
    Table.find?_store_of_fails used old
      (remembered_fails (short_of_found found) different)]

theorem lookup_push_other (room : known.entries.count < knownMax)
    (short : name.text.length < addressLen)
    (different : ¬ (other = name ∧ otherPort = port)) :
    knownhostsLookup (some other) otherPort
        { known with
          entries := known.entries.push (remembered name port key) room } =
      knownhostsLookup (some other) otherPort known := by
  rw [knownhostsLookup_eq, knownhostsLookup_eq, Table.find?_push,
    if_neg (by simp [remembered_fails short different]), Option.or_none]

theorem lookup_store_self {index : Nat}
    (found : find name port known = some index) :
    knownhostsLookup (some name) port
        { known with
          entries := known.entries.store index (remembered name port key) } =
      some (copyField fingerprintLen key.text).toCString := by
  have isFor : (remembered name port key).IsFor name.text port = true :=
    remembered_isFor.mpr
      ⟨rfl, copyField_text name.noNul (short_of_found found)⟩
  rw [knownhostsLookup_eq, Table.find?_store found isFor]
  rfl

theorem find_eq_none_iff :
    find name port known = none ↔
      knownhostsLookup (some name) port known = none := by
  constructor
  · intro missing
    rw [knownhostsLookup, missing]
  · exact find_of_lookup_eq_none

end Placing

/-! ## Other keys -/

section Locality

variable {faults : IoCall → Prop} {known after : KnownHosts}
  {card saved : MemoryCard} {value : Int} {address other : Option CString}
  {port otherPort : Int32}

theorem remember_local {fingerprint : Option CString}
    (short : ∀ name ∈ address, name.text.length < addressLen)
    (different : ¬ (other = address ∧ otherPort = port))
    (made : Returns (Step faults)
      (knownhostsRemember address port fingerprint known) card (value, after)
      saved) :
    knownhostsLookup other otherPort after =
      knownhostsLookup other otherPort known := by
  cases other with
  | none => rfl
  | some other =>
      obtain ⟨_, same, _⟩ | ⟨name, key, rfl, _, _, _, _, _, entries, placed,
        saves⟩ := remember_cases made
      · exact lookup_congr same
      · have distinct : ¬ (other = name ∧ otherPort = port) := by
          simpa using different
        refine (lookup_congr (save_entries saves)).trans ?_
        rcases placed with ⟨index, found, rfl⟩ | ⟨_, room, rfl⟩
        · exact lookup_store_other found distinct
        · exact lookup_push_other room (short name rfl) distinct

/-- A key that is remembered for the first time. -/
theorem remember_new {name key : CString}
    (missing : knownhostsLookup (some name) port known = none)
    (short : name.text.length < addressLen)
    (made : Returns (Step faults)
      (knownhostsRemember (some name) port (some key) known) card (value, after)
      saved) :
    knownhostsLookup (some name) port after = none ∨
      knownhostsLookup (some name) port after =
        some (copyField fingerprintLen key.text).toCString := by
  obtain ⟨_, same, _⟩ | ⟨_, _, sameName, sameKey, _, _, _, _, entries, placed,
    saves⟩ := remember_cases made
  · exact .inl ((lookup_congr same).trans missing)
  · cases sameName
    cases sameKey
    right
    rw [lookup_congr (save_entries saves)]
    rcases placed with ⟨index, found, _⟩ | ⟨_, room, rfl⟩
    · rw [find_eq_none_iff.mpr missing] at found
      cases found
    · have isFor : (remembered name port key).IsFor name.text port = true :=
        remembered_isFor.mpr ⟨rfl, copyField_text name.noNul short⟩
      rw [knownhostsLookup_eq, Option.map_eq_none_iff] at missing
      rw [knownhostsLookup_eq, Table.find?_push, missing, Option.none_or]
      exact congrArg _ (if_pos isFor)

theorem forget_local (different : ¬ (other = address ∧ otherPort = port))
    (made : Returns (Step faults) (knownhostsForget address port known) card
      (value, after) saved) :
    knownhostsLookup other otherPort after =
      knownhostsLookup other otherPort known := by
  cases other with
  | none => rfl
  | some other =>
      obtain ⟨same, _⟩ | ⟨name, index, rfl, found, saves⟩ := forget_cases made
      · exact lookup_congr same
      · refine (lookup_congr (save_entries saves)).trans ?_
        refine lookup_removeAt found ?_ zeroEntry
        intro same
        exact different ⟨congrArg some same.1.symm, same.2.symm⟩

/-- Remembering or forgetting a key, whether or not it can be saved, leaves what
is known of every other as it was. -/
theorem changes_are_local
    (short : ∀ name ∈ address, name.text.length < addressLen)
    (different : ¬ (other = address ∧ otherPort = port))
    (fingerprint : Option CString) (known : KnownHosts) (card : MemoryCard) :
    (∀ value after saved,
        Returns (Step faults) (knownhostsRemember address port fingerprint known)
          card (value, after) saved →
        knownhostsLookup other otherPort after =
          knownhostsLookup other otherPort known) ∧
      ∀ value after saved,
        Returns (Step faults) (knownhostsForget address port known) card
          (value, after) saved →
        knownhostsLookup other otherPort after =
          knownhostsLookup other otherPort known :=
  ⟨fun _ _ _ made => remember_local short different made,
    fun _ _ _ made => forget_local different made⟩

end Locality

def twoPorts : KnownHosts :=
  let key (port : Int32) (text : String) : KnownEntry :=
    remembered (cString (ascii "pi")) port (cString (ascii text))
  { noKnownHosts with
    entries := (noKnownHosts.entries.push (key 2222 "SHA256:two") (by decide)).push
      (key 22 "SHA256:one") (by decide) }

/-- The key at the other port is another key. -/
theorem changes_are_local_pi :
    let pi := some (cString (ascii "pi"))
    let key := some (cString (ascii "SHA256:three"))
    knownhostsLookup pi 2222 twoPorts ≠ none ∧
      (∀ value after saved,
        Returns (Step anyFault) (knownhostsRemember pi 22 key twoPorts) blankCard
          (value, after) saved →
        knownhostsLookup pi 2222 after = knownhostsLookup pi 2222 twoPorts) ∧
      ∀ value after saved,
        Returns (Step anyFault) (knownhostsForget pi 22 twoPorts) blankCard
          (value, after) saved →
        knownhostsLookup pi 2222 after = knownhostsLookup pi 2222 twoPorts :=
  ⟨by decide +kernel, changes_are_local (by decide) (by decide) _ twoPorts blankCard⟩

/-! ## Changes that cannot be saved -/

section Unsaved

variable {known after : KnownHosts} {card saved : MemoryCard}

theorem exists_unsaved (known : KnownHosts) (card : MemoryCard) :
    ∃ after, Returns (Step anyFault) (save known) card (-1, after) card ∧
      after.entries = known.entries := by
  rw [save, gather_list]
  exact ⟨_, returns_bind_iff.mpr
    ⟨_, card, cardfileWrite_refused _ _ card, .done⟩, rfl⟩

/-- Two lists look the same: they are as long and know the same keys. -/
def Alike (after known : KnownHosts) : Prop :=
  knownhostsCount after = knownhostsCount known ∧
    ∀ address port,
      knownhostsLookup address port after = knownhostsLookup address port known

theorem alike_of_same (same : after.entries = known.entries) :
    Alike after known := by
  refine ⟨?_, fun address port => ?_⟩
  · rw [knownhostsCount, knownhostsCount, same]
  · cases address with
    | none => rfl
    | some address => exact lookup_congr same

theorem alike_store {name key : CString} {port : Int32} {index : Nat}
    (found : find name port known = some index)
    (pinned : knownhostsLookup (some name) port known =
      some (copyField fingerprintLen key.text).toCString)
    (same : after.entries =
      known.entries.store index (remembered name port key)) :
    Alike after known := by
  constructor
  · rw [knownhostsCount, knownhostsCount, same]
    rfl
  · intro address otherPort
    cases address with
    | none => rfl
    | some other =>
        have placed : knownhostsLookup (some other) otherPort after =
            knownhostsLookup (some other) otherPort { known with
              entries := known.entries.store index (remembered name port key) } :=
          lookup_congr same
        rw [placed]
        by_cases here : other = name ∧ otherPort = port
        · obtain ⟨rfl, rfl⟩ := here
          rw [lookup_store_self found, pinned]
        · exact lookup_store_other found here

theorem remember_of_storable {name key : CString}
    (nonempty : name.text ≠ [] ∧ key.text ≠ [])
    (plain : Plain name.text ∧ Plain key.text) (port : Int32)
    (known : KnownHosts) :
    knownhostsRemember (some name) port (some key) known =
      match find name port known with
      | some index =>
          save { known with
            entries := known.entries.store index (remembered name port key) }
      | none =>
          if room : known.entries.count < knownMax then
            save { known with
              entries := known.entries.push (remembered name port key) room }
          else
            pure (-1,
              known.fail "there is no room to remember another server") := by
  have accepted : ¬ (name.text = [] ∨ key.text = []) := not_or.mpr nonempty
  have whole : ¬ (¬ Plain name.text ∨ ¬ Plain key.text) :=
    not_or.mpr ⟨not_not.mpr plain.1, not_not.mpr plain.2⟩
  dsimp only [knownhostsRemember]
  rw [if_neg accepted, if_neg whole]
  rfl

/-- The list would not change if the key were remembered: there is nothing to
remember, or no room, or the same is remembered already. -/
def Unmoved (address : Option CString) (port : Int32)
    (fingerprint : Option CString) (known : KnownHosts) : Prop :=
  ¬ Storable address fingerprint ∨
    knownhostsLookup address port known = none ∧
      knownMax ≤ known.entries.count ∨
    ∃ key, fingerprint = some key ∧
      knownhostsLookup address port known =
        some (copyField fingerprintLen key.text).toCString

theorem failed_remember_keeps_iff (address : Option CString) (port : Int32)
    (fingerprint : Option CString) (known : KnownHosts) (card : MemoryCard) :
    (∀ after saved,
        Returns (Step anyFault)
          (knownhostsRemember address port fingerprint known) card (-1, after)
          saved → Alike after known) ↔
      Unmoved address port fingerprint known := by
  constructor
  · intro keeps
    by_cases storable : Storable address fingerprint
    · obtain ⟨name, key, rfl, rfl, nameNonempty, keyNonempty, namePlain,
        keyPlain⟩ := storable
      have program := remember_of_storable ⟨nameNonempty, keyNonempty⟩
        ⟨namePlain, keyPlain⟩ port known
      cases found : find name port known with
      | some index =>
          rw [found] at program
          dsimp only at program
          obtain ⟨after, run, same⟩ := exists_unsaved { known with
            entries := known.entries.store index (remembered name port key) }
            card
          rw [← program] at run
          refine .inr (.inr ⟨key, rfl, ?_⟩)
          rw [← (keeps after card run).2, lookup_congr same,
            lookup_store_self found]
      | none =>
          refine .inr (.inl ⟨find_eq_none_iff.mp found, Nat.not_lt.mp fun room => ?_⟩)
          rw [found] at program
          dsimp only at program
          rw [dif_pos room] at program
          obtain ⟨after, run, same⟩ := exists_unsaved { known with
            entries := known.entries.push (remembered name port key) room } card
          rw [← program] at run
          have count := (keeps after card run).1
          rw [knownhostsCount, knownhostsCount, same] at count
          have more : ((known.entries.count + 1 : Nat) : Int) =
              known.entries.count := count
          omega
    · exact .inl storable
  · intro unmoved after saved run
    obtain ⟨_, same, _⟩ | ⟨name, key, rfl, rfl, nameNonempty, keyNonempty,
      namePlain, keyPlain, entries, placed, saves⟩ := remember_cases run
    · exact alike_of_same same
    · have same := save_entries saves
      rcases unmoved with refused | ⟨missing, full⟩ |
        ⟨_, sameKey, pinned⟩
      · exact absurd ⟨name, key, rfl, rfl, nameNonempty, keyNonempty, namePlain,
          keyPlain⟩ refused
      · rcases placed with ⟨index, found, _⟩ | ⟨_, room, _⟩
        · rw [find_eq_none_iff.mpr missing] at found
          cases found
        · exact absurd room (Nat.not_lt.mpr full)
      · cases sameKey
        rcases placed with ⟨index, found, rfl⟩ | ⟨missing, _⟩
        · exact alike_store found pinned same
        · rw [find_eq_none_iff.mp missing] at pinned
          cases pinned

theorem failed_forget_keeps_iff (address : Option CString) (port : Int32)
    (known : KnownHosts) (card : MemoryCard) :
    (∀ after saved,
        Returns (Step anyFault) (knownhostsForget address port known) card
          (-1, after) saved → Alike after known) ↔
      knownhostsLookup address port known = none := by
  constructor
  · intro keeps
    cases address with
    | none => rfl
    | some name =>
        cases found : find name port known with
        | none => exact find_eq_none_iff.mp found
        | some index =>
            obtain ⟨after, run, same⟩ := exists_unsaved { known with
              entries := known.entries.removeAt index zeroEntry } card
            have program : knownhostsForget (some name) port known = save
                { known with
                  entries := known.entries.removeAt index zeroEntry } := by
              rw [knownhostsForget, found]
            rw [← program] at run
            have count := (keeps after card run).1
            rw [knownhostsCount, knownhostsCount, same] at count
            have fewer : ((known.entries.count - 1 : Nat) : Int) =
                known.entries.count := count
            have used := (Table.find_eq_some found).1
            omega
  · intro missing after saved run
    obtain ⟨same, _⟩ | ⟨name, index, rfl, found, _⟩ := forget_cases run
    · exact alike_of_same same
    · rw [find_eq_none_iff.mpr missing] at found
      cases found

/-- A change that cannot be saved leaves the list as it was exactly if it would
not change it anyway: there is nothing to remember or to forget, or the same key
is remembered already. -/
theorem failed_change_keeps_list_iff (address : Option CString) (port : Int32)
    (fingerprint : Option CString) (known : KnownHosts) (card : MemoryCard) :
    ((∀ after saved,
        Returns (Step anyFault)
          (knownhostsRemember address port fingerprint known) card (-1, after)
          saved → Alike after known) ↔
      Unmoved address port fingerprint known) ∧
    ((∀ after saved,
        Returns (Step anyFault) (knownhostsForget address port known) card
          (-1, after) saved → Alike after known) ↔
      knownhostsLookup address port known = none) :=
  ⟨failed_remember_keeps_iff address port fingerprint known card,
    failed_forget_keeps_iff address port known card⟩

end Unsaved

/-- The key that could not be remembered is in force all the same. -/
theorem unsaved_key_is_pinned :
    let pi := some (cString (ascii "pi"))
    let key := some (cString (ascii "SHA256:one"))
    ¬ ∀ after saved,
      Returns (Step anyFault) (knownhostsRemember pi 22 key noKnownHosts)
        blankCard (-1, after) saved → Alike after noKnownHosts := by
  intro pi key keeps
  rcases (failed_remember_keeps_iff pi 22 key noKnownHosts blankCard).mp keeps
    with refused | ⟨_, full⟩ | ⟨_, _, pinned⟩
  · exact refused ⟨_, _, rfl, rfl, by decide, by decide, by decide +kernel,
      by decide +kernel⟩
  · revert full
    decide
  · cases pinned

end Pspssh.Known
