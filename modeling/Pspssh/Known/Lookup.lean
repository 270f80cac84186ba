import Pspssh.Card.Replace
import Pspssh.Known.Store

namespace Pspssh.Known

open Pspssh.Data
open Pspssh.Data.Program
open Pspssh.Card

/-! What the changes to the list do to the fingerprints it gives. -/

/-- `knownhosts_remember` does not refuse these arguments. -/
def Storable (address fingerprint : Option CString) : Prop :=
  ∃ name key, address = some name ∧ fingerprint = some key ∧
    name.text ≠ [] ∧ key.text ≠ [] ∧ Plain name.text ∧ Plain key.text

section Lookup

variable {address : CString} {port : Int32} {known : KnownHosts}

theorem isFor_iff {text : List UInt8} {entry : KnownEntry} :
    entry.IsFor text port = true ↔
      entry.port = port ∧ entry.address.text = text := by
  simp [KnownEntry.IsFor]

theorem knownhostsLookup_eq :
    knownhostsLookup (some address) port known =
      (known.entries.toList.find? (·.IsFor address.text port)).map
        (·.fingerprint.toCString) := by
  rw [← Table.map_find, knownhostsLookup, find]
  cases known.entries.find (·.IsFor address.text port) <;> rfl

theorem find_of_lookup_eq_none
    (missing : knownhostsLookup (some address) port known = none) :
    find address port known = none := by
  unfold knownhostsLookup at missing
  cases found : find address port known with
  | none => rfl
  | some index => simp [found] at missing

theorem lookup_push {entry : KnownEntry} {pinned : CString}
    (room : known.entries.count < knownMax)
    (found : knownhostsLookup (some address) port known = some pinned) :
    knownhostsLookup (some address) port
      { known with entries := known.entries.push entry room } = some pinned := by
  rw [knownhostsLookup_eq, Option.map_eq_some_iff] at found
  obtain ⟨first, same, fingerprint⟩ := found
  rw [knownhostsLookup_eq, Table.find?_push, same, Option.some_or,
    Option.map_some, fingerprint]

theorem lookup_removeAt {index : Nat} {other : CString} {otherPort : Int32}
    (found : find other otherPort known = some index)
    (different : ¬ (other = address ∧ otherPort = port)) (erased : KnownEntry) :
    knownhostsLookup (some address) port
        { known with entries := known.entries.removeAt index erased } =
      knownhostsLookup (some address) port known := by
  obtain ⟨used, passes, _⟩ := Table.find_eq_some found
  obtain ⟨samePort, sameAddress⟩ := isFor_iff.mp passes
  have fails : (known.entries.slots index).IsFor address.text port = false := by
    rw [Bool.eq_false_iff, ne_eq, isFor_iff, samePort, sameAddress]
    exact fun ⟨ports, texts⟩ => different ⟨CString.ext texts, ports⟩
  rw [knownhostsLookup_eq, knownhostsLookup_eq,
    Table.find?_removeAt used fails]

end Lookup

/-! ## Saving -/

section Saving

variable {faults : IoCall → Prop}

def listText (entries : List KnownEntry) : List UInt8 :=
  (entries.map fun entry => entry.line ++ [0x0a]).flatten

theorem record_length (entries : List KnownEntry) :
    ∀ record ∈ entries.map fun entry => entry.line ++ [0x0a],
      record.length ≤ 180 := by
  intro record member
  obtain ⟨entry, _, rfl⟩ := List.mem_map.mp member
  have address : entry.address.text.length < 96 := entry.address.fits
  have fingerprint : entry.fingerprint.text.length < 72 :=
    entry.fingerprint.fits
  have port := intText_length entry.port
  simp only [KnownEntry.line, List.length_append, List.length_cons,
    List.length_nil]
  omega

theorem gather_list (entries : Table KnownEntry knownMax) :
    gather fileMax (entries.toList.map fun entry => entry.line ++ [0x0a]) =
      some (listText entries.toList) := by
  refine gather_eq ?_ (record_length entries.toList) ?_
  · intro record member
    obtain ⟨entry, _, rfl⟩ := List.mem_map.mp member
    simp
  · have count : entries.count ≤ 48 := entries.within
    rw [List.length_map, Table.length_toList]
    change entries.count * 180 < 8832
    omega

theorem listText_length (entries : Table KnownEntry knownMax) :
    (listText entries.toList).length < fileMax - 1 := by
  have count : entries.count ≤ 48 := entries.within
  have total := length_flatten_le (record_length entries.toList)
  rw [List.length_map, Table.length_toList] at total
  refine total.trans_lt ?_
  change entries.count * 180 < 8831
  omega

theorem save_run (known : KnownHosts) (card : MemoryCard) :
    Ensures (Step faults)
      (fun cut => ∀ other, other ≠ knownPath → other ≠ tempName knownPath →
        cut.files other = card.files other)
      (fun saved after => saved.2.entries = known.entries ∧
        (saved.1 = 0 ∧
            after.files knownPath = some (listText known.entries.toList) ∨
          saved.1 = -1 ∧ Faulty faults))
      (save known) card := by
  have distinct : tempName knownPath ≠ knownPath := by decide
  rw [save, gather_list]
  refine Ensures.bind ((cardfileWrite_run distinct card _).mono
    (fun _ kept => kept) fun result after kept ended => ?_)
  obtain ⟨value, lastError⟩ := result
  rcases ended with ⟨rfl, written⟩ | ⟨rfl, faulty⟩
  · exact ⟨kept, rfl, .inl ⟨rfl, written⟩⟩
  · exact ⟨kept, rfl, .inr ⟨rfl, faulty⟩⟩

theorem exists_save (known : KnownHosts) (card : MemoryCard) :
    ∃ after saved,
      Returns (Step noFaults) (save known) card (0, after) saved := by
  have ensured : Ensures (Step noFaults) _ _ _ _ := save_run known card
  obtain ⟨⟨value, after⟩, saved, run⟩ := ensured.exists_returns
  obtain ⟨_, ⟨rfl, _⟩ | ⟨_, _, faulty⟩⟩ := ensured.returns run
  · exact ⟨after, saved, run⟩
  · exact faulty.elim

theorem remember_returns (address : Option CString) (port : Int32)
    (fingerprint : Option CString) (known : KnownHosts) (card : MemoryCard) :
    Ensures (Step faults) (fun _ => True) (fun _ _ => True)
      (knownhostsRemember address port fingerprint known) card := by
  have saves (known : KnownHosts) : Ensures (Step faults) (fun _ => True)
      (fun _ _ => True) (save known) card :=
    (save_run known card).mono (fun _ _ => trivial) fun _ _ _ _ => trivial
  have refused (known : KnownHosts) : Ensures (Step faults) (fun _ => True)
      (fun _ _ => True) (pure (-1, known) : Io (Int × KnownHosts)) card :=
    ⟨trivial, trivial⟩
  unfold knownhostsRemember
  split
  · dsimp only
    split
    · exact refused _
    · split
      · exact refused _
      · split
        · exact saves _
        · split
          · exact saves _
          · exact refused _
  · exact refused _

end Saving

/-! ## What each change can do -/

section Cases

variable {faults : IoCall → Prop} {known after : KnownHosts}
  {card saved : MemoryCard} {value : Int}

theorem save_entries
    (run : Returns (Step faults) (save known) card (value, after) saved) :
    after.entries = known.entries :=
  ((save_run known card).returns run).1

/-- `knownhosts_remember` is refused, or saves the list with the entry in the
place of the one for the same address and port, or behind the others. -/
theorem remember_cases {address fingerprint : Option CString} {port : Int32}
    (run : Returns (Step faults)
      (knownhostsRemember address port fingerprint known) card (value, after)
      saved) :
    value = -1 ∧ after.entries = known.entries ∧ saved = card ∨
      ∃ name key, address = some name ∧ fingerprint = some key ∧
        name.text ≠ [] ∧ key.text ≠ [] ∧ Plain name.text ∧ Plain key.text ∧
        ∃ entries : Table KnownEntry knownMax,
          ((∃ index, find name port known = some index ∧ entries =
              known.entries.store index
                ⟨copyField _ name.text, port, copyField _ key.text⟩) ∨
            find name port known = none ∧
              ∃ room, entries = known.entries.push
                ⟨copyField _ name.text, port, copyField _ key.text⟩ room) ∧
          Returns (Step faults) (save { known with entries }) card
            (value, after) saved := by
  cases address with
  | none =>
      cases run
      exact .inl ⟨rfl, rfl, rfl⟩
  | some name =>
      cases fingerprint with
      | none =>
          cases run
          exact .inl ⟨rfl, rfl, rfl⟩
      | some key =>
          dsimp only [knownhostsRemember] at run
          split at run
          · cases run
            exact .inl ⟨rfl, rfl, rfl⟩
          · rename_i nonempty
            split at run
            · cases run
              exact .inl ⟨rfl, rfl, rfl⟩
            · rename_i plain
              have accepted := not_or.mp nonempty
              have whole := not_or.mp plain
              split at run
              · rename_i index found
                exact .inr ⟨name, key, rfl, rfl, accepted.1, accepted.2,
                  not_not.mp whole.1, not_not.mp whole.2, _,
                  .inl ⟨index, found, rfl⟩, run⟩
              · rename_i missing
                split at run
                · rename_i room
                  exact .inr ⟨name, key, rfl, rfl, accepted.1, accepted.2,
                    not_not.mp whole.1, not_not.mp whole.2, _,
                    .inr ⟨missing, room, rfl⟩, run⟩
                · cases run
                  exact .inl ⟨rfl, rfl, rfl⟩

/-- `knownhosts_forget` finds nothing, or saves the list without the entry. -/
theorem forget_cases {address : Option CString} {port : Int32}
    (run : Returns (Step faults) (knownhostsForget address port known) card
      (value, after) saved) :
    after.entries = known.entries ∧ saved = card ∨
      ∃ name index, address = some name ∧ find name port known = some index ∧
        Returns (Step faults)
          (save { known with
            entries := known.entries.removeAt index zeroEntry }) card
          (value, after) saved := by
  cases address with
  | none =>
      cases run
      exact .inl ⟨rfl, rfl⟩
  | some name =>
      dsimp only [knownhostsForget] at run
      split at run
      · cases run
        exact .inl ⟨rfl, rfl⟩
      · rename_i index found
        exact .inr ⟨name, index, rfl, found, run⟩

/-- `knownhosts_forget` erases the first entry for the address, if there is one. -/
theorem forget_erases {name : CString} {port : Int32}
    (run : Returns (Step faults) (knownhostsForget (some name) port known) card
      (value, after) saved) :
    after.entries.toList = known.entries.toList.eraseP (·.IsFor name.text port) := by
  cases found : find name port known with
  | none =>
      rw [knownhostsForget, found] at run
      cases run
      exact (List.eraseP_of_forall_not
        (List.find?_eq_none.mp (Table.find_eq_none found))).symm
  | some index =>
      rw [knownhostsForget, found] at run
      rw [save_entries run]
      exact Table.toList_removeAt_find found zeroEntry

theorem lookup_congr {address : CString} {port : Int32}
    (same : after.entries = known.entries) :
    knownhostsLookup (some address) port after =
      knownhostsLookup (some address) port known := by
  rw [knownhostsLookup_eq, knownhostsLookup_eq, same]

end Cases

end Pspssh.Known
