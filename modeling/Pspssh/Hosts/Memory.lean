import Pspssh.Hosts.Edits
import Pspssh.Hosts.Loaded

namespace Pspssh.Hosts

open Pspssh.Data
open Pspssh.Data.Program
open Pspssh.Card

/-! The list as its bytes lie in memory, and the changes made there. -/

/-- The bytes of a `char[size]`, one of them NUL. -/
@[ext] structure Chars (size : Nat) where
  bytes : List UInt8
  length : bytes.length = size
  ended : 0 ∈ bytes

namespace Chars

variable {size : Nat}

def field (chars : Chars size) : Field size where
  toCString := cString chars.bytes
  fits := by
    have part : (cString chars.bytes).text <+: chars.bytes :=
      List.takeWhile_prefix _
    have short := part.length_le.trans_eq chars.length
    refine lt_of_le_of_ne short fun same => ?_
    have whole := part.eq_of_length (same.trans chars.length.symm)
    have nul := chars.ended
    rw [← whole] at nul
    exact (cString chars.bytes).noNul nul

def zero (size : Nat) [NeZero size] : Chars size where
  bytes := List.replicate size 0
  length := List.length_replicate
  ended := List.mem_replicate.mpr ⟨NeZero.ne size, rfl⟩

def holding (field : Field size) : Chars size where
  bytes := field.text ++ List.replicate (size - field.text.length) 0
  length := by
    have := field.fits
    rw [List.length_append, List.length_replicate]
    omega
  ended := by
    have := field.fits
    refine List.mem_append_right _ (List.mem_replicate.mpr ⟨?_, rfl⟩)
    omega

def wipe (chars : Chars size) : Chars size where
  bytes := chars.bytes.map fun _ => 0
  length := (List.length_map _).trans chars.length
  ended := List.mem_map.mpr ⟨0, chars.ended, rfl⟩

theorem field_holding (held : Field size) : (holding held).field = held := by
  refine Field.ext ?_
  have whole : ∀ ch ∈ held.text, decide (ch ≠ 0) = true := by
    intro ch member
    refine decide_eq_true ?_
    rintro rfl
    exact held.noNul member
  change (held.text ++ List.replicate _ (0 : UInt8)).takeWhile (· ≠ 0) = held.text
  rw [List.takeWhile_append_of_pos whole, List.takeWhile_replicate]
  simp

theorem field_wipe [NeZero size] (chars : Chars size) :
    chars.wipe.field = emptyField size := by
  refine Field.ext ?_
  change (chars.bytes.map fun _ => (0 : UInt8)).takeWhile (· ≠ 0) = []
  cases chars.bytes with
  | nil => rfl
  | cons first rest => rfl

theorem field_zero [NeZero size] : (zero size).field = emptyField size := by
  refine Field.ext ?_
  change (List.replicate size (0 : UInt8)).takeWhile (· ≠ 0) = []
  cases size with
  | zero => rfl
  | succ size => rfl

end Chars

structure HostRecord where
  name : Chars hostNameLen
  address : Chars hostAddressLen
  user : Chars hostUserLen
  password : Chars hostPasswordLen
  port : Int32
  profile : Int32

def HostRecord.entry (record : HostRecord) : HostEntry where
  name := record.name.field
  address := record.address.field
  user := record.user.field
  password := record.password.field
  port := record.port
  profile := record.profile

def HostRecord.holding (entry : HostEntry) : HostRecord where
  name := .holding entry.name
  address := .holding entry.address
  user := .holding entry.user
  password := .holding entry.password
  port := entry.port
  profile := entry.profile

theorem entry_holding (entry : HostEntry) :
    (HostRecord.holding entry).entry = entry := by
  simp only [HostRecord.entry, HostRecord.holding, Chars.field_holding]

/-- `memset` of a `host_entry` with zeros. -/
def zeroRecord : HostRecord where
  name := .zero _
  address := .zero _
  user := .zero _
  password := .zero _
  port := 0
  profile := 0

theorem entry_zeroRecord : zeroRecord.entry = zeroEntry := by
  simp only [HostRecord.entry, zeroRecord, zeroEntry, Chars.field_zero]

structure HostMemory where
  records : Table HostRecord hostsMax
  lastError : String

namespace HostMemory

def fail (memory : HostMemory) (message : String) : HostMemory :=
  { memory with lastError := message }

def list (memory : HostMemory) : HostList where
  entries := memory.records.map HostRecord.entry
  lastError := memory.lastError

def holding (hosts : HostList) : HostMemory where
  records := hosts.entries.map HostRecord.holding
  lastError := hosts.lastError

theorem list_holding (hosts : HostList) : (holding hosts).list = hosts := by
  have slots : HostRecord.entry ∘ HostRecord.holding ∘ hosts.entries.slots =
      hosts.entries.slots := funext fun slot => entry_holding _
  simp only [list, holding, Table.map, slots]

end HostMemory

/-- A `const host_entry *`: `NULL`, one of the caller's, or a slot of the list,
whatever is in it by then. -/
inductive EntryPointer where
  | null
  | outside (record : HostRecord)
  | slot (index : Fin hostsMax)

def EntryPointer.target (memory : HostMemory) : EntryPointer → Option HostRecord
  | .null => none
  | .outside record => some record
  | .slot index => some (memory.records.slots index)

def pointerAt (index : Int) (memory : HostMemory) : EntryPointer :=
  if inside : 0 ≤ index ∧ index < memory.records.count then
    .slot ⟨index.toNat, by
      have := memory.records.within
      omega⟩
  else .null

/-! ## The changes -/

namespace HostMemory

def save (memory : HostMemory) : Io (Int × HostMemory) := do
  let (result, saved) ← Hosts.save memory.list
  pure (result, { memory with lastError := saved.lastError })

def hostsAdd (pointer : EntryPointer) (memory : HostMemory) :
    Io (Int × HostMemory) :=
  if room : memory.records.count < hostsMax then
    match pointer.target memory with
    | none => pure (-1, memory.fail ((hostsProblem none).getD ""))
    | some record =>
        match hostsProblem (some record.entry) with
        | some problem => pure (-1, memory.fail problem)
        | none => do
            let (result, saved) ← save
              { memory with records := memory.records.push record room }
            if result ≠ 0 then pure (-1, saved)
            else pure (saved.records.count - 1, saved)
  else pure (-1, memory.fail "there is no room for another host")

def hostsReplace (index : Int) (pointer : EntryPointer) (memory : HostMemory) :
    Io (Int × HostMemory) :=
  if index < 0 ∨ index ≥ memory.records.count then
    pure (-1, memory.fail "that host is no longer in the list")
  else
    match pointer.target memory with
    | none => pure (-1, memory.fail ((hostsProblem none).getD ""))
    | some record =>
        match hostsProblem (some record.entry) with
        | some problem => pure (-1, memory.fail problem)
        | none =>
            save { memory with
              records := memory.records.store index.toNat record }

def hostsRemove (index : Int) (memory : HostMemory) : Io (Int × HostMemory) :=
  if index < 0 ∨ index ≥ memory.records.count then
    pure (-1, memory.fail "that host is no longer in the list")
  else
    let record := memory.records.slots index.toNat
    let wiped := memory.records.store index.toNat
      { record with password := record.password.wipe }
    save { memory with records := wiped.removeAt index.toNat zeroRecord }

end HostMemory

/-- A change as the application asks for it. -/
inductive MemoryEdit where
  | add (pointer : EntryPointer)
  | replace (index : Int) (pointer : EntryPointer)
  | remove (index : Int)

namespace MemoryEdit

def run (edit : MemoryEdit) (memory : HostMemory) : Io (Int × HostMemory) :=
  match edit with
  | .add pointer => memory.hostsAdd pointer
  | .replace index pointer => memory.hostsReplace index pointer
  | .remove index => memory.hostsRemove index

def seen (edit : MemoryEdit) (memory : HostMemory) : HostEdit :=
  match edit with
  | .add pointer => .add ((pointer.target memory).map HostRecord.entry)
  | .replace index pointer =>
      .replace index ((pointer.target memory).map HostRecord.entry)
  | .remove index => .remove index

end MemoryEdit

theorem target_pointerAt (index : Int) (memory : HostMemory) :
    ((pointerAt index memory).target memory).map HostRecord.entry =
      hostsAt index memory.list := by
  unfold pointerAt hostsAt
  by_cases inside : 0 ≤ index ∧ index < memory.records.count
  · rw [dif_pos inside, if_neg]
    · rfl
    · change ¬ (index < 0 ∨ index ≥ memory.records.count)
      omega
  · rw [dif_neg inside, if_pos]
    · rfl
    · change index < 0 ∨ index ≥ memory.records.count
      omega

/-! ## Memory against list -/

inductive Changed (records : Table HostRecord hostsMax) :
    Table HostRecord hostsMax → Prop where
  | unchanged : Changed records records
  | pushed (record : HostRecord) (room : records.count < hostsMax) :
      Changed records (records.push record room)
  | stored {index : Nat} (used : index < records.count) (record : HostRecord) :
      Changed records (records.store index record)
  | removed {index : Nat} (used : index < records.count) (wiped : HostRecord) :
      Changed records ((records.store index wiped).removeAt index zeroRecord)

section Simulation

variable {faults : IoCall → Prop} {memory after : HostMemory}
  {card saved : MemoryCard} {value : Int}

theorem save_list {records : Table HostRecord hostsMax}
    {entries : Table HostEntry hostsMax}
    (shown : records.map HostRecord.entry = entries)
    (run : Returns (Step faults) (HostMemory.save { memory with records }) card
      (value, after) saved) :
    after.records = records ∧
      Returns (Step faults) (save { memory.list with entries }) card
        (value, after.list) saved := by
  obtain ⟨⟨result, written⟩, last, saves, ended⟩ := returns_bind_iff.mp run
  cases ended
  subst shown
  obtain ⟨entries, lastError⟩ := written
  obtain rfl : entries = records.map HostRecord.entry :=
    ((save_run _ card).returns saves).1
  exact ⟨rfl, saves⟩

theorem hostsAdd_list {pointer : EntryPointer}
    (made : Returns (Step faults) (memory.hostsAdd pointer) card (value, after)
      saved) :
    Returns (Step faults)
        (hostsAdd ((pointer.target memory).map HostRecord.entry) memory.list)
        card (value, after.list) saved ∧
      Changed memory.records after.records := by
  unfold HostMemory.hostsAdd at made
  unfold hostsAdd
  split at made
  · rename_i room
    have listRoom : memory.list.entries.count < hostsMax := room
    rw [dif_pos listRoom]
    split at made
    · rename_i missing
      rw [missing]
      cases made
      exact ⟨.done, .unchanged⟩
    · rename_i record found
      rw [found, Option.map_some]
      split at made
      · rename_i message problem
        rw [problem]
        cases made
        exact ⟨.done, .unchanged⟩
      · rename_i accepted
        rw [accepted]
        obtain ⟨⟨result, written⟩, last, saves, ended⟩ :=
          returns_bind_iff.mp made
        obtain ⟨same, simulated⟩ := save_list (Table.map_push _ _ room) saves
        dsimp only at ended
        split at ended
        · rename_i failed
          cases ended
          refine ⟨returns_bind_iff.mpr ⟨_, _, simulated, ?_⟩, ?_⟩
          · dsimp only
            rw [if_pos failed]
            exact .done
          · rw [same]
            exact .pushed record room
        · rename_i succeeded
          cases ended
          refine ⟨returns_bind_iff.mpr ⟨_, _, simulated, ?_⟩, ?_⟩
          · dsimp only
            rw [if_neg succeeded]
            exact .done
          · rw [same]
            exact .pushed record room
  · rename_i full
    have listFull : ¬ memory.list.entries.count < hostsMax := full
    rw [dif_neg listFull]
    cases made
    exact ⟨.done, .unchanged⟩

theorem hostsReplace_list {index : Int} {pointer : EntryPointer}
    (made : Returns (Step faults) (memory.hostsReplace index pointer) card
      (value, after) saved) :
    Returns (Step faults)
        (hostsReplace index ((pointer.target memory).map HostRecord.entry)
          memory.list)
        card (value, after.list) saved ∧
      Changed memory.records after.records := by
  unfold HostMemory.hostsReplace at made
  unfold hostsReplace
  split at made
  · rename_i outside
    have listOutside : index < 0 ∨ index ≥ memory.list.entries.count := outside
    rw [if_pos listOutside]
    cases made
    exact ⟨.done, .unchanged⟩
  · rename_i inside
    have listInside : ¬ (index < 0 ∨ index ≥ memory.list.entries.count) := inside
    rw [if_neg listInside]
    split at made
    · rename_i missing
      rw [missing]
      cases made
      exact ⟨.done, .unchanged⟩
    · rename_i record found
      rw [found, Option.map_some]
      split at made
      · rename_i message problem
        rw [problem]
        cases made
        exact ⟨.done, .unchanged⟩
      · rename_i accepted
        rw [accepted]
        obtain ⟨same, simulated⟩ := save_list (Table.map_store _ _ _) made
        refine ⟨simulated, ?_⟩
        rw [same]
        exact .stored (by omega) record

theorem hostsRemove_list {index : Int}
    (made : Returns (Step faults) (memory.hostsRemove index) card (value, after)
      saved) :
    Returns (Step faults) (hostsRemove index memory.list) card
        (value, after.list) saved ∧
      Changed memory.records after.records := by
  unfold HostMemory.hostsRemove at made
  unfold hostsRemove
  split at made
  · rename_i outside
    have listOutside : index < 0 ∨ index ≥ memory.list.entries.count := outside
    rw [if_pos listOutside]
    cases made
    exact ⟨.done, .unchanged⟩
  · rename_i inside
    have listInside : ¬ (index < 0 ∨ index ≥ memory.list.entries.count) := inside
    rw [if_neg listInside]
    obtain ⟨same, simulated⟩ := save_list
      ((Table.map_removeAt _ _ _).trans (by
        rw [Table.map_store, entry_zeroRecord])) made
    refine ⟨?_, ?_⟩
    · rw [HostRecord.entry, Chars.field_wipe] at simulated
      exact simulated
    · rw [same]
      exact .removed (by omega) _

theorem memoryEdit_list {edit : MemoryEdit}
    (made : Returns (Step faults) (edit.run memory) card (value, after) saved) :
    Returns (Step faults) ((edit.seen memory).run memory.list) card
        (value, after.list) saved ∧
      Changed memory.records after.records := by
  cases edit with
  | add pointer => exact hostsAdd_list made
  | replace index pointer => exact hostsReplace_list made
  | remove index => exact hostsRemove_list made

theorem Changed.free_slot {records changed : Table HostRecord hostsMax}
    (change : Changed records changed) {slot : Nat}
    (empty : records.count ≤ slot → records.slots slot = zeroRecord)
    (free : changed.count ≤ slot) : changed.slots slot = zeroRecord := by
  cases change with
  | unchanged => exact empty free
  | pushed record room =>
      have unused : records.count < slot := free
      rw [Table.push_slots record room unused]
      exact empty unused.le
  | stored used record =>
      have other : slot ≠ _ := (used.trans_le free).ne'
      exact (Function.update_of_ne other _ _).trans (empty free)
  | @removed index used wiped =>
      by_cases last : slot = records.count - 1
      · subst last
        exact Table.removeAt_last _ zeroRecord
      · have lower : records.count - 1 ≤ slot := free
        have unused : (records.store index wiped).count ≤ slot := by
          change records.count ≤ slot
          omega
        have other : slot ≠ index := (used.trans_le unused).ne'
        refine (Table.removeAt_slots zeroRecord unused).trans ?_
        refine (if_neg last).trans ?_
        exact (Function.update_of_ne other _ _).trans (empty unused)

end Simulation

/-! ## The store as its users see it -/

structure Store where
  list : List HostEntry
  file : Option (List UInt8)
  short : list.length ≤ hostsMax
  accepted : ∀ entry ∈ list, hostsProblem (some entry) = none

theorem onList_short {edit : HostEdit} {list changed : List HostEntry}
    (short : list.length ≤ hostsMax) (made : edit.onList list = some changed) :
    changed.length ≤ hostsMax := by
  cases makes_of_onList made with
  | added room accepted =>
      rw [List.length_append, List.length_singleton]
      exact room
  | replaced within accepted => rwa [List.length_set]
  | removed within => exact (List.length_eraseIdx_le _ _).trans short

theorem onList_accepted {edit : HostEdit} {list changed : List HostEntry}
    (accepted : ∀ entry ∈ list, hostsProblem (some entry) = none)
    (made : edit.onList list = some changed) :
    ∀ entry ∈ changed, hostsProblem (some entry) = none := by
  intro other member
  cases makes_of_onList made with
  | added room passes =>
      rcases List.mem_append.mp member with old | new
      · exact accepted other old
      · rw [List.mem_singleton.mp new]
        exact passes
  | replaced within passes =>
      rcases List.mem_or_eq_of_mem_set member with old | rfl
      · exact accepted other old
      · exact passes
  | removed within => exact accepted other (List.mem_of_mem_eraseIdx member)

namespace Store

/-- What a change gives back, and the store that it leaves. -/
def apply (store : Store) (edit : HostEdit) : Int × Store :=
  match made : edit.onList store.list with
  | none => (-1, store)
  | some list =>
      (edit.answer store.list,
        { list
          file := some (listText list)
          short := onList_short store.short made
          accepted := onList_accepted store.accepted made })

/-- What the changes give back one after another, and the store that they
leave. -/
def replay (store : Store) : List HostEdit → List Int × Store
  | [] => ([], store)
  | edit :: edits =>
      let (answer, next) := store.apply edit
      let (answers, last) := next.replay edits
      (answer :: answers, last)

/-- `hosts_count` and `hosts_at` show the list of the store, and its file is on
the card. -/
def Shows (store : Store) (memory : HostMemory) (card : MemoryCard) : Prop :=
  hostsCount memory.list = store.list.length ∧
    (∀ index, hostsAt index memory.list =
      if index < 0 then none else store.list[index.toNat]?) ∧
    card.files hostsPath = store.file

end Store

/-! ## Runs -/

structure EditMade where
  before : HostMemory
  edit : MemoryEdit
  value : Int

def EditMade.seen (made : EditMade) : HostEdit :=
  made.edit.seen made.before

/-- Changes made one after another, each saved unless it is refused. -/
inductive Edited (faults : IoCall → Prop) :
    MemoryCard → HostMemory → List EditMade → MemoryCard → HostMemory → Prop where
  | nil {card : MemoryCard} {memory : HostMemory} :
      Edited faults card memory [] card memory
  | next {card between last : MemoryCard} {memory after final : HostMemory}
      {edit : MemoryEdit} {value : Int} {trail : List EditMade}
      (made : Returns (Step faults) (edit.run memory) card (value, after)
        between)
      (saved : (edit.seen memory).Refused memory.list ∨ value ≠ -1)
      (rest : Edited faults between after trail last final) :
      Edited faults card memory (⟨memory, edit, value⟩ :: trail) last final

section Runs

variable {faults : IoCall → Prop} {store : Store} {memory final : HostMemory}
  {card last : MemoryCard} {trail : List EditMade}

theorem shows_iff :
    store.Shows memory card ↔
      memory.list.entries.toList = store.list ∧
        card.files hostsPath = store.file := by
  constructor
  · intro shows
    obtain ⟨_, entries, file⟩ := shows
    refine ⟨List.ext_getElem? fun index => ?_, file⟩
    have shown := entries index
    rwa [hostsAt_eq, if_neg (by omega), if_neg (by omega),
      Int.toNat_natCast] at shown
  · intro same
    obtain ⟨list, file⟩ := same
    refine ⟨?_, fun index => ?_, file⟩
    · rw [hostsCount, ← list, Table.length_toList]
    · rw [hostsAt_eq, list]

theorem Store.Shows.step {after : HostMemory} {saved : MemoryCard}
    {edit : MemoryEdit} {value : Int} (shows : store.Shows memory card)
    (made : Returns (Step faults) (edit.run memory) card (value, after) saved)
    (kept : (edit.seen memory).Refused memory.list ∨ value ≠ -1) :
    (store.apply (edit.seen memory)).1 = value ∧
      (store.apply (edit.seen memory)).2.Shows after saved := by
  obtain ⟨list, file⟩ := shows_iff.mp shows
  rw [shows_iff]
  have cases := edit_cases (memoryEdit_list made).1
  rw [list] at cases
  unfold Store.apply
  split
  · rename_i refused
    obtain ⟨_, rfl, same, rfl⟩ | ⟨accepted, _⟩ := cases
    · exact ⟨rfl, (congrArg Table.toList same).trans list, file⟩
    · rw [refused] at accepted
      cases accepted
  · rename_i changed accepted
    obtain ⟨refused, _⟩ | ⟨same, ended⟩ := cases
    · rw [refused] at accepted
      cases accepted
    · obtain rfl := Option.some.inj (accepted.symm.trans same)
      rcases ended with ⟨rfl, present⟩ | ⟨rfl, _⟩
      · exact ⟨rfl, rfl, present⟩
      · rcases kept with refused | succeeded
        · rw [← onList_eq_none_iff, list, accepted] at refused
          cases refused
        · exact absurd rfl succeeded

theorem Edited.replay (run : Edited faults card memory trail last final)
    (shows : store.Shows memory card) :
    (store.replay (trail.map EditMade.seen)).1 = trail.map EditMade.value ∧
      (store.replay (trail.map EditMade.seen)).2.Shows final last := by
  induction run generalizing store with
  | nil => exact ⟨rfl, shows⟩
  | next made saved rest ih =>
      obtain ⟨answer, next⟩ := shows.step made saved
      obtain ⟨answers, shown⟩ := ih next
      exact ⟨congrArg₂ List.cons answer answers, shown⟩

theorem Edited.free_slot (run : Edited faults card memory trail last final)
    {slot : Nat}
    (empty : memory.records.count ≤ slot → memory.records.slots slot = zeroRecord)
    (free : final.records.count ≤ slot) :
    final.records.slots slot = zeroRecord := by
  induction run with
  | nil => exact empty free
  | next made saved rest ih =>
      exact ih (fun unused => (memoryEdit_list made).2.free_slot empty unused) free

theorem Edited.vacated (run : Edited faults card memory trail last final) :
    ∀ made ∈ trail, ∀ slot < made.before.records.count,
      final.records.count ≤ slot → final.records.slots slot = zeroRecord := by
  induction run with
  | nil => exact fun _ member => absurd member List.not_mem_nil
  | next made saved rest ih =>
      intro step member slot used free
      rcases List.mem_cons.mp member with rfl | later
      · exact (Edited.next made saved rest).free_slot
          (fun unused => absurd used (Nat.not_lt.mpr unused)) free
      · exact ih step later slot used free

/-- Changes to a loaded list go as they go for a list and its file: what they
give back, what is shown and what is on the card. No slot that was in use keeps
anything once it is free. -/
theorem edits_refine_store [Libc] {start loaded : HostList} {value : Int}
    {first : MemoryCard}
    (load : Returns (Step faults) (hostsLoad start) card (value, loaded) first)
    (image : memory.list.entries.toList = loaded.entries.toList)
    (run : Edited faults first memory trail last final) :
    ∃ store : Store, store.Shows memory first ∧
      (store.replay (trail.map EditMade.seen)).1 = trail.map EditMade.value ∧
      (store.replay (trail.map EditMade.seen)).2.Shows final last ∧
      ∀ made ∈ trail, ∀ slot < made.before.records.count,
        final.records.count ≤ slot → final.records.slots slot = zeroRecord := by
  let store : Store :=
    { list := memory.list.entries.toList
      file := first.files hostsPath
      short := by
        rw [Table.length_toList]
        exact memory.list.entries.within
      accepted := by
        rw [image]
        exact loaded_accepted load }
  have shows : store.Shows memory first := shows_iff.mpr ⟨rfl, rfl⟩
  obtain ⟨answers, shown⟩ := run.replay shows
  exact ⟨store, shows, answers, shown, run.vacated⟩

end Runs

theorem exists_memory_save (memory : HostMemory) (card : MemoryCard) :
    ∃ after saved, Returns (Step noFaults) memory.save card (0, after) saved ∧
      after.records = memory.records := by
  obtain ⟨written, saved, run⟩ := exists_save memory.list card
  exact ⟨_, saved, returns_bind_iff.mpr ⟨_, saved, run, .done⟩, rfl⟩

theorem exists_memory_add {memory : HostMemory} {record : HostRecord}
    (accepted : hostsProblem (some record.entry) = none)
    (room : memory.records.count < hostsMax) (card : MemoryCard) :
    ∃ after saved, Returns (Step noFaults)
      ((MemoryEdit.add (.outside record)).run memory) card
      (memory.records.count, after) saved ∧
        after.records.count = memory.records.count + 1 := by
  obtain ⟨after, saved, run, same⟩ := exists_memory_save
    { memory with records := memory.records.push record room } card
  have last : (after.records.count : Int) - 1 = memory.records.count := by
    rw [same]
    change ((memory.records.count + 1 : Nat) : Int) - 1 = memory.records.count
    omega
  dsimp only [MemoryEdit.run]
  rw [HostMemory.hostsAdd, dif_pos room]
  dsimp only [EntryPointer.target]
  rw [accepted]
  refine ⟨after, saved, returns_bind_iff.mpr ⟨_, saved, run, ?_⟩, by rw [same]; rfl⟩
  rw [if_neg (not_not.mpr rfl), last]
  exact .done

theorem exists_memory_remove {memory : HostMemory} {index : Int}
    (listed : ¬ (index < 0 ∨ index ≥ memory.records.count)) (card : MemoryCard) :
    ∃ after saved, Returns (Step noFaults) ((MemoryEdit.remove index).run memory) card
      (0, after) saved := by
  dsimp only [MemoryEdit.run]
  rw [HostMemory.hostsRemove, if_neg listed]
  obtain ⟨after, saved, run, _⟩ := exists_memory_save _ card
  exact ⟨after, saved, run⟩

theorem exists_empty_load [Libc] {card : MemoryCard}
    (present : card.files hostsPath = some []) (start : HostList) :
    ∃ loaded first,
      Returns (Step noFaults) (hostsLoad start) card (0, loaded) first ∧
        loaded.entries.count = 0 := by
  have ensured : Ensures (Step noFaults) _ _ _ _ :=
    hostsLoad_present present (by decide) start
  obtain ⟨⟨value, loaded⟩, first, load⟩ := ensured.exists_returns
  obtain ⟨rfl, entries⟩ := ensured.returns load
  refine ⟨loaded, first, load, ?_⟩
  rw [← Table.length_toList, entries, toList_parse]
  simp [cString, lines]

/-- A server is added to an empty list and removed again. -/
theorem edits_refine_store_added :
    letI := saturating
    let card := blankCard.put hostsPath (some [])
    let edit := MemoryEdit.add
      (.outside (.holding ((oneHost "pi").entries.slots 0)))
    ∃ loaded first middle final last,
      Returns (Step noFaults) (hostsLoad noHosts) card (0, loaded) first ∧
      let memory := HostMemory.holding loaded
      let trail := [EditMade.mk memory edit 0, EditMade.mk middle (.remove 0) 0]
      middle.records.count = 1 ∧
      Edited noFaults first memory trail last final ∧
      ∃ store : Store, store.Shows memory first ∧
        (store.replay (trail.map EditMade.seen)).1 = trail.map EditMade.value ∧
        (store.replay (trail.map EditMade.seen)).2.Shows final last ∧
        ∀ made ∈ trail, ∀ slot < made.before.records.count,
          final.records.count ≤ slot →
            final.records.slots slot = zeroRecord := by
  let libc : Libc := saturating
  intro card edit
  have present : card.files hostsPath = some [] := by simp [card]
  obtain ⟨loaded, first, load, empty⟩ := exists_empty_load present noHosts
  have accepted : hostsProblem
      (some (HostRecord.holding ((oneHost "pi").entries.slots 0)).entry) =
        none := by
    rw [entry_holding]
    decide +kernel
  have room : (HostMemory.holding loaded).records.count < hostsMax := by
    change loaded.entries.count < hostsMax
    rw [empty]
    decide
  obtain ⟨middle, between, made, one⟩ := exists_memory_add accepted room first
  have none_listed : (HostMemory.holding loaded).records.count = 0 := empty
  rw [none_listed] at made one
  have listed : ¬ ((0 : Int) < 0 ∨ 0 ≥ (middle.records.count : Int)) := by
    rw [one]
    decide
  obtain ⟨final, last, removed⟩ := exists_memory_remove listed between
  have run : Edited noFaults first (.holding loaded) _ last final :=
    .next made (.inr (by decide)) (.next removed (.inr (by decide)) .nil)
  refine ⟨loaded, first, middle, final, last, load, one, run, ?_⟩
  exact edits_refine_store load (by rw [HostMemory.list_holding]) run

end Pspssh.Hosts
