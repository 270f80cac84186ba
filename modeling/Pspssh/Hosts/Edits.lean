import Pspssh.Hosts.RoundTrip

namespace Pspssh.Hosts

open Pspssh.Data
open Pspssh.Data.Program
open Pspssh.Card

/-! What adding, replacing and removing a server does to the list shown. -/

inductive HostEdit where
  | add (entry : Option HostEntry)
  | replace (index : Int) (entry : Option HostEntry)
  | remove (index : Int)

namespace HostEdit

def run (edit : HostEdit) (hosts : HostList) : Io (Int × HostList) :=
  match edit with
  | .add entry => hostsAdd entry hosts
  | .replace index entry => hostsReplace index entry hosts
  | .remove index => hostsRemove index hosts

/-- The list that the change makes of another, unless it is refused. -/
def onList (edit : HostEdit) (list : List HostEntry) : Option (List HostEntry) :=
  match edit with
  | .add entry =>
      if list.length < hostsMax ∧ hostsProblem entry = none then
        entry.map fun entry => list ++ [entry]
      else none
  | .replace index entry =>
      if (0 ≤ index ∧ index < list.length) ∧ hostsProblem entry = none then
        entry.map fun entry => list.set index.toNat entry
      else none
  | .remove index =>
      if 0 ≤ index ∧ index < list.length then
        some (list.eraseIdx index.toNat)
      else none

/-- What the change gives back once it is saved: where the new entry is. -/
def answer (edit : HostEdit) (list : List HostEntry) : Int :=
  match edit with
  | .add _ => list.length
  | .replace _ _ => 0
  | .remove _ => 0

def reply (edit : HostEdit) (result : Int) (saved : HostList) : Int :=
  match edit with
  | .add _ => if result ≠ 0 then -1 else saved.entries.count - 1
  | .replace _ _ => result
  | .remove _ => result

end HostEdit

inductive HostCall where
  | load
  | add (entry : Option HostEntry)
  | replace (index : Int) (entry : Option HostEntry)
  | remove (index : Int)

def HostCall.run [Libc] (call : HostCall) (hosts : HostList) :
    Io (Int × HostList) :=
  match call with
  | .load => hostsLoad hosts
  | .add entry => hostsAdd entry hosts
  | .replace index entry => hostsReplace index entry hosts
  | .remove index => hostsRemove index hosts

theorem hostCall_cases [Libc] (call : HostCall) (hosts : HostList) :
    call.run hosts = hostsLoad hosts ∨
      ∃ edit : HostEdit, call.run hosts = edit.run hosts := by
  cases call with
  | load => exact .inl rfl
  | add entry => exact .inr ⟨.add entry, rfl⟩
  | replace index entry => exact .inr ⟨.replace index entry, rfl⟩
  | remove index => exact .inr ⟨.remove index, rfl⟩

section Shown

variable {hosts other : HostList} {index : Int}

theorem hostsAt_eq :
    hostsAt index hosts =
      if index < 0 then none else hosts.entries.toList[index.toNat]? := by
  unfold hostsAt
  by_cases negative : index < 0
  · rw [if_pos (.inl negative), if_pos negative]
  · rw [if_neg negative]
    by_cases within : index.toNat < hosts.entries.toList.length
    · have used := within
      rw [Table.length_toList] at used
      rw [if_neg (by omega), List.getElem?_eq_getElem within,
        Table.getElem_toList]
    · rw [List.getElem?_eq_none (Nat.not_lt.mp within)]
      rw [Table.length_toList] at within
      rw [if_pos (by omega)]

theorem shown_iff :
    hostsCount other = hostsCount hosts ∧
        (∀ index, hostsAt index other = hostsAt index hosts) ↔
      other.entries.toList = hosts.entries.toList := by
  constructor
  · intro same
    refine List.ext_getElem? fun index => ?_
    have shown := same.2 index
    rwa [hostsAt_eq, hostsAt_eq, if_neg (by omega), Int.toNat_natCast] at shown
  · intro same
    constructor
    · rw [hostsCount, hostsCount, ← Table.length_toList, same,
        Table.length_toList]
    · intro index
      rw [hostsAt_eq, hostsAt_eq, same]

theorem out_of_range_iff :
    (index < 0 ∨ index ≥ hosts.entries.count) ↔
      ¬ (0 ≤ index ∧ index < hosts.entries.toList.length) := by
  rw [Table.length_toList]
  omega

end Shown

/-! ## What each change can do -/

inductive HostEdit.Makes (list : List HostEntry) :
    HostEdit → List HostEntry → Prop where
  | added {entry : HostEntry} (room : list.length < hostsMax)
      (accepted : hostsProblem (some entry) = none) :
      Makes list (.add (some entry)) (list ++ [entry])
  | replaced {index : Int} {entry : HostEntry}
      (within : 0 ≤ index ∧ index < list.length)
      (accepted : hostsProblem (some entry) = none) :
      Makes list (.replace index (some entry)) (list.set index.toNat entry)
  | removed {index : Int} (within : 0 ≤ index ∧ index < list.length) :
      Makes list (.remove index) (list.eraseIdx index.toNat)

theorem makes_of_onList {edit : HostEdit} {list changed : List HostEntry}
    (made : edit.onList list = some changed) : edit.Makes list changed := by
  cases edit with
  | add entry =>
      dsimp only [HostEdit.onList] at made
      split_ifs at made with passes
      obtain ⟨added, rfl, rfl⟩ := Option.map_eq_some_iff.mp made
      exact .added passes.1 passes.2
  | replace index entry =>
      dsimp only [HostEdit.onList] at made
      split_ifs at made with passes
      obtain ⟨given, rfl, rfl⟩ := Option.map_eq_some_iff.mp made
      exact .replaced passes.1 passes.2
  | remove index =>
      dsimp only [HostEdit.onList] at made
      split_ifs at made with within
      cases made
      exact .removed within

theorem HostEdit.Makes.onList {edit : HostEdit} {list changed : List HostEntry}
    (makes : edit.Makes list changed) : edit.onList list = some changed := by
  cases makes with
  | added room accepted => exact if_pos ⟨room, accepted⟩
  | replaced within accepted => exact if_pos ⟨within, accepted⟩
  | removed within => exact if_pos within

theorem edit_run (edit : HostEdit) (hosts : HostList) :
    (edit.onList hosts.entries.toList = none ∧
        ∃ message, edit.run hosts = .done (-1, hosts.fail message)) ∨
      ∃ entries, edit.onList hosts.entries.toList = some entries.toList ∧
        edit.run hosts = (save { hosts with entries }).bind fun saved =>
          .done (edit.reply saved.1 saved.2, saved.2) := by
  cases edit with
  | add entry =>
      dsimp only [HostEdit.run, HostEdit.onList, HostEdit.reply]
      rw [hostsAdd, Table.length_toList]
      by_cases room : hosts.entries.count < hostsMax
      · rw [dif_pos room]
        cases entry with
        | none => exact .inl ⟨by simp, _, rfl⟩
        | some entry =>
            cases problem : hostsProblem (some entry) with
            | some message => exact .inl ⟨by simp, _, rfl⟩
            | none =>
                refine .inr ⟨hosts.entries.push entry room, ?_, ?_⟩
                · rw [if_pos ⟨room, rfl⟩, Table.toList_push, Option.map_some]
                · refine congrArg (Program.bind _) (funext fun saved => ?_)
                  dsimp only
                  split_ifs <;> rfl
      · rw [dif_neg room]
        exact .inl ⟨if_neg fun passes => room passes.1, _, rfl⟩
  | replace index entry =>
      dsimp only [HostEdit.run, HostEdit.onList, HostEdit.reply]
      unfold hostsReplace
      by_cases outside : index < 0 ∨ index ≥ hosts.entries.count
      · rw [if_pos outside]
        exact .inl ⟨if_neg fun passes =>
          out_of_range_iff.mp outside passes.1, _, rfl⟩
      · rw [if_neg outside]
        have within := not_not.mp (mt out_of_range_iff.mpr outside)
        cases entry with
        | none => exact .inl ⟨by simp [hostsProblem], _, rfl⟩
        | some entry =>
            cases problem : hostsProblem (some entry) with
            | some message => exact .inl ⟨by simp, _, rfl⟩
            | none =>
                refine .inr ⟨hosts.entries.store index.toNat entry, ?_, ?_⟩
                · rw [if_pos ⟨within, rfl⟩, Table.toList_store, Option.map_some]
                · exact (bind_done _).symm
  | remove index =>
      dsimp only [HostEdit.run, HostEdit.onList, HostEdit.reply]
      rw [hostsRemove]
      by_cases outside : index < 0 ∨ index ≥ hosts.entries.count
      · rw [if_pos outside]
        exact .inl ⟨if_neg (out_of_range_iff.mp outside), _, rfl⟩
      · rw [if_neg outside]
        have within := not_not.mp (mt out_of_range_iff.mpr outside)
        have used : index.toNat < hosts.entries.count := by omega
        refine .inr ⟨_, ?_, (bind_done _).symm⟩
        rw [if_pos within, Table.toList_removeAt (by exact used),
          Table.toList_store, List.eraseIdx_set_eq]

theorem reply_saved {edit : HostEdit} {hosts written : HostList}
    {entries : Table HostEntry hostsMax}
    (accepted : edit.onList hosts.entries.toList = some entries.toList)
    (same : written.entries = entries) :
    edit.reply 0 written = edit.answer hosts.entries.toList := by
  have makes := makes_of_onList accepted
  generalize changed : entries.toList = list at makes
  cases makes with
  | added room accepted =>
      have length := congrArg List.length changed
      rw [Table.length_toList, List.length_append, List.length_singleton] at length
      dsimp only [HostEdit.reply, HostEdit.answer]
      rw [if_neg (not_not.mpr rfl), same]
      omega
  | replaced within accepted => rfl
  | removed within => rfl

section Cases

variable {faults : IoCall → Prop} {edit : HostEdit} {hosts after : HostList}
  {card saved : MemoryCard} {value : Int}

/-- A refused change does nothing. Any other is made in the list, whether or
not it can then be saved. -/
theorem edit_cases
    (made : Returns (Step faults) (edit.run hosts) card (value, after) saved) :
    edit.onList hosts.entries.toList = none ∧ value = -1 ∧
        after.entries = hosts.entries ∧ saved = card ∨
      edit.onList hosts.entries.toList = some after.entries.toList ∧
        (value = edit.answer hosts.entries.toList ∧
            saved.files hostsPath = some (listText after.entries.toList) ∨
          value = -1 ∧ Faulty faults) := by
  obtain ⟨refused, message, run⟩ | ⟨entries, accepted, run⟩ :=
    edit_run edit hosts
  · rw [run] at made
    cases made
    exact .inl ⟨refused, rfl, rfl, rfl⟩
  · rw [run] at made
    obtain ⟨⟨result, written⟩, last, saves, ended⟩ := returns_bind_iff.mp made
    cases ended
    obtain ⟨same, ⟨rfl, present⟩ | ⟨rfl, faulty⟩⟩ := (save_run _ card).returns saves
    · dsimp only at same present
      rw [same]
      exact .inr ⟨accepted, .inl ⟨reply_saved accepted same, present⟩⟩
    · dsimp only at same
      rw [same]
      refine .inr ⟨accepted, .inr ⟨?_, faulty⟩⟩
      cases edit <;> rfl

end Cases

/-! ## Changes that cannot be saved -/

def HostEdit.Refused (edit : HostEdit) (hosts : HostList) : Prop :=
  match edit with
  | .add entry => hosts.entries.count ≥ hostsMax ∨ hostsProblem entry ≠ none
  | .replace index entry =>
      index < 0 ∨ index ≥ hosts.entries.count ∨ hostsProblem entry ≠ none
  | .remove index => index < 0 ∨ index ≥ hosts.entries.count

theorem onList_eq_none_iff {edit : HostEdit} {hosts : HostList} :
    edit.onList hosts.entries.toList = none ↔ edit.Refused hosts := by
  constructor
  · intro refused
    by_contra passes
    cases edit with
    | add entry =>
        obtain ⟨room, accepted⟩ := not_or.mp passes
        cases entry with
        | none => exact accepted nofun
        | some entry =>
            rw [Nat.not_le, ← Table.length_toList] at room
            have makes := HostEdit.Makes.added room (not_not.mp accepted)
            rw [makes.onList] at refused
            cases refused
    | replace index entry =>
        obtain ⟨inside, accepted⟩ := not_or.mp (mt or_assoc.mp passes)
        cases entry with
        | none => exact accepted nofun
        | some entry =>
            have makes := HostEdit.Makes.replaced
              (not_not.mp (mt out_of_range_iff.mpr inside)) (not_not.mp accepted)
            rw [makes.onList] at refused
            cases refused
    | remove index =>
        have makes := HostEdit.Makes.removed
          (not_not.mp (mt out_of_range_iff.mpr passes))
        rw [makes.onList] at refused
        cases refused
  · intro refused
    rw [Option.eq_none_iff_forall_ne_some]
    intro changed made
    cases makes_of_onList made with
    | added room accepted =>
        rw [Table.length_toList] at room
        rcases refused with full | problem
        · exact Nat.not_lt.mpr full room
        · exact problem accepted
    | replaced within accepted =>
        rcases or_assoc.mpr refused with outside | problem
        · exact out_of_range_iff.mp outside within
        · exact problem accepted
    | removed within => exact out_of_range_iff.mp refused within

/-- A change leaves the list as it was exactly if it is refused, or puts an
entry in the place of the same one. -/
theorem onList_keeps_iff {edit : HostEdit} {hosts : HostList} :
    (∀ list, edit.onList hosts.entries.toList = some list →
        list = hosts.entries.toList) ↔
      edit.Refused hosts ∨ ∃ index entry,
        edit = .replace index (some entry) ∧ hostsAt index hosts = some entry := by
  constructor
  · intro same
    cases made : edit.onList hosts.entries.toList with
    | none => exact .inl (onList_eq_none_iff.mp made)
    | some list =>
        have kept := same list made
        cases makes_of_onList made with
        | added room accepted => simp at kept
        | @replaced index entry within accepted =>
            refine .inr ⟨index, entry, rfl, ?_⟩
            rw [hostsAt_eq, if_neg (Int.not_lt.mpr within.1), ← kept,
              List.getElem?_set_self (by omega)]
        | removed within =>
            have length := congrArg List.length kept
            rw [List.length_eraseIdx_of_lt (by omega)] at length
            omega
  · intro kind list made
    rcases kind with refused | ⟨index, entry, rfl, shown⟩
    · rw [onList_eq_none_iff.mpr refused] at made
      cases made
    · cases makes_of_onList made with
      | replaced within accepted =>
          rw [hostsAt_eq, if_neg (Int.not_lt.mpr within.1)] at shown
          obtain ⟨used, rfl⟩ := List.getElem?_eq_some_iff.mp shown
          exact List.set_getElem_self used

theorem exists_unsaved (hosts : HostList) (card : MemoryCard) :
    ∃ after, Returns (Step anyFault) (save hosts) card (-1, after) card ∧
      after.entries = hosts.entries := by
  rw [save, gather_list]
  exact ⟨_, returns_bind_iff.mpr
    ⟨_, card, cardfileWrite_refused _ _ card, .done⟩, rfl⟩

theorem exists_unsaved_edit {edit : HostEdit} {hosts : HostList}
    {list : List HostEntry}
    (accepted : edit.onList hosts.entries.toList = some list)
    (card : MemoryCard) :
    ∃ after, Returns (Step anyFault) (edit.run hosts) card (-1, after) card ∧
      after.entries.toList = list := by
  obtain ⟨refused, _⟩ | ⟨entries, made, run⟩ := edit_run edit hosts
  · rw [refused] at accepted
    cases accepted
  · obtain rfl := Option.some.inj (made.symm.trans accepted)
    obtain ⟨after, failed, same⟩ := exists_unsaved { hosts with entries } card
    refine ⟨after, ?_, congrArg Table.toList same⟩
    rw [run]
    refine returns_bind_iff.mpr ⟨_, card, failed, ?_⟩
    cases edit <;> exact .done

/-- A change that cannot be saved leaves the list as it was exactly if it was
refused, or puts an entry in the place of the same one. -/
theorem failed_edit_keeps_list_iff (edit : HostEdit) (hosts : HostList)
    (card : MemoryCard) :
    (∀ after saved,
        Returns (Step anyFault) (edit.run hosts) card (-1, after) saved →
        hostsCount after = hostsCount hosts ∧
          ∀ index, hostsAt index after = hostsAt index hosts) ↔
      edit.Refused hosts ∨ ∃ index entry,
        edit = .replace index (some entry) ∧
          hostsAt index hosts = some entry := by
  rw [← onList_keeps_iff]
  constructor
  · intro keeps list accepted
    obtain ⟨after, run, rfl⟩ := exists_unsaved_edit accepted card
    exact shown_iff.mp (keeps after card run)
  · intro keeps after saved run
    rw [shown_iff]
    rcases edit_cases run with ⟨_, _, same, _⟩ | ⟨accepted, _⟩
    · rw [same]
    · exact keeps _ accepted

/-- The server that could not be saved is in the list all the same. -/
theorem failed_add_shows_host :
    ¬ ∀ after saved,
      Returns (Step anyFault)
        (HostEdit.run (.add (some (oneHost "pi").entries.toList[0])) noHosts)
        blankCard (-1, after) saved →
      hostsCount after = hostsCount noHosts ∧
        ∀ index, hostsAt index after = hostsAt index noHosts := by
  intro keeps
  have accepted : HostEdit.onList (.add (some (oneHost "pi").entries.toList[0]))
      noHosts.entries.toList = some [(oneHost "pi").entries.toList[0]] := by
    decide +kernel
  obtain ⟨after, run, list⟩ := exists_unsaved_edit accepted blankCard
  have kept := shown_iff.mp (keeps after blankCard run)
  rw [list] at kept
  cases kept

end Pspssh.Hosts
