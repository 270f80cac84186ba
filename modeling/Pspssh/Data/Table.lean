import Pspssh.Data.Loop

namespace Pspssh.Data

/-! Arrays with a count of the slots in use, seen as lists. -/

/-- An array of `capacity` slots, the first `count` of them in use. -/
structure Table (α : Type) (capacity : Nat) where
  slots : Nat → α
  count : Nat
  within : count ≤ capacity

namespace Table

variable {α : Type} {capacity : Nat}

def toList (table : Table α capacity) : List α :=
  (List.range table.count).map table.slots

def clear (table : Table α capacity) : Table α capacity where
  slots := table.slots
  count := 0
  within := Nat.zero_le capacity

def store (table : Table α capacity) (index : Nat) (value : α) :
    Table α capacity :=
  { table with slots := Function.update table.slots index value }

def push (table : Table α capacity) (value : α)
    (room : table.count < capacity) : Table α capacity where
  slots := Function.update table.slots table.count value
  count := table.count + 1
  within := room

def offer (table : Table α capacity) : Option α → Table α capacity
  | none => table
  | some value =>
      if room : table.count < capacity then table.push value room else table

/-- The slots behind `index` moved down by one and the last one erased. -/
def removeAt (table : Table α capacity) (index : Nat) (erased : α) :
    Table α capacity where
  slots :=
    Function.update
      (forUp index (table.count - 1) (fun i slots =>
        Function.update slots i.toNat (slots (i.toNat + 1))) table.slots)
      (table.count - 1) erased
  count := table.count - 1
  within := (Nat.sub_le _ 1).trans table.within

def map {β : Type} (view : α → β) (table : Table α capacity) :
    Table β capacity where
  slots := view ∘ table.slots
  count := table.count
  within := table.within

def find (table : Table α capacity) (test : α → Bool) : Option Nat :=
  (List.range table.count).find? fun i => test (table.slots i)

variable {table : Table α capacity}

@[simp] theorem length_toList : table.toList.length = table.count := by
  rw [toList, List.length_map, List.length_range]

@[simp] theorem toList_clear : table.clear.toList = [] := rfl

theorem getElem_toList {index : Nat} (found : index < table.toList.length) :
    table.toList[index] = table.slots index := by
  simp only [toList, List.getElem_map, List.getElem_range]

theorem toList_push (value : α) (room : table.count < capacity) :
    (table.push value room).toList = table.toList ++ [value] := by
  have old : (List.range table.count).map
      (Function.update table.slots table.count value) = table.toList := by
    refine List.map_congr_left fun i member => ?_
    exact Function.update_of_ne (List.mem_range.mp member).ne _ _
  change (List.range (table.count + 1)).map
      (Function.update table.slots table.count value) = _
  rw [List.range_succ, List.map_append, old, List.map_singleton,
    Function.update_self]

theorem toList_offer (value : Option α) :
    (table.offer value).toList =
      (table.toList ++ value.toList).take capacity := by
  have short : table.toList.length ≤ capacity := by
    rw [length_toList]
    exact table.within
  cases value with
  | none => simp [offer, List.take_of_length_le short]
  | some value =>
      rw [offer]
      split
      · rename_i room
        rw [toList_push, Option.toList_some, List.take_of_length_le]
        rw [List.length_append, length_toList, List.length_singleton]
        exact room
      · rename_i full
        have same : table.toList.length = capacity := by
          rw [length_toList]
          exact Nat.le_antisymm table.within (Nat.not_lt.mp full)
        rw [List.take_left' same]

theorem take_take_append (values more : List α) (count : Nat) :
    (values.take count ++ more).take count = (values ++ more).take count := by
  rw [List.take_append, List.take_append, List.take_take, Nat.min_self,
    List.length_take]
  congr 2
  omega

theorem take_filterMap {β : Type} (given : β → Option α) (values : List β)
    (count : Nat) :
    (values.filterMap given).take count =
      ((values.filter fun value => (given value).isSome).take count).filterMap
        given := by
  induction values generalizing count with
  | nil => simp
  | cons value values ih =>
      cases found : given value with
      | none =>
          rw [List.filterMap_cons_none found, List.filter_cons_of_neg (by simp [found]),
            ih]
      | some first =>
          rw [List.filterMap_cons_some found,
            List.filter_cons_of_pos (by simp [found])]
          cases count with
          | zero => rfl
          | succ count =>
              rw [List.take_succ_cons, List.take_succ_cons,
                List.filterMap_cons_some found, ih]

theorem toList_foldl {β : Type} {add : Table α capacity → β → Table α capacity}
    {given : β → Option α}
    (step : ∀ table value, (add table value).toList =
      (table.toList ++ (given value).toList).take capacity)
    (values : List β) :
    (values.foldl add table).toList =
      (table.toList ++ values.filterMap given).take capacity := by
  induction values generalizing table with
  | nil =>
      have short : table.toList.length ≤ capacity := by
        rw [length_toList]
        exact table.within
      rw [List.foldl_nil, List.filterMap_nil, List.append_nil,
        List.take_of_length_le short]
  | cons value values ih =>
      rw [List.foldl_cons, ih, step, take_take_append, List.append_assoc]
      cases found : given value with
      | none => rw [List.filterMap_cons_none found]; rfl
      | some value => rw [List.filterMap_cons_some found]; rfl

theorem toList_store (index : Nat) (value : α) :
    (table.store index value).toList = table.toList.set index value := by
  apply List.ext_getElem
  · rw [List.length_set, length_toList, length_toList]
    rfl
  · intro i left right
    rw [getElem_toList, List.getElem_set]
    change Function.update table.slots index value i = _
    by_cases here : index = i
    · rw [if_pos here, here, Function.update_self]
    · rw [if_neg here, Function.update_of_ne (Ne.symm here), getElem_toList]

theorem shifted_slots (slots : Nat → α) (index count : Nat) :
    forUp index (count - 1) (fun i slots =>
        Function.update slots i.toNat (slots (i.toNat + 1))) slots =
      fun slot =>
        if index ≤ slot ∧ slot + 1 < count then slots (slot + 1)
        else slots slot := by
  refine forUp_eq (fun i slot =>
    if index ≤ slot ∧ (slot : Int) < i then slots (slot + 1)
    else slots slot) ?_ ?_ ?_
  · funext slot
    rw [if_neg (by omega)]
  · intro i lower upper
    funext slot
    by_cases here : slot = i.toNat
    · dsimp only
      rw [here, Function.update_self, if_neg (by omega), if_pos (by omega)]
    · rw [Function.update_of_ne here]
      grind
  · funext slot
    grind

theorem toList_removeAt {index : Nat} (found : index < table.count)
    (erased : α) :
    (table.removeAt index erased).toList = table.toList.eraseIdx index := by
  apply List.ext_getElem
  · rw [List.length_eraseIdx_of_lt (by rwa [length_toList]), length_toList,
      length_toList]
    rfl
  · intro i left right
    have bound : i < table.count - 1 := by rwa [length_toList] at left
    rw [getElem_toList, List.getElem_eraseIdx]
    unfold removeAt
    dsimp only
    rw [Function.update_of_ne bound.ne]
    have shifted := congrFun (shifted_slots table.slots index table.count) i
    rw [shifted]
    by_cases before : i < index
    · rw [dif_pos before, if_neg (by omega), getElem_toList]
    · rw [dif_neg before, if_pos (by omega), getElem_toList]

/-! ## Slots behind the ones in use -/

theorem push_slots {slot : Nat} (value : α) (room : table.count < capacity)
    (unused : table.count < slot) :
    (table.push value room).slots slot = table.slots slot :=
  Function.update_of_ne unused.ne' _ _

theorem removeAt_slots {index slot : Nat} (erased : α)
    (unused : table.count ≤ slot) :
    (table.removeAt index erased).slots slot =
      if slot = table.count - 1 then erased else table.slots slot := by
  unfold removeAt
  dsimp only
  by_cases last : slot = table.count - 1
  · rw [if_pos last, last, Function.update_self]
  · rw [if_neg last, Function.update_of_ne last, shifted_slots]
    dsimp only
    rw [if_neg (by omega)]

theorem removeAt_last (index : Nat) (erased : α) :
    (table.removeAt index erased).slots (table.count - 1) = erased :=
  Function.update_self _ _ _

/-! ## Views of a table -/

section Views

variable {β : Type} (view : α → β)

theorem map_push (value : α) (room : table.count < capacity) :
    (table.push value room).map view = (table.map view).push (view value) room := by
  simp only [map, push, Function.comp_update]

theorem map_store (index : Nat) (value : α) :
    (table.store index value).map view =
      (table.map view).store index (view value) := by
  simp only [map, store, Function.comp_update]

theorem map_removeAt (index : Nat) (erased : α) :
    (table.removeAt index erased).map view =
      (table.map view).removeAt index (view erased) := by
  simp only [map, removeAt, Function.comp_update, shifted_slots]
  congr 2
  funext slot
  rw [Function.comp_apply, apply_ite view]
  rfl

end Views

theorem find_eq_none {test : α → Bool} (missing : table.find test = none) :
    table.toList.find? test = none := by
  rw [List.find?_eq_none]
  intro value member
  obtain ⟨i, used, rfl⟩ := List.mem_map.mp member
  simpa using List.find?_eq_none.mp missing i used

theorem find_eq_some {test : α → Bool} {index : Nat}
    (found : table.find test = some index) :
    index < table.count ∧ test (table.slots index) = true ∧
      ∀ before < index, test (table.slots before) = false := by
  obtain ⟨passes, used, first⟩ := List.find?_range_eq_some.mp found
  exact ⟨List.mem_range.mp used, passes, fun before lower => by
    simpa using first before lower⟩

theorem toList_removeAt_find {test : α → Bool} {index : Nat}
    (found : table.find test = some index) (erased : α) :
    (table.removeAt index erased).toList = table.toList.eraseP test := by
  obtain ⟨used, passes, first⟩ := find_eq_some found
  have place : table.toList.findIdx? test = some index := by
    refine List.findIdx?_eq_some_iff_getElem.mpr ⟨by rwa [length_toList], ?_, ?_⟩
    · rwa [getElem_toList]
    · intro before lower
      rw [getElem_toList, first before lower]
      exact Bool.false_ne_true
  rw [toList_removeAt used, List.eraseP_eq_eraseIdx, place]

theorem map_find (test : α → Bool) :
    (table.find test).map table.slots = table.toList.find? test := by
  rw [toList, List.find?_map]
  rfl

theorem find?_push (test : α → Bool) (value : α)
    (room : table.count < capacity) :
    (table.push value room).toList.find? test =
      (table.toList.find? test).or (if test value then some value else none) := by
  rw [toList_push, List.find?_append, List.find?_singleton]

theorem find?_take_of_find {test : α → Bool} {index : Nat}
    (found : table.find test = some index) :
    (table.toList.take index).find? test = none := by
  obtain ⟨used, _, first⟩ := find_eq_some found
  rw [List.find?_eq_none]
  intro other member
  obtain ⟨i, lower, rfl⟩ := List.getElem_of_mem member
  rw [List.length_take, length_toList] at lower
  rw [List.getElem_take, getElem_toList]
  simpa using first i (by omega)

theorem find?_store {test : α → Bool} {index : Nat}
    (found : table.find test = some index) {value : α}
    (passes : test value = true) :
    (table.store index value).toList.find? test = some value := by
  have used := (find_eq_some found).1
  rw [toList_store, List.set_eq_take_append_cons_drop,
    if_pos (by rwa [length_toList]), List.find?_append,
    find?_take_of_find found, Option.none_or, List.find?_cons_of_pos passes]

theorem find?_removeAt_eq_none_iff {test : α → Bool} {index : Nat}
    (found : table.find test = some index) (erased : α) :
    (table.removeAt index erased).toList.find? test = none ↔
      (table.toList.filter test).length ≤ 1 := by
  obtain ⟨used, passes, _⟩ := find_eq_some found
  have inList : index < table.toList.length := by rwa [length_toList]
  have earlier := find?_take_of_find found
  have noneEarlier : (table.toList.take index).filter test = [] :=
    List.filter_eq_nil_iff.mpr (List.find?_eq_none.mp earlier)
  have parts : table.toList.filter test =
      table.slots index :: (table.toList.drop (index + 1)).filter test := by
    conv_lhs => rw [← List.take_append_drop index table.toList,
      List.filter_append, noneEarlier, List.drop_eq_getElem_cons inList,
      getElem_toList, List.nil_append, List.filter_cons_of_pos passes]
  rw [toList_removeAt used, List.eraseIdx_eq_take_drop_succ,
    List.find?_append, earlier, Option.none_or, parts, List.length_cons,
    List.find?_eq_none, ← List.filter_eq_nil_iff, ← List.length_eq_zero_iff]
  omega

theorem find?_store_of_fails {test : α → Bool} {index : Nat}
    (used : index < table.count) (old : test (table.slots index) = false)
    {value : α} (fails : test value = false) :
    (table.store index value).toList.find? test = table.toList.find? test := by
  have inList : index < table.toList.length := by rwa [length_toList]
  have whole : table.toList = table.toList.take index ++
      table.slots index :: table.toList.drop (index + 1) := by
    rw [← getElem_toList inList, ← List.drop_eq_getElem_cons inList,
      List.take_append_drop]
  rw [toList_store, List.set_eq_take_append_cons_drop, if_pos inList,
    List.find?_append, List.find?_cons_of_neg (by simp [fails])]
  conv_rhs => rw [whole, List.find?_append,
    List.find?_cons_of_neg (by simp [old])]

theorem find?_removeAt {test : α → Bool} {index : Nat}
    (used : index < table.count) (fails : test (table.slots index) = false)
    (erased : α) :
    (table.removeAt index erased).toList.find? test =
      table.toList.find? test := by
  have inList : index < table.toList.length := by rwa [length_toList]
  have skipped : (table.toList.drop index).find? test =
      (table.toList.drop (index + 1)).find? test := by
    rw [List.drop_eq_getElem_cons inList, getElem_toList,
      List.find?_cons_of_neg (by simp [fails])]
  rw [toList_removeAt used, List.eraseIdx_eq_take_drop_succ,
    List.find?_append, ← skipped, ← List.find?_append, List.take_append_drop]

end Table

end Pspssh.Data
