import Mathlib

namespace Pspssh.Data

/-! Arrays of a fixed size, and the texts that end with a zero in them. -/

abbrev Cells (size : Nat) (α : Type) := Fin size → α

/-- The loop that turns the units of a text into others, up to its zero and
for at most `room` of them. -/
def convertUnits {α β : Type} [Zero α] [DecidableEq α] (convert : α → β) :
    Nat → List α → List β
  | 0, _ => []
  | _, [] => []
  | room + 1, unit :: rest =>
      if unit = 0 then [] else convert unit :: convertUnits convert room rest

namespace Cells

variable {α : Type} [Zero α] {size : Nat}

/-- The text written from the start of the array on, with a zero behind it. -/
def store (cells : Cells size α) (text : List α) : Cells size α :=
  fun i => (text ++ [0]).getD i (cells i)

theorem store_inside (cells : Cells size α) {text : List α} {i : Fin size}
    (inside : i < text.length) : cells.store text i = text[i.val] := by
  have longer : i.val < (text ++ [0]).length := by
    rw [List.length_append]
    omega
  unfold store
  rw [List.getD_eq_getElem _ _ longer, List.getElem_append_left inside]

theorem store_end (cells : Cells size α) {text : List α} {i : Fin size}
    (last : i = text.length) : cells.store text i = 0 := by
  unfold store
  rw [last, List.getD_append_right _ _ _ _ (Nat.le_refl _), Nat.sub_self]
  rfl

theorem store_behind (cells : Cells size α) {text : List α} {i : Fin size}
    (behind : text.length < i) : cells.store text i = cells i := by
  unfold store
  apply List.getD_eq_default
  rw [List.length_append]
  exact behind

/-- An array is all zero behind a text exactly if the text is empty and the
rest of the array was zero before. -/
theorem store_eq_zero_iff {cells : Cells size α} {text : List α}
    (noNul : 0 ∉ text) (fits : text.length < size) :
    cells.store text = 0 ↔ text = [] ∧ ∀ i, 0 < i.val → cells i = 0 := by
  constructor
  · intro blank
    have empty : text = [] := by
      cases text with
      | nil => rfl
      | cons unit rest =>
          have first : store cells (unit :: rest) ⟨0, by omega⟩ = unit :=
            cells.store_inside (Nat.succ_pos _)
          rw [blank] at first
          exact absurd (first ▸ List.mem_cons_self) noNul
    refine ⟨empty, fun i later => ?_⟩
    have kept : cells.store text i = cells i := cells.store_behind (by
      rw [empty]
      exact later)
    rw [← kept, blank]
    rfl
  · rintro ⟨rfl, rest⟩
    funext i
    rcases Nat.eq_zero_or_pos i.val with first | later
    · exact cells.store_end first
    · have kept : cells.store [] i = cells i := cells.store_behind later
      exact kept.trans (rest i later)

theorem ofFn_store (cells : Cells size α) {text : List α}
    (fits : text.length < size) :
    List.ofFn (cells.store text) =
      text ++ 0 :: (List.ofFn cells).drop (text.length + 1) := by
  apply List.ext_getElem
  · simp only [List.length_ofFn, List.length_append, List.length_cons,
      List.length_drop]
    omega
  · intro i small _
    rw [List.length_ofFn] at small
    rw [List.getElem_ofFn]
    rcases Nat.lt_trichotomy i text.length with inside | last | behind
    · rw [store_inside cells inside, List.getElem_append_left inside]
    · subst last
      rw [store_end cells rfl, List.getElem_append_right (Nat.le_refl _)]
      simp
    · rw [store_behind cells behind,
        List.getElem_append_right (Nat.le_of_lt behind), List.getElem_cons,
        dif_neg (by omega), List.getElem_drop, List.getElem_ofFn]
      congr
      omega

variable [DecidableEq α]

def text (cells : Cells size α) : List α :=
  (List.ofFn cells).takeWhile (· ≠ 0)

theorem zero_not_mem_text (cells : Cells size α) : 0 ∉ cells.text :=
  fun member => by simpa using List.mem_takeWhile_imp member

@[simp] theorem text_store (cells : Cells size α) {text : List α}
    (noNul : 0 ∉ text) (fits : text.length < size) :
    (cells.store text).text = text := by
  unfold Cells.text
  rw [ofFn_store cells fits, List.takeWhile_append_of_pos,
    List.takeWhile_cons_of_neg (by simp), List.append_nil]
  intro unit member
  refine decide_eq_true ?_
  rintro rfl
  exact noNul member

end Cells

/-! ## The loop -/

section Convert

variable {α β : Type} [Zero α] [DecidableEq α]

theorem convertUnits_eq (convert : α → β) (room : Nat) (text : List α) :
    convertUnits convert room text =
      ((text.takeWhile (· ≠ 0)).take room).map convert := by
  fun_induction convertUnits with
  | case1 => simp
  | case2 => simp
  | case3 room rest => simp
  | case4 room unit rest some_unit ih =>
      rw [List.takeWhile_cons_of_pos (by simpa using some_unit),
        List.take_succ_cons, List.map_cons, ih]

theorem convertUnits_length (convert : α → β) (room : Nat) (text : List α) :
    (convertUnits convert room text).length ≤ room := by
  rw [convertUnits_eq, List.length_map]
  exact List.length_take_le _ _

end Convert

end Pspssh.Data
