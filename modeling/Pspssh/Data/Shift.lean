import Mathlib

namespace Pspssh.Data

/-! Stretches of a line of values, taken out as lists, shifted and put back. -/

def stretch (line : Int → α) (low high : Int) : List α :=
  (List.range (high - low).toNat).map fun i : Nat => line (low + i)

/-- The line with these values from `low` on. -/
def splice (line : Int → α) (low : Int) (values : List α) : Int → α := fun i =>
  if low ≤ i then values[(i - low).toNat]?.getD (line i) else line i

/-- The first `count` values dropped, and as many put at the end. -/
def deleteFront (count : Nat) (fill : α) (values : List α) : List α :=
  values.drop count ++ List.replicate (min count values.length) fill

/-- `count` values put in front, and the end cut off. -/
def insertFront (count : Nat) (fill : α) (values : List α) : List α :=
  (List.replicate count fill ++ values).take values.length

def fillFront (count : Nat) (fill : α) (values : List α) : List α :=
  List.replicate (min count values.length) fill ++ values.drop count

@[simp] theorem splice_nil (line : Int → α) (low : Int) :
    splice line low [] = line := by
  funext i
  simp [splice]

@[simp] theorem length_stretch (line : Int → α) (low high : Int) :
    (stretch line low high).length = (high - low).toNat := by
  simp [stretch]

@[simp] theorem getElem_stretch (line : Int → α) (low high : Int) (i : Nat)
    (inside : i < (stretch line low high).length) :
    (stretch line low high)[i] = line (low + i) := by
  simp [stretch]

theorem stretch_congr {line other : Int → α} {low high : Int}
    (same : ∀ i, low ≤ i → i < high → line i = other i) :
    stretch line low high = stretch other low high := by
  apply List.ext_getElem
  · simp
  · intro i inside _
    rw [length_stretch] at inside
    simpa using same (low + i) (by omega) (by omega)

theorem stretch_const (value : α) (low high : Int) :
    stretch (fun _ => value) low high =
      List.replicate (high - low).toNat value := by
  simp [stretch]

section Lengths

variable (count : Nat) (fill : α) (values : List α)

@[simp] theorem length_deleteFront :
    (deleteFront count fill values).length = values.length := by
  simp [deleteFront]
  omega

@[simp] theorem length_insertFront :
    (insertFront count fill values).length = values.length := by
  simp [insertFront]

@[simp] theorem length_fillFront :
    (fillFront count fill values).length = values.length := by
  simp [fillFront]
  omega

end Lengths

/-! ## Shifting and what it does to each place -/

section Places

variable (count : Nat) (fill : α) (line : Int → α) (low high : Int)

theorem deleteFront_stretch :
    deleteFront count fill (stretch line low high) =
      stretch (fun i => if i + count < high then line (i + count) else fill)
        low high := by
  apply List.ext_getElem
  · simp
  · intro i inside _
    rw [length_deleteFront, length_stretch] at inside
    simp only [deleteFront, List.getElem_append, List.getElem_drop,
      List.getElem_replicate, List.length_drop, length_stretch, getElem_stretch]
    by_cases kept : i < (high - low).toNat - count
    · have place : low + ((count + i : Nat) : Int) = low + i + count := by omega
      rw [dif_pos kept, if_pos (by omega), place]
    · rw [dif_neg kept, if_neg (by omega)]

theorem insertFront_stretch :
    insertFront count fill (stretch line low high) =
      stretch (fun i => if low ≤ i - count then line (i - count) else fill)
        low high := by
  apply List.ext_getElem
  · simp
  · intro i inside _
    rw [length_insertFront, length_stretch] at inside
    simp only [insertFront, List.getElem_take, List.getElem_append,
      List.getElem_replicate, List.length_replicate, getElem_stretch]
    by_cases new : i < count
    · rw [dif_pos new, if_neg (by omega)]
    · have place : low + ((i - count : Nat) : Int) = low + i - count := by omega
      rw [dif_neg new, if_pos (by omega), place]

theorem fillFront_stretch :
    fillFront count fill (stretch line low high) =
      stretch (fun i => if i < low + count then fill else line i) low high := by
  apply List.ext_getElem
  · simp
  · intro i inside _
    rw [length_fillFront, length_stretch] at inside
    simp only [fillFront, List.getElem_append, List.getElem_drop,
      List.getElem_replicate, List.length_replicate, length_stretch,
      getElem_stretch]
    by_cases filled : i < min count (high - low).toNat
    · rw [dif_pos filled, if_pos (by omega)]
    · have behind : count + (i - min count (high - low).toNat) = i := by omega
      rw [dif_neg filled, if_neg (by omega), behind]

theorem splice_stretch (other : Int → α) (i : Int) :
    splice line low (stretch other low high) i =
      if low ≤ i ∧ i < high then other i else line i := by
  unfold splice
  by_cases inside : low ≤ i ∧ i < high
  · have place : low + ((i - low).toNat : Int) = i := by omega
    have short : (i - low).toNat < (stretch other low high).length := by
      rw [length_stretch]
      omega
    rw [if_pos inside, if_pos inside.1, List.getElem?_eq_getElem short,
      Option.getD_some, getElem_stretch, place]
  · have outside (above : low ≤ i) :
        (stretch other low high).length ≤ (i - low).toNat := by
      rw [length_stretch]
      omega
    rw [if_neg inside]
    split
    · rename_i above
      rw [List.getElem?_eq_none (outside above), Option.getD_none]
    · rfl

end Places

/-! ## Taking out what has been put back -/

section Splices

variable {line : Int → α} {low high : Int} {values : List α}

theorem stretch_splice (fits : values.length = (high - low).toNat) :
    stretch (splice line low values) low high = values := by
  apply List.ext_getElem
  · rw [length_stretch, fits]
  · intro i _ inside
    have here : low ≤ low + (i : Int) := by omega
    have place : (low + (i : Int) - low).toNat = i := by omega
    rw [getElem_stretch, splice, if_pos here, place,
      List.getElem?_eq_getElem inside, Option.getD_some]

theorem splice_splice {first : List α} (same : first.length = values.length) :
    splice (splice line low first) low values = splice line low values := by
  funext i
  unfold splice
  split
  · by_cases inside : (i - low).toNat < values.length
    · rw [List.getElem?_eq_getElem inside, Option.getD_some, Option.getD_some]
    · rw [List.getElem?_eq_none (by omega), List.getElem?_eq_none (by omega),
        Option.getD_none, Option.getD_none]
  · rfl

end Splices

section Lists

variable {count : Nat} {values : List α} (fill : α)

theorem deleteFront_of_le (short : values.length ≤ count) :
    deleteFront count fill values = List.replicate values.length fill := by
  rw [deleteFront, List.drop_eq_nil_of_le short, min_eq_right short,
    List.nil_append]

theorem insertFront_of_le (short : values.length ≤ count) :
    insertFront count fill values = List.replicate values.length fill := by
  rw [insertFront, List.take_append_of_le_length
    (by rwa [List.length_replicate]), List.take_replicate, min_eq_left short]

/-- What is pushed out by an insertion is lost. -/
theorem deleteFront_insertFront (count : Nat) (values : List α) :
    deleteFront count fill (insertFront count fill values) =
      values.take (values.length - count) ++
        List.replicate (min count values.length) fill := by
  rw [deleteFront, length_insertFront]
  congr 1
  rw [insertFront, List.drop_take, List.drop_left' (List.length_replicate ..)]

end Lists

end Pspssh.Data
