import Pspssh.Data.Loop

namespace Pspssh.Data

/-! Pictures that lie in memory row by row, the loops that paint rectangles of
them, and pictures that are put together from tiles of one size. -/

/-- A place of a picture whose rows lie `stride` apart. -/
def pixelAt (base stride x y : Int) : Int :=
  base + y * stride + x

section Painting

variable {α : Type} {base stride x y x' y' low high : Int} {memory : Int → α}

theorem pixelAt_inj (inRow : 0 ≤ x ∧ x < stride) (inRow' : 0 ≤ x' ∧ x' < stride)
    (same : pixelAt base stride x y = pixelAt base stride x' y') :
    x = x' ∧ y = y' := by
  unfold pixelAt at same
  have shifted : (y - y') * stride = x' - x := by
    rw [Int.sub_mul]
    omega
  have narrow : -stride < (y - y') * stride ∧ (y - y') * stride < stride := by
    omega
  have level : y - y' = 0 := by
    by_contra other
    rcases Int.lt_or_gt_of_ne other with below | above
    · have := Int.mul_le_mul_of_nonneg_right (Int.le_sub_one_of_lt below)
        (inRow.1.trans inRow.2.le)
      omega
    · have := Int.mul_le_mul_of_nonneg_right (Int.add_one_le_of_lt above)
        (inRow.1.trans inRow.2.le)
      omega
  rw [level, Int.zero_mul] at shifted
  omega

/-- A loop that writes one place after another. -/
theorem forUp_update (value : Int → α) (base : Int) :
    forUp low high (fun i memory => Function.update memory (base + i) (value i))
        memory =
      fun place => if base + low ≤ place ∧ place < base + high then value (place - base)
        else memory place := by
  refine forUp_eq (fun i place => if base + low ≤ place ∧ place < base + i then
    value (place - base) else memory place) ?_ ?_ ?_
  · funext place
    rw [if_neg (by omega)]
  · intro i reached _
    funext place
    rw [Function.update_apply]
    split
    · rename_i here
      rw [here, if_pos (by omega)]
      congr 1
      omega
    · grind
  · funext place
    grind

/-- The loops that paint a rectangle, row by row. -/
def paintRect (base stride x0 y0 x1 y1 : Int) (value : Int → Int → α)
    (memory : Int → α) : Int → α :=
  forUp y0 y1 (fun y memory =>
    forUp x0 x1 (fun x memory =>
      Function.update memory (base + y * stride + x) (value x y)) memory) memory

variable {x0 y0 x1 y1 : Int} {value : Int → Int → α}

/-- What is painted is the rectangle and nothing else. -/
structure Painted (base stride x0 y0 x1 y1 : Int) (value : Int → Int → α)
    (memory after : Int → α) : Prop where
  picture : ∀ x y, 0 ≤ x → x < stride →
    after (pixelAt base stride x y) =
      if (x0 ≤ x ∧ x < x1) ∧ y0 ≤ y ∧ y < y1 then value x y
      else memory (pixelAt base stride x y)
  frame : ∀ place, (∀ x y, x0 ≤ x → x < x1 → y0 ≤ y → y < y1 →
    place ≠ pixelAt base stride x y) → after place = memory place

theorem Painted.row {after : Int → α} (inRow : 0 ≤ x0 ∧ x1 ≤ stride)
    (started : y0 ≤ y)
    (painted : Painted base stride x0 y0 x1 y value memory after) :
    Painted base stride x0 y0 x1 (y + 1) value memory
      (forUp x0 x1 (fun x memory =>
        Function.update memory (base + y * stride + x) (value x y)) after) := by
  rw [forUp_update (fun x => value x y)]
  constructor
  · intro x' y' lower upper
    have here : base + y * stride + x0 ≤ pixelAt base stride x' y' ∧
        pixelAt base stride x' y' < base + y * stride + x1 ↔
          (x0 ≤ x' ∧ x' < x1) ∧ y' = y := by
      constructor
      · intro among
        have written : pixelAt base stride x' y' = pixelAt base stride
            (pixelAt base stride x' y' - (base + y * stride)) y := by
          unfold pixelAt
          omega
        have same := pixelAt_inj ⟨lower, upper⟩ ⟨by omega, by omega⟩ written
        omega
      · rintro ⟨among, rfl⟩
        unfold pixelAt
        omega
    rw [if_congr here rfl rfl, painted.picture x' y' lower upper]
    split
    · rename_i among
      rw [if_pos (by omega), among.2]
      congr 1
      unfold pixelAt
      omega
    · rename_i aside
      exact if_congr (by omega) rfl rfl
  · intro place apart
    rw [if_neg, painted.frame place]
    · intro x' y' left right above below
      exact apart x' y' left right above (by omega)
    · intro among
      refine apart (place - (base + y * stride)) y (by omega) (by omega) started
        (by omega) ?_
      unfold pixelAt
      omega

theorem paintRect_painted (inRow : 0 ≤ x0 ∧ x1 ≤ stride) :
    Painted base stride x0 y0 x1 y1 value memory
      (paintRect base stride x0 y0 x1 y1 value memory) := by
  have run : y0 ≤ max y0 y1 ∧
      Painted base stride x0 y0 x1 (max y0 y1) value memory
        (paintRect base stride x0 y0 x1 y1 value memory) := by
    refine forUp_invariant (fun y after => y0 ≤ y ∧
      Painted base stride x0 y0 x1 y value memory after) ?_ ?_
    · refine ⟨Int.le_refl y0, fun x y _ _ => ?_, fun place _ => rfl⟩
      rw [if_neg (by omega)]
    · intro y after lower _ reached
      exact ⟨by omega, reached.2.row inRow lower⟩
  constructor
  · intro x y lower upper
    rw [run.2.picture x y lower upper]
    exact if_congr (by omega) rfl rfl
  · intro place apart
    refine run.2.frame place fun x y left right above below => ?_
    exact apart x y left right above (by omega)

end Painting

/-! ## Tiles -/

section Tiles

variable {size first count place : Int}

/-- A place is in one of `count` tiles exactly if the tile it is in is. -/
theorem in_tiles_iff (positive : 0 < size) :
    first * size ≤ place ∧ place < (first + count) * size ↔
      first ≤ place / size ∧ place / size < first + count := by
  rw [Int.le_ediv_iff_mul_le positive, Int.ediv_lt_iff_lt_mul positive]

theorem in_tile_iff (positive : 0 < size) {tile : Int} :
    tile * size ≤ place ∧ place < tile * size + size ↔ place / size = tile := by
  have one : tile * size + size = (tile + 1) * size := by
    rw [Int.add_mul, Int.one_mul]
  rw [one, in_tiles_iff positive]
  omega

end Tiles

end Pspssh.Data
