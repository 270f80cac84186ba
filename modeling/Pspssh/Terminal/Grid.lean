import Pspssh.Terminal.State

namespace Pspssh.Terminal

open Pspssh.Data

namespace Term

/-! The loops over the grid, and the grid each of them leaves. -/

@[simp] theorem blank_withGrid (term : Term) (grid : Int → Int → Cell) :
    (term.withGrid grid).blank = term.blank := rfl

theorem access_eq {inside : Prop} [Decidable inside] {term next : Term}
    (holds : inside) : access inside term next = next :=
  if_pos holds

theorem withGrid_congr {term : Term} {first second : Int → Int → Cell}
    (same : ∀ r c, first r c = second r c) :
    term.withGrid first = term.withGrid second := by
  rw [funext fun r => funext fun c => same r c]

theorem eq_withGrid {term : Term} {grid : Int → Int → Cell}
    (same : ∀ r c, grid r c = term.grid r c) : term = term.withGrid grid :=
  (withGrid_congr same).symm

theorem blankCell_eq {term : Term} {row col : Int} (inside : InGrid row col) :
    term.blankCell row col =
      term.withGrid fun r c =>
        if r = row ∧ c = col then term.blank else term.grid r c :=
  access_eq inside

theorem blankCells_eq {term : Term} {row low high : Int}
    (rowLower : 0 ≤ row) (rowUpper : row < termMaxRows)
    (lower : 0 ≤ low) (upper : high ≤ termMaxCols) :
    term.blankCells row low high =
      term.withGrid fun r c =>
        if r = row ∧ low ≤ c ∧ c < high then term.blank
        else term.grid r c := by
  refine forUp_eq (fun i => term.withGrid fun r c =>
    if r = row ∧ low ≤ c ∧ c < i then term.blank else term.grid r c) ?_ ?_ ?_
  · apply eq_withGrid
    intro r c
    rw [if_neg (by omega)]
  · intro col reached more
    rw [blankCell_eq ⟨rowLower, rowUpper, by omega, by omega⟩]
    simp only [blank_withGrid, withGrid_withGrid, withGrid_grid]
    apply withGrid_congr
    intro r c
    grind
  · apply withGrid_congr
    intro r c
    grind

theorem blankRow_eq {term : Term} {row : Int}
    (rowLower : 0 ≤ row) (rowUpper : row < termMaxRows)
    (narrow : term.cols ≤ termMaxCols) :
    term.blankRow row =
      term.withGrid fun r c =>
        if r = row ∧ 0 ≤ c ∧ c < term.cols then term.blank
        else term.grid r c :=
  blankCells_eq rowLower rowUpper (by omega) narrow

theorem blankRows_eq {term : Term} {low high : Int}
    (lower : 0 ≤ low) (upper : high ≤ termMaxRows)
    (narrow : term.cols ≤ termMaxCols) :
    term.blankRows low high =
      term.withGrid fun r c =>
        if low ≤ r ∧ r < high ∧ 0 ≤ c ∧ c < term.cols then term.blank
        else term.grid r c := by
  refine forUp_eq (fun i => term.withGrid fun r c =>
    if low ≤ r ∧ r < i ∧ 0 ≤ c ∧ c < term.cols then term.blank
    else term.grid r c) ?_ ?_ ?_
  · apply eq_withGrid
    intro r c
    rw [if_neg (by omega)]
  · intro row reached more
    rw [blankRow_eq (by omega) (by omega) (by exact narrow)]
    simp only [blank_withGrid, withGrid_withGrid, withGrid_grid, withGrid_cols]
    apply withGrid_congr
    intro r c
    grind
  · apply withGrid_congr
    intro r c
    grind

theorem copyRow_eq {term : Term} {target source : Int}
    (targetLower : 0 ≤ target) (targetUpper : target < termMaxRows)
    (sourceLower : 0 ≤ source) (sourceUpper : source < termMaxRows)
    (wide : 0 ≤ term.cols) (narrow : term.cols ≤ termMaxCols) :
    term.copyRow target source =
      term.withGrid fun r c =>
        if r = target ∧ 0 ≤ c ∧ c < term.cols then term.grid source c
        else term.grid r c :=
  access_eq ⟨⟨targetLower, targetUpper, by decide⟩,
    ⟨sourceLower, sourceUpper, by decide⟩, wide, narrow⟩

theorem copyCell_eq {term : Term} {row target source : Int}
    (inside : InGrid row target) (sourceInside : InGrid row source) :
    term.copyCell row target source =
      term.withGrid fun r c =>
        if r = row ∧ c = target then term.grid row source else term.grid r c :=
  access_eq ⟨inside, sourceInside⟩

/-! ## Scrolling -/

/-- One pass of the loop in `scroll_region_up`. -/
def scrollUpOnce (term : Term) : Term :=
  let moved :=
    forUp term.scrollTop term.scrollBottom (fun row => copyRow row (row + 1))
      term
  moved.blankRow moved.scrollBottom

def scrollRegionUp (lines : Int) (term : Term) : Term :=
  forUp 0 lines (fun _ => scrollUpOnce) term

/-- One pass of the loop in `scroll_region_down`. -/
def scrollDownOnce (term : Term) : Term :=
  let moved :=
    forDown term.scrollBottom term.scrollTop
      (fun row => copyRow row (row - 1)) term
  moved.blankRow moved.scrollTop

def scrollRegionDown (lines : Int) (term : Term) : Term :=
  forUp 0 lines (fun _ => scrollDownOnce) term

structure Scrollable (term : Term) : Prop where
  wide : 0 ≤ term.cols
  narrow : term.cols ≤ termMaxCols
  top_nonneg : 0 ≤ term.scrollTop
  top_le : term.scrollTop ≤ term.scrollBottom
  bottom_lt : term.scrollBottom < termMaxRows

/-- Row `r` of the region is covered by a scroll of the visible columns. -/
def InRegion (term : Term) (r c : Int) : Prop :=
  term.scrollTop ≤ r ∧ r ≤ term.scrollBottom ∧ 0 ≤ c ∧ c < term.cols

instance (term : Term) (r c : Int) : Decidable (term.InRegion r c) :=
  inferInstanceAs (Decidable (_ ∧ _))

theorem scrollUpOnce_eq {term : Term} (bounds : term.Scrollable) :
    term.scrollUpOnce =
      term.withGrid fun r c =>
        if term.InRegion r c then
          if r < term.scrollBottom then term.grid (r + 1) c else term.blank
        else term.grid r c := by
  obtain ⟨wide, narrow, topLower, topUpper, bottomUpper⟩ := bounds
  have moved : forUp term.scrollTop term.scrollBottom
      (fun row => copyRow row (row + 1)) term =
      term.withGrid fun r c =>
        if term.InRegion r c ∧ r < term.scrollBottom then term.grid (r + 1) c
        else term.grid r c := by
    refine forUp_eq (fun i => term.withGrid fun r c =>
      if term.InRegion r c ∧ r < i then term.grid (r + 1) c
      else term.grid r c) ?_ ?_ ?_
    · apply eq_withGrid
      intro r c
      rw [if_neg (by rintro ⟨inside, before⟩; have := inside.1; omega)]
    · intro row reached more
      rw [copyRow_eq (by omega) (by omega) (by omega) (by omega)
        (by exact wide) (by exact narrow)]
      simp only [withGrid_withGrid, withGrid_grid, withGrid_cols]
      apply withGrid_congr
      intro r c
      grind [InRegion]
    · rw [show max term.scrollTop term.scrollBottom = term.scrollBottom by
        omega]
  rw [scrollUpOnce, moved]
  simp only [withGrid_scrollBottom]
  rw [blankRow_eq (by omega) (by omega) (by exact narrow)]
  simp only [blank_withGrid, withGrid_withGrid, withGrid_grid, withGrid_cols]
  apply withGrid_congr
  intro r c
  grind [InRegion]

theorem scrollDownOnce_eq {term : Term} (bounds : term.Scrollable) :
    term.scrollDownOnce =
      term.withGrid fun r c =>
        if term.InRegion r c then
          if term.scrollTop < r then term.grid (r - 1) c else term.blank
        else term.grid r c := by
  obtain ⟨wide, narrow, topLower, topUpper, bottomUpper⟩ := bounds
  have moved : forDown term.scrollBottom term.scrollTop
      (fun row => copyRow row (row - 1)) term =
      term.withGrid fun r c =>
        if term.InRegion r c ∧ term.scrollTop < r then term.grid (r - 1) c
        else term.grid r c := by
    refine forDown_eq (fun i => term.withGrid fun r c =>
      if term.InRegion r c ∧ i < r then term.grid (r - 1) c
      else term.grid r c) ?_ ?_ ?_
    · apply eq_withGrid
      intro r c
      rw [if_neg (by rintro ⟨inside, after⟩; have := inside.2.1; omega)]
    · intro row reached more
      rw [copyRow_eq (by omega) (by omega) (by omega) (by omega)
        (by exact wide) (by exact narrow)]
      simp only [withGrid_withGrid, withGrid_grid, withGrid_cols]
      apply withGrid_congr
      intro r c
      grind [InRegion]
    · rw [show min term.scrollBottom term.scrollTop = term.scrollTop by omega]
  rw [scrollDownOnce, moved]
  simp only [withGrid_scrollTop]
  rw [blankRow_eq (by omega) (by omega) (by exact narrow)]
  simp only [blank_withGrid, withGrid_withGrid, withGrid_grid, withGrid_cols]
  apply withGrid_congr
  intro r c
  grind [InRegion]

theorem Scrollable.withGrid {term : Term} (bounds : term.Scrollable)
    (grid : Int → Int → Cell) : (term.withGrid grid).Scrollable :=
  ⟨bounds.wide, bounds.narrow, bounds.top_nonneg, bounds.top_le,
    bounds.bottom_lt⟩

theorem Scrollable.moveCursor {term : Term} (bounds : term.Scrollable)
    (col row : Int) :
    { term with cursorCol := col, cursorRow := row }.Scrollable :=
  ⟨bounds.wide, bounds.narrow, bounds.top_nonneg, bounds.top_le,
    bounds.bottom_lt⟩

/-- Scrolling up by `lines` moves the region as one block. -/
theorem scrollRegionUp_eq {term : Term} (bounds : term.Scrollable)
    {lines : Int} (forward : 0 ≤ lines) :
    term.scrollRegionUp lines =
      term.withGrid fun r c =>
        if term.InRegion r c then
          if r + lines ≤ term.scrollBottom then term.grid (r + lines) c
          else term.blank
        else term.grid r c := by
  refine forUp_eq (fun i => term.withGrid fun r c =>
    if term.InRegion r c then
      if r + i ≤ term.scrollBottom then term.grid (r + i) c else term.blank
    else term.grid r c) ?_ ?_ ?_
  · apply eq_withGrid
    intro r c
    grind [InRegion]
  · intro i reached more
    rw [scrollUpOnce_eq (bounds.withGrid _)]
    simp only [blank_withGrid, withGrid_withGrid, withGrid_grid, withGrid_cols,
      withGrid_scrollTop, withGrid_scrollBottom, InRegion]
    apply withGrid_congr
    intro r c
    grind
  · rw [show max 0 lines = lines by omega]

theorem scrollRegionDown_eq {term : Term} (bounds : term.Scrollable)
    {lines : Int} (forward : 0 ≤ lines) :
    term.scrollRegionDown lines =
      term.withGrid fun r c =>
        if term.InRegion r c then
          if term.scrollTop ≤ r - lines then term.grid (r - lines) c
          else term.blank
        else term.grid r c := by
  refine forUp_eq (fun i => term.withGrid fun r c =>
    if term.InRegion r c then
      if term.scrollTop ≤ r - i then term.grid (r - i) c else term.blank
    else term.grid r c) ?_ ?_ ?_
  · apply eq_withGrid
    intro r c
    grind [InRegion]
  · intro i reached more
    rw [scrollDownOnce_eq (bounds.withGrid _)]
    simp only [blank_withGrid, withGrid_withGrid, withGrid_grid, withGrid_cols,
      withGrid_scrollTop, withGrid_scrollBottom, InRegion]
    apply withGrid_congr
    intro r c
    grind
  · rw [show max 0 lines = lines by omega]

/-! ## Erasing and editing the cursor's row -/

/-- The sizes, the cursor, the saved cursor and the scroll region are in
range. -/
structure Geometry (term : Term) : Prop where
  cols_pos : 1 ≤ term.cols
  cols_le : term.cols ≤ termMaxCols
  rows_pos : 1 ≤ term.rows
  rows_le : term.rows ≤ termMaxRows
  cursorCol_nonneg : 0 ≤ term.cursorCol
  cursorCol_le : term.cursorCol ≤ term.cols
  cursorRow_nonneg : 0 ≤ term.cursorRow
  cursorRow_lt : term.cursorRow < term.rows
  savedCol_nonneg : 0 ≤ term.savedCol
  savedCol_le : term.savedCol ≤ term.cols
  savedRow_nonneg : 0 ≤ term.savedRow
  savedRow_lt : term.savedRow < term.rows
  scrollTop_nonneg : 0 ≤ term.scrollTop
  scrollTop_le : term.scrollTop ≤ term.scrollBottom
  scrollBottom_le : term.scrollBottom ≤ term.rows - 1

theorem Geometry.scrollable {term : Term} (geometry : term.Geometry) :
    term.Scrollable where
  wide := by have := geometry.cols_pos; omega
  narrow := geometry.cols_le
  top_nonneg := geometry.scrollTop_nonneg
  top_le := geometry.scrollTop_le
  bottom_lt := by
    have := geometry.scrollBottom_le
    have := geometry.rows_le
    omega

def eraseInDisplay (mode : Nat) (term : Term) : Term :=
  if mode = 2 ∨ mode = 3 then term.blankRows 0 term.rows
  else if mode = 1 then
    (term.blankRows 0 term.cursorRow).blankCells term.cursorRow 0
      (min (term.cursorCol + 1) term.cols)
  else
    (term.blankCells term.cursorRow term.cursorCol term.cols).blankRows
      (term.cursorRow + 1) term.rows

def eraseInLine (mode : Nat) (term : Term) : Term :=
  if mode = 1 then
    term.blankCells term.cursorRow 0 (min (term.cursorCol + 1) term.cols)
  else if mode = 2 then term.blankRow term.cursorRow
  else term.blankCells term.cursorRow term.cursorCol term.cols

def deleteChars (count : Int) (term : Term) : Term :=
  forUp term.cursorCol term.cols
    (fun col state =>
      if col + count < state.cols then
        state.copyCell state.cursorRow col (col + count)
      else state.blankCell state.cursorRow col)
    term

def insertChars (count : Int) (term : Term) : Term :=
  forDown (term.cols - 1) (term.cursorCol - 1)
    (fun col state =>
      if col - count ≥ state.cursorCol then
        state.copyCell state.cursorRow col (col - count)
      else state.blankCell state.cursorRow col)
    term

/-- `ESC[nX`: erase characters in place. -/
def eraseChars (count : Int) (term : Term) : Term :=
  term.blankCells term.cursorRow term.cursorCol
    (min term.cols (term.cursorCol + count))

def Visible (term : Term) (r c : Int) : Prop :=
  0 ≤ r ∧ r < term.rows ∧ 0 ≤ c ∧ c < term.cols

instance (term : Term) (r c : Int) : Decidable (term.Visible r c) :=
  inferInstanceAs (Decidable (_ ∧ _))

/-- The cells that `erase_in_display` clears: all of them, those up to the
cursor in reading order, or those from the cursor on. -/
def ErasedInDisplay (term : Term) (mode : Nat) (r c : Int) : Prop :=
  if mode = 2 ∨ mode = 3 then True
  else if mode = 1 then
    r < term.cursorRow ∨ r = term.cursorRow ∧ c ≤ term.cursorCol
  else term.cursorRow < r ∨ r = term.cursorRow ∧ term.cursorCol ≤ c

instance (term : Term) (mode : Nat) (r c : Int) :
    Decidable (term.ErasedInDisplay mode r c) := by
  unfold ErasedInDisplay
  infer_instance

/-- The cells of the cursor's row that `erase_in_line` clears. -/
def ErasedInLine (term : Term) (mode : Nat) (r c : Int) : Prop :=
  r = term.cursorRow ∧
    (if mode = 1 then c ≤ term.cursorCol
    else if mode = 2 then True
    else term.cursorCol ≤ c)

instance (term : Term) (mode : Nat) (r c : Int) :
    Decidable (term.ErasedInLine mode r c) := by
  unfold ErasedInLine
  infer_instance

theorem eraseInDisplay_eq {term : Term} (geometry : term.Geometry)
    (mode : Nat) :
    term.eraseInDisplay mode =
      term.withGrid fun r c =>
        if term.Visible r c ∧ term.ErasedInDisplay mode r c then term.blank
        else term.grid r c := by
  obtain ⟨wide, narrow, tall, short, _, colUpper, rowLower, rowUpper, _⟩ :=
    geometry
  unfold eraseInDisplay
  split
  · rename_i whole
    rw [blankRows_eq (by omega) (by omega) narrow]
    apply withGrid_congr
    intro r c
    grind [Visible, ErasedInDisplay]
  split
  · rename_i notWhole before
    rw [blankRows_eq (by omega) (by omega) narrow,
      blankCells_eq rowLower (by omega) (by omega) (by omega)]
    simp only [blank_withGrid, withGrid_withGrid, withGrid_grid]
    apply withGrid_congr
    intro r c
    grind [Visible, ErasedInDisplay]
  · rename_i notWhole notBefore
    rw [blankCells_eq rowLower (by omega) (by omega) narrow,
      blankRows_eq (by omega) (by omega) (by exact narrow)]
    simp only [blank_withGrid, withGrid_withGrid, withGrid_grid, withGrid_cols]
    apply withGrid_congr
    intro r c
    grind [Visible, ErasedInDisplay]

theorem eraseInLine_eq {term : Term} (geometry : term.Geometry) (mode : Nat) :
    term.eraseInLine mode =
      term.withGrid fun r c =>
        if term.Visible r c ∧ term.ErasedInLine mode r c then term.blank
        else term.grid r c := by
  obtain ⟨wide, narrow, tall, short, colLower, colUpper, rowLower, rowUpper,
    _⟩ := geometry
  have inRows : term.cursorRow < termMaxRows := by omega
  unfold eraseInLine
  split
  · rw [blankCells_eq rowLower inRows (by omega) (by omega)]
    apply withGrid_congr
    intro r c
    grind [Visible, ErasedInLine]
  split
  · rw [blankRow_eq rowLower inRows narrow]
    apply withGrid_congr
    intro r c
    grind [Visible, ErasedInLine]
  · rw [blankCells_eq rowLower inRows colLower narrow]
    apply withGrid_congr
    intro r c
    grind [Visible, ErasedInLine]

theorem deleteChars_eq {term : Term} (geometry : term.Geometry)
    {count : Int} (forward : 0 ≤ count) :
    term.deleteChars count =
      term.withGrid fun r c =>
        if r = term.cursorRow ∧ term.cursorCol ≤ c ∧ c < term.cols then
          if c + count < term.cols then term.grid r (c + count) else term.blank
        else term.grid r c := by
  obtain ⟨wide, narrow, tall, short, colLower, colUpper, rowLower, rowUpper,
    _⟩ := geometry
  have inside (c : Int) (lower : term.cursorCol ≤ c) (upper : c < term.cols) :
      InGrid term.cursorRow c :=
    ⟨rowLower, by omega, by omega, by omega⟩
  refine forUp_eq (fun i => term.withGrid fun r c =>
    if r = term.cursorRow ∧ term.cursorCol ≤ c ∧ c < i then
      if c + count < term.cols then term.grid r (c + count) else term.blank
    else term.grid r c) ?_ ?_ ?_
  · apply eq_withGrid
    intro r c
    grind
  · intro col reached more
    simp only [withGrid_cols, withGrid_cursorRow]
    split
    · rw [copyCell_eq (inside col reached more)
        (inside (col + count) (by omega) (by omega))]
      simp only [withGrid_withGrid, withGrid_grid]
      apply withGrid_congr
      intro r c
      grind
    · rw [blankCell_eq (inside col reached more)]
      simp only [blank_withGrid, withGrid_withGrid, withGrid_grid]
      apply withGrid_congr
      intro r c
      grind
  · rw [show max term.cursorCol term.cols = term.cols by omega]

theorem insertChars_eq {term : Term} (geometry : term.Geometry)
    {count : Int} (forward : 0 ≤ count) :
    term.insertChars count =
      term.withGrid fun r c =>
        if r = term.cursorRow ∧ term.cursorCol ≤ c ∧ c < term.cols then
          if term.cursorCol ≤ c - count then term.grid r (c - count)
          else term.blank
        else term.grid r c := by
  obtain ⟨wide, narrow, tall, short, colLower, colUpper, rowLower, rowUpper,
    _⟩ := geometry
  have inside (c : Int) (lower : term.cursorCol ≤ c) (upper : c < term.cols) :
      InGrid term.cursorRow c :=
    ⟨rowLower, by omega, by omega, by omega⟩
  refine forDown_eq (fun i => term.withGrid fun r c =>
    if r = term.cursorRow ∧ i < c ∧ c < term.cols then
      if term.cursorCol ≤ c - count then term.grid r (c - count)
      else term.blank
    else term.grid r c) ?_ ?_ ?_
  · apply eq_withGrid
    intro r c
    grind
  · intro col reached more
    simp only [withGrid_cursorCol, withGrid_cursorRow, ge_iff_le]
    split
    · rw [copyCell_eq (inside col (by omega) (by omega))
        (inside (col - count) (by omega) (by omega))]
      simp only [withGrid_withGrid, withGrid_grid]
      apply withGrid_congr
      intro r c
      grind
    · rw [blankCell_eq (inside col (by omega) (by omega))]
      simp only [blank_withGrid, withGrid_withGrid, withGrid_grid]
      apply withGrid_congr
      intro r c
      grind
  · rw [show min (term.cols - 1) (term.cursorCol - 1) = term.cursorCol - 1 by
      omega]
    apply withGrid_congr
    intro r c
    grind

theorem eraseChars_eq {term : Term} (geometry : term.Geometry) (count : Int) :
    term.eraseChars count =
      term.withGrid fun r c =>
        if r = term.cursorRow ∧ term.cursorCol ≤ c ∧
            c < min term.cols (term.cursorCol + count) then term.blank
        else term.grid r c := by
  obtain ⟨wide, narrow, tall, short, colLower, colUpper, rowLower, rowUpper,
    _⟩ := geometry
  exact blankCells_eq rowLower (by omega) colLower (by omega)

end Term

/-! ## Resetting -/

/-- A cell cleared with the pen that `term_reset` sets. -/
def defaultBlank : Cell where
  ch := 0x20
  fg := 7
  bg := 0

theorem sizeWithin_pos {limit : Int} (size : Int) (positive : 1 ≤ limit) :
    1 ≤ sizeWithin limit size := by
  unfold sizeWithin
  split <;> omega

theorem sizeWithin_le (limit size : Int) : sizeWithin limit size ≤ limit := by
  unfold sizeWithin
  split <;> omega

theorem sizeWithin_of_mem {limit size : Int} (positive : 1 ≤ size)
    (small : size ≤ limit) : sizeWithin limit size = size :=
  if_pos ⟨by omega, small⟩

/-- A reset sets every variable but `params` and the cells to the right of the
new width. -/
theorem termReset_eq (c r : Int) (term : Term) :
    termReset c r term =
      { term with
        grid := fun row col =>
          if 0 ≤ row ∧ row < termMaxRows ∧ 0 ≤ col ∧
              col < sizeWithin termMaxCols c then defaultBlank
          else term.grid row col
        cols := sizeWithin termMaxCols c, rows := sizeWithin termMaxRows r
        cursorCol := 0, cursorRow := 0, savedCol := 0, savedRow := 0
        scrollTop := 0, scrollBottom := sizeWithin termMaxRows r - 1
        pen := defaultPen, state := .ground
        paramCount := 0, paramSeen := false, privateMarker := 0
        bellRang := false } := by
  unfold termReset
  dsimp only
  rw [Term.blankRows_eq (Int.le_refl 0) (Int.le_refl termMaxRows)
    (sizeWithin_le termMaxCols c)]
  rfl

end Pspssh.Terminal
