import Pspssh.Data.Loop
import Pspssh.Screen.Drawing

namespace Pspssh.Screen

open Pspssh.Data

/-! The log that is shown while the application starts. -/

structure Console where
  cells : Int → Int → UInt8
  colours : Int → Int → UInt32
  cursorCol : Int
  cursorRow : Int
  pen : UInt32
  ready : Bool

namespace Console

def initial : Console where
  cells := fun _ _ => 0
  colours := fun _ _ => 0
  cursorCol := 0
  cursorRow := 0
  pen := gfxWhite
  ready := false

/-- `cells[row][col] = ch` and `colours[row][col] = colour`. -/
def setCell (row col : Int) (ch : UInt8) (colour : UInt32) (log : Console) :
    Console :=
  { log with
    cells := fun r c => if r = row ∧ c = col then ch else log.cells r c
    colours := fun r c =>
      if r = row ∧ c = col then colour else log.colours r c }

def blankRow (row : Int) (log : Console) : Console :=
  forUp 0 gfxCols (fun col => setCell row col 0x20 gfxWhite) log

def reset (log : Console) : Console :=
  { forUp 0 gfxRows (fun row => blankRow row) log with
    cursorCol := 0, cursorRow := 0, pen := gfxWhite, ready := true }

/-- Both `memcpy` calls of `scroll_up`. -/
def copyRow (target source : Int) (log : Console) : Console :=
  { log with
    cells := fun r c =>
      if r = target ∧ 0 ≤ c ∧ c < gfxCols then log.cells source c
      else log.cells r c
    colours := fun r c =>
      if r = target ∧ 0 ≤ c ∧ c < gfxCols then log.colours source c
      else log.colours r c }

def scrollUp (log : Console) : Console :=
  (forUp 0 (gfxRows - 1) (fun row => copyRow row (row + 1)) log).blankRow
    (gfxRows - 1)

def newline (log : Console) : Console :=
  let moved := { log with cursorCol := 0, cursorRow := log.cursorRow + 1 }
  if moved.cursorRow ≥ gfxRows then
    { moved with cursorRow := gfxRows - 1 }.scrollUp
  else moved

/-- A character at the cursor, in the colour of the pen. -/
def write (ch : UInt8) (log : Console) : Console :=
  { log.setCell log.cursorRow log.cursorCol ch log.pen with
    cursorCol := log.cursorCol + 1 }

/-- The branch of `put` for a tab. Its loop makes eight passes at most. -/
def putTab (log : Console) : Console :=
  let next := (log.cursorCol + 8) / 8 * 8
  let filled :=
    whileLoop (fun state => state.cursorCol < next ∧ state.cursorCol < gfxCols)
      (write 0x20) 8 log
  if filled.cursorCol ≥ gfxCols then filled.newline else filled

/-- The branch of `put` for any other character. -/
def putGlyph (ch : UInt8) (log : Console) : Console :=
  (if log.cursorCol ≥ gfxCols then log.newline else log).write ch

def put (log : Console) (ch : UInt8) : Console :=
  if ch = 0x0a then log.newline
  else if ch = 0x0d then { log with cursorCol := 0 }
  else if ch = 0x09 then log.putTab
  else log.putGlyph ch

def render (log : Console) : List Drawing :=
  if log.ready then
    (List.range gfxRows.toNat).flatMap fun (row : Nat) =>
      (List.range gfxCols.toNat).map fun (col : Nat) =>
        .glyph col row (log.cells row col) (log.colours row col) gfxBlack
  else []

/-- `sizeof(text)` in `console_printf`. -/
abbrev textSize : Nat := 80 * 22 * 2

/-- `console_printf`, given what its format and arguments come to: the state
it leaves and what it draws. -/
def printf (formatted : List UInt8) (log : Console) : Console × List Drawing :=
  let log := if log.ready then log else log.reset
  let log := (copyField textSize formatted).text.foldl put log
  (log, [.clear gfxBlack] ++ log.render ++ [.flip])

def printAll (texts : List (List UInt8)) (log : Console) : Console :=
  texts.foldl (fun log text => (log.printf text).1) log

/-! ## What the loops leave -/

def picture (log : Console) (r c : Int) : UInt8 × UInt32 :=
  (log.cells r c, log.colours r c)

@[simps] def withPicture (log : Console) (picture : Int → Int → UInt8 × UInt32) :
    Console :=
  { log with
    cells := fun r c => (picture r c).1
    colours := fun r c => (picture r c).2 }

@[simp] theorem picture_withPicture (log : Console)
    (picture : Int → Int → UInt8 × UInt32) :
    (log.withPicture picture).picture = picture := rfl

@[simp] theorem withPicture_withPicture (log : Console)
    (first second : Int → Int → UInt8 × UInt32) :
    (log.withPicture first).withPicture second = log.withPicture second := rfl

variable {log : Console}

theorem withPicture_congr {first second : Int → Int → UInt8 × UInt32}
    (same : ∀ r c, first r c = second r c) :
    log.withPicture first = log.withPicture second := by
  rw [funext fun r => funext fun c => same r c]

theorem eq_withPicture {picture : Int → Int → UInt8 × UInt32}
    (same : ∀ r c, picture r c = log.picture r c) :
    log = log.withPicture picture :=
  (withPicture_congr same).symm

theorem withPicture_ite (chosen : Int → Int → Prop)
    [∀ r c, Decidable (chosen r c)] (picture : Int → Int → UInt8 × UInt32) :
    (log.withPicture fun r c => if chosen r c then picture r c else log.picture r c) =
      { log with
        cells := fun r c => if chosen r c then (picture r c).1 else log.cells r c
        colours := fun r c =>
          if chosen r c then (picture r c).2 else log.colours r c } := by
  unfold withPicture
  congr 1
  · funext r c
    exact apply_ite Prod.fst _ _ _
  · funext r c
    exact apply_ite Prod.snd _ _ _

theorem setCell_eq (row col : Int) (ch : UInt8) (colour : UInt32) :
    log.setCell row col ch colour =
      log.withPicture fun r c =>
        if r = row ∧ c = col then (ch, colour) else log.picture r c := by
  rw [withPicture_ite]
  rfl

theorem copyRow_eq (target source : Int) :
    log.copyRow target source =
      log.withPicture fun r c =>
        if r = target ∧ 0 ≤ c ∧ c < gfxCols then log.picture source c
        else log.picture r c := by
  rw [withPicture_ite (fun r c => r = target ∧ 0 ≤ c ∧ c < gfxCols)
    fun _ c => log.picture source c]
  rfl

theorem blankRow_eq (row : Int) :
    log.blankRow row =
      log.withPicture fun r c =>
        if r = row ∧ 0 ≤ c ∧ c < gfxCols then (0x20, gfxWhite)
        else log.picture r c := by
  refine forUp_eq (fun i => log.withPicture fun r c =>
    if r = row ∧ 0 ≤ c ∧ c < i then (0x20, gfxWhite)
    else log.picture r c) ?_ ?_ ?_
  · apply eq_withPicture
    intro r c
    rw [if_neg (by omega)]
  · intro col reached more
    rw [setCell_eq, withPicture_withPicture, picture_withPicture]
    apply withPicture_congr
    intro r c
    grind
  · rfl

theorem blankRows_eq :
    forUp 0 gfxRows (fun row => blankRow row) log =
      log.withPicture fun r c =>
        if 0 ≤ r ∧ r < gfxRows ∧ 0 ≤ c ∧ c < gfxCols then (0x20, gfxWhite)
        else log.picture r c := by
  refine forUp_eq (fun i => log.withPicture fun r c =>
    if 0 ≤ r ∧ r < i ∧ 0 ≤ c ∧ c < gfxCols then (0x20, gfxWhite)
    else log.picture r c) ?_ ?_ ?_
  · apply eq_withPicture
    intro r c
    rw [if_neg (by omega)]
  · intro row reached more
    rw [blankRow_eq, withPicture_withPicture, picture_withPicture]
    apply withPicture_congr
    intro r c
    grind
  · rfl

theorem scrollUp_eq :
    log.scrollUp =
      log.withPicture fun r c =>
        if 0 ≤ r ∧ r < gfxRows ∧ 0 ≤ c ∧ c < gfxCols then
          if r + 1 < gfxRows then log.picture (r + 1) c else (0x20, gfxWhite)
        else log.picture r c := by
  have moved : forUp 0 (gfxRows - 1) (fun row => copyRow row (row + 1)) log =
      log.withPicture fun r c =>
        if 0 ≤ r ∧ r < gfxRows - 1 ∧ 0 ≤ c ∧ c < gfxCols then
          log.picture (r + 1) c
        else log.picture r c := by
    refine forUp_eq (fun i => log.withPicture fun r c =>
      if 0 ≤ r ∧ r < i ∧ 0 ≤ c ∧ c < gfxCols then log.picture (r + 1) c
      else log.picture r c) ?_ ?_ ?_
    · apply eq_withPicture
      intro r c
      rw [if_neg (by omega)]
    · intro row reached more
      rw [copyRow_eq, withPicture_withPicture, picture_withPicture]
      apply withPicture_congr
      intro r c
      grind
    · rfl
  have size : gfxRows = 22 := rfl
  rw [scrollUp, moved, blankRow_eq, withPicture_withPicture,
    picture_withPicture]
  apply withPicture_congr
  intro r c
  grind

/-! ## The cursor -/

/-- The cursor is on the grid, or behind the last cell of a row. -/
structure Fits (log : Console) : Prop where
  row_nonneg : 0 ≤ log.cursorRow
  row_lt : log.cursorRow < gfxRows
  col_nonneg : 0 ≤ log.cursorCol
  col_le : log.cursorCol ≤ gfxCols

theorem newline_eq (fits : Fits log) :
    log.newline =
      if log.cursorRow = gfxRows - 1 then
        { log with cursorCol := 0 }.scrollUp
      else { log with cursorCol := 0, cursorRow := log.cursorRow + 1 } := by
  have below := fits.row_lt
  unfold newline
  dsimp only
  by_cases last : log.cursorRow = gfxRows - 1
  · rw [if_pos last, if_pos (by omega), ← last]
  · rw [if_neg last, if_neg (by omega)]

namespace Fits

theorem reset (log : Console) : Fits log.reset := by
  unfold Console.reset
  constructor
  · exact Int.le_refl 0
  · exact (by decide : (0 : Int) < gfxRows)
  · exact Int.le_refl 0
  · exact (by decide : (0 : Int) ≤ gfxCols)

theorem newline (fits : Fits log) :
    Fits log.newline ∧ log.newline.cursorCol = 0 := by
  have above := fits.row_nonneg
  have below := fits.row_lt
  have wide : (0 : Int) ≤ gfxCols := by decide
  rw [newline_eq fits]
  split
  · rw [scrollUp_eq]
    exact ⟨⟨above, below, Int.le_refl 0, wide⟩, rfl⟩
  · refine ⟨⟨?_, ?_, Int.le_refl 0, wide⟩, rfl⟩
    · dsimp only
      omega
    · dsimp only
      omega

theorem write (fits : Fits log) (inside : log.cursorCol < gfxCols) (ch : UInt8) :
    Fits (log.write ch) :=
  ⟨fits.row_nonneg, fits.row_lt, Int.le_trans fits.col_nonneg (by
    change log.cursorCol ≤ log.cursorCol + 1
    omega), inside⟩

theorem putTab (fits : Fits log) : Fits log.putTab := by
  have filled : Fits (whileLoop (fun state =>
      state.cursorCol < (log.cursorCol + 8) / 8 * 8 ∧ state.cursorCol < gfxCols)
      (Console.write 0x20) 8 log) := by
    refine (whileLoop_invariant Fits
      (fun state => ((log.cursorCol + 8) / 8 * 8 - state.cursorCol).toNat)
      ?_ ?_ ?_ fits ?_).1
    · omega
    · intro state _ more
      have := (of_decide_eq_true more).1
      omega
    · intro state _ more
      have := (of_decide_eq_true more).1
      change ((log.cursorCol + 8) / 8 * 8 - (state.cursorCol + 1)).toNat < _
      omega
    · intro state reached more
      exact reached.write (of_decide_eq_true more).2 0x20
  unfold Console.putTab
  dsimp only
  split
  · exact filled.newline.1
  · exact filled

theorem put (fits : Fits log) (ch : UInt8) : Fits (log.put ch) := by
  unfold Console.put
  split
  · exact fits.newline.1
  split
  · exact { fits with
      col_nonneg := Int.le_refl 0
      col_le := (by decide : (0 : Int) ≤ gfxCols) }
  split
  · exact fits.putTab
  · unfold putGlyph
    split
    · obtain ⟨moved, start⟩ := fits.newline
      exact moved.write (by rw [start]; decide) ch
    · rename_i inside
      exact fits.write (by omega) ch

end Fits

end Console

end Pspssh.Screen
