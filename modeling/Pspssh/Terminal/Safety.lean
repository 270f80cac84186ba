import Pspssh.Terminal.Feed

namespace Pspssh.Terminal

open Pspssh.Data

/-- A cell that can be drawn: a printable byte in colours of the palette. -/
structure Cell.Drawable (cell : Cell) : Prop where
  ch_ge : 0x20 ≤ cell.ch
  ch_ne : cell.ch ≠ 0x7f
  fg_le : cell.fg ≤ 15
  bg_le : cell.bg ≤ 15

theorem defaultBlank_drawable : defaultBlank.Drawable := by
  constructor <;> decide

namespace Term

/-- What holds of the terminal between any two bytes. -/
structure Safe (term : Term) : Prop extends term.Geometry where
  paramCount_le : term.paramCount ≤ maxParams
  params_le : ∀ i, term.params i ≤ 9999
  penFg_le : term.pen.fg ≤ 15
  penBg_le : term.pen.bg ≤ 15
  cells : ∀ r c, term.Visible r c → (term.grid r c).Drawable
  inBounds : term.outOfBounds = false

theorem colour_le {pen : Nat} (small : pen ≤ 15) : pen.toUInt8 ≤ 15 := by
  rw [UInt8.le_iff_toNat_le]
  simp only [Nat.toUInt8_eq, UInt8.toNat_ofNat', UInt8.reduceToNat]
  omega

namespace Safe

variable {term : Term}

theorem brightFg_le (safe : Safe term) : term.brightFg ≤ 15 := by
  have := safe.penFg_le
  unfold brightFg
  split
  · have bound : term.pen.fg ||| 8 < 2 ^ 4 :=
      Nat.or_lt_two_pow (by omega) (by decide)
    omega
  · exact this

theorem blank_drawable (safe : Safe term) : term.blank.Drawable where
  ch_ge := show (0x20 : UInt8) ≤ 0x20 by decide
  ch_ne := show (0x20 : UInt8) ≠ 0x7f by decide
  fg_le := colour_le (by decide)
  bg_le := by
    apply colour_le
    split
    · exact safe.penFg_le
    · exact safe.penBg_le

theorem inked_drawable (safe : Safe term) {ch : UInt8}
    (lower : 0x20 ≤ ch) (upper : ch ≠ 0x7f) : (term.inked ch).Drawable where
  ch_ge := lower
  ch_ne := upper
  fg_le := by
    apply colour_le
    split
    · exact safe.penBg_le
    · exact safe.brightFg_le
  bg_le := by
    apply colour_le
    split
    · exact safe.brightFg_le
    · exact safe.penBg_le

theorem withGrid (safe : Safe term) {grid : Int → Int → Cell}
    (drawable : ∀ r c, term.Visible r c → (grid r c).Drawable) :
    Safe (term.withGrid grid) :=
  { safe with cells := drawable }

theorem moveCursor (safe : Safe term) {col row : Int}
    (colLower : 0 ≤ col) (colUpper : col ≤ term.cols)
    (rowLower : 0 ≤ row) (rowUpper : row < term.rows) :
    Safe { term with cursorCol := col, cursorRow := row } :=
  { safe with
    cursorCol_nonneg := colLower, cursorCol_le := colUpper
    cursorRow_nonneg := rowLower, cursorRow_lt := rowUpper }

theorem withState (safe : Safe term) (state : ParserState) :
    Safe { term with state := state } :=
  { safe with }

theorem withPen (safe : Safe term) {pen : Pen}
    (fgUpper : pen.fg ≤ 15) (bgUpper : pen.bg ≤ 15) :
    Safe { term with pen := pen } :=
  { safe with penFg_le := fgUpper, penBg_le := bgUpper }

/-! ## The grid operations -/

theorem moved (safe : Safe term) {inside kept : Int → Int → Prop}
    [∀ r c, Decidable (inside r c)] [∀ r c, Decidable (kept r c)]
    (row col : Int → Int → Int)
    (within : ∀ r c, term.Visible r c → inside r c → kept r c →
      term.Visible (row r c) (col r c)) :
    Safe (term.withGrid fun r c =>
      if inside r c then
        if kept r c then term.grid (row r c) (col r c) else term.blank
      else term.grid r c) := by
  apply safe.withGrid
  intro r c visible
  split
  · rename_i covered
    split
    · rename_i stays
      exact safe.cells _ _ (within r c visible covered stays)
    · exact safe.blank_drawable
  · exact safe.cells r c visible

theorem visible_up (safe : Safe term) {r c lines : Int} (forward : 0 ≤ lines)
    (visible : term.Visible r c) (kept : r + lines ≤ term.scrollBottom) :
    term.Visible (r + lines) c := by
  obtain ⟨above, _, columns⟩ := visible
  have := safe.scrollBottom_le
  exact ⟨by omega, by omega, columns⟩

theorem visible_down {r c lines top : Int} (forward : 0 ≤ lines)
    (visible : term.Visible r c) (lower : 0 ≤ top) (kept : top ≤ r - lines) :
    term.Visible (r - lines) c := by
  obtain ⟨_, below, columns⟩ := visible
  exact ⟨by omega, by omega, columns⟩

theorem visible_left {r c count : Int} (forward : 0 ≤ count)
    (visible : term.Visible r c) (kept : c + count < term.cols) :
    term.Visible r (c + count) := by
  obtain ⟨above, below, left, _⟩ := visible
  exact ⟨above, below, by omega, kept⟩

theorem visible_right (safe : Safe term) {r c count : Int} (forward : 0 ≤ count)
    (visible : term.Visible r c) (kept : term.cursorCol ≤ c - count) :
    term.Visible r (c - count) := by
  obtain ⟨above, below, _, right⟩ := visible
  have := safe.cursorCol_nonneg
  exact ⟨above, below, by omega, by omega⟩

theorem scrollRegionUp (safe : Safe term) {lines : Int}
    (forward : 0 ≤ lines) : Safe (term.scrollRegionUp lines) := by
  rw [scrollRegionUp_eq safe.scrollable forward]
  apply safe.moved (fun r _ => r + lines) fun _ c => c
  exact fun r c visible _ => safe.visible_up forward visible

theorem scrollRegionDown (safe : Safe term) {lines : Int}
    (forward : 0 ≤ lines) : Safe (term.scrollRegionDown lines) := by
  rw [scrollRegionDown_eq safe.scrollable forward]
  apply safe.moved (fun r _ => r - lines) fun _ c => c
  exact fun r c visible _ => visible_down forward visible safe.scrollTop_nonneg

theorem blanked (safe : Safe term) {erased : Int → Int → Prop}
    [∀ r c, Decidable (erased r c)] :
    Safe (term.withGrid fun r c =>
      if erased r c then term.blank else term.grid r c) := by
  apply safe.withGrid
  intro r c visible
  split
  · exact safe.blank_drawable
  · exact safe.cells r c visible

theorem eraseInDisplay (safe : Safe term) (mode : Nat) :
    Safe (term.eraseInDisplay mode) := by
  rw [eraseInDisplay_eq safe.toGeometry]
  exact safe.blanked

theorem eraseInLine (safe : Safe term) (mode : Nat) :
    Safe (term.eraseInLine mode) := by
  rw [eraseInLine_eq safe.toGeometry]
  exact safe.blanked

theorem eraseChars (safe : Safe term) (count : Int) :
    Safe (term.eraseChars count) := by
  rw [eraseChars_eq safe.toGeometry]
  exact safe.blanked

theorem deleteChars (safe : Safe term) {count : Int} (forward : 0 ≤ count) :
    Safe (term.deleteChars count) := by
  rw [deleteChars_eq safe.toGeometry forward]
  apply safe.moved (fun r _ => r) fun _ c => c + count
  exact fun r c visible _ => visible_left forward visible

theorem insertChars (safe : Safe term) {count : Int} (forward : 0 ≤ count) :
    Safe (term.insertChars count) := by
  rw [insertChars_eq safe.toGeometry forward]
  apply safe.moved (fun r _ => r) fun _ c => c - count
  exact fun r c visible _ => safe.visible_right forward visible

/-! ## Writing -/

theorem lineFeed (safe : Safe term) : Safe term.lineFeed := by
  unfold Term.lineFeed
  split
  · exact safe.scrollRegionUp (by decide)
  split
  · have := safe.cursorRow_nonneg
    exact safe.moveCursor safe.cursorCol_nonneg safe.cursorCol_le (by omega)
      (by omega)
  · exact safe

theorem returned (safe : Safe term) : Safe { term with cursorCol := 0 } :=
  safe.moveCursor (Int.le_refl 0)
    ((Int.zero_le_ofNat 1).trans safe.cols_pos) safe.cursorRow_nonneg
    safe.cursorRow_lt

theorem wrap (safe : Safe term) : Safe term.wrap := by
  unfold Term.wrap
  split
  · exact safe.returned.lineFeed
  · exact safe

theorem inGrid (safe : Safe term) (before : term.cursorCol < term.cols) :
    InGrid term.cursorRow term.cursorCol := by
  have := safe.rows_le
  have := safe.cols_le
  have := safe.cursorRow_lt
  exact ⟨safe.cursorRow_nonneg, by omega, safe.cursorCol_nonneg, by omega⟩

theorem putChar (safe : Safe term) {ch : UInt8}
    (lower : 0x20 ≤ ch) (upper : ch ≠ 0x7f) : Safe (term.putChar ch) := by
  have wrapped := safe.wrap
  have before := wrap_cursorCol_lt safe.scrollable safe.cols_pos
  rw [putChar_eq ch (wrapped.inGrid before)]
  have drawn : Safe (term.wrap.withGrid fun r c =>
      if r = term.wrap.cursorRow ∧ c = term.wrap.cursorCol then
        term.wrap.inked ch
      else term.wrap.grid r c) := by
    apply wrapped.withGrid
    intro r c visible
    split
    · exact wrapped.inked_drawable lower upper
    · exact wrapped.cells r c visible
  have := wrapped.cursorCol_nonneg
  exact drawn.moveCursor (by omega) (by exact before) wrapped.cursorRow_nonneg
    wrapped.cursorRow_lt

theorem tab (safe : Safe term) : Safe term.tab :=
  (tab_invariant Safe safe fun _ reached _ =>
    reached.putChar (by decide) (by decide)).1

/-! ## Control sequences -/

theorem clampCursor (safe : Safe term) (col row : Int) :
    Safe { term with cursorCol := col, cursorRow := row }.clampCursor := by
  have := safe.cols_pos
  have := safe.rows_pos
  unfold Term.clampCursor
  dsimp only
  apply safe.moveCursor <;> grind

theorem foldColour_le (colour : Nat) : foldColour colour ≤ 15 := by
  unfold foldColour
  split
  · split <;> omega
  · omega

def InTable (pen : Pen) : Prop :=
  pen.fg ≤ 15 ∧ pen.bg ≤ 15

theorem InTable.ite {test : Prop} [Decidable test] {pen other : Pen}
    (yes : test → InTable pen) (no : ¬ test → InTable other) :
    InTable (if test then pen else other) :=
  iteInduction yes no

theorem applySgrOne_inTable {pen : Pen} (inTable : InTable pen) (p : Nat) :
    InTable (applySgrOne p pen) := by
  obtain ⟨fgUpper, bgUpper⟩ := inTable
  unfold applySgrOne
  refine .ite (fun _ => ⟨by decide, by decide⟩) fun _ => ?_
  -- bold and reverse leave the colours
  iterate 4 refine .ite (fun _ => ⟨fgUpper, bgUpper⟩) fun _ => ?_
  refine .ite (fun _ => ⟨show p - 30 ≤ 15 by omega, bgUpper⟩) fun _ => ?_
  refine .ite (fun _ => ⟨show defaultFg ≤ 15 by decide, bgUpper⟩) fun _ => ?_
  refine .ite (fun _ => ⟨fgUpper, show p - 40 ≤ 15 by omega⟩) fun _ => ?_
  refine .ite (fun _ => ⟨fgUpper, show defaultBg ≤ 15 by decide⟩) fun _ => ?_
  refine .ite (fun _ => ⟨show p - 90 + 8 ≤ 15 by omega, bgUpper⟩) fun _ => ?_
  refine .ite (fun _ => ⟨fgUpper, show p - 100 + 8 ≤ 15 by omega⟩) fun _ => ?_
  exact ⟨fgUpper, bgUpper⟩

theorem applySgrAt (safe : Safe term) {i : Nat}
    (inside : i < term.paramCount) : Safe (term.applySgrAt i).1 := by
  have counted := safe.paramCount_le
  unfold Term.applySgrAt
  rw [readParam_eq (by omega)]
  dsimp only
  split
  · rw [readParam_eq (by omega)]
    split
    · rw [readParam_eq (by omega)]
      have folded := foldColour_le (term.params (i + 2))
      split
      · exact safe.withPen folded safe.penBg_le
      · exact safe.withPen safe.penFg_le folded
    · exact safe
  · have coloured : InTable (applySgrOne (term.params i) term.pen) :=
      applySgrOne_inTable ⟨safe.penFg_le, safe.penBg_le⟩ (term.params i)
    exact safe.withPen coloured.1 coloured.2

theorem applySgr (safe : Safe term) : Safe term.applySgr := by
  unfold Term.applySgr
  dsimp only
  apply applySgrFrom_invariant Safe (fun state i safe => safe.applySgrAt)
  split
  · rw [writeParam_eq 0 (by decide)]
    have counted : 1 ≤ maxParams := by decide
    refine { safe with paramCount_le := counted, params_le := ?_ }
    intro i
    dsimp only
    split
    · omega
    · exact safe.params_le i
  · exact safe

theorem insertLines (safe : Safe term) : Safe term.insertLines := by
  have count := term.paramAt_ge 0 (Int.le_refl 1)
  rw [insertLines_eq safe.toGeometry]
  apply safe.moved (fun r _ => r - term.paramAt 0 1) fun _ c => c
  exact fun r c visible _ => visible_down (Int.le_of_lt count) visible
    safe.cursorRow_nonneg

theorem deleteLines (safe : Safe term) : Safe term.deleteLines := by
  have count := term.paramAt_ge 0 (Int.le_refl 1)
  rw [deleteLines_eq safe.toGeometry]
  apply safe.moved (fun r _ => r + term.paramAt 0 1) fun _ c => c
  exact fun r c visible _ => safe.visible_up (Int.le_of_lt count) visible

theorem withRegion (safe : Safe term) {top bottom : Int} (lower : 0 ≤ top)
    (ordered : top ≤ bottom) (upper : bottom ≤ term.rows - 1) :
    Safe (term.withRegion top bottom) :=
  { safe with
    scrollTop_nonneg := lower
    scrollTop_le := ordered
    scrollBottom_le := upper
    cursorCol_nonneg := Int.le_refl 0
    cursorCol_le := show 0 ≤ term.cols by have := safe.cols_pos; omega
    cursorRow_nonneg := lower
    cursorRow_lt := show top < term.rows by omega }

theorem setScrollRegion (safe : Safe term) : Safe term.setScrollRegion := by
  have := safe.rows_pos
  unfold Term.setScrollRegion
  dsimp only
  generalize (if term.paramCount > 1 then _ else _) = bottom
  split
  · exact safe.withRegion (Int.le_refl 0) (by omega) (Int.le_refl _)
  · rename_i valid
    exact safe.withRegion (by omega) (by omega) (by omega)

theorem dispatchCsi (safe : Safe term) (final : UInt8) :
    Safe (term.dispatchCsi final) := by
  have count : 0 ≤ term.paramAt 0 1 := by
    have := term.paramAt_ge 0 (Int.le_refl 1)
    omega
  unfold Term.dispatchCsi
  split
  -- the ten cursor movements, each clamped
  iterate 10 exact safe.clampCursor _ _
  · exact safe.eraseInDisplay _
  · exact safe.eraseInLine _
  · exact safe.insertLines
  · exact safe.deleteLines
  · exact safe.deleteChars count
  · exact safe.insertChars count
  · exact safe.scrollRegionUp count
  · exact safe.scrollRegionDown count
  · exact safe.eraseChars _
  · exact safe.applySgr
  · exact safe.setScrollRegion
  · exact { safe with
      savedCol_nonneg := safe.cursorCol_nonneg
      savedCol_le := safe.cursorCol_le
      savedRow_nonneg := safe.cursorRow_nonneg
      savedRow_lt := safe.cursorRow_lt }
  · exact safe.clampCursor _ _
  · exact safe

/-! ## The parser -/

theorem feedGround (safe : Safe term) (ch : UInt8) :
    Safe (term.feedGround ch) := by
  unfold Term.feedGround
  split
  · exact safe.withState _
  split
  · exact safe.lineFeed
  split
  · exact safe.returned
  split
  · split
    · have := safe.cursorCol_le
      exact safe.moveCursor (by omega) (by omega) safe.cursorRow_nonneg
        safe.cursorRow_lt
    · exact safe
  split
  · exact safe.tab
  split
  · exact { safe with }
  split
  · rename_i printable
    exact safe.putChar printable.1 printable.2
  · exact safe

theorem reverseIndex (safe : Safe term) : Safe term.reverseIndex := by
  unfold Term.reverseIndex
  split
  · exact safe.scrollRegionDown (by decide)
  split
  · have := safe.cursorRow_lt
    exact safe.moveCursor safe.cursorCol_nonneg safe.cursorCol_le (by omega)
      (by omega)
  · exact safe

theorem termReset (c r : Int) (inBounds : term.outOfBounds = false)
    (params : ∀ i, term.params i ≤ 9999) : Safe (termReset c r term) := by
  have cols := sizeWithin_pos c (by decide : 1 ≤ termMaxCols)
  have rows := sizeWithin_pos r (by decide : 1 ≤ termMaxRows)
  have short := sizeWithin_le termMaxRows r
  have narrow := sizeWithin_le termMaxCols c
  rw [termReset_eq]
  constructor
  · constructor <;> dsimp only <;> omega
  · exact Nat.zero_le _
  · exact params
  · exact (by decide : 7 ≤ 15)
  · exact (by decide : 0 ≤ 15)
  · intro row col inside
    obtain ⟨rowLower, rowUpper, colLower, colUpper⟩ := inside
    dsimp only at rowUpper colUpper ⊢
    rw [if_pos ⟨rowLower, by omega, colLower, colUpper⟩]
    exact defaultBlank_drawable
  · exact inBounds

theorem feedSawEsc (safe : Safe term) (ch : UInt8) :
    Safe (term.feedSawEsc ch) := by
  unfold Term.feedSawEsc
  split
  · exact { safe with
      paramCount_le := Nat.zero_le _
      params_le := fun _ => Nat.zero_le _ }
  · exact safe.withState _
  iterate 4 exact safe.withState _
  · exact safe.reverseIndex.withState _
  · exact safe.lineFeed.withState _
  · exact safe.returned.lineFeed.withState _
  · exact Safe.termReset _ _ safe.inBounds safe.params_le
  · exact safe.withState _

theorem feedDigit (safe : Safe term) (digit : Nat) :
    Safe (term.feedDigit digit) := by
  have counted := safe.paramCount_le
  have room : 1 ≤ maxParams := by decide
  rw [feedDigit_eq digit counted]
  refine { safe with paramCount_le := ?_, params_le := ?_ }
  · dsimp only
    omega
  · intro i
    have := safe.params_le i
    dsimp only
    split <;> omega

theorem feedSemicolon (safe : Safe term) : Safe term.feedSemicolon := by
  have := safe.paramCount_le
  refine { safe with paramCount_le := ?_ }
  change (if term.paramCount < maxParams then _ else _) ≤ maxParams
  split <;> omega

theorem feedInCsi (safe : Safe term) (ch : UInt8) :
    Safe (term.feedInCsi ch) := by
  unfold Term.feedInCsi
  split
  · exact safe.feedDigit _
  split
  · exact safe.feedSemicolon
  split
  · exact { safe with }
  split
  · exact (safe.dispatchCsi ch).withState _
  · exact safe

theorem feedInOsc (safe : Safe term) (ch : UInt8) :
    Safe (term.feedInOsc ch) := by
  unfold Term.feedInOsc
  split
  · exact safe.withState _
  split
  · exact safe.withState _
  · exact safe

theorem feedByte (safe : Safe term) (ch : UInt8) : Safe (term.feedByte ch) := by
  unfold Term.feedByte
  split
  · exact safe.feedGround ch
  · exact safe.feedSawEsc ch
  · exact safe.feedInCsi ch
  · exact safe.feedInOsc ch
  · exact safe.withState _
  · exact safe.withState _

theorem termFeed (safe : Safe term) (data : List UInt8) :
    Safe (termFeed data term) :=
  List.foldlRecOn data Term.feedByte safe fun _ reached ch _ =>
    reached.feedByte ch

theorem run (safe : Safe term) (call : TermCall) : Safe (call.run term) := by
  cases call with
  | reset c r => exact Safe.termReset c r safe.inBounds safe.params_le
  | feed data => exact safe.termFeed data
  | takeBell => exact { safe with }

theorem fresh (c r : Int) : Safe (Terminal.termReset c r initial) :=
  Safe.termReset c r rfl fun _ => Nat.zero_le _

theorem runCalls (safe : Safe term) (calls : List TermCall) :
    Safe (runCalls calls term) :=
  List.foldlRecOn calls TermCall.run safe fun _ reached call _ =>
    reached.run call

end Safe

end Term

/-- However the first reset is sized and whatever is called after it, the
terminal is in a safe state: its variables are in range, what it shows can be
drawn, and no access has left an array. -/
theorem runCalls_safe (c r : Int) (calls : List TermCall) :
    (runCalls calls (termReset c r initial)).Safe :=
  (Term.Safe.fresh c r).runCalls calls

end Pspssh.Terminal
