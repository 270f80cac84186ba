import Pspssh.Screen.Gfx

namespace Pspssh.Screen

open Pspssh.Data

/-! The pixels in memory are those of the cells that were drawn. -/

theorem pixelAt_inside (base : Int) {x y : Int} (left : 0 ≤ x) (right : x < bufWidth)
    (above : 0 ≤ y) (below : y < scrHeight) :
    base ≤ pixelAt base bufWidth x y ∧
      pixelAt base bufWidth x y < base + framePixels := by
  have width : bufWidth = 512 := rfl
  have height : scrHeight = 272 := rfl
  have pixels : framePixels = 139264 := rfl
  unfold pixelAt
  rw [width]
  omega

theorem OnPanel.inRow {x y : Int} (visible : OnPanel x y) :
    0 ≤ x ∧ x < bufWidth := by
  have narrow : scrWidth ≤ bufWidth := by decide
  exact ⟨visible.1.1, visible.1.2.trans_le narrow⟩

theorem Tile.blank_pixel (colour : UInt32) (x y : Int) :
    (Tile.blank colour).pixel x y = colour := by
  unfold Tile.blank Tile.pixel
  split <;> rfl

theorem Canvas.puts_beside {row : Int} {fg bg : UInt32} {col : Int}
    (text : List UInt8) {canvas : Canvas} (beside : gfxCols ≤ col) :
    canvas.puts row fg bg text col = canvas := by
  induction text generalizing canvas col with
  | nil => rfl
  | cons ch rest ih =>
      have clipped : canvas.glyph col row ⟨ch, fg, bg⟩ = canvas := by
        funext c r
        exact if_neg (by omega)
      rw [Canvas.puts, clipped, ih (by omega)]

namespace Gfx.Shows

variable {gfx : Gfx} {before vram : Int → UInt32} {panel : Panel}
  {canvas : Canvas}

/-- Only the buffer that is drawn into was written, and what can be seen of it
is the new canvas. -/
theorem redrawn (shows : gfx.Shows before panel)
    (frame : ∀ place,
      place < gfx.drawBuffer ∨ gfx.drawBuffer + framePixels ≤ place →
        vram place = gfx.vram place)
    (picture : ∀ x y, OnPanel x y →
      vram (pixelAt gfx.drawBuffer bufWidth x y) = canvas.pixel x y) :
    Gfx.Shows { gfx with vram } before { panel with drawn := canvas } := by
  have pixels : framePixels = 139264 := rfl
  have target := shows.drawBuffer
  have other := shows.guDisp
  refine { shows with drawn := picture, shown := ?_, rest := ?_ }
  · intro x y visible
    refine (frame _ ?_).trans (shows.shown x y visible)
    have inside := pixelAt_inside gfx.guDisp visible.inRow.1 visible.inRow.2
      visible.2.1 visible.2.2
    rw [target]
    rw [other] at inside ⊢
    cases second : gfx.drawingSecond with
    | true =>
        simp only [second, bufferFor, Bool.not_true, if_true] at inside ⊢
        simp only [Bool.false_eq_true, if_false] at inside ⊢
        omega
    | false =>
        simp only [second, bufferFor, Bool.not_false, if_true] at inside ⊢
        simp only [Bool.false_eq_true, if_false] at inside ⊢
        omega
  · intro place outside
    refine (frame place ?_).trans (shows.rest place outside)
    rw [target]
    cases gfx.drawingSecond with
    | true =>
        simp only [bufferFor, if_true]
        omega
    | false =>
        simp only [bufferFor, Bool.false_eq_true, if_false]
        omega

theorem painted {x0 y0 x1 y1 : Int} {value : Int → Int → UInt32}
    (shows : gfx.Shows before panel)
    (inBuffer : (0 ≤ x0 ∧ x1 ≤ bufWidth) ∧ 0 ≤ y0 ∧ y1 ≤ scrHeight)
    (picture : ∀ x y, OnPanel x y →
      canvas.pixel x y =
        if (x0 ≤ x ∧ x < x1) ∧ y0 ≤ y ∧ y < y1 then value x y
        else panel.drawn.pixel x y) :
    Gfx.Shows
      { gfx with
        vram := paintRect gfx.drawBuffer bufWidth x0 y0 x1 y1 value gfx.vram }
      before { panel with drawn := canvas } := by
  obtain ⟨inRow, above, below⟩ := inBuffer
  have rect : Painted gfx.drawBuffer bufWidth x0 y0 x1 y1 value gfx.vram
      (paintRect gfx.drawBuffer bufWidth x0 y0 x1 y1 value gfx.vram) :=
    paintRect_painted inRow
  apply shows.redrawn
  · intro place outside
    refine rect.frame place fun x y left right top bottom same => ?_
    have inside := pixelAt_inside gfx.drawBuffer (inRow.1.trans left)
      (right.trans_le inRow.2) (above.trans top) (bottom.trans_le below)
    omega
  · intro x y visible
    rw [rect.picture x y visible.inRow.1 visible.inRow.2, picture x y visible]
    exact if_congr Iff.rfl rfl (shows.drawn x y visible)

theorem clear (shows : gfx.Shows before panel) (colour : UInt32) :
    (gfxClear colour gfx).Shows before { panel with drawn := .clear colour } := by
  unfold gfxClear
  rw [if_neg (by simp [shows.started]), forUp_update (fun _ => colour)]
  apply shows.redrawn
  · intro place outside
    rw [if_neg (by omega)]
  · intro x y visible
    have inside := pixelAt_inside gfx.drawBuffer visible.inRow.1 visible.inRow.2
      visible.2.1 visible.2.2
    rw [if_pos (by omega)]
    exact (Tile.blank_pixel colour _ _).symm

theorem fillCells (shows : gfx.Shows before panel) {col row cols rows : Int}
    (across : InReach cellW col cols) (down : InReach cellH row rows)
    (colour : UInt32) :
    (gfxFillCells col row cols rows colour gfx).Shows before
      { panel with drawn := panel.drawn.fillCells col row cols rows colour } := by
  have width : scrWidth = 480 := rfl
  have height : scrHeight = 272 := rfl
  have stride : bufWidth = 512 := rfl
  obtain ⟨left, wide, right⟩ := across
  obtain ⟨top, high, bottom⟩ := down
  unfold gfxFillCells
  rw [if_neg (by simp [shows.started])]
  dsimp only
  rw [cInt_eq left, cInt_eq wide, cInt_eq right, cInt_eq top, cInt_eq high,
    cInt_eq bottom]
  apply shows.painted
  · grind
  · intro x y visible
    obtain ⟨⟨left, right⟩, above, below⟩ := visible
    have across : (col * cellW ≤ x ∧ x < (col + cols) * cellW) ↔ _ :=
      in_tiles_iff (by decide : 0 < cellW)
    have down : (row * cellH ≤ y ∧ y < (row + rows) * cellH) ↔ _ :=
      in_tiles_iff (by decide : 0 < cellH)
    rw [Int.add_mul] at across down
    unfold Canvas.pixel Canvas.fillCells
    rw [apply_ite (fun tile : Tile => tile.pixel (x % cellW) (y % cellH)),
      Tile.blank_pixel]
    refine if_congr ((and_congr across down).symm.trans ?_) rfl rfl
    grind

end Gfx.Shows

/-- The loops over a glyph, counted in pixels of the screen. -/
theorem glyph_eq_paintRect (base col row : Int) (ch : UInt8) (fg bg : UInt32)
    (vram : Int → UInt32) :
    forUp 0 cellH (fun y vram =>
        forUp 0 cellW (fun x vram =>
          Function.update vram
            (base + (row * cellH + y) * bufWidth + col * cellW + x)
            (if bitAt (fontRow (drawn ch) y.toNat) x.toNat then fg else bg)) vram)
        vram =
      paintRect base bufWidth (col * cellW) (row * cellH) (col * cellW + cellW)
        (row * cellH + cellH)
        (fun x y =>
          (⟨ch, fg, bg⟩ : Tile).pixel (x - col * cellW) (y - row * cellH)) vram := by
  unfold paintRect
  rw [forUp_shift _ 0 cellH (row * cellH), Int.zero_add, Int.add_comm cellH]
  congr 1
  funext y vram
  rw [forUp_shift _ 0 cellW (col * cellW), Int.zero_add, Int.add_comm cellW]
  congr 1
  funext x vram
  have line : row * cellH + (y - row * cellH) = y := by omega
  have place : base + y * bufWidth + col * cellW + (x - col * cellW) =
      base + y * bufWidth + x := by omega
  rw [line, place]
  rfl

namespace Gfx.Shows

variable {gfx : Gfx} {before : Int → UInt32} {panel : Panel}

theorem glyph (shows : gfx.Shows before panel) (col row : Int) (ch : UInt8)
    (fg bg : UInt32) :
    (gfxGlyph col row ch fg bg gfx).Shows before
      { panel with drawn := panel.drawn.glyph col row ⟨ch, fg, bg⟩ } := by
  unfold gfxGlyph
  split
  · rename_i outside
    have clipped : panel.drawn.glyph col row ⟨ch, fg, bg⟩ = panel.drawn := by
      funext c r
      refine if_neg fun inside => ?_
      rcases outside with off | outside
      · exact off shows.started
      · omega
    rw [clipped]
    exact shows
  · rename_i inside
    have screen : 0 ≤ col ∧ col < gfxCols ∧ 0 ≤ row ∧ row < gfxRows := by
      simp only [not_or] at inside
      omega
    have width : gfxCols * cellW = scrWidth := rfl
    have height : gfxRows * cellH ≤ scrHeight := by decide
    have stride : scrWidth ≤ bufWidth := by decide
    have sizes : cellW = 6 ∧ cellH = 12 := ⟨rfl, rfl⟩
    dsimp only
    rw [glyph_eq_paintRect]
    apply shows.painted
    · grind
    · intro x y visible
      have across : (col * cellW ≤ x ∧ x < col * cellW + cellW) ↔ _ :=
        in_tile_iff (by decide : 0 < cellW)
      have down : (row * cellH ≤ y ∧ y < row * cellH + cellH) ↔ _ :=
        in_tile_iff (by decide : 0 < cellH)
      unfold Canvas.pixel Canvas.glyph
      rw [apply_ite (fun tile : Tile => tile.pixel (x % cellW) (y % cellH)),
        if_congr (and_congr across down) rfl rfl]
      by_cases here : x / cellW = col ∧ y / cellH = row
      · rw [if_pos ⟨here, screen⟩, if_pos here, ← here.1, ← here.2,
          Int.emod_def x, Int.emod_def y, Int.mul_comm cellW, Int.mul_comm cellH]
      · rw [if_neg fun both => here both.1, if_neg here]

theorem puts (shows : gfx.Shows before panel) (row : Int) (fg bg : UInt32)
    (text : List UInt8) (col : Int) :
    (gfxPuts row fg bg text col gfx).Shows before
      { panel with
        drawn := panel.drawn.puts row fg bg (text.takeWhile (· ≠ 0)) col } := by
  induction text generalizing gfx panel col with
  | nil => exact shows
  | cons ch rest ih =>
      unfold gfxPuts
      split
      · rename_i more
        rw [List.takeWhile_cons_of_pos (by simpa using more.1)]
        exact ih (shows.glyph col row ch fg bg) (col + 1)
      · rename_i stop
        have same : panel.drawn.puts row fg bg
            ((ch :: rest).takeWhile (· ≠ 0)) col = panel.drawn := by
          by_cases zero : ch = 0
          · rw [List.takeWhile_cons_of_neg (by simpa using zero)]
            rfl
          · exact Canvas.puts_beside _ (not_lt.mp fun more => stop ⟨zero, more⟩)
        rw [same]
        exact shows

theorem flip (shows : gfx.Shows before panel) :
    (gfxFlip gfx).Shows before { drawn := panel.shown, shown := panel.drawn } := by
  have target := shows.drawBuffer
  unfold gfxFlip
  rw [if_neg (by simp [shows.started])]
  constructor
  case started => exact shows.started
  case drawBuffer => rfl
  case guDraw => exact shows.guDisp
  case guDisp => exact shows.guDraw.trans (by rw [Bool.not_not])
  case drawn =>
    intro x y visible
    exact shows.guDisp ▸ shows.shown x y visible
  case shown =>
    intro x y visible
    exact (shows.guDraw.trans target.symm) ▸ shows.drawn x y visible
  case rest => exact shows.rest

theorem run (shows : gfx.Shows before panel) {drawing : Drawing}
    (fits : drawing.Fits) : (gfx.run drawing).Shows before (panel.run drawing) := by
  cases drawing with
  | clear colour => exact shows.clear colour
  | fillCells col row cols rows colour => exact shows.fillCells fits.1 fits.2 colour
  | glyph col row ch fg bg => exact shows.glyph col row ch fg bg
  | puts col row text fg bg => exact shows.puts row fg bg text col
  | flip => exact shows.flip

end Gfx.Shows

/-! ## From the start -/

/-- The module before `gfx_init`. -/
def Gfx.unstarted (vram : Int → UInt32) : Gfx where
  vram := vram
  drawBuffer := 0
  drawingSecond := false
  started := false
  guDraw := 0
  guDisp := 0

def Panel.black : Panel :=
  ⟨.clear gfxBlack, .clear gfxBlack⟩

theorem gfxInit_shows (vram : Int → UInt32) :
    (gfxInit (Gfx.unstarted vram)).Shows vram .black := by
  have pixels : framePixels = 139264 := rfl
  have cleared (gfx : Gfx) (on : gfx.started = true) :
      gfxClear gfxBlack gfx =
        { gfx with
          vram := fun place =>
            if gfx.drawBuffer ≤ place ∧ place < gfx.drawBuffer + framePixels then
              gfxBlack
            else gfx.vram place } := by
    unfold gfxClear
    rw [if_neg (by simp [on]), forUp_update (fun _ => gfxBlack), Int.add_zero]
  unfold gfxInit
  rw [if_neg (by simp [Gfx.unstarted]), cleared _ rfl, cleared _ rfl]
  constructor
  case started => rfl
  case drawBuffer => rfl
  case guDraw => rfl
  case guDisp => rfl
  case drawn =>
    intro x y visible
    have inside := pixelAt_inside framePixels visible.inRow.1 visible.inRow.2
      visible.2.1 visible.2.2
    exact (if_pos inside).trans (Tile.blank_pixel gfxBlack _ _).symm
  case shown =>
    intro x y visible
    have inside := pixelAt_inside 0 visible.inRow.1 visible.inRow.2
      visible.2.1 visible.2.2
    refine ((if_neg ?_).trans (if_pos inside)).trans
      (Tile.blank_pixel gfxBlack _ _).symm
    change ¬ (framePixels ≤ pixelAt 0 bufWidth x y ∧ _)
    omega
  case rest =>
    intro place outside
    refine (if_neg ?_).trans (if_neg ?_)
    · change ¬ (framePixels ≤ place ∧ place < framePixels + framePixels)
      omega
    · change ¬ (0 ≤ place ∧ place < 0 + framePixels)
      omega

theorem Gfx.Shows.runs {gfx : Gfx} {before : Int → UInt32} {panel : Panel}
    (shows : gfx.Shows before panel) {drawings : List Drawing}
    (fit : ∀ drawing ∈ drawings, drawing.Fits) :
    (drawings.foldl Gfx.run gfx).Shows before (drawings.foldl Panel.run panel) := by
  induction drawings generalizing gfx panel with
  | nil => exact shows
  | cons drawing rest ih =>
      refine ih (shows.run (fit drawing List.mem_cons_self)) fun other member => ?_
      exact fit other (List.mem_cons_of_mem drawing member)

/-- Whatever is drawn without an overflow: the two buffers hold what the two
canvases show, the displayed one what was there at the last flip, and nothing else
in the memory has changed. -/
theorem pixels_show_cells (vram : Int → UInt32) (drawings : List Drawing)
    (fit : ∀ drawing ∈ drawings, drawing.Fits) :
    (drawings.foldl Gfx.run (gfxInit (Gfx.unstarted vram))).Shows vram
      (drawings.foldl Panel.run .black) :=
  (gfxInit_shows vram).runs fit

/-- A bar that begins beside the screen, a title in it and a glyph behind the last
column. -/
theorem pixels_show_bar :
    let drawings := [.fillCells (-1) 0 gfxCols 1 gfxAccent,
      .puts 1 0 (ascii "pi") gfxWhite gfxAccent, .glyph 80 0 0x41 gfxWhite gfxBlack,
      .flip]
    (drawings.foldl Gfx.run (gfxInit (Gfx.unstarted fun _ => 0))).Shows (fun _ => 0)
      (drawings.foldl Panel.run .black) :=
  pixels_show_cells (fun _ => 0) _ (by decide)

end Pspssh.Screen
