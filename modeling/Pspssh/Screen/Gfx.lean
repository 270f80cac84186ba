import Pspssh.Data.Raster
import Pspssh.Screen.Drawing
import Pspssh.Screen.Font

namespace Pspssh.Screen

open Pspssh.Data

/-! The two buffers of the screen, and the calls that write their pixels. -/

def scrWidth : Int := 480

def scrHeight : Int := 272

/-- Of each row of a buffer, only `scrWidth` pixels can be seen. -/
def bufWidth : Int := 512

def framePixels : Int := bufWidth * scrHeight

def cellW : Int := 6

def cellH : Int := 12

/-- The video memory in words, the variables of the module, and the buffers
that the GU draws into and displays. A buffer is its first word. -/
structure Gfx where
  vram : Int → UInt32
  drawBuffer : Int
  drawingSecond : Bool
  started : Bool
  guDraw : Int
  guDisp : Int

def bufferFor (second : Bool) : Int :=
  if second then framePixels else 0

def gfxClear (colour : UInt32) (gfx : Gfx) : Gfx :=
  if ¬ gfx.started then gfx
  else
    { gfx with
      vram := forUp 0 framePixels
        (fun i vram => Function.update vram (gfx.drawBuffer + i) colour) gfx.vram }

/-- A sum or a product of `int`s. -/
def cInt (value : Int) : Int :=
  value.bmod (2 ^ 32)

def FitsInt (value : Int) : Prop :=
  -2 ^ 31 ≤ value ∧ value < 2 ^ 31

instance (value : Int) : Decidable (FitsInt value) :=
  inferInstanceAs (Decidable (_ ∧ _))

theorem cInt_eq {value : Int} (fits : FitsInt value) : cInt value = value := by
  unfold FitsInt at fits
  exact Int.bmod_eq_of_le (by omega) (by omega)

def gfxFillCells (col row cols rows : Int) (colour : UInt32) (gfx : Gfx) : Gfx :=
  if ¬ gfx.started then gfx
  else
    let x0 := cInt (col * cellW)
    let y0 := cInt (row * cellH)
    let x1 := cInt (x0 + cInt (cols * cellW))
    let y1 := cInt (y0 + cInt (rows * cellH))
    let x0 := if x0 < 0 then 0 else x0
    let y0 := if y0 < 0 then 0 else y0
    let x1 := if x1 > scrWidth then scrWidth else x1
    let y1 := if y1 > scrHeight then scrHeight else y1
    { gfx with
      vram := paintRect gfx.drawBuffer bufWidth x0 y0 x1 y1 (fun _ _ => colour)
        gfx.vram }

def gfxGlyph (col row : Int) (ch : UInt8) (fg bg : UInt32) (gfx : Gfx) : Gfx :=
  if ¬ gfx.started ∨ col < 0 ∨ row < 0 ∨ col ≥ gfxCols ∨ row ≥ gfxRows then gfx
  else
    let ch := drawn ch
    { gfx with
      vram := forUp 0 cellH (fun y vram =>
        let line := gfx.drawBuffer + (row * cellH + y) * bufWidth + col * cellW
        let bits := fontRow ch y.toNat
        forUp 0 cellW (fun x vram =>
          Function.update vram (line + x) (if bitAt bits x.toNat then fg else bg))
          vram) gfx.vram }

/-- The loop of `gfx_puts`, from the column `at` on. -/
def gfxPuts (row : Int) (fg bg : UInt32) : List UInt8 → Int → Gfx → Gfx
  | [], _, gfx => gfx
  | ch :: text, col, gfx =>
      if ch ≠ 0 ∧ col < gfxCols then
        gfxPuts row fg bg text (col + 1) (gfxGlyph col row ch fg bg gfx)
      else gfx

/-- `sceGuSwapBuffers` exchanges the buffers of the GU. -/
def gfxFlip (gfx : Gfx) : Gfx :=
  if ¬ gfx.started then gfx
  else
    { gfx with
      guDraw := gfx.guDisp
      guDisp := gfx.guDraw
      drawingSecond := !gfx.drawingSecond
      drawBuffer := bufferFor (!gfx.drawingSecond) }

def gfxInit (gfx : Gfx) : Gfx :=
  if gfx.started then gfx
  else
    gfxClear gfxBlack (gfxFlip (gfxClear gfxBlack
      { gfx with
        guDraw := 0
        guDisp := framePixels
        drawingSecond := false
        drawBuffer := bufferFor false
        started := true }))

def Gfx.run (gfx : Gfx) : Drawing → Gfx
  | .clear colour => gfxClear colour gfx
  | .fillCells col row cols rows colour => gfxFillCells col row cols rows colour gfx
  | .glyph col row ch fg bg => gfxGlyph col row ch fg bg gfx
  | .puts col row text fg bg => gfxPuts row fg bg text col gfx
  | .flip => gfxFlip gfx

/-- The first and the last pixel of so many cells can be counted in an `int`. -/
def InReach (size first count : Int) : Prop :=
  FitsInt (first * size) ∧ FitsInt (count * size) ∧
    FitsInt (first * size + count * size)

instance (size first count : Int) : Decidable (InReach size first count) :=
  inferInstanceAs (Decidable (_ ∧ _))

/-- Nothing overflows when this is drawn. -/
def Drawing.Fits : Drawing → Prop
  | .fillCells col row cols rows _ => InReach cellW col cols ∧ InReach cellH row rows
  | _ => True

instance : DecidablePred Drawing.Fits
  | .clear _ => isTrue trivial
  | .fillCells _ _ _ _ _ => inferInstanceAs (Decidable (_ ∧ _))
  | .glyph _ _ _ _ _ => isTrue trivial
  | .puts _ _ _ _ _ => isTrue trivial
  | .flip => isTrue trivial

/-! ## What is drawn, cell by cell -/

/-- A cell of the screen. A cell of one colour is a space on that colour. -/
structure Tile where
  ch : UInt8
  fg : UInt32
  bg : UInt32
  deriving DecidableEq

def Tile.blank (colour : UInt32) : Tile :=
  ⟨0x20, colour, colour⟩

def Tile.pixel (tile : Tile) (x y : Int) : UInt32 :=
  if inked tile.ch x.toNat y.toNat then tile.fg else tile.bg

/-- The cells by their columns and rows, those beside the screen included. -/
abbrev Canvas := Int → Int → Tile

namespace Canvas

def pixel (canvas : Canvas) (x y : Int) : UInt32 :=
  (canvas (x / cellW) (y / cellH)).pixel (x % cellW) (y % cellH)

def clear (colour : UInt32) : Canvas :=
  fun _ _ => .blank colour

def fillCells (col row cols rows : Int) (colour : UInt32) (canvas : Canvas) :
    Canvas :=
  fun c r =>
    if (col ≤ c ∧ c < col + cols) ∧ row ≤ r ∧ r < row + rows then .blank colour
    else canvas c r

def glyph (col row : Int) (tile : Tile) (canvas : Canvas) : Canvas :=
  fun c r =>
    if (c = col ∧ r = row) ∧ 0 ≤ col ∧ col < gfxCols ∧ 0 ≤ row ∧ row < gfxRows then
      tile
    else canvas c r

def puts (row : Int) (fg bg : UInt32) : List UInt8 → Int → Canvas → Canvas
  | [], _, canvas => canvas
  | ch :: text, col, canvas =>
      puts row fg bg text (col + 1) (canvas.glyph col row ⟨ch, fg, bg⟩)

end Canvas

structure Panel where
  drawn : Canvas
  shown : Canvas

def Panel.run (panel : Panel) : Drawing → Panel
  | .clear colour => { panel with drawn := .clear colour }
  | .fillCells col row cols rows colour =>
      { panel with drawn := panel.drawn.fillCells col row cols rows colour }
  | .glyph col row ch fg bg =>
      { panel with drawn := panel.drawn.glyph col row ⟨ch, fg, bg⟩ }
  | .puts col row text fg bg =>
      { panel with
        drawn := panel.drawn.puts row fg bg (text.takeWhile (· ≠ 0)) col }
  | .flip => { drawn := panel.shown, shown := panel.drawn }

/-! ## What the memory holds -/

def OnPanel (x y : Int) : Prop :=
  (0 ≤ x ∧ x < scrWidth) ∧ 0 ≤ y ∧ y < scrHeight

/-- The two buffers hold the two canvases, and the rest of the memory is as it
was. -/
structure Gfx.Shows (gfx : Gfx) (before : Int → UInt32) (panel : Panel) :
    Prop where
  started : gfx.started = true
  drawBuffer : gfx.drawBuffer = bufferFor gfx.drawingSecond
  guDraw : gfx.guDraw = bufferFor gfx.drawingSecond
  guDisp : gfx.guDisp = bufferFor (!gfx.drawingSecond)
  drawn : ∀ x y, OnPanel x y →
    gfx.vram (pixelAt gfx.drawBuffer bufWidth x y) = panel.drawn.pixel x y
  shown : ∀ x y, OnPanel x y →
    gfx.vram (pixelAt gfx.guDisp bufWidth x y) = panel.shown.pixel x y
  rest : ∀ place, place < 0 ∨ 2 * framePixels ≤ place →
    gfx.vram place = before place

end Pspssh.Screen
