import Pspssh.Data.Text

namespace Pspssh.Screen

open Pspssh.Data

/-! The character grid that everything is drawn on. -/

def gfxCols : Int := 80

def gfxRows : Int := 22

def gfxRgb (r g b : UInt32) : UInt32 :=
  (0xff000000 : UInt32) ||| (b <<< 16) ||| (g <<< 8) ||| r

def gfxBlack : UInt32 := gfxRgb 0x00 0x00 0x00

def gfxWhite : UInt32 := gfxRgb 0xe8 0xe8 0xe8

def gfxGrey : UInt32 := gfxRgb 0x80 0x80 0x80

def gfxDim : UInt32 := gfxRgb 0x50 0x50 0x50

def gfxRed : UInt32 := gfxRgb 0xe0 0x40 0x40

def gfxGreen : UInt32 := gfxRgb 0x40 0xd0 0x60

def gfxYellow : UInt32 := gfxRgb 0xe0 0xc0 0x40

def gfxAccent : UInt32 := gfxRgb 0x1e 0x4a 0x7a

/-- The calls that draw into the buffer, and the one that shows it. -/
inductive Drawing where
  | clear (colour : UInt32)
  | fillCells (col row cols rows : Int) (colour : UInt32)
  | glyph (col row : Int) (ch : UInt8) (fg bg : UInt32)
  | puts (col row : Int) (text : List UInt8) (fg bg : UInt32)
  | flip
  deriving DecidableEq, Repr

/-- `gfx_printf`, given what its format and arguments come to: one row's worth,
and two bytes. -/
def gfxPrintf (col row : Int) (fg bg : UInt32) (formatted : List UInt8) :
    Drawing :=
  .puts col row (copyField 82 formatted).text fg bg

/-- `PSPSSH_VERSION` and `PSPSSH_AUTHOR`. -/
structure Build where
  version : List UInt8
  author : List UInt8

/-- The title row: what is shown, and the build at its right end. -/
def titleBar (build : Build) (bar : UInt32) (title : List UInt8) :
    List Drawing :=
  let stamp :=
    (copyField 40 (ascii "v" ++ build.version ++ ascii "  " ++ build.author)).text
  let start := gfxCols - 1 - stamp.length
  [.fillCells 0 0 gfxCols 1 bar,
    gfxPrintf 1 0 gfxWhite bar title,
    .puts (if start < 0 then 0 else start) 0 stamp gfxWhite bar]

end Pspssh.Screen
