import Pspssh.Data.Loop

namespace Pspssh.Terminal

open Pspssh.Data

/-! The static variables of the terminal and the accesses it makes to them. -/

def termMaxCols : Int := 80

def termMaxRows : Int := 40

def defaultFg : Nat := 7

def defaultBg : Nat := 0

abbrev maxParams : Nat := 8

structure Cell where
  ch : UInt8
  fg : UInt8
  bg : UInt8
  deriving DecidableEq, Repr

inductive ParserState where
  | ground
  | sawEsc
  | inCsi
  | inOsc
  | sawOscEsc
  | skipOne
  deriving DecidableEq, Repr

/-- `pen_fg`, `pen_bg`, `bold` and `reverse`. -/
structure Pen where
  fg : Nat
  bg : Nat
  bold : Bool
  reverse : Bool
  deriving DecidableEq, Repr

def defaultPen : Pen where
  fg := defaultFg
  bg := defaultBg
  bold := false
  reverse := false

/-- The statics of `term.c`. `grid` is indexed by row and column.
`outOfBounds` is not in the source: it records that some step has read or
written `grid` or `params` outside the array, which C leaves undefined. -/
structure Term where
  grid : Int → Int → Cell
  cols : Int
  rows : Int
  cursorCol : Int
  cursorRow : Int
  savedCol : Int
  savedRow : Int
  scrollTop : Int
  scrollBottom : Int
  pen : Pen
  state : ParserState
  params : Nat → Nat
  paramCount : Nat
  paramSeen : Bool
  privateMarker : UInt8
  bellRang : Bool
  outOfBounds : Bool

def initial : Term where
  grid := fun _ _ => ⟨0, 0, 0⟩
  cols := termMaxCols
  rows := termMaxRows
  cursorCol := 0
  cursorRow := 0
  savedCol := 0
  savedRow := 0
  scrollTop := 0
  scrollBottom := 0
  pen := defaultPen
  state := .ground
  params := fun _ => 0
  paramCount := 0
  paramSeen := false
  privateMarker := 0
  bellRang := false
  outOfBounds := false

namespace Term

@[simps] def withGrid (term : Term) (grid : Int → Int → Cell) : Term :=
  { term with grid := grid }

@[simp] theorem withGrid_withGrid (term : Term)
    (first second : Int → Int → Cell) :
    (term.withGrid first).withGrid second = term.withGrid second := rfl

@[simp] theorem withGrid_grid_self (term : Term) :
    term.withGrid term.grid = term := rfl

/-- The element `grid[row][col]` exists. -/
def InGrid (row col : Int) : Prop :=
  0 ≤ row ∧ row < termMaxRows ∧ 0 ≤ col ∧ col < termMaxCols

instance : Decidable (InGrid row col) :=
  inferInstanceAs (Decidable (_ ∧ _))

/-- An access that is in bounds when `inside` holds. -/
def access (inside : Prop) [Decidable inside] (term : Term) (next : Term) :
    Term :=
  if inside then next else { term with outOfBounds := true }

def writeCell (row col : Int) (cell : Cell) (term : Term) : Term :=
  access (InGrid row col) term
    (term.withGrid fun r c => if r = row ∧ c = col then cell else term.grid r c)

def copyCell (row target source : Int) (term : Term) : Term :=
  access (InGrid row target ∧ InGrid row source) term
    (term.withGrid fun r c =>
      if r = row ∧ c = target then term.grid row source else term.grid r c)

/-- `memcpy(grid[to], grid[from], sizeof(grid[to][0]) * cols)`. -/
def copyRow (target source : Int) (term : Term) : Term :=
  access (InGrid target 0 ∧ InGrid source 0 ∧ 0 ≤ term.cols ∧
      term.cols ≤ termMaxCols) term
    (term.withGrid fun r c =>
      if r = target ∧ 0 ≤ c ∧ c < term.cols then term.grid source c
      else term.grid r c)

/-- A read of `params[index]`, for its bounds only. -/
def readParam (index : Nat) (term : Term) : Term :=
  access (index < maxParams) term term

def writeParam (index value : Nat) (term : Term) : Term :=
  access (index < maxParams) term
    { term with
      params := fun i => if i = index then value else term.params i }

/-- What `blank_cell` stores. Cleared cells take the current background. -/
def blank (term : Term) : Cell where
  ch := 0x20
  fg := defaultFg.toUInt8
  bg := (if term.pen.reverse then term.pen.fg else term.pen.bg).toUInt8

def blankCell (row col : Int) (term : Term) : Term :=
  term.writeCell row col term.blank

/-- `for (col = low; col < high; col++) blank_cell(&grid[row][col])`. -/
def blankCells (row low high : Int) (term : Term) : Term :=
  forUp low high (fun col => blankCell row col) term

def blankRow (row : Int) (term : Term) : Term :=
  term.blankCells row 0 term.cols

/-- `for (row = low; row < high; row++) blank_row(row)`. -/
def blankRows (low high : Int) (term : Term) : Term :=
  forUp low high (fun row => blankRow row) term

end Term

/-- A size given to `term_reset`, or the largest one if it is out of range. -/
def sizeWithin (limit size : Int) : Int :=
  if 0 < size ∧ size ≤ limit then size else limit

def termReset (c r : Int) (term : Term) : Term :=
  let cols := sizeWithin termMaxCols c
  let rows := sizeWithin termMaxRows r
  let sized := { term with cols, rows, pen := defaultPen }
  let cleared := sized.blankRows 0 termMaxRows
  { cleared with
    cursorCol := 0, cursorRow := 0, savedCol := 0, savedRow := 0,
    scrollTop := 0, scrollBottom := rows - 1, state := .ground,
    paramCount := 0, paramSeen := false, privateMarker := 0,
    bellRang := false }

/-- `term_at`, with `none` for NULL. -/
def termAt (col row : Int) (term : Term) : Option Cell :=
  if col < 0 ∨ row < 0 ∨ col ≥ term.cols ∨ row ≥ term.rows then none
  else some (term.grid row col)

/-- `term_take_bell`: what it returns and what it leaves. -/
def termTakeBell (term : Term) : Bool × Term :=
  (term.bellRang, { term with bellRang := false })

end Pspssh.Terminal
