import Pspssh.Terminal.Grid

namespace Pspssh.Terminal

open Pspssh.Data

namespace Term

/-! Line feeds, printed characters and tabs. -/

def lineFeed (term : Term) : Term :=
  if term.cursorRow = term.scrollBottom then term.scrollRegionUp 1
  else if term.cursorRow < term.rows - 1 then
    { term with cursorRow := term.cursorRow + 1 }
  else term

def brightFg (term : Term) : Nat :=
  if term.pen.bold then term.pen.fg ||| 8 else term.pen.fg

def inked (term : Term) (ch : UInt8) : Cell where
  ch := ch
  fg := (if term.pen.reverse then term.pen.bg else term.brightFg).toUInt8
  bg := (if term.pen.reverse then term.brightFg else term.pen.bg).toUInt8

/-- The pending wrap, taken when the next character arrives. -/
def wrap (term : Term) : Term :=
  if term.cursorCol ≥ term.cols then { term with cursorCol := 0 }.lineFeed
  else term

def putChar (ch : UInt8) (term : Term) : Term :=
  let wrapped := term.wrap
  let written :=
    wrapped.writeCell wrapped.cursorRow wrapped.cursorCol (wrapped.inked ch)
  { written with cursorCol := written.cursorCol + 1 }

/-- The column a tab goes to: the next multiple of eight, or the last
column. -/
def tabStop (term : Term) : Int :=
  let next := (term.cursorCol + 8) / 8 * 8
  if next ≥ term.cols then term.cols - 1 else next

def tab (term : Term) : Term :=
  whileLoop (fun state => state.cursorCol < term.tabStop) (putChar 0x20)
    (term.tabStop - term.cursorCol).toNat term

/-! What a line feed and a printed character change. -/

theorem lineFeed_eq {term : Term} (bounds : term.Scrollable) :
    term.lineFeed =
      if term.cursorRow = term.scrollBottom then
        term.withGrid fun r c =>
          if term.InRegion r c then
            if r + 1 ≤ term.scrollBottom then term.grid (r + 1) c
            else term.blank
          else term.grid r c
      else if term.cursorRow < term.rows - 1 then
        { term with cursorRow := term.cursorRow + 1 }
      else term := by
  rw [lineFeed, scrollRegionUp_eq bounds (by decide)]

/-- A line feed changes the grid and the cursor's row only. -/
theorem lineFeed_frame {term : Term} (bounds : term.Scrollable) :
    term.lineFeed =
      { term with
        grid := term.lineFeed.grid
        cursorRow := term.lineFeed.cursorRow } := by
  rw [lineFeed_eq bounds]
  split
  · rfl
  split <;> rfl

theorem wrap_cursorCol_lt {term : Term} (bounds : term.Scrollable)
    (wide : 1 ≤ term.cols) : term.wrap.cursorCol < term.wrap.cols := by
  unfold wrap
  split
  · rw [lineFeed_frame (bounds.moveCursor 0 term.cursorRow)]
    change (0 : Int) < term.cols
    omega
  · omega

theorem wrap_frame {term : Term} (bounds : term.Scrollable) :
    term.wrap =
      { term with
        grid := term.wrap.grid
        cursorCol := term.wrap.cursorCol
        cursorRow := term.wrap.cursorRow } := by
  unfold wrap
  split
  · rw [lineFeed_frame (bounds.moveCursor 0 term.cursorRow)]
  · rfl

theorem wrap_of_lt {term : Term} (before : term.cursorCol < term.cols) :
    term.wrap = term :=
  if_neg (by omega)

theorem putChar_wrap {term : Term} (ch : UInt8)
    (before : term.wrap.cursorCol < term.wrap.cols) :
    term.wrap.putChar ch = term.putChar ch := by
  unfold putChar
  rw [wrap_of_lt before]

theorem putChar_eq {term : Term} (ch : UInt8)
    (inside : InGrid term.wrap.cursorRow term.wrap.cursorCol) :
    term.putChar ch =
      { term.wrap with
        grid := fun r c =>
          if r = term.wrap.cursorRow ∧ c = term.wrap.cursorCol then
            term.wrap.inked ch
          else term.wrap.grid r c
        cursorCol := term.wrap.cursorCol + 1 } := by
  unfold putChar writeCell
  dsimp only
  rw [access_eq inside]
  rfl

theorem putChar_of_lt {term : Term} (ch : UInt8)
    (inside : InGrid term.cursorRow term.cursorCol)
    (before : term.cursorCol < term.cols) :
    term.putChar ch =
      { term with
        grid := fun r c =>
          if r = term.cursorRow ∧ c = term.cursorCol then term.inked ch
          else term.grid r c
        cursorCol := term.cursorCol + 1 } := by
  have stays := wrap_of_lt before
  rw [putChar_eq ch (by rw [stays]; exact inside), stays]

theorem putChar_cursorCol {term : Term} (ch : UInt8)
    (before : term.cursorCol < term.cols) :
    (term.putChar ch).cursorCol = term.cursorCol + 1 ∧
      (term.putChar ch).cols = term.cols := by
  unfold putChar
  dsimp only
  rw [wrap_of_lt before]
  unfold writeCell access
  split <;> exact ⟨rfl, rfl⟩

theorem tabStop_lt (term : Term) : term.tabStop < term.cols := by
  unfold tabStop
  dsimp only
  split <;> omega

/-- A tab writes spaces, none of which wraps, and ends at or past its stop. -/
theorem tab_invariant (motive : Term → Prop) {term : Term}
    (start : motive term)
    (step : ∀ state, motive state → state.cursorCol < state.cols →
      motive (state.putChar 0x20)) :
    motive term.tab ∧ term.tabStop ≤ term.tab.cursorCol := by
  have stopBefore := term.tabStop_lt
  have run : (motive term.tab ∧ term.tab.cols = term.cols) ∧
      decide (term.tab.cursorCol < term.tabStop) = false := by
    refine whileLoop_invariant
      (fun state => motive state ∧ state.cols = term.cols)
      (fun state => (term.tabStop - state.cursorCol).toNat)
      (Nat.le_refl _) ?_ ?_ ⟨start, rfl⟩ ?_
    · intro state reached more
      have := of_decide_eq_true more
      omega
    · intro state reached more
      have more := of_decide_eq_true more
      have before : state.cursorCol < state.cols := by omega
      have moved := putChar_cursorCol 0x20 before
      omega
    · intro state reached more
      have more := of_decide_eq_true more
      have before : state.cursorCol < state.cols := by omega
      exact ⟨step state reached.1 before,
        (putChar_cursorCol 0x20 before).2.trans reached.2⟩
  have stopped := of_decide_eq_false run.2
  exact ⟨run.1.1, by omega⟩

end Term

end Pspssh.Terminal
