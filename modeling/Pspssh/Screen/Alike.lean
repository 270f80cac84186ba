import Pspssh.Screen.Console
import Pspssh.Terminal.Reset
import Pspssh.Terminal.Region

namespace Pspssh.Screen

open Pspssh.Data Pspssh.Terminal Pspssh.Terminal.Term

/-! The console beside a terminal of its size. -/

/-- The terminal shows the characters of the console, with the cursor in the
same place. -/
structure Alike (log : Console) (term : Term) : Prop where
  ready : log.ready = true
  safe : term.Safe
  ground : term.state = .ground
  cols : term.cols = gfxCols
  rows : term.rows = gfxRows
  scrollTop : term.scrollTop = 0
  scrollBottom : term.scrollBottom = gfxRows - 1
  cursorCol : log.cursorCol = term.cursorCol
  cursorRow : log.cursorRow = term.cursorRow
  cells : ∀ r c, term.Visible r c → log.cells r c = (term.grid r c).ch

namespace Alike

variable {log : Console} {term : Term}

theorem fits (alike : Alike log term) : log.Fits where
  row_nonneg := alike.cursorRow ▸ alike.safe.cursorRow_nonneg
  row_lt := alike.cursorRow ▸ alike.rows ▸ alike.safe.cursorRow_lt
  col_nonneg := alike.cursorCol ▸ alike.safe.cursorCol_nonneg
  col_le := alike.cursorCol ▸ alike.cols ▸ alike.safe.cursorCol_le

theorem reset (log : Console) :
    Alike log.reset (termReset gfxCols gfxRows initial) := by
  have safe : (termReset gfxCols gfxRows initial).Safe := Term.Safe.fresh _ _
  rw [termReset_eq] at safe ⊢
  rw [Console.reset, Console.blankRows_eq]
  refine ⟨rfl, safe, rfl, rfl, rfl, rfl, rfl, rfl, rfl, ?_⟩
  rintro r c ⟨above, below, left, right⟩
  have size : gfxRows ≤ termMaxRows := by decide
  change r < gfxRows at below
  change c < gfxCols at right
  change Prod.fst (if _ then _ else _) = Cell.ch (if _ then _ else _)
  rw [if_pos ⟨above, below, left, right⟩,
    if_pos ⟨above, by omega, left, right⟩]
  rfl

theorem returned (alike : Alike log term) :
    Alike { log with cursorCol := 0 } { term with cursorCol := 0 } :=
  { alike with safe := alike.safe.returned, cursorCol := rfl }

theorem scrolled (alike : Alike log term) :
    Alike log.scrollUp (term.scrollRegionUp 1) := by
  have safe := alike.safe.scrollRegionUp (by decide : (0 : Int) ≤ 1)
  have rows := alike.rows
  have cols := alike.cols
  have top := alike.scrollTop
  have bottom := alike.scrollBottom
  rw [Term.scrollRegionUp_eq alike.safe.scrollable (by decide)] at safe ⊢
  rw [Console.scrollUp_eq]
  refine ⟨alike.ready, safe, alike.ground, cols, rows, top, bottom,
    alike.cursorCol, alike.cursorRow, ?_⟩
  rintro r c ⟨above, below, left, right⟩
  change r < term.rows at below
  change c < term.cols at right
  have inside : term.InRegion r c := ⟨by omega, by omega, left, right⟩
  have onGrid : 0 ≤ r ∧ r < gfxRows ∧ 0 ≤ c ∧ c < gfxCols := by omega
  dsimp only [Console.withPicture, Term.withGrid]
  rw [if_pos inside, if_pos onGrid]
  by_cases last : r + 1 < gfxRows
  · rw [if_pos last, if_pos (by omega)]
    exact alike.cells (r + 1) c ⟨by omega, by omega, left, right⟩
  · rw [if_neg last, if_neg (by omega)]
    rfl

/-- The console moves to the next row and then scrolls; the terminal scrolls if
it is in the last one. -/
theorem newline (alike : Alike log term) :
    Alike log.newline { term with cursorCol := 0 }.lineFeed := by
  have back := alike.returned
  have row := alike.cursorRow
  have rows := alike.rows
  have bottom := alike.scrollBottom
  have above := alike.safe.cursorRow_nonneg
  have below := alike.safe.cursorRow_lt
  rw [Console.newline_eq alike.fits, Term.lineFeed]
  by_cases last : log.cursorRow = gfxRows - 1
  · have atBottom : term.cursorRow = term.scrollBottom := by omega
    rw [if_pos last, if_pos atBottom]
    exact back.scrolled
  · have notBottom : term.cursorRow ≠ term.scrollBottom := by omega
    have further : term.cursorRow < term.rows - 1 := by omega
    rw [if_neg last, if_neg notBottom, if_pos further]
    have safe := back.safe.moveCursor (Int.le_refl 0)
      back.safe.cursorCol_le
      (by omega : 0 ≤ term.cursorRow + 1) (by dsimp only; omega)
    exact { back with safe := safe, cursorRow := congrArg (· + 1) row }

theorem write (alike : Alike log term) (inside : term.cursorCol < term.cols)
    {ch : UInt8} (lower : 0x20 ≤ ch) (upper : ch ≠ 0x7f) :
    Alike (log.write ch) (term.putChar ch) := by
  have safe := alike.safe.putChar lower upper
  have row := alike.cursorRow
  have col := alike.cursorCol
  rw [Term.putChar_of_lt ch (alike.safe.inGrid inside) inside] at safe ⊢
  refine ⟨alike.ready, safe, alike.ground, alike.cols, alike.rows,
    alike.scrollTop, alike.scrollBottom, congrArg (· + 1) col, row, ?_⟩
  intro r c visible
  have before := alike.cells r c visible
  change (if r = log.cursorRow ∧ c = log.cursorCol then ch else log.cells r c) =
    Cell.ch (if r = term.cursorRow ∧ c = term.cursorCol then term.inked ch
      else term.grid r c)
  rw [row, col, before]
  split
  · rfl
  · rfl

theorem putGlyph (alike : Alike log term) {ch : UInt8} (lower : 0x20 ≤ ch)
    (upper : ch ≠ 0x7f) : Alike (log.putGlyph ch) (term.putChar ch) := by
  have col := alike.cursorCol
  have cols := alike.cols
  have wide : (0 : Int) < gfxCols := by decide
  have before := wrap_cursorCol_lt alike.safe.scrollable alike.safe.cols_pos
  rw [← putChar_wrap ch before]
  unfold Console.putGlyph
  by_cases resting : log.cursorCol ≥ gfxCols
  · have wrapped : term.wrap = { term with cursorCol := 0 }.lineFeed :=
      if_pos (by omega)
    rw [if_pos resting]
    rw [wrapped] at before ⊢
    exact alike.newline.write before lower upper
  · have stays : term.wrap = term := wrap_of_lt (by omega)
    rw [if_neg resting]
    rw [stays] at before ⊢
    exact alike.write before lower upper

end Alike

/-! ## A text -/

/-- A byte that the log and the terminal are both given: printable, a newline
or a carriage return. -/
def IsLogged (ch : UInt8) : Prop :=
  0x20 ≤ ch ∧ ch ≤ 0x7e ∨ ch = 0x0a ∨ ch = 0x0d

instance : DecidablePred IsLogged := fun _ =>
  inferInstanceAs (Decidable (_ ∨ _))

def crlf (ch : UInt8) : List UInt8 :=
  if ch = 0x0a then [0x0d, 0x0a] else [ch]

theorem IsLogged.ne_zero {ch : UInt8} (logged : IsLogged ch) : ch ≠ 0 := by
  rintro rfl
  exact absurd logged (by decide)

namespace Alike

variable {log : Console} {term : Term}

theorem put (alike : Alike log term) {ch : UInt8} (logged : IsLogged ch) :
    Alike (log.put ch) (termFeed (crlf ch) term) := by
  rcases logged with ⟨lower, upper⟩ | rfl | rfl
  · have control {code : UInt8} (small : ¬ 0x20 ≤ code) : ch ≠ code := by
      rintro rfl
      exact small lower
    have printable : ch ≠ 0x7f := by
      rintro rfl
      exact absurd upper (by decide)
    have fed : termFeed (crlf ch) term = term.putChar ch := by
      rw [crlf, if_neg (control (by decide))]
      change term.feedByte ch = _
      rw [feedByte_ground ch alike.ground, feedGround_printable lower printable]
    rw [fed, Console.put, if_neg (control (by decide)),
      if_neg (control (by decide)), if_neg (control (by decide))]
    exact alike.putGlyph lower printable
  · have fed : termFeed (crlf 0x0a) term =
        { term with cursorCol := 0 }.lineFeed := by
      change (term.feedByte 0x0d).feedByte 0x0a = _
      rw [feedByte_ground 0x0d alike.ground]
      exact feedByte_ground 0x0a alike.ground
    rw [fed]
    exact alike.newline
  · have fed : termFeed (crlf 0x0d) term = { term with cursorCol := 0 } :=
      feedByte_ground 0x0d alike.ground
    rw [fed]
    exact alike.returned

theorem putAll (alike : Alike log term) {text : List UInt8}
    (logged : ∀ ch ∈ text, IsLogged ch) :
    Alike (text.foldl Console.put log) (termFeed (text.flatMap crlf) term) := by
  induction text generalizing log term with
  | nil => exact alike
  | cons ch text ih =>
      rw [List.flatMap_cons, termFeed_append]
      exact ih (alike.put (logged ch List.mem_cons_self)) fun other member =>
        logged other (List.mem_cons_of_mem ch member)

theorem printf (alike : Alike log term) {text : List UInt8}
    (logged : ∀ ch ∈ text, IsLogged ch) (short : text.length < Console.textSize) :
    Alike (log.printf text).1 (termFeed (text.flatMap crlf) term) := by
  have noNul : 0 ∉ text := fun member => (logged 0 member).ne_zero rfl
  have whole : (copyField Console.textSize text).text = text :=
    copyField_text noNul short
  unfold Console.printf
  dsimp only
  rw [if_pos alike.ready, whole]
  exact alike.putAll logged

theorem printAll (alike : Alike log term) {texts : List (List UInt8)}
    (logged : ∀ text ∈ texts, ∀ ch ∈ text, IsLogged ch)
    (short : ∀ text ∈ texts, text.length < Console.textSize) :
    Alike (log.printAll texts) (termFeed (texts.flatten.flatMap crlf) term) := by
  induction texts generalizing log term with
  | nil => exact alike
  | cons text texts ih =>
      rw [List.flatten_cons, List.flatMap_append, termFeed_append]
      exact ih
        (alike.printf (logged text List.mem_cons_self)
          (short text List.mem_cons_self))
        (fun other member => logged other (List.mem_cons_of_mem text member))
        (fun other member => short other (List.mem_cons_of_mem text member))

theorem cellAt (alike : Alike log term) {row col : Int}
    (inRows : 0 ≤ row ∧ row < gfxRows) (inCols : 0 ≤ col ∧ col < gfxCols) :
    ((shown term).cellAt col row).map Cell.ch = some (log.cells row col) := by
  have rows := alike.rows
  have cols := alike.cols
  have visible : term.Visible row col :=
    ⟨inRows.1, by omega, inCols.1, by omega⟩
  have inside : ¬ (col < 0 ∨ row < 0 ∨ col ≥ term.cols ∨ row ≥ term.rows) := by
    omega
  rw [alike.cells row col visible]
  change (termAt col row term).map Cell.ch = _
  rw [termAt, if_neg inside]
  rfl

end Alike

/-- The console after these calls, and what a terminal shows that has been fed
the same text. -/
structure SameLayout (log : Console) (screen : Shown) : Prop where
  fits : log.Fits
  cursorCol : log.cursorCol = screen.cursorCol
  cursorRow : log.cursorRow = screen.cursorRow
  cells : ∀ row col, 0 ≤ row ∧ row < gfxRows → 0 ≤ col ∧ col < gfxCols →
    (screen.cellAt col row).map Cell.ch = some (log.cells row col)

/-- The boot log lays out text as the terminal does, however the text is
divided among the calls. -/
theorem console_lays_out_alike (log : Console) (calls : List TermCall)
    {texts : List (List UInt8)}
    (logged : ∀ text ∈ texts, ∀ ch ∈ text, IsLogged ch)
    (short : ∀ text ∈ texts, text.length < Console.textSize) :
    SameLayout (log.reset.printAll texts)
      (shown (termFeed (texts.flatten.flatMap crlf)
        (termReset gfxCols gfxRows (runCalls calls initial)))) := by
  have alike := (Alike.reset log).printAll logged short
  have forgets : shown (termFeed (texts.flatten.flatMap crlf)
      (termReset gfxCols gfxRows (runCalls calls initial))) =
      shown (termFeed (texts.flatten.flatMap crlf)
        (termReset gfxCols gfxRows initial)) :=
    shown_of_reset gfxCols gfxRows (runCalls calls initial)
      [.feed (texts.flatten.flatMap crlf)]
  rw [forgets]
  exact ⟨alike.fits, alike.cursorCol, alike.cursorRow, fun row col inRows
    inCols => alike.cellAt inRows inCols⟩

/-- Two calls, the second of which overwrites the line that the first began. -/
theorem console_lays_out_overwrite :
    SameLayout
      (Console.initial.reset.printAll [ascii "radio\nold", ascii "\rnew\n"])
      (shown (termFeed
        ([ascii "radio\nold", ascii "\rnew\n"].flatten.flatMap crlf)
        (termReset gfxCols gfxRows (runCalls [] initial)))) :=
  console_lays_out_alike Console.initial [] (by decide +kernel)
    (by decide +kernel)

end Pspssh.Screen
