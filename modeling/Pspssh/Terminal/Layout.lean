import Pspssh.Data.Page
import Pspssh.Terminal.Safety

namespace Pspssh.Terminal

open Pspssh.Data

/-! Plain text on a freshly reset terminal: the terminal shows the end of the
page on which the text is laid out. -/

def ink (ch : UInt8) : Cell where
  ch := ch
  fg := 7
  bg := 0

/-- The cell of a page, blank where nothing was written. -/
def pageCell (rows : List (List UInt8)) (row col : Nat) : Cell :=
  ((Page.charAt rows row col).map ink).getD defaultBlank

/-- The terminal of `width` by `height` shows the last rows of the page and
rests where its next character would go. -/
structure Shows (width height : Nat) (page : Page UInt8) (term : Term) :
    Prop where
  cols : term.cols = width
  rows : term.rows = height
  scrollTop : term.scrollTop = 0
  scrollBottom : term.scrollBottom = height - 1
  pen : term.pen = defaultPen
  state : term.state = .ground
  cursorRow : term.cursorRow = min page.above.length (height - 1)
  cursorCol : term.cursorCol = page.current.length
  short : page.current.length ≤ width
  cells : ∀ row col : Nat, row < height → col < width →
    term.grid row col =
      pageCell page.rows (page.rows.length - height + row) col

structure FitsScreen (width height : Nat) : Prop where
  width_pos : 1 ≤ width
  width_le : width ≤ 80
  height_pos : 1 ≤ height
  height_le : height ≤ 40

namespace Shows

variable {width height : Nat} {page : Page UInt8} {term : Term}

theorem reset (fits : FitsScreen width height) (term : Term) :
    Shows width height ⟨[], []⟩ (termReset width height term) := by
  obtain ⟨widthPos, widthLe, heightPos, heightLe⟩ := fits
  have cols : sizeWithin termMaxCols width = width :=
    sizeWithin_of_mem (by omega) (by unfold termMaxCols; omega)
  have rows : sizeWithin termMaxRows height = height :=
    sizeWithin_of_mem (by omega) (by unfold termMaxRows; omega)
  rw [termReset_eq, cols, rows]
  refine ⟨rfl, rfl, rfl, rfl, rfl, rfl, ?_, rfl, Nat.zero_le _, ?_⟩
  · simp
  · intro row col rowLt colLt
    dsimp only
    rw [if_pos ⟨by omega, by unfold termMaxRows; omega, by omega, by omega⟩]
    change _ = pageCell [[]] (1 - height + row) col
    rw [pageCell, Page.charAt_empty]
    rfl

theorem scrollable (fits : FitsScreen width height)
    (shows : Shows width height page term) : term.Scrollable := by
  obtain ⟨widthPos, widthLe, heightPos, heightLe⟩ := fits
  constructor
  · rw [shows.cols]
    omega
  · rw [shows.cols]
    unfold termMaxCols
    omega
  · exact Int.le_of_eq shows.scrollTop.symm
  · rw [shows.scrollTop, shows.scrollBottom]
    omega
  · rw [shows.scrollBottom]
    unfold termMaxRows
    omega

theorem newline (fits : FitsScreen width height)
    (shows : Shows width height page term) :
    Shows width height page.newline
      { term with cursorCol := 0 }.lineFeed := by
  have bounds := (shows.scrollable fits).moveCursor 0 term.cursorRow
  obtain ⟨widthPos, widthLe, heightPos, heightLe⟩ := fits
  obtain ⟨cols, rows, scrollTop, scrollBottom, pen, state, cursorRow,
    cursorCol, short, cells⟩ := shows
  have count := page.length_rows
  have blank : term.blank = defaultBlank := by
    unfold Term.blank
    rw [pen]
    rfl
  have kept (row col : Nat) :
      pageCell page.newline.rows row col = pageCell page.rows row col := by
    rw [pageCell, Page.charAt_newline]
    rfl
  have above : page.newline.above.length = page.above.length + 1 := count
  have total : page.newline.rows.length = page.rows.length + 1 := by simp
  rw [Term.lineFeed_eq bounds]
  dsimp only
  split
  · rename_i atBottom
    refine ⟨cols, rows, scrollTop, scrollBottom, pen, state, ?_, rfl,
      Nat.zero_le _, ?_⟩
    · change term.cursorRow = _
      omega
    · intro row col rowLt colLt
      change (if term.InRegion row col then
          if (row : Int) + 1 ≤ term.scrollBottom then term.grid (row + 1) col
          else term.blank
        else term.grid row col) = _
      rw [if_pos ⟨by omega, by omega, by omega, by omega⟩, kept, total]
      split
      · have next := cells (row + 1) col (by omega) colLt
        rw [show page.rows.length + 1 - height + row =
          page.rows.length - height + (row + 1) by omega]
        exact next
      · rw [blank, pageCell, Page.charAt_of_le (by omega)]
        rfl
  · rename_i notBottom
    rw [if_pos (by omega)]
    refine ⟨cols, rows, scrollTop, scrollBottom, pen, state, ?_, rfl,
      Nat.zero_le _, ?_⟩
    · change term.cursorRow + 1 = _
      omega
    · intro row col rowLt colLt
      change term.grid row col = _
      rw [kept, total, cells row col rowLt colLt,
        show page.rows.length + 1 - height + row =
          page.rows.length - height + row by omega]

theorem wrap (fits : FitsScreen width height)
    (shows : Shows width height page term)
    (full : page.current.length = width) :
    Shows width height page.newline term.wrap := by
  have past : term.cursorCol ≥ term.cols := by
    rw [shows.cursorCol, shows.cols, full]
  rw [Term.wrap, if_pos past]
  exact shows.newline fits

theorem write (fits : FitsScreen width height)
    (shows : Shows width height page term)
    (room : page.current.length < width) (ch : UInt8) :
    Shows width height { page with current := page.current ++ [ch] }
      (term.putChar ch) := by
  have bounds := shows.scrollable fits
  obtain ⟨widthPos, widthLe, heightPos, heightLe⟩ := fits
  obtain ⟨cols, rows, scrollTop, scrollBottom, pen, state, cursorRow,
    cursorCol, short, cells⟩ := shows
  have count := page.length_rows
  have before : term.cursorCol < term.cols := by omega
  have inside : Term.InGrid term.cursorRow term.cursorCol := by
    unfold Term.InGrid termMaxRows termMaxCols
    omega
  have inked : term.inked ch = ink ch := by
    unfold Term.inked Term.brightFg
    rw [pen]
    rfl
  rw [Term.putChar_of_lt ch inside before, inked]
  refine ⟨cols, rows, scrollTop, scrollBottom, pen, state, cursorRow, ?_, ?_,
    ?_⟩
  · change term.cursorCol + 1 = ((page.current ++ [ch]).length : Int)
    rw [List.length_append, List.length_singleton]
    omega
  · change (page.current ++ [ch]).length ≤ width
    rw [List.length_append, List.length_singleton]
    omega
  · intro row col rowLt colLt
    rw [Page.length_rows]
    change (if (row : Int) = term.cursorRow ∧ (col : Int) = term.cursorCol then
        ink ch else term.grid row col) =
      pageCell (page.above ++ [page.current ++ [ch]])
        (page.above.length + 1 - height + row) col
    rw [pageCell, Page.charAt_append, cells row col rowLt colLt, count]
    by_cases here : row = min page.above.length (height - 1) ∧
        col = page.current.length
    · rw [if_pos (by omega), if_pos (by omega)]
      rfl
    · rw [if_neg (by omega), if_neg (by omega)]
      rfl

theorem putChar (fits : FitsScreen width height)
    (shows : Shows width height page term) (ch : UInt8) :
    Shows width height (page.put width ch) (term.putChar ch) := by
  have short := shows.short
  unfold Page.put
  split
  · rename_i room
    exact shows.write fits room ch
  · rename_i noRoom
    have wrapped := shows.wrap fits (by omega)
    have written := wrapped.write fits fits.width_pos ch
    have before := Term.wrap_cursorCol_lt (shows.scrollable fits) (by
      rw [shows.cols]
      have := fits.width_pos
      omega)
    rw [Term.putChar_wrap ch before] at written
    exact written

theorem feed_printable (fits : FitsScreen width height)
    (shows : Shows width height page term) {ch : UInt8}
    (lower : 0x20 ≤ ch) (upper : ch ≠ 0x7f) :
    Shows width height (page.put width ch) (term.feedByte ch) := by
  rw [Term.feedByte_ground ch shows.state,
    Term.feedGround_printable lower upper]
  exact shows.putChar fits ch

theorem feed_line (fits : FitsScreen width height)
    (shows : Shows width height page term) {line : List UInt8}
    (printable : ∀ ch ∈ line, 0x20 ≤ ch ∧ ch ≠ 0x7f) :
    Shows width height (page.write width line) (termFeed line term) := by
  induction line generalizing page term with
  | nil => exact shows
  | cons ch rest ih =>
      have here := printable ch List.mem_cons_self
      exact ih (shows.feed_printable fits here.1 here.2)
        fun other member => printable other (List.mem_cons_of_mem ch member)

theorem feed_break (fits : FitsScreen width height)
    (shows : Shows width height page term) :
    Shows width height page.newline (termFeed [0x0d, 0x0a] term) := by
  have returned : term.feedByte 0x0d = { term with cursorCol := 0 } :=
    Term.feedByte_ground 0x0d shows.state
  have fed : ({ term with cursorCol := 0 } : Term).feedByte 0x0a =
      ({ term with cursorCol := 0 } : Term).lineFeed :=
    Term.feedByte_ground 0x0a shows.state
  change Shows width height page.newline ((term.feedByte 0x0d).feedByte 0x0a)
  rw [returned, fed]
  exact shows.newline fits

theorem feed_lines (fits : FitsScreen width height)
    (shows : Shows width height page term) {lines : List (List UInt8)}
    (printable : ∀ line ∈ lines, ∀ ch ∈ line, 0x20 ≤ ch ∧ ch ≠ 0x7f) :
    Shows width height (page.writeLines width lines)
      (termFeed ([0x0d, 0x0a].intercalate lines) term) := by
  induction lines generalizing page term with
  | nil => exact shows
  | cons line rest ih =>
      have fed := shows.feed_line fits (printable line List.mem_cons_self)
      cases rest with
      | nil => simpa [List.intercalate, Page.writeLines] using fed
      | cons next rest =>
          have joined : [0x0d, 0x0a].intercalate (line :: next :: rest) =
              line ++ ([0x0d, 0x0a] ++
                [0x0d, 0x0a].intercalate (next :: rest)) := by
            simp [List.intercalate]
          rw [joined, termFeed_append, termFeed_append]
          exact ih (fed.feed_break fits) fun other member =>
            printable other (List.mem_cons_of_mem line member)

end Shows

/-! ## The screen as rows of cells -/

def screen (term : Term) : List (List Cell) :=
  (List.range term.rows.toNat).map fun (row : Nat) =>
    (List.range term.cols.toNat).filterMap fun (col : Nat) =>
      termAt col row term

def lastRows (height : Nat) (rows : List (List α)) : List (List α) :=
  rows.drop (rows.length - height)

def padded (width : Nat) (row : List UInt8) : List Cell :=
  row.map ink ++ List.replicate (width - row.length) defaultBlank

/-- The last rows of the text, and blank rows below if there are too few. -/
def laidOut (width height : Nat) (rows : List (List UInt8)) :
    List (List Cell) :=
  (lastRows height rows).map (padded width) ++
    List.replicate (height - rows.length)
      (List.replicate width defaultBlank)

theorem pageCell_row (width : Nat) (rows : List (List UInt8)) (row : Nat)
    (short : ∀ text ∈ rows, text.length ≤ width) :
    (List.range width).map (pageCell rows row) =
      padded width (rows[row]?.getD []) := by
  have fits : (rows[row]?.getD []).length ≤ width := by
    cases found : rows[row]? with
    | none => exact Nat.zero_le width
    | some text => exact short text (List.mem_of_getElem? found)
  unfold pageCell Page.charAt padded
  generalize rows[row]?.getD [] = text at fits
  apply List.ext_getElem
  · simp
    omega
  · intro col left right
    rw [List.getElem_map, List.getElem_range, List.getElem_append]
    simp only [List.length_map, List.getElem_map, List.getElem_replicate]
    split
    · rename_i written
      rw [List.getElem?_eq_getElem written]
      rfl
    · rename_i beyond
      rw [List.getElem?_eq_none (by omega)]
      rfl

theorem Shows.screen_eq {width height : Nat} {page : Page UInt8} {term : Term}
    (shows : Shows width height page term)
    (short : ∀ text ∈ page.rows, text.length ≤ width) :
    screen term = laidOut width height page.rows := by
  have row_eq (row : Nat) (rowLt : row < height) :
      ((List.range width).filterMap fun (col : Nat) => termAt col row term) =
        padded width
          (page.rows[page.rows.length - height + row]?.getD []) := by
    rw [← pageCell_row width page.rows _ short,
      List.filterMap_eq_map_iff_forall_eq_some]
    intro col member
    have colLt := List.mem_range.mp member
    have visible : ¬ ((col : Int) < 0 ∨ (row : Int) < 0 ∨
        (col : Int) ≥ term.cols ∨ (row : Int) ≥ term.rows) := by
      rw [shows.cols, shows.rows]
      omega
    rw [termAt, if_neg visible, shows.cells row col rowLt colLt]
  have rows : term.rows.toNat = height := by rw [shows.rows]; rfl
  have cols : term.cols.toNat = width := by rw [shows.cols]; rfl
  unfold screen laidOut lastRows
  rw [rows, cols]
  apply List.ext_getElem
  · simp
    omega
  · intro row left right
    have rowLt : row < height := by simpa using left
    rw [List.getElem_map, List.getElem_range, row_eq row rowLt,
      List.getElem_append]
    simp only [List.length_map, List.length_drop, List.getElem_map,
      List.getElem_drop, List.getElem_replicate]
    split
    · rename_i shown
      rw [List.getElem?_eq_getElem (by omega)]
      rfl
    · rename_i below
      rw [List.getElem?_eq_none (by omega)]
      rfl

/-- Lines of printable bytes, joined by CR LF and fed to a fresh terminal, are
shown as the last of the rows they are cut into, and the cursor rests behind
the last character. -/
theorem feed_plain_text {width height : Nat} (fits : FitsScreen width height)
    (term : Term) {lines : List (List UInt8)} (some_line : lines ≠ [])
    (printable : ∀ line ∈ lines, ∀ ch ∈ line, 0x20 ≤ ch ∧ ch ≠ 0x7f) :
    let fed := termFeed ([0x0d, 0x0a].intercalate lines)
      (termReset width height term)
    let rows := lines.flatMap (pieces width)
    screen fed = laidOut width height rows ∧
      fed.cursorRow = ((lastRows height rows).length : Int) - 1 ∧
      fed.cursorCol = ((rows.getLast?.getD []).length : Int) := by
  intro fed rows
  have shows := (Shows.reset fits term).feed_lines fits printable
  have written :=
    Page.rows_writeLines fits.width_pos ([] : List (List UInt8)) some_line
  rw [List.nil_append] at written
  generalize Page.writeLines width ⟨[], []⟩ lines = page at shows written
  have short : ∀ text ∈ page.rows, text.length ≤ width := by
    intro text member
    rw [written] at member
    obtain ⟨line, _, piece⟩ := List.mem_flatMap.mp member
    exact length_le_of_mem_pieces fits.width_pos piece
  have same : rows = page.rows := written.symm
  refine ⟨?_, ?_, ?_⟩
  · rw [same]
    exact shows.screen_eq short
  · have := fits.height_pos
    rw [shows.cursorRow, same, lastRows, List.length_drop, page.length_rows]
    omega
  · rw [shows.cursorCol, same, Page.rows, List.getLast?_append]
    rfl

theorem feed_plain_text_wrapped :
    let term := termFeed ([0x0d, 0x0a].intercalate [[0x61, 0x62, 0x63]])
      (termReset 2 2 initial)
    screen term = laidOut 2 2 [[0x61, 0x62], [0x63]] ∧
      term.cursorRow = 1 ∧ term.cursorCol = 1 := by
  have fits : FitsScreen 2 2 := by constructor <;> decide
  have printable : ∀ line ∈ ([[0x61, 0x62, 0x63]] : List (List UInt8)),
      ∀ ch ∈ line, 0x20 ≤ ch ∧ ch ≠ 0x7f := by decide +kernel
  have wrapped : ([[0x61, 0x62, 0x63]] : List (List UInt8)).flatMap (pieces 2) =
      [[0x61, 0x62], [0x63]] := by simp [pieces]
  have placed := feed_plain_text fits initial (List.cons_ne_nil _ _) printable
  rw [wrapped] at placed
  exact placed

end Pspssh.Terminal
