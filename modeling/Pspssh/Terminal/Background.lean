import Pspssh.Terminal.Command
import Pspssh.Terminal.Printed

namespace Pspssh.Terminal

/-! The background of the cells that are cleared, beside that of the cells
that are printed. -/

namespace Term

variable {term : Term}

theorem bright_eq_iff {fg : Nat} (small : fg ≤ 15) :
    fg.toUInt8 = (fg ||| 8).toUInt8 ↔ 8 ≤ fg := by
  interval_cases fg <;> decide

/-- Bold brightens the foreground, which reverse makes the background. -/
theorem blank_bg_eq_iff (safe : term.Safe) (ch : UInt8) :
    term.blank.bg = (term.inked ch).bg ↔
      ¬ (term.pen.reverse = true ∧ term.pen.bold = true ∧ term.pen.fg < 8) := by
  have bright := bright_eq_iff safe.penFg_le
  unfold blank inked brightFg
  cases term.pen.reverse with
  | false => simp
  | true =>
      cases term.pen.bold with
      | false => simp
      | true => simpa using bright

theorem wrap_pen (safe : term.Safe) : term.wrap.pen = term.pen := by
  rw [wrap_frame safe.scrollable]

/-- The cell in front of the cursor, which the last character went to. -/
def justPrinted (term : Term) : Cell :=
  term.grid term.cursorRow (term.cursorCol - 1)

theorem justPrinted_putChar (safe : term.Safe) (ch : UInt8) :
    (term.putChar ch).justPrinted = term.inked ch := by
  have before := wrap_cursorCol_lt safe.scrollable safe.cols_pos
  rw [putChar_eq ch (safe.wrap.inGrid before)]
  have here : term.wrap.cursorCol + 1 - 1 = term.wrap.cursorCol := by omega
  simp [justPrinted, here, inked, brightFg, wrap_pen safe]

/-! ## The cells that are cleared -/

theorem lineFeed_bottom (safe : term.Safe)
    (bottom : term.cursorRow = term.scrollBottom) {c : Int} (left : 0 ≤ c)
    (right : c < term.cols) :
    term.lineFeed.grid term.scrollBottom c = term.blank := by
  have inside : term.InRegion term.scrollBottom c :=
    ⟨safe.scrollTop_le, Int.le_refl _, left, right⟩
  have scrolled : term.lineFeed = term.scrollRegionUp 1 := if_pos bottom
  rw [scrolled]
  exact (scrollRegionUp_clears safe (by decide) _ c).1 ⟨inside, by omega⟩

/-- Feeding these bytes blanks this cell: it is one of those that a command
clears, or in the row that a scrolling line feed opens. -/
inductive ClearedBy (term : Term) : List UInt8 → Int → Int → Prop where
  | command {body : List UInt8} {final : UInt8}
      (whole : ∀ ch ∈ body, IsBody ch) (last : IsFinal final) {r c : Int}
      (inside : term.Cleared final (Parameters.spelt body) r c) :
      ClearedBy term (csi body final) r c
  | lineFeed {data : List UInt8}
      (feeds : data = [0x0a] ∨ data = [0x1b, 0x44] ∨ data = [0x1b, 0x45])
      (bottom : term.cursorRow = term.scrollBottom) {c : Int} (left : 0 ≤ c)
      (right : c < term.cols) : ClearedBy term data term.scrollBottom c
  | wrap {ch : UInt8} (printable : IsPrintable ch)
      (resting : term.cols ≤ term.cursorCol)
      (bottom : term.cursorRow = term.scrollBottom) {c : Int} (behind : 0 < c)
      (right : c < term.cols) : ClearedBy term [ch] term.scrollBottom c

theorem ClearedBy.blank (safe : term.Safe) (ground : term.state = .ground)
    {data : List UInt8} {r c : Int} (cleared : term.ClearedBy data r c) :
    (termFeed data term).grid r c = term.blank := by
  cases cleared with
  | @command body final whole last r c inside =>
      obtain ⟨marker, fed⟩ := termFeed_csi ground whole last
      rw [fed]
      exact (dispatchCsi_clears (safe.collecting ground whole marker) final
        r c).1 inside
  | lineFeed feeds bottom left right =>
      have sawEsc : ({ term with state := .sawEsc } : Term).Safe :=
        safe.withState .sawEsc
      rcases feeds with rfl | rfl | rfl
      · rw [show termFeed [0x0a] term = term.feedGround 0x0a from
          feedByte_ground _ ground]
        exact lineFeed_bottom safe bottom left right
      · rw [termFeed_escaped ground 0x44 []]
        exact lineFeed_bottom sawEsc bottom left right
      · rw [termFeed_escaped ground 0x45 []]
        exact lineFeed_bottom sawEsc.returned bottom left right
  | @wrap ch printable resting bottom c behind right =>
      have wrapped : term.wrap = { term with cursorCol := 0 }.lineFeed :=
        if_pos resting
      have column : term.wrap.cursorCol = 0 := by
        rw [wrapped, lineFeed_frame safe.returned.scrollable]
      have before := wrap_cursorCol_lt safe.scrollable safe.cols_pos
      have fed : termFeed [ch] term = term.putChar ch :=
        feedByte_prints ⟨ground, printable⟩
      rw [fed, putChar_eq ch (safe.wrap.inGrid before)]
      have elsewhere : ¬ (term.scrollBottom = term.wrap.cursorRow ∧
          c = term.wrap.cursorCol) := by
        omega
      change (if _ then _ else _) = _
      rw [if_neg elsewhere, wrapped]
      exact lineFeed_bottom safe.returned bottom behind.le right

end Term

def printedSpace (before : Term) : Cell :=
  (termFeed [0x20] before).justPrinted

/-- A cell is cleared to the background of a printed space unless that is the
foreground of a reversed pen, which bold brightens in printing. -/
theorem cleared_background_iff (c r : Int) (calls : List TermCall)
    {data : List UInt8} {row col : Int}
    (cleared : (runCalls calls (termReset c r initial)).ready.ClearedBy data
      row col) :
    let before := (runCalls calls (termReset c r initial)).ready
    ((termFeed data before).grid row col).bg = (printedSpace before).bg ↔
      ¬ (before.pen.reverse = true ∧ before.pen.bold = true ∧
        before.pen.fg < 8) := by
  intro before
  have safe : before.Safe := ((Term.Safe.fresh c r).runCalls calls).ready
  have space : printedSpace before = before.inked 0x20 := by
    have prints : before.Prints 0x20 := ⟨rfl, by decide⟩
    have fed : termFeed [0x20] before = before.putChar 0x20 :=
      Term.feedByte_prints prints
    rw [printedSpace, fed]
    exact Term.justPrinted_putChar safe 0x20
  rw [cleared.blank safe rfl, space]
  exact Term.blank_bg_eq_iff safe 0x20

/-- `ESC [ K`. -/
theorem Term.clearedBy_erase {term : Term} {row col : Int}
    (inside : term.Visible row col ∧ term.ErasedInLine 0 row col) :
    term.ClearedBy (csi [] 0x4b) row col :=
  .command (List.forall_mem_nil _) (by decide) inside

/-- `ESC [ 31 ; 7 m` -/
def redReversed : List TermCall :=
  [.feed (csi [0x33, 0x31, 0x3b, 0x37] 0x6d)]

theorem cleared_background_reversed :
    (runCalls redReversed (termReset 20 4 initial)).ready.pen.reverse = true ∧
      ((termFeed (csi [] 0x4b)
          (runCalls redReversed (termReset 20 4 initial)).ready).grid 0 5).bg =
        (printedSpace (runCalls redReversed (termReset 20 4 initial)).ready).bg := by
  have inside :
      (runCalls redReversed (termReset 20 4 initial)).ready.Visible 0 5 ∧
        (runCalls redReversed (termReset 20 4 initial)).ready.ErasedInLine 0 0 5 := by
    decide +kernel
  exact ⟨by decide +kernel,
    (cleared_background_iff 20 4 redReversed (Term.clearedBy_erase inside)).mpr
      (by decide +kernel)⟩

/-- `ESC [ 1 ; 7 m` and then `ESC [ K`. -/
theorem bold_reverse_bar_changes_colour :
    let before := (runCalls [.feed (csi [0x31, 0x3b, 0x37] 0x6d)]
      (termReset 20 4 initial)).ready
    before.ClearedBy (csi [] 0x4b) 0 5 ∧
      ((termFeed (csi [] 0x4b) before).grid 0 5).bg ≠
        (printedSpace before).bg := by
  intro before
  have inside : before.Visible 0 5 ∧ before.ErasedInLine 0 0 5 := by
    decide +kernel
  exact ⟨Term.clearedBy_erase inside, by decide +kernel⟩

end Pspssh.Terminal
