import Pspssh.Hosts.Entry
import Pspssh.Screen.Drawing
import Pspssh.Terminal.Excursion
import Pspssh.Terminal.Reset

namespace Pspssh.Screen

open Pspssh.Data Pspssh.Hosts Pspssh.Terminal Pspssh.Terminal.Term

/-! The terminal as a session draws it, with its cursor. -/

def termRows : Int := gfxRows - 2

def termTop : Int := 1

/-- SGR's sixteen colours. -/
def palette : List UInt32 := [
  gfxRgb 0x00 0x00 0x00, gfxRgb 0xcc 0x44 0x44, gfxRgb 0x44 0xbb 0x55,
  gfxRgb 0xc0 0xa0 0x30, gfxRgb 0x50 0x80 0xd0, gfxRgb 0xb0 0x60 0xb0,
  gfxRgb 0x40 0xa8 0xa8, gfxRgb 0xc8 0xc8 0xc8, gfxRgb 0x60 0x60 0x60,
  gfxRgb 0xff 0x70 0x70, gfxRgb 0x70 0xf0 0x80, gfxRgb 0xf0 0xd0 0x60,
  gfxRgb 0x80 0xb0 0xff, gfxRgb 0xe0 0x90 0xe0, gfxRgb 0x70 0xe0 0xe0,
  gfxRgb 0xff 0xff 0xff]

def paletteAt (colour : UInt8) : UInt32 :=
  palette.getD (colour &&& 15).toNat 0

/-- The body of the loop over the cells. -/
def drawCell (blink : Bool) (term : Term) (row col : Int) : Drawing :=
  let cell := termAt col row term
  let ch := (cell.map Cell.ch).getD 0x20
  let fg := paletteAt ((cell.map Cell.fg).getD 7)
  let bg := paletteAt ((cell.map Cell.bg).getD 0)
  if blink ∧ row = term.cursorRow ∧ col = term.cursorCol then
    .glyph col (row + termTop) ch bg fg
  else .glyph col (row + termTop) ch fg bg

def screenPlaces : List (Int × Int) :=
  (List.range termRows.toNat).flatMap fun (row : Nat) =>
    (List.range gfxCols.toNat).map fun (col : Nat) => ((row : Int), (col : Int))

/-- `"%s@%s"` -/
def titleText (host : HostEntry) : List UInt8 :=
  host.user.text ++ ascii "@" ++ host.name.text

def legend : List UInt8 :=
  ascii "X type  [] enter  /\\ ctrl-c  O leave  dpad arrows"

/-- `draw_terminal`, with `bell_left` as an argument. -/
def drawTerminal (build : Build) (host : HostEntry) (blink clear : Bool)
    (bellLeft : Int) (term : Term) : List Drawing :=
  let bar :=
    if bellLeft > 0 ∧ bellLeft / 6 % 2 = 0 then gfxRed else gfxAccent
  (if clear then [.clear gfxBlack] else []) ++ titleBar build bar (titleText host) ++
    screenPlaces.map (fun place => drawCell blink term place.1 place.2) ++
    [.puts 1 (gfxRows - 1) legend gfxGrey gfxBlack]

/-! ## The cell that stands out -/

/-- What is drawn for the cell at `place` gets its two colours exchanged. -/
def exchangedAt (place : Int × Int) : Drawing → Drawing
  | .glyph col row ch fg bg =>
      if (row, col) = (place.1 + termTop, place.2) then
        .glyph col row ch bg fg
      else .glyph col row ch fg bg
  | other => other

/-- The call with `blink` set draws what the call without it draws, but for the
cell at `place`, whose colours are exchanged. -/
def CursorDrawnAt (build : Build) (host : HostEntry) (clear : Bool)
    (bellLeft : Int) (term : Term) (place : Int × Int) : Prop :=
  drawTerminal build host true clear bellLeft term =
    (drawTerminal build host false clear bellLeft term).map (exchangedAt place)

/-- The two colours of the cell are one. -/
def OneColour (term : Term) (place : Int × Int) : Prop :=
  ∀ cell, termAt place.2 place.1 term = some cell → cell.fg = cell.bg

theorem mem_screenPlaces {place : Int × Int} :
    place ∈ screenPlaces ↔
      (0 ≤ place.1 ∧ place.1 < termRows) ∧ 0 ≤ place.2 ∧ place.2 < gfxCols := by
  obtain ⟨row, col⟩ := place
  have height : termRows = 20 := rfl
  have width : gfxCols = 80 := rfl
  simp only [screenPlaces, List.mem_flatMap, List.mem_map, List.mem_range,
    Prod.mk.injEq, height, width]
  constructor
  · rintro ⟨r, rowLt, c, colLt, rfl, rfl⟩
    omega
  · rintro ⟨⟨rowLower, rowUpper⟩, colLower, colUpper⟩
    exact ⟨row.toNat, by omega, col.toNat, by omega, by omega, by omega⟩

theorem cursorDrawnAt_iff {build : Build} {host : HostEntry} {clear : Bool}
    {bellLeft : Int} {term : Term} {place : Int × Int} :
    CursorDrawnAt build host clear bellLeft term place ↔
      ∀ other ∈ screenPlaces,
        drawCell true term other.1 other.2 =
          exchangedAt place (drawCell false term other.1 other.2) := by
  have bare (bar : UInt32) :
      (titleBar build bar (titleText host)).map (exchangedAt place) =
        titleBar build bar (titleText host) := rfl
  have blank : (if clear then [Drawing.clear gfxBlack] else []).map
      (exchangedAt place) = if clear then [Drawing.clear gfxBlack] else [] := by
    cases clear with
    | true => rfl
    | false => rfl
  have foot : [Drawing.puts 1 (gfxRows - 1) legend gfxGrey gfxBlack].map
      (exchangedAt place) =
        [Drawing.puts 1 (gfxRows - 1) legend gfxGrey gfxBlack] := rfl
  unfold CursorDrawnAt drawTerminal
  dsimp only
  rw [List.map_append, List.map_append, List.map_append, bare, blank, foot,
    List.map_map, List.append_cancel_right_eq, List.append_cancel_left_eq,
      List.map_inj_left]
  rfl

theorem paletteAt_inj {left right : UInt8} (leftSmall : left ≤ 15)
    (rightSmall : right ≤ 15) (same : paletteAt left = paletteAt right) :
    left = right := by
  have every : ∀ i j : Fin 16,
      paletteAt (UInt8.ofNat i) = paletteAt (UInt8.ofNat j) → i = j := by
    decide +kernel
  have leftLt : left.toNat < 16 := Nat.lt_succ_of_le leftSmall
  have rightLt : right.toNat < 16 := Nat.lt_succ_of_le rightSmall
  have found := every ⟨left.toNat, leftLt⟩ ⟨right.toNat, rightLt⟩
    (by simpa using same)
  exact UInt8.toNat_inj.mp (Fin.mk.inj found)

/-- What the drawing relies on: the size of a session's terminal, a cursor in
one of its rows and colours that the palette has. -/
structure Drawn (term : Term) : Prop where
  cols : term.cols = gfxCols
  rows : term.rows = termRows
  row_nonneg : 0 ≤ term.cursorRow
  row_lt : term.cursorRow < termRows
  col_nonneg : 0 ≤ term.cursorCol
  colours : ∀ row col cell, termAt col row term = some cell →
    cell.fg ≤ 15 ∧ cell.bg ≤ 15

namespace Drawn

variable {term : Term}

theorem of_safe (safe : term.Safe) (cols : term.cols = gfxCols)
    (rows : term.rows = termRows) : Drawn term where
  cols := cols
  rows := rows
  row_nonneg := safe.cursorRow_nonneg
  row_lt := rows ▸ safe.cursorRow_lt
  col_nonneg := safe.cursorCol_nonneg
  colours := by
    intro row col cell found
    unfold termAt at found
    split at found
    · contradiction
    · rename_i inside
      cases found
      have drawable := safe.cells row col
        ⟨by omega, by omega, by omega, by omega⟩
      exact ⟨drawable.fg_le, drawable.bg_le⟩

theorem of_shown {other : Term} (drawn : Drawn term)
    (same : shown other = shown term) : Drawn other where
  cols := (congrArg Shown.cols same).trans drawn.cols
  rows := (congrArg Shown.rows same).trans drawn.rows
  row_nonneg := drawn.row_nonneg.trans_eq (congrArg Shown.cursorRow same).symm
  row_lt := (congrArg Shown.cursorRow same).trans_lt drawn.row_lt
  col_nonneg := drawn.col_nonneg.trans_eq (congrArg Shown.cursorCol same).symm
  colours := by
    intro row col cell found
    have cells : termAt col row other = termAt col row term :=
      congrFun (congrFun (congrArg Shown.cellAt same) col) row
    exact drawn.colours row col cell (cells.symm.trans found)

theorem exists_cell (drawn : Drawn term) {place : Int × Int}
    (onScreen : place ∈ screenPlaces) :
    ∃ cell, termAt place.2 place.1 term = some cell := by
  have cols := drawn.cols
  have rows := drawn.rows
  obtain ⟨⟨above, below⟩, left, right⟩ := mem_screenPlaces.mp onScreen
  have inside : ¬ (place.2 < 0 ∨ place.1 < 0 ∨ place.2 ≥ term.cols ∨
      place.1 ≥ term.rows) := by omega
  exact ⟨term.grid place.1 place.2, if_neg inside⟩

end Drawn

/-- The cell that stands out is the one at `last` while the cursor rests behind
the last column, and the next one to be written otherwise. -/
def cursorPlace (last : Int × Int) (term : Term) : Int × Int :=
  if term.cursorCol < term.cols then term.landing else last

theorem drawCell_blink (term : Term) (other : Int × Int) :
    drawCell true term other.1 other.2 =
      if other = (term.cursorRow, term.cursorCol) then
        exchangedAt other (drawCell false term other.1 other.2)
      else drawCell false term other.1 other.2 := by
  obtain ⟨row, col⟩ := other
  unfold drawCell
  split
  · rename_i here
    obtain ⟨_, rfl, rfl⟩ := here
    simp [exchangedAt]
  · rename_i elsewhere
    rw [if_neg]
    · simp
    · intro here
      cases here
      exact elsewhere ⟨rfl, rfl, rfl⟩

theorem drawCell_plain {term : Term} {place : Int × Int} {cell : Cell}
    (found : termAt place.2 place.1 term = some cell) :
    drawCell false term place.1 place.2 =
      .glyph place.2 (place.1 + termTop) cell.ch (paletteAt cell.fg)
        (paletteAt cell.bg) := by
  simp [drawCell, found]

theorem exchangedAt_other {term : Term} {place other : Int × Int}
    (apart : other ≠ place) :
    exchangedAt place (drawCell false term other.1 other.2) =
      drawCell false term other.1 other.2 := by
  obtain ⟨row, col⟩ := other
  have aside : ¬ ((row + termTop, col) = (place.1 + termTop, place.2)) := by
    intro same
    obtain ⟨rows, cols⟩ := Prod.mk.inj same
    exact apart (Prod.ext (add_right_cancel rows) cols)
  unfold drawCell
  rw [if_neg (by simp)]
  exact if_neg aside

theorem exchangedAt_self_iff {term : Term} (drawn : Drawn term)
    {place : Int × Int} (onScreen : place ∈ screenPlaces) :
    exchangedAt place (drawCell false term place.1 place.2) =
      drawCell false term place.1 place.2 ↔ OneColour term place := by
  obtain ⟨cell, found⟩ := drawn.exists_cell onScreen
  obtain ⟨fgSmall, bgSmall⟩ := drawn.colours _ _ cell found
  have exchanged : exchangedAt place (drawCell false term place.1 place.2) =
      .glyph place.2 (place.1 + termTop) cell.ch (paletteAt cell.bg)
        (paletteAt cell.fg) := by
    rw [drawCell_plain found]
    exact if_pos rfl
  rw [exchanged, drawCell_plain found]
  constructor
  · intro same other also
    obtain rfl := Option.some.inj (found.symm.trans also)
    exact (paletteAt_inj bgSmall fgSmall (Drawing.glyph.inj same).2.2.2.1).symm
  · intro one
    rw [one cell found]

theorem drawCell_resting {term : Term} (drawn : Drawn term)
    (resting : ¬ term.cursorCol < term.cols) {other : Int × Int}
    (member : other ∈ screenPlaces) :
    drawCell true term other.1 other.2 = drawCell false term other.1 other.2 := by
  have right := (mem_screenPlaces.mp member).2.2
  rw [drawCell_blink, if_neg]
  rintro rfl
  exact resting (right.trans_eq drawn.cols.symm)

/-- Behind the last column the cursor leaves no trace in what is drawn. -/
theorem drawTerminal_resting {build : Build} {host : HostEntry} {clear : Bool}
    {bellLeft : Int} {term : Term} (drawn : Drawn term)
    (resting : ¬ term.cursorCol < term.cols) :
    drawTerminal build host true clear bellLeft term =
      drawTerminal build host false clear bellLeft term := by
  have cells : screenPlaces.map (fun place => drawCell true term place.1 place.2) =
      screenPlaces.map (fun place => drawCell false term place.1 place.2) :=
    List.map_congr_left fun place member => drawCell_resting drawn resting member
  unfold drawTerminal
  rw [cells]

/-- The cursor stands out exactly if it is on a column that is drawn, or if
exchanging the colours makes no difference where it should. -/
theorem cursor_drawn {build : Build} {host : HostEntry} {clear : Bool}
    {bellLeft : Int} {term : Term} (drawn : Drawn term) {last : Int × Int}
    (onScreen : last ∈ screenPlaces) :
    CursorDrawnAt build host clear bellLeft term (cursorPlace last term) ↔
      term.cursorCol < term.cols ∨ OneColour term last := by
  rw [cursorDrawnAt_iff, cursorPlace]
  by_cases visible : term.cursorCol < term.cols
  · have landing : term.landing = (term.cursorRow, term.cursorCol) := by
      rw [Term.landing, wrap_of_lt visible]
    rw [if_pos visible, landing]
    refine iff_of_true (fun other _ => ?_) (.inl visible)
    rw [drawCell_blink]
    split
    · rename_i here
      rw [here]
    · rename_i apart
      exact (exchangedAt_other apart).symm
  · rw [if_neg visible]
    constructor
    · intro stands
      have here := stands last onScreen
      rw [drawCell_resting drawn visible onScreen] at here
      exact .inr ((exchangedAt_self_iff drawn onScreen).mp here.symm)
    · rintro (inside | one)
      · exact absurd inside visible
      intro other member
      rw [drawCell_resting drawn visible member]
      by_cases same : other = last
      · subst same
        exact ((exchangedAt_self_iff drawn onScreen).mpr one).symm
      · exact (exchangedAt_other same).symm

/-! ## A session -/

/-- The calls of a session's loop: a frame feeds the chunks that have arrived
and asks for the bell. -/
def sessionCalls (frames : List (List (List UInt8))) : List TermCall :=
  frames.flatMap fun chunks => chunks.map .feed ++ [.takeBell]

theorem sessionCalls_size {term : Term} (safe : term.Safe)
    (frames : List (List (List UInt8))) :
    (runCalls (sessionCalls frames) term).Safe ∧
      (runCalls (sessionCalls frames) term).cols = term.cols ∧
      (runCalls (sessionCalls frames) term).rows = term.rows := by
  induction frames generalizing term with
  | nil => exact ⟨safe, rfl, rfl⟩
  | cons chunks frames ih =>
      have fed : runCalls (chunks.map .feed) term =
          termFeed chunks.flatten term := by
        rw [termFeed_flatten, runCalls, List.foldl_map]
        rfl
      have frame : runCalls (sessionCalls (chunks :: frames)) term =
          runCalls (sessionCalls frames)
            (termTakeBell (termFeed chunks.flatten term)).2 := by
        rw [← fed]
        simp [sessionCalls, runCalls, TermCall.run]
      obtain ⟨cols, rows⟩ := termFeed_size safe chunks.flatten
      have asked : (termTakeBell (termFeed chunks.flatten term)).2.Safe :=
        { safe.termFeed chunks.flatten with }
      obtain ⟨later, colsLater, rowsLater⟩ := ih asked
      rw [frame]
      exact ⟨later, colsLater.trans cols, rowsLater.trans rows⟩

/-- The terminal of a session after these frames. -/
def sessionTerminal (earlier : List TermCall)
    (frames : List (List (List UInt8))) : Term :=
  runCalls (sessionCalls frames)
    (termReset gfxCols termRows (runCalls earlier initial))

theorem session_drawn (earlier : List TermCall)
    (frames : List (List (List UInt8))) :
    Drawn (sessionTerminal earlier frames) := by
  have fresh : (termReset gfxCols termRows initial).Safe := Term.Safe.fresh _ _
  have sized : (termReset gfxCols termRows initial).cols = gfxCols ∧
      (termReset gfxCols termRows initial).rows = termRows := by
    rw [termReset_eq]
    exact ⟨rfl, rfl⟩
  obtain ⟨safe, cols, rows⟩ := sessionCalls_size fresh frames
  have same : shown (sessionTerminal earlier frames) =
      shown (runCalls (sessionCalls frames)
        (termReset gfxCols termRows initial)) :=
    shown_of_reset gfxCols termRows (runCalls earlier initial)
      (sessionCalls frames)
  exact (Drawn.of_safe safe (cols.trans sized.1)
    (rows.trans sized.2)).of_shown same

/-- In every state of every session the cursor is drawn, as one cell with its
colours exchanged, exactly if it does not rest behind the last column or if the
exchange could not be seen. -/
theorem cursor_drawn_iff (build : Build) (host : HostEntry) (clear : Bool)
    (bellLeft : Int) (earlier : List TermCall)
    (frames : List (List (List UInt8))) {last : Int × Int}
    (onScreen : last ∈ screenPlaces) :
    let term := sessionTerminal earlier frames
    CursorDrawnAt build host clear bellLeft term (cursorPlace last term) ↔
      term.cursorCol < term.cols ∨ OneColour term last :=
  cursor_drawn (session_drawn earlier frames) onScreen

/-- A prompt, with the cursor behind it. -/
theorem cursor_drawn_at_prompt :
    CursorDrawnAt ⟨ascii "2.1.1", []⟩ hostsBlank true 0
      (sessionTerminal [] [[ascii "$ "]])
      (cursorPlace (0, 1) (sessionTerminal [] [[ascii "$ "]])) :=
  (cursor_drawn_iff ⟨ascii "2.1.1", []⟩ hostsBlank true 0 [] [[ascii "$ "]]
    (mem_screenPlaces.mpr (by decide))).mpr (.inl (by decide +kernel))

/-- A line as wide as the screen: no cell stands out. -/
theorem resting_cursor_is_not_drawn :
    let term := sessionTerminal [] [[List.replicate 80 0x61]]
    let build : Build := ⟨ascii "2.1.1", []⟩
    term.cursorCol = 80 ∧ term.cursorRow = 0 ∧
      (termAt 79 0 term).map Cell.ch = some 0x61 ∧
      drawTerminal build hostsBlank true true 0 term =
        drawTerminal build hostsBlank false true 0 term ∧
      ¬ CursorDrawnAt build hostsBlank true 0 term (cursorPlace (0, 79) term) := by
  intro term build
  have drawn : Drawn term := session_drawn [] [[List.replicate 80 0x61]]
  have col : term.cursorCol = 80 := by decide +kernel
  have row : term.cursorRow = 0 := by decide +kernel
  have letter : (termAt 79 0 term).map Cell.ch = some 0x61 := by decide +kernel
  have resting : ¬ term.cursorCol < term.cols := by decide +kernel
  have two : termAt 79 0 term = some ⟨0x61, 7, 0⟩ := by decide +kernel
  have onScreen : ((0, 79) : Int × Int) ∈ screenPlaces :=
    mem_screenPlaces.mpr (by decide)
  clear_value term
  refine ⟨col, row, letter, drawTerminal_resting drawn resting, fun stands => ?_⟩
  rcases (cursor_drawn drawn onScreen).mp stands with inside | one
  · exact resting inside
  · exact absurd (one _ two) (by decide)

end Pspssh.Screen
