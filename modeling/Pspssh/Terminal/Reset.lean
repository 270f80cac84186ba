import Pspssh.Terminal.Safety

namespace Pspssh.Terminal

open Pspssh.Data

namespace Term

/-! What a reset leaves over from the previous session, `params` and the cells
beyond the new size, is never read before it is overwritten. -/

/-- The state with the variables that a reset leaves over replaced. -/
@[simps] def scramble (term : Term) (grid : Int → Int → Cell)
    (params : Nat → Nat) (outOfBounds : Bool) : Term :=
  { term with grid, params, outOfBounds }

/-- Two states that differ in what cannot be seen: cells that are not on the
screen, and parameters while no control sequence is being read. -/
structure Agree (left right : Term) : Prop where
  rest : right = left.scramble right.grid right.params right.outOfBounds
  cells : ∀ r c, left.Visible r c → right.grid r c = left.grid r c
  params : left.state = .inCsi → right.params = left.params

theorem Scrollable.scramble {term : Term} (bounds : term.Scrollable)
    (grid : Int → Int → Cell) (params : Nat → Nat) (outOfBounds : Bool) :
    (term.scramble grid params outOfBounds).Scrollable :=
  ⟨bounds.wide, bounds.narrow, bounds.top_nonneg, bounds.top_le,
    bounds.bottom_lt⟩

theorem Geometry.scramble {term : Term} (geometry : term.Geometry)
    (grid : Int → Int → Cell) (params : Nat → Nat) (outOfBounds : Bool) :
    (term.scramble grid params outOfBounds).Geometry :=
  { geometry with }

namespace Agree

variable {left right : Term}

theorem split (agree : Agree left right) :
    ∃ grid params outOfBounds,
      right = left.scramble grid params outOfBounds ∧
        (∀ r c, left.Visible r c → grid r c = left.grid r c) ∧
        (left.state = .inCsi → params = left.params) :=
  ⟨_, _, _, agree.rest, agree.cells, agree.params⟩

theorem withGrid (agree : Agree left right)
    {leftGrid rightGrid : Int → Int → Cell}
    (cells : ∀ r c, left.Visible r c → rightGrid r c = leftGrid r c) :
    Agree (left.withGrid leftGrid) (right.withGrid rightGrid) := by
  refine ⟨?_, cells, agree.params⟩
  rw [agree.rest]
  rfl

theorem withState (agree : Agree left right) {state : ParserState}
    (outside : state ≠ .inCsi) :
    Agree { left with state } { right with state } := by
  obtain ⟨grid, params, outOfBounds, rfl, cells, same⟩ := agree.split
  exact ⟨rfl, cells, fun reading => absurd reading outside⟩

theorem moveCursor (agree : Agree left right) (col row : Int) :
    Agree { left with cursorCol := col, cursorRow := row }
      { right with cursorCol := col, cursorRow := row } := by
  obtain ⟨grid, params, outOfBounds, rfl, cells, same⟩ := agree.split
  exact ⟨rfl, cells, same⟩

/-! ## The grid operations -/

theorem blanks (agree : Agree left right) {erased : Int → Int → Prop}
    [∀ r c, Decidable (erased r c)] :
    Agree
      (left.withGrid fun r c =>
        if erased r c then left.blank else left.grid r c)
      (right.withGrid fun r c =>
        if erased r c then right.blank else right.grid r c) := by
  have blank : right.blank = left.blank := by
    rw [agree.rest]
    rfl
  apply agree.withGrid
  intro r c visible
  rw [blank, agree.cells r c visible]

theorem moves (agree : Agree left right) {inside kept : Int → Int → Prop}
    [∀ r c, Decidable (inside r c)] [∀ r c, Decidable (kept r c)]
    (row col : Int → Int → Int)
    (within : ∀ r c, left.Visible r c → inside r c → kept r c →
      left.Visible (row r c) (col r c)) :
    Agree
      (left.withGrid fun r c =>
        if inside r c then
          if kept r c then left.grid (row r c) (col r c) else left.blank
        else left.grid r c)
      (right.withGrid fun r c =>
        if inside r c then
          if kept r c then right.grid (row r c) (col r c) else right.blank
        else right.grid r c) := by
  have blank : right.blank = left.blank := by
    rw [agree.rest]
    rfl
  apply agree.withGrid
  intro r c visible
  rw [blank, agree.cells r c visible]
  split
  · rename_i covered
    split
    · rename_i moved
      exact agree.cells _ _ (within r c visible covered moved)
    · rfl
  · rfl

theorem scrollRegionUp (agree : Agree left right) (safe : left.Safe)
    {lines : Int} (forward : 0 ≤ lines) :
    Agree (left.scrollRegionUp lines) (right.scrollRegionUp lines) := by
  obtain ⟨grid, params, outOfBounds, rfl, cells, same⟩ := agree.split
  rw [scrollRegionUp_eq safe.scrollable forward,
    scrollRegionUp_eq (safe.scrollable.scramble _ _ _) forward]
  apply agree.moves (fun r _ => r + lines) fun _ c => c
  exact fun r c visible _ => safe.visible_up forward visible

theorem scrollRegionDown (agree : Agree left right) (safe : left.Safe)
    {lines : Int} (forward : 0 ≤ lines) :
    Agree (left.scrollRegionDown lines) (right.scrollRegionDown lines) := by
  obtain ⟨grid, params, outOfBounds, rfl, cells, same⟩ := agree.split
  rw [scrollRegionDown_eq safe.scrollable forward,
    scrollRegionDown_eq (safe.scrollable.scramble _ _ _) forward]
  apply agree.moves (fun r _ => r - lines) fun _ c => c
  exact fun r c visible _ =>
    Safe.visible_down forward visible safe.scrollTop_nonneg

theorem eraseInDisplay (agree : Agree left right) (safe : left.Safe)
    (mode : Nat) :
    Agree (left.eraseInDisplay mode) (right.eraseInDisplay mode) := by
  obtain ⟨grid, params, outOfBounds, rfl, cells, same⟩ := agree.split
  rw [eraseInDisplay_eq safe.toGeometry,
    eraseInDisplay_eq (safe.toGeometry.scramble _ _ _)]
  exact agree.blanks

theorem eraseInLine (agree : Agree left right) (safe : left.Safe)
    (mode : Nat) :
    Agree (left.eraseInLine mode) (right.eraseInLine mode) := by
  obtain ⟨grid, params, outOfBounds, rfl, cells, same⟩ := agree.split
  rw [eraseInLine_eq safe.toGeometry,
    eraseInLine_eq (safe.toGeometry.scramble _ _ _)]
  exact agree.blanks

theorem eraseChars (agree : Agree left right) (safe : left.Safe)
    (count : Int) : Agree (left.eraseChars count) (right.eraseChars count) := by
  obtain ⟨grid, params, outOfBounds, rfl, cells, same⟩ := agree.split
  rw [eraseChars_eq safe.toGeometry,
    eraseChars_eq (safe.toGeometry.scramble _ _ _)]
  exact agree.blanks

theorem deleteChars (agree : Agree left right) (safe : left.Safe)
    {count : Int} (forward : 0 ≤ count) :
    Agree (left.deleteChars count) (right.deleteChars count) := by
  obtain ⟨grid, params, outOfBounds, rfl, cells, same⟩ := agree.split
  rw [deleteChars_eq safe.toGeometry forward,
    deleteChars_eq (safe.toGeometry.scramble _ _ _) forward]
  apply agree.moves (fun r _ => r) fun _ c => c + count
  exact fun r c visible _ => Safe.visible_left forward visible

theorem insertChars (agree : Agree left right) (safe : left.Safe)
    {count : Int} (forward : 0 ≤ count) :
    Agree (left.insertChars count) (right.insertChars count) := by
  obtain ⟨grid, params, outOfBounds, rfl, cells, same⟩ := agree.split
  rw [insertChars_eq safe.toGeometry forward,
    insertChars_eq (safe.toGeometry.scramble _ _ _) forward]
  apply agree.moves (fun r _ => r) fun _ c => c - count
  exact fun r c visible _ => safe.visible_right forward visible

/-! ## Writing -/

theorem lineFeed (agree : Agree left right) (safe : left.Safe) :
    Agree left.lineFeed right.lineFeed := by
  have scrolled := agree.scrollRegionUp safe (by decide : (0 : Int) ≤ 1)
  have moved := agree.moveCursor left.cursorCol (left.cursorRow + 1)
  obtain ⟨grid, params, outOfBounds, rfl, cells, same⟩ := agree.split
  unfold Term.lineFeed
  simp only [scramble_cursorRow, scramble_scrollBottom, scramble_rows]
  split
  · exact scrolled
  split
  · exact moved
  · exact agree

theorem wrap (agree : Agree left right) (safe : left.Safe) :
    Agree left.wrap right.wrap := by
  have fed := (agree.moveCursor 0 left.cursorRow).lineFeed
    safe.returned
  obtain ⟨grid, params, outOfBounds, rfl, cells, same⟩ := agree.split
  unfold Term.wrap
  simp only [scramble_cursorCol, scramble_cols]
  split
  · exact fed
  · exact agree

theorem putChar (agree : Agree left right) (safe : left.Safe) (ch : UInt8) :
    Agree (left.putChar ch) (right.putChar ch) := by
  have inside : InGrid left.wrap.cursorRow left.wrap.cursorCol :=
    safe.wrap.inGrid (wrap_cursorCol_lt safe.scrollable safe.cols_pos)
  obtain ⟨grid, params, outOfBounds, wrapped, cells, same⟩ :=
    (agree.wrap safe).split
  rw [putChar_eq ch inside, putChar_eq ch (by rw [wrapped]; exact inside),
    wrapped]
  refine ⟨rfl, ?_, same⟩
  intro r c visible
  change (if r = left.wrap.cursorRow ∧ c = left.wrap.cursorCol then
      left.wrap.inked ch else grid r c) = _
  rw [cells r c visible]

theorem tab (agree : Agree left right) (safe : left.Safe) :
    Agree left.tab right.tab := by
  have stop : right.tabStop = left.tabStop := by
    rw [agree.rest]
    rfl
  have col : right.cursorCol = left.cursorCol := by
    rw [agree.rest]
    rfl
  unfold Term.tab
  rw [stop, col]
  refine (whileLoop_related (fun left right => Agree left right ∧ left.Safe)
    ?_ ?_ ⟨agree, safe⟩).1
  · intro left right inside
    obtain ⟨agree, _⟩ := inside
    rw [agree.rest]
    rfl
  · rintro left right ⟨agree, safe⟩ _
    exact ⟨agree.putChar safe 0x20, safe.putChar (by decide) (by decide)⟩

/-! ## Control sequences -/

theorem applySgr (agree : Agree left right) (safe : left.Safe)
    (reading : left.state = .inCsi) : Agree left.applySgr right.applySgr := by
  have counted := safe.paramCount_le
  obtain ⟨grid, params, outOfBounds, rfl, cells, same⟩ := agree.split
  obtain rfl := same reading
  unfold Term.applySgr
  simp only [scramble_paramCount]
  split
  · rw [writeParam_eq 0 (by decide), writeParam_eq 0 (by decide),
      applySgrFrom_eq (by exact (by decide : 1 ≤ maxParams)),
      applySgrFrom_eq (by exact (by decide : 1 ≤ maxParams))]
    exact ⟨rfl, cells, fun _ => rfl⟩
  · rw [applySgrFrom_eq counted, applySgrFrom_eq (by exact counted)]
    exact ⟨rfl, cells, fun _ => rfl⟩

theorem insertLines (agree : Agree left right) (safe : left.Safe)
    (reading : left.state = .inCsi) :
    Agree left.insertLines right.insertLines := by
  obtain ⟨grid, params, outOfBounds, rfl, cells, same⟩ := agree.split
  obtain rfl := same reading
  rw [insertLines_eq safe.toGeometry,
    insertLines_eq (safe.toGeometry.scramble _ _ _)]
  apply agree.moves (fun r _ => r - left.paramAt 0 1) fun _ c => c
  have count := left.paramAt_ge 0 (Int.le_refl 1)
  exact fun r c visible _ => Safe.visible_down (Int.le_of_lt count) visible
    safe.cursorRow_nonneg

theorem deleteLines (agree : Agree left right) (safe : left.Safe)
    (reading : left.state = .inCsi) :
    Agree left.deleteLines right.deleteLines := by
  obtain ⟨grid, params, outOfBounds, rfl, cells, same⟩ := agree.split
  obtain rfl := same reading
  rw [deleteLines_eq safe.toGeometry,
    deleteLines_eq (safe.toGeometry.scramble _ _ _)]
  apply agree.moves (fun r _ => r + left.paramAt 0 1) fun _ c => c
  have count := left.paramAt_ge 0 (Int.le_refl 1)
  exact fun r c visible _ => safe.visible_up (Int.le_of_lt count) visible

theorem setScrollRegion (agree : Agree left right)
    (reading : left.state = .inCsi) :
    Agree left.setScrollRegion right.setScrollRegion := by
  obtain ⟨grid, params, outOfBounds, rfl, cells, same⟩ := agree.split
  obtain rfl := same reading
  have sameParam (index : Fin maxParams) (fallback : Int) :
      (left.scramble grid left.params outOfBounds).paramAt index fallback =
        left.paramAt index fallback := rfl
  unfold Term.setScrollRegion
  simp only [sameParam, scramble_paramCount, scramble_rows]
  generalize (if left.paramCount > 1 then _ else _) = bottom
  split <;> exact ⟨rfl, cells, fun _ => rfl⟩

theorem dispatchCsi (agree : Agree left right) (safe : left.Safe)
    (reading : left.state = .inCsi) (final : UInt8) :
    Agree (left.dispatchCsi final) (right.dispatchCsi final) := by
  have count : 0 ≤ left.paramAt 0 1 := by
    have := left.paramAt_ge 0 (Int.le_refl 1)
    omega
  obtain ⟨grid, params, outOfBounds, rfl, cells, same⟩ := agree.split
  obtain rfl := same reading
  unfold Term.dispatchCsi
  split
  -- the ten cursor movements
  iterate 10 exact ⟨rfl, cells, fun _ => rfl⟩
  · exact agree.eraseInDisplay safe _
  · exact agree.eraseInLine safe _
  · exact agree.insertLines safe reading
  · exact agree.deleteLines safe reading
  · exact agree.deleteChars safe count
  · exact agree.insertChars safe count
  · exact agree.scrollRegionUp safe count
  · exact agree.scrollRegionDown safe count
  · exact agree.eraseChars safe _
  · exact agree.applySgr safe reading
  · exact agree.setScrollRegion reading
  · exact ⟨rfl, cells, fun _ => rfl⟩
  · exact ⟨rfl, cells, fun _ => rfl⟩
  · exact agree

/-! ## The parser -/

theorem feedGround (agree : Agree left right) (safe : left.Safe) (ch : UInt8) :
    Agree (left.feedGround ch) (right.feedGround ch) := by
  have escaped := agree.withState (by decide : ParserState.sawEsc ≠ .inCsi)
  have fed := agree.lineFeed safe
  have tabbed := agree.tab safe
  have written := agree.putChar safe ch
  obtain ⟨grid, params, outOfBounds, rfl, cells, same⟩ := agree.split
  unfold Term.feedGround
  split
  · exact escaped
  split
  · exact fed
  split
  · exact ⟨rfl, cells, same⟩
  split
  · rw [scramble_cursorCol]
    split
    · exact ⟨rfl, cells, same⟩
    · exact agree
  split
  · exact tabbed
  split
  · exact ⟨rfl, cells, same⟩
  split
  · exact written
  · exact agree

theorem reverseIndex (agree : Agree left right) (safe : left.Safe) :
    Agree left.reverseIndex right.reverseIndex := by
  have scrolled := agree.scrollRegionDown safe (by decide : (0 : Int) ≤ 1)
  have moved := agree.moveCursor left.cursorCol (left.cursorRow - 1)
  obtain ⟨grid, params, outOfBounds, rfl, cells, same⟩ := agree.split
  unfold Term.reverseIndex
  simp only [scramble_cursorRow, scramble_scrollTop]
  split
  · exact scrolled
  split
  · exact moved
  · exact agree

/-- Whatever the two states were, a reset to one size brings them into
agreement. -/
theorem termReset (c r : Int) (left right : Term) :
    Agree (termReset c r left) (termReset c r right) := by
  rw [termReset_eq, termReset_eq]
  refine ⟨rfl, ?_, fun reading => nomatch reading⟩
  intro row col inside
  obtain ⟨rowLower, rowUpper, colLower, colUpper⟩ := inside
  dsimp only at rowUpper colUpper ⊢
  have short := sizeWithin_le termMaxRows r
  rw [if_pos ⟨rowLower, by omega, colLower, colUpper⟩,
    if_pos ⟨rowLower, by omega, colLower, colUpper⟩]

theorem feedSawEsc (agree : Agree left right) (safe : left.Safe) (ch : UInt8) :
    Agree (left.feedSawEsc ch) (right.feedSawEsc ch) := by
  have reversed := agree.reverseIndex safe
  have fed := agree.lineFeed safe
  have nextLine := (agree.moveCursor 0 left.cursorRow).lineFeed
    safe.returned
  have restarted := termReset left.cols left.rows left right
  obtain ⟨grid, params, outOfBounds, rfl, cells, same⟩ := agree.split
  unfold Term.feedSawEsc
  split
  · exact ⟨rfl, cells, fun _ => rfl⟩
  iterate 5 exact agree.withState (by decide)
  · exact reversed.withState (by decide)
  · exact fed.withState (by decide)
  · exact nextLine.withState (by decide)
  · exact restarted
  · exact agree.withState (by decide)

theorem feedInCsi (agree : Agree left right) (safe : left.Safe)
    (reading : left.state = .inCsi) (ch : UInt8) :
    Agree (left.feedInCsi ch) (right.feedInCsi ch) := by
  have dispatched := agree.dispatchCsi safe reading ch
  obtain ⟨grid, params, outOfBounds, rfl, cells, same⟩ := agree.split
  obtain rfl := same reading
  unfold Term.feedInCsi
  split
  · rw [feedDigit_eq _ safe.paramCount_le,
      feedDigit_eq _ (by exact safe.paramCount_le)]
    exact ⟨rfl, cells, fun _ => rfl⟩
  split
  · exact ⟨rfl, cells, fun _ => rfl⟩
  split
  · exact ⟨rfl, cells, fun _ => rfl⟩
  split
  · exact dispatched.withState (by decide)
  · exact agree

theorem feedByte (agree : Agree left right) (safe : left.Safe) (ch : UInt8) :
    Agree (left.feedByte ch) (right.feedByte ch) := by
  have sameState : right.state = left.state := by
    rw [agree.rest]
    rfl
  unfold Term.feedByte
  rw [sameState]
  split
  · exact agree.feedGround safe ch
  · exact agree.feedSawEsc safe ch
  · rename_i reading
    exact agree.feedInCsi safe reading ch
  · unfold Term.feedInOsc
    split
    · exact agree.withState (by decide)
    split
    · exact agree.withState (by decide)
    · exact agree
  · apply agree.withState
    split <;> decide
  · exact agree.withState (by decide)

theorem termFeed (agree : Agree left right) (safe : left.Safe)
    (data : List UInt8) : Agree (termFeed data left) (termFeed data right) := by
  induction data generalizing left right with
  | nil => exact agree
  | cons ch rest ih => exact ih (agree.feedByte safe ch) (safe.feedByte ch)

theorem run (agree : Agree left right) (safe : left.Safe) (call : TermCall) :
    Agree (call.run left) (call.run right) := by
  cases call with
  | reset c r => exact termReset c r left right
  | feed data => exact agree.termFeed safe data
  | takeBell =>
      obtain ⟨grid, params, outOfBounds, rfl, cells, same⟩ := agree.split
      exact ⟨rfl, cells, same⟩

theorem runCalls (agree : Agree left right) (safe : left.Safe)
    (calls : List TermCall) :
    Agree (runCalls calls left) (runCalls calls right) := by
  induction calls generalizing left right with
  | nil => exact agree
  | cons call rest ih => exact ih (agree.run safe call) (safe.run call)

theorem shown_eq (agree : Agree left right) : shown right = shown left := by
  obtain ⟨grid, params, outOfBounds, rfl, cells, same⟩ := agree.split
  have sameCell (col row : Int) :
      termAt col row (left.scramble grid params outOfBounds) =
        termAt col row left := by
    unfold termAt
    simp only [scramble_cols, scramble_rows, scramble_grid]
    split
    · rfl
    · rw [cells row col ⟨by omega, by omega, by omega, by omega⟩]
  unfold shown
  simp only [sameCell]
  rfl

end Agree

end Term

/-- A reset forgets the state it finds, so it might as well be the first. -/
theorem shown_of_reset (c r : Int) (found : Term) (calls : List TermCall) :
    shown (runCalls calls (termReset c r found)) =
      shown (runCalls calls (termReset c r initial)) :=
  ((Term.Agree.termReset c r initial found).runCalls (Term.Safe.fresh c r)
    calls).shown_eq

/-- After a reset, what is shown depends on the size it was given and on what
is fed afterwards, however that is cut into pieces, and on nothing that was
called or fed before. -/
theorem reset_forgets (first second : List TermCall) (c r : Int)
    (left right : List TermCall)
    (same : left.flatMap TermCall.unpack = right.flatMap TermCall.unpack) :
    shown (runCalls left (termReset c r (runCalls first initial))) =
      shown (runCalls right (termReset c r (runCalls second initial))) := by
  calc
    shown (runCalls left (termReset c r (runCalls first initial))) =
        shown (runCalls left (termReset c r initial)) :=
      shown_of_reset c r _ left
    _ = shown (runCalls left (termReset c r (runCalls second initial))) :=
      (shown_of_reset c r _ left).symm
    _ = shown (runCalls right (termReset c r (runCalls second initial))) := by
      rw [← runCalls_unpack left, same, runCalls_unpack]

/-- A sequence that an earlier server left unfinished leaves no trace. -/
theorem reset_forgets_unfinished :
    shown (runCalls [.feed [0x68, 0x69]]
        (termReset 80 20 (runCalls [.feed [0x1b, 0x5b, 0x37]] initial))) =
      shown (runCalls [.feed [0x68], .feed [0x69]]
        (termReset 80 20 (runCalls [] initial))) :=
  reset_forgets [.feed [0x1b, 0x5b, 0x37]] [] 80 20 [.feed [0x68, 0x69]]
    [.feed [0x68], .feed [0x69]] rfl

end Pspssh.Terminal
