import Pspssh.Terminal.Motion
import Pspssh.Terminal.Printed

namespace Pspssh.Terminal

open Pspssh.Data

/-! Saving the cursor, going elsewhere and restoring it. -/

namespace Term

/-- What only a few bytes change: the saved cursor, the size and the bell. -/
def latches (term : Term) : Int × Int × Int × Int × Bool :=
  (term.savedCol, term.savedRow, term.cols, term.rows, term.bellRang)

def Saves (term : Term) (ch : UInt8) : Prop :=
  term.state = .inCsi ∧ ch = 0x73

def Restarts (term : Term) (ch : UInt8) : Prop :=
  term.state = .sawEsc ∧ ch = 0x63

def Rings (term : Term) (ch : UInt8) : Prop :=
  term.state = .ground ∧ ch = 0x07

instance (term : Term) (ch : UInt8) : Decidable (term.Saves ch) :=
  inferInstanceAs (Decidable (_ ∧ _))

instance (term : Term) (ch : UInt8) : Decidable (term.Restarts ch) :=
  inferInstanceAs (Decidable (_ ∧ _))

instance (term : Term) (ch : UInt8) : Decidable (term.Rings ch) :=
  inferInstanceAs (Decidable (_ ∧ _))

variable {term : Term}

theorem lineFeed_latches (safe : term.Safe) :
    term.lineFeed.latches = term.latches := by
  rw [lineFeed_frame safe.scrollable]
  rfl

theorem putChar_latches (safe : term.Safe) (ch : UInt8) :
    (term.putChar ch).latches = term.latches := by
  have before := wrap_cursorCol_lt safe.scrollable safe.cols_pos
  rw [putChar_eq ch (safe.wrap.inGrid before)]
  change term.wrap.latches = term.latches
  rw [wrap_frame safe.scrollable]
  rfl

theorem reverseIndex_latches (safe : term.Safe) :
    term.reverseIndex.latches = term.latches := by
  unfold reverseIndex
  split
  · rw [scrollRegionDown_eq safe.scrollable (by decide)]
    rfl
  split
  · rfl
  · rfl

theorem setScrollRegion_latches : term.setScrollRegion.latches = term.latches := by
  unfold setScrollRegion
  dsimp only
  generalize (if term.paramCount > 1 then _ else _) = bottom
  split
  · rfl
  · rfl

theorem dispatchCsi_latches (safe : term.Safe) {final : UInt8}
    (other : final ≠ 0x73) :
    (term.dispatchCsi final).latches = term.latches := by
  have forward : 0 ≤ term.paramAt 0 1 :=
    (Int.zero_le_ofNat 1).trans (term.paramAt_ge 0 (Int.le_refl 1))
  unfold dispatchCsi
  split
  -- the ten cursor movements
  iterate 10 rfl
  · rw [eraseInDisplay_eq safe.toGeometry]
    rfl
  · rw [eraseInLine_eq safe.toGeometry]
    rfl
  · rw [insertLines_eq safe.toGeometry]
    rfl
  · rw [deleteLines_eq safe.toGeometry]
    rfl
  · rw [deleteChars_eq safe.toGeometry forward]
    rfl
  · rw [insertChars_eq safe.toGeometry forward]
    rfl
  · rw [scrollRegionUp_eq safe.scrollable forward]
    rfl
  · rw [scrollRegionDown_eq safe.scrollable forward]
    rfl
  · rw [eraseChars_eq safe.toGeometry]
    rfl
  · obtain ⟨params, count, same⟩ := applySgr_eq safe.paramCount_le
    rw [same]
    rfl
  · exact setScrollRegion_latches
  · rename_i saves
    exact absurd (ofUInt8_inj saves) other
  · rfl
  · rfl

theorem feedGround_latches (safe : term.Safe) {ch : UInt8} (silent : ch ≠ 0x07) :
    (term.feedGround ch).latches = term.latches := by
  unfold feedGround
  split
  · rfl
  split
  · exact lineFeed_latches safe
  split
  · rfl
  split
  · split
    · rfl
    · rfl
  split
  · rw [tab_eq safe]
    rfl
  split
  · exact putChar_latches safe ch
  · rfl

theorem feedSawEsc_latches (safe : term.Safe) {ch : UInt8} (other : ch ≠ 0x63) :
    (term.feedSawEsc ch).latches = term.latches := by
  unfold feedSawEsc
  split
  iterate 6 rfl
  · exact reverseIndex_latches safe
  · exact lineFeed_latches safe
  · exact lineFeed_latches safe.returned
  · rename_i restarts
    exact absurd (ofUInt8_inj restarts) other
  · rfl

theorem feedInCsi_latches (safe : term.Safe) {ch : UInt8} (other : ch ≠ 0x73) :
    (term.feedInCsi ch).latches = term.latches := by
  unfold feedInCsi
  split
  · rw [feedDigit_eq _ safe.paramCount_le]
    rfl
  split
  · rfl
  split
  · rfl
  split
  · exact dispatchCsi_latches safe other
  · rfl

theorem feedByte_latches (safe : term.Safe) {ch : UInt8}
    (saves : ¬ term.Saves ch) (restarts : ¬ term.Restarts ch)
    (rings : ¬ term.Rings ch) : (term.feedByte ch).latches = term.latches := by
  unfold feedByte
  split
  · rename_i ground
    exact feedGround_latches safe fun bell => rings ⟨ground, bell⟩
  · rename_i escaped
    exact feedSawEsc_latches safe fun reset => restarts ⟨escaped, reset⟩
  · rename_i reading
    exact feedInCsi_latches safe fun save => saves ⟨reading, save⟩
  · unfold feedInOsc
    split
    · rfl
    split
    · rfl
    · rfl
  · rfl
  · rfl

theorem feedByte_rings {ch : UInt8} (rings : term.Rings ch) :
    term.feedByte ch = { term with bellRang := true } := by
  obtain ⟨ground, rfl⟩ := rings
  exact feedByte_ground 0x07 ground

def savedPlace (term : Term) : Int × Int × Int × Int :=
  (term.savedCol, term.savedRow, term.cols, term.rows)

theorem feedByte_savedPlace (safe : term.Safe) {ch : UInt8}
    (saves : ¬ term.Saves ch) (restarts : ¬ term.Restarts ch) :
    (term.feedByte ch).savedPlace = term.savedPlace := by
  by_cases rings : term.Rings ch
  · rw [feedByte_rings rings]
    rfl
  · have same := feedByte_latches safe saves restarts rings
    exact congrArg (fun (col, row, cols, rows, _) => (col, row, cols, rows)) same

theorem feedByte_size (safe : term.Safe) (ch : UInt8) :
    (term.feedByte ch).cols = term.cols ∧ (term.feedByte ch).rows = term.rows := by
  by_cases restarts : term.Restarts ch
  · obtain ⟨escaped, rfl⟩ := restarts
    have reset : term.feedByte 0x63 = termReset term.cols term.rows term :=
      feedByte_sawEsc 0x63 escaped
    rw [reset, termReset_eq]
    exact ⟨sizeWithin_of_mem safe.cols_pos safe.cols_le,
      sizeWithin_of_mem safe.rows_pos safe.rows_le⟩
  by_cases saves : term.Saves ch
  · obtain ⟨reading, rfl⟩ := saves
    rw [feedByte_final reading (by decide)]
    exact ⟨rfl, rfl⟩
  · have same := feedByte_savedPlace safe saves restarts
    exact ⟨congrArg (·.2.2.1) same, congrArg (·.2.2.2) same⟩

theorem termFeed_size (safe : term.Safe) (data : List UInt8) :
    (termFeed data term).cols = term.cols ∧
      (termFeed data term).rows = term.rows := by
  induction data generalizing term with
  | nil => exact ⟨rfl, rfl⟩
  | cons ch rest ih =>
      obtain ⟨cols, rows⟩ := feedByte_size safe ch
      obtain ⟨colsLater, rowsLater⟩ := ih (safe.feedByte ch)
      exact ⟨colsLater.trans cols, rowsLater.trans rows⟩

/-- The stream saves no cursor and carries out no full reset. -/
def KeepsSaved (stream : List UInt8) (term : Term) : Prop :=
  Throughout feedByte (fun state ch => ¬ state.Saves ch ∧ ¬ state.Restarts ch)
    term stream

theorem savedPlace_kept (safe : term.Safe) {stream : List UInt8}
    (keeps : KeepsSaved stream term) :
    (termFeed stream term).savedPlace = term.savedPlace :=
  (keeps.invariant (fun state => state.Safe ∧ state.savedPlace = term.savedPlace)
    (fun _ ch ⟨reached, same⟩ ⟨saves, restarts⟩ =>
      ⟨reached.feedByte ch,
        (feedByte_savedPlace reached saves restarts).trans same⟩)
    ⟨safe, rfl⟩).2

/-! ## Where text lands -/

/-- The cell that the next printed character takes. -/
def landing (term : Term) : Int × Int :=
  (term.wrap.cursorRow, term.wrap.cursorCol)

/-- The cursor is in one place on screens of one size, which scroll at one
row. -/
structure SamePlace (left right : Term) : Prop where
  cursorCol : right.cursorCol = left.cursorCol
  cursorRow : right.cursorRow = left.cursorRow
  cols : right.cols = left.cols
  rows : right.rows = left.rows
  scrollBottom : right.scrollBottom = left.scrollBottom

namespace SamePlace

variable {left right : Term}

theorem lineFeed (same : SamePlace left right) (leftSafe : left.Safe)
    (rightSafe : right.Safe) : SamePlace left.lineFeed right.lineFeed := by
  have row := same.cursorRow
  have rows := same.rows
  have bottom := same.scrollBottom
  rw [lineFeed_eq leftSafe.scrollable, lineFeed_eq rightSafe.scrollable]
  by_cases last : left.cursorRow = left.scrollBottom
  · have rightLast : right.cursorRow = right.scrollBottom := by omega
    rw [if_pos last, if_pos rightLast]
    exact { same with }
  have rightBefore : right.cursorRow ≠ right.scrollBottom := by omega
  rw [if_neg last, if_neg rightBefore]
  by_cases above : left.cursorRow < left.rows - 1
  · have rightAbove : right.cursorRow < right.rows - 1 := by omega
    rw [if_pos above, if_pos rightAbove]
    exact { same with cursorRow := congrArg (· + 1) row }
  · have rightBelow : ¬ right.cursorRow < right.rows - 1 := by omega
    rw [if_neg above, if_neg rightBelow]
    exact same

theorem wrap (same : SamePlace left right) (leftSafe : left.Safe)
    (rightSafe : right.Safe) : SamePlace left.wrap right.wrap := by
  have returned : SamePlace { left with cursorCol := 0 }
      { right with cursorCol := 0 } := { same with cursorCol := rfl }
  have col := same.cursorCol
  have cols := same.cols
  unfold Term.wrap
  split
  · rw [if_pos (by omega)]
    exact returned.lineFeed leftSafe.returned rightSafe.returned
  · rw [if_neg (by omega)]
    exact same

theorem putChar (same : SamePlace left right) (leftSafe : left.Safe)
    (rightSafe : right.Safe) (ch : UInt8) :
    SamePlace (left.putChar ch) (right.putChar ch) := by
  have wrapped := same.wrap leftSafe rightSafe
  have leftInside := leftSafe.wrap.inGrid
    (wrap_cursorCol_lt leftSafe.scrollable leftSafe.cols_pos)
  have rightInside := rightSafe.wrap.inGrid
    (wrap_cursorCol_lt rightSafe.scrollable rightSafe.cols_pos)
  rw [putChar_eq ch leftInside, putChar_eq ch rightInside]
  exact { wrapped with
    cursorCol := congrArg (· + 1) wrapped.cursorCol }

theorem landing_eq (same : SamePlace left right) (leftSafe : left.Safe)
    (rightSafe : right.Safe) : right.landing = left.landing := by
  have wrapped := same.wrap leftSafe rightSafe
  exact Prod.ext wrapped.cursorRow wrapped.cursorCol

theorem feed (same : SamePlace left right) (leftSafe : left.Safe)
    (rightSafe : right.Safe) (leftGround : left.state = .ground)
    (rightGround : right.state = .ground) {text : List UInt8}
    (printable : ∀ ch ∈ text, IsPrintable ch) :
    (termFeed text right).landing = (termFeed text left).landing := by
  induction text generalizing left right with
  | nil => exact same.landing_eq leftSafe rightSafe
  | cons ch text ih =>
      have prints := printable ch List.mem_cons_self
      have put {state : Term} (ground : state.state = .ground) :
          state.feedByte ch = state.putChar ch :=
        feedByte_prints ⟨ground, prints⟩
      change (termFeed text (right.feedByte ch)).landing =
        (termFeed text (left.feedByte ch)).landing
      rw [put leftGround, put rightGround]
      exact ih (same.putChar leftSafe rightSafe ch)
        (leftSafe.putChar prints.1 prints.2) (rightSafe.putChar prints.1 prints.2)
        ((putChar_state leftSafe ch).trans leftGround)
        ((putChar_state rightSafe ch).trans rightGround)
        fun other member => printable other (List.mem_cons_of_mem ch member)

end SamePlace

end Term

/-- `ESC [ s`, the stream, `ESC [ u`. -/
def excursion (stream : List UInt8) : List UInt8 :=
  csi [] 0x73 ++ (stream ++ csi [] 0x75)

/-- The cursor is back, the next character lands where it would have landed
before, and so does any text if both screens scroll at one row. -/
structure PutBack (before after : Term) : Prop where
  cursorCol : after.cursorCol = before.cursorCol
  cursorRow : after.cursorRow = before.cursorRow
  next : after.landing = before.landing
  text : after.scrollBottom = before.scrollBottom →
    ∀ text, (∀ ch ∈ text, IsPrintable ch) →
      (termFeed text after).landing = (termFeed text before).landing

open Term

variable {term : Term}

theorem termFeed_save (ground : term.state = .ground) :
    ∃ marker, termFeed (csi [] 0x73) term =
      { term.collecting .none marker with
        state := .ground, savedCol := term.cursorCol
        savedRow := term.cursorRow } :=
  termFeed_csi ground (by simp) (by decide)

theorem termFeed_restore (safe : term.Safe) (ground : term.state = .ground) :
    ∃ marker, termFeed (csi [] 0x75) term =
      { term.collecting .none marker with
        state := .ground
        cursorCol := min term.savedCol (term.cols - 1)
        cursorRow := term.savedRow } := by
  have bare : ∀ ch ∈ ([] : List UInt8), IsBody ch := List.forall_mem_nil _
  obtain ⟨marker, fed⟩ := termFeed_csi ground bare (by decide : IsFinal 0x75)
  have reading := safe.collecting ground bare marker
  have colLower := safe.savedCol_nonneg
  have rowLower := safe.savedRow_nonneg
  have rowUpper := safe.savedRow_lt
  have col : min (max 0 term.savedCol) (term.cols - 1) =
      min term.savedCol (term.cols - 1) := by omega
  have row : min (max 0 term.savedRow) (term.rows - 1) = term.savedRow := by
    omega
  have clamped : (term.collecting (.spelt []) marker).dispatchCsi 0x75 =
      { term.collecting (.spelt []) marker with
        cursorCol := min term.savedCol (term.cols - 1)
        cursorRow := term.savedRow } := by
    refine (clampCursor_eq reading.toGeometry _ _).trans ?_
    change { term.collecting (.spelt []) marker with
      cursorCol := min (max 0 term.savedCol) (term.cols - 1)
      cursorRow := min (max 0 term.savedRow) (term.rows - 1) } = _
    rw [col, row]
  refine ⟨marker, ?_⟩
  rw [fed, clamped]
  rfl

/-- Restoring puts the cursor back exactly if it did not rest past the last
column when it was saved. -/
theorem restore_exact_iff (c r : Int) (calls : List TermCall) {before : Term}
    (reached : before = runCalls calls (termReset c r initial))
    (ground : before.state = .ground) {stream : List UInt8}
    (keeps : KeepsSaved stream (termFeed (csi [] 0x73) before))
    (returns : (termFeed (csi [] 0x73 ++ stream) before).state = .ground) :
    PutBack before (termFeed (excursion stream) before) ↔
      before.cursorCol < before.cols := by
  have safe : before.Safe := reached ▸ (Term.Safe.fresh c r).runCalls calls
  obtain ⟨marker, saved⟩ := termFeed_save ground
  have place : (termFeed (csi [] 0x73 ++ stream) before).savedPlace =
      (before.cursorCol, before.cursorRow, before.cols, before.rows) := by
    rw [termFeed_append, savedPlace_kept (safe.termFeed _) keeps, saved]
    rfl
  have whole : termFeed (excursion stream) before =
      termFeed (csi [] 0x75) (termFeed (csi [] 0x73 ++ stream) before) := by
    rw [excursion, ← List.append_assoc, termFeed_append]
  have farSafe := safe.termFeed (csi [] 0x73 ++ stream)
  rw [whole]
  generalize termFeed (csi [] 0x73 ++ stream) before = far at *
  obtain ⟨marker, restored⟩ := termFeed_restore farSafe returns
  have afterSafe := farSafe.termFeed (csi [] 0x75)
  have savedCol : far.savedCol = before.cursorCol := congrArg (·.1) place
  have savedRow : far.savedRow = before.cursorRow := congrArg (·.2.1) place
  have cols : far.cols = before.cols := congrArg (·.2.2.1) place
  have rows : far.rows = before.rows := congrArg (·.2.2.2) place
  rw [restored] at afterSafe ⊢
  constructor
  · intro back
    have col : min far.savedCol (far.cols - 1) = before.cursorCol :=
      back.cursorCol
    omega
  · intro visible
    have col : min far.savedCol (far.cols - 1) = before.cursorCol := by omega
    have stays := wrap_of_lt visible
    refine ⟨col, savedRow, ?_, ?_⟩
    · have inside : min far.savedCol (far.cols - 1) < far.cols := by omega
      unfold landing
      rw [stays, wrap_of_lt inside]
      exact Prod.ext savedRow col
    · intro bottom text printable
      refine SamePlace.feed ?_ safe afterSafe ground rfl printable
      exact ⟨col, savedRow, cols, rows, bottom⟩

/-- Two lines down and some text, from the third column. -/
theorem restore_exact_mid_line :
    PutBack (runCalls [.feed (ascii "ab")] (termReset 10 4 initial))
      (termFeed (excursion (csi [0x32] 0x42 ++ ascii "xyz"))
        (runCalls [.feed (ascii "ab")] (termReset 10 4 initial))) := by
  have keeps : KeepsSaved (csi [0x32] 0x42 ++ ascii "xyz")
      (termFeed (csi [] 0x73)
        (runCalls [.feed (ascii "ab")] (termReset 10 4 initial))) := by
    unfold KeepsSaved
    decide +kernel
  exact (restore_exact_iff 10 4 [.feed (ascii "ab")] rfl (by decide +kernel)
    keeps (by decide +kernel)).mpr (by decide +kernel)

/-- A full line, then save and restore with nothing between. -/
theorem resting_cursor_is_moved :
    let before := runCalls [.feed (ascii "abcd")] (termReset 4 2 initial)
    let after := termFeed (excursion []) before
    before.state = .ground ∧ KeepsSaved [] (termFeed (csi [] 0x73) before) ∧
      (termFeed (csi [] 0x73 ++ []) before).state = .ground ∧
      before.cursorCol = 4 ∧ after.cursorCol = 3 ∧
      before.landing = (1, 0) ∧ after.landing = (0, 3) ∧
      ¬ PutBack before after := by
  intro before after
  have ground : before.state = .ground := by decide +kernel
  have returns : (termFeed (csi [] 0x73 ++ []) before).state = .ground := by
    decide +kernel
  have saved : before.cursorCol = 4 := by decide +kernel
  have restored : after.cursorCol = 3 := by decide +kernel
  have wraps : before.landing = (1, 0) := by decide +kernel
  have overwrites : after.landing = (0, 3) := by decide +kernel
  clear_value after before
  refine ⟨ground, throughout_nil, returns, saved, restored, wraps, overwrites,
    fun back => ?_⟩
  have same := back.cursorCol
  omega

end Pspssh.Terminal
