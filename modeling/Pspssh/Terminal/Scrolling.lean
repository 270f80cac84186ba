import Pspssh.Data.Shift
import Pspssh.Terminal.Command

namespace Pspssh.Terminal

open Pspssh.Data

/-! Scrolling, inserting and deleting lines, as one move of a block of rows. -/

namespace Term

def rowsBetween (top bottom : Int) (term : Term) : List (List Cell) :=
  stretch (fun r => stretch (term.grid r) 0 term.cols) top (bottom + 1)

def withRows (top : Int) (rows : List (List Cell)) (term : Term) : Term :=
  term.withGrid fun r =>
    splice (term.grid r) 0 (splice (fun _ => []) top rows r)

def blankLine (term : Term) : List Cell :=
  List.replicate term.cols.toNat term.blank

/-- A line operation works on the rows of the region only. -/
def CursorInRegion (term : Term) : Prop :=
  term.scrollTop ≤ term.cursorRow ∧ term.cursorRow ≤ term.scrollBottom

instance (term : Term) : Decidable term.CursorInRegion :=
  inferInstanceAs (Decidable (_ ∧ _))

variable {term : Term}

theorem withRows_stretch (lines : Int → Int → Cell) (top bottom : Int) :
    term.withRows top
        (stretch (fun r => stretch (lines r) 0 term.cols) top (bottom + 1)) =
      term.withGrid fun r c =>
        if top ≤ r ∧ r ≤ bottom ∧ 0 ≤ c ∧ c < term.cols then lines r c
        else term.grid r c := by
  apply withGrid_congr
  intro r c
  rw [splice_stretch]
  by_cases inside : top ≤ r ∧ r < bottom + 1
  · rw [if_pos inside, splice_stretch]
    apply if_congr _ rfl rfl
    omega
  · rw [if_neg inside, splice_nil, if_neg (by omega)]

/-! ## Moving the rows up or down -/

theorem deleteFront_rows (top bottom : Int) (count : Nat) :
    deleteFront count term.blankLine (term.rowsBetween top bottom) =
      stretch (fun r => stretch (fun c =>
        if r + count ≤ bottom then term.grid (r + count) c else term.blank)
          0 term.cols) top (bottom + 1) := by
  rw [rowsBetween, deleteFront_stretch]
  apply stretch_congr
  intro r _ _
  by_cases kept : r + count ≤ bottom
  · simp only [Int.lt_add_one_iff, if_pos kept]
  · simp [kept, stretch_const, blankLine]

theorem insertFront_rows (top bottom : Int) (count : Nat) :
    insertFront count term.blankLine (term.rowsBetween top bottom) =
      stretch (fun r => stretch (fun c =>
        if top ≤ r - count then term.grid (r - count) c else term.blank)
          0 term.cols) top (bottom + 1) := by
  rw [rowsBetween, insertFront_stretch]
  apply stretch_congr
  intro r _ _
  by_cases kept : top ≤ r - count
  · simp only [if_pos kept]
  · simp [kept, stretch_const, blankLine]

theorem scrollRegionUp_rows (geometry : term.Geometry) (count : Nat) :
    term.scrollRegionUp count =
      term.withRows term.scrollTop (deleteFront count term.blankLine
        (term.rowsBetween term.scrollTop term.scrollBottom)) := by
  rw [scrollRegionUp_eq geometry.scrollable (Int.natCast_nonneg count),
    deleteFront_rows, withRows_stretch]
  rfl

theorem scrollRegionDown_rows (geometry : term.Geometry) (count : Nat) :
    term.scrollRegionDown count =
      term.withRows term.scrollTop (insertFront count term.blankLine
        (term.rowsBetween term.scrollTop term.scrollBottom)) := by
  rw [scrollRegionDown_eq geometry.scrollable (Int.natCast_nonneg count),
    insertFront_rows, withRows_stretch]
  rfl

theorem withGrid_below (lines : Int → Int → Cell) :
    (term.withGrid fun r c =>
        if term.BelowCursor r c then lines r c else term.grid r c) =
      if term.CursorInRegion then
        term.withRows term.cursorRow
          (stretch (fun r => stretch (lines r) 0 term.cols) term.cursorRow
            (term.scrollBottom + 1))
      else term := by
  split
  · rename_i inside
    rw [withRows_stretch]
    apply withGrid_congr
    intro r c
    exact if_congr (and_iff_right inside.1) rfl rfl
  · rename_i outside
    apply (eq_withGrid _).symm
    intro r c
    apply if_neg
    rintro ⟨top, above, below, _⟩
    exact outside ⟨top, above.trans below⟩

/-! ## The four commands -/

theorem termFeed_scrollUp (safe : term.Safe) (ground : term.state = .ground)
    {count : Nat} (positive : 1 ≤ count) (fits : count ≤ 9999) :
    (termFeed (numbered count 0x53) term).settled =
      (term.withRows term.scrollTop (deleteFront count term.blankLine
        (term.rowsBetween term.scrollTop term.scrollBottom))).settled :=
  termFeed_counted safe ground positive fits (by decide) (fun _ => rfl)
    fun _ _ geometry => scrollRegionUp_rows geometry count

theorem termFeed_scrollDown (safe : term.Safe) (ground : term.state = .ground)
    {count : Nat} (positive : 1 ≤ count) (fits : count ≤ 9999) :
    (termFeed (numbered count 0x54) term).settled =
      (term.withRows term.scrollTop (insertFront count term.blankLine
        (term.rowsBetween term.scrollTop term.scrollBottom))).settled :=
  termFeed_counted safe ground positive fits (by decide) (fun _ => rfl)
    fun _ _ geometry => scrollRegionDown_rows geometry count

theorem termFeed_insertLines (safe : term.Safe) (ground : term.state = .ground)
    {count : Nat} (positive : 1 ≤ count) (fits : count ≤ 9999) :
    (termFeed (numbered count 0x4c) term).settled =
      (if term.CursorInRegion then
        term.withRows term.cursorRow (insertFront count term.blankLine
          (term.rowsBetween term.cursorRow term.scrollBottom))
      else term).settled := by
  have whole := isBody_decimalText count
  rw [insertFront_rows, ← withGrid_below]
  apply termFeed_redraws ground whole (by decide)
  intro marker
  have moved := insertLines_eq (safe.collecting ground whole marker).toGeometry
  rwa [paramAt_collecting positive fits] at moved

theorem termFeed_deleteLines (safe : term.Safe) (ground : term.state = .ground)
    {count : Nat} (positive : 1 ≤ count) (fits : count ≤ 9999) :
    (termFeed (numbered count 0x4d) term).settled =
      (if term.CursorInRegion then
        term.withRows term.cursorRow (deleteFront count term.blankLine
          (term.rowsBetween term.cursorRow term.scrollBottom))
      else term).settled := by
  have whole := isBody_decimalText count
  rw [deleteFront_rows, ← withGrid_below]
  apply termFeed_redraws ground whole (by decide)
  intro marker
  have moved := deleteLines_eq (safe.collecting ground whole marker).toGeometry
  rwa [paramAt_collecting positive fits] at moved

end Term

/-- Scrolling by `n` moves the rows of the region by `n` at once, and inserting
or deleting `n` lines those from the cursor's row on. -/
theorem scrolling_is_one_block_move (c r : Int) (calls : List TermCall)
    {n : Nat} (positive : 1 ≤ n) (fits : n ≤ 9999) :
    let before := (runCalls calls (termReset c r initial)).ready
    let region := before.rowsBetween before.scrollTop before.scrollBottom
    let below := before.rowsBetween before.cursorRow before.scrollBottom
    (termFeed (numbered n 0x53) before).settled =
        (before.withRows before.scrollTop
          (deleteFront n before.blankLine region)).settled ∧
      (termFeed (numbered n 0x54) before).settled =
        (before.withRows before.scrollTop
          (insertFront n before.blankLine region)).settled ∧
      (termFeed (numbered n 0x4c) before).settled =
        (if before.CursorInRegion then
          before.withRows before.cursorRow
            (insertFront n before.blankLine below)
        else before).settled ∧
      (termFeed (numbered n 0x4d) before).settled =
        (if before.CursorInRegion then
          before.withRows before.cursorRow
            (deleteFront n before.blankLine below)
        else before).settled ∧
      (region.length ≤ n →
        deleteFront n before.blankLine region =
            List.replicate region.length before.blankLine ∧
          insertFront n before.blankLine region =
            List.replicate region.length before.blankLine) := by
  intro before region below
  have safe : before.Safe := ((Term.Safe.fresh c r).runCalls calls).ready
  exact ⟨Term.termFeed_scrollUp safe rfl positive fits,
    Term.termFeed_scrollDown safe rfl positive fits,
    Term.termFeed_insertLines safe rfl positive fits,
    Term.termFeed_deleteLines safe rfl positive fits,
    fun short => ⟨deleteFront_of_le _ short, insertFront_of_le _ short⟩⟩

/-- `ESC [ 2 L` in the second row of four. -/
theorem scrolling_is_one_block_move_inserted :
    let before := (runCalls [.feed [0x61, 0x0a, 0x62]]
      (termReset 2 4 initial)).ready
    (termFeed (numbered 2 0x4c) before).settled =
      (if before.CursorInRegion then
        before.withRows before.cursorRow (insertFront 2 before.blankLine
          (before.rowsBetween before.cursorRow before.scrollBottom))
      else before).settled :=
  (scrolling_is_one_block_move 2 4 [.feed [0x61, 0x0a, 0x62]] (by decide)
    (by decide)).2.2.1

end Pspssh.Terminal
