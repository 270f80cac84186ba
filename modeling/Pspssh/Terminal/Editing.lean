import Pspssh.Data.Shift
import Pspssh.Terminal.Command

namespace Pspssh.Terminal

open Pspssh.Data

/-! Inserting, deleting and erasing characters, as edits of a list of cells. -/

namespace Term

def rest (term : Term) : List Cell :=
  stretch (term.grid term.cursorRow) term.cursorCol term.cols

def withRest (cells : List Cell) (term : Term) : Term :=
  term.withGrid fun r =>
    if r = term.cursorRow then splice (term.grid r) term.cursorCol cells
    else term.grid r

variable {term : Term}

theorem withRest_stretch (lines : Int → Int → Cell) :
    term.withRest (stretch (lines term.cursorRow) term.cursorCol term.cols) =
      term.withGrid fun r c =>
        if r = term.cursorRow ∧ term.cursorCol ≤ c ∧ c < term.cols then
          lines r c
        else term.grid r c := by
  apply withGrid_congr
  intro r c
  by_cases here : r = term.cursorRow
  · subst here
    rw [if_pos rfl, splice_stretch]
    exact if_congr (and_iff_right rfl).symm rfl rfl
  · rw [if_neg here, if_neg fun inside => here inside.1]

theorem rest_withRest {cells : List Cell}
    (fits : cells.length = term.rest.length) :
    (term.withRest cells).rest = cells := by
  rw [rest, length_stretch] at fits
  change stretch (if term.cursorRow = term.cursorRow then _ else _) _ _ = _
  rw [if_pos rfl]
  exact stretch_splice fits

theorem withRest_withRest {first second : List Cell}
    (same : first.length = second.length) :
    (term.withRest first).withRest second = term.withRest second := by
  apply withGrid_congr
  intro r c
  change (if r = term.cursorRow then splice (if r = term.cursorRow then _
    else _) _ _ else if r = term.cursorRow then _ else _) c = _
  split
  · exact congrFun (splice_splice same) c
  · rfl

/-! ## The three edits -/

theorem deleteChars_rest (geometry : term.Geometry) (count : Nat) :
    term.deleteChars count =
      term.withRest (deleteFront count term.blank term.rest) := by
  rw [deleteChars_eq geometry (Int.natCast_nonneg count), rest,
    deleteFront_stretch]
  exact (withRest_stretch fun r c =>
    if c + count < term.cols then term.grid r (c + count)
    else term.blank).symm

theorem insertChars_rest (geometry : term.Geometry) (count : Nat) :
    term.insertChars count =
      term.withRest (insertFront count term.blank term.rest) := by
  rw [insertChars_eq geometry (Int.natCast_nonneg count), rest,
    insertFront_stretch]
  exact (withRest_stretch fun r c =>
    if term.cursorCol ≤ c - count then term.grid r (c - count)
    else term.blank).symm

theorem eraseChars_rest (geometry : term.Geometry) (count : Nat) :
    term.eraseChars count =
      term.withRest (fillFront count term.blank term.rest) := by
  rw [eraseChars_eq geometry, rest, fillFront_stretch,
    withRest_stretch fun r c =>
      if c < term.cursorCol + count then term.blank else term.grid r c]
  apply withGrid_congr
  intro r c
  grind

theorem termFeed_deleteChars (safe : term.Safe) (ground : term.state = .ground)
    {count : Nat} (positive : 1 ≤ count) (fits : count ≤ 9999) :
    (termFeed (numbered count 0x50) term).settled =
      (term.withRest (deleteFront count term.blank term.rest)).settled :=
  termFeed_counted safe ground positive fits (by decide) (fun _ => rfl)
    fun _ _ geometry => deleteChars_rest geometry count

theorem termFeed_insertChars (safe : term.Safe) (ground : term.state = .ground)
    {count : Nat} (positive : 1 ≤ count) (fits : count ≤ 9999) :
    (termFeed (numbered count 0x40) term).settled =
      (term.withRest (insertFront count term.blank term.rest)).settled :=
  termFeed_counted safe ground positive fits (by decide) (fun _ => rfl)
    fun _ _ geometry => insertChars_rest geometry count

theorem termFeed_eraseChars (safe : term.Safe) (ground : term.state = .ground)
    {count : Nat} (positive : 1 ≤ count) (fits : count ≤ 9999) :
    (termFeed (numbered count 0x58) term).settled =
      (term.withRest (fillFront count term.blank term.rest)).settled :=
  termFeed_counted safe ground positive fits (by decide) (fun _ => rfl)
    fun _ _ geometry => eraseChars_rest geometry count

theorem termFeed_insert_delete (safe : term.Safe)
    (ground : term.state = .ground) {count : Nat} (positive : 1 ≤ count)
    (fits : count ≤ 9999) :
    (termFeed (numbered count 0x40 ++ numbered count 0x50) term).settled =
      (term.withRest (term.rest.take (term.rest.length - count) ++
        List.replicate (min count term.rest.length) term.blank)).settled := by
  have width : (insertFront count term.blank term.rest).length =
      term.rest.length := length_insertFront count term.blank term.rest
  calc (termFeed (numbered count 0x40 ++ numbered count 0x50) term).settled
      = ((term.withRest (insertFront count term.blank term.rest)).withRest
          (deleteFront count term.blank
            (term.withRest (insertFront count term.blank
              term.rest)).rest)).settled :=
        termFeed_then safe
          (fun state => state.withRest (deleteFront count state.blank state.rest))
          (termFeed_insertChars safe ground positive fits) ground
          (fun safe ground => termFeed_deleteChars safe ground positive fits)
          fun _ => rfl
    _ = _ := by
        rw [rest_withRest width, withRest_withRest (by simp),
          deleteFront_insertFront]

end Term

/-- Characters are deleted, inserted and erased as in the list of the cells
from the cursor on, which an insertion and a deletion restore but for the end. -/
theorem char_editing_is_list_editing (c r : Int) (calls : List TermCall)
    {n : Nat} (positive : 1 ≤ n) (fits : n ≤ 9999) :
    let before := (runCalls calls (termReset c r initial)).ready
    (termFeed (numbered n 0x50) before).settled =
        (before.withRest (deleteFront n before.blank before.rest)).settled ∧
      (termFeed (numbered n 0x40) before).settled =
        (before.withRest (insertFront n before.blank before.rest)).settled ∧
      (termFeed (numbered n 0x58) before).settled =
        (before.withRest (fillFront n before.blank before.rest)).settled ∧
      (termFeed (numbered n 0x40 ++ numbered n 0x50) before).settled =
        (before.withRest (before.rest.take (before.rest.length - n) ++
          List.replicate (min n before.rest.length) before.blank)).settled := by
  intro before
  have safe : before.Safe := ((Term.Safe.fresh c r).runCalls calls).ready
  exact ⟨Term.termFeed_deleteChars safe rfl positive fits,
    Term.termFeed_insertChars safe rfl positive fits,
    Term.termFeed_eraseChars safe rfl positive fits,
    Term.termFeed_insert_delete safe rfl positive fits⟩

/-- `ESC [ 2 @` and `ESC [ 2 P` at the start of a row of four. -/
theorem char_editing_is_list_editing_restored :
    let before := (runCalls [.feed (ascii "abcd\r")]
      (termReset 4 2 initial)).ready
    (termFeed (numbered 2 0x40 ++ numbered 2 0x50) before).settled =
      (before.withRest (before.rest.take (before.rest.length - 2) ++
        List.replicate (min 2 before.rest.length) before.blank)).settled :=
  (char_editing_is_list_editing 4 2 [.feed (ascii "abcd\r")] (by decide)
    (by decide)).2.2.2

end Pspssh.Terminal
