import Pspssh.Terminal.Command

namespace Pspssh.Terminal

open Pspssh.Data

/-! Which cells the erasing commands cover. -/

/-- A row and a column, in reading order. -/
abbrev Place := ℤ ×ₗ ℤ

/-- `ESC [ 0 J` to `ESC [ 3 J`, and `ESC [ 0 K` to `ESC [ 2 K`. -/
inductive Erase where
  | display (mode : Fin 4)
  | line (mode : Fin 3)

namespace Erase

def bytes : Erase → List UInt8
  | display mode => numbered mode 0x4a
  | line mode => numbered mode 0x4b

/-- The places at or behind the cursor, those at or before it, or all. -/
def reached (mode : Nat) (cursor : Place) : Set Place :=
  if mode = 0 then Set.Ici cursor
  else if mode = 1 then Set.Iic cursor
  else Set.univ

def covered (cursor : Place) : Erase → Set Place
  | display mode => reached mode cursor
  | line mode =>
      {place | (ofLex place).1 = (ofLex cursor).1} ∩ reached mode cursor

instance (mode : Nat) (cursor : Place) :
    DecidablePred (· ∈ reached mode cursor) := fun place => by
  unfold reached
  split
  · exact inferInstanceAs (Decidable (cursor ≤ place))
  split
  · exact inferInstanceAs (Decidable (place ≤ cursor))
  · exact isTrue (Set.mem_univ place)

instance (cursor : Place) (erase : Erase) :
    DecidablePred (· ∈ erase.covered cursor) := fun place =>
  match erase with
  | display mode => inferInstanceAs (Decidable (place ∈ reached mode cursor))
  | line mode =>
      inferInstanceAs (Decidable ((ofLex place).1 = (ofLex cursor).1 ∧
        place ∈ reached mode cursor))

end Erase

namespace Term

/-- A cursor that rests past the last column comes behind every cell of its
row. -/
def cursor (term : Term) : Place :=
  toLex (term.cursorRow, term.cursorCol)

/-- The visible cells at these places are blanked. -/
def blanked (places : Set Place) [DecidablePred (· ∈ places)] (term : Term) :
    Term :=
  term.withGrid fun r c =>
    if term.Visible r c ∧ toLex (r, c) ∈ places then term.blank
    else term.grid r c

theorem erasedInDisplay_iff (term : Term) (mode : Fin 4) (r c : Int) :
    term.ErasedInDisplay mode r c ↔
      toLex (r, c) ∈ (Erase.display mode).covered term.cursor := by
  unfold ErasedInDisplay Erase.covered Erase.reached cursor
  fin_cases mode
  · simp [Prod.Lex.toLex_le_toLex, eq_comm]
  · simp [Prod.Lex.toLex_le_toLex]
  · simp
  · simp

theorem erasedInLine_iff (term : Term) (mode : Fin 3) (r c : Int) :
    term.ErasedInLine mode r c ↔
      toLex (r, c) ∈ (Erase.line mode).covered term.cursor := by
  unfold ErasedInLine Erase.covered Erase.reached cursor
  fin_cases mode
  · simp [Prod.Lex.toLex_le_toLex]
    omega
  · simp [Prod.Lex.toLex_le_toLex]
    omega
  · simp

variable {term : Term}

theorem paramOrZero_collecting {mode : Nat} (fits : mode ≤ 9999)
    (marker : UInt8) :
    (term.collecting (Parameters.spelt (decimalText mode)) marker).paramOrZero 0
      = mode :=
  Parameters.valueOrZero_decimalText fits

theorem termFeed_erase (safe : term.Safe) (ground : term.state = .ground)
    (erase : Erase) :
    (termFeed erase.bytes term).settled =
      (term.blanked (erase.covered term.cursor)).settled := by
  cases erase with
  | display mode =>
      have whole := isBody_decimalText mode
      refine termFeed_redraws ground whole (by decide) fun marker => ?_
      have geometry := (safe.collecting ground whole marker).toGeometry
      apply (eraseInDisplay_eq geometry _).trans
      apply withGrid_congr
      intro r c
      rw [paramOrZero_collecting (by omega)]
      exact if_congr (and_congr_right fun _ =>
        term.erasedInDisplay_iff mode r c) rfl rfl
  | line mode =>
      have whole := isBody_decimalText mode
      refine termFeed_redraws ground whole (by decide) fun marker => ?_
      have geometry := (safe.collecting ground whole marker).toGeometry
      apply (eraseInLine_eq geometry _).trans
      apply withGrid_congr
      intro r c
      rw [paramOrZero_collecting (by omega)]
      exact if_congr (and_congr_right fun _ =>
        term.erasedInLine_iff mode r c) rfl rfl

theorem blanked_blanked {first second both : Set Place}
    [DecidablePred (· ∈ first)] [DecidablePred (· ∈ second)]
    [DecidablePred (· ∈ both)] (union : first ∪ second = both) :
    (term.blanked first).blanked second = term.blanked both := by
  subst union
  apply withGrid_congr
  intro r c
  change (if term.Visible r c ∧ toLex (r, c) ∈ second then term.blank
    else if term.Visible r c ∧ toLex (r, c) ∈ first then term.blank
    else term.grid r c) = _
  simp only [Set.mem_union]
  grind

end Term

namespace Erase

theorem display_union (cursor : Place) :
    (display 0).covered cursor ∪ (display 1).covered cursor =
      (display 2).covered cursor :=
  (Set.union_comm _ _).trans Set.Iic_union_Ici

theorem line_union (cursor : Place) :
    (line 0).covered cursor ∪ (line 1).covered cursor =
      (line 2).covered cursor :=
  (Set.inter_union_distrib_left _ _ _).symm.trans
    (congrArg _ (display_union cursor))

end Erase

/-- The second erase finds the cursor and the pen where the first one did. -/
theorem termFeed_erases {term : Term} (safe : term.Safe)
    (ground : term.state = .ground) {first second both : Erase}
    (union : first.covered term.cursor ∪ second.covered term.cursor =
      both.covered term.cursor) :
    (termFeed (first.bytes ++ second.bytes) term).settled =
      (termFeed both.bytes term).settled := by
  calc (termFeed (first.bytes ++ second.bytes) term).settled
      = ((term.blanked (first.covered term.cursor)).blanked
          (second.covered term.cursor)).settled :=
        Term.termFeed_then safe
          (fun state => state.blanked (second.covered state.cursor))
          (Term.termFeed_erase safe ground first) ground
          (fun safe ground => Term.termFeed_erase safe ground second)
          fun _ => rfl
    _ = (term.blanked (both.covered term.cursor)).settled := by
        rw [Term.blanked_blanked union]
    _ = (termFeed both.bytes term).settled :=
        (Term.termFeed_erase safe ground both).symm

/-- An erase blanks the cells that it covers and changes nothing else, and the
two halves of an erase, in either order, are the whole. -/
theorem erase_covers_exactly (c r : Int) (calls : List TermCall) :
    let before := (runCalls calls (termReset c r initial)).ready
    (∀ erase : Erase, (termFeed erase.bytes before).settled =
      (before.blanked (erase.covered before.cursor)).settled) ∧
    ((termFeed ((Erase.display 0).bytes ++ (Erase.display 1).bytes)
        before).settled =
      (termFeed (Erase.display 2).bytes before).settled ∧
    (termFeed ((Erase.display 1).bytes ++ (Erase.display 0).bytes)
        before).settled =
      (termFeed (Erase.display 2).bytes before).settled) ∧
    (termFeed ((Erase.line 0).bytes ++ (Erase.line 1).bytes) before).settled =
      (termFeed (Erase.line 2).bytes before).settled ∧
    (termFeed ((Erase.line 1).bytes ++ (Erase.line 0).bytes) before).settled =
      (termFeed (Erase.line 2).bytes before).settled := by
  intro before
  have safe : before.Safe := ((Term.Safe.fresh c r).runCalls calls).ready
  have display := Erase.display_union before.cursor
  have line := Erase.line_union before.cursor
  refine ⟨Term.termFeed_erase safe rfl,
    ⟨termFeed_erases safe rfl display, termFeed_erases safe rfl ?_⟩,
    termFeed_erases safe rfl line, termFeed_erases safe rfl ?_⟩
  · exact (Set.union_comm _ _).trans display
  · exact (Set.union_comm _ _).trans line

end Pspssh.Terminal
