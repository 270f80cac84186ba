import Pspssh.Terminal.Sequence

namespace Pspssh.Terminal

namespace Term

/-! What the commands do to the cells: some are blanked, and the others are
copies of cells that there were. -/

/-- The cells that the command of this final byte blanks. -/
def Cleared (final : UInt8) (given : Parameters) (term : Term) (r c : Int) :
    Prop :=
  let count := given.value 0 1
  match Char.ofUInt8 final with
  | 'J' => term.Visible r c ∧ term.ErasedInDisplay (given.valueOrZero 0) r c
  | 'K' => term.Visible r c ∧ term.ErasedInLine (given.valueOrZero 0) r c
  | 'L' => term.BelowCursor r c ∧ ¬ term.cursorRow ≤ r - count
  | 'M' => term.BelowCursor r c ∧ ¬ r + count ≤ term.scrollBottom
  | 'P' =>
      (r = term.cursorRow ∧ term.cursorCol ≤ c ∧ c < term.cols) ∧
        ¬ c + count < term.cols
  | '@' =>
      (r = term.cursorRow ∧ term.cursorCol ≤ c ∧ c < term.cols) ∧
        ¬ term.cursorCol ≤ c - count
  | 'S' => term.InRegion r c ∧ ¬ r + count ≤ term.scrollBottom
  | 'T' => term.InRegion r c ∧ ¬ term.scrollTop ≤ r - count
  | 'X' =>
      r = term.cursorRow ∧ term.cursorCol ≤ c ∧
        c < min term.cols (term.cursorCol + count)
  | _ => False

/-- Each cell is blanked or a copy of one there was. -/
def Clears (old new : Term) (cleared : Int → Int → Prop) : Prop :=
  ∀ r c, (cleared r c → new.grid r c = old.blank) ∧
    (¬ cleared r c → ∃ row col, new.grid r c = old.grid row col)

variable {term : Term}

namespace Clears

theorem blanks {erased : Int → Int → Prop}
    [∀ r c, Decidable (erased r c)] :
    Clears term (term.withGrid fun r c =>
      if erased r c then term.blank else term.grid r c) erased := by
  intro r c
  constructor
  · exact fun inside => if_pos inside
  · exact fun outside => ⟨r, c, if_neg outside⟩

theorem moves {inside kept : Int → Int → Prop}
    [∀ r c, Decidable (inside r c)] [∀ r c, Decidable (kept r c)]
    (row col : Int → Int → Int) :
    Clears term (term.withGrid fun r c =>
      if inside r c then
        if kept r c then term.grid (row r c) (col r c) else term.blank
      else term.grid r c) fun r c => inside r c ∧ ¬ kept r c := by
  intro r c
  change (_ → (if inside r c then
      if kept r c then term.grid (row r c) (col r c) else term.blank
    else term.grid r c) = _) ∧ (_ → ∃ row' col', (if inside r c then
      if kept r c then term.grid (row r c) (col r c) else term.blank
    else term.grid r c) = _)
  grind

theorem nothing {new : Term} {cleared : Int → Int → Prop}
    (same : new.grid = term.grid) (never : ∀ r c, ¬ cleared r c) :
    Clears term new cleared := by
  intro r c
  exact ⟨fun inside => absurd inside (never r c), fun _ => ⟨r, c, by rw [same]⟩⟩

end Clears

theorem scrollRegionUp_clears (safe : term.Safe) {lines : Int}
    (forward : 0 ≤ lines) :
    Clears term (term.scrollRegionUp lines) fun r c =>
      term.InRegion r c ∧ ¬ r + lines ≤ term.scrollBottom := by
  rw [scrollRegionUp_eq safe.scrollable forward]
  exact Clears.moves (fun r _ => r + lines) fun _ c => c

theorem scrollRegionDown_clears (safe : term.Safe) {lines : Int}
    (forward : 0 ≤ lines) :
    Clears term (term.scrollRegionDown lines) fun r c =>
      term.InRegion r c ∧ ¬ term.scrollTop ≤ r - lines := by
  rw [scrollRegionDown_eq safe.scrollable forward]
  exact Clears.moves (fun r _ => r - lines) fun _ c => c

theorem dispatchCsi_clears (safe : term.Safe) (final : UInt8) :
    Clears term (term.dispatchCsi final)
      (term.Cleared final term.parameters) := by
  have geometry := safe.toGeometry
  have count := term.paramAt_ge 0 (Int.le_refl 1)
  rw [paramAt_zero] at count
  unfold dispatchCsi Cleared
  simp only [paramAt_zero, paramAt_one]
  generalize first_eq : term.parameters.value 0 1 = first at count ⊢
  have forward : 0 ≤ first := by omega
  generalize Char.ofUInt8 final = ch
  split
  -- the ten cursor movements
  iterate 10 exact Clears.nothing rfl fun _ _ => id
  · rw [eraseInDisplay_eq geometry]
    exact Clears.blanks
  · rw [eraseInLine_eq geometry]
    exact Clears.blanks
  · rw [insertLines_eq geometry, paramAt_zero, first_eq]
    exact Clears.moves (fun r _ => r - first) fun _ c => c
  · rw [deleteLines_eq geometry, paramAt_zero, first_eq]
    exact Clears.moves (fun r _ => r + first) fun _ c => c
  · rw [deleteChars_eq geometry forward]
    exact Clears.moves (fun r _ => r) fun _ c => c + first
  · rw [insertChars_eq geometry forward]
    exact Clears.moves (fun r _ => r) fun _ c => c - first
  · exact scrollRegionUp_clears safe forward
  · exact scrollRegionDown_clears safe forward
  · rw [eraseChars_eq geometry]
    exact Clears.blanks
  · exact Clears.nothing
      (congrArg Display.grid (applySgr_display safe.paramCount_le))
      fun _ _ => id
  · rw [setScrollRegion_eq]
    exact Clears.nothing rfl fun _ _ => id
  · exact Clears.nothing rfl fun _ _ => id
  · exact Clears.nothing rfl fun _ _ => id
  · apply Clears.nothing rfl
    intro r c inside
    simp_all

end Term

end Pspssh.Terminal
