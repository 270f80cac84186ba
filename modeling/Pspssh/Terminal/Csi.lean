import Pspssh.Terminal.Write

namespace Pspssh.Terminal

namespace Term

/-! Control sequences: their parameters and what each final byte does. -/


/-- `param_at`. The source passes only the indices 0 and 1. -/
def paramAt (index : Fin maxParams) (fallback : Int) (term : Term) : Int :=
  if index.val ≥ term.paramCount ∨ index.val = 0 ∧ term.paramSeen = false then
    fallback
  else if term.params index > 0 then term.params index
  else fallback

def paramOrZero (index : Fin maxParams) (term : Term) : Nat :=
  if index.val ≥ term.paramCount then 0 else term.params index

def clampCursor (term : Term) : Term :=
  let col := if term.cursorCol < 0 then 0 else term.cursorCol
  let row := if term.cursorRow < 0 then 0 else term.cursorRow
  { term with
    cursorCol := if col ≥ term.cols then term.cols - 1 else col
    cursorRow := if row ≥ term.rows then term.rows - 1 else row }

/-- `ESC[38;5;nm` folded onto the sixteen colours there are. -/
def foldColour (colour : Nat) : Nat :=
  if colour > 15 then if colour ≥ 244 then 15 else 7 else colour

/-- The effect on the pen of the single SGR parameter `p`. -/
def applySgrOne (p : Nat) (pen : Pen) : Pen :=
  if p = 0 then defaultPen
  else if p = 1 then { pen with bold := true }
  else if p = 2 ∨ p = 22 then { pen with bold := false }
  else if p = 7 then { pen with reverse := true }
  else if p = 27 then { pen with reverse := false }
  else if 30 ≤ p ∧ p ≤ 37 then { pen with fg := p - 30 }
  else if p = 39 then { pen with fg := defaultFg }
  else if 40 ≤ p ∧ p ≤ 47 then { pen with bg := p - 40 }
  else if p = 49 then { pen with bg := defaultBg }
  else if 90 ≤ p ∧ p ≤ 97 then { pen with fg := p - 90 + 8 }
  else if 100 ≤ p ∧ p ≤ 107 then { pen with bg := p - 100 + 8 }
  else pen

/-- One pass of the loop in `apply_sgr`: the state after it, and the index
the next pass starts from. The tests on 38 and 48 come last in the source;
no earlier test takes these values. -/
def applySgrAt (i : Nat) (term : Term) : Term × Nat :=
  let term := term.readParam i
  let p := term.params i
  if (p = 38 ∨ p = 48) ∧ i + 2 < term.paramCount then
    let term := term.readParam (i + 1)
    if term.params (i + 1) = 5 then
      let term := term.readParam (i + 2)
      let colour := foldColour (term.params (i + 2))
      let pen :=
        if p = 38 then { term.pen with fg := colour }
        else { term.pen with bg := colour }
      ({ term with pen }, i + 3)
    else (term, i + 1)
  else ({ term with pen := applySgrOne p term.pen }, i + 1)

/-- The loop of `apply_sgr` from index `i` on, for at most `fuel` passes. -/
def applySgrFrom : Nat → Nat → Term → Term
  | 0, _, term => term
  | fuel + 1, i, term =>
      if i < term.paramCount then
        applySgrFrom fuel (term.applySgrAt i).2 (term.applySgrAt i).1
      else term

def applySgr (term : Term) : Term :=
  let term :=
    if term.paramCount = 0 then
      { term.writeParam 0 0 with paramCount := 1 }
    else term
  applySgrFrom term.paramCount 0 term

/-- `ESC[nL`: the rows from the cursor's on are scrolled, by moving
`scroll_top` for the time of the call. -/
def insertLines (term : Term) : Term :=
  if term.cursorRow ≥ term.scrollTop ∧ term.cursorRow ≤ term.scrollBottom then
    { ({ term with scrollTop := term.cursorRow }.scrollRegionDown
        (term.paramAt 0 1)) with scrollTop := term.scrollTop }
  else term

def deleteLines (term : Term) : Term :=
  if term.cursorRow ≥ term.scrollTop ∧ term.cursorRow ≤ term.scrollBottom then
    { ({ term with scrollTop := term.cursorRow }.scrollRegionUp
        (term.paramAt 0 1)) with scrollTop := term.scrollTop }
  else term

/-- The scroll region, with the cursor sent to its first cell. -/
def withRegion (top bottom : Int) (term : Term) : Term :=
  { term with
    scrollTop := top, scrollBottom := bottom, cursorCol := 0, cursorRow := top }

/-- `ESC[t;br`: a region that is out of order or out of range resets it. -/
def setScrollRegion (term : Term) : Term :=
  let top := term.paramAt 0 1 - 1
  let bottom :=
    if term.paramCount > 1 then term.paramAt 1 term.rows - 1
    else term.rows - 1
  if top < 0 ∨ bottom ≥ term.rows ∨ top ≥ bottom then
    term.withRegion 0 (term.rows - 1)
  else term.withRegion top bottom

def dispatchCsi (final : UInt8) (term : Term) : Term :=
  match Char.ofUInt8 final with
  | 'A' =>
      { term with cursorRow := term.cursorRow - term.paramAt 0 1 }.clampCursor
  | 'B' =>
      { term with cursorRow := term.cursorRow + term.paramAt 0 1 }.clampCursor
  | 'C' =>
      { term with cursorCol := term.cursorCol + term.paramAt 0 1 }.clampCursor
  | 'D' =>
      { term with cursorCol := term.cursorCol - term.paramAt 0 1 }.clampCursor
  | 'E' =>
      { term with
        cursorRow := term.cursorRow + term.paramAt 0 1
        cursorCol := 0 }.clampCursor
  | 'F' =>
      { term with
        cursorRow := term.cursorRow - term.paramAt 0 1
        cursorCol := 0 }.clampCursor
  | 'G' => { term with cursorCol := term.paramAt 0 1 - 1 }.clampCursor
  | 'd' => { term with cursorRow := term.paramAt 0 1 - 1 }.clampCursor
  | 'H' | 'f' =>
      { term with
        cursorRow := term.paramAt 0 1 - 1
        cursorCol := term.paramAt 1 1 - 1 }.clampCursor
  | 'J' => term.eraseInDisplay (term.paramOrZero 0)
  | 'K' => term.eraseInLine (term.paramOrZero 0)
  | 'L' => term.insertLines
  | 'M' => term.deleteLines
  | 'P' => term.deleteChars (term.paramAt 0 1)
  | '@' => term.insertChars (term.paramAt 0 1)
  | 'S' => term.scrollRegionUp (term.paramAt 0 1)
  | 'T' => term.scrollRegionDown (term.paramAt 0 1)
  | 'X' => term.eraseChars (term.paramAt 0 1)
  | 'm' => term.applySgr
  | 'r' => term.setScrollRegion
  | 's' => { term with savedCol := term.cursorCol, savedRow := term.cursorRow }
  | 'u' =>
      { term with
        cursorCol := term.savedCol
        cursorRow := term.savedRow }.clampCursor
  | _ => term

/-! ## Parameters -/

theorem readParam_eq {term : Term} {index : Nat} (inside : index < maxParams) :
    term.readParam index = term :=
  access_eq inside

theorem writeParam_eq {term : Term} {index : Nat} (value : Nat)
    (inside : index < maxParams) :
    term.writeParam index value =
      { term with
        params := fun i => if i = index then value else term.params i } :=
  access_eq inside

theorem paramAt_ge (term : Term) (index : Fin maxParams) {fallback : Int}
    (positive : 1 ≤ fallback) : 1 ≤ term.paramAt index fallback := by
  unfold paramAt
  split
  · exact positive
  split <;> omega

/-! ## Inserting and deleting lines -/

/-- The cells that a line operation covers: the rows of the region from the
cursor's on, when the cursor is in the region. -/
def BelowCursor (term : Term) (r c : Int) : Prop :=
  term.scrollTop ≤ term.cursorRow ∧ term.cursorRow ≤ r ∧
    r ≤ term.scrollBottom ∧ 0 ≤ c ∧ c < term.cols

instance (term : Term) (r c : Int) : Decidable (term.BelowCursor r c) :=
  inferInstanceAs (Decidable (_ ∧ _))

theorem Geometry.scrollableBelow {term : Term} (geometry : term.Geometry)
    (above : term.cursorRow ≤ term.scrollBottom) :
    { term with scrollTop := term.cursorRow }.Scrollable :=
  ⟨geometry.scrollable.wide, geometry.scrollable.narrow,
    geometry.cursorRow_nonneg, above, geometry.scrollable.bottom_lt⟩

theorem eq_withGrid_of_outside {term : Term}
    (outside : ¬ (term.scrollTop ≤ term.cursorRow ∧
      term.cursorRow ≤ term.scrollBottom)) (cells : Int → Int → Cell) :
    term = term.withGrid fun r c =>
      if term.BelowCursor r c then cells r c else term.grid r c := by
  apply eq_withGrid
  intro r c
  rw [if_neg]
  intro inside
  obtain ⟨top, first, last, _⟩ := inside
  exact outside ⟨top, by omega⟩

theorem insertLines_eq {term : Term} (geometry : term.Geometry) :
    term.insertLines =
      term.withGrid fun r c =>
        if term.BelowCursor r c then
          if term.cursorRow ≤ r - term.paramAt 0 1 then
            term.grid (r - term.paramAt 0 1) c
          else term.blank
        else term.grid r c := by
  have count := term.paramAt_ge 0 (Int.le_refl 1)
  unfold insertLines
  split
  · rename_i inside
    rw [scrollRegionDown_eq (geometry.scrollableBelow inside.2)
      (Int.le_of_lt count)]
    change term.withGrid _ = _
    apply withGrid_congr
    intro r c
    simp only [InRegion, BelowCursor, inside.1, true_and]
    rfl
  · rename_i outside
    exact eq_withGrid_of_outside outside _

theorem deleteLines_eq {term : Term} (geometry : term.Geometry) :
    term.deleteLines =
      term.withGrid fun r c =>
        if term.BelowCursor r c then
          if r + term.paramAt 0 1 ≤ term.scrollBottom then
            term.grid (r + term.paramAt 0 1) c
          else term.blank
        else term.grid r c := by
  have count := term.paramAt_ge 0 (Int.le_refl 1)
  unfold deleteLines
  split
  · rename_i inside
    rw [scrollRegionUp_eq (geometry.scrollableBelow inside.2)
      (Int.le_of_lt count)]
    change term.withGrid _ = _
    apply withGrid_congr
    intro r c
    simp only [InRegion, BelowCursor, inside.1, true_and]
    rfl
  · rename_i outside
    exact eq_withGrid_of_outside outside _

/-! ## The loop of `apply_sgr` -/

theorem applySgrAt_frame {term : Term} {i : Nat}
    (counted : term.paramCount ≤ maxParams) (inside : i < term.paramCount) :
    (term.applySgrAt i).1 =
      { term with pen := (term.applySgrAt i).1.pen } := by
  unfold applySgrAt
  rw [readParam_eq (by omega)]
  dsimp only
  split
  · rw [readParam_eq (by omega)]
    split
    · rw [readParam_eq (by omega)]
    · rfl
  · rfl

theorem applySgrAt_lt (term : Term) (i : Nat) : i < (term.applySgrAt i).2 := by
  unfold applySgrAt
  dsimp only
  split
  · split <;> omega
  · omega

theorem applySgrFrom_invariant (motive : Term → Prop)
    (step : ∀ term i, motive term → i < term.paramCount →
      motive (term.applySgrAt i).1)
    {fuel i : Nat} {term : Term} (start : motive term) :
    motive (applySgrFrom fuel i term) := by
  induction fuel generalizing i term with
  | zero => exact start
  | succ fuel ih =>
      unfold applySgrFrom
      split
      · rename_i inside
        exact ih (step term i start inside)
      · exact start

/-- The fuel bounds nothing: with one pass for each parameter left the loop
has reached its end. -/
theorem applySgrFrom_enough {fuel more i : Nat} {term : Term}
    (counted : term.paramCount ≤ maxParams)
    (enough : term.paramCount ≤ i + fuel) :
    applySgrFrom (fuel + more) i term = applySgrFrom fuel i term := by
  induction fuel generalizing i term with
  | zero =>
      cases more with
      | zero => rfl
      | succ more => simp [applySgrFrom, show ¬ i < term.paramCount by omega]
  | succ fuel ih =>
      rw [Nat.add_right_comm, applySgrFrom, applySgrFrom]
      split
      · rename_i inside
        have advanced := applySgrAt_lt term i
        have kept : (term.applySgrAt i).1.paramCount = term.paramCount := by
          rw [applySgrAt_frame counted inside]
        exact ih (by rw [kept]; exact counted) (by rw [kept]; omega)
      · rfl

/-! ## The pen that `apply_sgr` leaves -/

def sgrStep (params : Nat → Nat) (count i : Nat) (pen : Pen) : Pen × Nat :=
  if (params i = 38 ∨ params i = 48) ∧ i + 2 < count ∧ params (i + 1) = 5 then
    (if params i = 38 then { pen with fg := foldColour (params (i + 2)) }
      else { pen with bg := foldColour (params (i + 2)) }, i + 3)
  else (applySgrOne (params i) pen, i + 1)

def sgrFrom (params : Nat → Nat) (count : Nat) : Nat → Nat → Pen → Pen
  | 0, _, pen => pen
  | fuel + 1, i, pen =>
      if i < count then
        sgrFrom params count fuel (sgrStep params count i pen).2
          (sgrStep params count i pen).1
      else pen

theorem applySgrOne_extended {p : Nat} (extended : p = 38 ∨ p = 48)
    (pen : Pen) : applySgrOne p pen = pen := by
  rcases extended with rfl | rfl <;> rfl

theorem applySgrAt_eq {term : Term} {i : Nat}
    (counted : term.paramCount ≤ maxParams) (inside : i < term.paramCount) :
    term.applySgrAt i =
      ({ term with
          pen := (sgrStep term.params term.paramCount i term.pen).1 },
        (sgrStep term.params term.paramCount i term.pen).2) := by
  unfold applySgrAt sgrStep
  rw [readParam_eq (by omega)]
  dsimp only
  by_cases lookahead :
      (term.params i = 38 ∨ term.params i = 48) ∧ i + 2 < term.paramCount
  · rw [if_pos lookahead, readParam_eq (by omega)]
    by_cases indexed : term.params (i + 1) = 5
    · have taken : (term.params i = 38 ∨ term.params i = 48) ∧
          i + 2 < term.paramCount ∧ term.params (i + 1) = 5 :=
        ⟨lookahead.1, lookahead.2, indexed⟩
      rw [if_pos indexed, if_pos taken, readParam_eq (by omega)]
    · rw [if_neg indexed, if_neg (fun taken => indexed taken.2.2),
        applySgrOne_extended lookahead.1]
  · rw [if_neg lookahead, if_neg (fun taken => lookahead ⟨taken.1, taken.2.1⟩)]

theorem applySgrFrom_eq {fuel i : Nat} {term : Term}
    (counted : term.paramCount ≤ maxParams) :
    applySgrFrom fuel i term =
      { term with
        pen := sgrFrom term.params term.paramCount fuel i term.pen } := by
  induction fuel generalizing i term with
  | zero => rfl
  | succ fuel ih =>
      unfold applySgrFrom sgrFrom
      split
      · rename_i inside
        rw [applySgrAt_eq counted inside, ih (by exact counted)]
      · rfl

end Term

end Pspssh.Terminal
