import Pspssh.Data.Decimal
import Pspssh.Terminal.Safety
import Pspssh.Terminal.Settings

namespace Pspssh.Terminal

open Pspssh.Data

/-! What a control sequence spells before its final byte, and when it changes
nothing. -/

def IsBody (ch : UInt8) : Prop :=
  0x20 ≤ ch ∧ ch ≤ 0x3f

instance : DecidablePred IsBody := fun _ =>
  inferInstanceAs (Decidable (_ ∧ _))

def IsFinal (ch : UInt8) : Prop :=
  0x40 ≤ ch ∧ ch ≤ 0x7e

instance : DecidablePred IsFinal := fun _ =>
  inferInstanceAs (Decidable (_ ∧ _))

def csi (body : List UInt8) (final : UInt8) : List UInt8 :=
  [0x1b, 0x5b] ++ (body ++ [final])

structure Parameters where
  values : Nat → Nat
  count : Nat
  seen : Bool

namespace Parameters

def none : Parameters where
  values := fun _ => 0
  count := 0
  seen := false

def digit (given : Parameters) (value : Nat) : Parameters where
  values := fun i =>
    if i = max 1 given.count - 1 then min (given.values i * 10 + value) 9999
    else given.values i
  count := max 1 given.count
  seen := true

/-- There are eight parameters at most. -/
def semicolon (given : Parameters) : Parameters where
  values := given.values
  count := min (given.count + 1) maxParams
  seen := true

def take (given : Parameters) (ch : UInt8) : Parameters :=
  if IsDigit ch then given.digit (digitOf ch)
  else if ch = 0x3b then given.semicolon
  else given

def spelt (body : List UInt8) : Parameters :=
  body.foldl take none

/-- A parameter that counts from one. -/
def value (given : Parameters) (index : Nat) (fallback : Int) : Int :=
  if given.count ≤ index ∨ index = 0 ∧ given.seen = false ∨
      given.values index = 0 then fallback
  else given.values index

def valueOrZero (given : Parameters) (index : Nat) : Nat :=
  if given.count ≤ index then 0 else given.values index

/-- The scroll region of these parameters, the whole screen if it is none. -/
def region (given : Parameters) (rows : Int) : Int × Int :=
  let top := given.value 0 1 - 1
  let bottom := if 1 < given.count then given.value 1 rows - 1 else rows - 1
  if top < bottom ∧ bottom < rows then (top, bottom) else (0, rows - 1)

/-- What the parameters of SGR set: no parameter means zero. -/
def settings (given : Parameters) : List Setting :=
  Setting.ofParams
    (if given.count = 0 then [0] else counted given.values given.count)

end Parameters

namespace Term

def parameters (term : Term) : Parameters where
  values := term.params
  count := term.paramCount
  seen := term.paramSeen

def collecting (given : Parameters) (marker : UInt8) (term : Term) : Term :=
  { term with
    state := .inCsi, params := given.values, paramCount := given.count,
    paramSeen := given.seen, privateMarker := marker }

theorem feedByte_body {term : Term} (few : term.paramCount ≤ maxParams)
    (reading : term.state = .inCsi) {ch : UInt8} (body : IsBody ch) :
    ∃ marker, term.feedByte ch =
      term.collecting (term.parameters.take ch) marker := by
  rw [feedByte_inCsi ch reading, feedInCsi, Parameters.take]
  unfold collecting
  rw [← reading]
  by_cases digit : IsDigit ch
  · rw [if_pos digit, if_pos digit, feedDigit_eq _ few]
    exact ⟨term.privateMarker, rfl⟩
  · rw [if_neg digit, if_neg digit]
    by_cases separates : ch = 0x3b
    · have next : (if term.paramCount < maxParams then term.paramCount + 1
          else term.paramCount) = min (term.paramCount + 1) maxParams := by
        split <;> omega
      rw [if_pos separates, if_pos separates, feedSemicolon, next]
      exact ⟨term.privateMarker, rfl⟩
    · rw [if_neg separates, if_neg separates]
      split
      · exact ⟨ch, rfl⟩
      · have notFinal : ¬ (0x40 ≤ ch ∧ ch ≤ 0x7e) := by
          rintro ⟨lower, _⟩
          exact absurd (UInt8.le_trans lower body.2) (by decide)
        rw [if_neg notFinal]
        exact ⟨term.privateMarker, rfl⟩

theorem take_count_le {given : Parameters} (few : given.count ≤ maxParams)
    (ch : UInt8) : (given.take ch).count ≤ maxParams := by
  have positive : 1 ≤ maxParams := by decide
  unfold Parameters.take
  split
  · exact max_le positive few
  split
  · exact min_le_right _ _
  · exact few

theorem termFeed_body {term : Term} (few : term.paramCount ≤ maxParams)
    (reading : term.state = .inCsi) {body : List UInt8}
    (whole : ∀ ch ∈ body, IsBody ch) :
    ∃ marker, termFeed body term =
      term.collecting (body.foldl Parameters.take term.parameters) marker := by
  induction body generalizing term with
  | nil =>
      refine ⟨term.privateMarker, ?_⟩
      unfold collecting
      rw [← reading]
      rfl
  | cons ch body ih =>
      obtain ⟨marker, taken⟩ :=
        feedByte_body few reading (whole ch List.mem_cons_self)
      have fed : termFeed (ch :: body) term = termFeed body (term.feedByte ch) :=
        rfl
      rw [fed, taken]
      exact ih (take_count_le few ch) rfl fun other member =>
        whole other (List.mem_cons_of_mem ch member)

theorem termFeed_opened {term : Term} (ground : term.state = .ground)
    {body : List UInt8} (whole : ∀ ch ∈ body, IsBody ch) :
    ∃ marker, termFeed ([0x1b, 0x5b] ++ body) term =
      term.collecting (Parameters.spelt body) marker := by
  have opened : termFeed [0x1b, 0x5b] term = term.collecting .none 0 :=
    termFeed_escaped ground 0x5b []
  rw [termFeed_append, opened]
  exact termFeed_body (Nat.zero_le _) rfl whole

end Term

@[ext] structure Display where
  grid : Int → Int → Cell
  cursorCol : Int
  cursorRow : Int
  savedCol : Int
  savedRow : Int
  scrollTop : Int
  scrollBottom : Int
  pen : Pen

namespace Term

def display (term : Term) : Display where
  grid := term.grid
  cursorCol := term.cursorCol
  cursorRow := term.cursorRow
  savedCol := term.savedCol
  savedRow := term.savedRow
  scrollTop := term.scrollTop
  scrollBottom := term.scrollBottom
  pen := term.pen

/-- The command of this final byte has nothing to do. -/
def Idle (final : UInt8) (given : Parameters) (term : Term) : Prop :=
  let count := given.value 0 1
  match Char.ofUInt8 final with
  | 'A' => term.cursorRow = 0 ∧ term.cursorCol < term.cols
  | 'B' => term.cursorRow = term.rows - 1 ∧ term.cursorCol < term.cols
  | 'C' => term.cursorCol = term.cols - 1
  | 'D' => term.cursorCol = 0
  | 'E' => term.cursorRow = term.rows - 1 ∧ term.cursorCol = 0
  | 'F' => term.cursorRow = 0 ∧ term.cursorCol = 0
  | 'G' => min count term.cols = term.cursorCol + 1
  | 'd' =>
      min count term.rows = term.cursorRow + 1 ∧ term.cursorCol < term.cols
  | 'H' | 'f' =>
      min count term.rows = term.cursorRow + 1 ∧
        min (given.value 1 1) term.cols = term.cursorCol + 1
  | 'J' => ∀ r c, term.Visible r c ∧
      term.ErasedInDisplay (given.valueOrZero 0) r c →
        term.grid r c = term.blank
  | 'K' => ∀ r c, term.Visible r c ∧
      term.ErasedInLine (given.valueOrZero 0) r c → term.grid r c = term.blank
  | 'L' => ∀ r c, term.BelowCursor r c →
      term.grid r c =
        if term.cursorRow ≤ r - count then term.grid (r - count) c
        else term.blank
  | 'M' => ∀ r c, term.BelowCursor r c →
      term.grid r c =
        if r + count ≤ term.scrollBottom then term.grid (r + count) c
        else term.blank
  | 'P' => ∀ r c, r = term.cursorRow ∧ term.cursorCol ≤ c ∧ c < term.cols →
      term.grid r c =
        if c + count < term.cols then term.grid r (c + count) else term.blank
  | '@' => ∀ r c, r = term.cursorRow ∧ term.cursorCol ≤ c ∧ c < term.cols →
      term.grid r c =
        if term.cursorCol ≤ c - count then term.grid r (c - count)
        else term.blank
  | 'S' => ∀ r c, term.InRegion r c →
      term.grid r c =
        if r + count ≤ term.scrollBottom then term.grid (r + count) c
        else term.blank
  | 'T' => ∀ r c, term.InRegion r c →
      term.grid r c =
        if term.scrollTop ≤ r - count then term.grid (r - count) c
        else term.blank
  | 'X' => ∀ r c, r = term.cursorRow ∧ term.cursorCol ≤ c ∧
      c < min term.cols (term.cursorCol + count) → term.grid r c = term.blank
  | 'm' => Setting.Kept given.settings term.pen
  | 'r' =>
      (term.scrollTop, term.scrollBottom) = given.region term.rows ∧
        term.cursorRow = term.scrollTop ∧ term.cursorCol = 0
  | 's' => term.savedCol = term.cursorCol ∧ term.savedRow = term.cursorRow
  | 'u' =>
      min term.savedCol (term.cols - 1) = term.cursorCol ∧
        term.savedRow = term.cursorRow
  | _ => True

theorem redrawn_iff {term : Term} {redrawn : Int → Int → Prop}
    [∀ r c, Decidable (redrawn r c)] {drawn : Int → Int → Cell} :
    (term.withGrid fun r c =>
        if redrawn r c then drawn r c else term.grid r c).display =
      term.display ↔ ∀ r c, redrawn r c → term.grid r c = drawn r c := by
  constructor
  · intro same r c inside
    have cell := congrFun (congrFun (congrArg Display.grid same) r) c
    simpa [display, inside] using cell.symm
  · intro same
    refine Display.ext (funext fun r => funext fun c => ?_) rfl rfl rfl rfl rfl
      rfl rfl
    change (if redrawn r c then drawn r c else term.grid r c) = term.grid r c
    split
    · rename_i inside
      exact (same r c inside).symm
    · rfl

theorem clamped_iff {term : Term} (geometry : term.Geometry) (col row : Int) :
    { term with cursorCol := col, cursorRow := row }.clampCursor.display =
        term.display ↔
      min (max 0 col) (term.cols - 1) = term.cursorCol ∧
        min (max 0 row) (term.rows - 1) = term.cursorRow := by
  have := geometry.cols_pos
  have := geometry.rows_pos
  simp only [display, clampCursor, Display.mk.injEq, true_and, and_true]
  grind

theorem paramAt_eq (term : Term) (index : Fin maxParams) (fallback : Int) :
    term.paramAt index fallback = term.parameters.value index fallback := by
  unfold paramAt Parameters.value parameters
  grind

theorem paramAt_zero (term : Term) (fallback : Int) :
    term.paramAt 0 fallback = term.parameters.value 0 fallback :=
  term.paramAt_eq 0 fallback

theorem paramAt_one (term : Term) (fallback : Int) :
    term.paramAt 1 fallback = term.parameters.value 1 fallback :=
  term.paramAt_eq 1 fallback

/-- SGR sets the pen, and one parameter if there was none. -/
theorem applySgr_eq {term : Term} (few : term.paramCount ≤ maxParams) :
    ∃ params count, term.applySgr =
      { term with
        pen := term.parameters.settings.foldl Setting.apply term.pen
        params := params, paramCount := count } := by
  have none : term.parameters.count = 0 ↔ term.paramCount = 0 := Iff.rfl
  unfold applySgr Parameters.settings
  by_cases uncounted : term.paramCount = 0
  · have one : 1 ≤ maxParams := by decide
    rw [if_pos uncounted, if_pos (none.mpr uncounted),
      writeParam_eq _ (by decide), applySgrFrom_eq (by exact one),
      sgrFrom_eq _ _ (Nat.le_add_left _ _)]
    exact ⟨_, _, rfl⟩
  · rw [if_neg uncounted, if_neg (mt none.mp uncounted), applySgrFrom_eq few,
      sgrFrom_eq _ _ (Nat.le_add_left _ _)]
    exact ⟨_, _, rfl⟩

theorem applySgr_display {term : Term} (few : term.paramCount ≤ maxParams) :
    term.applySgr.display =
      { term.display with
        pen := term.parameters.settings.foldl Setting.apply term.pen } := by
  obtain ⟨params, count, applied⟩ := applySgr_eq few
  rw [applied]
  rfl

theorem setScrollRegion_eq (term : Term) :
    term.setScrollRegion =
      term.withRegion (term.parameters.region term.rows).1
        (term.parameters.region term.rows).2 := by
  have first := term.paramAt_ge 0 (Int.le_refl 1)
  have counted : term.parameters.count = term.paramCount := rfl
  unfold setScrollRegion Parameters.region
  rw [paramAt_zero] at first
  rw [paramAt_zero, paramAt_one, counted]
  dsimp only
  generalize (if term.paramCount > 1 then _ else _) = bottom
  split_ifs <;> first | rfl | omega

theorem dispatchCsi_display_iff {term : Term} (safe : term.Safe)
    (final : UInt8) :
    (term.dispatchCsi final).display = term.display ↔
      term.Idle final term.parameters := by
  have geometry := safe.toGeometry
  have count := term.paramAt_ge 0 (Int.le_refl 1)
  have second := term.paramAt_ge 1 (Int.le_refl 1)
  unfold dispatchCsi Idle
  rw [paramAt_zero] at count
  rw [paramAt_one] at second
  simp only [paramAt_zero, paramAt_one]
  generalize first_eq : term.parameters.value 0 1 = first at count ⊢
  generalize Char.ofUInt8 final = ch
  have wide := geometry.cols_pos
  have colLower := geometry.cursorCol_nonneg
  have colUpper := geometry.cursorCol_le
  have rowLower := geometry.cursorRow_nonneg
  have rowUpper := geometry.cursorRow_lt
  have savedColLower := geometry.savedCol_nonneg
  have savedRowLower := geometry.savedRow_nonneg
  have savedRowUpper := geometry.savedRow_lt
  have forward : 0 ≤ first := by omega
  split
  -- the ten cursor movements
  iterate 2
    refine (clamped_iff geometry _ _).trans (?_ : _ ↔ _ ∧ _)
    omega
  iterate 2
    refine (clamped_iff geometry _ _).trans (?_ : _ ↔ _ = _)
    omega
  iterate 2
    refine (clamped_iff geometry _ _).trans (?_ : _ ↔ _ ∧ _)
    omega
  · refine (clamped_iff geometry _ _).trans (?_ : _ ↔ _ = _)
    omega
  iterate 3
    refine (clamped_iff geometry _ _).trans (?_ : _ ↔ _ ∧ _)
    omega
  · rw [eraseInDisplay_eq geometry]
    exact redrawn_iff
  · rw [eraseInLine_eq geometry]
    exact redrawn_iff
  · rw [insertLines_eq geometry, paramAt_zero, first_eq]
    exact redrawn_iff
  · rw [deleteLines_eq geometry, paramAt_zero, first_eq]
    exact redrawn_iff
  · rw [deleteChars_eq geometry forward]
    exact redrawn_iff
  · rw [insertChars_eq geometry forward]
    exact redrawn_iff
  · rw [scrollRegionUp_eq geometry.scrollable forward]
    exact redrawn_iff
  · rw [scrollRegionDown_eq geometry.scrollable forward]
    exact redrawn_iff
  · rw [eraseChars_eq geometry]
    exact redrawn_iff
  · rw [applySgr_display safe.paramCount_le, ← Setting.foldl_apply_eq_iff]
    exact ⟨congrArg Display.pen, fun same => by rw [same]; rfl⟩
  · rw [setScrollRegion_eq]
    refine (?_ : _ ↔ _ ∧ _)
    simp only [display, withRegion, Display.mk.injEq, true_and, and_true,
      Prod.ext_iff]
    omega
  · refine (?_ : _ ↔ _ ∧ _)
    simp only [display, Display.mk.injEq, true_and, and_true]
    omega
  · refine (clamped_iff geometry _ _).trans (?_ : _ ↔ _ ∧ _)
    omega
  · apply iff_of_true rfl
    simp_all

theorem feedByte_final {term : Term} (reading : term.state = .inCsi)
    {final : UInt8} (last : IsFinal final) :
    term.feedByte final = { term.dispatchCsi final with state := .ground } := by
  have above {ch : UInt8} (low : ¬ 0x40 ≤ ch) : final ≠ ch := by
    rintro rfl
    exact low last.1
  have notDigit : ¬ (0x30 ≤ final ∧ final ≤ 0x39) := fun digit =>
    absurd (UInt8.le_trans last.1 digit.2) (by decide)
  have notMarker : ¬ (final = 0x3f ∨ final = 0x3e ∨ final = 0x21) := by
    rintro (same | same | same)
    · exact above (by decide) same
    · exact above (by decide) same
    · exact above (by decide) same
  rw [feedByte_inCsi _ reading, feedInCsi, if_neg notDigit,
    if_neg (above (by decide)), if_neg notMarker]
  exact if_pos last

/-- A sequence is carried out on what its digits and semicolons spell. -/
theorem termFeed_csi {term : Term} (ground : term.state = .ground)
    {body : List UInt8} (whole : ∀ ch ∈ body, IsBody ch) {final : UInt8}
    (last : IsFinal final) :
    ∃ marker, termFeed (csi body final) term =
      { (term.collecting (Parameters.spelt body) marker).dispatchCsi final with
        state := .ground } := by
  obtain ⟨marker, opened⟩ := termFeed_opened ground whole
  have reading : (term.collecting (Parameters.spelt body) marker).state =
      .inCsi := rfl
  refine ⟨marker, ?_⟩
  rw [csi, ← List.append_assoc, termFeed_append, opened]
  exact feedByte_final reading last

theorem Safe.collecting {term : Term} (safe : term.Safe)
    (ground : term.state = .ground) {body : List UInt8}
    (whole : ∀ ch ∈ body, IsBody ch) (marker : UInt8) :
    (term.collecting (Parameters.spelt body) marker).Safe := by
  obtain ⟨other, opened⟩ := termFeed_opened ground whole
  have fed := safe.termFeed ([0x1b, 0x5b] ++ body)
  rw [opened] at fed
  exact { fed with }

end Term

/-- A sequence leaves the screen as it is exactly if its command has nothing to
do there, whatever else is in its body. -/
theorem sequence_unnoticed_iff (c r : Int) (calls : List TermCall)
    {body : List UInt8} {final : UInt8}
    (ground : (runCalls calls (termReset c r initial)).state = .ground)
    (whole : ∀ ch ∈ body, IsBody ch) (last : IsFinal final) :
    let before := runCalls calls (termReset c r initial)
    let after := termFeed (csi body final) before
    (after.state = .ground ∧ after.display = before.display) ↔
      before.Idle final (Parameters.spelt body) := by
  intro before after
  have safe : before.Safe := (Term.Safe.fresh c r).runCalls calls
  obtain ⟨marker, fed⟩ := Term.termFeed_csi ground whole last
  have kept := Term.dispatchCsi_display_iff
    (safe.collecting ground whole marker) final
  have shown : after.state = .ground ∧ after.display =
      ((before.collecting (Parameters.spelt body) marker).dispatchCsi
        final).display := by
    rw [show after = _ from fed]
    exact ⟨rfl, rfl⟩
  rw [shown.2]
  exact ⟨fun same => kept.mp same.2, fun idle => ⟨shown.1, kept.mpr idle⟩⟩

/-- `ESC [ ? 25 l` -/
theorem hidden_cursor_unnoticed :
    let before := runCalls [] (termReset 80 24 initial)
    let after := termFeed (csi [0x3f, 0x32, 0x35] 0x6c) before
    after.state = .ground ∧ after.display = before.display := by
  have whole : ∀ ch ∈ ([0x3f, 0x32, 0x35] : List UInt8), IsBody ch := by
    decide +kernel
  exact (sequence_unnoticed_iff 80 24 [] rfl whole (by decide)).mpr True.intro

/-- `ESC [ > 4 ; 1 m` -/
theorem modifier_keys_turn_bold :
    let body : List UInt8 := [0x3e, 0x34, 0x3b, 0x31]
    let before := runCalls [] (termReset 80 24 initial)
    let after := termFeed (csi body 0x6d) before
    before.state = .ground ∧ (∀ ch ∈ body, IsBody ch) ∧ IsFinal 0x6d ∧
      (∃ ch ∈ body, ¬ IsDigit ch ∧ ch ≠ 0x3b) ∧
      after.display ≠ before.display := by
  intro body before after
  have ground : before.state = .ground := rfl
  have plain : before.pen.bold = false := by decide +kernel
  have bold : after.pen.bold = true := by decide +kernel
  clear_value after before
  refine ⟨ground, by decide +kernel, by decide, by decide +kernel,
    fun same => ?_⟩
  have pens : after.pen = before.pen := congrArg Display.pen same
  rw [pens, plain] at bold
  contradiction

end Pspssh.Terminal
