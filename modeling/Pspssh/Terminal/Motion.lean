import Pspssh.Data.Run
import Pspssh.Terminal.Region
import Pspssh.Terminal.Surplus

namespace Pspssh.Terminal

open Pspssh.Data

/-! Sequences and control characters that move the cursor. -/

/-- The parts of a stream that only moves the cursor. -/
inductive Motion : List UInt8 → Prop
  | control {ch : UInt8} (member : ch ∈ [0x0d, 0x08, 0x09]) : Motion [ch]
  | sequence {body : List UInt8} {final : UInt8}
      (whole : ∀ ch ∈ body, IsDigit ch ∨ ch = 0x3b)
      (member : final ∈ ascii "ABCDEFGHdfsu") : Motion (csi body final)

namespace Term

def surroundings (term : Term) : Pen × Int × Int × Int × Int × Bool :=
  (term.pen, term.scrollTop, term.scrollBottom, term.cols, term.rows,
    term.bellRang)

/-- The cells between the cursor and the column that a tab goes to. -/
def UnderTab (term : Term) (r c : Int) : Prop :=
  r = term.cursorRow ∧ term.cursorCol ≤ c ∧ c < term.tabStop

instance (term : Term) (r c : Int) : Decidable (term.UnderTab r c) :=
  inferInstanceAs (Decidable (_ ∧ _))

/-- A tab finds in these cells the spaces that it would write. -/
def TabOverSpaces (term : Term) : Prop :=
  ∀ r c, term.UnderTab r c → term.grid r c = term.inked 0x20

theorem tab_eq {term : Term} (safe : term.Safe) :
    term.tab =
      { term with
        grid := fun r c =>
          if term.UnderTab r c then term.inked 0x20 else term.grid r c
        cursorCol := max term.cursorCol term.tabStop } := by
  have stop := term.tabStop_lt
  have narrow := safe.cols_le
  have lower := safe.cursorCol_nonneg
  have inRows : term.cursorRow < termMaxRows :=
    safe.cursorRow_lt.trans_le safe.rows_le
  let trace (col : Int) : Term :=
    { term with
      grid := fun r c =>
        if r = term.cursorRow ∧ term.cursorCol ≤ c ∧ c < col then
          term.inked 0x20
        else term.grid r c
      cursorCol := col }
  have start : term = trace term.cursorCol := by
    apply eq_withGrid
    intro r c
    rw [if_neg (by omega)]
  rcases Int.le_total term.tabStop term.cursorCol with beyond | ordered
  · have idle : (term.tabStop - term.cursorCol).toNat = 0 := by omega
    have nothing (r c : Int) : ¬ term.UnderTab r c := by
      rintro ⟨_, left, right⟩
      omega
    rw [tab, idle, Int.max_eq_left beyond]
    exact eq_withGrid fun r c => if_neg (nothing r c)
  · rw [Int.max_eq_right ordered]
    refine whileLoop_eq trace start (by omega) ordered ?_ ?_ ?_
    · intro col _ more
      exact decide_eq_true more
    · intro col reached more
      have inside : InGrid term.cursorRow col :=
        ⟨safe.cursorRow_nonneg, inRows, by omega, by omega⟩
      rw [putChar_of_lt 0x20 inside (by dsimp only [trace]; omega)]
      have same (r c : Int) :
          (if r = term.cursorRow ∧ c = col then (trace col).inked 0x20
            else (trace col).grid r c) = (trace (col + 1)).grid r c := by
        change (if r = term.cursorRow ∧ c = col then term.inked 0x20
          else if r = term.cursorRow ∧ term.cursorCol ≤ c ∧ c < col then
            term.inked 0x20 else term.grid r c) =
          if r = term.cursorRow ∧ term.cursorCol ≤ c ∧ c < col + 1 then
            term.inked 0x20 else term.grid r c
        grind
      exact congrArg (fun grid => { trace (col + 1) with grid := grid })
        (funext fun r => funext fun c => same r c)
    · exact decide_eq_false (Int.lt_irrefl _)

theorem clampCursor_eq {term : Term} (geometry : term.Geometry)
    (col row : Int) :
    { term with cursorCol := col, cursorRow := row }.clampCursor =
      { term with
        cursorCol := min (max 0 col) (term.cols - 1)
        cursorRow := min (max 0 row) (term.rows - 1) } := by
  have := geometry.cols_pos
  have := geometry.rows_pos
  unfold clampCursor
  dsimp only
  congr 1
  · grind
  · grind

theorem clampCursor_visible {term : Term} (geometry : term.Geometry)
    (col row : Int) :
    let clamped := { term with cursorCol := col, cursorRow := row }.clampCursor
    clamped.Visible clamped.cursorRow clamped.cursorCol := by
  have := geometry.cols_pos
  have := geometry.rows_pos
  rw [clampCursor_eq geometry]
  unfold Visible
  dsimp only
  omega

theorem inked_congr {left right : Term}
    (same : left.surroundings = right.surroundings) (ch : UInt8) :
    left.inked ch = right.inked ch := by
  have pens : left.pen = right.pen := congrArg Prod.fst same
  unfold inked brightFg
  rw [pens]

end Term

open Term

variable {term : Term}

theorem mem_motions {final : UInt8} :
    final ∈ ascii "ABCDEFGHdfsu" ↔
      final ∈ [0x41, 0x42, 0x43, 0x44, 0x45, 0x46, 0x47, 0x48, 0x64, 0x66, 0x73,
        0x75] := by
  have listed : ascii "ABCDEFGHdfsu" = [0x41, 0x42, 0x43, 0x44, 0x45, 0x46,
    0x47, 0x48, 0x64, 0x66, 0x73, 0x75] := by decide +kernel
  rw [listed]

theorem isBody_of_parameter {body : List UInt8}
    (whole : ∀ ch ∈ body, IsDigit ch ∨ ch = 0x3b) : ∀ ch ∈ body, IsBody ch := by
  intro ch member
  rcases whole ch member with digit | rfl
  · exact isBody_of_digit digit
  · decide

theorem dispatchCsi_moves {final : UInt8}
    (member : final ∈ ascii "ABCDEFGHdfsu") :
    (term.dispatchCsi final).grid = term.grid ∧
      (term.dispatchCsi final).surroundings = term.surroundings := by
  have listed := mem_motions.mp member
  simp only [List.mem_cons, List.not_mem_nil, or_false] at listed
  rcases listed with rfl | rfl | rfl | rfl | rfl | rfl | rfl | rfl | rfl | rfl |
    rfl | rfl
  iterate 12 exact ⟨rfl, rfl⟩

theorem dispatchCsi_visible (geometry : term.Geometry) {final : UInt8}
    (member : final ∈ ascii "ABCDEFGHdfsu") (moves : final ≠ 0x73) :
    (term.dispatchCsi final).Visible (term.dispatchCsi final).cursorRow
      (term.dispatchCsi final).cursorCol := by
  have listed := mem_motions.mp member
  simp only [List.mem_cons, List.not_mem_nil, or_false] at listed
  rcases listed with rfl | rfl | rfl | rfl | rfl | rfl | rfl | rfl | rfl | rfl |
    rfl | rfl
  iterate 10 exact clampCursor_visible geometry _ _
  · contradiction
  · exact clampCursor_visible geometry _ _

/-- A motion other than a tab leaves the cells; a tab writes spaces over those
that it passes. -/
theorem feed_motion (safe : term.Safe) (ground : term.state = .ground)
    {piece : List UInt8} (made : Motion piece) :
    (termFeed piece term).state = .ground ∧
      (termFeed piece term).surroundings = term.surroundings ∧
      ∀ r c, (termFeed piece term).grid r c =
        if piece = [0x09] ∧ term.UnderTab r c then term.inked 0x20
        else term.grid r c := by
  cases made with
  | @control ch member =>
      change (term.feedByte ch).state = _ ∧ (term.feedByte ch).surroundings = _ ∧
        ∀ r c, (term.feedByte ch).grid r c = _
      rw [feedByte_ground ch ground]
      simp only [List.mem_cons, List.not_mem_nil, or_false] at member
      rcases member with rfl | rfl | rfl
      · exact ⟨ground, rfl, fun r c => (if_neg (by simp)).symm⟩
      · have same : (term.feedGround 0x08).state = term.state ∧
            (term.feedGround 0x08).surroundings = term.surroundings ∧
            (term.feedGround 0x08).grid = term.grid := by
          change Term.state (if term.cursorCol > 0 then _ else _) = _ ∧
            surroundings (if term.cursorCol > 0 then _ else _) = _ ∧
            Term.grid (if term.cursorCol > 0 then _ else _) = _
          split
          · exact ⟨rfl, rfl, rfl⟩
          · exact ⟨rfl, rfl, rfl⟩
        refine ⟨same.1.trans ground, same.2.1, fun r c => ?_⟩
        rw [same.2.2, if_neg (by simp)]
      · change term.tab.state = _ ∧ term.tab.surroundings = _ ∧
          ∀ r c, term.tab.grid r c = _
        rw [tab_eq safe]
        exact ⟨ground, rfl, fun r c => by simp⟩
  | @sequence body final whole member =>
      have last : IsFinal final := by
        have each : ∀ ch ∈ ascii "ABCDEFGHdfsu", IsFinal ch := by
          decide +kernel
        exact each final member
      have long : csi body final ≠ [0x09] := by simp [csi]
      obtain ⟨marker, fed⟩ := termFeed_csi ground (isBody_of_parameter whole) last
      obtain ⟨cells, around⟩ :
          ((term.collecting (Parameters.spelt body) marker).dispatchCsi final).grid =
            term.grid ∧
          ((term.collecting (Parameters.spelt body) marker).dispatchCsi
            final).surroundings = term.surroundings := dispatchCsi_moves member
      rw [fed]
      refine ⟨rfl, around, fun r c => ?_⟩
      rw [if_neg fun taken => long taken.1]
      exact congrFun (congrFun cells r) c

/-! ## A stream -/

theorem feed_motions (safe : term.Safe) (ground : term.state = .ground)
    {pieces : List (List UInt8)} (made : ∀ piece ∈ pieces, Motion piece) :
    (termFeed pieces.flatten term).state = .ground ∧
      (termFeed pieces.flatten term).surroundings = term.surroundings := by
  induction pieces generalizing term with
  | nil => exact ⟨ground, rfl⟩
  | cons piece pieces ih =>
      obtain ⟨rests, around, _⟩ :=
        feed_motion safe ground (made piece List.mem_cons_self)
      rw [List.flatten_cons, termFeed_append]
      have later := ih (safe.termFeed piece) rests fun other member =>
        made other (List.mem_cons_of_mem piece member)
      exact ⟨later.1, later.2.trans around⟩

/-- A cell that holds the space of this pen keeps it. -/
theorem spaces_stay (safe : term.Safe) (ground : term.state = .ground)
    {pieces : List (List UInt8)} (made : ∀ piece ∈ pieces, Motion piece)
    {r c : Int} (space : term.grid r c = term.inked 0x20) :
    (termFeed pieces.flatten term).grid r c = term.inked 0x20 := by
  induction pieces generalizing term with
  | nil => exact space
  | cons piece pieces ih =>
      obtain ⟨rests, around, cells⟩ :=
        feed_motion safe ground (made piece List.mem_cons_self)
      have pens := inked_congr around 0x20
      have still : (termFeed piece term).grid r c = term.inked 0x20 := by
        rw [cells, space, ite_self]
      rw [List.flatten_cons, termFeed_append, ← pens]
      exact ih (safe.termFeed piece) rests
        (fun other member => made other (List.mem_cons_of_mem piece member))
        (still.trans pens.symm)

/-- Every tab of the stream passes over spaces only. -/
def TabsOverSpaces (pieces : List (List UInt8)) (term : Term) : Prop :=
  Throughout (fun state piece => termFeed piece state)
    (fun state piece => piece = [0x09] → state.TabOverSpaces) term pieces

theorem grid_kept_iff (safe : term.Safe) (ground : term.state = .ground)
    {pieces : List (List UInt8)} (made : ∀ piece ∈ pieces, Motion piece) :
    (termFeed pieces.flatten term).grid = term.grid ↔
      TabsOverSpaces pieces term := by
  induction pieces generalizing term with
  | nil => exact iff_of_true rfl throughout_nil
  | cons piece pieces ih =>
      obtain ⟨rests, around, cells⟩ :=
        feed_motion safe ground (made piece List.mem_cons_self)
      have others : ∀ other ∈ pieces, Motion other := fun other member =>
        made other (List.mem_cons_of_mem piece member)
      have later := ih (safe.termFeed piece) rests others
      have here : (termFeed piece term).grid = term.grid ↔
          (piece = [0x09] → term.TabOverSpaces) := by
        constructor
        · intro same tab r c under
          rw [← same, cells, if_pos ⟨tab, under⟩]
        · intro spaces
          funext r c
          rw [cells]
          split
          · rename_i taken
            exact (spaces taken.1 r c taken.2).symm
          · rfl
      rw [List.flatten_cons, termFeed_append, TabsOverSpaces, throughout_cons,
        ← here]
      constructor
      · intro same
        have first : (termFeed piece term).grid = term.grid := by
          funext r c
          by_cases taken : piece = [0x09] ∧ term.UnderTab r c
          · have pens := inked_congr around 0x20
            have space : (termFeed piece term).grid r c = term.inked 0x20 := by
              rw [cells, if_pos taken]
            have stays := spaces_stay (safe.termFeed piece) rests others
              (space.trans pens.symm)
            rw [space, ← pens, ← stays, same]
          · rw [cells, if_neg taken]
        exact ⟨first, later.mp (same.trans first.symm)⟩
      · rintro ⟨first, rest⟩
        exact (later.mpr rest).trans first

/-- What a stream of motions has to do: the text and its surroundings stay, and
each sequence that moves the cursor puts it on a visible cell. -/
structure OnlyMoves (pieces : List (List UInt8)) (before : Term) : Prop where
  cells : (termFeed pieces.flatten before).grid = before.grid
  surroundings : (termFeed pieces.flatten before).surroundings =
    before.surroundings
  visible : ∀ first body final rest, pieces = first ++ csi body final :: rest →
    final ≠ 0x73 →
      let moved := termFeed (first.flatten ++ csi body final) before
      moved.Visible moved.cursorRow moved.cursorCol

theorem sequence_visible (safe : term.Safe) (ground : term.state = .ground)
    {body : List UInt8} {final : UInt8} (made : Motion (csi body final))
    (moves : final ≠ 0x73) :
    (termFeed (csi body final) term).Visible
      (termFeed (csi body final) term).cursorRow
      (termFeed (csi body final) term).cursorCol := by
  generalize same : csi body final = piece at made
  cases made with
  | control member =>
      have := congrArg List.length same
      simp [csi] at this
  | @sequence body' final' whole member =>
      obtain ⟨rfl, ends⟩ := List.append_inj' (List.append_cancel_left same) rfl
      cases ends
      have last : IsFinal final := by
        have each : ∀ ch ∈ ascii "ABCDEFGHdfsu", IsFinal ch := by
          decide +kernel
        exact each final member
      have bodies := isBody_of_parameter whole
      obtain ⟨marker, fed⟩ := termFeed_csi ground bodies last
      rw [fed]
      exact dispatchCsi_visible
        (safe.collecting ground bodies marker).toGeometry member moves

/-- A stream of motions leaves the text alone exactly if none of its tabs
passes over anything but spaces in the current colours. -/
theorem motions_leave_text_iff (c r : Int) (calls : List TermCall)
    {before : Term} (reached : before = runCalls calls (termReset c r initial))
    (ground : before.state = .ground) {pieces : List (List UInt8)}
    (made : ∀ piece ∈ pieces, Motion piece) :
    OnlyMoves pieces before ↔ TabsOverSpaces pieces before := by
  have safe : before.Safe := reached ▸ (Term.Safe.fresh c r).runCalls calls
  have kept := grid_kept_iff safe ground made
  constructor
  · intro only
    exact kept.mp only.cells
  · intro spaces
    refine ⟨kept.mpr spaces, (feed_motions safe ground made).2, ?_⟩
    rintro first body final rest rfl moves
    have rests := feed_motions safe ground fun piece member =>
      made piece (List.mem_append_left _ member)
    rw [termFeed_append]
    exact sequence_visible (safe.termFeed first.flatten) rests.1
      (made _ (List.mem_append_right _ List.mem_cons_self)) moves

/-- A tab behind the text, then `ESC [ 5 C`. -/
theorem motions_leave_text_behind :
    OnlyMoves [[0x09], csi [0x35] 0x43]
      (runCalls [.feed (ascii "ab")] (termReset 20 4 initial)) := by
  have made : ∀ piece ∈ [[0x09], csi [0x35] 0x43], Motion piece := by
    intro piece member
    rcases List.mem_pair.mp member with rfl | rfl
    · exact .control (by simp)
    · exact .sequence (by decide +kernel) (by decide +kernel)
  refine (motions_leave_text_iff 20 4 [.feed (ascii "ab")] rfl
    (by decide +kernel) made).mpr ?_
  have row : (runCalls [.feed (ascii "ab")] (termReset 20 4 initial)).cursorRow
      = 0 := by decide +kernel
  have col : (runCalls [.feed (ascii "ab")] (termReset 20 4 initial)).cursorCol
      = 2 := by decide +kernel
  have stop : (runCalls [.feed (ascii "ab")] (termReset 20 4 initial)).tabStop
      = 8 := by decide +kernel
  refine throughout_cons.mpr ⟨fun _ r c under => ?_, ?_⟩
  · rw [UnderTab, row, col, stop] at under
    obtain ⟨rfl, lower, upper⟩ := under
    interval_cases c <;> decide +kernel
  · simp [csi]

/-- A tab at the start of a line that holds text. -/
theorem tab_wipes_text :
    let before := runCalls [.feed (ascii "name\r")] (termReset 80 20 initial)
    before.state = .ground ∧ (∀ piece ∈ [[0x09]], Motion piece) ∧
      (termAt 0 0 before).map Cell.ch = some 0x6e ∧
      (termAt 0 0 (termFeed [0x09] before)).map Cell.ch = some 0x20 ∧
      ¬ OnlyMoves [[0x09]] before := by
  intro before
  have letter : (termAt 0 0 before).map Cell.ch = some 0x6e := by decide +kernel
  have blank : (termAt 0 0 (termFeed [0x09] before)).map Cell.ch = some 0x20 := by
    decide +kernel
  have cell : (before.grid 0 0).ch = 0x6e := by decide +kernel
  have wiped : ((termFeed [0x09] before).grid 0 0).ch = 0x20 := by
    decide +kernel
  have ground : before.state = .ground := by decide +kernel
  clear_value before
  refine ⟨ground, ?_, letter, blank, fun only => ?_⟩
  · intro piece member
    obtain rfl := List.mem_singleton.mp member
    exact .control (by simp)
  · have same : (termFeed [0x09] before).grid = before.grid := by
      simpa using only.cells
    rw [same, cell] at wiped
    contradiction

end Pspssh.Terminal
