import Pspssh.Data.Text
import Pspssh.Terminal.Sequence

namespace Pspssh.Terminal

open Pspssh.Data

namespace Term

/-! Text outside the scroll region, while the cursor is inside. -/

def Outside (start : Term) (r : Int) : Prop :=
  r < start.scrollTop ∨ start.scrollBottom < r

/-- The region and the rows outside are as at the start, and the cursor is in
the region. -/
structure Confined (start term : Term) : Prop where
  scrollTop : term.scrollTop = start.scrollTop
  scrollBottom : term.scrollBottom = start.scrollBottom
  above : start.scrollTop ≤ term.cursorRow
  below : term.cursorRow ≤ start.scrollBottom
  rows : ∀ r c, start.Outside r → term.grid r c = start.grid r c

theorem mem_escapes {ch : UInt8} :
    ch ∈ ascii "DEM" ↔ ch = 0x44 ∨ ch = 0x45 ∨ ch = 0x4d := by
  have listed : ascii "DEM" = [0x44, 0x45, 0x4d] := by decide +kernel
  simp only [listed, List.mem_cons, List.not_mem_nil, or_false]

namespace Confined

variable {start term : Term}

theorem moveCursor (confined : Confined start term) (col : Int) {row : Int}
    (above : start.scrollTop ≤ row) (below : row ≤ start.scrollBottom) :
    Confined start { term with cursorCol := col, cursorRow := row } :=
  { confined with above := above, below := below }

theorem redraw (confined : Confined start term) {redrawn : Int → Int → Prop}
    [∀ r c, Decidable (redrawn r c)] {drawn : Int → Int → Cell}
    (inside : ∀ r c, redrawn r c → ¬ start.Outside r) :
    Confined start (term.withGrid fun r c =>
      if redrawn r c then drawn r c else term.grid r c) :=
  { confined with
    rows := fun r c outside =>
      (if_neg fun here => inside r c here outside).trans
        (confined.rows r c outside) }

theorem inRegion (confined : Confined start term) {r c : Int}
    (inside : term.InRegion r c) : ¬ start.Outside r := by
  have top := confined.scrollTop
  have bottom := confined.scrollBottom
  obtain ⟨lower, upper, _⟩ := inside
  rintro (before | behind)
  · omega
  · omega

theorem cursorRow (confined : Confined start term) :
    ¬ start.Outside term.cursorRow := by
  rintro (before | behind)
  · exact absurd confined.above (Int.not_le.mpr before)
  · exact absurd confined.below (Int.not_le.mpr behind)

theorem belowCursor (confined : Confined start term) {r c : Int}
    (below : term.BelowCursor r c) : ¬ start.Outside r := by
  have bottom := confined.scrollBottom
  have top := confined.above
  obtain ⟨_, lower, upper, _⟩ := below
  rintro (before | behind)
  · omega
  · omega

/-! ## Scrolling and writing -/

theorem scrollRegionUp (confined : Confined start term) (safe : term.Safe)
    {lines : Int} (forward : 0 ≤ lines) :
    Confined start (term.scrollRegionUp lines) := by
  rw [scrollRegionUp_eq safe.scrollable forward]
  exact confined.redraw fun r c => confined.inRegion

theorem scrollRegionDown (confined : Confined start term) (safe : term.Safe)
    {lines : Int} (forward : 0 ≤ lines) :
    Confined start (term.scrollRegionDown lines) := by
  rw [scrollRegionDown_eq safe.scrollable forward]
  exact confined.redraw fun r c => confined.inRegion

theorem lineFeed (confined : Confined start term) (safe : term.Safe) :
    Confined start term.lineFeed := by
  have bottom := confined.scrollBottom
  have above := confined.above
  have below := confined.below
  unfold Term.lineFeed
  split
  · exact confined.scrollRegionUp safe (by decide)
  split
  · exact confined.moveCursor term.cursorCol (by omega) (by omega)
  · exact confined

theorem reverseIndex (confined : Confined start term) (safe : term.Safe) :
    Confined start term.reverseIndex := by
  have top := confined.scrollTop
  have above := confined.above
  have below := confined.below
  unfold Term.reverseIndex
  split
  · exact confined.scrollRegionDown safe (by decide)
  split
  · exact confined.moveCursor term.cursorCol (by omega) (by omega)
  · exact confined

theorem newline (confined : Confined start term) (safe : term.Safe) :
    Confined start { term with cursorCol := 0 }.lineFeed :=
  (confined.moveCursor 0 confined.above confined.below).lineFeed safe.returned

theorem wrap (confined : Confined start term) (safe : term.Safe) :
    Confined start term.wrap := by
  unfold Term.wrap
  split
  · exact confined.newline safe
  · exact confined

theorem putChar (confined : Confined start term) (safe : term.Safe)
    (ch : UInt8) : Confined start (term.putChar ch) := by
  have wrapped := confined.wrap safe
  have before := wrap_cursorCol_lt safe.scrollable safe.cols_pos
  rw [putChar_eq ch (safe.wrap.inGrid before)]
  have written : Confined start (term.wrap.withGrid fun r c =>
      if r = term.wrap.cursorRow ∧ c = term.wrap.cursorCol then
        term.wrap.inked ch
      else term.wrap.grid r c) := by
    apply wrapped.redraw
    rintro r c ⟨rfl, _⟩
    exact wrapped.cursorRow
  exact written.moveCursor _ wrapped.above wrapped.below

theorem tab (confined : Confined start term) (safe : term.Safe) :
    Confined start term.tab :=
  (tab_invariant (fun state => state.Safe ∧ Confined start state)
    ⟨safe, confined⟩ fun _ reached _ =>
      ⟨reached.1.putChar (by decide) (by decide),
        reached.2.putChar reached.1 _⟩).1.2

/-! ## Control sequences -/

theorem clampCol (confined : Confined start term) (safe : term.Safe)
    (col : Int) :
    Confined start { term with cursorCol := col }.clampCursor := by
  have kept : { term with cursorCol := col }.clampCursor.cursorRow =
      term.cursorRow := by
    have lower := safe.cursorRow_nonneg
    have upper := safe.cursorRow_lt
    unfold Term.clampCursor
    grind
  exact { confined with
    above := confined.above.trans_eq kept.symm
    below := kept.trans_le confined.below }

theorem eraseInLine (confined : Confined start term) (safe : term.Safe)
    (mode : Nat) : Confined start (term.eraseInLine mode) := by
  rw [eraseInLine_eq safe.toGeometry]
  apply confined.redraw
  rintro r c ⟨_, rfl, _⟩
  exact confined.cursorRow

theorem insertLines (confined : Confined start term) (safe : term.Safe) :
    Confined start term.insertLines := by
  rw [insertLines_eq safe.toGeometry]
  exact confined.redraw fun r c => confined.belowCursor

theorem deleteLines (confined : Confined start term) (safe : term.Safe) :
    Confined start term.deleteLines := by
  rw [deleteLines_eq safe.toGeometry]
  exact confined.redraw fun r c => confined.belowCursor

theorem deleteChars (confined : Confined start term) (safe : term.Safe)
    {count : Int} (forward : 0 ≤ count) :
    Confined start (term.deleteChars count) := by
  rw [deleteChars_eq safe.toGeometry forward]
  apply confined.redraw
  rintro r c ⟨rfl, _⟩
  exact confined.cursorRow

theorem insertChars (confined : Confined start term) (safe : term.Safe)
    {count : Int} (forward : 0 ≤ count) :
    Confined start (term.insertChars count) := by
  rw [insertChars_eq safe.toGeometry forward]
  apply confined.redraw
  rintro r c ⟨rfl, _⟩
  exact confined.cursorRow

theorem eraseChars (confined : Confined start term) (safe : term.Safe)
    (count : Int) : Confined start (term.eraseChars count) := by
  rw [eraseChars_eq safe.toGeometry]
  apply confined.redraw
  rintro r c ⟨rfl, _⟩
  exact confined.cursorRow

theorem applySgr (confined : Confined start term) (safe : term.Safe) :
    Confined start term.applySgr := by
  have same := applySgr_display safe.paramCount_le
  have grid : term.applySgr.grid = term.grid := congrArg Display.grid same
  have row : term.applySgr.cursorRow = term.cursorRow :=
    congrArg Display.cursorRow same
  have top : term.applySgr.scrollTop = term.scrollTop :=
    congrArg Display.scrollTop same
  have bottom : term.applySgr.scrollBottom = term.scrollBottom :=
    congrArg Display.scrollBottom same
  exact ⟨top.trans confined.scrollTop, bottom.trans confined.scrollBottom,
    row ▸ confined.above, row ▸ confined.below, grid ▸ confined.rows⟩

/-- The sequences that neither move the cursor to another row nor erase one. -/
theorem dispatchCsi (confined : Confined start term) (safe : term.Safe)
    {final : UInt8} (member : final ∈ ascii "CDGKLMP@STXms") :
    Confined start (term.dispatchCsi final) := by
  have forward : 0 ≤ term.paramAt 0 1 :=
    (Int.zero_le_ofNat 1).trans (term.paramAt_ge 0 (Int.le_refl 1))
  have listed : ascii "CDGKLMP@STXms" = [0x43, 0x44, 0x47, 0x4b, 0x4c, 0x4d,
    0x50, 0x40, 0x53, 0x54, 0x58, 0x6d, 0x73] := by decide +kernel
  simp only [listed, List.mem_cons, List.not_mem_nil, or_false] at member
  rcases member with rfl | rfl | rfl | rfl | rfl | rfl | rfl | rfl | rfl | rfl |
    rfl | rfl | rfl
  iterate 3 exact confined.clampCol safe _
  · exact confined.eraseInLine safe _
  · exact confined.insertLines safe
  · exact confined.deleteLines safe
  · exact confined.deleteChars safe forward
  · exact confined.insertChars safe forward
  · exact confined.scrollRegionUp safe forward
  · exact confined.scrollRegionDown safe forward
  · exact confined.eraseChars safe _
  · exact confined.applySgr safe
  · exact { confined with }

/-! ## The parser -/

theorem feedGround (confined : Confined start term) (safe : term.Safe)
    {ch : UInt8} (plain : ch ≠ 0x1b) : Confined start (term.feedGround ch) := by
  unfold Term.feedGround
  rw [if_neg plain]
  split
  · exact confined.lineFeed safe
  split
  · exact { confined with }
  split
  · split
    · exact { confined with }
    · exact confined
  split
  · exact confined.tab safe
  split
  · exact { confined with }
  split
  · exact confined.putChar safe ch
  · exact confined

theorem feedSawEsc (confined : Confined start term) (safe : term.Safe)
    {ch : UInt8} (member : ch ∈ ascii "DEM") :
    Confined start (term.feedSawEsc ch) := by
  rcases mem_escapes.mp member with rfl | rfl | rfl
  · exact { confined.lineFeed safe with }
  · exact { confined.newline safe with }
  · exact { confined.reverseIndex safe with }

end Confined

variable {term : Term}

theorem lineFeed_state (safe : term.Safe) : term.lineFeed.state = term.state := by
  rw [lineFeed_frame safe.scrollable]

theorem putChar_state (safe : term.Safe) (ch : UInt8) :
    (term.putChar ch).state = term.state := by
  have before := wrap_cursorCol_lt safe.scrollable safe.cols_pos
  rw [putChar_eq ch (safe.wrap.inGrid before)]
  change term.wrap.state = term.state
  rw [wrap_frame safe.scrollable]

theorem feedGround_state (safe : term.Safe) {ch : UInt8} (plain : ch ≠ 0x1b) :
    (term.feedGround ch).state = term.state := by
  unfold feedGround
  rw [if_neg plain]
  split
  · exact lineFeed_state safe
  split
  · rfl
  split
  · split <;> rfl
  split
  · exact (tab_invariant
      (fun state => state.Safe ∧ state.state = term.state) ⟨safe, rfl⟩
      fun _ reached _ => ⟨reached.1.putChar (by decide) (by decide),
        (putChar_state reached.1 _).trans reached.2⟩).1.2
  split
  · rfl
  split
  · exact putChar_state safe ch
  · rfl

end Term

/-! ## A stream -/

/-- The parts of a stream that stays in the scroll region. -/
inductive Piece : List UInt8 → Prop
  | printable {ch : UInt8} (lower : 0x20 ≤ ch) (upper : ch ≠ 0x7f) : Piece [ch]
  | control {ch : UInt8} (member : ch ∈ [0x0d, 0x0a, 0x08, 0x09, 0x07]) :
      Piece [ch]
  | escape {ch : UInt8} (member : ch ∈ ascii "DEM") : Piece [0x1b, ch]
  | sequence {body : List UInt8} {final : UInt8} (whole : ∀ ch ∈ body, IsBody ch)
      (member : final ∈ ascii "CDGKLMP@STXms") : Piece (csi body final)

open Term

section Stream

variable {start term : Term}

theorem feed_plain (safe : term.Safe) (ground : term.state = .ground)
    (confined : Confined start term) {ch : UInt8} (plain : ch ≠ 0x1b)
    {read : List UInt8} (part : read <+: [ch]) :
    Confined start (termFeed read term) ∧
      (termFeed [ch] term).state = .ground := by
  have fed : termFeed [ch] term = term.feedGround ch := feedByte_ground ch ground
  refine ⟨?_, by rw [fed, feedGround_state safe plain, ground]⟩
  rcases List.prefix_cons_iff.mp part with rfl | ⟨others, rfl, rest⟩
  · exact confined
  · rw [List.prefix_nil.mp rest, fed]
    exact confined.feedGround safe plain

theorem feed_escape (safe : term.Safe) (ground : term.state = .ground)
    (confined : Confined start term) {ch : UInt8} (member : ch ∈ ascii "DEM")
    {read : List UInt8} (part : read <+: [0x1b, ch]) :
    Confined start (termFeed read term) ∧
      (termFeed [0x1b, ch] term).state = .ground := by
  have fed : termFeed [0x1b, ch] term =
      { term with state := .sawEsc }.feedSawEsc ch :=
    termFeed_escaped ground ch []
  have waiting : Confined start { term with state := .sawEsc } :=
    { confined with }
  constructor
  · rcases List.prefix_cons_iff.mp part with rfl | ⟨read, rfl, rest⟩
    · exact confined
    rcases List.prefix_cons_iff.mp rest with rfl | ⟨others, rfl, nothing⟩
    · change Confined start (term.feedByte 0x1b)
      rw [feedByte_escape ground]
      exact waiting
    · rw [List.prefix_nil.mp nothing, fed]
      exact waiting.feedSawEsc (safe.withState _) member
  · rw [fed]
    rcases mem_escapes.mp member with rfl | rfl | rfl
    · rfl
    · rfl
    · rfl

theorem feed_sequence (safe : term.Safe) (ground : term.state = .ground)
    (confined : Confined start term) {body : List UInt8} {final : UInt8}
    (whole : ∀ ch ∈ body, IsBody ch) (member : final ∈ ascii "CDGKLMP@STXms")
    {read : List UInt8} (part : read <+: csi body final) :
    Confined start (termFeed read term) ∧
      (termFeed (csi body final) term).state = .ground := by
  have last : IsFinal final := by
    have each : ∀ ch ∈ ascii "CDGKLMP@STXms", IsFinal ch := by decide +kernel
    exact each final member
  obtain ⟨marker, fed⟩ := termFeed_csi ground whole last
  refine ⟨?_, by rw [fed]⟩
  rcases List.prefix_cons_iff.mp part with rfl | ⟨read, rfl, rest⟩
  · exact confined
  rcases List.prefix_cons_iff.mp rest with rfl | ⟨read, rfl, opened⟩
  · change Confined start (term.feedByte 0x1b)
    rw [feedByte_escape ground]
    exact { confined with }
  rcases List.prefix_concat_iff.mp opened with rfl | within
  · change Confined start (termFeed (csi body final) term)
    rw [fed]
    have collecting : Confined start
        (term.collecting (Parameters.spelt body) marker) := { confined with }
    exact { collecting.dispatchCsi (safe.collecting ground whole marker)
      member with }
  · obtain ⟨marker, opened⟩ := termFeed_opened ground fun ch inside =>
      whole ch (within.subset inside)
    change Confined start (termFeed ([0x1b, 0x5b] ++ read) term)
    rw [opened]
    exact { confined with }

theorem feed_piece (safe : term.Safe) (ground : term.state = .ground)
    (confined : Confined start term) {piece : List UInt8}
    (made : Piece piece) {read : List UInt8} (part : read <+: piece) :
    Confined start (termFeed read term) ∧
      (termFeed piece term).state = .ground := by
  cases made with
  | printable lower upper =>
      refine feed_plain safe ground confined ?_ part
      rintro rfl
      exact absurd lower (by decide)
  | control member =>
      refine feed_plain safe ground confined ?_ part
      rintro rfl
      exact absurd member (by decide)
  | escape member => exact feed_escape safe ground confined member part
  | sequence whole member =>
      exact feed_sequence safe ground confined whole member part

theorem feed_pieces (safe : term.Safe) (ground : term.state = .ground)
    (confined : Confined start term) {pieces : List (List UInt8)}
    (made : ∀ piece ∈ pieces, Piece piece) {read : List UInt8}
    (part : read <+: pieces.flatten) : Confined start (termFeed read term) := by
  induction pieces generalizing term read with
  | nil =>
      obtain rfl := List.prefix_nil.mp part
      exact confined
  | cons piece pieces ih =>
      have here := made piece List.mem_cons_self
      have first : piece <+: (piece :: pieces).flatten :=
        List.prefix_append piece pieces.flatten
      rcases List.prefix_or_prefix_of_prefix part first with inside | beyond
      · exact (feed_piece safe ground confined here inside).1
      · obtain ⟨more, rfl⟩ := beyond
        obtain ⟨whole, rests⟩ :=
          feed_piece safe ground confined here List.prefix_rfl
        rw [termFeed_append]
        exact ih (safe.termFeed piece) rests whole
          (fun other member => made other (List.mem_cons_of_mem piece member))
          ((List.prefix_append_right_inj piece).mp part)

end Stream

/-- The rows outside the scroll region stay as they are at every byte of the
stream. -/
theorem region_confines (c r : Int) (calls : List TermCall) {before : Term}
    (reached : before = runCalls calls (termReset c r initial))
    (ground : before.state = .ground)
    (above : before.scrollTop ≤ before.cursorRow)
    (below : before.cursorRow ≤ before.scrollBottom)
    {pieces : List (List UInt8)} (made : ∀ piece ∈ pieces, Piece piece)
    {read : List UInt8} (part : read <+: pieces.flatten) :
    Confined before (termFeed read before) := by
  have safe : before.Safe := reached ▸ (Term.Safe.fresh c r).runCalls calls
  have start : Confined before before :=
    ⟨rfl, rfl, above, below, fun _ _ _ => rfl⟩
  exact feed_pieces safe ground start made part

/-- `ESC M` at the top margin of `ESC [ 2 ; 3 r`, then a line feed. -/
theorem region_confines_reverse_index :
    let before := runCalls [.feed (csi [0x32, 0x3b, 0x33] 0x72)]
      (termReset 2 4 initial)
    Confined before (termFeed [0x1b, 0x4d, 0x0a] before) := by
  have made : ∀ piece ∈ ([[0x1b, 0x4d], [0x0a]] : List (List UInt8)),
      Piece piece := by
    intro piece member
    rcases List.mem_pair.mp member with rfl | rfl
    · exact .escape (by decide +kernel)
    · exact .control (by decide +kernel)
  exact region_confines 2 4 [.feed (csi [0x32, 0x3b, 0x33] 0x72)] rfl
    (by decide +kernel) (by decide +kernel) (by decide +kernel) made
    List.prefix_rfl

end Pspssh.Terminal
