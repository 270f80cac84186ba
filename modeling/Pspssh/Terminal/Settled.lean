import Pspssh.Terminal.Region

namespace Pspssh.Terminal

namespace Term

/-! Once a control sequence is over its parameters are never read again, so
that states which differ in nothing else behave alike. -/

/-- The state without the parameters that it has last read. -/
@[simps] def settled (term : Term) : Term :=
  { term with
    params := fun _ => 0, paramCount := 0, paramSeen := false,
    privateMarker := 0 }

@[simps] def withPen (term : Term) (pen : Pen) : Term :=
  { term with pen := pen }

theorem withPen_inj {term : Term} {first second : Pen} :
    term.withPen first = term.withPen second ↔ first = second :=
  ⟨fun same => congrArg pen same, fun same => congrArg term.withPen same⟩

/-- What the next byte can depend on. -/
def relevant (term : Term) : Term :=
  if term.state = .inCsi then term else term.settled

@[simp] theorem settled_settled (term : Term) :
    term.settled.settled = term.settled := rfl

@[simp] theorem settled_withGrid (term : Term) (grid : Int → Int → Cell) :
    (term.withGrid grid).settled = term.settled.withGrid grid := rfl

theorem relevant_of_ne {term : Term} (outside : term.state ≠ .inCsi) :
    term.relevant = term.settled :=
  if_neg outside

theorem relevant_of_settled_eq {left right : Term}
    (same : left.settled = right.settled) (outside : left.state ≠ .inCsi) :
    left.relevant = right.relevant := by
  have states : left.settled.state = right.settled.state := by rw [same]
  rw [relevant_of_ne outside, relevant_of_ne (states ▸ outside), same]

theorem relevant_withState {left right : Term}
    (same : left.settled = right.settled) {state : ParserState}
    (outside : state ≠ .inCsi) :
    { left with state := state }.relevant =
      { right with state := state }.relevant := by
  have moved : { left.settled with state := state } =
      { right.settled with state := state } := by rw [same]
  exact relevant_of_settled_eq moved outside

/-- An operation that commutes with forgetting the parameters does the same to
a state that has forgotten them. -/
theorem settled_congr {operation : Term → Term}
    (commutes : ∀ {term : Term}, term.Safe →
      (operation term).settled = operation term.settled)
    {term : Term} (safe : term.Safe) (forgotten : term.settled.Safe) :
    (operation term).settled = (operation term.settled).settled :=
  (commutes safe).trans (commutes forgotten).symm

theorem relevant_relevant (term : Term) :
    term.relevant.relevant = term.relevant := by
  by_cases reading : term.state = .inCsi
  · have same : term.relevant = term := if_pos reading
    rw [same, same]
  · rw [relevant_of_ne reading]
    exact if_neg reading

theorem Safe.settled {term : Term} (safe : term.Safe) : term.settled.Safe :=
  { safe with
    paramCount_le := Nat.zero_le _
    params_le := fun _ => Nat.zero_le _ }

theorem Safe.relevant {term : Term} (safe : term.Safe) : term.relevant.Safe := by
  unfold Term.relevant
  split
  · exact safe
  · exact safe.settled

section Operations

variable {term : Term}

/-! ## What reads no parameters -/

theorem settled_scrollRegionUp (safe : term.Safe) {lines : Int}
    (forward : 0 ≤ lines) :
    (term.scrollRegionUp lines).settled =
      term.settled.scrollRegionUp lines := by
  rw [scrollRegionUp_eq safe.scrollable forward,
    scrollRegionUp_eq safe.settled.scrollable forward]
  rfl

theorem settled_scrollRegionDown (safe : term.Safe) {lines : Int}
    (forward : 0 ≤ lines) :
    (term.scrollRegionDown lines).settled =
      term.settled.scrollRegionDown lines := by
  rw [scrollRegionDown_eq safe.scrollable forward,
    scrollRegionDown_eq safe.settled.scrollable forward]
  rfl

theorem settled_eraseInDisplay (safe : term.Safe) (mode : Nat) :
    (term.eraseInDisplay mode).settled = term.settled.eraseInDisplay mode := by
  rw [eraseInDisplay_eq safe.toGeometry,
    eraseInDisplay_eq safe.settled.toGeometry]
  rfl

theorem settled_eraseInLine (safe : term.Safe) (mode : Nat) :
    (term.eraseInLine mode).settled = term.settled.eraseInLine mode := by
  rw [eraseInLine_eq safe.toGeometry, eraseInLine_eq safe.settled.toGeometry]
  rfl

theorem settled_eraseChars (safe : term.Safe) (count : Int) :
    (term.eraseChars count).settled = term.settled.eraseChars count := by
  rw [eraseChars_eq safe.toGeometry, eraseChars_eq safe.settled.toGeometry]
  rfl

theorem settled_deleteChars (safe : term.Safe) {count : Int}
    (forward : 0 ≤ count) :
    (term.deleteChars count).settled = term.settled.deleteChars count := by
  rw [deleteChars_eq safe.toGeometry forward,
    deleteChars_eq safe.settled.toGeometry forward]
  rfl

theorem settled_insertChars (safe : term.Safe) {count : Int}
    (forward : 0 ≤ count) :
    (term.insertChars count).settled = term.settled.insertChars count := by
  rw [insertChars_eq safe.toGeometry forward,
    insertChars_eq safe.settled.toGeometry forward]
  rfl

theorem settled_lineFeed (safe : term.Safe) :
    term.lineFeed.settled = term.settled.lineFeed := by
  have scrolled := settled_scrollRegionUp safe (by decide : (0 : Int) ≤ 1)
  unfold lineFeed
  simp only [settled_cursorRow, settled_scrollBottom, settled_rows]
  split
  · exact scrolled
  split
  · rfl
  · rfl

theorem settled_newline (safe : term.Safe) :
    { term with cursorCol := 0 }.lineFeed.settled =
      { term.settled with cursorCol := 0 }.lineFeed :=
  settled_lineFeed safe.returned

theorem settled_wrap (safe : term.Safe) :
    term.wrap.settled = term.settled.wrap := by
  unfold wrap
  simp only [settled_cursorCol, settled_cols]
  split
  · exact settled_newline safe
  · rfl

theorem settled_putChar (safe : term.Safe) (ch : UInt8) :
    (term.putChar ch).settled = term.settled.putChar ch := by
  have inside : InGrid term.wrap.cursorRow term.wrap.cursorCol :=
    safe.wrap.inGrid (wrap_cursorCol_lt safe.scrollable safe.cols_pos)
  have wrapped := settled_wrap safe
  rw [putChar_eq ch inside, putChar_eq ch (by rw [← wrapped]; exact inside),
    ← wrapped]
  rfl

theorem settled_reverseIndex (safe : term.Safe) :
    term.reverseIndex.settled = term.settled.reverseIndex := by
  have scrolled := settled_scrollRegionDown safe (by decide : (0 : Int) ≤ 1)
  unfold reverseIndex
  simp only [settled_cursorRow, settled_scrollTop]
  split
  · exact scrolled
  split
  · rfl
  · rfl

theorem settled_tab (safe : term.Safe) :
    term.tab.settled = term.settled.tab := by
  unfold tab
  refine (Data.whileLoop_related (fun left right : Term =>
    right = left.settled ∧ left.Safe) ?_ ?_ ⟨rfl, safe⟩).1.symm
  · rintro left right ⟨rfl, _⟩
    rfl
  · rintro left right ⟨rfl, safe⟩ _
    exact ⟨(settled_putChar safe 0x20).symm,
      safe.putChar (by decide) (by decide)⟩

theorem settled_termReset (c r : Int) :
    (termReset c r term).settled = termReset c r term.settled := by
  rw [termReset_eq, termReset_eq]
  rfl

end Operations

/-! ## What a command reads of its parameters -/

/-- The commands other than SGR read the first two parameters. -/
structure SameParams (left right : Term) : Prop where
  settled : left.settled = right.settled
  first : left.paramAt 0 1 = right.paramAt 0 1
  second : ∀ fallback, left.paramAt 1 fallback = right.paramAt 1 fallback
  firstOrZero : left.paramOrZero 0 = right.paramOrZero 0
  several : left.paramCount > 1 ↔ right.paramCount > 1

theorem ofUInt8_inj {first second : UInt8}
    (same : Char.ofUInt8 first = Char.ofUInt8 second) : first = second := by
  have values : first.toUInt32 = second.toUInt32 := congrArg Char.val same
  have numbers := congrArg UInt32.toNat values
  rw [UInt8.toNat_toUInt32, UInt8.toNat_toUInt32] at numbers
  exact UInt8.toNat_inj.mp numbers

theorem split_of_settled_eq {left right : Term}
    (same : left.settled = right.settled) :
    ∃ params count seen marker, left =
      { right with
        params := params, paramCount := count, paramSeen := seen
        privateMarker := marker } := by
  refine ⟨left.params, left.paramCount, left.paramSeen, left.privateMarker, ?_⟩
  calc
    left = { left.settled with
        params := left.params, paramCount := left.paramCount
        paramSeen := left.paramSeen, privateMarker := left.privateMarker } := rfl
    _ = _ := by
      rw [same]
      rfl

theorem dispatchCsi_settled {left right : Term} (leftSafe : left.Safe)
    (rightSafe : right.Safe) (same : SameParams left right) {final : UInt8}
    (other : final ≠ 0x6d) :
    (left.dispatchCsi final).settled = (right.dispatchCsi final).settled := by
  obtain ⟨settled, first, second, firstOrZero, several⟩ := same
  have forward : 0 ≤ right.paramAt 0 1 :=
    (Int.zero_le_ofNat 1).trans (right.paramAt_ge 0 (Int.le_refl 1))
  obtain ⟨params, count, seen, marker, rfl⟩ := split_of_settled_eq settled
  unfold dispatchCsi
  simp only [first, second, firstOrZero]
  split
  -- the ten cursor movements
  iterate 10 rfl
  · exact (settled_eraseInDisplay leftSafe _).trans
      (settled_eraseInDisplay rightSafe _).symm
  · exact (settled_eraseInLine leftSafe _).trans
      (settled_eraseInLine rightSafe _).symm
  · rw [insertLines_eq leftSafe.toGeometry, insertLines_eq rightSafe.toGeometry,
      first]
    rfl
  · rw [deleteLines_eq leftSafe.toGeometry, deleteLines_eq rightSafe.toGeometry,
      first]
    rfl
  · exact (settled_deleteChars leftSafe forward).trans
      (settled_deleteChars rightSafe forward).symm
  · exact (settled_insertChars leftSafe forward).trans
      (settled_insertChars rightSafe forward).symm
  · exact (settled_scrollRegionUp leftSafe forward).trans
      (settled_scrollRegionUp rightSafe forward).symm
  · exact (settled_scrollRegionDown leftSafe forward).trans
      (settled_scrollRegionDown rightSafe forward).symm
  · exact (settled_eraseChars leftSafe _).trans
      (settled_eraseChars rightSafe _).symm
  · rename_i letter
    exact absurd (ofUInt8_inj (letter.trans rfl)) other
  · unfold setScrollRegion
    simp only [first, second, several]
    generalize (if right.paramCount > 1 then _ else _) = bottom
    split
    · rfl
    · rfl
  · rfl
  · rfl
  · rfl

/-! ## The parser -/

section Parser

variable {term : Term}

theorem settled_feedGround (safe : term.Safe) (ch : UInt8) :
    (term.feedGround ch).settled = term.settled.feedGround ch := by
  have fed := settled_lineFeed safe
  have tabbed := settled_tab safe
  have written := settled_putChar safe ch
  unfold feedGround
  split
  · rfl
  split
  · exact fed
  split
  · rfl
  split
  · rw [settled_cursorCol]
    split
    · rfl
    · rfl
  split
  · exact tabbed
  split
  · rfl
  split
  · exact written
  · rfl

theorem feedGround_outside (safe : term.Safe) (ground : term.state = .ground)
    (ch : UInt8) : (term.feedGround ch).state ≠ .inCsi := by
  by_cases escape : ch = 0x1b
  · rw [feedGround, if_pos escape]
    exact fun same => nomatch same
  · rw [feedGround_state safe escape, ground]
    decide

theorem relevant_feedSawEsc (safe : term.Safe) (ch : UInt8) :
    (term.feedSawEsc ch).relevant = (term.settled.feedSawEsc ch).relevant := by
  have reversed := settled_congr settled_reverseIndex safe safe.settled
  have fed := settled_congr settled_lineFeed safe safe.settled
  have nextLine := settled_congr settled_newline safe safe.settled
  have restarted : (termReset term.cols term.rows term).settled =
      (termReset term.cols term.rows term.settled).settled := by
    rw [settled_termReset, settled_termReset, settled_settled]
  unfold feedSawEsc
  split
  · rfl
  iterate 5 exact relevant_withState rfl (by decide)
  · exact relevant_withState reversed (by decide)
  · exact relevant_withState fed (by decide)
  · exact relevant_withState nextLine (by decide)
  · exact relevant_of_settled_eq restarted fun same => nomatch same
  · exact relevant_withState rfl (by decide)

theorem relevant_feedByte (safe : term.Safe) (ch : UInt8) :
    (term.feedByte ch).relevant = (term.relevant.feedByte ch).relevant := by
  by_cases reading : term.state = .inCsi
  · have same : term.relevant = term := if_pos reading
    rw [same]
  rw [relevant_of_ne reading]
  cases state : term.state with
  | ground =>
      rw [feedByte_ground ch state, feedByte_ground ch (by exact state)]
      exact relevant_of_settled_eq
        (settled_congr (fun safe => settled_feedGround safe ch) safe
          safe.settled)
        (feedGround_outside safe state ch)
  | sawEsc =>
      rw [feedByte_sawEsc ch state, feedByte_sawEsc ch (by exact state)]
      exact relevant_feedSawEsc safe ch
  | inCsi => exact absurd state reading
  | inOsc =>
      rw [feedByte_inOsc ch state, feedByte_inOsc ch (by exact state)]
      unfold feedInOsc
      split
      · exact relevant_withState rfl (by decide)
      split
      · exact relevant_withState rfl (by decide)
      · exact relevant_of_settled_eq rfl reading
  | sawOscEsc =>
      rw [feedByte_sawOscEsc ch state, feedByte_sawOscEsc ch (by exact state)]
      refine relevant_of_settled_eq rfl ?_
      change (if ch = 0x5c then ParserState.ground else .inOsc) ≠ .inCsi
      split
      · decide
      · decide
  | skipOne =>
      rw [feedByte_skipOne ch state, feedByte_skipOne ch (by exact state)]
      exact relevant_withState rfl (by decide)

theorem relevant_termFeed (safe : term.Safe) (data : List UInt8) :
    (termFeed data term).relevant = (termFeed data term.relevant).relevant :=
  Data.foldl_normal relevant Safe relevant_relevant (fun _ safe => safe.relevant)
    (fun _ ch safe => safe.feedByte ch)
    (fun _ ch safe => relevant_feedByte safe ch) safe data

theorem relevant_run (safe : term.Safe) (call : TermCall) :
    (call.run term).relevant = (call.run term.relevant).relevant := by
  cases call with
  | reset c r =>
      refine relevant_of_settled_eq ?_ fun same => nomatch same
      change (termReset c r term).settled = (termReset c r term.relevant).settled
      rw [settled_termReset, settled_termReset]
      unfold relevant
      split
      · rfl
      · rfl
  | feed data => exact relevant_termFeed safe data
  | takeBell =>
      by_cases reading : term.state = .inCsi
      · have same : term.relevant = term := if_pos reading
        rw [same]
      · rw [relevant_of_ne reading]
        exact relevant_of_settled_eq rfl reading

theorem relevant_runCalls (safe : term.Safe) (calls : List TermCall) :
    (runCalls calls term).relevant =
      (runCalls calls term.relevant).relevant :=
  Data.foldl_normal relevant Safe relevant_relevant (fun _ safe => safe.relevant)
    (fun _ call safe => safe.run call)
    (fun _ call safe => relevant_run safe call) safe calls

theorem shown_relevant (term : Term) : shown term.relevant = shown term := by
  unfold relevant
  split
  · rfl
  · rfl

end Parser

/-- Outside of a control sequence, states that differ in the parameters only
change the same now and after all that may be called and fed. -/
theorem shown_of_settled_eq {left right : Term} (leftSafe : left.Safe)
    (rightSafe : right.Safe) (outside : left.state ≠ .inCsi)
    (same : left.settled = right.settled) (calls : List TermCall) :
    shown (runCalls calls left) = shown (runCalls calls right) := by
  have alike := relevant_of_settled_eq same outside
  rw [← shown_relevant, relevant_runCalls leftSafe, alike,
    ← relevant_runCalls rightSafe, shown_relevant]

end Term

end Pspssh.Terminal
