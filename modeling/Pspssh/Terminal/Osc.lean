import Pspssh.Terminal.Sequence

namespace Pspssh.Terminal

/-! Strings after `ESC ]`, which run until BEL or `ESC \`. -/

/-- How many ESC a text ends with. -/
def escapesAtEnd (text : List UInt8) : Nat :=
  (text.reverse.takeWhile (· = 0x1b)).length

theorem escapesAtEnd_escape (text : List UInt8) :
    escapesAtEnd (text ++ [0x1b]) = escapesAtEnd text + 1 := by
  simp [escapesAtEnd]

theorem escapesAtEnd_other (text : List UInt8) {ch : UInt8}
    (other : ch ≠ 0x1b) : escapesAtEnd (text ++ [ch]) = 0 := by
  simp [escapesAtEnd, other]

theorem ends_in_escape {text : List UInt8} (some_escape : escapesAtEnd text ≠ 0) :
    ∃ front, text = front ++ [0x1b] := by
  cases text using List.reverseRecOn with
  | nil => exact absurd rfl some_escape
  | append_singleton front last =>
      by_cases escape : last = 0x1b
      · exact ⟨front, by rw [escape]⟩
      · exact absurd (escapesAtEnd_other front escape) some_escape

/-- The first of two ESC is taken for one that may end the string, and the
second for one inside it. -/
def oscState (text : List UInt8) : ParserState :=
  if Even (escapesAtEnd text) then .inOsc else .sawOscEsc

theorem oscState_eq_iff {text : List UInt8} :
    oscState text = .inOsc ↔ Even (escapesAtEnd text) := by
  simp [oscState]

theorem oscState_escape (text : List UInt8) :
    oscState (text ++ [0x1b]) =
      if oscState text = .inOsc then .sawOscEsc else .inOsc := by
  unfold oscState
  rw [escapesAtEnd_escape]
  by_cases even : Even (escapesAtEnd text)
  · simp [even, Nat.even_add_one]
  · simp [even, Nat.even_add_one]

theorem oscState_other (text : List UInt8) {ch : UInt8} (other : ch ≠ 0x1b) :
    oscState (text ++ [ch]) = .inOsc := by
  simp [oscState, escapesAtEnd_other text other]

namespace Term

theorem termFeed_osc {term : Term} (reading : term.state = .inOsc)
    {text : List UInt8} (noBell : 0x07 ∉ text)
    (noEnd : ¬ [0x1b, 0x5c] <:+: text) :
    termFeed text term = { term with state := oscState text } := by
  induction text using List.reverseRecOn with
  | nil =>
      unfold oscState
      simp [escapesAtEnd, termFeed, ← reading]
  | append_singleton text ch ih =>
      have bell : ch ≠ 0x07 := by
        rintro rfl
        exact noBell (List.mem_append_right text List.mem_cons_self)
      have earlier := ih (fun member => noBell (List.mem_append_left _ member))
        fun inside => noEnd (inside.trans (List.prefix_append text [ch]).isInfix)
      rw [termFeed_append, earlier]
      change ({ term with state := oscState text } : Term).feedByte ch = _
      by_cases even : Even (escapesAtEnd text)
      · have inside : oscState text = .inOsc := if_pos even
        rw [feedByte_inOsc ch (by exact inside), feedInOsc, if_neg bell]
        by_cases escape : ch = 0x1b
        · rw [if_pos escape, escape, oscState_escape, if_pos inside]
        · rw [if_neg escape, oscState_other text escape, inside]
      · have escaped : oscState text = .sawOscEsc := if_neg even
        have notEnd : ch ≠ 0x5c := by
          rintro rfl
          obtain ⟨front, rfl⟩ := ends_in_escape fun zero =>
            even (zero ▸ Even.zero)
          exact noEnd ⟨front, [], by simp⟩
        have back : oscState (text ++ [ch]) = .inOsc := by
          by_cases escape : ch = 0x1b
          · rw [escape, oscState_escape, escaped]
            rfl
          · exact oscState_other text escape
        rw [feedByte_sawOscEsc ch (by exact escaped), feedSawOscEsc,
          if_neg notEnd, back]

theorem termFeed_osc_end {term : Term} (text : List UInt8)
    {ending : List UInt8}
    (terminator : ending = [0x07] ∨ ending = [0x1b, 0x5c]) :
    termFeed ending { term with state := oscState text } =
      { term with
        state := if oscState text = .inOsc then .ground else .inOsc } := by
  have states : oscState text = .inOsc ∨ oscState text = .sawOscEsc :=
    ite_eq_or_eq _ _ _
  rcases states with state | state
  · rw [state]
    rcases terminator with rfl | rfl
    · rfl
    · rfl
  · rw [state]
    rcases terminator with rfl | rfl
    · rfl
    · rfl

end Term

/-- A string ends at its terminator exactly if the number of ESC in front of
the terminator is even. -/
theorem osc_ends_iff {before : Term} (ground : before.state = .ground)
    {text ending : List UInt8} (noBell : 0x07 ∉ text)
    (noEnd : ¬ [0x1b, 0x5c] <:+: text)
    (terminator : ending = [0x07] ∨ ending = [0x1b, 0x5c]) :
    let after := termFeed ([0x1b, 0x5d] ++ text ++ ending) before
    (after.state = .ground ∧ after.display = before.display) ↔
      Even (escapesAtEnd text) := by
  intro after
  have opened : termFeed [0x1b, 0x5d] before =
      { before with state := .inOsc } :=
    Term.termFeed_escaped ground 0x5d []
  have fed : after =
      { before with
        state := if oscState text = .inOsc then .ground else .inOsc } := by
    change termFeed ([0x1b, 0x5d] ++ text ++ ending) before = _
    rw [termFeed_append, termFeed_append, opened,
      Term.termFeed_osc (by rfl) noBell noEnd]
    exact Term.termFeed_osc_end text terminator
  rw [← oscState_eq_iff, fed]
  by_cases inside : oscState text = .inOsc
  · rw [if_pos inside]
    exact iff_of_true ⟨rfl, rfl⟩ inside
  · rw [if_neg inside]
    exact iff_of_false (fun ended => nomatch ended.1) inside

/-- A title with an ESC inside it. -/
theorem osc_ends_title :
    let before := runCalls [] (termReset 30 4 initial)
    let after := termFeed ([0x1b, 0x5d] ++ [0x30, 0x3b, 0x1b, 0x61] ++
      [0x1b, 0x5c]) before
    after.state = .ground ∧ after.display = before.display := by
  intro before
  have ground : before.state = .ground := rfl
  exact (osc_ends_iff ground (by decide) (by decide) (.inr rfl)).mpr
    (by decide +kernel)

/-- A title that ends in ESC swallows its BEL and what follows. -/
theorem bell_after_escape_is_lost :
    let before := runCalls [] (termReset 30 4 initial)
    let text : List UInt8 := [0x30, 0x3b, 0x1b]
    before.state = .ground ∧ 0x07 ∉ text ∧ ¬ [0x1b, 0x5c] <:+: text ∧
      (termFeed ([0x1b, 0x5d] ++ text ++ [0x07]) before).state ≠ .ground :=
  ⟨rfl, by decide, by decide, by decide +kernel⟩

end Pspssh.Terminal
