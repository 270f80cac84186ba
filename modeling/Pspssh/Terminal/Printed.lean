import Pspssh.Data.Text
import Pspssh.Terminal.Cleared
import Pspssh.Terminal.Settled

namespace Pspssh.Terminal

open Pspssh.Data

/-! Which bytes of a stream are written to the screen. -/

def IsPrintable (ch : UInt8) : Prop :=
  0x20 ≤ ch ∧ ch ≠ 0x7f

instance : DecidablePred IsPrintable := fun _ =>
  inferInstanceAs (Decidable (_ ∧ _))

namespace Term

def Prints (ch : UInt8) (term : Term) : Prop :=
  term.state = .ground ∧ IsPrintable ch

instance (ch : UInt8) (term : Term) : Decidable (term.Prints ch) :=
  inferInstanceAs (Decidable (_ ∧ _))

end Term

def printed : List UInt8 → Term → List UInt8
  | [], _ => []
  | ch :: rest, term =>
      if term.Prints ch then ch :: printed rest (term.feedByte ch)
      else printed rest (term.feedByte ch)

namespace Term

variable {term : Term}

theorem feedByte_prints {ch : UInt8} (prints : term.Prints ch) :
    term.feedByte ch = term.putChar ch := by
  obtain ⟨ground, lower, upper⟩ := prints
  rw [feedByte_ground ch ground, feedGround_printable lower upper]

/-! ## What the other bytes do to the cells -/

/-- Every cell is a copy of one there was, or holds a space. -/
def DrawnFrom (old new : Term) : Prop :=
  ∀ r c, (∃ row col, new.grid r c = old.grid row col) ∨ (new.grid r c).ch = 0x20

namespace DrawnFrom

variable {old : Term}

theorem refl (term : Term) : DrawnFrom term term :=
  fun r c => .inl ⟨r, c, rfl⟩

theorem of_grid {new other : Term} (drawn : DrawnFrom old new)
    (same : other.grid = new.grid) : DrawnFrom old other := by
  intro r c
  rw [same]
  exact drawn r c

theorem trans {new newest : Term} (first : DrawnFrom old new)
    (second : DrawnFrom new newest) : DrawnFrom old newest := by
  intro r c
  rcases second r c with ⟨row, col, copied⟩ | space
  · rw [copied]
    exact first row col
  · exact .inr space

theorem of_clears {new : Term} {cleared : Int → Int → Prop}
    (clears : Clears old new cleared) : DrawnFrom old new := by
  intro r c
  by_cases inside : cleared r c
  · rw [(clears r c).1 inside]
    exact .inr rfl
  · exact .inl ((clears r c).2 inside)

theorem scrollRegionUp (safe : term.Safe) {lines : Int} (forward : 0 ≤ lines) :
    DrawnFrom term (term.scrollRegionUp lines) :=
  of_clears (scrollRegionUp_clears safe forward)

theorem scrollRegionDown (safe : term.Safe) {lines : Int}
    (forward : 0 ≤ lines) : DrawnFrom term (term.scrollRegionDown lines) :=
  of_clears (scrollRegionDown_clears safe forward)

theorem lineFeed (safe : term.Safe) : DrawnFrom term term.lineFeed := by
  unfold Term.lineFeed
  split
  · exact scrollRegionUp safe (by decide)
  split
  · exact (refl term).of_grid rfl
  · exact refl term

theorem newline (safe : term.Safe) :
    DrawnFrom term { term with cursorCol := 0 }.lineFeed :=
  lineFeed safe.returned

theorem reverseIndex (safe : term.Safe) : DrawnFrom term term.reverseIndex := by
  unfold Term.reverseIndex
  split
  · exact scrollRegionDown safe (by decide)
  split
  · exact (refl term).of_grid rfl
  · exact refl term

theorem space (safe : term.Safe) : DrawnFrom term (term.putChar 0x20) := by
  have wrapped : DrawnFrom term term.wrap := by
    unfold Term.wrap
    split
    · exact newline safe
    · exact refl term
  have before := wrap_cursorCol_lt safe.scrollable safe.cols_pos
  rw [putChar_eq 0x20 (safe.wrap.inGrid before)]
  refine wrapped.trans fun r c => ?_
  change (∃ row col, (if r = term.wrap.cursorRow ∧ c = term.wrap.cursorCol then
      term.wrap.inked 0x20 else term.wrap.grid r c) = _) ∨
    (if r = term.wrap.cursorRow ∧ c = term.wrap.cursorCol then
      term.wrap.inked 0x20 else term.wrap.grid r c).ch = 0x20
  split
  · exact .inr rfl
  · exact .inl ⟨r, c, rfl⟩

theorem tab (safe : term.Safe) : DrawnFrom term term.tab :=
  (tab_invariant (fun state => state.Safe ∧ DrawnFrom term state)
    ⟨safe, refl term⟩ fun _ reached _ =>
      ⟨reached.1.putChar (by decide) (by decide),
        reached.2.trans (space reached.1)⟩).1.2

theorem termReset (c r : Int) : DrawnFrom term (termReset c r term) := by
  intro row col
  have cells : (Terminal.termReset c r term).grid row col = defaultBlank ∨
      (Terminal.termReset c r term).grid row col = term.grid row col := by
    rw [termReset_eq]
    exact ite_eq_or_eq _ _ _
  rcases cells with blank | kept
  · rw [blank]
    exact .inr rfl
  · exact .inl ⟨row, col, kept⟩

theorem dispatchCsi (safe : term.Safe) (final : UInt8) :
    DrawnFrom term (term.dispatchCsi final) :=
  of_clears (dispatchCsi_clears safe final)

theorem feedGround (safe : term.Safe) {ch : UInt8} (hidden : ¬ IsPrintable ch) :
    DrawnFrom term (term.feedGround ch) := by
  unfold Term.feedGround
  split
  · exact (refl term).of_grid rfl
  split
  · exact lineFeed safe
  split
  · exact (refl term).of_grid rfl
  split
  · split
    · exact (refl term).of_grid rfl
    · exact refl term
  split
  · exact tab safe
  split
  · exact (refl term).of_grid rfl
  · rw [if_neg (show ¬ (0x20 ≤ ch ∧ ch ≠ 0x7f) from hidden)]
    exact refl term

theorem feedSawEsc (safe : term.Safe) (ch : UInt8) :
    DrawnFrom term (term.feedSawEsc ch) := by
  unfold Term.feedSawEsc
  split
  iterate 6 exact (refl term).of_grid rfl
  · exact (reverseIndex safe).of_grid rfl
  · exact (lineFeed safe).of_grid rfl
  · exact (newline safe).of_grid rfl
  · exact termReset term.cols term.rows
  · exact (refl term).of_grid rfl

theorem feedInCsi (safe : term.Safe) (ch : UInt8) :
    DrawnFrom term (term.feedInCsi ch) := by
  unfold Term.feedInCsi
  split
  · rw [feedDigit_eq _ safe.paramCount_le]
    exact (refl term).of_grid rfl
  split
  · exact (refl term).of_grid rfl
  split
  · exact (refl term).of_grid rfl
  split
  · exact (dispatchCsi safe ch).of_grid rfl
  · exact refl term

/-- A byte that is not printed leaves no trace of itself in a cell. -/
theorem feedByte (safe : term.Safe) {ch : UInt8} (hidden : ¬ term.Prints ch) :
    DrawnFrom term (term.feedByte ch) := by
  cases state : term.state with
  | ground =>
      rw [feedByte_ground ch state]
      exact feedGround safe fun printable => hidden ⟨state, printable⟩
  | sawEsc =>
      rw [feedByte_sawEsc ch state]
      exact feedSawEsc safe ch
  | inCsi =>
      rw [feedByte_inCsi ch state]
      exact feedInCsi safe ch
  | inOsc =>
      rw [feedByte_inOsc ch state]
      unfold feedInOsc
      split
      · exact (refl term).of_grid rfl
      split
      · exact (refl term).of_grid rfl
      · exact refl term
  | sawOscEsc =>
      rw [feedByte_sawOscEsc ch state]
      exact (refl term).of_grid rfl
  | skipOne =>
      rw [feedByte_skipOne ch state]
      exact (refl term).of_grid rfl

end DrawnFrom

/-- A stream of which nothing is printed leaves only what was on the screen,
and spaces. -/
theorem drawnFrom_of_unprinted (safe : term.Safe) {data : List UInt8}
    (nothing : printed data term = []) :
    DrawnFrom term (termFeed data term) := by
  induction data generalizing term with
  | nil => exact .refl term
  | cons ch rest ih =>
      rw [printed] at nothing
      split at nothing
      · contradiction
      · rename_i hidden
        exact (DrawnFrom.feedByte safe hidden).trans
          (ih (safe.feedByte ch) nothing)

end Term

/-! ## Parts of a stream -/

section Parts

variable {term : Term}

theorem printed_append (first second : List UInt8) :
    printed (first ++ second) term =
      printed first term ++ printed second (termFeed first term) := by
  induction first generalizing term with
  | nil => rfl
  | cons ch rest ih =>
      rw [List.cons_append, printed, printed, ih]
      split
      · rfl
      · rfl

theorem printed_cons_of_outside (ch : UInt8) (rest : List UInt8)
    (outside : term.state ≠ .ground) :
    printed (ch :: rest) term = printed rest (term.feedByte ch) := by
  rw [printed, if_neg fun prints => outside prints.1]

theorem printed_cons_of_hidden {ch : UInt8} (rest : List UInt8)
    (hidden : ¬ IsPrintable ch) :
    printed (ch :: rest) term = printed rest (term.feedByte ch) := by
  rw [printed, if_neg fun prints => hidden prints.2]

theorem printed_cons_ne_nil {ch : UInt8} (rest : List UInt8)
    (prints : term.Prints ch) : printed (ch :: rest) term ≠ [] := by
  rw [printed, if_pos prints]
  exact List.cons_ne_nil ch _

theorem printed_ne_nil {text : List UInt8} (some_byte : text ≠ [])
    (ground : term.state = .ground) (printable : ∀ ch ∈ text, IsPrintable ch) :
    printed text term ≠ [] := by
  obtain ⟨ch, rest, rfl⟩ := List.exists_cons_of_ne_nil some_byte
  exact printed_cons_ne_nil rest ⟨ground, printable ch List.mem_cons_self⟩

theorem printed_plain (safe : term.Safe) (ground : term.state = .ground)
    {text : List UInt8} (plain : 0x1b ∉ text) :
    printed text term = text.filter (IsPrintable ·) ∧
      (termFeed text term).state = .ground := by
  induction text generalizing term with
  | nil => exact ⟨rfl, ground⟩
  | cons ch rest ih =>
      have here : ch ≠ 0x1b := by
        rintro rfl
        exact plain List.mem_cons_self
      have next : (term.feedByte ch).state = .ground := by
        rw [Term.feedByte_ground ch ground, Term.feedGround_state safe here,
          ground]
      obtain ⟨others, stays⟩ := ih (safe.feedByte ch) next fun member =>
        plain (List.mem_cons_of_mem ch member)
      refine ⟨?_, stays⟩
      rw [printed, others]
      by_cases printable : IsPrintable ch
      · rw [if_pos ⟨ground, printable⟩, List.filter_cons_of_pos (by simpa)]
      · rw [if_neg fun prints => printable prints.2,
          List.filter_cons_of_neg (by simpa)]

end Parts

end Pspssh.Terminal
