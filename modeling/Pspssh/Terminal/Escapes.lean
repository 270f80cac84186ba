import Pspssh.Terminal.Printed

namespace Pspssh.Terminal

open Pspssh.Data

/-! Escape sequences that cut another one short, and those that the parser
does not know. -/

section Sequences

variable {term : Term}

theorem printable_of_le {ch : UInt8} (lower : 0x20 ≤ ch) (upper : ch ≤ 0x7e) :
    IsPrintable ch := by
  refine ⟨lower, ?_⟩
  rintro rfl
  exact absurd upper (by decide)

theorem IsBody.printable {ch : UInt8} (body : IsBody ch) : IsPrintable ch :=
  printable_of_le body.1 (UInt8.le_trans body.2 (by decide))

theorem IsFinal.printable {ch : UInt8} (last : IsFinal ch) : IsPrintable ch :=
  printable_of_le (UInt8.le_trans (by decide) last.1) last.2

theorem printed_escaped (ground : term.state = .ground) (ch : UInt8)
    (rest : List UInt8) :
    printed (0x1b :: ch :: rest) term = printed rest (term.escaped ch) := by
  have hidden : ¬ IsPrintable 0x1b := by decide
  have escaped : (term.feedByte 0x1b).state ≠ .ground := by
    rw [Term.feedByte_escape ground]
    exact fun same => nomatch same
  rw [printed_cons_of_hidden _ hidden, printed_cons_of_outside ch rest escaped,
    Term.feedByte_escape ground, Term.feedByte_sawEsc ch rfl]
  rfl

theorem printed_body (few : term.paramCount ≤ maxParams)
    (reading : term.state = .inCsi) {body : List UInt8}
    (whole : ∀ ch ∈ body, IsBody ch) : printed body term = [] := by
  induction body generalizing term with
  | nil => rfl
  | cons ch rest ih =>
      obtain ⟨marker, fed⟩ :=
        Term.feedByte_body few reading (whole ch List.mem_cons_self)
      have outside : term.state ≠ .ground := by
        rw [reading]
        decide
      rw [printed_cons_of_outside ch rest outside, fed]
      exact ih (Term.take_count_le few ch) rfl fun other member =>
        whole other (List.mem_cons_of_mem ch member)

theorem printed_csi (ground : term.state = .ground) {body : List UInt8}
    (whole : ∀ ch ∈ body, IsBody ch) (final : UInt8) :
    printed (csi body final) term = [] := by
  have opened : term.escaped 0x5b = term.collecting .none 0 := rfl
  have few : (term.collecting .none 0).paramCount ≤ maxParams := Nat.zero_le _
  have reading : (term.collecting .none 0).state = .inCsi := rfl
  obtain ⟨marker, read⟩ := Term.termFeed_body few reading whole
  change printed (0x1b :: 0x5b :: (body ++ [final])) term = []
  rw [printed_escaped ground, opened, printed_append,
    printed_body few reading whole, read]
  rfl

/-- What is left of a sequence that has lost its beginning is printed. -/
theorem printed_rest (ground : term.state = .ground) {between : List UInt8}
    (inner : ∀ ch ∈ between, IsPrintable ch) {final : UInt8}
    (last : IsPrintable final) : printed (between ++ [final]) term ≠ [] := by
  refine printed_ne_nil (List.append_ne_nil_of_right_ne_nil between
    (List.cons_ne_nil final [])) ground fun ch member => ?_
  rcases List.mem_append.mp member with inside | here
  · exact inner ch inside
  · exact List.mem_singleton.mp here ▸ last

end Sequences

/-- A sequence starts the parser anew exactly if no other one is being read. -/
theorem sequence_restarts_iff {before : Term}
    (inString : before.state ≠ .inOsc) (atEscape : before.state ≠ .sawOscEsc)
    (skipping : before.state ≠ .skipOne) {body : List UInt8}
    (whole : ∀ ch ∈ body, IsBody ch) {final : UInt8} (last : IsFinal final) :
    ((termFeed (csi body final) before).state = .ground ∧
        printed (csi body final) before = []) ↔
      before.state = .ground := by
  cases state : before.state with
  | ground =>
      obtain ⟨marker, fed⟩ := Term.termFeed_csi state whole last
      exact iff_of_true ⟨by rw [fed], printed_csi state whole final⟩ rfl
  | sawEsc =>
      have stopped : before.feedByte 0x1b = { before with state := .ground } := by
        rw [Term.feedByte_sawEsc _ state]
        rfl
      have read : printed (csi body final) before =
          printed (0x5b :: (body ++ [final]))
            { before with state := .ground } := by
        rw [← stopped]
        exact printed_cons_of_hidden _ (by decide)
      refine iff_of_false (fun kept => ?_) fun same => nomatch same
      exact printed_cons_ne_nil _ ⟨rfl, by decide⟩ (read.symm.trans kept.2)
  | inCsi =>
      have stays : before.feedByte 0x1b = before := by
        rw [Term.feedByte_inCsi _ state]
        rfl
      have ended : before.feedByte 0x5b = { before with state := .ground } := by
        rw [Term.feedByte_inCsi _ state]
        rfl
      have reading : before.state ≠ .ground := by
        rw [state]
        decide
      have read : printed (csi body final) before =
          printed (body ++ [final]) { before with state := .ground } := by
        change printed (0x1b :: 0x5b :: (body ++ [final])) before = _
        rw [printed_cons_of_outside _ _ reading, stays,
          printed_cons_of_outside _ _ reading, ended]
      refine iff_of_false (fun kept => ?_) fun same => nomatch same
      exact printed_rest rfl (fun ch member => (whole ch member).printable)
        last.printable (read.symm.trans kept.2)
  | inOsc => exact absurd state inString
  | sawOscEsc => exact absurd state atEscape
  | skipOne => exact absurd state skipping

theorem sequence_restarts_fresh :
    let before := runCalls [] (termReset 80 24 initial)
    (termFeed (csi [0x31] 0x6d) before).state = .ground ∧
      printed (csi [0x31] 0x6d) before = [] := by
  intro before
  have fresh : before.state = .ground := rfl
  exact (sequence_restarts_iff (fresh.trans_ne (by decide))
    (fresh.trans_ne (by decide)) (fresh.trans_ne (by decide))
    (by decide +kernel) (by decide)).mpr fresh

/-- `ESC [ 3`, cut short, and then `ESC [ 1 m`: the last two bytes are
printed. -/
theorem cut_sequence_prints :
    let before := runCalls [.feed [0x1b, 0x5b, 0x33]] (termReset 80 24 initial)
    before.state = .inCsi ∧ (∀ ch ∈ ([0x31] : List UInt8), IsBody ch) ∧
      IsFinal 0x6d ∧ printed (csi [0x31] 0x6d) before = [0x31, 0x6d] :=
  ⟨by decide +kernel, by decide +kernel, by decide, by decide +kernel⟩

/-! ## Sequences that the parser does not know -/

/-- An escape sequence or a control string. -/
inductive Escape where
  | sequence (between : List UInt8) (final : UInt8)
  | string (introducer : UInt8) (content : List UInt8)

namespace Escape

def bytes : Escape → List UInt8
  | sequence between final => 0x1b :: (between ++ [final])
  | string introducer content =>
      0x1b :: introducer :: (content ++ [0x1b, 0x5c])

def WellFormed : Escape → Prop
  | sequence between final =>
      (∀ ch ∈ between, 0x20 ≤ ch ∧ ch ≤ 0x2f) ∧
        (0x30 ≤ final ∧ final ≤ 0x7e) ∧
        (between = [] → final ∉ ascii "[]PX^_")
  | string introducer content =>
      introducer ∈ ascii "PX^_" ∧ 0x1b ∉ content

instance : DecidablePred WellFormed
  | sequence _ _ => inferInstanceAs (Decidable (_ ∧ _ ∧ _))
  | string _ _ => inferInstanceAs (Decidable (_ ∧ _))

/-- What the parser reads without printing: a sequence of one byte, the byte
behind one of `( ) # %`, and the introducer of a control string. -/
def Swallowed : Escape → Prop
  | sequence between _ => between = [] ∨ ∃ ch ∈ ascii "()#%", between = [ch]
  | string _ content => ∀ ch ∈ content, ¬ IsPrintable ch

end Escape

theorem mem_ascii {ch : UInt8} {text : String}
    (member : Char.ofUInt8 ch ∈ text.toList) : ch ∈ ascii text := by
  refine List.mem_map.mpr ⟨Char.ofUInt8 ch, member, ?_⟩
  apply UInt8.toNat_inj.mp
  change ch.toUInt32.toNat % 256 = ch.toNat
  simp

theorem designates_cases {ch : UInt8} (designates : ch ∈ ascii "()#%") :
    ch = 0x28 ∨ ch = 0x29 ∨ ch = 0x23 ∨ ch = 0x25 := by
  have listed : ch ∈ ([0x28, 0x29, 0x23, 0x25] : List UInt8) := designates
  simpa using listed

theorem continues_cases {ch : UInt8} (continues : ch ∈ ascii "[]()#%") :
    (ch = 0x5b ∨ ch = 0x5d) ∨ ch ∈ ascii "()#%" := by
  have listed : ch ∈ [0x5b, 0x5d] ++ ascii "()#%" := continues
  simpa using List.mem_append.mp listed

theorem final_ends {final : UInt8} (lower : 0x30 ≤ final)
    (other : final ∉ ascii "[]PX^_") : final ∉ ascii "[]()#%" := by
  intro continues
  rcases continues_cases continues with (rfl | rfl) | designates
  · exact other (by decide +kernel)
  · exact other (by decide +kernel)
  · rcases designates_cases designates with rfl | rfl | rfl | rfl <;>
      exact absurd lower (by decide)

theorem intermediate_ends {ch : UInt8} (upper : ch ≤ 0x2f)
    (other : ch ∉ ascii "()#%") : ch ∉ ascii "[]()#%" := by
  intro continues
  rcases continues_cases continues with (rfl | rfl) | designates
  · exact absurd upper (by decide)
  · exact absurd upper (by decide)
  · exact other designates

namespace Term

variable {term : Term}

theorem feedSawEsc_skip {ch : UInt8} (designates : ch ∈ ascii "()#%") :
    term.feedSawEsc ch = { term with state := .skipOne } := by
  rcases designates_cases designates with rfl | rfl | rfl | rfl <;> rfl

theorem feedSawEsc_ground {ch : UInt8} (ends : ch ∉ ascii "[]()#%") :
    (term.feedSawEsc ch).state = .ground := by
  have other {known : Char} (listed : known ∈ "[]()#%".toList) :
      Char.ofUInt8 ch ≠ known := by
    rintro rfl
    exact ends (mem_ascii listed)
  unfold feedSawEsc
  split
  all_goals
    first
      | rfl
      | exact absurd ‹_› (other (by decide))

end Term

section Unknown

variable {term : Term}

theorem escaped_ground {ch : UInt8} (ends : ch ∉ ascii "[]()#%") :
    (term.escaped ch).state = .ground :=
  Term.feedSawEsc_ground ends

theorem termFeed_skipped (ground : term.state = .ground) {ch : UInt8}
    (designates : ch ∈ ascii "()#%") (second : UInt8) (rest : List UInt8) :
    termFeed (0x1b :: ch :: second :: rest) term =
      termFeed rest { term with state := .ground } := by
  have skips : term.escaped ch = { term with state := .skipOne } :=
    Term.feedSawEsc_skip designates
  rw [Term.termFeed_escaped ground, skips]
  rfl

theorem printed_skipped (ground : term.state = .ground) {ch : UInt8}
    (designates : ch ∈ ascii "()#%") (second : UInt8) (rest : List UInt8) :
    printed (0x1b :: ch :: second :: rest) term =
      printed rest { term with state := .ground } := by
  have skips : term.escaped ch = { term with state := .skipOne } :=
    Term.feedSawEsc_skip designates
  rw [printed_escaped ground, skips]
  exact printed_cons_of_outside second rest fun same => nomatch same

theorem unprinted_iff_of_rest {data between : List UInt8} {final : UInt8}
    {swallowed : Prop} (rest : ∀ ch ∈ between, 0x20 ≤ ch ∧ ch ≤ 0x2f)
    (last : 0x30 ≤ final ∧ final ≤ 0x7e) {next : Term}
    (ground : next.state = .ground)
    (read : printed data term = printed (between ++ [final]) next)
    (kept : ¬ swallowed) :
    ((termFeed data term).state = .ground ∧ printed data term = []) ↔
      swallowed := by
  refine iff_of_false (fun unprinted => ?_) kept
  refine printed_rest ground (fun ch member => ?_)
    (printable_of_le (UInt8.le_trans (by decide) last.1) last.2)
    (read.symm.trans unprinted.2)
  exact printable_of_le (rest ch member).1
    (UInt8.le_trans (rest ch member).2 (by decide))

theorem sequence_unprinted_iff (ground : term.state = .ground)
    {between : List UInt8} {final : UInt8}
    (wellFormed : (Escape.sequence between final).WellFormed) :
    ((termFeed (Escape.sequence between final).bytes term).state = .ground ∧
        printed (Escape.sequence between final).bytes term = []) ↔
      (Escape.sequence between final).Swallowed := by
  obtain ⟨intermediate, last, introduces⟩ := wellFormed
  cases between with
  | nil =>
      have ends := final_ends last.1 (introduces rfl)
      refine iff_of_true ⟨?_, printed_escaped ground final []⟩ (.inl rfl)
      exact (congrArg Term.state (Term.termFeed_escaped ground final [])).trans
        (escaped_ground ends)
  | cons ch rest =>
      by_cases designates : ch ∈ ascii "()#%"
      · cases rest with
        | nil =>
            refine iff_of_true ⟨?_, printed_skipped ground designates final []⟩
              (.inr ⟨ch, designates, rfl⟩)
            exact congrArg Term.state
              (termFeed_skipped ground designates final [])
        | cons second rest =>
            apply unprinted_iff_of_rest
              (fun other member => intermediate other (by simp [member])) last
              rfl (printed_skipped ground designates second (rest ++ [final]))
            rintro (none | ⟨one, -, same⟩)
            · exact List.cons_ne_nil _ _ none
            · simp at same
      · have ends := intermediate_ends (intermediate ch List.mem_cons_self).2
          designates
        apply unprinted_iff_of_rest
          (fun other member => intermediate other (by simp [member])) last
          (escaped_ground ends) (printed_escaped ground ch (rest ++ [final]))
        rintro (none | ⟨one, member, same⟩)
        · exact List.cons_ne_nil _ _ none
        · obtain ⟨rfl, -⟩ := List.cons.inj same
          exact designates member

/-- The content of a control string is taken for plain text. -/
theorem string_unprinted_iff (safe : term.Safe) (ground : term.state = .ground)
    {introducer : UInt8} {content : List UInt8}
    (wellFormed : (Escape.string introducer content).WellFormed) :
    ((termFeed (Escape.string introducer content).bytes term).state = .ground ∧
        printed (Escape.string introducer content).bytes term = []) ↔
      (Escape.string introducer content).Swallowed := by
  obtain ⟨introduces, plain⟩ := wellFormed
  have ends : introducer ∉ ascii "[]()#%" := by
    intro continues
    have listed : introducer ∈ ([0x50, 0x58, 0x5e, 0x5f] : List UInt8) :=
      introduces
    have other : ∀ ch ∈ ([0x50, 0x58, 0x5e, 0x5f] : List UInt8),
        ch ∉ ascii "[]()#%" := by decide +kernel
    exact other introducer listed continues
  have started : (term.escaped introducer).Safe :=
    (safe.withState .sawEsc).feedSawEsc introducer
  obtain ⟨text, stays⟩ := printed_plain started (escaped_ground ends) plain
  have state : (termFeed (Escape.string introducer content).bytes term).state =
      .ground := by
    change (termFeed (0x1b :: introducer :: (content ++ [0x1b, 0x5c])) term).state
      = _
    rw [Term.termFeed_escaped ground, termFeed_append,
      Term.termFeed_escaped stays]
    rfl
  have printed_content : printed (Escape.string introducer content).bytes term =
      content.filter (IsPrintable ·) := by
    change printed (0x1b :: introducer :: (content ++ [0x1b, 0x5c])) term = _
    rw [printed_escaped ground, printed_append, text, printed_escaped stays,
      printed, List.append_nil]
  rw [printed_content]
  simp [state, Escape.Swallowed, List.filter_eq_nil_iff]

end Unknown

/-- A sequence or control string that the parser does not know is read without
printing any of it exactly if it is a single byte, or one byte behind
`( ) # %`, or a string with nothing printable in it. -/
theorem escapes_unprinted_iff (c r : Int) (calls : List TermCall)
    (ground : (runCalls calls (termReset c r initial)).state = .ground)
    {escape : Escape} (wellFormed : escape.WellFormed) :
    let before := runCalls calls (termReset c r initial)
    ((termFeed escape.bytes before).state = .ground ∧
        printed escape.bytes before = []) ↔ escape.Swallowed := by
  intro before
  cases escape with
  | sequence between final => exact sequence_unprinted_iff ground wellFormed
  | string introducer content =>
      exact string_unprinted_iff ((Term.Safe.fresh c r).runCalls calls) ground
        wellFormed

/-- `ESC ( B`. -/
theorem escapes_unprinted_charset :
    let before := runCalls [] (termReset 30 4 initial)
    let charset := Escape.sequence [0x28] 0x42
    (termFeed charset.bytes before).state = .ground ∧
      printed charset.bytes before = [] := by
  intro before charset
  have wellFormed : charset.WellFormed := by decide +kernel
  exact (escapes_unprinted_iff 30 4 [] rfl wellFormed).mpr
    (.inr ⟨0x28, by decide +kernel, rfl⟩)

/-- `ESC SP F` prints `F`, and `ESC P x ESC \` prints `x`. -/
theorem announcer_prints :
    let before := runCalls [] (termReset 30 4 initial)
    let announcer := Escape.sequence [0x20] 0x46
    let control := Escape.string 0x50 [0x78]
    before.state = .ground ∧
      announcer.WellFormed ∧ printed announcer.bytes before = [0x46] ∧
      control.WellFormed ∧ printed control.bytes before = [0x78] :=
  ⟨rfl, by decide +kernel, by decide +kernel, by decide +kernel,
    by decide +kernel⟩

end Pspssh.Terminal
