import Pspssh.Card.Replace

namespace Pspssh.Card

open Pspssh.Data
open Pspssh.Data.Program

/-! Power lost while a file is being written, and what the next start reads. -/

/-- What reading a file that holds `content` may give: all of it, or a refusal
if there is no room for it. -/
def Answers (max : Nat) (content : Option (List UInt8)) : FileRead → Prop
  | .whole bytes => content = some bytes
  | .missing =>
      content = none ∨ ∃ bytes, content = some bytes ∧ max ≤ bytes.length
  | .unreadable => ∃ bytes, content = some bytes ∧ max ≤ bytes.length

/-- The content that a read finds, from what is under the file's own name and
under the temporary one: the latter counts if there is no other, unless there
is no room for it. -/
def Holds (max : Nat) (own spare content : Option (List UInt8)) : Prop :=
  match own with
  | some bytes => content = some bytes
  | none =>
      content = spare ∨
        content = none ∧ ∃ bytes, spare = some bytes ∧ max ≤ bytes.length

def MemoryCard.restart (card : MemoryCard) : MemoryCard :=
  { card with opened := [] }

/-- The write of `text` stops after the calls in `trace`. -/
def CutWrite (path : Path) (text : List UInt8) (card cut : MemoryCard)
    (trace : Trace) : Prop :=
  Passes (Traced (Step noFaults)) (cardfileWrite path text) (card, [])
    (cut, trace)

def CutRead (path : Path) (max : Nat) (card cut : MemoryCard) : Prop :=
  Passes (Step noFaults) (cardfileRead path max) card.restart cut

def Recovers (path : Path) (max : Nat) (cut : MemoryCard)
    (read : Reported FileRead) (after : MemoryCard) : Prop :=
  ∃ tried, Relation.ReflTransGen (CutRead path max) cut tried ∧
    Returns (Step noFaults) (cardfileRead path max) tried.restart read after

/-- The states in which the application may be about to write the file, when
every interrupted write is of the kind `allowed`. -/
inductive Session (path : Path) (max : Nat)
    (allowed : MemoryCard → List UInt8 → Trace → Prop) (first : MemoryCard) :
    MemoryCard → Prop where
  | start : Session path max allowed first first
  | wrote {card after : MemoryCard} {text : List UInt8}
      {reported : Reported Int} (session : Session path max allowed first card)
      (write : Returns (Step noFaults) (cardfileWrite path text) card reported
        after) :
      Session path max allowed first after
  | recovered {card cut after : MemoryCard} {text : List UInt8} {trace : Trace}
      {read : Reported FileRead} (session : Session path max allowed first card)
      (write : CutWrite path text card cut trace)
      (kind : allowed card text trace)
      (recovery : Recovers path max cut read after) :
      Session path max allowed first after

/-- There is a file already, or the cut does not fall between the opening of the
temporary file and its last byte. -/
def HasCopy (path : Path) (card : MemoryCard) (text : List UInt8)
    (trace : Trace) : Prop :=
  card.files path ≠ none ∨ trace = [] ∨ text.length ≤ written trace

section Recovery

variable {max : Nat} {own spare content : Option (List UInt8)}
  {read : FileRead}

theorem Holds.answers (holds : Holds max own spare content)
    (said : ReadOr noFaults max own spare read) :
    Answers max content read := by
  rw [said.eq_readResult]
  cases own with
  | some bytes =>
      obtain rfl : content = some bytes := holds
      rw [readResult]
      split_ifs with short
      · exact rfl
      · exact ⟨bytes, rfl, Nat.not_lt.mp short⟩
  | none =>
      cases spare with
      | none =>
          obtain rfl | ⟨rfl, _⟩ := holds
          · exact .inl rfl
          · exact .inl rfl
      | some bytes =>
          rw [readResult]
          split_ifs with short
          · obtain rfl | ⟨_, other, same, large⟩ := holds
            · exact rfl
            · cases same
              exact absurd short (Nat.not_lt.mpr large)
          · obtain rfl | ⟨rfl, _⟩ := holds
            · exact .inr ⟨bytes, rfl, Nat.not_lt.mp short⟩
            · exact .inl rfl

/-- Wherever the write stops, the card holds what it held or the new text,
unless the only copy is half written. -/
theorem Writing.holds {text : List UInt8} {trace : Trace}
    {own' spare' : Option (List UInt8)}
    (stage : Writing noFaults text own spare own' spare' trace)
    (settled : Holds max own spare own)
    (kind : own ≠ none ∨ trace = [] ∨ text.length ≤ written trace) :
    Holds max own' spare' own ∨ Holds max own' spare' (some text) := by
  cases stage with
  | untouched => exact .inl settled
  | filling begun start count =>
      cases own with
      | some bytes => exact .inl rfl
      | none =>
          rcases kind with present | fresh | all
          · exact absurd rfl present
          · exact absurd fresh begun
          · rw [count] at all
            rw [start.eq_of_length_le all]
            exact .inr (.inl rfl)
  | abandoned _ faulty => exact absurd faulty not_faulty
  | filled _ holds =>
      rcases holds with rfl | rfl
      · cases own' with
        | some bytes => exact .inl rfl
        | none => exact .inr (.inl rfl)
      · exact .inr (.inl rfl)
  | moved => exact .inr rfl

variable {path : Path} {files after : Path → Option (List UInt8)}

theorem Holds.kept
    (holds : Holds max (files path) (files (tempName path)) content)
    (read : after = files ∨ Recovered path max files after) :
    Holds max (after path) (after (tempName path)) content := by
  rcases read with rfl | ⟨absent, bytes, found, short, rfl⟩
  · exact holds
  · rw [absent, found] at holds
    rw [Function.update_self]
    rcases holds with same | ⟨_, other, same, large⟩
    · exact same
    · obtain rfl : bytes = other := Option.some.inj same
      exact absurd short (Nat.not_lt.mpr large)

theorem ReadOr.settled
    (said : ReadOr noFaults max (files path) (files (tempName path)) read)
    (kept : after = files ∨ Recovered path max files after)
    (placed : (∃ bytes, read = .whole bytes) →
      after path ≠ none ∨ Faulty noFaults) :
    Holds max (after path) (after (tempName path)) (after path) := by
  rcases kept with rfl | ⟨_, bytes, _, _, rfl⟩
  · have result := said.eq_readResult
    cases own : after path with
    | some bytes => exact rfl
    | none =>
        rw [own] at result
        cases found : after (tempName path) with
        | none => exact .inl rfl
        | some bytes =>
            rw [found] at result
            by_cases short : bytes.length < max
            · have whole := result.trans (if_pos short)
              rcases placed ⟨bytes, whole⟩ with present | faulty
              · exact absurd own present
              · exact absurd faulty not_faulty
            · exact .inr ⟨rfl, bytes, rfl, Nat.not_lt.mp short⟩
  · rw [Function.update_self]
    exact rfl

theorem Holds.readResult {text : List UInt8} (short : text.length < max)
    (holds : Holds max own spare (some text)) :
    readResult max own spare = .whole text := by
  cases own with
  | some bytes =>
      cases holds
      exact if_pos short
  | none =>
      obtain rfl | ⟨never, _⟩ := holds
      · exact if_pos short
      · cases never

end Recovery

/-! ## Text that is there -/

section Held

variable {path : Path} {max : Nat} {text old : List UInt8} {card : MemoryCard}

/-- A text that is held is read, and under the file's own name from then on. -/
theorem cardfileRead_held (short : text.length < max)
    (holds : Holds max (card.files path) (card.files (tempName path)) (some text)) :
    Ensures (Step noFaults)
      (fun cut =>
        Holds max (cut.files path) (cut.files (tempName path)) (some text))
      (fun read after => read.value = .whole text ∧ after.files path = some text)
      (cardfileRead path max) card := by
  refine (cardfileRead_run path (Nat.zero_lt_of_lt short) card).mono
    (fun cut kept => holds.kept kept) fun read after kept ended => ?_
  obtain ⟨said, placed⟩ := ended
  have held := holds.kept kept
  have whole := said.eq_readResult.trans (holds.readResult short)
  refine ⟨whole, ?_⟩
  cases own : after.files path with
  | some bytes =>
      rw [own] at held
      exact held.symm
  | none =>
      rcases placed ⟨text, whole⟩ with present | faulty
      · exact absurd own present
      · exact absurd faulty not_faulty

/-- Over a file that is there a write leaves the old text or the new one, at
every point, and the new one under the file's own name at its end. -/
theorem cardfileWrite_held (distinct : tempName path ≠ path)
    (own : card.files path = some old) :
    Ensures (Step noFaults)
      (fun cut =>
        Holds max (cut.files path) (cut.files (tempName path)) (some old) ∨
          Holds max (cut.files path) (cut.files (tempName path)) (some text))
      (fun reported after => reported.value = 0 ∧ after.files path = some text)
      (cardfileWrite path text) card := by
  have settled : Holds max (card.files path) (card.files (tempName path))
      (card.files path) := by
    rw [own]
    exact rfl
  have present : card.files path ≠ none := by
    rw [own]
    exact Option.some_ne_none old
  refine Ensures.untraced [] ((cardfileWrite_ensures distinct card text).mono
    (fun cut stage => ?_) fun reported cut _ ended => ?_)
  · rw [← own]
    exact stage.1.holds settled (.inl present)
  · generalize reported.value = value, cut.1.files = files at ended ⊢
    cases ended with
    | moved own _ => exact ⟨rfl, own⟩
    | refused faulty => exact absurd faulty not_faulty
    | failed faulty _ _ => exact absurd faulty not_faulty
    | stranded faulty _ _ => exact absurd faulty not_faulty

end Held

/-! ## Runs -/

section Runs

variable {path : Path} {max : Nat}

def Settled (path : Path) (max : Nat) (card : MemoryCard) : Prop :=
  Holds max (card.files path) (card.files (tempName path)) (card.files path)

theorem cutReads_hold (room : 0 < max) {cut tried : MemoryCard}
    {content : Option (List UInt8)}
    (holds : Holds max (cut.files path) (cut.files (tempName path)) content)
    (reads : Relation.ReflTransGen (CutRead path max) cut tried) :
    Holds max (tried.files path) (tried.files (tempName path)) content := by
  induction reads with
  | refl => exact holds
  | tail _ read ih =>
      exact ih.kept ((cardfileRead_run path room (MemoryCard.restart _)).passes read)

theorem recovers_answers (room : 0 < max) {cut after : MemoryCard}
    {read : Reported FileRead} {content : Option (List UInt8)}
    (holds : Holds max (cut.files path) (cut.files (tempName path)) content)
    (recovery : Recovers path max cut read after) :
    Answers max content read.value := by
  obtain ⟨tried, reads, run⟩ := recovery
  have said := ((cardfileRead_run path room tried.restart).returns run).1
  exact (cutReads_hold room holds reads).answers said

theorem recovers_settled (room : 0 < max) {cut after : MemoryCard}
    {read : Reported FileRead} (recovery : Recovers path max cut read after) :
    Settled path max after := by
  obtain ⟨tried, _, run⟩ := recovery
  obtain ⟨said, placed⟩ :=
    (cardfileRead_run path room tried.restart).returns run
  have kept := (cardfileRead_run path room tried.restart).passes run.passes
  exact said.settled kept placed

theorem cutWrite_holds (distinct : tempName path ≠ path)
    {card cut : MemoryCard} {text : List UInt8} {trace : Trace}
    (settled : Settled path max card)
    (write : CutWrite path text card cut trace)
    (kind : HasCopy path card text trace) :
    Holds max (cut.files path) (cut.files (tempName path)) (card.files path) ∨
      Holds max (cut.files path) (cut.files (tempName path)) (some text) :=
  ((cardfileWrite_ensures distinct card text).passes write).1.holds settled kind

theorem wrote_settled (distinct : tempName path ≠ path)
    {card after : MemoryCard} {text : List UInt8} {reported : Reported Int}
    (write : Returns (Step noFaults) (cardfileWrite path text) card reported
      after) : Settled path max after := by
  obtain ⟨_, own⟩ | ⟨_, faulty⟩ :=
    (cardfileWrite_run distinct card text).returns write
  · rw [Settled, own]
    exact rfl
  · exact absurd faulty not_faulty

theorem Session.settled (room : 0 < max) (distinct : tempName path ≠ path)
    {allowed : MemoryCard → List UInt8 → Trace → Prop}
    {first card : MemoryCard}
    (earlier : first.files path = none → first.files (tempName path) = none)
    (session : Session path max allowed first card) :
    Settled path max card := by
  induction session with
  | start =>
      unfold Settled
      cases own : first.files path with
      | some bytes => exact rfl
      | none => exact .inl (earlier own).symm
  | wrote _ write _ => exact wrote_settled distinct write
  | recovered _ _ _ recovery _ => exact recovers_settled room recovery

/-- As long as every write that is cut off leaves a whole copy, the next read to
complete gives the content from before that write or the new one. -/
theorem cut_write_recovers (room : 0 < max) (distinct : tempName path ≠ path)
    {first card cut : MemoryCard} {text : List UInt8} {trace : Trace}
    (earlier : first.files path = none → first.files (tempName path) = none)
    (session : Session path max (HasCopy path) first card)
    (write : CutWrite path text card cut trace)
    (kind : HasCopy path card text trace) :
    (∃ read after, Recovers path max cut read after) ∧
      ∀ read after, Recovers path max cut read after →
        Answers max (card.files path) read.value ∨
          Answers max (some text) read.value := by
  have settled := session.settled room distinct earlier
  constructor
  · have reads : Ensures (Step noFaults) _ _ _ _ :=
      cardfileRead_run path room cut.restart
    obtain ⟨read, after, run⟩ := reads.exists_returns
    exact ⟨read, after, cut, .refl, run⟩
  · intro read after recovery
    exact (cutWrite_holds distinct settled write kind).imp
      (fun holds => recovers_answers room holds recovery)
      (fun holds => recovers_answers room holds recovery)

theorem cutWrite_opened (card : MemoryCard) (text : List UInt8) :
    CutWrite path text card
      ((card.put (tempName path) (some [])).hand (tempName path))
      [⟨.openFile (tempName path) .write, some card.opened.length⟩] := by
  have made : Traced (Step noFaults) (card, [])
      (.openFile (tempName path) .write) (some card.opened.length)
      ((card.put (tempName path) (some [])).hand (tempName path),
        [⟨.openFile (tempName path) .write, some card.opened.length⟩]) :=
    ⟨.inl ⟨rfl, rfl⟩, rfl⟩
  exact .call made .here

end Runs

theorem cut_write_recovers_opened :
    let path := ascii "pspssh.hosts"
    let first := blankCard.put path (some [0x41])
    let cut := (first.put (tempName path) (some [])).hand (tempName path)
    (∃ read after, Recovers path 16 cut read after) ∧
      ∀ read after, Recovers path 16 cut read after →
        Answers 16 (first.files path) read.value ∨
          Answers 16 (some [0x42, 0x43]) read.value := by
  intro path first cut
  have distinct : tempName path ≠ path := by decide
  have present : first.files path ≠ none := by simp [first]
  exact cut_write_recovers (by decide) distinct
    (fun absent => absurd absent present) .start
    (cutWrite_opened first [0x42, 0x43]) (.inl present)

/-- The very first save, cut short, is read back as an empty file. -/
theorem first_save_cut_short :
    ¬ ∀ cut trace read after,
      CutWrite (ascii "pspssh.hosts") [0x41, 0x42] blankCard cut trace →
      Recovers (ascii "pspssh.hosts") 16 cut read after →
        Answers 16 none read.value ∨ Answers 16 (some [0x41, 0x42]) read.value := by
  intro recovers
  let path := ascii "pspssh.hosts"
  let cut := (blankCard.put (tempName path) (some [])).hand (tempName path)
  have write : CutWrite path [0x41, 0x42] blankCard cut _ :=
    cutWrite_opened blankCard [0x41, 0x42]
  have own : cut.files path = none := by
    have distinct : path ≠ tempName path := by decide
    simp [cut, blankCard, distinct]
  have spare : cut.files (tempName path) = some [] := by simp [cut]
  have holds : Holds 16 (cut.files path) (cut.files (tempName path)) (some []) := by
    rw [own, spare]
    exact .inl rfl
  have reads : Ensures (Step noFaults) _ _ _ _ :=
    cardfileRead_run path (show 0 < 16 by decide) cut.restart
  obtain ⟨read, after, run⟩ := reads.exists_returns
  have recovery : Recovers path 16 cut read after := ⟨cut, .refl, run⟩
  have answer := recovers_answers (by decide) holds recovery
  have shown := recovers cut _ read after write recovery
  generalize read.value = value at answer shown
  cases value with
  | whole bytes =>
      obtain rfl : [] = bytes := Option.some.inj answer
      revert shown
      simp [Answers]
  | missing => simp [Answers] at answer
  | unreadable => simp [Answers] at answer

end Pspssh.Card
