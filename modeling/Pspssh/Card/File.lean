import Pspssh.Card.Io

namespace Pspssh.Card

open Pspssh.Data
open Pspssh.Data.Program

/-! Small files on the card, read whole and written through a second file. -/

/-- What a function gives back, and its error text, empty if nothing failed. -/
structure Reported (α : Type) where
  value : α
  lastError : String

/-- What reading a file gives: its length and content, -1 or -2. -/
inductive FileRead where
  | whole (content : List UInt8)
  | missing
  | unreadable

def cardfileError {α : Type} (reported : Reported α) : String :=
  if reported.lastError ≠ "" then reported.lastError else "no error"

def tempName (path : Path) : Path :=
  (path ++ ascii ".tmp").take 63

/-- The loop of `read_file`, with what it has read so far. -/
def readLoop (fd max : Nat) (total : List UInt8) : Io (Reported FileRead) := do
  match ← sceIoRead fd (max - total.length) with
  | none =>
      sceIoClose fd
      pure ⟨.unreadable, "the file could not be read"⟩
  | some data =>
      if _ : data.length = 0 then
        sceIoClose fd
        pure ⟨.whole total, ""⟩
      else if max ≤ (total ++ data).length then
        sceIoClose fd
        pure ⟨.unreadable, "the file is larger than it should ever be"⟩
      else readLoop fd max (total ++ data)
termination_by max - total.length
decreasing_by
  rw [List.length_append] at *
  omega

def readFile (path : Path) (max : Nat) : Io (Reported FileRead) := do
  match ← sceIoOpen path .read with
  | none => pure ⟨.missing, ""⟩
  | some fd => readLoop fd max []

def cardfileRead (path : Path) (max : Nat) : Io (Reported FileRead) := do
  let read ← readFile path max
  match read.value with
  | .missing =>
      let temp := tempName path
      let saved ← readFile temp max
      match saved.value with
      | .whole _ =>
          let _ ← sceIoRename temp path
          pure saved
      | _ => pure ⟨.missing, saved.lastError⟩
  | _ => pure read

def writeLoop (fd : Nat) (temp : Path) (text : List UInt8) : Io Bool := do
  if _ : text.length = 0 then pure true
  else
    let n ← sceIoWrite fd text
    if n ≤ 0 then
      sceIoClose fd
      let _ ← sceIoRemove temp
      pure false
    else writeLoop fd temp (text.drop n.toNat)
termination_by text.length
decreasing_by
  rw [List.length_drop]
  omega

/-- The end of `cardfile_write`: a rename cannot replace a file, so the old one
goes first. -/
def moveIntoPlace (fd : Nat) (temp path : Path) : Io (Reported Int) := do
  sceIoClose fd
  let _ ← sceIoRemove path
  let moved ← sceIoRename temp path
  if moved < 0 then
    pure ⟨-1, "the file was written but could not be moved into place"⟩
  else pure ⟨0, ""⟩

def cardfileWrite (path : Path) (text : List UInt8) : Io (Reported Int) := do
  let temp := tempName path
  match ← sceIoOpen temp .write with
  | none => pure ⟨-1, "the file could not be opened for writing"⟩
  | some fd =>
      if ← writeLoop fd temp text then moveIntoPlace fd temp path
      else pure ⟨-1, "the file could not be written"⟩

/-! ## Reading -/

def Faulty (faults : IoCall → Prop) : Prop :=
  ∃ call, faults call

theorem not_faulty : ¬ Faulty noFaults :=
  fun ⟨_, faulty⟩ => faulty

/-- What reading a file with room for `max` bytes may say of it. -/
def ReadBack (faults : IoCall → Prop) (max : Nat)
    (content : Option (List UInt8)) : FileRead → Prop
  | .whole bytes => content = some bytes ∧ bytes.length < max
  | .missing => content = none ∨ Faulty faults
  | .unreadable =>
      ∃ bytes, content = some bytes ∧ (max ≤ bytes.length ∨ Faulty faults)

/-- What `cardfile_read` gives of a file and the temporary one beside it when
every call works. -/
def readResult (max : Nat) (own spare : Option (List UInt8)) : FileRead :=
  match own with
  | some content => if content.length < max then .whole content else .unreadable
  | none =>
      match spare with
      | some content => if content.length < max then .whole content else .missing
      | none => .missing

section Reading

variable {faults : IoCall → Prop} {card : MemoryCard} {trace : Trace}

theorem prefix_append_of_drop {total data content : List UInt8}
    (part : total <+: content) (next : data <+: content.drop total.length) :
    total ++ data <+: content := by
  obtain ⟨rest, rfl⟩ := part
  rw [List.drop_left] at next
  exact (List.prefix_append_right_inj total).mpr next

def ReadFailed (calls : Trace) : Prop :=
  ∃ fd size, (⟨.read fd size, none⟩ : Event IoCall.Result) ∈ calls

inductive Told (max : Nat) (content : List UInt8) (calls : Trace) :
    FileRead → Prop where
  | whole (short : content.length < max) (worked : ¬ ReadFailed calls) :
      Told max content calls (.whole content)
  | unreadable (why : max ≤ content.length ∨ ReadFailed calls) :
      Told max content calls .unreadable

theorem readFailed_cons {event : Event IoCall.Result} {calls : Trace}
    (worked : ∀ fd size, event ≠ ⟨.read fd size, none⟩) :
    ReadFailed (event :: calls) ↔ ReadFailed calls := by
  simp [ReadFailed, fun fd size => (worked fd size).symm]

theorem Told.cons {max : Nat} {content : List UInt8} {calls : Trace}
    {read : FileRead} {event : Event IoCall.Result}
    (told : Told max content calls read)
    (worked : ∀ fd size, event ≠ ⟨.read fd size, none⟩) :
    Told max content (event :: calls) read := by
  cases told with
  | whole short quiet =>
      exact .whole short fun failed => quiet ((readFailed_cons worked).mp failed)
  | unreadable why =>
      exact .unreadable (why.imp_right (readFailed_cons worked).mpr)

theorem readLoop_told {max fd : Nat} {path : Path}
    {total content : List UInt8} {files : Path → Option (List UInt8)}
    (same : card.files = files)
    (has : card.Has fd ⟨path, total.length⟩ content) (part : total <+: content)
    (room : total.length < max) :
    Ensures (Traced (Step faults)) (fun cut => cut.1.files = files)
      (fun read cut => ∃ calls, cut.2 = trace ++ calls ∧
        Told max content calls read.value ∧
        (ReadFailed calls → Faulty faults))
      (readLoop fd max total) (card, trace) := by
  induction rest : max - total.length using Nat.strong_induction_on
    generalizing card trace total with
  | h size ih =>
      rw [readLoop]
      refine ensures_call same (exists_read has _) fun result after made => ?_
      obtain ⟨data, rfl, next, short, atEnd, rfl⟩ | ⟨faulty, rfl, rfl⟩ :=
        step_read has made
      · have more := prefix_append_of_drop part next
        have quiet : ¬ ReadFailed
            [⟨.read fd (max - total.length), some data⟩, ⟨.close fd, ()⟩] := by
          simp [ReadFailed]
        dsimp only
        split
        · rename_i empty
          refine ensures_call same exists_close fun result after made => ?_
          rw [step_close made]
          -- a read of nothing is the end of the file
          have ended : content.length ≤ total.length :=
            (atEnd (List.eq_nil_of_length_eq_zero empty)).resolve_left (by omega)
          have whole : total = content := part.eq_of_length_le ended
          refine ⟨same, _, List.append_assoc .., ?_, fun failed =>
            absurd failed quiet⟩
          rw [whole] at room ⊢
          exact .whole room (whole ▸ quiet)
        · split
          · rename_i full
            refine ensures_call same exists_close fun result after made => ?_
            rw [step_close made]
            exact ⟨same, _, List.append_assoc ..,
              .unreadable (.inl (full.trans more.length_le)),
              fun failed => absurd failed quiet⟩
          · rename_i some_data notFull
            have seeked := has.seek (total ++ data).length
            rw [← List.length_append]
            have smaller : max - (total ++ data).length < size := by
              rw [List.length_append]
              omega
            refine (ih _ smaller (MemoryCard.files_seek.trans same) seeked more
              (not_le.mp notFull) rfl).mono (fun _ kept => kept) ?_
            intro read cut _ ended
            obtain ⟨calls, traced, told, why⟩ := ended
            exact ⟨_ :: calls, traced.trans (List.append_assoc ..),
              told.cons (by simp), fun failed =>
                why ((readFailed_cons (by simp)).mp failed)⟩
      · refine ensures_call same exists_close fun result after made => ?_
        rw [step_close made]
        exact ⟨same, _, List.append_assoc ..,
          .unreadable (.inr ⟨fd, _, List.mem_cons_self⟩), fun _ => ⟨_, faulty⟩⟩

/-- What reading a file tells, and that it touches no file. -/
theorem readFile_told (path : Path) {max : Nat} (room : 0 < max) :
    Ensures (Traced (Step faults)) (fun cut => cut.1.files = card.files)
      (fun read cut => ∃ calls, cut.2 = trace ++ calls ∧
        (ReadFailed calls → Faulty faults) ∧
        ((∃ content, card.files path = some content ∧
            Told max content calls read.value) ∨
          (card.files path = none ∨ faults (.openFile path .read)) ∧
            read.value = .missing ∧ ¬ ReadFailed calls))
      (readFile path max) (card, trace) := by
  have same : card.files = card.files := rfl
  refine ensures_call same (exists_open path .read)
    fun result after made => ?_
  obtain ⟨content, found, rfl, rfl⟩ | ⟨absent, rfl, rfl⟩ := step_open_read made
  · refine (readLoop_told rfl (MemoryCard.has_hand found) List.nil_prefix
      room).mono (fun _ kept => kept) fun read cut _ ended => ?_
    obtain ⟨calls, traced, told, why⟩ := ended
    exact ⟨_ :: calls, traced.trans (List.append_assoc ..),
      fun failed => why ((readFailed_cons (by simp)).mp failed),
      .inl ⟨content, found, told.cons (by simp)⟩⟩
  · have quiet : ¬ ReadFailed
        [⟨.openFile path .read, (none : Option Nat)⟩] := by
      simp [ReadFailed]
    exact ⟨rfl, _, rfl, fun failed => absurd failed quiet,
      .inr ⟨absent, rfl, quiet⟩⟩

theorem readFile_ensures (path : Path) {max : Nat} (room : 0 < max) :
    Ensures (Traced (Step faults)) (fun cut => cut.1.files = card.files)
      (fun read _ => ReadBack faults max (card.files path) read.value)
      (readFile path max) (card, trace) := by
  refine (readFile_told path room).mono (fun _ same => same)
    fun read cut _ ended => ?_
  obtain ⟨calls, _, why, ⟨content, found, told⟩ | ⟨absent, missing, _⟩⟩ := ended
  · rw [found]
    generalize read.value = value at told ⊢
    cases told with
    | whole short _ => exact ⟨rfl, short⟩
    | unreadable cause => exact ⟨content, rfl, cause.imp_right why⟩
  · rw [missing]
    exact absent.imp_right fun faulty => ⟨_, faulty⟩

/-- The file under the temporary name, read whole, has been moved into place. -/
def Recovered (path : Path) (max : Nat)
    (before after : Path → Option (List UInt8)) : Prop :=
  before path = none ∧ ∃ content, before (tempName path) = some content ∧
    content.length < max ∧
      after = Function.update (Function.update before (tempName path) none) path
        (some content)

/-- What `cardfile_read` may say: that of the file, or of the temporary file
where there is none. -/
def ReadOr (faults : IoCall → Prop) (max : Nat)
    (content spare : Option (List UInt8)) (read : FileRead) : Prop :=
  ReadBack faults max content read ∧ read ≠ .missing ∨
    (content = none ∨ Faulty faults) ∧
      match read with
      | .whole bytes => spare = some bytes ∧ bytes.length < max
      | .missing => spare = none ∨ Faulty faults ∨
          ∃ bytes, spare = some bytes ∧ max ≤ bytes.length
      | .unreadable => False

theorem recover_ensures {path : Path} {max : Nat} {bytes : List UInt8}
    {lastError : String} {last : MemoryCard}
    (same : last.files = card.files)
    (absent : card.files path = none ∨ Faulty faults)
    (spare : card.files (tempName path) = some bytes ∧ bytes.length < max) :
    Ensures (Traced (Step faults))
      (fun cut => cut.1.files = card.files ∨
        Recovered path max card.files cut.1.files)
      (fun (read : Reported FileRead) cut =>
        ReadOr faults max (card.files path) (card.files (tempName path))
            read.value ∧
          ((∃ bytes, read.value = .whole bytes) →
            cut.1.files path ≠ none ∨ Faulty faults))
      (do
        let _ ← sceIoRename (tempName path) path
        pure ⟨.whole bytes, lastError⟩) (last, trace) := by
  refine ensures_call (.inl same) (exists_rename _ _)
    fun result after made => ?_
  obtain ⟨content, found, free, _, rfl⟩ | ⟨_, rfl, why⟩ := step_rename made
  · rw [same] at found free
    have short : content.length < max := by
      rw [Option.some.inj (found.symm.trans spare.1)]
      exact spare.2
    have moved : Recovered path max card.files
        ((last.put (tempName path) none).put path (some content)).files :=
      ⟨free, content, found, short, by
        rw [MemoryCard.files_put, MemoryCard.files_put, same]⟩
    refine ⟨.inr moved, .inr ⟨absent, spare⟩, fun _ => .inl ?_⟩
    rw [MemoryCard.files_put, Function.update_self]
    exact Option.some_ne_none content
  · refine ⟨.inl same, .inr ⟨absent, spare⟩, fun _ => ?_⟩
    rcases why with gone | present | faulty
    · rw [same, spare.1] at gone
      exact absurd gone (Option.some_ne_none bytes)
    · exact .inl present
    · exact .inr ⟨_, faulty⟩

theorem cardfileRead_ensures (path : Path) {max : Nat} (room : 0 < max) :
    Ensures (Traced (Step faults))
      (fun cut => cut.1.files = card.files ∨
        Recovered path max card.files cut.1.files)
      (fun read cut =>
        ReadOr faults max (card.files path) (card.files (tempName path))
            read.value ∧
          ((∃ bytes, read.value = .whole bytes) →
            cut.1.files path ≠ none ∨ Faulty faults))
      (cardfileRead path max) (card, trace) := by
  refine Ensures.bind ((readFile_ensures path room).mono
    (fun _ same => .inl same) fun read cut same direct => ?_)
  obtain ⟨middle, calls⟩ := cut
  obtain ⟨value, lastError⟩ := read
  have unmoved : middle.files = card.files := same
  cases value with
  | whole bytes =>
      refine ⟨.inl same, .inl ⟨direct, by simp⟩, fun _ => .inl ?_⟩
      rw [unmoved, direct.1]
      exact Option.some_ne_none bytes
  | unreadable => exact ⟨.inl same, .inl ⟨direct, by simp⟩, by simp⟩
  | missing =>
      dsimp only
      refine Ensures.bind ((readFile_ensures (tempName path) room).mono
        (fun cut same => .inl (same.trans unmoved)) fun saved cut same spare => ?_)
      obtain ⟨last, calls⟩ := cut
      obtain ⟨value, lastError⟩ := saved
      have still : last.files = card.files := same.trans unmoved
      rw [unmoved] at spare
      cases value with
      | whole bytes => exact recover_ensures still direct spare
      | missing =>
          exact ⟨.inl still, .inr ⟨direct, spare.imp_right .inl⟩, by simp⟩
      | unreadable =>
          obtain ⟨bytes, found, large | faulty⟩ := spare
          · exact ⟨.inl still, .inr ⟨direct, .inr (.inr ⟨bytes, found, large⟩)⟩,
              by simp⟩
          · exact ⟨.inl still, .inr ⟨direct, .inr (.inl faulty)⟩, by simp⟩

theorem cardfileRead_run (path : Path) {max : Nat} (room : 0 < max)
    (card : MemoryCard) :
    Ensures (Step faults)
      (fun cut => cut.files = card.files ∨
        Recovered path max card.files cut.files)
      (fun read cut =>
        ReadOr faults max (card.files path) (card.files (tempName path))
            read.value ∧
          ((∃ bytes, read.value = .whole bytes) →
            cut.files path ≠ none ∨ Faulty faults))
      (cardfileRead path max) card :=
  Ensures.untraced [] (cardfileRead_ensures path room)

theorem ReadOr.eq_readResult {max : Nat} {own spare : Option (List UInt8)}
    {read : FileRead} (said : ReadOr noFaults max own spare read) :
    read = readResult max own spare := by
  cases own with
  | some content =>
      obtain ⟨direct, notMissing⟩ | ⟨absent | faulty, _⟩ := said
      · cases read with
        | whole bytes =>
            obtain ⟨same, short⟩ := direct
            cases same
            exact (if_pos short).symm
        | missing => exact absurd rfl notMissing
        | unreadable =>
            obtain ⟨bytes, same, large | faulty⟩ := direct
            · cases same
              exact (if_neg (Nat.not_lt.mpr large)).symm
            · exact absurd faulty not_faulty
      · cases absent
      · exact absurd faulty not_faulty
  | none =>
      obtain ⟨direct, notMissing⟩ | ⟨_, said⟩ := said
      · cases read with
        | whole bytes => cases direct.1
        | missing => exact absurd rfl notMissing
        | unreadable =>
            obtain ⟨bytes, never, _⟩ := direct
            cases never
      · cases read with
        | whole bytes =>
            obtain ⟨rfl, short⟩ := said
            exact (if_pos short).symm
        | missing =>
            rcases said with rfl | faulty | ⟨bytes, rfl, large⟩
            · rfl
            · exact absurd faulty not_faulty
            · exact (if_neg (Nat.not_lt.mpr large)).symm
        | unreadable => exact said.elim

/-- Without failures the two files alone decide what is read. Nothing else on
the card changes, and nothing at all if no content is found. -/
theorem cardfileRead_result (path : Path) {max : Nat} (room : 0 < max)
    (card : MemoryCard) :
    Ensures (Step noFaults)
      (fun cut => cut.files = card.files ∨
        Recovered path max card.files cut.files)
      (fun read after =>
        read.value =
            readResult max (card.files path) (card.files (tempName path)) ∧
          (read.value = .missing → after.files = card.files))
      (cardfileRead path max) card := by
  refine (cardfileRead_run path room card).mono (fun _ kept => kept)
    fun read after kept ended => ?_
  have result := ended.1.eq_readResult
  refine ⟨result, fun missing => ?_⟩
  rcases kept with same | ⟨absent, content, found, short, _⟩
  · exact same
  · rw [missing, absent, found] at result
    have whole := result.trans (if_pos short)
    cases whole

theorem cardfileRead_found {path : Path} {max : Nat} {card : MemoryCard}
    {content : List UInt8} (present : card.files path = some content)
    (room : 0 < max) :
    Ensures (Step noFaults) (fun cut => cut.files = card.files)
      (fun read _ => read.value =
        if content.length < max then .whole content else .unreadable)
      (cardfileRead path max) card := by
  refine (cardfileRead_result path room card).mono ?_ fun read _ _ ended => ?_
  · rintro cut (same | ⟨absent, _⟩)
    · exact same
    · rw [present] at absent
      cases absent
  · rw [ended.1, present]
    rfl

theorem cardfileRead_present {path : Path} {max : Nat} {card : MemoryCard}
    {content : List UInt8} (present : card.files path = some content)
    (short : content.length < max) :
    Ensures (Step noFaults) (fun cut => cut.files = card.files)
      (fun read _ => read.value = .whole content) (cardfileRead path max) card :=
  (cardfileRead_found present (Nat.zero_lt_of_lt short)).mono
    (fun _ same => same) fun _ _ _ ended => ended.trans (if_pos short)

theorem cardfileRead_oversize {path : Path} {max : Nat} {card : MemoryCard}
    {content : List UInt8} (present : card.files path = some content)
    (room : 0 < max) (large : max ≤ content.length) :
    Ensures (Step noFaults) (fun cut => cut.files = card.files)
      (fun read _ => read.value = .unreadable) (cardfileRead path max) card :=
  (cardfileRead_found present room).mono (fun _ same => same)
    fun _ _ _ ended => ended.trans (if_neg (Nat.not_lt.mpr large))

theorem cardfileRead_unreadable {path : Path} {max : Nat}
    {card after : MemoryCard} {lastError : String} (room : 0 < max)
    (run : Returns (Step faults) (cardfileRead path max) card
      ⟨.unreadable, lastError⟩ after) :
    card.files path ≠ none ∧ after.files = card.files := by
  have ensured : Ensures (Step faults) _ _ _ _ := cardfileRead_run path room card
  obtain ⟨⟨⟨content, found, _⟩, _⟩ | ⟨_, impossible⟩, _⟩ := ensured.returns run
  · have there : card.files path ≠ none := by
      rw [found]
      exact Option.some_ne_none content
    refine ⟨there, ?_⟩
    rcases ensured.passes run.passes with same | ⟨absent, _⟩
    · exact same
    · exact absurd absent there
  · exact impossible.elim

end Reading

/-- A load that answers `-1` to a file it has no room for, and else takes what is
listed, loses nothing and refuses every excess exactly if there is an excess in
no file that it takes. -/
theorem complete_iff (Kept : List α → Prop) {value : Int}
    {list listed : List α} {short excess : Prop} [Decidable short]
    (result : (value, list) = if short then (0, listed) else (-1, []))
    (complete : ¬ excess → Kept listed) :
    (value = 0 → Kept list) ∧ (excess → value = -1 ∧ list = []) ↔
      ¬ short ∨ ¬ excess := by
  by_cases fits : short
  · rw [if_pos fits] at result
    cases result
    constructor
    · intro kept
      exact .inr fun more => absurd (kept.2 more).1 (by decide)
    · rintro (large | none)
      · exact absurd fits large
      · exact ⟨fun _ => complete none, fun more => absurd more none⟩
  · rw [if_neg fits] at result
    cases result
    exact iff_of_true ⟨nofun, fun _ => ⟨rfl, rfl⟩⟩ (.inl fits)

end Pspssh.Card
