import Pspssh.Card.Crash

namespace Pspssh.Card

open Pspssh.Data
open Pspssh.Data.Program

/-! Calls that fail while a file is being read and written, one after another. -/

/-- The card after some calls of `cardfile_read` and `cardfile_write` in which
any file call may have failed, with the content of the last write to succeed and
those of the failed writes since, when every write is of the kind `allowed`. -/
inductive History (path : Path) (allowed : MemoryCard → Trace → Prop)
    (first : MemoryCard) (content : List UInt8) :
    MemoryCard → List UInt8 → List (List UInt8) → Prop where
  | start : History path allowed first content first content []
  | read {card after : MemoryCard} {last : List UInt8}
      {later : List (List UInt8)} {max : Nat} {read : Reported FileRead}
      (history : History path allowed first content card last later)
      (room : 0 < max)
      (run : Returns (Step anyFault) (cardfileRead path max) card read after) :
      History path allowed first content after last later
  | wrote {card after : MemoryCard} {last text : List UInt8}
      {later : List (List UInt8)} {reported : Reported Int} {trace : Trace}
      (history : History path allowed first content card last later)
      (run : Returns (Traced (Step anyFault)) (cardfileWrite path text) (card, [])
        reported (after, trace))
      (kind : allowed card trace) (success : reported.value = 0) :
      History path allowed first content after text []
  | failed {card after : MemoryCard} {last text : List UInt8}
      {later : List (List UInt8)} {reported : Reported Int} {trace : Trace}
      (history : History path allowed first content card last later)
      (run : Returns (Traced (Step anyFault)) (cardfileWrite path text) (card, [])
        reported (after, trace))
      (kind : allowed card trace) (failure : reported.value = -1) :
      History path allowed first content after last (later ++ [text])

/-- There is a file under its own name, or no write into the temporary one
fails. -/
def SparesOnlyCopy (path : Path) (card : MemoryCard) (trace : Trace) : Prop :=
  card.files path ≠ none ∨ ¬ WriteFailed trace

/-- One of these contents is in the file, or else in the temporary one. -/
def HasOneOf (contents : List (List UInt8))
    (own spare : Option (List UInt8)) : Prop :=
  ∃ content ∈ contents, own = some content ∨ own = none ∧ spare = some content

section Faults

variable {path : Path}

theorem HasOneOf.holds {contents : List (List UInt8)}
    {own spare : Option (List UInt8)} (has : HasOneOf contents own spare)
    (max : Nat) : ∃ content ∈ contents, Holds max own spare (some content) := by
  obtain ⟨content, member, rfl | ⟨rfl, rfl⟩⟩ := has
  · exact ⟨content, member, rfl⟩
  · exact ⟨content, member, .inl rfl⟩

theorem HasOneOf.read {contents : List (List UInt8)} {max : Nat}
    {files after : Path → Option (List UInt8)}
    (has : HasOneOf contents (files path) (files (tempName path)))
    (kept : after = files ∨ Recovered path max files after) :
    HasOneOf contents (after path) (after (tempName path)) := by
  rcases kept with rfl | ⟨absent, moved, found, _, rfl⟩
  · exact has
  · obtain ⟨content, member, own | ⟨_, spare⟩⟩ := has
    · exact absurd (absent.symm.trans own).symm (Option.some_ne_none content)
    · obtain rfl : moved = content := Option.some.inj (found.symm.trans spare)
      exact ⟨moved, member, .inl (Function.update_self _ _ _)⟩

theorem HasOneOf.write {contents : List (List UInt8)} {text : List UInt8}
    {before after : Path → Option (List UInt8)} {trace : Trace} {value : Int}
    (has : HasOneOf contents (before path) (before (tempName path)))
    (ended : WriteEnd anyFault path text before value after trace)
    (kind : before path ≠ none ∨ ¬ WriteFailed trace) :
    HasOneOf (if value = 0 then [text] else contents ++ [text])
      (after path) (after (tempName path)) := by
  obtain ⟨content, member, holds⟩ := has
  have older : content ∈ contents ++ [text] := List.mem_append_left _ member
  have newer : text ∈ contents ++ [text] := by simp
  cases ended with
  | moved own _ => exact ⟨text, by simp, .inl own⟩
  | refused => exact ⟨content, older, holds⟩
  | failed _ failed own =>
      rcases kind with present | sound
      · rcases holds with held | ⟨absent, _⟩
        · exact ⟨content, older, .inl (own.trans held)⟩
        · exact absurd absent present
      · exact absurd failed sound
  | stranded _ own temp =>
      rcases own with same | gone
      · rcases holds with held | ⟨absent, _⟩
        · exact ⟨content, older, .inl (same.trans held)⟩
        · exact ⟨text, newer, .inr ⟨same.trans absent, temp⟩⟩
      · exact ⟨text, newer, .inr ⟨gone, temp⟩⟩

theorem History.hasOneOf (distinct : tempName path ≠ path)
    {first card : MemoryCard} {content last : List UInt8}
    {later : List (List UInt8)} (present : first.files path = some content)
    (history : History path (SparesOnlyCopy path) first content card last
      later) :
    HasOneOf (last :: later) (card.files path)
      (card.files (tempName path)) := by
  induction history with
  | start => exact ⟨content, List.mem_singleton_self content, .inl present⟩
  | read _ room run ih =>
      exact ih.read ((cardfileRead_run path room _).passes run.passes)
  | wrote _ run kind success ih =>
      have ended := (cardfileWrite_ensures distinct _ _).returns run
      have written := ih.write ended kind
      rwa [if_pos success] at written
  | failed _ run kind failure ih =>
      have ended := (cardfileWrite_ensures distinct _ _).returns run
      have written := ih.write ended kind
      rwa [if_neg (by rw [failure]; decide)] at written

/-- As long as no write fails on the way into what would be the only copy, a
read without failures gives the content of the last write to succeed or of a
later one. -/
theorem failed_writes_keep_a_copy (distinct : tempName path ≠ path)
    {first card : MemoryCard} {content last : List UInt8}
    {later : List (List UInt8)} (present : first.files path = some content)
    (history : History path (SparesOnlyCopy path) first content card last later)
    {max : Nat} (room : 0 < max) :
    (∃ read after,
        Returns (Step noFaults) (cardfileRead path max) card read after) ∧
      ∀ read after,
        Returns (Step noFaults) (cardfileRead path max) card read after →
        ∃ found ∈ last :: later, Answers max (some found) read.value := by
  have reads : Ensures (Step noFaults) _ _ _ _ := cardfileRead_run path room card
  refine ⟨reads.exists_returns, fun read after run => ?_⟩
  obtain ⟨found, member, holds⟩ :=
    (history.hasOneOf distinct present).holds max
  exact ⟨found, member, holds.answers (reads.returns run).1⟩

theorem failed_rename_run (distinct : tempName path ≠ path)
    {card : MemoryCard} {old : List UInt8} (present : card.files path = some old) :
    ∃ reported after trace,
      Returns (Traced (Step anyFault)) (cardfileWrite path []) (card, []) reported
          (after, trace) ∧
        reported.value = -1 ∧ after.files path = none := by
  let temp := tempName path
  let fd := card.opened.length
  let opened := (card.put temp (some [])).hand temp
  let closed := opened.release fd
  have stays : closed.files path = some old := by
    change Function.update card.files temp (some []) path = _
    rw [Function.update_of_ne distinct.symm, present]
  have removes : closed.Works (.remove path) (0 : Int) (closed.put path none) := by
    rw [MemoryCard.Works, stays]
    exact ⟨rfl, rfl⟩
  refine ⟨⟨-1, "the file was written but could not be moved into place"⟩,
    closed.put path none,
    [⟨.openFile temp .write, some fd⟩, ⟨.close fd, ()⟩,
      ⟨.remove path, (0 : Int)⟩, ⟨.rename temp path, (-1 : Int)⟩],
    ?_, rfl, Function.update_self _ _ _⟩
  have madeOpen : Step anyFault card (.openFile temp .write) (some fd) opened :=
    .inl ⟨rfl, rfl⟩
  refine .call (traced madeOpen []) ?_
  change Returns _ (writeLoop fd temp [] >>= fun all =>
    if all then moveIntoPlace fd temp path else _) _ _ _
  have filled : writeLoop fd temp [] = pure true := by
    rw [writeLoop, dif_pos List.length_nil]
  rw [filled]
  have madeClose : Step anyFault opened (.close fd) () closed := .inl rfl
  have madeRemove : Step anyFault closed (.remove path) (0 : Int)
      (closed.put path none) := .inl removes
  have madeRename : Step anyFault (closed.put path none) (.rename temp path)
      (-1 : Int) (closed.put path none) := .inr ⟨trivial, by norm_num, rfl⟩
  refine .call (traced madeClose _) ?_
  refine .call (traced madeRemove _) ?_
  refine .call (traced madeRename _) ?_
  exact .done

theorem failed_write_run (distinct : tempName path ≠ path) {card : MemoryCard}
    (absent : card.files path = none) (ch : UInt8) :
    ∃ reported after trace,
      Returns (Traced (Step anyFault)) (cardfileWrite path [ch]) (card, [])
          reported (after, trace) ∧
        reported.value = -1 ∧ after.files path = none ∧
        after.files (tempName path) = none := by
  let temp := tempName path
  let fd := card.opened.length
  let opened := (card.put temp (some [])).hand temp
  have has : opened.Has fd ⟨temp, 0⟩ [] :=
    MemoryCard.has_hand (Function.update_self _ _ _)
  let stopped := opened.overwrite fd ⟨temp, 0⟩ [] []
  let closed := stopped.release fd
  have files : closed.files = Function.update opened.files temp (some []) :=
    (has.append rfl []).1
  have removes : closed.Works (.remove temp) (0 : Int) (closed.put temp none) := by
    rw [MemoryCard.Works, files, Function.update_self]
    exact ⟨rfl, rfl⟩
  refine ⟨⟨-1, "the file could not be written"⟩, closed.put temp none,
    [⟨.openFile temp .write, some fd⟩, ⟨.write fd [ch], (-1 : Int)⟩,
      ⟨.close fd, ()⟩, ⟨.remove temp, (0 : Int)⟩],
    ?_, rfl, ?_, Function.update_self _ _ _⟩
  · have madeOpen : Step anyFault card (.openFile temp .write) (some fd)
        opened := .inl ⟨rfl, rfl⟩
    refine .call (traced madeOpen []) ?_
    change Returns _ (writeLoop fd temp [ch] >>= fun all =>
      if all then moveIntoPlace fd temp path else _) _ _ _
    rw [writeLoop, dif_neg (by simp)]
    have madeWrite : Step anyFault opened (.write fd [ch]) (-1 : Int) stopped :=
      .inr ⟨trivial, by norm_num, _, _, [], has, List.nil_prefix, rfl⟩
    have madeClose : Step anyFault stopped (.close fd) () closed := .inl rfl
    have madeRemove : Step anyFault closed (.remove temp) (0 : Int)
        (closed.put temp none) := .inl removes
    refine .call (traced madeWrite _) ?_
    refine .call (traced madeClose _) ?_
    refine .call (traced madeRemove _) ?_
    exact .done
  · rw [MemoryCard.files_put, Function.update_of_ne distinct.symm, files,
      Function.update_of_ne distinct.symm]
    change Function.update card.files temp _ path = none
    rw [Function.update_of_ne distinct.symm, absent]

end Faults

/-- A rename fails and leaves no file under its own name, and what is read then is
the text that was to be written. -/
theorem failed_writes_keep_a_copy_renamed :
    let path := ascii "pspssh.known"
    let first := blankCard.put path (some [0x41])
    ∃ card, card.files path = none ∧
      History path (SparesOnlyCopy path) first [0x41] card [0x41] [[]] ∧
      (∃ read after,
        Returns (Step noFaults) (cardfileRead path 16) card read after) ∧
      ∀ read after,
        Returns (Step noFaults) (cardfileRead path 16) card read after →
        ∃ found ∈ [[0x41], []], Answers 16 (some found) read.value := by
  intro path first
  have distinct : tempName path ≠ path := by decide
  have present : first.files path = some [0x41] := by simp [first]
  obtain ⟨_, card, _, run, failure, absent⟩ := failed_rename_run distinct present
  have kind : first.files path ≠ none := by
    rw [present]
    exact Option.some_ne_none _
  have history : History path (SparesOnlyCopy path) first [0x41] card [0x41] [[]] :=
    .failed .start run (.inl kind) failure
  exact ⟨card, absent, history,
    failed_writes_keep_a_copy distinct present history (by decide)⟩

/-- A rename that fails and then a write that fails leave nothing to read. -/
theorem second_failure_loses_file :
    let path := ascii "pspssh.known"
    let first := blankCard.put path (some [0x41])
    ¬ ∀ card last later read after,
      History path (fun _ _ => True) first [0x41] card last later →
      Returns (Step noFaults) (cardfileRead path 16) card read after →
        ∃ found ∈ last :: later, Answers 16 (some found) read.value := by
  intro path first kept
  have distinct : tempName path ≠ path := by decide
  have present : first.files path = some [0x41] := by simp [first]
  obtain ⟨_, stranded, _, firstRun, firstFailed, absent⟩ :=
    failed_rename_run distinct present
  obtain ⟨_, lost, _, secondRun, secondFailed, own, spare⟩ :=
    failed_write_run distinct absent 0x43
  have history : History path (fun _ _ => True) first [0x41] lost [0x41]
      [[], [0x43]] :=
    .failed (.failed .start firstRun trivial firstFailed) secondRun trivial
      secondFailed
  have reads : Ensures (Step noFaults) _ _ _ _ :=
    cardfileRead_run path (show 0 < 16 by decide) lost
  obtain ⟨read, after, run⟩ := reads.exists_returns
  have nothing : Holds 16 (lost.files path) (lost.files (tempName path)) none := by
    rw [own, spare]
    exact .inl rfl
  have answer := nothing.answers (reads.returns run).1
  obtain ⟨found, member, shown⟩ := kept lost _ _ read after history run
  have short : found.length < 16 := by
    simp at member
    rcases member with rfl | rfl | rfl <;> decide
  generalize read.value = value at answer shown
  cases value with
  | whole bytes => exact absurd answer.symm (Option.some_ne_none bytes)
  | missing =>
      rcases shown with absent | ⟨_, same, large⟩
      · exact absurd absent (Option.some_ne_none found)
      · obtain rfl := Option.some.inj same
        exact absurd short (Nat.not_lt.mpr large)
  | unreadable =>
      obtain ⟨_, same, _⟩ := answer
      exact absurd same.symm (Option.some_ne_none _)

end Pspssh.Card
