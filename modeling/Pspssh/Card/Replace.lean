import Pspssh.Card.File

namespace Pspssh.Card

open Pspssh.Data
open Pspssh.Data.Program

/-! Writing a file: what is under its name and under the temporary one at every
point, and how it ends. -/

def written (trace : Trace) : Nat :=
  (trace.map fun event =>
    match event with
    | ⟨.write _ _, result⟩ => Int.toNat result
    | _ => 0).sum

def WriteFailed (trace : Trace) : Prop :=
  ∃ fd data, ∃ result : Int, result ≤ 0 ∧
    (⟨.write fd data, result⟩ : Event IoCall.Result) ∈ trace

/-- Where `cardfile_write` is, by what it has left under the file's own name
and under the temporary one, which held `old` and `spare` before. -/
inductive Writing (faults : IoCall → Prop) (text : List UInt8)
    (old spare : Option (List UInt8)) :
    Option (List UInt8) → Option (List UInt8) → Trace → Prop where
  | untouched {trace : Trace} : Writing faults text old spare old spare trace
  | filling {trace : Trace} {part : List UInt8} (begun : trace ≠ [])
      (start : part <+: text) (count : written trace = part.length) :
      Writing faults text old spare old (some part) trace
  | abandoned {trace : Trace} {left : Option (List UInt8)}
      (failed : WriteFailed trace) (faulty : Faulty faults) :
      Writing faults text old spare old left trace
  | filled {trace : Trace} {held : Option (List UInt8)}
      (count : written trace = text.length) (holds : held = old ∨ held = none) :
      Writing faults text old spare held (some text) trace
  | moved {trace : Trace} (count : written trace = text.length) :
      Writing faults text old spare (some text) none trace

def SameBut (temp : Path) (before after : Path → Option (List UInt8)) : Prop :=
  ∀ other, other ≠ temp → after other = before other

/-- What holds of the card at every point of `cardfile_write`. -/
def WriteCut (faults : IoCall → Prop) (path : Path) (text : List UInt8)
    (before : Path → Option (List UInt8)) (cut : MemoryCard × Trace) : Prop :=
  Writing faults text (before path) (before (tempName path)) (cut.1.files path)
      (cut.1.files (tempName path)) cut.2 ∧
    ∀ other, other ≠ path → other ≠ tempName path →
      cut.1.files other = before other

section WritingRules

variable {faults : IoCall → Prop} {path : Path} {text : List UInt8}
  {before : Path → Option (List UInt8)}

theorem SameBut.writeCut {card : MemoryCard} {trace : Trace}
    (distinct : tempName path ≠ path)
    (same : SameBut (tempName path) before card.files)
    (stage : Writing faults text (before path) (before (tempName path)) (before path)
      (card.files (tempName path)) trace) :
    WriteCut faults path text before (card, trace) := by
  refine ⟨?_, fun other _ => same other⟩
  change Writing faults text _ _ (card.files path) _ _
  rw [same path distinct.symm]
  exact stage

theorem SameBut.put {temp : Path} {files after : Path → Option (List UInt8)}
    (same : SameBut temp before files) {content : Option (List UInt8)}
    (put : after = Function.update files temp content) :
    SameBut temp before after := by
  intro other different
  rw [put, Function.update_of_ne different]
  exact same other different

theorem written_append (trace : Trace) (event : Event IoCall.Result) :
    written (trace ++ [event]) = written trace + written [event] := by
  rw [written, List.map_append, List.sum_append]
  rfl

theorem WriteFailed.append {trace : Trace} (failed : WriteFailed trace)
    (event : Event IoCall.Result) : WriteFailed (trace ++ [event]) := by
  obtain ⟨fd, data, result, negative, member⟩ := failed
  exact ⟨fd, data, result, negative, List.mem_append_left _ member⟩

theorem abandon_ensures (distinct : tempName path ≠ path) {fd : Nat}
    {card : MemoryCard} {trace : Trace}
    (same : SameBut (tempName path) before card.files)
    (failed : WriteFailed trace) (faulty : Faulty faults) :
    Ensures (Traced (Step faults)) (WriteCut faults path text before)
      (fun all cut => SameBut (tempName path) before cut.1.files ∧
        if all then
          cut.1.files (tempName path) = some text ∧
            written cut.2 = text.length
        else WriteFailed cut.2 ∧ Faulty faults)
      (do
        sceIoClose fd
        let _ ← sceIoRemove (tempName path)
        pure false) (card, trace) := by
  refine ensures_call (same.writeCut distinct (.abandoned failed faulty)) exists_close
    fun result after made => ?_
  rw [step_close made]
  have closed := failed.append ⟨.close fd, result⟩
  refine ensures_call (SameBut.writeCut distinct same (.abandoned closed faulty))
    (exists_remove _) fun result after made => ?_
  have removed := closed.append ⟨.remove (tempName path), result⟩
  rcases step_remove made with rfl | ⟨rfl, _⟩
  · have gone : SameBut (tempName path) before
        ((card.release fd).put (tempName path) none).files := same.put rfl
    exact ⟨gone.writeCut distinct (.abandoned removed faulty), gone, removed, faulty⟩
  · exact ⟨SameBut.writeCut distinct same (.abandoned removed faulty), same, removed,
      faulty⟩

theorem writeLoop_ensures (distinct : tempName path ≠ path) {fd : Nat}
    {card : MemoryCard} {trace : Trace} {done rest : List UInt8}
    (same : SameBut (tempName path) before card.files)
    (has : card.Has fd ⟨tempName path, done.length⟩ done)
    (whole : done ++ rest = text) (begun : trace ≠ [])
    (count : written trace = done.length) :
    Ensures (Traced (Step faults)) (WriteCut faults path text before)
      (fun all cut => SameBut (tempName path) before cut.1.files ∧
        if all then
          cut.1.files (tempName path) = some text ∧
            written cut.2 = text.length
        else WriteFailed cut.2 ∧ Faulty faults)
      (writeLoop fd (tempName path) rest) (card, trace) := by
  induction left : rest.length using Nat.strong_induction_on
    generalizing card trace done rest with
  | h size ih =>
      have cut : WriteCut faults path text before (card, trace) := by
        refine same.writeCut distinct ?_
        rw [has.2]
        exact .filling begun ⟨rest, whole⟩ count
      rw [writeLoop]
      split
      · rename_i empty
        rw [List.eq_nil_of_length_eq_zero empty, List.append_nil] at whole
        subst whole
        exact ⟨cut, same, has.2, count⟩
      · rename_i more
        refine ensures_call cut (exists_write has _)
          fun result after made => ?_
        obtain ⟨n, rfl, short, some_byte, rfl⟩ | ⟨faulty, failed, part, _, rfl⟩ :=
          step_write has made
        · have positive : 0 < n := some_byte (by simpa using more)
          obtain ⟨files, grown⟩ := has.append rfl (rest.take n)
          have taken : (rest.take n).length = n := List.length_take_of_le short
          rw [if_neg (by omega)]
          refine ih _ ?_ (same.put files) grown ?_ (by simp) ?_ rfl
          · rw [Int.toNat_natCast, List.length_drop]
            omega
          · rw [Int.toNat_natCast, List.append_assoc, List.take_append_drop,
              whole]
          · rw [written_append, count, List.length_append, taken]
            rfl
        · obtain ⟨files, _⟩ := has.append rfl part
          have fault : WriteFailed (trace ++ [⟨.write fd rest, result⟩]) :=
            ⟨fd, rest, result, failed, by simp⟩
          rw [if_pos failed]
          exact abandon_ensures distinct (same.put files) fault ⟨_, faulty⟩

inductive WriteEnd (faults : IoCall → Prop) (path : Path) (text : List UInt8)
    (before : Path → Option (List UInt8)) :
    Int → (Path → Option (List UInt8)) → Trace → Prop where
  | moved {after : Path → Option (List UInt8)} {trace : Trace}
      (own : after path = some text) (temp : after (tempName path) = none) :
      WriteEnd faults path text before 0 after trace
  | refused {trace : Trace} (faulty : Faulty faults) :
      WriteEnd faults path text before (-1) before trace
  | failed {after : Path → Option (List UInt8)} {trace : Trace}
      (faulty : Faulty faults) (failed : WriteFailed trace)
      (own : after path = before path) :
      WriteEnd faults path text before (-1) after trace
  | stranded {after : Path → Option (List UInt8)} {trace : Trace}
      (faulty : Faulty faults)
      (own : after path = before path ∨ after path = none)
      (temp : after (tempName path) = some text) :
      WriteEnd faults path text before (-1) after trace

theorem written_silent {event : Event IoCall.Result} {trace : Trace}
    (silent : written [event] = 0) (count : written trace = text.length) :
    written (trace ++ [event]) = text.length := by
  rw [written_append, silent, count, Nat.add_zero]

theorem rename_ensures (distinct : tempName path ≠ path) {card : MemoryCard}
    {trace : Trace} (temp : card.files (tempName path) = some text)
    (holds : card.files path = before path ∨ card.files path = none)
    (free : card.files path = none ∨ Faulty faults)
    (frame : ∀ other, other ≠ path → other ≠ tempName path →
      card.files other = before other)
    (count : written trace = text.length) :
    Ensures (Traced (Step faults)) (WriteCut faults path text before)
      (fun (reported : Reported Int) cut =>
        WriteEnd faults path text before reported.value cut.1.files cut.2)
      (do
        let moved ← sceIoRename (tempName path) path
        if moved < 0 then
          pure ⟨-1, "the file was written but could not be moved into place"⟩
        else pure ⟨0, ""⟩) (card, trace) := by
  refine ensures_call ⟨?_, frame⟩ (exists_rename _ _)
    fun result last made => ?_
  · rw [temp]
    exact .filled count holds
  have ended := written_silent
    (rfl : written [⟨.rename (tempName path) path, result⟩] = 0) count
  obtain ⟨content, found, _, rfl, rfl⟩ | ⟨negative, rfl, why⟩ :=
    step_rename made
  · obtain rfl : text = content := Option.some.inj (temp.symm.trans found)
    have atOwn : ((card.put (tempName path) none).put path
        (some text)).files path = some text := Function.update_self _ _ _
    have atTemp : ((card.put (tempName path) none).put path
        (some text)).files (tempName path) = none := by
      rw [MemoryCard.files_put, Function.update_of_ne distinct,
        MemoryCard.files_put, Function.update_self]
    refine ⟨⟨?_, fun other notOwn notTemp => ?_⟩, .moved atOwn atTemp⟩
    · rw [atOwn, atTemp]
      exact .moved ended
    · rw [MemoryCard.files_put, Function.update_of_ne notOwn,
        MemoryCard.files_put, Function.update_of_ne notTemp]
      exact frame other notOwn notTemp
  · rw [if_pos negative]
    refine ⟨⟨?_, frame⟩, .stranded ?_ holds temp⟩
    · rw [temp]
      exact .filled ended holds
    · rcases why with absent | present | faulty
      · rw [temp] at absent
        exact absurd absent (Option.some_ne_none text)
      · exact free.resolve_left present
      · exact ⟨_, faulty⟩

theorem moveIntoPlace_ensures (distinct : tempName path ≠ path) {fd : Nat}
    {card : MemoryCard} {trace : Trace}
    (same : SameBut (tempName path) before card.files)
    (whole : card.files (tempName path) = some text)
    (count : written trace = text.length) :
    Ensures (Traced (Step faults)) (WriteCut faults path text before)
      (fun reported cut =>
        WriteEnd faults path text before reported.value cut.1.files cut.2)
      (moveIntoPlace fd (tempName path) path) (card, trace) := by
  have own : card.files path = before path := same path distinct.symm
  refine ensures_call ?_ exists_close fun result after made => ?_
  · refine same.writeCut distinct ?_
    rw [whole]
    exact .filled count (.inl rfl)
  rw [step_close made]
  have closed := written_silent (rfl : written [⟨.close fd, result⟩] = 0) count
  refine ensures_call ?_ (exists_remove path) fun result after made => ?_
  · refine SameBut.writeCut distinct same ?_
    rw [MemoryCard.files_release, whole]
    exact .filled closed (.inl rfl)
  have removed := written_silent
    (rfl : written [⟨.remove path, result⟩] = 0) closed
  have others (other : Path) (notOwn : other ≠ path) :
      after.files other = card.files other := by
    rcases step_remove made with rfl | ⟨rfl, _⟩
    · exact Function.update_of_ne notOwn _ _
    · rfl
  have frame (other : Path) (notOwn : other ≠ path)
      (notTemp : other ≠ tempName path) : after.files other = before other :=
    (others other notOwn).trans (same other notTemp)
  refine rename_ensures distinct ((others _ distinct).trans whole) ?_ ?_ frame
    removed
  · rcases step_remove made with rfl | ⟨rfl, _⟩
    · exact .inr (Function.update_self _ _ _)
    · exact .inl own
  · rcases step_remove made with rfl | ⟨rfl, absent | faulty⟩
    · exact .inl (Function.update_self _ _ _)
    · exact .inl absent
    · exact .inr ⟨_, faulty⟩

theorem cardfileWrite_ensures (distinct : tempName path ≠ path)
    (card : MemoryCard) (text : List UInt8) :
    Ensures (Traced (Step faults)) (WriteCut faults path text card.files)
      (fun reported cut =>
        WriteEnd faults path text card.files reported.value cut.1.files cut.2)
      (cardfileWrite path text) (card, []) := by
  have same : SameBut (tempName path) card.files card.files := fun _ _ => rfl
  refine ensures_call (same.writeCut distinct .untouched) (exists_open _ _)
    fun result after made => ?_
  rcases step_open_write made with ⟨rfl, rfl⟩ | ⟨faulty, rfl, rfl⟩
  · have created : (card.put (tempName path) (some [])).files
        (tempName path) = some [] := Function.update_self _ _ _
    have emptied : SameBut (tempName path) card.files
        ((card.put (tempName path) (some [])).hand (tempName path)).files :=
      same.put rfl
    refine Ensures.bind ((writeLoop_ensures distinct emptied
      (MemoryCard.has_hand created) (List.nil_append text) (by simp) rfl).mono
      (fun _ cut => cut) fun all cut kept ended => ?_)
    obtain ⟨after, trace⟩ := cut
    obtain ⟨same, ended⟩ := ended
    cases all with
    | true => exact moveIntoPlace_ensures distinct same ended.1 ended.2
    | false => exact ⟨kept, .failed ended.2 ended.1 (same path distinct.symm)⟩
  · exact ⟨same.writeCut distinct .untouched, .refused ⟨_, faulty⟩⟩

theorem cardfileWrite_run (distinct : tempName path ≠ path)
    (card : MemoryCard) (text : List UInt8) :
    Ensures (Step faults)
      (fun cut => ∀ other, other ≠ path → other ≠ tempName path →
        cut.files other = card.files other)
      (fun reported after =>
        reported.value = 0 ∧ after.files path = some text ∨
          reported.value = -1 ∧ Faulty faults)
      (cardfileWrite path text) card := by
  refine Ensures.untraced [] ((cardfileWrite_ensures distinct card text).mono
    (fun _ cut => cut.2) fun reported cut _ ended => ?_)
  generalize reported.value = value, cut.1.files = files at ended ⊢
  cases ended with
  | moved own _ => exact .inl ⟨rfl, own⟩
  | refused faulty => exact .inr ⟨rfl, faulty⟩
  | failed faulty _ _ => exact .inr ⟨rfl, faulty⟩
  | stranded faulty _ _ => exact .inr ⟨rfl, faulty⟩

theorem cardfileWrite_refused (path : Path) (text : List UInt8)
    (card : MemoryCard) :
    Returns (Step anyFault) (cardfileWrite path text) card
      ⟨-1, "the file could not be opened for writing"⟩ card :=
  .call (.inr ⟨trivial, rfl, rfl⟩) .done

end WritingRules

end Pspssh.Card
