import Pspssh.Card.File

namespace Pspssh.Card

open Pspssh.Data
open Pspssh.Data.Program

/-! When a read says that there is no file. -/

/-- Opening fails only where there is no file. Every other call may fail. -/
def afterOpening : IoCall → Prop
  | .openFile _ _ => False
  | _ => True

inductive Answer (max : Nat) (own spare : Option (List UInt8)) (calls : Trace) :
    FileRead → Prop where
  | own {content : List UInt8} {read : FileRead} (found : own = some content)
      (told : Told max content calls read) : Answer max own spare calls read
  | rescued {content : List UInt8} (absent : own = none)
      (found : spare = some content) (short : content.length < max)
      (worked : ¬ ReadFailed calls) :
      Answer max own spare calls (.whole content)
  | lost {content : List UInt8} (absent : own = none)
      (found : spare = some content)
      (why : max ≤ content.length ∨ ReadFailed calls) :
      Answer max own spare calls .missing
  | nothing (absent : own = none) (none : spare = none) :
      Answer max own spare calls .missing

variable {faults : IoCall → Prop} {card : MemoryCard}

theorem readFailed_append {first second : Trace} :
    ReadFailed (first ++ second) ↔ ReadFailed first ∨ ReadFailed second := by
  constructor
  · intro ⟨fd, size, member⟩
    exact (List.mem_append.mp member).imp (⟨fd, size, ·⟩) (⟨fd, size, ·⟩)
  · rintro (⟨fd, size, member⟩ | ⟨fd, size, member⟩)
    · exact ⟨fd, size, List.mem_append_left _ member⟩
    · exact ⟨fd, size, List.mem_append_right _ member⟩

theorem quiet_rename {calls : Trace} {source target : Path} {result : Int} :
    ReadFailed (calls ++ [⟨.rename source target, result⟩]) ↔
      ReadFailed calls := by
  simp [ReadFailed]

theorem recover_answer {path : Path} {max : Nat} (room : 0 < max)
    {own : Option (List UInt8)} (absent : own = none) {calls : Trace}
    (quiet : ¬ ReadFailed calls)
    (opens : ∀ path mode, ¬ faults (.openFile path mode)) :
    Ensures (Traced (Step faults)) (fun _ => True)
      (fun (read : Reported FileRead) cut =>
        Answer max own (card.files (tempName path)) cut.2 read.value)
      (do
        let saved ← readFile (tempName path) max
        match saved.value with
        | .whole _ =>
            let _ ← sceIoRename (tempName path) path
            pure saved
        | _ => pure ⟨.missing, saved.lastError⟩) (card, calls) := by
  refine Ensures.bind ((readFile_told (tempName path) room).mono
    (fun _ _ => trivial) fun saved cut same ended => ?_)
  obtain ⟨last, trace⟩ := cut
  obtain ⟨value, lastError⟩ := saved
  obtain ⟨more, traced, _, ⟨content, found, told⟩ | ⟨gone, missing, _⟩⟩ := ended
  · dsimp only at traced told
    subst traced
    have joined : ReadFailed (calls ++ more) ↔ ReadFailed more := by
      rw [readFailed_append]
      exact or_iff_right quiet
    cases told with
    | whole short worked =>
        refine ensures_call trivial (exists_rename _ _) fun result after made => ?_
        refine ⟨trivial, .rescued absent found short ?_⟩
        rw [quiet_rename, joined]
        exact worked
    | unreadable why =>
        exact ⟨trivial, .lost absent found (why.imp_right joined.mpr)⟩
  · dsimp only at missing
    subst missing
    have none : card.files (tempName path) = none :=
      gone.resolve_right (opens _ _)
    exact ⟨trivial, .nothing absent none⟩

theorem cardfileRead_answer (opens : ∀ path mode, ¬ faults (.openFile path mode))
    (path : Path) {max : Nat} (room : 0 < max) :
    Ensures (Traced (Step faults)) (fun _ => True)
      (fun read cut => Answer max (card.files path) (card.files (tempName path))
        cut.2 read.value)
      (cardfileRead path max) (card, []) := by
  refine Ensures.bind ((readFile_told path room).mono (fun _ _ => trivial)
    fun read cut same ended => ?_)
  obtain ⟨middle, trace⟩ := cut
  obtain ⟨value, lastError⟩ := read
  obtain ⟨calls, traced, _, ⟨content, found, told⟩ | ⟨absent, missing, quiet⟩⟩ :=
    ended
  · have answered : Answer max (card.files path) (card.files (tempName path))
        trace value := by
      rw [List.nil_append] at traced
      dsimp only at traced
      subst traced
      exact .own found told
    dsimp only at told
    cases told with
    | whole short worked => exact ⟨trivial, answered⟩
    | unreadable why => exact ⟨trivial, answered⟩
  · dsimp only at traced missing
    subst traced missing
    have unmoved : middle.files = card.files := same
    rw [← unmoved] at absent ⊢
    exact recover_answer room (absent.resolve_right (opens _ _)) quiet opens

theorem exists_read_run (path : Path) {max : Nat} (room : 0 < max)
    (card : MemoryCard) :
    ∃ read last trace, Returns (Traced (Step afterOpening))
      (cardfileRead path max) (card, []) read (last, trace) ∧
      Answer max (card.files path) (card.files (tempName path)) trace
        read.value := by
  have ensured : Ensures (Traced (Step afterOpening)) _ _ _ (card, []) :=
    cardfileRead_answer (fun _ _ faulty => faulty) path room
  obtain ⟨read, ⟨last, trace⟩, run⟩ := ensured.exists_returns
  exact ⟨read, last, trace, run, ensured.returns run⟩

/-- The file to be used is the one under the path, or else the temporary one. -/
theorem absence_reported_iff {path : Path} {max : Nat} (room : 1 ≤ max)
    {card last : MemoryCard} {read : Reported FileRead} {trace : Trace}
    (run : Returns (Traced (Step afterOpening)) (cardfileRead path max)
      (card, []) read (last, trace)) :
    ((read.value = .missing ↔
        card.files path = none ∧ card.files (tempName path) = none) ∧
      ∀ content,
        (card.files path).or (card.files (tempName path)) = some content →
        max ≤ content.length ∨ ReadFailed trace → read.value = .unreadable) ↔
      card.files path ≠ none ∨
        ∀ content, card.files (tempName path) = some content →
          content.length < max ∧ ¬ ReadFailed trace := by
  have answer : Answer max (card.files path) (card.files (tempName path)) trace
      read.value :=
    (cardfileRead_answer (fun _ _ faulty => faulty) path room).returns run
  generalize card.files path = own, card.files (tempName path) = spare at answer ⊢
  generalize read.value = value at answer ⊢
  cases answer with
  | own found told =>
      subst found
      refine iff_of_true ⟨?_, ?_⟩ (.inl (Option.some_ne_none _))
      · cases told with
        | whole short worked => simp
        | unreadable why => simp
      · intro content same why
        cases told with
        | unreadable _ => rfl
        | whole short worked =>
            cases same
            exact (why.elim (not_le.mpr short) worked).elim
  | @rescued content absent found short worked =>
      subst absent found
      refine iff_of_true ⟨by simp, fun _ same why => ?_⟩ (.inr fun _ same => ?_)
      · cases same
        exact (why.elim (not_le.mpr short) worked).elim
      · cases same
        exact ⟨short, worked⟩
  | @lost content absent found why =>
      subst absent found
      refine iff_of_false (fun kept => ?_) fun safe => ?_
      · exact absurd (kept.1.mp rfl).2 (Option.some_ne_none content)
      · have kept := safe.resolve_left (fun some => some rfl) content rfl
        exact why.elim (not_le.mpr kept.1) kept.2
  | nothing absent none =>
      subst absent none
      refine iff_of_true ⟨by simp, fun _ same => ?_⟩ (.inr fun _ same => ?_)
      · contradiction
      · contradiction

def cardWith (path : Path) : MemoryCard :=
  blankCard.put path (some [1, 2, 3])

theorem files_cardWith (path : Path) :
    (cardWith path).files path = some [1, 2, 3] := by
  rw [cardWith, MemoryCard.files_put, Function.update_self]

theorem files_cardWith_of_ne {path other : Path} (apart : other ≠ path) :
    (cardWith path).files other = none := by
  rw [cardWith, MemoryCard.files_put, Function.update_of_ne apart]
  rfl

theorem oversized_file_is_unreadable : ∃ read last trace,
    Returns (Traced (Step afterOpening)) (cardfileRead [0x66] 3)
      (cardWith [0x66], []) read (last, trace) ∧ read.value = .unreadable := by
  obtain ⟨read, last, trace, run, _⟩ :=
    exists_read_run [0x66] (by decide : 0 < 3) (cardWith [0x66])
  have present := files_cardWith [0x66]
  have kept := (absence_reported_iff (by decide) run).mpr
    (.inl (by rw [present]; exact Option.some_ne_none _))
  refine ⟨read, last, trace, run, kept.2 [1, 2, 3] ?_ (.inl (by decide))⟩
  rw [present]
  rfl

theorem oversized_rescue_is_missing : ∃ read last trace,
    Returns (Traced (Step afterOpening)) (cardfileRead [0x66] 3)
      (cardWith (tempName [0x66]), []) read (last, trace) ∧
    (cardWith (tempName [0x66])).files (tempName [0x66]) = some [1, 2, 3] ∧
    read.value = .missing := by
  obtain ⟨read, last, trace, run, answer⟩ :=
    exists_read_run [0x66] (by decide : 0 < 3) (cardWith (tempName [0x66]))
  have spare := files_cardWith (tempName [0x66])
  have apart : [0x66] ≠ tempName [0x66] := by decide +kernel
  have absent := files_cardWith_of_ne apart
  refine ⟨read, last, trace, run, spare, ?_⟩
  rw [spare, absent] at answer
  generalize read.value = value at answer ⊢
  cases answer with
  | own found _ => contradiction
  | rescued _ found short _ =>
      cases found
      exact absurd short (by decide)
  | lost _ _ _ => rfl
  | nothing _ _ => rfl

end Pspssh.Card
