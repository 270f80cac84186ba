import Pspssh.Data.Program
import Pspssh.Data.Text

namespace Pspssh.Card

open Pspssh.Data
open Pspssh.Data.Program

/-! The file calls of the console and what they do to the memory card. -/

abbrev Path := List UInt8

inductive OpenMode where
  -- `PSP_O_RDONLY`
  | read
  -- `PSP_O_WRONLY | PSP_O_CREAT | PSP_O_TRUNC`
  | write

inductive IoCall where
  | openFile (path : Path) (mode : OpenMode)
  | read (fd size : Nat)
  | write (fd : Nat) (data : List UInt8)
  | close (fd : Nat)
  | remove (path : Path)
  | rename (source target : Path)

/-- What a call gives back. A descriptor or the bytes read are missing where
the call returns a negative number. -/
abbrev IoCall.Result : IoCall → Type
  | .openFile _ _ => Option Nat
  | .read _ _ => Option (List UInt8)
  | .write _ _ => Int
  | .close _ => Unit
  | .remove _ => Int
  | .rename _ _ => Int

abbrev Io (α : Type) := Program IoCall.Result α

abbrev Trace := List (Event IoCall.Result)

def sceIoOpen (path : Path) (mode : OpenMode) : Io (Option Nat) :=
  .call (.openFile path mode) .done

def sceIoRead (fd size : Nat) : Io (Option (List UInt8)) :=
  .call (.read fd size) .done

def sceIoWrite (fd : Nat) (data : List UInt8) : Io Int :=
  .call (.write fd data) .done

def sceIoClose (fd : Nat) : Io Unit :=
  .call (.close fd) .done

def sceIoRemove (path : Path) : Io Int :=
  .call (.remove path) .done

def sceIoRename (source target : Path) : Io Int :=
  .call (.rename source target) .done

/-! ## The card -/

structure Handle where
  path : Path
  position : Nat

structure MemoryCard where
  files : Path → Option (List UInt8)
  opened : List (Option Handle)

def blankCard : MemoryCard where
  files := fun _ => none
  opened := []

namespace MemoryCard

def put (card : MemoryCard) (path : Path) (content : Option (List UInt8)) :
    MemoryCard :=
  { card with files := Function.update card.files path content }

def hand (card : MemoryCard) (path : Path) : MemoryCard :=
  { card with opened := card.opened ++ [some ⟨path, 0⟩] }

def seek (card : MemoryCard) (fd : Nat) (handle : Handle) : MemoryCard :=
  { card with opened := card.opened.set fd (some handle) }

def release (card : MemoryCard) (fd : Nat) : MemoryCard :=
  { card with opened := card.opened.set fd none }

def Has (card : MemoryCard) (fd : Nat) (handle : Handle)
    (content : List UInt8) : Prop :=
  card.opened[fd]? = some (some handle) ∧ card.files handle.path = some content

/-- `data` put over what the file holds from the position on. -/
def overwrite (card : MemoryCard) (fd : Nat) (handle : Handle)
    (content data : List UInt8) : MemoryCard :=
  (card.put handle.path
    (some (content.take handle.position ++ data ++
      content.drop (handle.position + data.length)))).seek fd
    { handle with position := handle.position + data.length }

/-- The calls as they work: reads and writes may be short, but not empty, and a
rename does not replace a file. -/
def Works (card : MemoryCard) : (call : IoCall) → call.Result → MemoryCard → Prop
  | .openFile path .read, result, after =>
      match card.files path with
      | some _ => result = some card.opened.length ∧ after = card.hand path
      | none => result = none ∧ after = card
  | .openFile path .write, result, after =>
      result = some card.opened.length ∧
        after = (card.put path (some [])).hand path
  | .read fd size, result, after =>
      ∃ handle content data, card.Has fd handle content ∧ result = some data ∧
        data <+: content.drop handle.position ∧ data.length ≤ size ∧
        (data = [] → size = 0 ∨ content.length ≤ handle.position) ∧
        after = card.seek fd
          { handle with position := handle.position + data.length }
  | .write fd data, result, after =>
      ∃ handle content count, card.Has fd handle content ∧ result = (count : Nat) ∧
        count ≤ data.length ∧ (data ≠ [] → 0 < count) ∧
        after = card.overwrite fd handle content (data.take count)
  | .close fd, _, after => after = card.release fd
  | .remove path, result, after =>
      match card.files path with
      | some _ => result = 0 ∧ after = card.put path none
      | none => result < 0 ∧ after = card
  | .rename source target, result, after =>
      match card.files source, card.files target with
      | some content, none =>
          result = 0 ∧ after = (card.put source none).put target (some content)
      | _, _ => result < 0 ∧ after = card

/-- The calls as they fail: nothing changes, but that a write may have put down
some of its bytes. -/
def Fails (card : MemoryCard) : (call : IoCall) → call.Result → MemoryCard → Prop
  | .openFile _ _, result, after => result = none ∧ after = card
  | .read _ _, result, after => result = none ∧ after = card
  | .write fd data, result, after =>
      result ≤ 0 ∧ ∃ handle content part, card.Has fd handle content ∧
        part <+: data ∧ after = card.overwrite fd handle content part
  | .close _, _, _ => False
  | .remove _, result, after => result < 0 ∧ after = card
  | .rename _ _, result, after => result < 0 ∧ after = card

end MemoryCard

/-- The card on which the calls in `faults` may fail. -/
def Step (faults : IoCall → Prop) : World IoCall.Result MemoryCard :=
  fun card call result after =>
    card.Works call result after ∨ faults call ∧ card.Fails call result after

def noFaults : IoCall → Prop := fun _ => False

def anyFault : IoCall → Prop := fun _ => True

theorem returns_anyFault {program : Io α} {card after : MemoryCard} {value : α}
    (run : Returns (Step noFaults) program card value after) :
    Returns (Step anyFault) program card value after :=
  run.widen fun _ _ _ _ made => made.imp_right fun fault => fault.1.elim

/-! ## What the changes to the card leave -/

namespace MemoryCard

variable {card : MemoryCard} {fd : Nat} {handle : Handle}
  {content : List UInt8}

@[simp] theorem files_put (path : Path) (content : Option (List UInt8)) :
    (card.put path content).files =
      Function.update card.files path content := rfl

@[simp] theorem files_hand (path : Path) :
    (card.hand path).files = card.files := rfl

@[simp] theorem files_seek : (card.seek fd handle).files = card.files := rfl

@[simp] theorem files_release : (card.release fd).files = card.files := rfl

theorem Has.unique (has : card.Has fd handle content) {other : Handle}
    {found : List UInt8} (also : card.Has fd other found) :
    other = handle ∧ found = content := by
  have same : handle = other := by simpa [has.1] using also.1
  subst same
  exact ⟨rfl, by simpa [has.2] using also.2.symm⟩

theorem has_hand {path : Path} (found : card.files path = some content) :
    (card.hand path).Has card.opened.length ⟨path, 0⟩ content :=
  ⟨List.getElem?_concat_length, found⟩

theorem Has.lt (has : card.Has fd handle content) : fd < card.opened.length :=
  (List.getElem?_eq_some_iff.mp has.1).1

theorem Has.seek (has : card.Has fd handle content) (position : Nat) :
    (card.seek fd { handle with position }).Has fd
      { handle with position } content :=
  ⟨List.getElem?_set_self has.lt, has.2⟩

theorem Has.append (has : card.Has fd handle content)
    (atEnd : handle.position = content.length) (data : List UInt8) :
    (card.overwrite fd handle content data).files =
        Function.update card.files handle.path (some (content ++ data)) ∧
      (card.overwrite fd handle content data).Has fd
        { handle with position := (content ++ data).length }
        (content ++ data) := by
  have written : content.take handle.position ++ data ++
      content.drop (handle.position + data.length) = content ++ data := by
    rw [atEnd, List.take_length, List.drop_of_length_le (by omega),
      List.append_nil]
  have files : (card.overwrite fd handle content data).files =
      Function.update card.files handle.path (some (content ++ data)) := by
    rw [overwrite, files_seek, files_put, written]
  refine ⟨files, ?_, ?_⟩
  · rw [List.length_append, ← atEnd]
    exact List.getElem?_set_self has.lt
  · rw [files, Function.update_self]

end MemoryCard

/-! ## The calls one by one -/

section Calls

variable {faults : IoCall → Prop} {card after : MemoryCard} {trace : Trace}
  {fd : Nat} {handle : Handle} {content : List UInt8}

theorem ensures_call {call : IoCall} {rest : call.Result → Io α}
    {kept : MemoryCard × Trace → Prop} {post : α → MemoryCard × Trace → Prop}
    (holds : kept (card, trace))
    (possible : ∃ result after, card.Works call result after)
    (every : ∀ result after, Step faults card call result after →
      Ensures (Traced (Step faults)) kept post (rest result)
        (after, trace ++ [⟨call, result⟩])) :
    Ensures (Traced (Step faults)) kept post
      ((.call call .done : Io call.Result) >>= rest) (card, trace) := by
  obtain ⟨first, after, made⟩ := possible
  refine ⟨holds, ⟨first, (after, _), .inl made, rfl⟩, ?_⟩
  intro result traced step
  obtain ⟨after, _⟩ := traced
  obtain ⟨made, rfl⟩ := step
  exact every result after made

theorem exists_open (path : Path) (mode : OpenMode) :
    ∃ result after, card.Works (.openFile path mode) result after := by
  cases mode with
  | read =>
      simp only [MemoryCard.Works]
      cases card.files path with
      | none => exact ⟨_, _, rfl, rfl⟩
      | some content => exact ⟨_, _, rfl, rfl⟩
  | write => exact ⟨_, _, rfl, rfl⟩

theorem exists_read (has : card.Has fd handle content) (size : Nat) :
    ∃ result after, card.Works (.read fd size) result after := by
  refine ⟨_, _, handle, content, (content.drop handle.position).take size,
    has, rfl, List.take_prefix _ _, List.length_take_le _ _, ?_, rfl⟩
  intro empty
  rw [List.take_eq_nil_iff, List.drop_eq_nil_iff] at empty
  exact empty

theorem exists_write (has : card.Has fd handle content) (data : List UInt8) :
    ∃ result after, card.Works (.write fd data) result after :=
  ⟨_, _, handle, content, data.length, has, rfl, Nat.le_refl _,
    List.length_pos_of_ne_nil, rfl⟩

theorem exists_close : ∃ result after, card.Works (.close fd) result after :=
  ⟨(), _, rfl⟩

theorem exists_remove (path : Path) :
    ∃ result after, card.Works (.remove path) result after := by
  simp only [MemoryCard.Works]
  cases card.files path with
  | none => exact ⟨(-1 : Int), _, by norm_num, rfl⟩
  | some content => exact ⟨_, _, rfl, rfl⟩

theorem exists_rename (source target : Path) :
    ∃ result after, card.Works (.rename source target) result after := by
  simp only [MemoryCard.Works]
  cases card.files source with
  | none => exact ⟨(-1 : Int), _, by norm_num, rfl⟩
  | some content =>
      cases card.files target with
      | none => exact ⟨_, _, rfl, rfl⟩
      | some _ => exact ⟨(-1 : Int), _, by norm_num, rfl⟩

theorem step_open_read {path : Path} {result : Option Nat}
    (made : Step faults card (.openFile path .read) result after) :
    (∃ content, card.files path = some content ∧
        result = some card.opened.length ∧ after = card.hand path) ∨
      (card.files path = none ∨ faults (.openFile path .read)) ∧
        result = none ∧ after = card := by
  cases made with
  | inl works =>
      simp only [MemoryCard.Works] at works
      cases found : card.files path with
      | none =>
          rw [found] at works
          exact .inr ⟨.inl rfl, works⟩
      | some content =>
          rw [found] at works
          exact .inl ⟨content, rfl, works⟩
  | inr fails => exact .inr ⟨.inr fails.1, fails.2⟩

theorem step_open_write {path : Path} {result : Option Nat}
    (made : Step faults card (.openFile path .write) result after) :
    result = some card.opened.length ∧
        after = (card.put path (some [])).hand path ∨
      faults (.openFile path .write) ∧ result = none ∧ after = card :=
  made

theorem step_read (has : card.Has fd handle content) {size : Nat}
    {result : Option (List UInt8)}
    (made : Step faults card (.read fd size) result after) :
    (∃ data, result = some data ∧ data <+: content.drop handle.position ∧
        data.length ≤ size ∧
        (data = [] → size = 0 ∨ content.length ≤ handle.position) ∧
        after = card.seek fd
          { handle with position := handle.position + data.length }) ∨
      faults (.read fd size) ∧ result = none ∧ after = card := by
  refine made.imp_left ?_
  intro given
  obtain ⟨other, found, data, also, results⟩ := given
  obtain ⟨rfl, rfl⟩ := has.unique also
  exact ⟨data, results⟩

theorem step_write (has : card.Has fd handle content) {data : List UInt8}
    {result : Int} (made : Step faults card (.write fd data) result after) :
    (∃ count : Nat, result = count ∧ count ≤ data.length ∧
        (data ≠ [] → 0 < count) ∧
        after = card.overwrite fd handle content (data.take count)) ∨
      faults (.write fd data) ∧ result ≤ 0 ∧ ∃ part, part <+: data ∧
        after = card.overwrite fd handle content part := by
  refine made.imp ?_ ?_
  · intro given
    obtain ⟨other, found, count, also, results⟩ := given
    obtain ⟨rfl, rfl⟩ := has.unique also
    exact ⟨count, results⟩
  · intro given
    obtain ⟨faulty, failed, other, found, part, also, results⟩ := given
    obtain ⟨rfl, rfl⟩ := has.unique also
    exact ⟨faulty, failed, part, results⟩

theorem step_close {result : Unit}
    (made : Step faults card (.close fd) result after) :
    after = card.release fd :=
  made.resolve_right fun fails => fails.2

theorem step_remove {path : Path} {result : Int}
    (made : Step faults card (.remove path) result after) :
    after = card.put path none ∨
      after = card ∧ (card.files path = none ∨ faults (.remove path)) := by
  cases made with
  | inl works =>
      simp only [MemoryCard.Works] at works
      cases found : card.files path with
      | none =>
          rw [found] at works
          exact .inr ⟨works.2, .inl rfl⟩
      | some content =>
          rw [found] at works
          exact .inl works.2
  | inr fails => exact .inr ⟨fails.2.2, .inr fails.1⟩

theorem step_rename {source target : Path} {result : Int}
    (made : Step faults card (.rename source target) result after) :
    (∃ content, card.files source = some content ∧ card.files target = none ∧
        result = 0 ∧
        after = (card.put source none).put target (some content)) ∨
      result < 0 ∧ after = card ∧
        (card.files source = none ∨ card.files target ≠ none ∨
          faults (.rename source target)) := by
  cases made with
  | inl works =>
      simp only [MemoryCard.Works] at works
      cases found : card.files source with
      | none =>
          rw [found] at works
          exact .inr ⟨works.1, works.2, .inl rfl⟩
      | some content =>
          cases taken : card.files target with
          | none =>
              rw [found, taken] at works
              exact .inl ⟨content, rfl, rfl, works⟩
          | some other =>
              rw [found, taken] at works
              exact .inr ⟨works.1, works.2, .inr (.inl (by simp))⟩
  | inr fails => exact .inr ⟨fails.2.1, fails.2.2, .inr (.inr fails.1)⟩

end Calls

end Pspssh.Card
