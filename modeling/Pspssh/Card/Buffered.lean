import Pspssh.Card.Replace
import Pspssh.Data.Buffer

namespace Pspssh.Card

open Pspssh.Data
open Pspssh.Data.Program

/-! Reading into the buffer of a caller: what is stored in it, and where the
text ends. -/

structure Filled where
  length : Int
  buffer : Buffer

/-- The loop of `read_file`, with `total` bytes in the buffer. -/
def readLoopInto (fd max : Nat) (buffer : Buffer) (total : Nat) :
    Io (Reported Filled) := do
  match ← sceIoRead fd (max - total) with
  | none =>
      sceIoClose fd
      pure ⟨⟨-2, buffer⟩, "the file could not be read"⟩
  | some data =>
      let buffer := buffer.copy total data
      if _ : data.length = 0 then
        sceIoClose fd
        pure ⟨⟨total, buffer.store total 0⟩, ""⟩
      else if max ≤ total + data.length then
        sceIoClose fd
        pure ⟨⟨-2, buffer⟩, "the file is larger than it should ever be"⟩
      else readLoopInto fd max buffer (total + data.length)
termination_by max - total

def readFileInto (path : Path) (max : Nat) (buffer : Buffer) :
    Io (Reported Filled) := do
  match ← sceIoOpen path .read with
  | none => pure ⟨⟨-1, buffer⟩, ""⟩
  | some fd => readLoopInto fd max buffer 0

def cardfileReadInto (path : Path) (max : Nat) (buffer : Buffer) :
    Io (Reported Filled) := do
  let read ← readFileInto path max buffer
  if read.value.length ≠ -1 then pure read
  else
    let temp := tempName path
    let saved ← readFileInto temp max read.value.buffer
    if saved.value.length < 0 then
      pure ⟨⟨-1, saved.value.buffer⟩, saved.lastError⟩
    else
      let _ ← sceIoRename temp path
      pure saved

def Filled.view (filled : Filled) : FileRead :=
  if filled.length = -1 then .missing
  else if filled.length < 0 then .unreadable
  else .whole (filled.buffer.take filled.length.toNat)

def viewed (read : Reported Filled) : Reported FileRead :=
  ⟨read.value.view, read.lastError⟩

/-! ## The buffer holds what was read -/

theorem view_whole (length : Nat) (buffer : Buffer) :
    (Filled.mk length buffer).view = .whole (buffer.take length) := by
  have notMissing : (length : Int) ≠ -1 := by omega
  have notFailed : ¬ (length : Int) < 0 := by omega
  simp only [Filled.view, if_neg notMissing, if_neg notFailed, Int.toNat_natCast]

theorem readLoop_view (fd max : Nat) (buffer : Buffer) (total : Nat) :
    (readLoopInto fd max buffer total >>= fun read => pure (viewed read)) =
      readLoop fd max (buffer.take total) := by
  induction left : max - total using Nat.strong_induction_on
    generalizing buffer total with
  | h left ih =>
      rw [readLoopInto, readLoop, Buffer.take_length]
      refine congrArg (Program.call _) (funext fun result => ?_)
      cases result with
      | none => rfl
      | some data =>
          have bytes := Buffer.take_copy buffer total data
          have size : (buffer.take total ++ data).length =
              total + data.length := by
            rw [List.length_append, Buffer.take_length]
          simp only [Program.bind]
          by_cases empty : data.length = 0
          · rw [dif_pos empty, dif_pos empty]
            rw [List.eq_nil_of_length_eq_zero empty, Buffer.copy_nil]
            have held : viewed ⟨⟨total, buffer.store total 0⟩, ""⟩ =
                ⟨.whole (buffer.take total), ""⟩ := by
              rw [viewed, view_whole, Buffer.take_store]
            exact congrArg (Program.call _)
              (funext fun _ => congrArg Program.done held)
          · rw [dif_neg empty, dif_neg empty, size]
            by_cases full : max ≤ total + data.length
            · rw [if_pos full, if_pos full]
              rfl
            · rw [if_neg full, if_neg full, ← bytes]
              exact ih _ (by omega) _ _ rfl

theorem readFile_view (path : Path) (max : Nat) (buffer : Buffer) :
    (readFileInto path max buffer >>= fun read => pure (viewed read)) =
      readFile path max := by
  refine congrArg (Program.call _) (funext fun result => ?_)
  cases result with
  | none => rfl
  | some fd => exact readLoop_view fd max buffer 0

variable {faults : IoCall → Prop} {path : Path} {max total fd : Nat}
  {buffer : Buffer} {card last : MemoryCard} {read : Reported Filled}

/-- Nothing is stored behind the buffer, and what was read is terminated. -/
structure Inside (max : Nat) (buffer : Buffer) (filled : Filled) : Prop where
  untouched : ∀ index, max ≤ index → filled.buffer index = buffer index
  known : filled.length = -1 ∨ filled.length = -2 ∨
    ∃ length : Nat, filled.length = length ∧ length < max ∧
      filled.buffer length = 0

theorem step_read_size {size : Nat} {data : List UInt8}
    (made : Step faults card (.read fd size) (some data) last) :
    data.length ≤ size := by
  rcases made with works | ⟨_, failed, _⟩
  · obtain ⟨_, _, _, _, same, _, short, _⟩ := works
    exact Option.some.inj same ▸ short
  · contradiction

theorem returns_close {α : Type} {value result : α}
    (run : Returns (Step faults) (sceIoClose fd >>= fun _ => pure value) card
      result last) : result = value := by
  cases run with
  | call made rest =>
      cases rest with
      | done => rfl

theorem inside_copy {data : List UInt8} {filled : Filled}
    (fits : total + data.length ≤ max)
    (inside : Inside max (buffer.copy total data) filled) :
    Inside max buffer filled := by
  refine ⟨fun index behind => (inside.untouched index behind).trans ?_,
    inside.known⟩
  exact Buffer.copy_behind buffer total data (fits.trans behind)

theorem readLoop_inside (room : total < max)
    (run : Returns (Step faults) (readLoopInto fd max buffer total) card read
      last) : Inside max buffer read.value := by
  induction left : max - total using Nat.strong_induction_on
    generalizing buffer total card with
  | h left ih =>
      rw [readLoopInto] at run
      cases run with
      | @call _ _ result _ between _ _ made rest =>
          cases result with
          | none =>
              rw [returns_close rest]
              exact ⟨fun _ _ => rfl, .inr (.inl rfl)⟩
          | some data =>
              have short := step_read_size made
              have fits : total + data.length ≤ max := by omega
              simp only [Program.bind] at rest
              by_cases empty : data.length = 0
              · rw [dif_pos empty] at rest
                rw [returns_close rest, List.eq_nil_of_length_eq_zero empty,
                  Buffer.copy_nil]
                refine ⟨fun index behind => ?_, .inr (.inr ⟨total, rfl, room, ?_⟩)⟩
                · exact Buffer.store_behind buffer total (room.trans_le behind) 0
                · exact Buffer.store_self buffer total 0
              · rw [dif_neg empty] at rest
                refine inside_copy fits ?_
                by_cases full : max ≤ total + data.length
                · rw [if_pos full] at rest
                  rw [returns_close rest]
                  exact ⟨fun _ _ => rfl, .inr (.inl rfl)⟩
                · rw [if_neg full] at rest
                  exact ih _ (by omega) (not_le.mp full) rest rfl

theorem readFile_inside (room : 0 < max)
    (run : Returns (Step faults) (readFileInto path max buffer) card read last) :
    Inside max buffer read.value := by
  cases run with
  | @call _ _ result _ between _ _ made rest =>
      cases result with
      | none =>
          cases rest with
          | done => exact ⟨fun _ _ => rfl, .inl rfl⟩
      | some fd => exact readLoop_inside room rest

theorem cardfileRead_inside (room : 0 < max)
    (run : Returns (Step faults) (cardfileReadInto path max buffer) card read
      last) : Inside max buffer read.value := by
  obtain ⟨first, between, own, rest⟩ := returns_bind_iff.mp run
  have inside := readFile_inside room own
  split at rest
  · cases rest with
    | done => exact inside
  · obtain ⟨saved, after, spare, rest⟩ := returns_bind_iff.mp rest
    have again := readFile_inside room spare
    have untouched : ∀ index, max ≤ index →
        saved.value.buffer index = buffer index := fun index behind =>
      (again.untouched index behind).trans (inside.untouched index behind)
    split at rest
    · cases rest with
      | done => exact ⟨untouched, .inl rfl⟩
    · cases rest with
      | call made rest =>
          cases rest with
          | done => exact ⟨untouched, again.known⟩

theorem view_missing {filled : Filled} (missing : filled.length = -1) :
    filled.view = .missing :=
  if_pos missing

theorem view_present {filled : Filled} (present : filled.length ≠ -1) :
    filled.view ≠ .missing := by
  rw [Filled.view, if_neg present]
  split
  · exact nofun
  · exact nofun

theorem recover_view (path : Path) (max : Nat) (buffer : Buffer) :
    ((do
        let saved ← readFileInto (tempName path) max buffer
        if saved.value.length < 0 then
          pure ⟨⟨-1, saved.value.buffer⟩, saved.lastError⟩
        else
          let _ ← sceIoRename (tempName path) path
          pure saved) >>= fun read => pure (viewed read)) =
      (do
        let saved ← readFile (tempName path) max
        match saved.value with
        | .whole _ =>
            let _ ← sceIoRename (tempName path) path
            pure saved
        | _ => pure ⟨.missing, saved.lastError⟩) := by
  rw [← readFile_view (tempName path) max buffer]
  refine (bind_assoc _ _ _).trans ((bind_assoc _ _ _).trans ?_).symm
  refine congrArg (Program.bind _) (funext fun saved => ?_)
  simp only [bind_pure]
  by_cases failed : saved.value.length < 0
  · rw [if_pos failed]
    have lost : (viewed saved).value = .missing ∨
        (viewed saved).value = .unreadable := by
      simp only [viewed, Filled.view, if_pos failed]
      split
      · exact .inl rfl
      · exact .inr rfl
    rcases lost with lost | lost
    · rw [lost]
      rfl
    · rw [lost]
      rfl
  · rw [if_neg failed]
    have found : (viewed saved).value =
        .whole (saved.value.buffer.take saved.value.length.toNat) := by
      have notMissing : saved.value.length ≠ -1 := by omega
      simp only [viewed, Filled.view, if_neg notMissing, if_neg failed]
    rw [found]
    rfl

theorem cardfileRead_view (path : Path) (max : Nat) (buffer : Buffer) :
    (cardfileReadInto path max buffer >>= fun read => pure (viewed read)) =
      cardfileRead path max := by
  rw [cardfileRead, ← readFile_view path max buffer]
  refine (bind_assoc _ _ _).trans ((bind_assoc _ _ _).trans ?_).symm
  refine congrArg (Program.bind _) (funext fun read => ?_)
  simp only [bind_pure]
  by_cases missing : read.value.length = -1
  · have absent : (viewed read).value = .missing := view_missing missing
    rw [absent, if_neg (not_not.mpr missing)]
    exact (recover_view path max read.value.buffer).symm
  · have present := view_present missing
    rw [if_pos missing, bind_pure]
    cases seen : (viewed read).value with
    | missing => exact absurd seen present
    | whole content => rfl
    | unreadable => rfl

theorem viewed_run
    (run : Returns (Step faults) (cardfileReadInto path max buffer) card read
      last) :
    Returns (Step faults) (cardfileRead path max) card (viewed read) last := by
  rw [← cardfileRead_view path max buffer]
  exact returns_bind_iff.mpr ⟨read, last, run, .done⟩

theorem exists_read_into (room : 0 < max) (path : Path) (buffer : Buffer)
    (card : MemoryCard) :
    ∃ read last,
      Returns (Step noFaults) (cardfileReadInto path max buffer) card read
        last := by
  have ensured : Ensures (Step noFaults) _ _ _ _ :=
    cardfileRead_run path room card
  obtain ⟨value, last, run⟩ := ensured.exists_returns
  rw [← cardfileRead_view path max buffer] at run
  obtain ⟨read, between, own, rest⟩ := returns_bind_iff.mp run
  exact ⟨read, between, own⟩

/-! ## After a write -/

theorem moveIntoPlace_same {fd : Nat} {path : Path} {reported : Reported Int}
    (run : Returns (Step faults) (moveIntoPlace fd path path) card reported
      last) : reported.value = -1 := by
  obtain ⟨_, closed, _, rest⟩ := returns_bind_iff.mp run
  obtain ⟨_, removed, _, rest⟩ := returns_bind_iff.mp rest
  obtain ⟨moved, between, renamed, rest⟩ := returns_bind_iff.mp rest
  have failed : moved < 0 := by
    cases renamed with
    | call made rest =>
        cases rest with
        | done =>
            rcases step_rename made with ⟨content, there, free, _⟩ | ⟨failed, _⟩
            · rw [there] at free
              contradiction
            · exact failed
  rw [if_pos failed] at rest
  cases rest with
  | done => rfl

/-- A path so long that its temporary name is the path itself is not written. -/
theorem cardfileWrite_distinct {text : List UInt8} {lastError : String}
    (saved : Returns (Step faults) (cardfileWrite path text) card
      ⟨0, lastError⟩ last) : tempName path ≠ path := by
  intro same
  obtain ⟨opened, between, _, rest⟩ := returns_bind_iff.mp saved
  rw [same] at rest
  cases opened with
  | none => cases rest
  | some fd =>
      obtain ⟨all, after, _, rest⟩ := returns_bind_iff.mp rest
      cases all with
      | true => exact absurd (moveIntoPlace_same rest) (by simp)
      | false => cases rest

theorem written_content {text : List UInt8} {lastError : String}
    (saved : Returns (Step faults) (cardfileWrite path text) card
      ⟨0, lastError⟩ last) : last.files path = some text := by
  have ensured : Ensures (Step faults) _ _ _ _ :=
    cardfileWrite_run (cardfileWrite_distinct saved) card text
  rcases ensured.returns saved with kept | failed
  · exact kept.2
  · exact absurd failed.1 (by decide : (0 : Int) ≠ -1)

theorem Inside.whole {filled : Filled} {content : List UInt8}
    (inside : Inside max buffer filled) (seen : filled.view = .whole content) :
    filled.length = content.length ∧
      filled.buffer.take content.length = content ∧
      filled.buffer content.length = 0 := by
  rcases inside.known with missing | failed | ⟨length, same, _, ended⟩
  · rw [view_missing missing] at seen
    contradiction
  · rw [Filled.view, failed] at seen
    contradiction
  · have held : filled = ⟨length, filled.buffer⟩ := by rw [← same]
    rw [held, view_whole] at seen
    have text := FileRead.whole.inj seen
    have size : content.length = length := by rw [← text, Buffer.take_length]
    rw [size]
    exact ⟨same, text, ended⟩

theorem Inside.unreadable {filled : Filled} (inside : Inside max buffer filled)
    (seen : filled.view = .unreadable) : filled.length = -2 := by
  rcases inside.known with missing | failed | ⟨length, same, _⟩
  · rw [view_missing missing] at seen
    contradiction
  · exact failed
  · have held : filled = ⟨length, filled.buffer⟩ := by rw [← same]
    rw [held, view_whole] at seen
    contradiction

theorem short_transfers_survive {path : Path} {text : List UInt8}
    {card written : MemoryCard} {lastError : String}
    (saved : Returns (Step noFaults) (cardfileWrite path text) card
      ⟨0, lastError⟩ written) {max : Nat} (room : 1 ≤ max) (buffer : Buffer) :
    (∃ read last, Returns (Step noFaults) (cardfileReadInto path max buffer)
        written read last) ∧
      ∀ read last, Returns (Step noFaults) (cardfileReadInto path max buffer)
          written read last →
        (text.length < max → read.value.length = text.length ∧
          read.value.buffer.take text.length = text ∧
          read.value.buffer text.length = 0) ∧
        (max ≤ text.length → read.value.length = -2) ∧
        ∀ index, max ≤ index → read.value.buffer index = buffer index := by
  refine ⟨exists_read_into room path buffer written, fun read last run => ?_⟩
  have inside := cardfileRead_inside room run
  have ensured : Ensures (Step noFaults) _ _ _ _ :=
    cardfileRead_found (written_content saved) room
  have seen : read.value.view =
      if text.length < max then .whole text else .unreadable :=
    ensured.returns (viewed_run run)
  refine ⟨fun short => ?_, fun large => ?_, inside.untouched⟩
  · exact inside.whole (seen.trans (if_pos short))
  · exact inside.unreadable (seen.trans (if_neg (not_lt.mpr large)))

/-- A file of three bytes on a blank card, read with room for three. -/
theorem three_bytes_in_three : ∃ card lastError read last,
    Returns (Step noFaults) (cardfileWrite [0x66] [1, 2, 3]) blankCard
      ⟨0, lastError⟩ card ∧
    Returns (Step noFaults) (cardfileReadInto [0x66] 3 fun _ => 7) card read
      last ∧ read.value.length = -2 := by
  have distinct : tempName [0x66] ≠ [0x66] := by decide +kernel
  have ensured : Ensures (Step noFaults) _ _ _ _ :=
    cardfileWrite_run distinct blankCard [1, 2, 3]
  obtain ⟨⟨value, lastError⟩, card, saved⟩ := ensured.exists_returns
  have zero : value = 0 := by
    rcases ensured.returns saved with ⟨done, _⟩ | ⟨_, faulty⟩
    · exact done
    · exact absurd faulty not_faulty
  rw [zero] at saved
  obtain ⟨⟨read, last, run⟩, every⟩ :=
    short_transfers_survive saved (by decide : 1 ≤ 3) fun _ => 7
  exact ⟨card, lastError, read, last, saved, run,
    (every read last run).2.1 (by decide)⟩

end Pspssh.Card
