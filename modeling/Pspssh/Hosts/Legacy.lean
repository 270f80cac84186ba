import Pspssh.Card.Crash
import Pspssh.Hosts.Edits
import Pspssh.Hosts.Loaded

namespace Pspssh.Hosts

open Pspssh.Data
open Pspssh.Data.Program
open Pspssh.Card

/-! What the old configuration means once the list has been saved. -/

/-- The card and the list in memory, if there is one, at any point after a save:
calls may be cut off, and then the next start loads the list. -/
inductive Later [Libc] (saved : MemoryCard) (written : HostList) :
    MemoryCard → Option HostList → Prop where
  | saved : Later saved written saved (some written)
  | call {card after : MemoryCard} {hosts next : HostList} {call : HostCall}
      {value : Int} (earlier : Later saved written card (some hosts))
      (made : Returns (Step noFaults) (call.run hosts) card (value, next)
        after) :
      Later saved written after (some next)
  | cut {card stopped : MemoryCard} {hosts : HostList} {call : HostCall}
      (earlier : Later saved written card (some hosts))
      (made : Passes (Step noFaults) (call.run hosts) card stopped) :
      Later saved written stopped.restart none
  | start {card after : MemoryCard} {loaded : HostList} {value : Int}
      (earlier : Later saved written card none)
      (made : Returns (Step noFaults) (hostsLoad noHosts) card (value, loaded)
        after) :
      Later saved written after (some loaded)
  | startCut {card stopped : MemoryCard}
      (earlier : Later saved written card none)
      (made : Passes (Step noFaults) (hostsLoad noHosts) card stopped) :
      Later saved written stopped.restart none

/-- A list is on the card, under the file's own name or still under the
temporary one. -/
def OnCard (card : MemoryCard) : Prop :=
  ∃ text, text.length < fileMax - 1 ∧
    Holds (fileMax - 1) (card.files hostsPath) (card.files (tempName hostsPath))
      (some text)

/-- A list is on the card under the file's own name. -/
def InPlace (card : MemoryCard) : Prop :=
  ∃ text, text.length < fileMax - 1 ∧ card.files hostsPath = some text

theorem held_or {own spare : Option (List UInt8)} {max : Nat}
    {text : List UInt8} (holds : Holds max own spare (some text)) :
    own.or spare = some text := by
  cases own with
  | some bytes => exact holds.symm
  | none =>
      rcases holds with same | ⟨never, _⟩
      · exact same.symm
      · cases never

section Steps

variable {card : MemoryCard}

theorem InPlace.onCard (place : InPlace card) : OnCard card := by
  obtain ⟨text, short, own⟩ := place
  refine ⟨text, short, ?_⟩
  rw [own]
  exact rfl

theorem save_held (hosts : HostList) (place : InPlace card) :
    Ensures (Step noFaults) OnCard (fun _ after => InPlace after)
      (save hosts) card := by
  obtain ⟨old, oldShort, own⟩ := place
  have short := listText_length hosts.entries
  have distinct : tempName hostsPath ≠ hostsPath := by decide
  have onCard (cut : MemoryCard)
      (held : Holds (fileMax - 1) (cut.files hostsPath)
          (cut.files (tempName hostsPath)) (some old) ∨
        Holds (fileMax - 1) (cut.files hostsPath)
          (cut.files (tempName hostsPath))
          (some (listText hosts.entries.toList))) : OnCard cut := by
    rcases held with holds | holds
    · exact ⟨old, oldShort, holds⟩
    · exact ⟨_, short, holds⟩
  rw [save, gather_list]
  refine Ensures.bind ((cardfileWrite_held distinct own).mono onCard
    fun result after kept ended => ?_)
  obtain ⟨value, lastError⟩ := result
  obtain ⟨rfl, present⟩ := ended
  exact ⟨onCard after kept, _, short, present⟩

theorem edit_held (edit : HostEdit) (hosts : HostList) (place : InPlace card) :
    Ensures (Step noFaults) OnCard (fun _ after => InPlace after)
      (edit.run hosts) card := by
  obtain ⟨_, message, run⟩ | ⟨entries, _, run⟩ := edit_run edit hosts
  · rw [run]
    exact ⟨place.onCard, place⟩
  · rw [run]
    refine Ensures.bind ((save_held _ place).mono (fun _ kept => kept)
      fun saved after kept still => ?_)
    exact ⟨kept, still⟩

variable [Libc]

theorem hostsLoad_held (start : HostList) {text : List UInt8}
    (short : text.length < fileMax - 1)
    (holds : Holds (fileMax - 1) (card.files hostsPath)
      (card.files (tempName hostsPath)) (some text)) :
    Ensures (Step noFaults) OnCard
      (fun loaded after => InPlace after ∧ loaded.1 = 0 ∧
        loaded.2.entries.toList = listed text)
      (hostsLoad start) card := by
  refine Ensures.bind ((cardfileRead_held short holds).mono
    (fun cut held => ⟨text, short, held⟩) fun read after kept ended => ?_)
  obtain ⟨value, lastError⟩ := read
  obtain ⟨rfl, own⟩ := ended
  refine ⟨⟨text, short, kept⟩, ⟨text, short, own⟩, rfl, ?_⟩
  change (parse (cString text).text _).toList = _
  rw [toList_parse]
  rfl

theorem OnCard.load (there : OnCard card) (start : HostList) :
    Ensures (Step noFaults) OnCard (fun _ after => InPlace after)
      (hostsLoad start) card := by
  obtain ⟨text, short, holds⟩ := there
  exact (hostsLoad_held start short holds).mono (fun _ kept => kept)
    fun _ _ _ ended => ended.1

theorem InPlace.call (place : InPlace card) (call : HostCall)
    (hosts : HostList) :
    Ensures (Step noFaults) OnCard (fun _ after => InPlace after)
      (call.run hosts) card := by
  obtain run | ⟨edit, run⟩ := hostCall_cases call hosts
  · rw [run]
    exact place.onCard.load hosts
  · rw [run]
    exact edit_held edit hosts place

end Steps

/-! ## Runs -/

section Runs

variable {faults : IoCall → Prop} {hosts written : HostList}
  {before saved card : MemoryCard} {memory : Option HostList}

theorem save_inPlace
    (run : Returns (Step faults) (save hosts) before (0, written) saved) :
    InPlace saved := by
  obtain ⟨_, ⟨_, present⟩ | ⟨failed, _⟩⟩ := (save_run hosts before).returns run
  · exact ⟨_, listText_length hosts.entries, present⟩
  · cases failed

variable [Libc]

theorem Later.onCard (place : InPlace saved)
    (later : Later saved written card memory) :
    OnCard card ∧ (memory ≠ none → InPlace card) := by
  induction later with
  | saved => exact ⟨place.onCard, fun _ => place⟩
  | @call _ _ hosts _ call _ _ made ih =>
      have still := ((ih.2 (Option.some_ne_none hosts)).call call hosts).returns made
      exact ⟨still.onCard, fun _ => still⟩
  | @cut _ _ hosts call _ made ih =>
      have there := ((ih.2 (Option.some_ne_none hosts)).call call hosts).passes made
      exact ⟨there, fun running => absurd rfl running⟩
  | start _ made ih =>
      have still := (ih.1.load noHosts).returns made
      exact ⟨still.onCard, fun _ => still⟩
  | startCut _ made ih =>
      have there := (ih.1.load noHosts).passes made
      exact ⟨there, fun running => absurd rfl running⟩

/-- Once a list has been saved every load gives the one that is on the card, in
the file or else in the temporary one, and nothing of the old configuration. -/
theorem legacy_imported_once
    (save : Returns (Step faults) (save hosts) before (0, written) saved)
    (later : Later saved written card memory) (start : HostList) :
    (∃ loaded after,
      Returns (Step noFaults) (hostsLoad start) card loaded after) ∧
    ∀ loaded after, Returns (Step noFaults) (hostsLoad start) card loaded after →
      ∃ text,
        (card.files hostsPath).or (card.files (tempName hostsPath)) =
            some text ∧
          loaded.1 = 0 ∧ loaded.2.entries.toList = listed text := by
  obtain ⟨text, short, holds⟩ := (later.onCard (save_inPlace save)).1
  have ensured := hostsLoad_held start short holds
  refine ⟨ensured.exists_returns, fun loaded after load => ?_⟩
  obtain ⟨_, value, list⟩ := ensured.returns load
  exact ⟨text, held_or holds, value, list⟩

end Runs

theorem exists_hostsRemove (hosts : HostList) {card : MemoryCard}
    (place : InPlace card) (index : Int) :
    ∃ value next after, Returns (Step noFaults)
      (hostsRemove index hosts) card (value, next) after := by
  obtain ⟨⟨value, next⟩, after, run⟩ :=
    (edit_held (.remove index) hosts place).exists_returns
  exact ⟨value, next, after, run⟩

def legacyCard : MemoryCard :=
  blankCard.put legacyPath (some (ascii "host=10.0.0.2\nuser=root\n"))

/-- The old configuration is imported and its list saved, the only server is
removed, then the console is started again. -/
theorem legacy_imported_once_emptied :
    letI := saturating
    ∃ old before written saved value next card,
      Returns (Step noFaults) (hostsLoad noHosts) legacyCard (0, old) before ∧
      old.entries.toList ≠ [] ∧
      Returns (Step noFaults) (save old) before (0, written) saved ∧
      Returns (Step noFaults) (hostsRemove 0 written) saved (value, next) card ∧
      let again := card.restart
      Later saved written again none ∧
      (∃ loaded after, Returns (Step noFaults) (hostsLoad noHosts) again loaded
        after) ∧
      ∀ loaded after,
        Returns (Step noFaults) (hostsLoad noHosts) again loaded after →
        ∃ text,
          (again.files hostsPath).or (again.files (tempName hostsPath)) =
              some text ∧
            loaded.1 = 0 ∧ loaded.2.entries.toList = listed text := by
  let libc : Libc := saturating
  have ensured := hostsLoad_result noHosts legacyCard
  obtain ⟨⟨zero, old⟩, before, load⟩ := ensured.exists_returns
  have result := ensured.returns load
  have value : zero = 0 :=
    (congrArg Prod.fst result).trans (by decide +kernel : (loadResult _).1 = 0)
  have imported : old.entries.toList ≠ [] := by
    have some_listed : (loadResult legacyCard.files).2 ≠ [] := by decide +kernel
    exact fun none => some_listed ((congrArg Prod.snd result).symm.trans none)
  subst value
  obtain ⟨written, saved, run⟩ := exists_save old before
  obtain ⟨value, next, card, removed⟩ :=
    exists_hostsRemove written (save_inPlace run) 0
  have emptied : Later saved written card (some next) :=
    Later.saved.call (show Returns _ ((HostCall.remove 0).run written) _ _ _
      from removed)
  have later : Later saved written card.restart none :=
    emptied.cut (show Passes _ (HostCall.load.run next) _ _ from .here)
  exact ⟨old, before, written, saved, value, next, card, load, imported, run, removed,
    later, legacy_imported_once run later noHosts⟩

end Pspssh.Hosts
