import Pspssh.Hosts.Edits
import Pspssh.Known.HostKey
import Pspssh.Known.RoundTrip

/-! What becomes of a file that could not be read. -/

namespace Pspssh.Card

open Pspssh.Data.Program

theorem files_stay {κ μ : Type} {run : κ → μ → Io (α × μ)}
    {allowed : κ → α → Prop} {faults : IoCall → Prop} {first last : MemoryCard}
    {start final : μ} (Empty : μ → Prop)
    (sequence : Sequence (Step faults) run allowed first start last final)
    (empty : Empty start)
    (step : ∀ call value memory next card after, Empty memory →
      allowed call value →
      Returns (Step faults) (run call memory) card (value, next) after →
      after.files = card.files ∧ Empty next) :
    last.files = first.files := by
  have kept : last.files = first.files ∧ Empty final := by
    refine sequence.invariant
      (fun card memory => card.files = first.files ∧ Empty memory)
      ⟨rfl, empty⟩ ?_
    intro call value card memory after next before kind made
    obtain ⟨same, still⟩ := step _ _ _ _ _ _ before.2 kind made
    exact ⟨same.trans before.1, still⟩
  exact kept.1

end Pspssh.Card

namespace Pspssh.Hosts

open Pspssh.Data
open Pspssh.Data.Program
open Pspssh.Card

def HostCall.KeepsOut : HostCall → Int → Prop
  | .load, value => value = -1
  | .add entry, _ => hostsProblem entry ≠ none
  | .replace _ _, _ => True
  | .remove _, _ => True

theorem outside_empty {hosts : HostList} {index : Int}
    (empty : hosts.entries.count = 0) : index < 0 ∨ index ≥ hosts.entries.count := by
  rw [empty]
  exact lt_or_ge index 0

theorem exists_add {hosts : HostList} {entry : HostEntry}
    (accepted : hostsProblem (some entry) = none)
    (room : hosts.entries.count < hostsMax) (card : MemoryCard) :
    ∃ value added last,
      Returns (Step noFaults) (hostsAdd (some entry) hosts) card (value, added)
        last ∧
      last.files hostsPath = some (listText added.entries.toList) := by
  obtain ⟨added, last, run⟩ := exists_save
    { hosts with entries := hosts.entries.push entry room } card
  obtain ⟨same, ⟨_, present⟩ | ⟨_, _, faulty⟩⟩ :=
    (save_run _ card).returns run
  · dsimp only at same present
    refine ⟨added.entries.count - 1, added, last, ?_, by rw [same, present]⟩
    rw [hostsAdd, dif_pos room, accepted]
    exact returns_bind_iff.mpr ⟨_, _, run, .done⟩
  · exact faulty.elim

section Unread

variable [Libc] {faults : IoCall → Prop} {hosts after : HostList}
  {card saved : MemoryCard} {value : Int}

theorem hostsLoad_failed
    (run : Returns (Step faults) (hostsLoad hosts) card (-1, after) saved) :
    card.files hostsPath ≠ none ∧ saved.files = card.files ∧
      after.entries.count = 0 := by
  obtain ⟨⟨result, lastError⟩, middle, read, rest⟩ := returns_bind_iff.mp run
  cases result with
  | whole content => cases rest
  | missing =>
      obtain ⟨imported, last, _, rest⟩ := returns_bind_iff.mp rest
      cases rest
  | unreadable =>
      cases rest
      obtain ⟨there, same⟩ := cardfileRead_unreadable (by decide) read
      exact ⟨there, same, rfl⟩

theorem hostCall_keeps {call : HostCall} (empty : hosts.entries.count = 0)
    (kind : call.KeepsOut value)
    (run : Returns (Step faults) (call.run hosts) card (value, after) saved) :
    saved.files = card.files ∧ after.entries.count = 0 := by
  cases call with
  | load =>
      obtain rfl : value = -1 := kind
      exact (hostsLoad_failed run).2
  | add entry =>
      have room : hosts.entries.count < hostsMax := by
        rw [empty]
        decide
      dsimp only [HostCall.run, hostsAdd] at run
      rw [dif_pos room] at run
      split at run
      · rename_i accepted
        exact absurd accepted kind
      · cases run
        exact ⟨rfl, empty⟩
  | replace index entry =>
      dsimp only [HostCall.run, hostsReplace] at run
      rw [if_pos (outside_empty empty)] at run
      cases run
      exact ⟨rfl, empty⟩
  | remove index =>
      dsimp only [HostCall.run, hostsRemove] at run
      rw [if_pos (outside_empty empty)] at run
      cases run
      exact ⟨rfl, empty⟩

theorem unread_hosts_stay {last : MemoryCard} {final : HostList}
    (failed : Returns (Step faults) (hostsLoad hosts) card (-1, after) saved)
    (run : Sequence (Step faults) HostCall.run HostCall.KeepsOut saved after
      last final) :
    card.files hostsPath ≠ none ∧ last.files hostsPath = card.files hostsPath := by
  obtain ⟨there, same, empty⟩ := hostsLoad_failed failed
  have later : last.files = saved.files :=
    files_stay (fun hosts => hosts.entries.count = 0) run empty
      fun _ _ _ _ _ _ empty kind made => hostCall_keeps empty kind made
  exact ⟨there, congrFun (later.trans same) hostsPath⟩

theorem exists_failed_load {text : List UInt8}
    (present : card.files hostsPath = some text)
    (large : fileMax - 1 ≤ text.length) (hosts : HostList) :
    ∃ loaded unread,
      Returns (Step noFaults) (hostsLoad hosts) card (-1, loaded) unread := by
  have ensured := cardfileRead_oversize present (by decide) large
  obtain ⟨⟨result, lastError⟩, unread, read⟩ := ensured.exists_returns
  obtain rfl : result = .unreadable := ensured.returns read
  exact ⟨_, unread, returns_bind_iff.mpr ⟨_, _, read, .done⟩⟩

end Unread

end Pspssh.Hosts

namespace Pspssh.Known

open Pspssh.Data
open Pspssh.Data.Program
open Pspssh.Card

def KnownCall.KeepsOut : KnownCall → Int → Prop
  | .load, value => value = -1
  | .remember address _ fingerprint, _ => ¬ Storable address fingerprint
  | .forget _ _, _ => True

section Unread

variable [Libc] {faults : IoCall → Prop} {known after : KnownHosts}
  {card saved : MemoryCard} {value : Int}

theorem knownhostsLoad_failed
    (run : Returns (Step faults) (knownhostsLoad known) card (-1, after) saved) :
    card.files knownPath ≠ none ∧ saved.files = card.files ∧
      after.entries.count = 0 := by
  obtain ⟨⟨result, lastError⟩, middle, read, rest⟩ := returns_bind_iff.mp run
  cases result with
  | whole content => cases rest
  | missing => cases rest
  | unreadable =>
      cases rest
      obtain ⟨there, same⟩ := cardfileRead_unreadable (by decide) read
      exact ⟨there, same, rfl⟩

theorem knownCall_keeps {call : KnownCall} (empty : known.entries.count = 0)
    (kind : call.KeepsOut value)
    (run : Returns (Step faults) (call.run known) card (value, after) saved) :
    saved.files = card.files ∧ after.entries.count = 0 := by
  cases call with
  | load =>
      obtain rfl : value = -1 := kind
      exact (knownhostsLoad_failed run).2
  | remember address port fingerprint =>
      obtain ⟨_, same, rfl⟩ | ⟨name, key, rfl, rfl, nameNonempty, keyNonempty,
        namePlain, keyPlain, _⟩ := remember_cases run
      · exact ⟨rfl, by rw [same, empty]⟩
      · exact absurd ⟨name, key, rfl, rfl, nameNonempty, keyNonempty, namePlain,
          keyPlain⟩ kind
  | forget address port =>
      rcases forget_cases run with ⟨same, rfl⟩ | ⟨name, index, _, found, _⟩
      · exact ⟨rfl, by rw [same, empty]⟩
      · have used := (Table.find_eq_some found).1
        rw [empty] at used
        exact absurd used (Nat.not_lt_zero index)

theorem unread_keys_stay {last : MemoryCard} {final : KnownHosts}
    (failed : Returns (Step faults) (knownhostsLoad known) card (-1, after) saved)
    (run : Sequence (Step faults) KnownCall.run KnownCall.KeepsOut saved after
      last final) :
    card.files knownPath ≠ none ∧ last.files knownPath = card.files knownPath := by
  obtain ⟨there, same, empty⟩ := knownhostsLoad_failed failed
  have later : last.files = saved.files :=
    files_stay (fun known => known.entries.count = 0) run empty
      fun _ _ _ _ _ _ empty kind made => knownCall_keeps empty kind made
  exact ⟨there, congrFun (later.trans same) knownPath⟩

theorem exists_failed_load {text : List UInt8}
    (present : card.files knownPath = some text)
    (large : fileMax - 1 ≤ text.length) (known : KnownHosts) :
    ∃ loaded unread,
      Returns (Step noFaults) (knownhostsLoad known) card (-1, loaded) unread := by
  have ensured := cardfileRead_oversize present (by decide) large
  obtain ⟨⟨result, lastError⟩, unread, read⟩ := ensured.exists_returns
  obtain rfl : result = .unreadable := ensured.returns read
  exact ⟨_, unread, returns_bind_iff.mpr ⟨_, _, read, .done⟩⟩

end Unread

end Pspssh.Known

namespace Pspssh

open Pspssh.Data
open Pspssh.Data.Program
open Pspssh.Card

/-- In every run of calls after a failed load of either store, in which no load
succeeds and neither a server nor a key is accepted, the file stays as it was. -/
theorem unread_files_stay [Libc] (faults : IoCall → Prop) :
    (∀ hosts card loaded unread last final,
      Returns (Step faults) (Hosts.hostsLoad hosts) card (-1, loaded) unread →
      Sequence (Step faults) Hosts.HostCall.run Hosts.HostCall.KeepsOut unread
        loaded last final →
      card.files Hosts.hostsPath ≠ none ∧
        last.files Hosts.hostsPath = card.files Hosts.hostsPath) ∧
    ∀ known card loaded unread last final,
      Returns (Step faults) (Known.knownhostsLoad known) card (-1, loaded)
        unread →
      Sequence (Step faults) Known.KnownCall.run Known.KnownCall.KeepsOut unread
        loaded last final →
      card.files Known.knownPath ≠ none ∧
        last.files Known.knownPath = card.files Known.knownPath :=
  ⟨fun _ _ _ _ _ _ failed run => Hosts.unread_hosts_stay failed run,
    fun _ _ _ _ _ _ failed run => Known.unread_keys_stay failed run⟩

/-- A card with one file, which is larger than either loader has room for. -/
def oversized (path : Path) : MemoryCard :=
  blankCard.put path (some (List.replicate Hosts.fileMax 0x61))

theorem oversized_files (path : Path) :
    (oversized path).files path =
      some (List.replicate Hosts.fileMax 0x61) :=
  Function.update_self path _ _

theorem oversized_length :
    Hosts.fileMax - 1 ≤ (List.replicate Hosts.fileMax (0x61 : UInt8)).length := by
  rw [List.length_replicate]
  exact Nat.sub_le _ 1

theorem unread_files_stay_oversized :
    letI := saturating
    (∃ loaded unread value final last,
      Returns (Step noFaults) (Hosts.hostsLoad (Hosts.oneHost "pi"))
        (oversized Hosts.hostsPath) (-1, loaded) unread ∧
      Returns (Step noFaults)
        (do
          let (_, refused) ← Hosts.hostsAdd (some Hosts.hostsBlank) loaded
          Hosts.hostsRemove 0 refused) unread (value, final) last ∧
      last.files Hosts.hostsPath =
        (oversized Hosts.hostsPath).files Hosts.hostsPath) ∧
    ∃ loaded unread value final last,
      Returns (Step noFaults) (Known.knownhostsLoad Known.oneKey)
        (oversized Known.knownPath) (-1, loaded) unread ∧
      Returns (Step noFaults)
        (do
          let (_, refused) ←
            Known.knownhostsRemember (some (cString (ascii "pi"))) 22 none loaded
          Known.knownhostsForget (some (cString (ascii "pi"))) 22 refused) unread
            (value, final) last ∧
      last.files Known.knownPath =
        (oversized Known.knownPath).files Known.knownPath := by
  let libc : Libc := saturating
  constructor
  · obtain ⟨loaded, unread, failed⟩ := Hosts.exists_failed_load
      (oversized_files Hosts.hostsPath) oversized_length (Hosts.oneHost "pi")
    have empty : loaded.entries.count = 0 := (Hosts.hostsLoad_failed failed).2.2
    have room : loaded.entries.count < Hosts.hostsMax := by
      rw [empty]
      decide
    have refused : (Hosts.HostCall.add (some Hosts.hostsBlank)).KeepsOut (-1) :=
      Option.some_ne_none "a host needs an address"
    have added : Returns (Step noFaults)
        ((Hosts.HostCall.add (some Hosts.hostsBlank)).run loaded) unread
        (-1, loaded.fail "a host needs an address") unread := by
      rw [Hosts.HostCall.run, Hosts.hostsAdd, dif_pos room]
      exact .done
    have unlisted : (Hosts.HostCall.remove 0).KeepsOut (-1) := trivial
    have removed : Returns (Step noFaults)
        ((Hosts.HostCall.remove 0).run (loaded.fail "a host needs an address")) unread
        (-1, loaded.fail "that host is no longer in the list") unread := by
      have outside : (0 : Int) < 0 ∨ (0 : Int) ≥
          (loaded.fail "a host needs an address").entries.count :=
        Hosts.outside_empty empty
      rw [Hosts.HostCall.run, Hosts.hostsRemove, if_pos outside]
      exact .done
    exact ⟨_, _, _, _, _, failed,
      returns_bind_iff.mpr ⟨_, _, added, removed⟩,
      ((unread_files_stay noFaults).1 _ _ _ _ _ _ failed
        (.next (.next .nil refused added) unlisted removed)).2⟩
  · obtain ⟨loaded, unread, failed⟩ := Known.exists_failed_load
      (oversized_files Known.knownPath) (oversized_length.trans' (by decide))
      Known.oneKey
    have refused : (Known.KnownCall.remember (some (cString (ascii "pi"))) 22
        none).KeepsOut (-1) := by
      intro found
      obtain ⟨_, key, _, absent, _⟩ := found
      cases absent
    have remembered : Returns (Step noFaults)
        ((Known.KnownCall.remember (some (cString (ascii "pi"))) 22 none).run
          loaded) unread
        (-1, loaded.fail "there is nothing to remember") unread := .done
    have empty : loaded.entries.count = 0 := (Known.knownhostsLoad_failed failed).2.2
    have missing : Known.find (cString (ascii "pi")) 22
        (loaded.fail "there is nothing to remember") = none := by
      rw [Known.find, Table.find]
      exact congrArg (fun count => (List.range count).find? _) empty
    have unlisted : (Known.KnownCall.forget (some (cString (ascii "pi"))) 22).KeepsOut
        0 := trivial
    have forgotten : Returns (Step noFaults)
        ((Known.KnownCall.forget (some (cString (ascii "pi"))) 22).run
          (loaded.fail "there is nothing to remember")) unread
        (0, loaded.fail "there is nothing to remember") unread := by
      rw [Known.KnownCall.run, Known.knownhostsForget, missing]
      exact .done
    exact ⟨_, _, _, _, _, failed,
      returns_bind_iff.mpr ⟨_, _, remembered, forgotten⟩,
      ((unread_files_stay noFaults).2 _ _ _ _ _ _ failed
        (.next (.next .nil refused remembered) unlisted forgotten)).2⟩

/-- A server added after a failed load takes the place of all in the file. -/
theorem added_over_unread :
    letI := saturating
    let server := (Hosts.oneHost "pi").entries.slots 0
    ¬ ∀ loaded unread value added last,
      Returns (Step noFaults) (Hosts.hostsLoad (Hosts.oneHost ""))
        (oversized Hosts.hostsPath) (-1, loaded) unread →
      Returns (Step noFaults) (Hosts.hostsAdd (some server) loaded) unread
        (value, added) last →
      last.files Hosts.hostsPath =
        (oversized Hosts.hostsPath).files Hosts.hostsPath := by
  let libc : Libc := saturating
  intro server stays
  obtain ⟨loaded, unread, failed⟩ := Hosts.exists_failed_load
    (oversized_files Hosts.hostsPath) oversized_length (Hosts.oneHost "")
  have room : loaded.entries.count < Hosts.hostsMax := by
    rw [(Hosts.hostsLoad_failed failed).2.2]
    decide
  have accepted : Hosts.hostsProblem (some server) = none := by decide +kernel
  obtain ⟨value, added, last, run, written⟩ :=
    Hosts.exists_add accepted room unread
  have same := stays loaded unread value added last failed run
  rw [written, oversized_files, Option.some.injEq] at same
  have short := Hosts.listText_length added.entries
  rw [same, List.length_replicate] at short
  exact absurd short (by decide)

end Pspssh
