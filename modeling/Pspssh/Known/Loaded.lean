import Pspssh.Known.Edits
import Pspssh.Known.RoundTrip

namespace Pspssh.Known

open Pspssh.Data
open Pspssh.Data.Program
open Pspssh.Card

/-! Which keys a load brings back, and which are gone once forgotten. -/

section Loading

variable [Libc]

/-- The list that the content of the file describes. -/
def listed (content : List UInt8) : List KnownEntry :=
  ((lines (cString content).text).filterMap lineEntry).take knownMax

/-- What `knownhosts_load` gives and the list that it leaves when every call
works. -/
def loadResult (files : Path → Option (List UInt8)) : Int × List KnownEntry :=
  match readResult (fileMax - 1) (files knownPath) (files (tempName knownPath)) with
  | .whole content => (0, listed content)
  | .unreadable => (-1, [])
  | .missing => (0, [])

theorem knownhostsLoad_result (start : KnownHosts) (card : MemoryCard) :
    Ensures (Step noFaults) (fun _ => True)
      (fun loaded _ =>
        (loaded.1, loaded.2.entries.toList) = loadResult card.files)
      (knownhostsLoad start) card := by
  unfold loadResult
  refine Ensures.bind ((cardfileRead_result knownPath (by decide) card).mono
    (fun _ _ => trivial) fun read after _ ended => ?_)
  rw [← ended.1]
  cases read.value with
  | unreadable => exact ⟨trivial, rfl⟩
  | missing => exact ⟨trivial, rfl⟩
  | whole content =>
      refine ⟨trivial, ?_⟩
      change ((0 : Int), ((lines _).foldl takeLine _).toList) = _
      rw [Table.toList_foldl toList_takeLine]
      rfl

theorem loadResult_present {card : MemoryCard} {content : List UInt8} :
    loadResult (card.put knownPath (some content)).files =
      if content.length < fileMax - 1 then (0, listed content) else (-1, []) := by
  rw [loadResult, MemoryCard.files_put, Function.update_self, readResult]
  split_ifs <;> rfl

end Loading

/-! ## Records -/

section Records

variable [Libc]

/-- The records of the file that can be stored as they are written. -/
def wellFormed (content : List UInt8) : List KnownEntry :=
  (lines content).filterMap fun line => if 0 ∈ line then none else lineEntry line

/-- The lines of the file that the loader takes for records. -/
def records (content : List UInt8) : List KnownEntry :=
  (lines content).filterMap lineEntry

theorem listed_of_noNul {content : List UInt8} (noNul : 0 ∉ content) :
    listed content = (records content).take knownMax := by
  rw [listed, cString_text noNul, records]

theorem wellFormed_of_noNul {content : List UInt8} (noNul : 0 ∉ content) :
    wellFormed content = records content := by
  refine List.filterMap_congr fun line member => if_neg fun nul => ?_
  exact noNul (mem_lines member 0 nul).1

/-- A load loses no key, and refuses a file that it cannot hold, exactly if the
file is over the limit in bytes, or has no NUL and no more records than there are
places. -/
theorem no_key_dropped_iff (card : MemoryCard) (content : List UInt8)
    (start : KnownHosts) :
    (∃ loaded after, Returns (Step noFaults) (knownhostsLoad start)
      (card.put knownPath (some content)) loaded after) ∧
    ∀ loaded after,
      Returns (Step noFaults) (knownhostsLoad start)
        (card.put knownPath (some content)) loaded after →
      ((loaded.1 = 0 → ∀ name port entry,
            (wellFormed content).find? (·.IsFor (CString.text name) port) =
              some entry →
            knownhostsLookup (some name) port loaded.2 =
              some entry.fingerprint.toCString) ∧
          (knownMax < (records content).length ∨ 0 ∈ content →
            loaded.1 = -1 ∧ loaded.2.entries.toList = []) ↔
        fileMax - 1 ≤ content.length ∨
          0 ∉ content ∧ (records content).length ≤ knownMax) := by
  have ensured := knownhostsLoad_result start (card.put knownPath (some content))
  refine ⟨ensured.exists_returns, fun loaded after load => ?_⟩
  have result := ensured.returns load
  rw [loadResult_present] at result
  simp only [knownhostsLookup_eq]
  refine (complete_iff (fun list => ∀ name port entry,
    (wellFormed content).find? (·.IsFor (CString.text name) port) = some entry →
      (list.find? (·.IsFor name.text port)).map (·.fingerprint.toCString) =
        some entry.fingerprint.toCString)
    result fun fits name port entry found => ?_).trans ?_
  · obtain ⟨few, noNul⟩ := not_or.mp fits
    rw [wellFormed_of_noNul noNul] at found
    rw [listed_of_noNul noNul, List.take_of_length_le (Nat.not_lt.mp few), found,
      Option.map_some]
  · rw [not_or, Nat.not_lt, Nat.not_lt, and_comm]

theorem records_listText {entries : List KnownEntry}
    (sound : ∀ entry ∈ entries, entry.Sound)
    (loads : ∀ entry ∈ entries, Loads entry.address.text entry.port) :
    records (listText entries) = entries := by
  rw [records, lines_listText sound, List.filterMap_map]
  refine (List.filterMap_congr fun entry member => ?_).trans
    List.filterMap_some
  rw [Function.comp_apply, lineEntry_line (sound entry member),
    if_pos (loads entry member)]

theorem exists_load {entries : List KnownEntry}
    (sound : ∀ entry ∈ entries, entry.Sound)
    (loads : ∀ entry ∈ entries, Loads entry.address.text entry.port)
    (short : entries.length * 180 < fileMax - 1) (card : MemoryCard)
    (start : KnownHosts) :
    ∃ loaded after,
      Returns (Step noFaults) (knownhostsLoad start)
        (card.put knownPath (some (listText entries))) (0, loaded) after ∧
      loaded.entries.toList = entries.take knownMax := by
  have ensured := knownhostsLoad_result start
    (card.put knownPath (some (listText entries)))
  obtain ⟨⟨value, loaded⟩, after, load⟩ := ensured.exists_returns
  have result := ensured.returns load
  have length : (listText entries).length < fileMax - 1 := by
    have total := length_flatten_le (record_length entries)
    rw [List.length_map] at total
    exact total.trans_lt short
  rw [loadResult_present, if_pos length, listed_of_noNul listText_noNul,
    records_listText sound loads, Prod.mk.injEq] at result
  obtain ⟨rfl, list⟩ := result
  exact ⟨loaded, after, load, list⟩

/-- Of more records than there are places the last are not known, and the load
succeeds. -/
theorem exists_dropping_load {entries : List KnownEntry}
    (sound : ∀ entry ∈ entries, entry.Sound)
    (loads : ∀ entry ∈ entries, Loads entry.address.text entry.port)
    (short : entries.length * 180 < fileMax - 1) {name : CString} {port : Int32}
    (lost : (entries.take knownMax).find? (·.IsFor name.text port) = none)
    (card : MemoryCard) (start : KnownHosts) :
    let content := listText entries
    ∃ loaded after,
      Returns (Step noFaults) (knownhostsLoad start)
        (card.put knownPath (some content)) loaded after ∧ loaded.1 = 0 ∧
      wellFormed content = entries ∧
      knownhostsLookup (some name) port loaded.2 = none := by
  intro content
  obtain ⟨loaded, after, load, list⟩ := exists_load sound loads short card start
  refine ⟨(0, loaded), after, load, rfl, ?_, ?_⟩
  · rw [wellFormed_of_noNul listText_noNul, records_listText sound loads]
  · rw [knownhostsLookup_eq, list, lost]
    rfl

end Records

/-! ## Forgotten keys -/

section Forgetting

variable {faults : IoCall → Prop} {known after : KnownHosts}
  {card saved : MemoryCard} {name : CString} {port : Int32}

theorem lookup_eq_none_iff :
    knownhostsLookup (some name) port known = none ↔
      known.entries.toList.find? (·.IsFor name.text port) = none := by
  rw [knownhostsLookup_eq, Option.map_eq_none_iff]

theorem forget_saves {value : Int} {index : Nat}
    (found : find name port known = some index)
    (made : Returns (Step faults) (knownhostsForget (some name) port known) card
      (value, after) saved) :
    Returns (Step faults) (save { known with
      entries := known.entries.removeAt index zeroEntry }) card (value, after)
      saved := by
  rwa [knownhostsForget, found] at made

theorem lookup_forgotten {value : Int} {index : Nat}
    (found : find name port known = some index)
    (made : Returns (Step faults) (knownhostsForget (some name) port known) card
      (value, after) saved) :
    knownhostsLookup (some name) port after = none ↔
      (known.entries.toList.filter (·.IsFor name.text port)).length ≤ 1 := by
  rw [lookup_eq_none_iff, save_entries (forget_saves found made),
    Table.find?_removeAt_eq_none_iff found]

theorem exists_forget (name : CString) (port : Int32) (known : KnownHosts)
    (card : MemoryCard) :
    ∃ after saved, Returns (Step noFaults)
      (knownhostsForget (some name) port known) card (0, after) saved := by
  cases found : find name port known with
  | none =>
      rw [knownhostsForget, found]
      exact ⟨known, card, .done⟩
  | some index =>
      rw [knownhostsForget, found]
      exact exists_save { known with
        entries := known.entries.removeAt index zeroEntry } card

variable [Libc]

/-- A key that was found and forgotten is gone, at once and after a load, exactly
if the list had it once. -/
theorem forget_found {index : Nat} (reached : Reachable known)
    (found : find name port known = some index)
    (made : Returns (Step faults) (knownhostsForget (some name) port known) card
      (0, after) saved) (start : KnownHosts) :
    Ensures (Step noFaults) (fun _ => True)
      (fun loaded _ =>
        (knownhostsLookup (some name) port after = none ∧
            knownhostsLookup (some name) port loaded.2 = none ↔
          (known.entries.toList.filter (·.IsFor name.text port)).length ≤ 1))
      (knownhostsLoad start) saved := by
  have run : Returns (Step faults)
      ((KnownCall.forget (some name) port).run known) card (0, after) saved := made
  have sound := call_sound reached.sound run
  obtain ⟨same, ⟨_, present⟩ | ⟨failed, _⟩⟩ :=
    (save_run _ card).returns (forget_saves found made)
  · dsimp only at same present
    rw [← same] at present
    refine (load_saved sound present start).mono (fun _ _ => trivial)
      fun loaded _ _ ended => ?_
    rw [← lookup_forgotten found made]
    refine and_iff_left_of_imp fun gone => ?_
    rw [lookup_eq_none_iff] at gone ⊢
    rw [ended.2, find?_loaded, gone]
    split_ifs <;> rfl
  · cases failed

/-- A forgotten key is unknown, at once and after a load, exactly if the list
had it only once and, where it was not in the list, the file has it neither. -/
theorem forgotten_is_unknown_iff (reached : Reachable known)
    (made : Returns (Step faults) (knownhostsForget (some name) port known) card
      (0, after) saved) (start : KnownHosts) :
    (∃ loaded last,
      Returns (Step noFaults) (knownhostsLoad start) saved loaded last) ∧
    ∀ loaded last,
      Returns (Step noFaults) (knownhostsLoad start) saved loaded last →
      (knownhostsLookup (some name) port after = none ∧
          knownhostsLookup (some name) port loaded.2 = none ↔
        (known.entries.toList.filter (·.IsFor name.text port)).length ≤ 1 ∧
          (knownhostsLookup (some name) port known = none →
            (loadResult card.files).2.find? (·.IsFor name.text port) = none)) := by
  cases found : find name port known with
  | some index =>
      have ensured := forget_found reached found made start
      refine ⟨ensured.exists_returns, fun loaded last load => ?_⟩
      rw [ensured.returns load]
      refine (and_iff_left fun missing => ?_).symm
      rw [find_eq_none_iff.mpr missing] at found
      cases found
  | none =>
      have missing := find_eq_none_iff.mp found
      rw [knownhostsForget, found] at made
      cases made
      have ensured := knownhostsLoad_result start card
      refine ⟨ensured.exists_returns, fun loaded last load => ?_⟩
      have few : (known.entries.toList.filter (·.IsFor name.text port)).length ≤
          1 := by
        have nothing := List.find?_eq_none.mp (lookup_eq_none_iff.mp missing)
        rw [List.filter_eq_nil_iff.mpr nothing]
        exact Nat.zero_le 1
      rw [← ensured.returns load, ← lookup_eq_none_iff]
      exact ⟨fun gone => ⟨few, fun _ => gone.2⟩,
        fun file => ⟨missing, file.2 missing⟩⟩

end Forgetting

/-- The key of `pi` is remembered and forgotten. -/
theorem forgotten_is_unknown_pi :
    letI := saturating
    let pi := cString (ascii "pi")
    let key := cString (ascii "SHA256:one")
    ∃ known card after saved,
      Returns (Step noFaults)
        (knownhostsRemember (some pi) 22 (some key) noKnownHosts) blankCard
        (0, known) card ∧
      Returns (Step noFaults) (knownhostsForget (some pi) 22 known) card
        (0, after) saved ∧
      (∃ loaded last,
        Returns (Step noFaults) (knownhostsLoad noKnownHosts) saved loaded last) ∧
      ∀ loaded last,
        Returns (Step noFaults) (knownhostsLoad noKnownHosts) saved loaded last →
        (knownhostsLookup (some pi) 22 after = none ∧
            knownhostsLookup (some pi) 22 loaded.2 = none ↔
          (known.entries.toList.filter (·.IsFor pi.text 22)).length ≤ 1 ∧
            (knownhostsLookup (some pi) 22 known = none →
              (loadResult card.files).2.find? (·.IsFor pi.text 22) = none)) := by
  let libc : Libc := saturating
  intro pi key
  obtain ⟨known, card, made⟩ :=
    exists_remember pi key (rfl : find pi 22 noKnownHosts = none)
      (by decide) (by decide) (by decide +kernel) blankCard
  obtain ⟨after, saved, forgets⟩ := exists_forget pi 22 known card
  have run : Returns (Step noFaults)
      ((KnownCall.remember (some pi) 22 (some key)).run noKnownHosts) blankCard
      (0, known) card := made
  have reached : Reachable known := .call .start (returns_anyFault run)
  exact ⟨known, card, after, saved, made, forgets,
    forgotten_is_unknown_iff reached forgets noKnownHosts⟩

def twoKeys : List KnownEntry :=
  [remembered (cString (ascii "pi")) 22 (cString (ascii "SHA256:one")),
    remembered (cString (ascii "pi")) 22 (cString (ascii "SHA256:two"))]

theorem twice_listed_key_is_known :
    letI := saturating
    let pi := cString (ascii "pi")
    ¬ ∀ loaded card after saved,
      Returns (Step noFaults) (knownhostsLoad noKnownHosts)
        (blankCard.put knownPath (some (listText twoKeys))) (0, loaded) card →
      Returns (Step noFaults) (knownhostsForget (some pi) 22 loaded) card
        (0, after) saved →
      knownhostsLookup (some pi) 22 after = none := by
  let libc : Libc := saturating
  intro pi unknownAfter
  have sound : ∀ entry ∈ twoKeys, entry.Sound := by
    intro entry member
    simp only [twoKeys, List.mem_cons, List.not_mem_nil, or_false] at member
    rcases member with rfl | rfl
    · exact copied_sound _ (by decide) (by decide) (by decide +kernel)
        (by decide +kernel)
    · exact copied_sound _ (by decide) (by decide) (by decide +kernel)
        (by decide +kernel)
  have loads : ∀ entry ∈ twoKeys, Loads entry.address.text entry.port := by
    decide +kernel
  obtain ⟨loaded, card, load, list⟩ := exists_load sound loads (by decide) blankCard
    noKnownHosts
  obtain ⟨after, saved, forgets⟩ := exists_forget pi 22 loaded card
  have gone := unknownAfter loaded card after saved load forgets
  cases found : find pi 22 loaded with
  | none =>
      have absent := lookup_eq_none_iff.mp (find_eq_none_iff.mp found)
      rw [list] at absent
      revert absent
      decide +kernel
  | some index =>
      have once := (lookup_forgotten found forgets).mp gone
      rw [list] at once
      revert once
      decide +kernel

def manyKeys : List KnownEntry :=
  (List.range 49).map fun i =>
    remembered (cString (ascii "pi")) (Int32.ofNat (i + 1))
      (cString (ascii "SHA256:one"))

theorem manyKeys_sound : ∀ entry ∈ manyKeys, entry.Sound := by
  intro entry member
  obtain ⟨i, _, rfl⟩ := List.mem_map.mp member
  exact copied_sound _ (by decide) (by decide) (by decide +kernel)
    (by decide +kernel)

/-- Of forty-nine keys the last is not known after a load. -/
theorem forty_ninth_key_is_dropped :
    letI := saturating
    let content := listText manyKeys
    ¬ ∀ loaded after,
      Returns (Step noFaults) (knownhostsLoad noKnownHosts)
        (blankCard.put knownPath (some content)) loaded after →
      loaded.1 = 0 → ∀ name port entry,
        (wellFormed content).find? (·.IsFor (CString.text name) port) =
          some entry →
        knownhostsLookup (some name) port loaded.2 =
          some entry.fingerprint.toCString := by
  let libc : Libc := saturating
  intro content keepsAll
  have loads : ∀ entry ∈ manyKeys, Loads entry.address.text entry.port := by
    decide +kernel
  have lost : (manyKeys.take knownMax).find?
      (·.IsFor (cString (ascii "pi")).text 49) = none := by decide +kernel
  obtain ⟨entry, found⟩ : ∃ entry, manyKeys.find?
      (·.IsFor (cString (ascii "pi")).text 49) = some entry :=
    Option.isSome_iff_exists.mp (by decide +kernel)
  obtain ⟨loaded, after, load, value, all, missing⟩ := exists_dropping_load
    manyKeys_sound loads (by decide +kernel) lost blankCard noKnownHosts
  rw [← all] at found
  have kept := keepsAll loaded after load value _ _ _ found
  rw [missing] at kept
  cases kept

end Pspssh.Known
