import Pspssh.Hosts.RoundTrip

namespace Pspssh.Hosts

open Pspssh.Data
open Pspssh.Data.Program
open Pspssh.Card

/-! Which servers a load puts into the list. -/

section Accepted

variable [Libc] {faults : IoCall → Prop} {card last : MemoryCard}

theorem lineEntry_accepted {line : List UInt8} {entry : HostEntry}
    (read : lineEntry line = some entry) : hostsProblem (some entry) = none := by
  unfold lineEntry at read
  split_ifs at read
  unfold readEntry at read
  split at read
  · dsimp only at read
    split at read
    · cases read
    · rename_i accepted
      cases read
      exact not_not.mp accepted
  · cases read

theorem importLegacy_cases {hosts imported : HostList}
    {room : hosts.entries.count < hostsMax}
    (run : Returns (Step faults) (importLegacy hosts room) card imported last) :
    imported.entries.toList = hosts.entries.toList ∨
      ∃ entry, hostsProblem (some entry) = none ∧
        imported.entries.toList = hosts.entries.toList ++ [entry] := by
  obtain ⟨read, middle, _, run⟩ := returns_bind_iff.mp run
  obtain ⟨result, lastError⟩ := read
  cases result with
  | unreadable =>
      cases run
      exact .inl rfl
  | missing =>
      cases run
      exact .inl rfl
  | whole content =>
      dsimp only at run
      split at run
      · rename_i accepted
        obtain ⟨⟨value, written⟩, _, saves, ended⟩ := returns_bind_iff.mp run
        cases ended
        have same := ((save_run _ _).returns saves).1
        exact .inr ⟨_, accepted, by rw [same, Table.toList_push]⟩
      · cases run
        exact .inl rfl

theorem loaded_accepted {start loaded : HostList} {value : Int}
    (load : Returns (Step faults) (hostsLoad start) card (value, loaded) last) :
    ∀ entry ∈ loaded.entries.toList, hostsProblem (some entry) = none := by
  obtain ⟨read, middle, _, load⟩ := returns_bind_iff.mp load
  obtain ⟨result, lastError⟩ := read
  intro entry member
  cases result with
  | unreadable =>
      cases load
      exact absurd member List.not_mem_nil
  | whole content =>
      cases load
      rw [toList_parse] at member
      obtain ⟨line, _, read⟩ :=
        List.mem_filterMap.mp (List.mem_of_mem_take member)
      exact lineEntry_accepted read
  | missing =>
      obtain ⟨imported, between, imports, load⟩ := returns_bind_iff.mp load
      cases load
      rcases importLegacy_cases imports with same | ⟨added, accepted, same⟩
      · rw [same] at member
        exact absurd member List.not_mem_nil
      · rw [same, List.mem_append, List.mem_singleton] at member
        rcases member with old | rfl
        · exact absurd old List.not_mem_nil
        · exact accepted

end Accepted

/-! ## What a load gives -/

section Results

variable [Libc]

/-- The list that the content of the file describes. -/
def listed (content : List UInt8) : List HostEntry :=
  ((lines (cString content).text).filterMap lineEntry).take hostsMax

def imported : FileRead → List HostEntry
  | .whole content =>
      let entry := legacyEntry (cString content).text
      if hostsProblem (some entry) = none then [entry] else []
  | .missing => []
  | .unreadable => []

/-- What `hosts_load` gives and the list that it leaves when every call works. -/
def loadResult (files : Path → Option (List UInt8)) : Int × List HostEntry :=
  match readResult (fileMax - 1) (files hostsPath) (files (tempName hostsPath)) with
  | .whole content => (0, listed content)
  | .unreadable => (-1, [])
  | .missing =>
      (0, imported (readResult (fileMax - 1) (files legacyPath)
        (files (tempName legacyPath))))

theorem importLegacy_result {hosts : HostList} (empty : hosts.entries.toList = [])
    (room : hosts.entries.count < hostsMax) (card : MemoryCard) :
    Ensures (Step noFaults) (fun _ => True)
      (fun loaded _ => loaded.entries.toList =
        imported (readResult (fileMax - 1) (card.files legacyPath)
          (card.files (tempName legacyPath))))
      (importLegacy hosts room) card := by
  refine Ensures.bind ((cardfileRead_result legacyPath (by decide) card).mono
    (fun _ _ => trivial) fun read after _ ended => ?_)
  rw [← ended.1]
  cases read.value with
  | missing => exact ⟨trivial, empty⟩
  | unreadable => exact ⟨trivial, empty⟩
  | whole content =>
      dsimp only [imported]
      split
      · refine Ensures.bind ((save_run _ after).mono (fun _ _ => trivial)
          fun saved last _ ended => ?_)
        obtain ⟨value, written⟩ := saved
        have same := ended.1
        dsimp only at same
        refine ⟨trivial, ?_⟩
        change written.entries.toList = _
        rw [same, Table.toList_push, empty, List.nil_append]
      · exact ⟨trivial, empty⟩

theorem hostsLoad_result (start : HostList) (card : MemoryCard) :
    Ensures (Step noFaults) (fun _ => True)
      (fun loaded _ =>
        (loaded.1, loaded.2.entries.toList) = loadResult card.files)
      (hostsLoad start) card := by
  unfold loadResult
  refine Ensures.bind ((cardfileRead_result hostsPath (by decide) card).mono
    (fun _ _ => trivial) fun read after _ ended => ?_)
  obtain ⟨result, unmoved⟩ := ended
  rw [← result]
  cases found : read.value with
  | unreadable => exact ⟨trivial, rfl⟩
  | whole content =>
      refine ⟨trivial, ?_⟩
      change ((0 : Int), (parse (cString content).text _).toList) = _
      rw [toList_parse]
      rfl
  | missing =>
      have same := unmoved found
      refine Ensures.bind ((importLegacy_result rfl _ after).mono
        (fun _ _ => trivial) fun loaded last _ ended => ?_)
      refine ⟨trivial, ?_⟩
      rw [same] at ended
      exact congrArg (Prod.mk 0) ended

end Results

/-! ## Records -/

def fieldAt (line : List UInt8) (index : Nat) : List UInt8 :=
  (split 7 line).getD index []

/-- One of the texts in the line is longer than its place in an entry. -/
def Oversize (line : List UInt8) : Prop :=
  hostNameLen ≤ (fieldAt line 0).length ∨
    hostAddressLen ≤ (fieldAt line 1).length ∨
    hostUserLen ≤ (fieldAt line 3).length ∨
    hostPasswordLen ≤ (fieldAt line 4).length

instance : DecidablePred Oversize := fun _ =>
  inferInstanceAs (Decidable (_ ∨ _ ∨ _ ∨ _))

section Records

variable [Libc]

/-- A record that can be stored as it is written. -/
def WellFormed (line : List UInt8) : Prop :=
  0 ∉ line ∧ ¬ Oversize line ∧ lineEntry line ≠ none

instance : DecidablePred WellFormed := fun _ =>
  inferInstanceAs (Decidable (_ ∧ _ ∧ _))

/-- The lines of the file that the loader takes for records. -/
def records (content : List UInt8) : List HostEntry :=
  (lines content).filterMap lineEntry

theorem listed_of_noNul {content : List UInt8} (noNul : 0 ∉ content) :
    listed content = (records content).take hostsMax := by
  rw [listed, cString_text noNul, records]

theorem loadResult_present {card : MemoryCard} {content : List UInt8} :
    loadResult (card.put hostsPath (some content)).files =
      if content.length < fileMax - 1 then (0, listed content) else (-1, []) := by
  rw [loadResult, MemoryCard.files_put, Function.update_self, readResult]
  split_ifs <;> rfl

/-- A load loses no record, and refuses a file that it cannot hold, exactly if
the file is over the limit in bytes, or has no NUL and no more records than there
are places. -/
theorem no_host_dropped_iff (card : MemoryCard) (content : List UInt8)
    (start : HostList) :
    (∃ loaded after, Returns (Step noFaults) (hostsLoad start)
      (card.put hostsPath (some content)) loaded after) ∧
    ∀ loaded after,
      Returns (Step noFaults) (hostsLoad start)
        (card.put hostsPath (some content)) loaded after →
      ((loaded.1 = 0 →
            (((lines content).filter WellFormed).filterMap lineEntry).Sublist
              loaded.2.entries.toList) ∧
          (hostsMax < (records content).length ∨ 0 ∈ content →
            loaded.1 = -1 ∧ loaded.2.entries.toList = []) ↔
        fileMax - 1 ≤ content.length ∨
          0 ∉ content ∧ (records content).length ≤ hostsMax) := by
  have ensured := hostsLoad_result start (card.put hostsPath (some content))
  refine ⟨ensured.exists_returns, fun loaded after load => ?_⟩
  have result := ensured.returns load
  rw [loadResult_present] at result
  refine (complete_iff (List.Sublist _) result fun fits => ?_).trans ?_
  · obtain ⟨few, noNul⟩ := not_or.mp fits
    rw [listed_of_noNul noNul, List.take_of_length_le (Nat.not_lt.mp few), records]
    exact List.Sublist.filterMap _ List.filter_sublist
  · rw [not_or, Nat.not_lt, Nat.not_lt, and_comm]

end Records

theorem wellFormed_line [Libc] {entry : HostEntry}
    (accepted : hostsProblem (some entry) = none) (shown : ¬ entry.Hidden) :
    WellFormed entry.line := by
  refine ⟨line_noNul, ?_, ?_⟩
  · unfold Oversize fieldAt
    rw [split_line (allPlain_of_accepted accepted)]
    simp [entry.name.fits, entry.address.fits, entry.user.fits,
      entry.password.fits]
  · rw [lineEntry_line accepted, if_neg shown]
    exact Option.some_ne_none entry

/-- Of more records than there are places the last are not in the list, and the
load succeeds. -/
theorem exists_dropping_load [Libc] {entry : HostEntry} {count : Nat}
    (accepted : hostsProblem (some entry) = none) (shown : ¬ entry.Hidden)
    (more : hostsMax < count) (short : count * 240 < fileMax - 1)
    (card : MemoryCard) (start : HostList) :
    let content := listText (List.replicate count entry)
    ∃ loaded after,
      Returns (Step noFaults) (hostsLoad start)
        (card.put hostsPath (some content)) loaded after ∧ loaded.1 = 0 ∧
      ¬ (((lines content).filter WellFormed).filterMap lineEntry).Sublist
          loaded.2.entries.toList := by
  intro content
  have ensured := hostsLoad_result start (card.put hostsPath (some content))
  obtain ⟨loaded, after, load⟩ := ensured.exists_returns
  have result := ensured.returns load
  have length : content.length < fileMax - 1 := by
    have total := length_flatten_le (record_length (List.replicate count entry))
    rw [List.length_map, List.length_replicate] at total
    exact total.trans_lt short
  rw [loadResult_present, if_pos length, Prod.mk.injEq] at result
  refine ⟨loaded, after, load, result.1, fun kept => ?_⟩
  have all : ∀ other ∈ List.replicate count entry,
      hostsProblem (some other) = none := by
    intro other member
    rw [List.eq_of_mem_replicate member]
    exact accepted
  have every : (List.replicate count entry.line).filter WellFormed =
      List.replicate count entry.line := by
    refine List.filter_eq_self.mpr fun line member => ?_
    rw [List.eq_of_mem_replicate member]
    exact decide_eq_true (wellFormed_line accepted shown)
  have read : lineEntry entry.line = some entry :=
    (lineEntry_line accepted).trans (if_neg shown)
  have loses := kept.length_le
  rw [lines_listText all, List.map_replicate, every,
    List.filterMap_replicate_of_some read, List.length_replicate,
    Table.length_toList] at loses
  exact absurd (more.trans_le (loses.trans loaded.2.entries.within))
    (lt_irrefl _)

/-- Of twenty-five records one is not in the list. -/
theorem twenty_fifth_host_is_dropped :
    letI := saturating
    let content := listText (List.replicate 25 ((oneHost "pi").entries.slots 0))
    ¬ ∀ loaded after,
      Returns (Step noFaults) (hostsLoad noHosts)
        (blankCard.put hostsPath (some content)) loaded after →
      loaded.1 = 0 →
        (((lines content).filter WellFormed).filterMap lineEntry).Sublist
          loaded.2.entries.toList := by
  let libc : Libc := saturating
  intro content keepsAll
  have accepted : hostsProblem (some ((oneHost "pi").entries.slots 0)) = none := by
    decide +kernel
  have shown : ¬ ((oneHost "pi").entries.slots 0).Hidden := by decide
  obtain ⟨loaded, after, load, value, lost⟩ := exists_dropping_load accepted
    shown (show hostsMax < 25 by decide) (by decide) blankCard noHosts
  exact lost (keepsAll loaded after load value)

end Pspssh.Hosts
