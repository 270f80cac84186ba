import Pspssh.Card.Replace
import Pspssh.Hosts.Entry

namespace Pspssh.Hosts

open Pspssh.Data
open Pspssh.Data.Program
open Pspssh.Card

/-! Which entries come back when the list is saved and loaded. -/

/-- The line of the entry would be taken for a comment. -/
def HostEntry.Hidden (entry : HostEntry) : Prop :=
  entry.name.text.head? = some 0x23

instance (entry : HostEntry) : Decidable entry.Hidden :=
  inferInstanceAs (Decidable (_ = _))

section Entries

variable {entry : HostEntry}

theorem allPlain_of_accepted (accepted : hostsProblem (some entry) = none) :
    entry.AllPlain := by
  dsimp only [hostsProblem] at accepted
  split_ifs at accepted with _ _ _ _ plain
  exact plain

theorem split_line (plain : entry.AllPlain) :
    split 7 entry.line =
      [entry.name.text, entry.address.text, intText entry.port,
        entry.user.text, entry.password.text, intText entry.profile] := by
  rw [HostEntry.line, split_append plain.name.no_tab,
    split_append plain.address.no_tab, split_append (plain_intText _).no_tab,
    split_append plain.user.no_tab, split_append plain.password.no_tab,
    split_last (plain_intText _).no_tab]

theorem readEntry_line [Libc] (accepted : hostsProblem (some entry) = none) :
    readEntry entry.line = some entry := by
  have fields := split_line (allPlain_of_accepted accepted)
  simp only [readEntry, fields, copyField_self, atoi_intText]
  rw [if_neg (not_not.mpr accepted)]

theorem line_ne_nil : entry.line ≠ [] := by
  simp [HostEntry.line]

theorem line_unbroken (plain : entry.AllPlain) :
    ∀ ch ∈ entry.line, ¬ IsBreak ch := by
  have tab : ¬ IsBreak 0x09 := by decide
  intro ch member
  simp only [HostEntry.line, List.mem_append, List.mem_cons] at member
  obtain inName | rfl | inAddress | rfl | inPort | rfl | inUser | rfl |
    inPassword | rfl | inProfile := member
  · exact plain.name.unbroken ch inName
  · exact tab
  · exact plain.address.unbroken ch inAddress
  · exact tab
  · exact (plain_intText _).unbroken ch inPort
  · exact tab
  · exact plain.user.unbroken ch inUser
  · exact tab
  · exact plain.password.unbroken ch inPassword
  · exact tab
  · exact (plain_intText _).unbroken ch inProfile

theorem line_noNul : 0 ∉ entry.line := by
  simp [HostEntry.line, entry.name.noNul, entry.address.noNul,
    entry.user.noNul, entry.password.noNul, intText_noNul]

theorem line_length : (entry.line ++ [0x0a]).length ≤ 240 := by
  have name : entry.name.text.length < 24 := entry.name.fits
  have address : entry.address.text.length < 96 := entry.address.fits
  have user : entry.user.text.length < 32 := entry.user.fits
  have password : entry.password.text.length < 64 := entry.password.fits
  have port := intText_length entry.port
  have profile := intText_length entry.profile
  simp only [HostEntry.line, List.length_append, List.length_cons,
    List.length_nil]
  omega

theorem head?_line : entry.line.head? = some 0x23 ↔ entry.Hidden := by
  unfold HostEntry.line HostEntry.Hidden
  cases entry.name.text with
  | nil => simp
  | cons ch rest => rfl

end Entries

section Text

def listText (entries : List HostEntry) : List UInt8 :=
  (entries.map fun entry => entry.line ++ [0x0a]).flatten

variable {entries : List HostEntry}

theorem lines_listText
    (accepted : ∀ entry ∈ entries, hostsProblem (some entry) = none) :
    lines (listText entries) = entries.map HostEntry.line := by
  have whole : ∀ line ∈ entries.map HostEntry.line,
      line ≠ [] ∧ ∀ ch ∈ line, ¬ IsBreak ch := by
    intro line member
    obtain ⟨entry, found, rfl⟩ := List.mem_map.mp member
    exact ⟨line_ne_nil,
      line_unbroken (allPlain_of_accepted (accepted entry found))⟩
  have joined := lines_records whole
  rwa [List.map_map] at joined

theorem listText_noNul : 0 ∉ listText entries := by
  intro member
  obtain ⟨record, found, inside⟩ := List.mem_flatten.mp member
  obtain ⟨entry, _, rfl⟩ := List.mem_map.mp found
  rcases List.mem_append.mp inside with inLine | inEnd
  · exact line_noNul inLine
  · simp at inEnd

end Text

section Lists

variable [Libc]

def lineEntry (line : List UInt8) : Option HostEntry :=
  if line = [] ∨ line.head? = some 0x23 then none else readEntry line

theorem takeLine_eq (entries : Table HostEntry hostsMax) (line : List UInt8) :
    takeLine entries line = entries.offer (lineEntry line) := by
  unfold takeLine lineEntry
  split
  · rfl
  · cases readEntry line with
    | none => simp [Table.offer]
    | some entry => rfl

theorem toList_parse (text : List UInt8) (entries : Table HostEntry hostsMax) :
    (parse text entries).toList =
      (entries.toList ++ (lines text).filterMap lineEntry).take hostsMax := by
  refine Table.toList_foldl (fun entries line => ?_) (lines text)
  rw [takeLine_eq, Table.toList_offer]

theorem lineEntry_line {entry : HostEntry}
    (accepted : hostsProblem (some entry) = none) :
    lineEntry entry.line = if entry.Hidden then none else some entry := by
  unfold lineEntry
  by_cases hidden : entry.Hidden
  · rw [if_pos (.inr (head?_line.mpr hidden)), if_pos hidden]
  · rw [if_neg (not_or.mpr ⟨line_ne_nil, mt head?_line.mp hidden⟩),
      if_neg hidden, readEntry_line accepted]

/-- The entries whose names look like comments are lost, and no others. -/
theorem toList_parse_listText {table : Table HostEntry hostsMax}
    (accepted : ∀ entry ∈ entries, hostsProblem (some entry) = none)
    (short : entries.length ≤ hostsMax) :
    (parse (listText entries) table.clear).toList =
      entries.filter (¬ ·.Hidden) := by
  have kept : (entries.map HostEntry.line).filterMap lineEntry =
      entries.filter (¬ ·.Hidden) := by
    rw [List.filterMap_map, ← List.filterMap_eq_filter]
    refine List.filterMap_congr fun entry member => ?_
    rw [Function.comp_apply, lineEntry_line (accepted entry member)]
    by_cases hidden : entry.Hidden
    · simp [hidden, Option.guard]
    · simp [hidden, Option.guard]
  rw [toList_parse, lines_listText accepted, kept, Table.toList_clear,
    List.nil_append, List.take_of_length_le]
  exact (List.length_filter_le _ _).trans short

end Lists

/-! ## Runs -/

section Runs

variable {faults : IoCall → Prop}

theorem record_length (entries : List HostEntry) :
    ∀ record ∈ entries.map fun entry => entry.line ++ [0x0a],
      record.length ≤ 240 := by
  intro record member
  obtain ⟨entry, _, rfl⟩ := List.mem_map.mp member
  exact line_length

theorem gather_list (entries : Table HostEntry hostsMax) :
    gather textSize (entries.toList.map fun entry => entry.line ++ [0x0a]) =
      some (listText entries.toList) := by
  refine gather_eq ?_ (record_length entries.toList) ?_
  · intro record member
    obtain ⟨entry, _, rfl⟩ := List.mem_map.mp member
    simp
  · have count : entries.count ≤ 24 := entries.within
    rw [List.length_map, Table.length_toList]
    change entries.count * 240 < 5952
    omega

theorem listText_length (entries : Table HostEntry hostsMax) :
    (listText entries.toList).length < fileMax - 1 := by
  have count : entries.count ≤ 24 := entries.within
  have total := length_flatten_le (record_length entries.toList)
  rw [List.length_map, Table.length_toList] at total
  refine total.trans_lt ?_
  change entries.count * 240 < 16383
  omega

theorem save_run (hosts : HostList) (card : MemoryCard) :
    Ensures (Step faults)
      (fun cut => ∀ other, other ≠ hostsPath → other ≠ tempName hostsPath →
        cut.files other = card.files other)
      (fun saved after => saved.2.entries = hosts.entries ∧
        (saved.1 = 0 ∧
            after.files hostsPath = some (listText hosts.entries.toList) ∨
          saved.1 = -1 ∧ Faulty faults))
      (save hosts) card := by
  have distinct : tempName hostsPath ≠ hostsPath := by decide
  rw [save, gather_list]
  refine Ensures.bind ((cardfileWrite_run distinct card _).mono
    (fun _ kept => kept) fun result after kept ended => ?_)
  obtain ⟨value, lastError⟩ := result
  rcases ended with ⟨rfl, written⟩ | ⟨rfl, faulty⟩
  · exact ⟨kept, rfl, .inl ⟨rfl, written⟩⟩
  · exact ⟨kept, rfl, .inr ⟨rfl, faulty⟩⟩

theorem exists_save (hosts : HostList) (card : MemoryCard) :
    ∃ written saved,
      Returns (Step noFaults) (save hosts) card (0, written) saved := by
  have ensured : Ensures (Step noFaults) _ _ _ _ := save_run hosts card
  obtain ⟨⟨value, written⟩, saved, run⟩ := ensured.exists_returns
  obtain ⟨_, ⟨rfl, _⟩ | ⟨_, _, faulty⟩⟩ := ensured.returns run
  · exact ⟨written, saved, run⟩
  · exact faulty.elim

theorem hostsLoad_present [Libc] {card : MemoryCard} {text : List UInt8}
    (present : card.files hostsPath = some text)
    (short : text.length < fileMax - 1) (hosts : HostList) :
    Ensures (Step noFaults) (fun cut => cut.files = card.files)
      (fun loaded _ => loaded.1 = 0 ∧ loaded.2.entries =
        parse (cString text).text hosts.entries.clear)
      (hostsLoad hosts) card := by
  refine Ensures.bind ((cardfileRead_present present short).mono
    (fun _ kept => kept) fun read after kept whole => ?_)
  obtain ⟨value, lastError⟩ := read
  obtain rfl : value = .whole text := whole
  exact ⟨kept, rfl, rfl⟩

theorem load_saved [Libc] {hosts : HostList}
    (accepted : ∀ entry ∈ hosts.entries.toList,
      hostsProblem (some entry) = none)
    {card saved : MemoryCard} {written : HostList}
    (run : Returns (Step faults) (save hosts) card (0, written) saved)
    (start : HostList) :
    Ensures (Step noFaults) (fun cut => cut.files = saved.files)
      (fun loaded _ => loaded.1 = 0 ∧ loaded.2.entries.toList =
        hosts.entries.toList.filter (¬ ·.Hidden))
      (hostsLoad start) saved := by
  obtain ⟨_, ⟨_, present⟩ | ⟨failed, _⟩⟩ := (save_run hosts card).returns run
  · refine (hostsLoad_present present (listText_length hosts.entries) start).mono
      (fun _ kept => kept) ?_
    intro loaded after _ found
    obtain ⟨result, entries⟩ := found
    have short : hosts.entries.toList.length ≤ hostsMax := by
      rw [Table.length_toList]
      exact hosts.entries.within
    rw [cString_text listText_noNul] at entries
    exact ⟨result, by rw [entries, toList_parse_listText accepted short]⟩
  · simp at failed

/-- A saved list loads as it was exactly if no name starts like a comment. -/
theorem saved_list_loads_iff [Libc] {hosts : HostList}
    (accepted : ∀ entry ∈ hosts.entries.toList,
      hostsProblem (some entry) = none)
    {card saved : MemoryCard} {written : HostList}
    (run : Returns (Step faults) (save hosts) card (0, written) saved)
    (start : HostList) :
    (∃ loaded after, Returns (Step noFaults) (hostsLoad start) saved loaded after) ∧
      ∀ loaded after,
        Returns (Step noFaults) (hostsLoad start) saved loaded after →
        (loaded.1 = 0 ∧ loaded.2.entries.toList = hosts.entries.toList ↔
          ∀ entry ∈ hosts.entries.toList, ¬ entry.Hidden) := by
  have ensured := load_saved accepted run start
  refine ⟨ensured.exists_returns, fun loaded after load => ?_⟩
  obtain ⟨result, entries⟩ := ensured.returns load
  rw [entries, List.filter_eq_self]
  simp [result]

end Runs

def oneHost (name : String) : HostList where
  entries :=
    { slots := fun _ =>
        { hostsBlank with
          name := copyField _ (ascii name)
          address := copyField _ (ascii "10.0.0.2")
          user := copyField _ (ascii "root") }
      count := 1
      within := by decide }
  lastError := ""

theorem saved_list_loads_named :
    letI := saturating
    ∃ written saved,
      Returns (Step noFaults) (save (oneHost "pi")) blankCard (0, written) saved ∧
      (∃ loaded after,
        Returns (Step noFaults) (hostsLoad (oneHost "")) saved loaded after) ∧
      ∀ loaded after,
        Returns (Step noFaults) (hostsLoad (oneHost "")) saved loaded after →
        (loaded.1 = 0 ∧
            loaded.2.entries.toList = (oneHost "pi").entries.toList ↔
          ∀ entry ∈ (oneHost "pi").entries.toList, ¬ entry.Hidden) := by
  let libc : Libc := saturating
  obtain ⟨written, saved, run⟩ := exists_save (oneHost "pi") blankCard
  have accepted : ∀ entry ∈ (oneHost "pi").entries.toList,
      hostsProblem (some entry) = none := by decide +kernel
  exact ⟨written, saved, run, saved_list_loads_iff accepted run (oneHost "")⟩

/-- A server called `#pi` is accepted and saved, and gone after a load. -/
theorem commented_name_is_lost :
    letI := saturating
    ¬ ∀ written saved loaded after,
      (∀ entry ∈ (oneHost "#pi").entries.toList,
        hostsProblem (some entry) = none) →
      Returns (Step noFaults) (save (oneHost "#pi")) blankCard (0, written) saved →
      Returns (Step noFaults) (hostsLoad (oneHost "")) saved loaded after →
        loaded.1 = 0 ∧
          loaded.2.entries.toList = (oneHost "#pi").entries.toList := by
  let libc : Libc := saturating
  intro loadsBack
  have accepted : ∀ entry ∈ (oneHost "#pi").entries.toList,
      hostsProblem (some entry) = none := by decide +kernel
  obtain ⟨written, saved, run⟩ := exists_save (oneHost "#pi") blankCard
  have ensured := load_saved accepted run (oneHost "")
  obtain ⟨loaded, after, load⟩ := ensured.exists_returns
  have kept := (loadsBack written saved loaded after accepted run load).2
  rw [(ensured.returns load).2, List.filter_eq_self] at kept
  revert kept
  decide

end Pspssh.Hosts
