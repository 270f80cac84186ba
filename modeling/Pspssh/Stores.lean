import Pspssh.Card.Store
import Pspssh.Hosts.Loaded
import Pspssh.Known.Loaded

/-! The two stores of the application: what they write they can read, and a list
once loaded stays as it is. -/

namespace Pspssh.Hosts

open Pspssh.Data
open Pspssh.Data.Program
open Pspssh.Card

theorem head?_split {line field : List UInt8} {rest : List (List UInt8)}
    {count : Nat} {ch : UInt8} (fields : split (count + 1) line = field :: rest)
    (first : field.head? = some ch) : line.head? = some ch := by
  rw [split] at fields
  cases cut : cutAt 0x09 line with
  | none =>
      rw [cut] at fields
      rw [(List.cons.inj fields).1, first]
  | some halves =>
      rw [cut] at fields
      obtain ⟨same, _⟩ := List.cons.inj fields
      rw [(cutAt_eq_some_iff.mp cut).1, same, List.head?_append, first,
        Option.some_or]

variable [Libc]

theorem lineEntry_shown {line : List UInt8} {entry : HostEntry}
    (read : lineEntry line = some entry) : ¬ entry.Hidden := by
  intro hidden
  unfold lineEntry at read
  split at read
  · contradiction
  · rename_i shown
    unfold readEntry at read
    split at read
    · rename_i name _ _ _ _ _ _ fields
      dsimp only at read
      split at read
      · contradiction
      · cases read
        have first : name.head? = some 0x23 := head?_of_copyField hidden
        exact shown (.inr (head?_split fields first))
    · contradiction

theorem of_mem_listed {content : List UInt8} {entry : HostEntry}
    (member : entry ∈ listed content) :
    hostsProblem (some entry) = none ∧ ¬ entry.Hidden := by
  obtain ⟨line, _, read⟩ :=
    List.mem_filterMap.mp (List.mem_of_mem_take member)
  exact ⟨lineEntry_accepted read, lineEntry_shown read⟩

theorem listed_listText {entries : List HostEntry}
    (kept : ∀ entry ∈ entries, hostsProblem (some entry) = none ∧ ¬ entry.Hidden)
    (few : entries.length ≤ hostsMax) : listed (listText entries) = entries := by
  have read : (entries.map HostEntry.line).filterMap lineEntry = entries := by
    rw [List.filterMap_map]
    refine (List.filterMap_congr fun entry member => ?_).trans
      List.filterMap_some
    rw [Function.comp_apply, lineEntry_line (kept entry member).1,
      if_neg (kept entry member).2]
  rw [listed, cString_text listText_noNul,
    lines_listText fun entry member => (kept entry member).1, read,
    List.take_of_length_le few]

def hostStore : Card.Store HostList HostEntry where
  path := hostsPath
  limit := fileMax - 1
  load := hostsLoad
  save := save
  entries := fun hosts => hosts.entries.toList
  read := listed
  write := listText
  exists_save := exists_save
  files_saved := by
    intro faults state card written saved run
    obtain ⟨_, ⟨_, present⟩ | ⟨failed, _⟩⟩ := (save_run state card).returns run
    · exact present
    · exact absurd failed (by decide : (0 : Int) ≠ -1)
  loads := by
    intro card content present start
    refine (hostsLoad_result start card).mono (fun _ kept => kept)
      fun loaded _ _ ended => ?_
    rw [ended, loadResult, present, readResult]
    split_ifs <;> rfl
  short := fun hosts => listText_length hosts.entries
  stable := fun content => listed_listText (fun _ => of_mem_listed)
    (List.length_take_le _ _)

end Pspssh.Hosts

namespace Pspssh.Known

open Pspssh.Data
open Pspssh.Data.Program
open Pspssh.Card

variable [Libc]

theorem lineEntry_loads {line : List UInt8} {entry : KnownEntry}
    (read : lineEntry line = some entry) :
    Loads entry.address.text entry.port := by
  unfold lineEntry at read
  split at read
  · contradiction
  rename_i shown
  split at read
  · contradiction
  rename_i address rest cut
  split at read
  · contradiction
  split at read
  · contradiction
  split at read
  · contradiction
  split at read
  · contradiction
  rename_i range
  cases read
  obtain ⟨lower, upper⟩ := not_or.mp range
  refine ⟨fun first => shown (.inr ?_), Int32.not_lt.mp lower,
    Int32.not_lt.mp upper⟩
  have comment : address.head? = some 0x23 := head?_of_copyField first
  rw [(cutAt_eq_some_iff.mp cut).1, List.head?_append, comment, Option.some_or]

theorem of_mem_listed {content : List UInt8} {entry : KnownEntry}
    (member : entry ∈ listed content) :
    entry.Sound ∧ Loads entry.address.text entry.port := by
  obtain ⟨line, inText, read⟩ :=
    List.mem_filterMap.mp (List.mem_of_mem_take member)
  have inside := mem_lines inText
  refine ⟨lineEntry_sound ?_ ?_ read, lineEntry_loads read⟩
  · exact fun nul => (cString content).noNul (inside 0 nul).1
  · exact fun ch found => (inside ch found).2

theorem listed_listText {entries : List KnownEntry}
    (kept : ∀ entry ∈ entries,
      entry.Sound ∧ Loads entry.address.text entry.port)
    (few : entries.length ≤ knownMax) : listed (listText entries) = entries := by
  rw [listed_of_noNul listText_noNul,
    records_listText (fun entry member => (kept entry member).1)
      fun entry member => (kept entry member).2,
    List.take_of_length_le few]

def knownStore : Card.Store KnownHosts KnownEntry where
  path := knownPath
  limit := fileMax - 1
  load := knownhostsLoad
  save := save
  entries := fun known => known.entries.toList
  read := listed
  write := listText
  exists_save := exists_save
  files_saved := by
    intro faults state card written saved run
    obtain ⟨_, ⟨_, present⟩ | ⟨failed, _⟩⟩ := (save_run state card).returns run
    · exact present
    · exact absurd failed (by decide : (0 : Int) ≠ -1)
  loads := by
    intro card content present start
    refine (knownhostsLoad_result start card).mono (fun _ kept => kept)
      fun loaded _ _ ended => ?_
    rw [ended, loadResult, present, readResult]
    split_ifs <;> rfl
  short := fun known => listText_length known.entries
  stable := fun content => listed_listText (fun _ => of_mem_listed)
    (List.length_take_le _ _)

end Pspssh.Known

namespace Pspssh

open Pspssh.Data
open Pspssh.Data.Program
open Pspssh.Card

/-- Whatever the two files hold, a list that a load has accepted comes back from
its own text, and is saved as that text again. -/
theorem loading_is_normal [Libc] {card : MemoryCard} {content : List UInt8} :
    (card.files Hosts.hostsPath = some content → ∀ start loaded last,
      Returns (Step noFaults) (Hosts.hostsLoad start) card (0, loaded) last →
      Hosts.hostStore.NormalFrom loaded last) ∧
    (card.files Known.knownPath = some content → ∀ start loaded last,
      Returns (Step noFaults) (Known.knownhostsLoad start) card (0, loaded) last →
      Known.knownStore.NormalFrom loaded last) :=
  ⟨fun present _ _ _ load => Hosts.hostStore.normal_from present load,
    fun present _ _ _ load => Known.knownStore.normal_from present load⟩

/-- A file of the first store with a comment, odd numbers, a surplus field and
every kind of line end. -/
def oddFile : List UInt8 :=
  ascii "#pi\r\n\r\npi\t10.0.0.2\t +0022\troot\t\t0x\tmore\n\rpi\t\n"

/-- A file of the second with a comment, an odd port, a surplus field and a server
that is there twice. -/
def oddKeys : List UInt8 :=
  ascii "#pi\r\npi\t +0022\tSHA256:one\n\rpi\t22\tSHA256:two\tmore\npi\t0\tx\n"

theorem loading_is_normal_odd :
    letI := saturating
    (∃ loaded last,
      Returns (Step noFaults) (Hosts.hostsLoad Hosts.noHosts)
        (blankCard.put Hosts.hostsPath (some oddFile)) (0, loaded) last ∧
      loaded.entries.toList ≠ [] ∧ Hosts.hostStore.NormalFrom loaded last) ∧
    ∃ loaded last,
      Returns (Step noFaults) (Known.knownhostsLoad Known.noKnownHosts)
        (blankCard.put Known.knownPath (some oddKeys)) (0, loaded) last ∧
      loaded.entries.toList ≠ [] ∧ Known.knownStore.NormalFrom loaded last := by
  let libc : Libc := saturating
  have present (path : Path) (content : List UInt8) :
      (blankCard.put path (some content)).files path = some content := by
    rw [MemoryCard.files_put, Function.update_self]
  constructor
  · obtain ⟨loaded, last, load, entries⟩ := Hosts.hostStore.exists_load
      (present Hosts.hostsPath oddFile) (by decide +kernel) Hosts.noHosts
    have one : Hosts.listed oddFile ≠ [] := by decide +kernel
    exact ⟨loaded, last, load, fun none => one (entries.symm.trans none),
      loading_is_normal.1 (present Hosts.hostsPath oddFile) _ _ _ load⟩
  · obtain ⟨loaded, last, load, entries⟩ := Known.knownStore.exists_load
      (present Known.knownPath oddKeys) (by decide +kernel) Known.noKnownHosts
    have one : Known.listed oddKeys ≠ [] := by decide +kernel
    exact ⟨loaded, last, load, fun none => one (entries.symm.trans none),
      loading_is_normal.2 (present Known.knownPath oddKeys) _ _ _ load⟩

/-- Every list fits the buffer of its save, and its text fits the reader. -/
theorem written_files_are_readable [Libc] :
    (∀ hosts : Hosts.HostList,
      gather Hosts.textSize
          (hosts.entries.toList.map fun entry => entry.line ++ [0x0a]) ≠ none ∧
        Hosts.hostStore.ReadsBack hosts) ∧
    ∀ known : Known.KnownHosts,
      gather Known.fileMax
          (known.entries.toList.map fun entry => entry.line ++ [0x0a]) ≠ none ∧
        Known.knownStore.ReadsBack known := by
  refine ⟨fun hosts => ⟨?_, Hosts.hostStore.readsBack hosts⟩,
    fun known => ⟨?_, Known.knownStore.readsBack known⟩⟩
  · rw [Hosts.gather_list]
    exact Option.some_ne_none _
  · rw [Known.gather_list]
    exact Option.some_ne_none _

end Pspssh
