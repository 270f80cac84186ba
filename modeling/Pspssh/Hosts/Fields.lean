import Pspssh.Hosts.Loaded

namespace Pspssh.Hosts

open Pspssh.Data
open Pspssh.Data.Program
open Pspssh.Card

/-! What of the texts in a file gets into an entry. -/

/-! ## Records -/

def Carries (entry : HostEntry) (line : List UInt8) : Prop :=
  6 ≤ (split 7 line).length ∧ entry.address.text = fieldAt line 1 ∧
    entry.user.text = fieldAt line 3 ∧ entry.password.text = fieldAt line 4

section Records

variable {line : List UInt8} {entry : HostEntry}

theorem fieldAt_noNul (noNul : 0 ∉ line) (index : Nat) : 0 ∉ fieldAt line index := by
  intro nul
  unfold fieldAt at nul
  rw [List.getD_eq_getElem?_getD] at nul
  cases found : (split 7 line)[index]? with
  | none => simp [found] at nul
  | some field =>
      rw [found] at nul
      exact noNul (mem_split (List.mem_of_getElem? found) 0 nul)

theorem fieldAt_append {index : Nat} (whole : index + 1 < (split 7 line).length)
    (more : List UInt8) : fieldAt (line ++ more) index = fieldAt line index := by
  have nonempty := split_ne_nil 7 line
  have parts := (List.dropLast_append_getLast nonempty).symm
  obtain ⟨others, _, longer⟩ := split_append_text parts more
  have inFront : index < (split 7 line).dropLast.length := by
    rw [List.length_dropLast]
    omega
  have inLine : index < (split 7 line).length := by omega
  unfold fieldAt
  rw [longer, List.getD_append _ _ _ _ inFront, List.getD_eq_getElem _ _ inFront,
    List.getElem_dropLast, List.getD_eq_getElem _ _ inLine]

theorem Carries.append (carries : Carries entry line) (more : List UInt8) :
    Carries entry (line ++ more) := by
  obtain ⟨enough, address, user, password⟩ := carries
  have longer : 6 ≤ (split 7 (line ++ more)).length := by
    obtain ⟨others, nonempty, longer⟩ := split_append_text
      (List.dropLast_append_getLast (split_ne_nil 7 line)).symm more
    have := List.length_pos_of_ne_nil nonempty
    rw [longer, List.length_append, List.length_dropLast]
    omega
  refine ⟨longer, ?_, ?_, ?_⟩
  · rw [address, fieldAt_append (by omega)]
  · rw [user, fieldAt_append (by omega)]
  · rw [password, fieldAt_append (by omega)]

variable [Libc]

/-- The lines that the loader takes for records, as far as it has room. -/
def taken (content : List UInt8) : List (List UInt8) :=
  ((lines (cString content).text).filter fun line =>
    (lineEntry line).isSome).take hostsMax

/-- No record that holds a text too long to store is taken. -/
def DropsOversize (content : List UInt8) : Prop :=
  ∀ before line after,
    lines (cString content).text = before ++ line :: after → Oversize line →
      ((before ++ [line]).foldl takeLine noHosts.entries).toList =
        (before.foldl takeLine noHosts.entries).toList

theorem lineEntry_eq_some (read : lineEntry line = some entry) :
    6 ≤ (split 7 line).length ∧
      entry.name = copyField _ (fieldAt line 0) ∧
      entry.address = copyField _ (fieldAt line 1) ∧
      entry.user = copyField _ (fieldAt line 3) ∧
      entry.password = copyField _ (fieldAt line 4) := by
  unfold lineEntry at read
  split_ifs at read
  unfold readEntry at read
  split at read
  · rename_i name address port user password profile others fields
    dsimp only at read
    split_ifs at read
    cases read
    unfold fieldAt
    rw [fields]
    exact ⟨by simp, rfl, rfl, rfl, rfl⟩
  · cases read

theorem carries_of_fits (noNul : 0 ∉ line) (read : lineEntry line = some entry)
    (fits : ¬ Oversize line) : Carries entry line := by
  obtain ⟨enough, _, address, user, password⟩ := lineEntry_eq_some read
  obtain ⟨_, addressFits, userFits, passwordFits⟩ : _ ∧ _ ∧ _ ∧ _ := by
    simpa only [Oversize, not_or, Nat.not_le] using fits
  rw [Carries, address, user, password]
  exact ⟨enough, copyField_text (fieldAt_noNul noNul 1) addressFits,
    copyField_text (fieldAt_noNul noNul 3) userFits,
    copyField_text (fieldAt_noNul noNul 4) passwordFits⟩

theorem listed_eq_taken (content : List UInt8) :
    listed content = (taken content).filterMap lineEntry :=
  Table.take_filterMap lineEntry _ hostsMax

theorem taken_noNul {content : List UInt8} (member : line ∈ taken content) :
    line ∈ lines (cString content).text ∧ 0 ∉ line := by
  have inText := List.mem_of_mem_filter (List.mem_of_mem_take member)
  exact ⟨inText, fun nul => (cString content).noNul (mem_lines inText 0 nul).1⟩

theorem listed_carried {content : List UInt8}
    (fits : ∀ line ∈ taken content, ¬ Oversize line) :
    ∀ entry ∈ listed content, ∃ line ∈ lines content, Carries entry line := by
  intro entry member
  rw [listed_eq_taken] at member
  obtain ⟨line, inTaken, read⟩ := List.mem_filterMap.mp member
  obtain ⟨inText, noNul⟩ := taken_noNul inTaken
  obtain ⟨whole, inContent, more, rfl⟩ :=
    lines_prefix (List.takeWhile_prefix _) inText
  exact ⟨_, inContent, (carries_of_fits noNul read (fits line inTaken)).append more⟩

theorem foldl_takeLine (read : List (List UInt8)) :
    (read.foldl takeLine noHosts.entries).toList =
      (read.filterMap lineEntry).take hostsMax := by
  refine Table.toList_foldl (fun entries line => ?_) read
  rw [takeLine_eq, Table.toList_offer]

theorem length_filter_isSome (read : List (List UInt8)) :
    (read.filter fun line => (lineEntry line).isSome).length =
      (read.filterMap lineEntry).length := by
  rw [List.length_filterMap_eq_countP, List.countP_eq_length_filter]

/-- Records that hold a text too long are dropped exactly if none of those taken
is such a record. -/
theorem dropsOversize_iff {content : List UInt8} :
    DropsOversize content ↔ ∀ line ∈ taken content, ¬ Oversize line := by
  constructor
  · intro drops line member large
    obtain ⟨front, back, parts⟩ := List.append_of_mem member
    have room : front.length < hostsMax := by
      have length := List.length_take_le hostsMax
        ((lines (cString content).text).filter fun line =>
          (lineEntry line).isSome)
      rw [← taken, parts, List.length_append, List.length_cons] at length
      omega
    have whole := (List.take_append_drop hostsMax
      ((lines (cString content).text).filter fun line =>
        (lineEntry line).isSome)).symm
    rw [← taken, parts, List.append_assoc, List.cons_append] at whole
    obtain ⟨first, second, found, firsts, rest⟩ :=
      List.filter_eq_append_iff.mp whole
    obtain ⟨skipped, after, rfl, none_read, read, _⟩ :=
      List.filter_eq_cons_iff.mp rest
    rw [← List.append_assoc] at found
    have same := drops _ line after found large
    obtain ⟨entry, read⟩ := Option.isSome_iff_exists.mp read
    have few : ((first ++ skipped).filterMap lineEntry).length < hostsMax := by
      rw [← length_filter_isSome, List.filter_append, firsts,
        List.filter_eq_nil_iff.mpr none_read, List.append_nil]
      exact room
    have lengths := congrArg List.length same
    rw [foldl_takeLine, foldl_takeLine, List.filterMap_append,
      List.filterMap_cons_some read, List.filterMap_nil, List.length_take,
      List.length_take, List.length_append, List.length_singleton] at lengths
    omega
  · intro fits before line after found large
    rw [foldl_takeLine, foldl_takeLine, List.filterMap_append]
    cases read : lineEntry line with
    | none => simp [read]
    | some entry =>
        by_cases full : hostsMax ≤ (before.filterMap lineEntry).length
        · rw [List.take_append_of_le_length full]
        · refine absurd large (fits line ?_)
          rw [← length_filter_isSome, Nat.not_le] at full
          rw [taken, found, List.filter_append,
            List.filter_cons_of_pos (by simp [read]), List.take_append]
          refine List.mem_append_right _ ?_
          obtain ⟨left, room⟩ := Nat.exists_eq_add_of_lt full
          rw [show hostsMax - _ = left + 1 by omega, List.take_succ_cons]
          exact List.mem_cons_self

end Records

/-! ## Settings -/

/-- The key and the value in a line of the old configuration. -/
def setting (line : List UInt8) : Option (List UInt8 × List UInt8) :=
  match cutAt 0x3d line with
  | none => none
  | some (key, value) =>
      if line.head? = some 0x23 then none
      else some (key.dropWhile (· = 0x20), value.dropWhile (· = 0x20))

def valueFor (key line : List UInt8) : Option (List UInt8) :=
  (setting line).bind fun given => if given.1 = key then some given.2 else none

/-- The value that counts is that of the last line with the key. -/
def lastValue (key : List UInt8) (read : List (List UInt8)) :
    Option (List UInt8) :=
  (read.filterMap (valueFor key)).getLast?

/-- The lines that the loader reads, the last perhaps not to its end. -/
def linesRead (content : List UInt8) : List (List UInt8) :=
  (lines content).take (lines (cString content).text).length

/-- The texts of the entry are the values in the file. -/
def CarriesSettings (entry : HostEntry) (content : List UInt8) : Prop :=
  entry.address.text = (lastValue (ascii "host") (linesRead content)).getD [] ∧
    entry.user.text = (lastValue (ascii "user") (linesRead content)).getD [] ∧
    entry.password.text =
      (lastValue (ascii "password") (linesRead content)).getD []

/-- The value, if there is one, can be stored as it is written. -/
def Kept (size : Nat) (value : Option (List UInt8)) : Prop :=
  ∀ text ∈ value, 0 ∉ text ∧ text.length < size

def SettingsFit (content : List UInt8) : Prop :=
  Kept hostAddressLen (lastValue (ascii "host") (linesRead content)) ∧
    Kept hostUserLen (lastValue (ascii "user") (linesRead content)) ∧
    Kept hostPasswordLen (lastValue (ascii "password") (linesRead content))

section Settings

variable {key line : List UInt8}

theorem dropWhile_cString (text : List UInt8) :
    (cString text).text.dropWhile (· = 0x20) =
      (cString (text.dropWhile (· = 0x20))).text := by
  change (text.takeWhile (· ≠ 0)).dropWhile (· = 0x20) =
    (text.dropWhile (· = 0x20)).takeWhile (· ≠ 0)
  induction text with
  | nil => rfl
  | cons ch text ih =>
      by_cases blank : ch = 0x20
      · subst blank
        rw [List.takeWhile_cons_of_pos (by decide),
          List.dropWhile_cons_of_pos (by decide),
          List.dropWhile_cons_of_pos (by decide), ih]
      · rw [List.dropWhile_cons_of_neg (by simpa using blank)]
        by_cases nul : ch = 0
        · subst nul
          rfl
        · rw [List.takeWhile_cons_of_pos (by simpa using nul),
            List.dropWhile_cons_of_neg (by simpa using blank)]

theorem valueFor_cString (noNul : 0 ∉ key) (line : List UInt8) :
    valueFor key (cString line).text =
      (valueFor key line).map fun value => (cString value).text := by
  unfold valueFor setting
  rw [cutAt_cString (by decide)]
  cases found : cutAt 0x3d line with
  | none => rfl
  | some halves =>
      obtain ⟨name, value⟩ := halves
      obtain ⟨rfl, _⟩ := cutAt_eq_some_iff.mp found
      rw [Option.bind_some]
      dsimp only
      by_cases hidden : 0 ∈ name
      · -- the key of the whole line has the NUL in it
        have otherKey : name.dropWhile (· = 0x20) ≠ key := by
          rintro rfl
          rw [← name.takeWhile_append_dropWhile, List.mem_append] at hidden
          have blank := List.mem_takeWhile_imp (hidden.resolve_right noNul)
          revert blank
          decide
        rw [if_pos hidden]
        split_ifs <;> simp [otherKey]
      · have first : (cString (name ++ 0x3d :: value)).text.head? =
            (name ++ 0x3d :: value).head? := by
          change ((name ++ 0x3d :: value).takeWhile (· ≠ 0)).head? = _
          rw [List.head?_takeWhile]
          cases name with
          | nil => rfl
          | cons ch name =>
              have notNul : ch ≠ 0 := fun nul => hidden (by simp [nul])
              simp [notNul]
        rw [if_neg hidden]
        dsimp only
        rw [first, dropWhile_cString]
        split_ifs with comment
        · rfl
        · by_cases named : name.dropWhile (· = 0x20) = key <;> simp [named]

theorem lastValue_lines (noNul : 0 ∉ key) (content : List UInt8) :
    lastValue key (lines (cString content).text) =
      (lastValue key (linesRead content)).map fun value =>
        (cString value).text := by
  rw [lines_cString, lastValue, List.filterMap_map, lastValue, linesRead,
    ← List.getLast?_map, List.map_filterMap]
  congr 2
  funext line
  exact valueFor_cString noNul line

theorem copyField_cString {size : Nat} [NeZero size] (source : List UInt8) :
    copyField size (cString source).text = copyField size source := by
  refine Field.ext ?_
  change (cString (cString source).text).text.take (size - 1) = _
  rw [cString_cString]
  rfl

theorem kept_iff {size : Nat} [NeZero size] (value : Option (List UInt8)) :
    (value.elim (emptyField size) (copyField size)).text = value.getD [] ↔
      Kept size value := by
  cases value with
  | none => simp [emptyField, Kept]
  | some text => simpa [Kept] using copyField_text_eq_iff

variable [Libc]

def HostEntry.set (entry : HostEntry) (given : List UInt8 × List UInt8) :
    HostEntry :=
  if given.1 = ascii "host" then { entry with address := copyField _ given.2 }
  else if given.1 = ascii "port" then { entry with port := atoi given.2 }
  else if given.1 = ascii "user" then { entry with user := copyField _ given.2 }
  else if given.1 = ascii "password" then
    { entry with password := copyField _ given.2 }
  else if given.1 = ascii "profile" then { entry with profile := atoi given.2 }
  else entry

theorem legacyLine_eq (entry : HostEntry) (line : List UInt8) :
    legacyLine entry line = (setting line).elim entry entry.set := by
  unfold legacyLine setting
  cases cutAt 0x3d line with
  | none => rfl
  | some halves =>
      dsimp only
      by_cases comment : line.head? = some 0x23
      · rw [if_pos comment, if_pos comment]
        rfl
      · rw [if_neg comment, if_neg comment]
        rfl

theorem set_address (entry : HostEntry) (given : List UInt8 × List UInt8) :
    (entry.set given).address =
      if given.1 = ascii "host" then copyField _ given.2 else entry.address := by
  unfold HostEntry.set
  split_ifs <;> rfl

theorem set_user (entry : HostEntry) (given : List UInt8 × List UInt8) :
    (entry.set given).user =
      if given.1 = ascii "user" then copyField _ given.2 else entry.user := by
  by_cases named : given.1 = ascii "user"
  · simp [HostEntry.set, named, show ascii "user" ≠ ascii "host" by decide,
      show ascii "user" ≠ ascii "port" by decide]
  · rw [if_neg named]
    unfold HostEntry.set
    split_ifs <;> rfl

theorem set_password (entry : HostEntry) (given : List UInt8 × List UInt8) :
    (entry.set given).password =
      if given.1 = ascii "password" then copyField _ given.2
      else entry.password := by
  by_cases named : given.1 = ascii "password"
  · simp [HostEntry.set, named, show ascii "password" ≠ ascii "host" by decide,
      show ascii "password" ≠ ascii "port" by decide,
      show ascii "password" ≠ ascii "user" by decide]
  · rw [if_neg named]
    unfold HostEntry.set
    split_ifs <;> rfl

theorem foldl_setting {size : Nat} [NeZero size] {field : HostEntry → Field size}
    (step : ∀ entry given, field (HostEntry.set entry given) =
      if given.1 = key then copyField size given.2 else field entry)
    (read : List (List UInt8)) (entry : HostEntry) :
    field (read.foldl legacyLine entry) =
      (lastValue key read).elim (field entry) (copyField size) := by
  induction read using List.reverseRecOn with
  | nil => rfl
  | append_singleton read line ih =>
      rw [List.foldl_append, List.foldl_cons, List.foldl_nil, legacyLine_eq,
        lastValue, List.filterMap_append]
      cases found : setting line with
      | none =>
          have nothing : valueFor key line = none := by simp [valueFor, found]
          rw [List.filterMap_cons_none nothing, List.filterMap_nil,
            List.append_nil]
          exact ih
      | some given =>
          rw [Option.elim_some, step]
          by_cases named : given.1 = key
          · have value : valueFor key line = some given.2 := by
              simp [valueFor, found, named]
            rw [if_pos named, List.filterMap_cons_some value, List.filterMap_nil,
              List.getLast?_concat]
            rfl
          · have nothing : valueFor key line = none := by
              simp [valueFor, found, named]
            rw [if_neg named, List.filterMap_cons_none nothing,
              List.filterMap_nil, List.append_nil]
            exact ih

/-- What the old configuration's last value for a key becomes in the entry. -/
theorem lastValue_field {size : Nat} [NeZero size]
    {field : HostEntry → Field size}
    (step : ∀ entry given, field (HostEntry.set entry given) =
      if given.1 = key then copyField size given.2 else field entry)
    (blank : field hostsBlank = emptyField size) (noNul : 0 ∉ key)
    (content : List UInt8) :
    field ((lines (cString content).text).foldl legacyLine hostsBlank) =
      (lastValue key (linesRead content)).elim (emptyField size)
        (copyField size) := by
  rw [foldl_setting step, blank, lastValue_lines noNul]
  cases lastValue key (linesRead content) with
  | none => rfl
  | some value => exact copyField_cString value

theorem carriesSettings_iff (content : List UInt8) :
    CarriesSettings (legacyEntry (cString content).text) content ↔
      SettingsFit content := by
  let entry := (lines (cString content).text).foldl legacyLine hostsBlank
  have texts : (legacyEntry (cString content).text).address = entry.address ∧
      (legacyEntry (cString content).text).user = entry.user ∧
      (legacyEntry (cString content).text).password = entry.password := by
    unfold legacyEntry
    dsimp only
    split_ifs <;> exact ⟨rfl, rfl, rfl⟩
  have address : entry.address = _ :=
    lastValue_field set_address rfl (by decide) content
  have user : entry.user = _ := lastValue_field set_user rfl (by decide) content
  have password : entry.password = _ :=
    lastValue_field set_password rfl (by decide) content
  rw [CarriesSettings, texts.1, texts.2.1, texts.2.2, address, user, password,
    kept_iff, kept_iff, kept_iff]
  rfl

end Settings

/-! ## Loads -/

section Loads

variable [Libc]

def readFrom (path : Path) (files : Path → Option (List UInt8)) : FileRead :=
  readResult (fileMax - 1) (files path) (files (tempName path))

/-- Every text in the list is one of the file that was read, uncut, and records
that cannot be stored are dropped. -/
def WrittenIn (files : Path → Option (List UInt8)) (list : List HostEntry) :
    Prop :=
  match readFrom hostsPath files with
  | .whole content =>
      (∀ entry ∈ list, ∃ line ∈ lines content, Carries entry line) ∧
        DropsOversize content
  | .unreadable => list = []
  | .missing =>
      match readFrom legacyPath files with
      | .whole content => ∀ entry ∈ list, CarriesSettings entry content
      | _ => list = []

/-- No record that is taken holds a text too long to store, and no server that
the old configuration describes does. -/
def NothingCut (files : Path → Option (List UInt8)) : Prop :=
  match readFrom hostsPath files with
  | .whole content => ∀ line ∈ taken content, ¬ Oversize line
  | .unreadable => True
  | .missing =>
      match readFrom legacyPath files with
      | .whole content =>
          hostsProblem (some (legacyEntry (cString content).text)) = none →
            SettingsFit content
      | _ => True

theorem loaded_hosts_are_written_iff (card : MemoryCard) (start : HostList) :
    (∃ loaded after,
      Returns (Step noFaults) (hostsLoad start) card loaded after) ∧
    ∀ loaded after, Returns (Step noFaults) (hostsLoad start) card loaded after →
      (WrittenIn card.files loaded.2.entries.toList ↔ NothingCut card.files) := by
  have ensured := hostsLoad_result start card
  refine ⟨ensured.exists_returns, fun loaded after load => ?_⟩
  have result := ensured.returns load
  unfold loadResult at result
  unfold WrittenIn NothingCut readFrom
  generalize readResult (fileMax - 1) (card.files hostsPath)
    (card.files (tempName hostsPath)) = own at result ⊢
  generalize readResult (fileMax - 1) (card.files legacyPath)
    (card.files (tempName legacyPath)) = legacy at result ⊢
  cases own with
  | whole content =>
      obtain ⟨_, list⟩ := Prod.mk.inj result
      dsimp only
      rw [list, dropsOversize_iff]
      exact and_iff_right_of_imp listed_carried
  | unreadable =>
      obtain ⟨_, list⟩ := Prod.mk.inj result
      exact iff_of_true list trivial
  | missing =>
      obtain ⟨_, list⟩ := Prod.mk.inj result
      cases legacy with
      | whole content =>
          dsimp only at list ⊢
          rw [list, imported]
          by_cases accepted :
              hostsProblem (some (legacyEntry (cString content).text)) = none
          · simp [accepted, carriesSettings_iff]
          · simp [accepted]
      | missing => exact iff_of_true list trivial
      | unreadable => exact iff_of_true list trivial

end Loads

def longAddress : List UInt8 :=
  ascii "pi\t" ++ List.replicate 96 0x61 ++ ascii "\t22\troot\t\t0"

theorem not_carries {entry : HostEntry} {line : List UInt8}
    (large : hostAddressLen ≤ (fieldAt line 1).length) : ¬ Carries entry line := by
  intro carries
  have fits := entry.address.fits
  rw [carries.2.1] at fits
  exact absurd large (Nat.not_le.mpr fits)

/-- The server is in the list with the first ninety-five bytes of its address. -/
theorem long_address_is_cut :
    letI := saturating
    let content := longAddress ++ [0x0a]
    ¬ ∀ loaded after,
      Returns (Step noFaults) (hostsLoad noHosts)
        (blankCard.put hostsPath (some content)) loaded after →
      ∀ entry ∈ loaded.2.entries.toList,
        ∃ line ∈ lines content, Carries entry line := by
  let libc : Libc := saturating
  intro content writesAll
  have oneLine : lines content = [longAddress] := by
    have whole : ∀ line ∈ [longAddress],
        line ≠ [] ∧ ∀ ch ∈ line, ¬ IsBreak ch := by decide +kernel
    simpa [content] using lines_records whole
  have noNul : 0 ∉ content := by decide +kernel
  have short : content.length < fileMax - 1 := by decide +kernel
  obtain ⟨entry, read⟩ : ∃ entry, lineEntry longAddress = some entry :=
    Option.isSome_iff_exists.mp (by decide +kernel)
  have ensured := hostsLoad_result noHosts
    (blankCard.put hostsPath (some content))
  obtain ⟨loaded, after, load⟩ := ensured.exists_returns
  have result := ensured.returns load
  rw [loadResult_present, if_pos short, listed_of_noNul noNul, records, oneLine,
    List.filterMap_cons_some read, List.filterMap_nil] at result
  have member : entry ∈ loaded.2.entries.toList := by
    rw [(Prod.mk.inj result).2]
    exact List.mem_singleton.mpr rfl
  obtain ⟨line, inContent, carries⟩ := writesAll loaded after load entry member
  rw [oneLine, List.mem_singleton] at inContent
  subst inContent
  exact not_carries (by decide +kernel) carries

end Pspssh.Hosts
