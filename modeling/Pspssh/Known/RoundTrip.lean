import Pspssh.Known.Lookup

namespace Pspssh.Known

open Pspssh.Data
open Pspssh.Data.Program
open Pspssh.Card

/-! What a remembered key is when it is looked up, at once and after a load. -/

structure KnownEntry.Sound (entry : KnownEntry) : Prop where
  address_ne_nil : entry.address.text ≠ []
  address_plain : Plain entry.address.text
  fingerprint_ne_nil : entry.fingerprint.text ≠ []
  fingerprint_unbroken : ∀ ch ∈ entry.fingerprint.text, ¬ IsBreak ch

/-- A record for this address and port is read back from the file. -/
def Loads (address : List UInt8) (port : Int32) : Prop :=
  address.head? ≠ some 0x23 ∧ 1 ≤ port ∧ port ≤ 65535

instance (address : List UInt8) (port : Int32) : Decidable (Loads address port) :=
  inferInstanceAs (Decidable (_ ∧ _ ∧ _))

theorem copied_sound {name key : CString} (port : Int32)
    (nameNonempty : name.text ≠ []) (keyNonempty : key.text ≠ [])
    (namePlain : Plain name.text) (keyPlain : Plain key.text) :
    KnownEntry.Sound ⟨copyField _ name.text, port, copyField _ key.text⟩ := by
  have kept {size : Nat} [NeZero size] (large : 1 < size) {source : CString}
      (nonempty : source.text ≠ []) : (copyField size source.text).text ≠ [] := by
    change (cString source.text).text.take (size - 1) ≠ []
    rw [cString_text source.noNul, ne_eq, List.take_eq_nil_iff]
    exact not_or.mpr ⟨by omega, nonempty⟩
  exact ⟨kept (by decide) nameNonempty,
    fun ch member => namePlain ch (mem_copyField member),
    kept (by decide) keyNonempty,
    fun ch member => keyPlain.unbroken ch (mem_copyField member)⟩

section Lookups

variable {known : KnownHosts} {name key : CString} {port : Int32}

theorem lookup_placed {entries : Table KnownEntry knownMax}
    (placed : (∃ index, find name port known = some index ∧ entries =
        known.entries.store index
          ⟨copyField _ name.text, port, copyField _ key.text⟩) ∨
      find name port known = none ∧
        ∃ room, entries = known.entries.push
          ⟨copyField _ name.text, port, copyField _ key.text⟩ room) :
    entries.toList.find? (·.IsFor name.text port) =
      if name.text.length < addressLen then
        some ⟨copyField _ name.text, port, copyField _ key.text⟩
      else none := by
  have isFor : (⟨copyField _ name.text, port, copyField _ key.text⟩ :
      KnownEntry).IsFor name.text port = true ↔
        name.text.length < addressLen := by
    rw [isFor_iff]
    exact (and_iff_right rfl).trans (copyField_text_iff name.noNul)
  rcases placed with ⟨index, found, rfl⟩ | ⟨missing, room, rfl⟩
  · obtain ⟨_, passes, _⟩ := Table.find_eq_some found
    have fits : name.text.length < addressLen := by
      rw [← (isFor_iff.mp passes).2]
      exact (known.entries.slots index).address.fits
    rw [Table.find?_store found (isFor.mpr fits), if_pos fits]
  · rw [Table.find?_push, Table.find_eq_none missing, Option.none_or]
    by_cases fits : name.text.length < addressLen
    · rw [if_pos fits, if_pos (isFor.mpr fits)]
    · rw [if_neg fits, if_neg (mt isFor.mp fits)]

theorem find?_loaded (entries : List KnownEntry) (address : List UInt8) :
    (entries.filter fun entry =>
        Loads entry.address.text entry.port).find? (·.IsFor address port) =
      if Loads address port then entries.find? (·.IsFor address port)
      else none := by
  rw [List.find?_filter]
  have same (entry : KnownEntry) (matched : entry.IsFor address port = true) :
      Loads entry.address.text entry.port ↔ Loads address port := by
    obtain ⟨samePort, sameAddress⟩ := isFor_iff.mp matched
    rw [samePort, sameAddress]
  by_cases loads : Loads address port
  · rw [if_pos loads]
    congr 1
    funext entry
    cases matched : entry.IsFor address port with
    | false => simp
    | true => simp [(same entry matched).mpr loads]
  · rw [if_neg loads, List.find?_eq_none]
    intro entry _ found
    obtain ⟨read, matched⟩ := of_decide_eq_true found
    exact loads ((same entry matched).mp (of_decide_eq_true read))

end Lookups

section Lines

variable [Libc]

def lineEntry (line : List UInt8) : Option KnownEntry :=
  if line = [] ∨ line.head? = some 0x23 then none
  else
    match cutAt 0x09 line with
    | none => none
    | some (address, rest) =>
        match cutAt 0x09 rest with
        | none => none
        | some (port, fingerprint) =>
            if address = [] ∨ fingerprint = [] then none
            else if address.length ≥ addressLen ∨
                fingerprint.length ≥ fingerprintLen then none
            else if atoi port < 1 ∨ atoi port > 65535 then none
            else some ⟨copyField _ address, atoi port, copyField _ fingerprint⟩

/-- The port left in a free slot is not part of the list. -/
theorem toList_takeLine (entries : Table KnownEntry knownMax)
    (line : List UInt8) :
    (takeLine entries line).toList =
      (entries.toList ++ (lineEntry line).toList).take knownMax := by
  have scribbled (value : KnownEntry) :
      (entries.store entries.count value).toList = entries.toList := by
    rw [Table.toList_store, List.set_eq_of_length_le]
    rw [Table.length_toList]
  rw [← Table.toList_offer]
  unfold takeLine lineEntry
  by_cases skipped : line = [] ∨ line.head? = some 0x23
  · rw [if_pos skipped, if_pos skipped]
    rfl
  rw [if_neg skipped, if_neg skipped]
  by_cases room : entries.count < knownMax
  · rw [dif_pos room]
    cases cutAt 0x09 line with
    | none => rfl
    | some halves =>
        dsimp only
        cases cutAt 0x09 halves.2 with
        | none => rfl
        | some parts =>
            dsimp only
            split
            · rfl
            · split
              · rfl
              · split
                · exact scribbled _
                · rw [Table.offer, dif_pos room, Table.toList_push]
                  refine (Table.toList_push _ _).trans ?_
                  rw [scribbled]
  · have full (value : Option KnownEntry) : entries.offer value = entries := by
      cases value with
      | none => rfl
      | some value => exact dif_neg room
    rw [dif_neg room, full]

/-- The reader takes a sound entry's line apart as it was put together, and
drops it if its key does not load. -/
theorem lineEntry_line {entry : KnownEntry} (sound : entry.Sound) :
    lineEntry entry.line =
      if Loads entry.address.text entry.port then some entry else none := by
  obtain ⟨addressNonempty, plain, fingerprintNonempty, _⟩ := sound
  have first : entry.line.head? = entry.address.text.head? := by
    rw [KnownEntry.line, List.head?_append_of_ne_nil _ addressNonempty]
  have address := cutAt_append plain.no_tab
    (intText entry.port ++ 0x09 :: entry.fingerprint.text)
  have port := cutAt_append (plain_intText entry.port).no_tab
    entry.fingerprint.text
  have fits : ¬ (entry.address.text.length ≥ addressLen ∨
      entry.fingerprint.text.length ≥ fingerprintLen) := by
    have := entry.address.fits
    have := entry.fingerprint.fits
    omega
  have nonempty : ¬ (entry.address.text = [] ∨ entry.fingerprint.text = []) :=
    not_or.mpr ⟨addressNonempty, fingerprintNonempty⟩
  unfold lineEntry
  by_cases comment : entry.address.text.head? = some 0x23
  · rw [if_pos (.inr (first.trans comment)),
      if_neg fun loads => loads.1 comment]
  · have read : ¬ (entry.line = [] ∨ entry.line.head? = some 0x23) := by
      rw [first]
      exact not_or.mpr ⟨by simp [KnownEntry.line], comment⟩
    rw [if_neg read, KnownEntry.line, address]
    dsimp only
    rw [port]
    dsimp only
    rw [if_neg nonempty, if_neg fits, atoi_intText, copyField_self,
      copyField_self]
    by_cases range : entry.port < 1 ∨ entry.port > 65535
    · rw [if_pos range, if_neg]
      intro found
      obtain ⟨_, lower, upper⟩ := found
      rcases range with below | above
      · exact Int32.not_lt.mpr lower below
      · exact Int32.not_lt.mpr upper above
    · obtain ⟨lower, upper⟩ := not_or.mp range
      rw [if_neg range,
        if_pos ⟨comment, Int32.not_lt.mp lower, Int32.not_lt.mp upper⟩]

theorem lineEntry_sound {line : List UInt8} {entry : KnownEntry}
    (noNul : 0 ∉ line) (unbroken : ∀ ch ∈ line, ¬ IsBreak ch)
    (read : lineEntry line = some entry) : entry.Sound := by
  unfold lineEntry at read
  split at read
  · cases read
  split at read
  · cases read
  rename_i address rest first
  split at read
  · cases read
  rename_i port fingerprint second
  split at read
  · cases read
  rename_i nonempty
  split at read
  · cases read
  rename_i long
  split at read
  · cases read
  cases read
  obtain ⟨rfl, noTab⟩ := cutAt_eq_some_iff.mp first
  obtain ⟨rfl, _⟩ := cutAt_eq_some_iff.mp second
  obtain ⟨addressNonempty, fingerprintNonempty⟩ := not_or.mp nonempty
  obtain ⟨addressFits, fingerprintFits⟩ := not_or.mp long
  have inLine {ch : UInt8} (member : ch ∈ address ∨ ch ∈ fingerprint) :
      ch ∈ address ++ 0x09 :: (port ++ 0x09 :: fingerprint) := by
    simp only [List.mem_append, List.mem_cons]
    tauto
  have addressText : (copyField addressLen address).text = address :=
    copyField_text (fun member => noNul (inLine (.inl member)))
      (Nat.not_le.mp addressFits)
  have fingerprintText :
      (copyField fingerprintLen fingerprint).text = fingerprint :=
    copyField_text (fun member => noNul (inLine (.inr member)))
      (Nat.not_le.mp fingerprintFits)
  constructor
  · exact addressText.trans_ne addressNonempty
  · change Plain (copyField addressLen address).text
    rw [addressText]
    intro ch member separates
    rcases separates with rfl | ends
    · exact noTab member
    · exact unbroken ch (inLine (.inl member)) ends.symm
  · exact fingerprintText.trans_ne fingerprintNonempty
  · change ∀ ch ∈ (copyField fingerprintLen fingerprint).text, ¬ IsBreak ch
    rw [fingerprintText]
    exact fun ch member => unbroken ch (inLine (.inr member))

end Lines

section Text

variable {entries : List KnownEntry}

theorem lines_listText (sound : ∀ entry ∈ entries, entry.Sound) :
    lines (listText entries) = entries.map KnownEntry.line := by
  have whole : ∀ line ∈ entries.map KnownEntry.line,
      line ≠ [] ∧ ∀ ch ∈ line, ¬ IsBreak ch := by
    intro line member
    obtain ⟨entry, found, rfl⟩ := List.mem_map.mp member
    refine ⟨by simp [KnownEntry.line], fun ch inside => ?_⟩
    simp only [KnownEntry.line, List.mem_append, List.mem_cons] at inside
    rcases inside with inAddress | rfl | inPort | rfl | inFingerprint
    · exact (sound entry found).address_plain.unbroken ch inAddress
    · decide
    · exact (plain_intText _).unbroken ch inPort
    · decide
    · exact (sound entry found).fingerprint_unbroken ch inFingerprint
  have joined := lines_records whole
  rwa [List.map_map] at joined

theorem listText_noNul : 0 ∉ listText entries := by
  intro member
  obtain ⟨record, found, inside⟩ := List.mem_flatten.mp member
  obtain ⟨entry, _, rfl⟩ := List.mem_map.mp found
  simp [KnownEntry.line, entry.address.noNul, entry.fingerprint.noNul,
    intText_noNul] at inside

end Text

/-! ## Runs -/

section Runs

variable [Libc] {faults : IoCall → Prop} {known after : KnownHosts}
  {card saved : MemoryCard} {value : Int}

/-- Without failures a saved list loads as it was, but for the records whose
key does not load. -/
theorem load_saved (sound : ∀ entry ∈ known.entries.toList, entry.Sound)
    (present : saved.files knownPath = some (listText known.entries.toList))
    (start : KnownHosts) :
    Ensures (Step noFaults) (fun cut => cut.files = saved.files)
      (fun loaded _ => loaded.1 = 0 ∧ loaded.2.entries.toList =
        known.entries.toList.filter fun entry =>
          Loads entry.address.text entry.port)
      (knownhostsLoad start) saved := by
  refine Ensures.bind ((cardfileRead_present present
    (listText_length known.entries)).mono (fun _ kept => kept)
    fun read after kept whole => ?_)
  obtain ⟨value, lastError⟩ := read
  obtain rfl : value = .whole (listText known.entries.toList) := whole
  refine ⟨kept, rfl, ?_⟩
  have read : (known.entries.toList.map KnownEntry.line).filterMap lineEntry =
      known.entries.toList.filter fun entry =>
        Loads entry.address.text entry.port := by
    rw [List.filterMap_map, ← List.filterMap_eq_filter]
    refine List.filterMap_congr fun entry member => ?_
    rw [Function.comp_apply, lineEntry_line (sound entry member)]
    by_cases loads : Loads entry.address.text entry.port
    · simp [loads, Option.guard]
    · simp [loads, Option.guard]
  have short : known.entries.toList.length ≤ knownMax := by
    rw [Table.length_toList]
    exact known.entries.within
  change (List.foldl takeLine start.entries.clear _).toList = _
  rw [cString_text listText_noNul, lines_listText sound,
    Table.toList_foldl toList_takeLine, read, Table.toList_clear,
    List.nil_append, List.take_of_length_le]
  exact (List.length_filter_le _ _).trans short

inductive KnownCall where
  | load
  | remember (address : Option CString) (port : Int32)
      (fingerprint : Option CString)
  | forget (address : Option CString) (port : Int32)

def KnownCall.run (call : KnownCall) (known : KnownHosts) :
    Io (Int × KnownHosts) :=
  match call with
  | .load => knownhostsLoad known
  | .remember address port fingerprint =>
      knownhostsRemember address port fingerprint known
  | .forget address port => knownhostsForget address port known

/-- The lists that any calls leave, whatever is on the card at each and
whichever file calls fail. -/
inductive Reachable : KnownHosts → Prop where
  | start : Reachable noKnownHosts
  | call {call : KnownCall} {known after : KnownHosts}
      {card saved : MemoryCard} {value : Int} (reached : Reachable known)
      (made : Returns (Step anyFault) (call.run known) card (value, after)
        saved) :
      Reachable after

theorem loaded_sound
    (made : Returns (Step faults) (knownhostsLoad known) card (value, after)
      saved) : ∀ entry ∈ after.entries.toList, entry.Sound := by
  obtain ⟨read, middle, _, made⟩ := returns_bind_iff.mp made
  obtain ⟨result, lastError⟩ := read
  cases result with
  | unreadable =>
      cases made
      exact fun entry member => absurd member List.not_mem_nil
  | missing =>
      cases made
      exact fun entry member => absurd member List.not_mem_nil
  | whole content =>
      cases made
      intro entry member
      rw [Table.toList_foldl toList_takeLine] at member
      obtain ⟨line, inText, read⟩ :=
        List.mem_filterMap.mp (List.mem_of_mem_take member)
      have inside := mem_lines inText
      exact lineEntry_sound
        (fun nul => (cString content).noNul (inside 0 nul).1)
        (fun ch found => (inside ch found).2) read

theorem call_sound {call : KnownCall}
    (sound : ∀ entry ∈ known.entries.toList, entry.Sound)
    (made : Returns (Step faults) (call.run known) card (value, after) saved) :
    ∀ entry ∈ after.entries.toList, entry.Sound := by
  cases call with
  | load => exact loaded_sound made
  | remember address port fingerprint =>
      obtain ⟨_, same, _⟩ | ⟨name, key, _, _, nameNonempty, keyNonempty,
        namePlain, keyPlain, entries, placed, saves⟩ := remember_cases made
      · rwa [same]
      · have new := copied_sound port nameNonempty keyNonempty namePlain keyPlain
        intro entry member
        rw [save_entries saves] at member
        rcases placed with ⟨index, _, rfl⟩ | ⟨_, room, rfl⟩
        · rw [Table.toList_store] at member
          rcases List.mem_or_eq_of_mem_set member with old | rfl
          · exact sound entry old
          · exact new
        · rw [Table.toList_push] at member
          rcases List.mem_append.mp member with old | added
          · exact sound entry old
          · rw [List.mem_singleton.mp added]
            exact new
  | forget address port =>
      rcases forget_cases made with ⟨same, _⟩ | ⟨name, index, _, found, saves⟩
      · rwa [same]
      · intro entry member
        rw [save_entries saves,
          Table.toList_removeAt (Table.find_eq_some found).1] at member
        exact sound entry (List.mem_of_mem_eraseIdx member)

theorem Reachable.sound (reached : Reachable known) :
    ∀ entry ∈ known.entries.toList, entry.Sound := by
  induction reached with
  | start => exact fun entry member => absurd member List.not_mem_nil
  | call _ made ih => exact call_sound ih made

variable {name key : CString} {port : Int32}

theorem load_remembered (reached : Reachable known) {remembered : KnownHosts}
    (made : Returns (Step faults)
      (knownhostsRemember (some name) port (some key) known) card
      (0, remembered) saved) (start : KnownHosts) :
    remembered.entries.toList.find? (·.IsFor name.text port) =
      (if name.text.length < addressLen then
        some ⟨copyField _ name.text, port, copyField _ key.text⟩ else none) ∧
    Ensures (Step noFaults) (fun cut => cut.files = saved.files)
      (fun loaded _ => loaded.1 = 0 ∧
        loaded.2.entries.toList.find? (·.IsFor name.text port) =
          if Loads name.text port then
            remembered.entries.toList.find? (·.IsFor name.text port)
          else none)
      (knownhostsLoad start) saved := by
  have run : Returns (Step faults)
      ((KnownCall.remember (some name) port (some key)).run known) card
      (0, remembered) saved := made
  have sound := call_sound reached.sound run
  obtain ⟨failed, _⟩ | ⟨_, _, sameName, sameKey, _, _, _, _, entries, placed,
    saves⟩ := remember_cases made
  · simp at failed
  obtain rfl := Option.some.inj sameName
  obtain rfl := Option.some.inj sameKey
  have found := lookup_placed placed
  obtain ⟨same, ⟨_, present⟩ | ⟨failed, _⟩⟩ := (save_run _ card).returns saves
  · dsimp only at same present
    rw [← same] at found present
    refine ⟨found, (load_saved sound present start).mono (fun _ kept => kept)
      fun loaded _ _ ended => ?_⟩
    obtain ⟨result, list⟩ := ended
    exact ⟨result, by rw [list, find?_loaded]⟩
  · simp at failed

/-- A remembered key is found, at once and after a load, exactly if neither
part of it was cut and its record loads. -/
theorem remembered_is_found_iff (reached : Reachable known)
    {remembered : KnownHosts}
    (made : Returns (Step faults)
      (knownhostsRemember (some name) port (some key) known) card
      (0, remembered) saved) (start : KnownHosts) :
    (∃ loaded last,
      Returns (Step noFaults) (knownhostsLoad start) saved loaded last) ∧
    ∀ loaded last,
      Returns (Step noFaults) (knownhostsLoad start) saved loaded last →
      (knownhostsLookup (some name) port remembered = some key ∧
          loaded.1 = 0 ∧
          knownhostsLookup (some name) port loaded.2 = some key ↔
        name.text.length < addressLen ∧ key.text.length < fingerprintLen ∧
          name.text.head? ≠ some 0x23 ∧ 1 ≤ port ∧ port ≤ 65535) := by
  obtain ⟨found, ensured⟩ := load_remembered reached made start
  refine ⟨ensured.exists_returns, fun loaded last load => ?_⟩
  obtain ⟨result, later⟩ := ensured.returns load
  have kept : (copyField fingerprintLen key.text).toCString = key ↔
      key.text.length < fingerprintLen :=
    CString.ext_iff.trans (copyField_text_iff key.noNul)
  rw [knownhostsLookup_eq, knownhostsLookup_eq, later, found, result]
  by_cases fits : name.text.length < addressLen
  · rw [if_pos fits, and_iff_right fits]
    by_cases loads : Loads name.text port
    · rw [if_pos loads, Option.map_some, Option.some.injEq, kept]
      constructor
      · intro ⟨short, _⟩
        exact ⟨short, loads⟩
      · intro ⟨short, _⟩
        exact ⟨short, rfl, short⟩
    · rw [if_neg loads]
      constructor
      · intro ⟨_, _, lost⟩
        cases lost
      · intro ⟨_, reads⟩
        exact absurd reads loads
  · rw [if_neg fits]
    constructor
    · intro ⟨lost, _⟩
      cases lost
    · intro ⟨short, _⟩
      exact absurd short fits

end Runs

theorem exists_remember {known : KnownHosts} {port : Int32}
    (name key : CString) (missing : find name port known = none)
    (room : known.entries.count < knownMax)
    (nonempty : name.text ≠ [] ∧ key.text ≠ [])
    (plain : Plain name.text ∧ Plain key.text) (card : MemoryCard) :
    ∃ remembered saved, Returns (Step noFaults)
      (knownhostsRemember (some name) port (some key) known) card
      (0, remembered) saved := by
  have accepted : ¬ (name.text = [] ∨ key.text = []) :=
    not_or.mpr nonempty
  have whole : ¬ (¬ Plain name.text ∨ ¬ Plain key.text) :=
    not_or.mpr ⟨not_not.mpr plain.1, not_not.mpr plain.2⟩
  dsimp only [knownhostsRemember]
  rw [if_neg accepted, if_neg whole, missing]
  dsimp only
  rw [dif_pos room]
  exact exists_save { known with
    entries := known.entries.push
      ⟨copyField _ name.text, port, copyField _ key.text⟩ room } card

theorem remembered_is_found_at_pi :
    letI := saturating
    let name := cString (ascii "pi")
    let key := cString (ascii "SHA256:one")
    ∃ remembered saved,
      Returns (Step noFaults)
        (knownhostsRemember (some name) 22 (some key) noKnownHosts) blankCard
        (0, remembered) saved ∧
      (∃ loaded last, Returns (Step noFaults) (knownhostsLoad noKnownHosts)
        saved loaded last) ∧
      ∀ loaded last,
        Returns (Step noFaults) (knownhostsLoad noKnownHosts) saved loaded
          last →
        (knownhostsLookup (some name) 22 remembered = some key ∧
            loaded.1 = 0 ∧
            knownhostsLookup (some name) 22 loaded.2 = some key ↔
          name.text.length < addressLen ∧ key.text.length < fingerprintLen ∧
            name.text.head? ≠ some 0x23 ∧
            (1 : Int32) ≤ 22 ∧ (22 : Int32) ≤ 65535) := by
  let libc : Libc := saturating
  intro name key
  obtain ⟨remembered, saved, made⟩ :=
    exists_remember name key (rfl : find name 22 noKnownHosts = none)
      (by decide) (by decide) (by decide +kernel) blankCard
  exact ⟨remembered, saved, made,
    remembered_is_found_iff .start made noKnownHosts⟩

/-- The key of a server called `#pi` is remembered, and gone after a load. -/
theorem commented_address_is_lost :
    letI := saturating
    let name := cString (ascii "#pi")
    let key := cString (ascii "SHA256:one")
    ¬ ∀ remembered saved loaded last,
      Returns (Step noFaults)
        (knownhostsRemember (some name) 22 (some key) noKnownHosts) blankCard
        (0, remembered) saved →
      Returns (Step noFaults) (knownhostsLoad noKnownHosts) saved loaded last →
        knownhostsLookup (some name) 22 remembered = some key ∧
          loaded.1 = 0 ∧
          knownhostsLookup (some name) 22 loaded.2 = some key := by
  let libc : Libc := saturating
  intro name key foundAgain
  obtain ⟨remembered, saved, made⟩ :=
    exists_remember name key (rfl : find name 22 noKnownHosts = none)
      (by decide) (by decide) (by decide +kernel) blankCard
  obtain ⟨_, ensured⟩ := load_remembered .start made noKnownHosts
  obtain ⟨loaded, last, load⟩ := ensured.exists_returns
  have kept := (foundAgain remembered saved loaded last made load).2.2
  have comment : ¬ Loads name.text 22 := by decide
  rw [knownhostsLookup_eq, (ensured.returns load).2, if_neg comment] at kept
  cases kept

end Pspssh.Known
