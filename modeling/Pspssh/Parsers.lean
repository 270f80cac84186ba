import Pspssh.Data.InPlace
import Pspssh.Hosts.RoundTrip
import Pspssh.Known.RoundTrip

/-! The readers of the two files as they run over the memory, and what they
read. -/

namespace Pspssh.Hosts

open Pspssh.Data
open Pspssh.Data.InPlace

section Described

variable [Libc]

def recordOf (line : List UInt8) : Option HostEntry :=
  match line.splitOn 0x09 with
  | name :: address :: port :: user :: password :: profile :: _ =>
      some
        { name := copyField _ name
          address := copyField _ address
          port := atoi port
          user := copyField _ user
          password := copyField _ password
          profile := atoi profile }
  | _ => none

def described (text : List UInt8) : List HostEntry :=
  let shown := (text.splitOnP (IsBreak ·)).filter fun line =>
    line ≠ [] ∧ line.head? ≠ some 0x23
  ((shown.filterMap recordOf).filter fun entry =>
    hostsProblem (some entry) = none).take hostsMax

theorem readEntry_eq (line : List UInt8) :
    readEntry line =
      (recordOf line).filter fun entry => hostsProblem (some entry) = none := by
  have record (entry : HostEntry) :
      (if hostsProblem (some entry) ≠ none then none else some entry) =
        (some entry).filter fun entry => hostsProblem (some entry) = none := by
    by_cases accepted : hostsProblem (some entry) = none
    · simp [accepted, Option.filter_some]
    · simp [accepted, Option.filter_some]
  unfold readEntry recordOf
  rw [split_eq_splitOn]
  generalize line.splitOn 0x09 = fields
  rcases fields with _ | ⟨name, _ | ⟨address, _ | ⟨port, _ | ⟨user, _ |
    ⟨password, _ | ⟨profile, others⟩⟩⟩⟩⟩⟩
  iterate 6 rfl
  rcases others with _ | ⟨seventh, _ | ⟨eighth, others⟩⟩
  iterate 3 exact record _

theorem lineEntry_eq (line : List UInt8) :
    lineEntry line =
      if line ≠ [] ∧ line.head? ≠ some 0x23 then
        (recordOf line).filter fun entry => hostsProblem (some entry) = none
      else none := by
  rw [lineEntry, readEntry_eq]
  by_cases skipped : line = [] ∨ line.head? = some 0x23
  · rw [if_pos skipped, if_neg fun shown => skipped.elim shown.1 shown.2]
  · rw [if_neg skipped, if_pos (not_or.mp skipped)]

theorem parse_described (text : List UInt8) (entries : Table HostEntry hostsMax) :
    (parse text entries.clear).toList = described text := by
  rw [toList_parse, Table.toList_clear, List.nil_append,
    filterMap_lines (by simp [lineEntry]), funext lineEntry_eq]
  dsimp only [described]
  rw [List.filter_filterMap, List.filterMap_filter]
  simp only [decide_eq_true_eq]

end Described

/-! ## In the memory -/

section Memory

variable [Libc]

def takeLineAt (buffer : List UInt8) (line : Nat)
    (entries : Table HostEntry hostsMax) :
    Option (List UInt8 × Table HostEntry hostsMax) := do
  let first ← buffer[line]?
  if first = 0 ∨ first = 0x23 then some (buffer, entries)
  else if room : entries.count < hostsMax then
    let (buffer, fields) ← splitLoop 8 buffer line [line]
    match fields with
    | name :: address :: port :: user :: password :: profile :: _ =>
        let entry : HostEntry :=
          { name := ← copyFieldAt _ buffer name
            address := ← copyFieldAt _ buffer address
            port := atoi (← stringAt buffer port)
            user := ← copyFieldAt _ buffer user
            password := ← copyFieldAt _ buffer password
            profile := atoi (← stringAt buffer profile) }
        if hostsProblem (some entry) ≠ none then some (buffer, entries)
        else some (buffer, entries.push entry room)
    | _ => some (buffer, entries)
  else some (buffer, entries)

/-- `parse`, with room for so many lines. -/
def parseAt (fuel : Nat) (buffer : List UInt8)
    (entries : Table HostEntry hostsMax) :
    Option (List UInt8 × Table HostEntry hostsMax) :=
  scanLines takeLineAt fuel buffer 0 entries

theorem takeLineAt_eq (line : List UInt8) (entries : Table HostEntry hostsMax)
    (noNul : 0 ∉ line) :
    ∃ worn, worn.length = line.length ∧ ∀ before rest,
      takeLineAt (before ++ (line ++ 0 :: rest)) before.length entries =
        some (before ++ (worn ++ 0 :: rest), takeLine entries line) := by
  have skips := skips_iff noNul 0x23
  by_cases skipped : line = [] ∨ line.head? = some 0x23
  · refine ⟨line, rfl, fun before rest => ?_⟩
    simp only [takeLineAt, getElem?_string, Option.bind_eq_bind,
      Option.bind_some, if_pos (skips.mpr skipped), takeLine, if_pos skipped]
  by_cases room : entries.count < hostsMax
  · refine ⟨_, length_intercalate_split 7 line, fun before rest => ?_⟩
    obtain ⟨fields, cut, points⟩ := splitLoop_line noNul 7 before rest
    simp only [takeLineAt, getElem?_string, Option.bind_eq_bind,
      Option.bind_some, if_neg (mt skips.mp skipped), dif_pos room, cut,
      takeLine, if_neg skipped, readEntry]
    generalize split 7 line = parts at points
    rcases points with _ | ⟨name, _ | ⟨address, _ | ⟨port, _ | ⟨user, _ |
      ⟨password, _ | ⟨profile, _⟩⟩⟩⟩⟩⟩
    iterate 6 rfl
    simp only [name.copyField, address.copyField, port.stringAt,
      user.copyField, password.copyField, profile.stringAt, Option.bind_some]
    split
    · rfl
    · rfl
  · refine ⟨line, rfl, fun before rest => ?_⟩
    simp only [takeLineAt, getElem?_string, Option.bind_eq_bind,
      Option.bind_some, if_neg (mt skips.mp skipped), dif_neg room, takeLine,
      if_neg skipped]

end Memory

end Pspssh.Hosts

namespace Pspssh.Known

open Pspssh.Data
open Pspssh.Data.InPlace

section Described

variable [Libc]

/-- The parts of a line: an address, a port and a fingerprint. -/
def partsOf (line : List UInt8) :
    Option (List UInt8 × List UInt8 × List UInt8) :=
  match line.splitOn 0x09 with
  | address :: port :: fingerprint :: others =>
      some (address, port, [0x09].intercalate (fingerprint :: others))
  | _ => none

/-- The record that these parts make up. -/
def recordOf (parts : List UInt8 × List UInt8 × List UInt8) :
    Option KnownEntry :=
  let (address, port, fingerprint) := parts
  if address ≠ [] ∧ address.length < addressLen ∧
      fingerprint ≠ [] ∧ fingerprint.length < fingerprintLen ∧
      1 ≤ atoi port ∧ atoi port ≤ 65535 then
    some
      { address := copyField _ address
        port := atoi port
        fingerprint := copyField _ fingerprint }
  else none

def described (text : List UInt8) : List KnownEntry :=
  let shown := (text.splitOnP (IsBreak ·)).filter fun line =>
    line ≠ [] ∧ line.head? ≠ some 0x23
  ((shown.filterMap partsOf).filterMap recordOf).take knownMax

theorem lineEntry_eq (line : List UInt8) :
    lineEntry line =
      if line ≠ [] ∧ line.head? ≠ some 0x23 then (partsOf line).bind recordOf
      else none := by
  unfold lineEntry
  by_cases skipped : line = [] ∨ line.head? = some 0x23
  · rw [if_pos skipped, if_neg fun shown => skipped.elim shown.1 shown.2]
  rw [if_neg skipped, if_pos (not_or.mp skipped), partsOf]
  cases first : cutAt 0x09 line with
  | none => rw [splitOn_of_uncut first]; rfl
  | some halves =>
      obtain ⟨address, rest⟩ := halves
      rw [splitOn_of_cutAt first]
      dsimp only
      cases second : cutAt 0x09 rest with
      | none => rw [splitOn_of_uncut second]; rfl
      | some halves =>
          obtain ⟨port, fingerprint⟩ := halves
          rw [splitOn_of_cutAt second]
          have joined : [0x09].intercalate (fingerprint.splitOn 0x09) =
              fingerprint := List.intercalate_splitOn 0x09
          obtain ⟨field, others, fields⟩ := List.exists_cons_of_ne_nil
            (List.splitOn_ne_nil 0x09 fingerprint)
          rw [fields] at joined ⊢
          dsimp only
          rw [joined, Option.bind_some, recordOf]
          grind

theorem load_described (text : List UInt8) (entries : Table KnownEntry knownMax) :
    ((lines text).foldl takeLine entries.clear).toList = described text := by
  rw [Table.toList_foldl toList_takeLine, Table.toList_clear,
    List.nil_append, filterMap_lines (by simp [lineEntry]),
    funext lineEntry_eq]
  dsimp only [described]
  rw [List.filterMap_filterMap, List.filterMap_filter]
  simp only [decide_eq_true_eq]

end Described

/-! ## In the memory -/

section Memory

variable [Libc]

def takeLineAt (buffer : List UInt8) (line : Nat)
    (entries : Table KnownEntry knownMax) :
    Option (List UInt8 × Table KnownEntry knownMax) := do
  let first ← buffer[line]?
  if first = 0 ∨ first = 0x23 then some (buffer, entries)
  else if room : entries.count < knownMax then
    match ← strchr buffer 0x09 line with
    | none => some (buffer, entries)
    | some tab1 =>
        let buffer ← poke buffer tab1 0
        match ← strchr buffer 0x09 (tab1 + 1) with
        | none => some (buffer, entries)
        | some tab2 =>
            let buffer ← poke buffer tab2 0
            if (← buffer[line]?) = 0 then some (buffer, entries)
            else if (← buffer[tab2 + 1]?) = 0 then some (buffer, entries)
            else
              let address ← stringAt buffer line
              let fingerprint ← stringAt buffer (tab2 + 1)
              if address.length ≥ addressLen ∨
                  fingerprint.length ≥ fingerprintLen then
                some (buffer, entries)
              else
                let port := atoi (← stringAt buffer (tab1 + 1))
                let scribbled := entries.store entries.count
                  { entries.slots entries.count with port := port }
                if port < 1 ∨ port > 65535 then some (buffer, scribbled)
                else
                  some (buffer, scribbled.push
                    { address := copyField _ address
                      port := port
                      fingerprint := copyField _ fingerprint } room)
  else some (buffer, entries)

/-- The loop of `knownhosts_load`, with room for so many lines. -/
def parseAt (fuel : Nat) (buffer : List UInt8)
    (entries : Table KnownEntry knownMax) :
    Option (List UInt8 × Table KnownEntry knownMax) :=
  scanLines takeLineAt fuel buffer 0 entries

theorem takeLineAt_parts (entries : Table KnownEntry knownMax)
    {address port fingerprint : List UInt8}
    (noNul : 0 ∉ address ++ 0x09 :: (port ++ 0x09 :: fingerprint))
    (addressWhole : 0x09 ∉ address) (portWhole : 0x09 ∉ port)
    (shown : ¬ (address ++ 0x09 :: (port ++ 0x09 :: fingerprint) = [] ∨
      (address ++ 0x09 :: (port ++ 0x09 :: fingerprint)).head? = some 0x23))
    (room : entries.count < knownMax) (before rest : List UInt8) :
    takeLineAt
        (before ++ (address ++ 0x09 :: (port ++ 0x09 :: fingerprint) ++
          0 :: rest)) before.length entries =
      some (before ++ (address ++ 0 :: (port ++ 0 :: fingerprint) ++ 0 :: rest),
        takeLine entries (address ++ 0x09 :: (port ++ 0x09 :: fingerprint))) := by
  have skips := skips_iff noNul 0x23
  have tab : (0x09 : UInt8) ≠ 0 := by decide
  have first := cutAt_append addressWhole (port ++ 0x09 :: fingerprint)
  have second := cutAt_append portWhole fingerprint
  obtain ⟨addressNoNul, portNoNul, fingerprintNoNul⟩ :
      0 ∉ address ∧ 0 ∉ port ∧ 0 ∉ fingerprint := by
    simpa using noNul
  have othersNoNul : 0 ∉ port ++ 0x09 :: fingerprint := by
    simp [portNoNul, fingerprintNoNul]
  have moved (tail : List UInt8) :
      before ++ (address ++ 0 :: tail ++ 0 :: rest) =
        before ++ (address ++ [0]) ++ (tail ++ 0 :: rest) :=
    behind_cut
  have place : before.length + address.length + 1 =
      (before ++ (address ++ [0])).length := by
    simp [Nat.add_assoc]
  have closed : poke
      (before ++ (address ++ 0 :: (port ++ 0x09 :: fingerprint) ++
        0 :: rest))
      (before.length + address.length + 1 + port.length) 0 =
        some (before ++ (address ++ 0 :: (port ++ 0 :: fingerprint) ++
          0 :: rest)) := by
    rw [moved, place, poke_mark, moved]
  generalize arranged : before ++ (address ++
    0 :: (port ++ 0 :: fingerprint) ++ 0 :: rest) = buffer at closed
  have atAddress : PointsAt buffer before.length address :=
    arranged ▸ pointsAt_front addressNoNul
  have atPort : PointsAt buffer
      (before.length + address.length + 1) port := by
    rw [← arranged, moved, place]
    exact pointsAt_front portNoNul
  have atFingerprint : PointsAt buffer
      (before.length + address.length + 1 + port.length + 1)
      fingerprint := by
    rw [← arranged, moved, place]
    exact pointsAt_behind fingerprintNoNul
  simp only [takeLineAt, getElem?_string, Option.bind_eq_bind,
    Option.bind_some, if_neg (mt skips.mp shown), dif_pos room,
    strchr_eq before tab noNul, first, Option.map_some, poke_mark,
    (pointsAt_behind othersNoNul).strchr tab, second, closed,
    atAddress.getElem?, atFingerprint.getElem?, atAddress.stringAt,
    atPort.stringAt, atFingerprint.stringAt,
    headD_eq_zero addressNoNul, headD_eq_zero fingerprintNoNul,
    takeLine, if_neg shown]
  by_cases addressEmpty : address = []
  · rw [if_pos addressEmpty, if_pos (.inl addressEmpty)]
  by_cases fingerprintEmpty : fingerprint = []
  · rw [if_neg addressEmpty, if_pos fingerprintEmpty,
      if_pos (.inr fingerprintEmpty)]
  rw [if_neg addressEmpty, if_neg fingerprintEmpty,
    if_neg (not_or.mpr ⟨addressEmpty, fingerprintEmpty⟩)]
  split_ifs
  · rfl
  · rfl
  · rfl

theorem takeLineAt_eq (line : List UInt8) (entries : Table KnownEntry knownMax)
    (noNul : 0 ∉ line) :
    ∃ worn, worn.length = line.length ∧ ∀ before rest,
      takeLineAt (before ++ (line ++ 0 :: rest)) before.length entries =
        some (before ++ (worn ++ 0 :: rest), takeLine entries line) := by
  have skips := skips_iff noNul 0x23
  have tab : (0x09 : UInt8) ≠ 0 := by decide
  by_cases skipped : line = [] ∨ line.head? = some 0x23
  · refine ⟨line, rfl, fun before rest => ?_⟩
    simp only [takeLineAt, getElem?_string, Option.bind_eq_bind,
      Option.bind_some, if_pos (skips.mpr skipped), takeLine, if_pos skipped]
  by_cases room : entries.count < knownMax
  · cases first : cutAt 0x09 line with
    | none =>
        refine ⟨line, rfl, fun before rest => ?_⟩
        simp only [takeLineAt, getElem?_string, Option.bind_eq_bind,
          Option.bind_some, if_neg (mt skips.mp skipped), dif_pos room,
          strchr_eq before tab noNul, first, Option.map_none, takeLine,
          if_neg skipped]
    | some halves =>
        obtain ⟨address, others⟩ := halves
        obtain ⟨rfl, addressWhole⟩ := cutAt_eq_some_iff.mp first
        have othersNoNul : 0 ∉ others := by
          simp only [List.mem_append, List.mem_cons, not_or] at noNul
          exact noNul.2.2
        cases second : cutAt 0x09 others with
        | none =>
            refine ⟨address ++ 0 :: others, by simp, fun before rest => ?_⟩
            simp only [takeLineAt, getElem?_string, Option.bind_eq_bind,
              Option.bind_some, if_neg (mt skips.mp skipped), dif_pos room,
              strchr_eq before tab noNul, first, Option.map_some, poke_mark,
              (pointsAt_behind othersNoNul).strchr tab, Option.map_none,
              takeLine, if_neg skipped, second]
        | some halves =>
            obtain ⟨port, fingerprint⟩ := halves
            obtain ⟨rfl, portWhole⟩ := cutAt_eq_some_iff.mp second
            exact ⟨address ++ 0 :: (port ++ 0 :: fingerprint), by simp,
              takeLineAt_parts entries noNul addressWhole portWhole skipped
                room⟩
  · refine ⟨line, rfl, fun before rest => ?_⟩
    simp only [takeLineAt, getElem?_string, Option.bind_eq_bind,
      Option.bind_some, if_neg (mt skips.mp skipped), dif_neg room, takeLine,
      if_neg skipped]

end Memory

end Pspssh.Known

namespace Pspssh

open Pspssh.Data
open Pspssh.Data.InPlace

section Readers

variable [Libc]

/-- Both readers go over a text up to its NUL, whatever lies behind it, and end
with the entries that it describes. -/
theorem parsers_read_described
    (hosts : Table Hosts.HostEntry Hosts.hostsMax)
    (known : Table Known.KnownEntry Known.knownMax) (text : List UInt8)
    (noNul : 0 ∉ text) :
    (∃ worn, worn.length = text.length ∧
      (Hosts.parse text hosts.clear).toList = Hosts.described text ∧
      ∀ rest fuel, text.length < fuel →
        Hosts.parseAt fuel (text ++ 0 :: rest) hosts.clear =
          some (worn ++ 0 :: rest, Hosts.parse text hosts.clear)) ∧
    ∃ worn, worn.length = text.length ∧
      ((lines text).foldl Known.takeLine known.clear).toList =
        Known.described text ∧
      ∀ rest fuel, text.length < fuel →
        Known.parseAt fuel (text ++ 0 :: rest) known.clear =
          some (worn ++ 0 :: rest,
            (lines text).foldl Known.takeLine known.clear) := by
  constructor
  · obtain ⟨worn, kept, runs⟩ :=
      scanLines_eq Hosts.takeLineAt_eq noNul hosts.clear
    exact ⟨worn, kept, Hosts.parse_described text hosts, runs []⟩
  · obtain ⟨worn, kept, runs⟩ :=
      scanLines_eq Known.takeLineAt_eq noNul known.clear
    exact ⟨worn, kept, Known.load_described text known, runs []⟩

end Readers

theorem parsers_read_one_record :
    letI := saturating
    ∃ worn, worn.length = 13 ∧
      (Hosts.parse (ascii "n\th\t22\tu\t\t0\r#") Hosts.noHosts.entries.clear).toList =
        Hosts.described (ascii "n\th\t22\tu\t\t0\r#") ∧
      Hosts.parseAt 14 (ascii "n\th\t22\tu\t\t0\r#" ++ [0])
          Hosts.noHosts.entries.clear =
        some (worn ++ [0],
          Hosts.parse (ascii "n\th\t22\tu\t\t0\r#")
            Hosts.noHosts.entries.clear) := by
  let libc : Libc := saturating
  obtain ⟨⟨worn, kept, read, runs⟩, _⟩ :=
    parsers_read_described Hosts.noHosts.entries Known.noKnownHosts.entries
      (ascii "n\th\t22\tu\t\t0\r#") (by decide)
  exact ⟨worn, kept, read, runs [] 14 (by decide)⟩

end Pspssh
