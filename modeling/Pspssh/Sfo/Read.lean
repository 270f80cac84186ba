import Pspssh.Data.Search
import Pspssh.Data.Text
import Pspssh.Sfo.Build

namespace Pspssh.Sfo

open Pspssh.Data

attribute [local instance] byteOrder

/-! What a reader of the format sees, and that it finds what was written. -/

inductive Found where
  | text (bytes : List UInt8)
  | int (value : Int)
  deriving DecidableEq

def readHeader (file : List UInt8) : Header :=
  match structUnpack [4, 4, 4, 4, 4] file with
  | [magic, version, keyTable, dataTable, count] =>
      { magic, version, keyTable, dataTable, count }
  | _ => { magic := 0, version := 0, keyTable := 0, dataTable := 0, count := 0 }

/-- The entry at a place of the index, right behind the header. -/
def readRecord (file : List UInt8) (i : Nat) : Record :=
  match structUnpack [2, 2, 4, 4, 4] (file.drop (20 + 16 * i)) with
  | [keyOffset, fmt, length, maxLength, dataOffset] =>
      { keyOffset, fmt, length, maxLength, dataOffset }
  | _ => { keyOffset := 0, fmt := 0, length := 0, maxLength := 0, dataOffset := 0 }

def keyAt (file : List UInt8) (i : Nat) : List UInt8 :=
  (cString (file.drop
    ((readHeader file).keyTable + (readRecord file i).keyOffset))).text

def bytesAt (file : List UInt8) (i : Nat) : List UInt8 :=
  let record := readRecord file i
  (file.drop ((readHeader file).dataTable + record.dataOffset)).take record.length

/-- The value of an entry: a text without its NUL, or a number. -/
def valueAt (file : List UInt8) (i : Nat) : Option Found :=
  let record := readRecord file i
  if record.fmt = fmtUtf8 then some (.text (bytesAt file i).dropLast)
  else if record.fmt = fmtInt32 then some (.int (leValue (bytesAt file i)))
  else none

/-- The value of a key, found with a binary search. -/
def lookup (file key : List UInt8) : Option Found :=
  (binarySearch (keyAt file) key 0 (readHeader file).count).bind (valueAt file)

def Value.found : Value → Found
  | .text string => .text (encodeUtf8 string)
  | .int value => .int value

/-! ## Reading what was laid out -/

section Layout

variable {items : List Stored} {file : List UInt8}

theorem drop_index (layout : Layout items file) {start : Nat}
    (inside : start ≤ (index items).length) :
    file.drop (20 + start) =
      (index items).drop start ++ (keyTable items ++ dataTable items) := by
  rw [layout.parts, List.append_assoc, List.append_assoc,
    ← (header items).bytes_length, List.drop_length_add_append,
    List.drop_append_of_le_length inside]

theorem drop_keyTable (layout : Layout items file) {start : Nat}
    (inside : start ≤ (keyTable items).length) :
    file.drop ((header items).keyTable + start) =
      (keyTable items).drop start ++ dataTable items := by
  have front : ((header items).bytes ++ index items).length =
      (header items).keyTable := by
    rw [List.length_append, Header.bytes_length]
    rfl
  rw [layout.parts, List.append_assoc, ← front, List.drop_length_add_append,
    List.drop_append_of_le_length inside]

theorem drop_dataTable (layout : Layout items file) (start : Nat) :
    file.drop ((header items).dataTable + start) = (dataTable items).drop start := by
  have front : ((header items).bytes ++ index items ++ keyTable items).length =
      (header items).dataTable := by
    rw [List.length_append, List.length_append, Header.bytes_length]
    rfl
  rw [layout.parts, ← front, List.drop_length_add_append]

theorem file_length (layout : Layout items file) :
    file.length = (header items).dataTable + (dataTable items).length := by
  rw [layout.parts, List.length_append, List.length_append, List.length_append,
    Header.bytes_length]
  rfl

theorem readHeader_eq (layout : Layout items file) :
    readHeader file = header items := by
  have unpacked := structUnpack_of_pack layout.header_packs
    (index items ++ keyTable items ++ dataTable items)
  rw [← List.append_assoc, ← List.append_assoc, ← layout.parts] at unpacked
  unfold readHeader
  change structUnpack [4, 4, 4, 4, 4] file = _ at unpacked
  rw [unpacked]
  rfl

variable {i : Nat} {stored : Stored}

theorem readRecord_eq (layout : Layout items file) (at_i : items[i]? = some stored) :
    readRecord file i =
      stored.record (blockStart Stored.keyBytes items i)
        (blockStart Stored.payload items i) := by
  have inside : i ≤ items.length := (List.getElem?_eq_some_iff.mp at_i).1.le
  generalize named : stored.record (blockStart Stored.keyBytes items i)
    (blockStart Stored.payload items i) = record
  have at_record : (records 0 0 items)[i]? = some record := by
    rw [records_getElem?, at_i, Nat.zero_add, Nat.zero_add, ← named]
    rfl
  have start : blockStart Record.bytes (records 0 0 items) i = 16 * i :=
    blockStart_of_const Record.bytes_length (by rwa [records_length])
  have short : 16 * i ≤ (index items).length := by
    rw [← start, index, ← blockStart_length]
    exact blockStart_mono (by rwa [records_length])
  have behind : (index items).drop (16 * i) = record.bytes ++
      ((records 0 0 items).drop (i + 1)).flatMap Record.bytes := by
    rw [← start]
    exact drop_blockStart at_record
  have unpacked := structUnpack_of_pack
    (layout.records_pack record (List.mem_of_getElem? at_record))
    (((records 0 0 items).drop (i + 1)).flatMap Record.bytes ++
      (keyTable items ++ dataTable items))
  rw [← List.append_assoc, ← behind, ← drop_index layout short] at unpacked
  unfold readRecord
  change structUnpack [2, 2, 4, 4, 4] (file.drop (20 + 16 * i)) = _ at unpacked
  rw [unpacked]
  rfl

theorem keyAt_eq (layout : Layout items file) (at_i : items[i]? = some stored)
    (noNul : '\x00' ∉ stored.pair.key) :
    keyAt file i = encodeUtf8 stored.pair.key := by
  have inside : i ≤ items.length := (List.getElem?_eq_some_iff.mp at_i).1.le
  have short : blockStart Stored.keyBytes items i ≤
      (items.flatMap Stored.keyBytes).length := by
    rw [← blockStart_length]
    exact blockStart_mono inside
  have in_table : blockStart Stored.keyBytes items i ≤ (keyTable items).length := by
    rw [keyTable, List.length_append]
    omega
  unfold keyAt
  rw [readHeader_eq layout, readRecord_eq layout at_i]
  change (cString (file.drop ((header items).keyTable +
    blockStart Stored.keyBytes items i))).text = _
  rw [drop_keyTable layout in_table, keyTable,
    List.drop_append_of_le_length short, drop_blockStart at_i, Stored.keyBytes,
    List.append_assoc, List.append_assoc, List.append_assoc]
  refine cString_append (encodeUtf8_noNul noNul) fun ch first => ?_
  exact (Option.mem_some.mp first).symm

theorem bytesAt_eq (layout : Layout items file) (at_i : items[i]? = some stored) :
    bytesAt file i = stored.payload.take stored.item.length := by
  have short : stored.item.length ≤ stored.payload.length := by
    rw [stored.payload_length]
    exact (Value.item_sound stored.stores).length_le
  unfold bytesAt
  rw [readHeader_eq layout, readRecord_eq layout at_i]
  change (file.drop ((header items).dataTable +
    blockStart Stored.payload items i)).take stored.item.length = _
  rw [drop_dataTable layout, dataTable, drop_blockStart at_i,
    List.take_append_of_le_length short]

theorem valueAt_eq (layout : Layout items file) (at_i : items[i]? = some stored) :
    valueAt file i = some stored.pair.value.found := by
  unfold valueAt
  rw [readRecord_eq layout at_i, bytesAt_eq layout at_i]
  obtain ⟨⟨key, value⟩, item, stores⟩ := stored
  cases value with
  | int value =>
      obtain ⟨negative, packs⟩ := Option.ite_none_left_eq_some.mp stores
      obtain ⟨payload, packed, rfl⟩ := Option.map_eq_some_iff.mp packs
      have unpacked := structUnpack_of_pack packed []
      rw [List.append_nil] at unpacked
      have number : leValue (payload.take 4) = value.toNat :=
        (List.cons_eq_cons.mp unpacked).1
      change some (Found.int (leValue (payload.take 4))) = some (Found.int value)
      rw [number, Int.toNat_of_nonneg (Int.not_lt.mp negative)]
  | text string =>
      cases stores
      change some (Found.text (((encodeUtf8 string ++ [0] ++ _).take
        (encodeUtf8 string ++ [0]).length).dropLast)) = some (Found.text _)
      rw [List.take_left, List.dropLast_concat]

theorem count_eq (layout : Layout items file) :
    (readHeader file).count = items.length := by
  rw [readHeader_eq layout]
  rfl

theorem dataTable_aligned (layout : Layout items file) :
    4 ∣ (readHeader file).dataTable := by
  have entries : (index items).length = 16 * items.length := by
    rw [index, ← blockStart_length,
      blockStart_of_const Record.bytes_length (Nat.le_refl _), records_length]
  have keys : 4 ∣ (keyTable items).length := by
    rw [keyTable, List.length_append, padding, List.length_replicate]
    omega
  rw [readHeader_eq layout]
  change 4 ∣ 20 + (index items).length + (keyTable items).length
  omega

end Layout

/-! ## The file as a whole -/

/-- The file can be searched, and what is found in it is what was stored. -/
structure Searchable (pairs : List Pair) (file : List UInt8) : Prop where
  count : (readHeader file).count = pairs.length
  increasing : StrictMonoOn (keyAt file) (Set.Ico 0 (readHeader file).count)
  table_aligned : 4 ∣ (readHeader file).dataTable
  data_aligned : ∀ i < (readHeader file).count, 4 ∣ (readRecord file i).dataOffset
  reserved : ∀ i < (readHeader file).count,
    (readRecord file i).length ≤ (readRecord file i).maxLength
  inside : ∀ i < (readHeader file).count,
    (readHeader file).dataTable + (readRecord file i).dataOffset +
      (readRecord file i).maxLength ≤ file.length
  apart : ∀ i j, i < j → j < (readHeader file).count →
    (readRecord file i).dataOffset + (readRecord file i).maxLength ≤
      (readRecord file j).dataOffset
  found : ∀ pair ∈ pairs, lookup file (encodeUtf8 pair.key) = some pair.value.found
  only : ∀ key value, lookup file key = some value →
    ∃ pair ∈ pairs, encodeUtf8 pair.key = key

section Whole

variable {pairs : List Pair} {items : List Stored} {file : List UInt8}

theorem stored_at (layout : Layout items file) {i : Nat}
    (inside : i < (readHeader file).count) :
    ∃ stored, items[i]? = some stored := by
  rw [count_eq layout] at inside
  exact ⟨items[i], List.getElem?_eq_getElem inside⟩

theorem pair_mem (same : items.map Stored.pair = sortedPairs pairs) {i : Nat}
    {stored : Stored} (at_i : items[i]? = some stored) : stored.pair ∈ pairs := by
  rw [← mem_sortedPairs, ← same]
  exact List.mem_map_of_mem (List.mem_of_getElem? at_i)

theorem keyAt_strictMono (same : items.map Stored.pair = sortedPairs pairs)
    (layout : Layout items file) (distinct : (pairs.map Pair.key).Nodup)
    (noNul : ∀ pair ∈ pairs, '\x00' ∉ pair.key) :
    StrictMonoOn (keyAt file) (Set.Ico 0 (readHeader file).count) := by
  have sorted := pairwise_sortedPairs distinct
  rw [← same, List.pairwise_map] at sorted
  intro i first j second before
  obtain ⟨left, at_i⟩ := stored_at layout first.2
  obtain ⟨right, at_j⟩ := stored_at layout second.2
  rw [keyAt_eq layout at_i (noNul _ (pair_mem same at_i)),
    keyAt_eq layout at_j (noNul _ (pair_mem same at_j))]
  apply encodeUtf8_lt
  obtain ⟨i_inside, rfl⟩ := List.getElem?_eq_some_iff.mp at_i
  obtain ⟨j_inside, rfl⟩ := List.getElem?_eq_some_iff.mp at_j
  exact List.pairwise_iff_getElem.mp sorted i j i_inside j_inside before

theorem searchable_of_build (distinct : (pairs.map Pair.key).Nodup)
    (noNul : ∀ pair ∈ pairs, '\x00' ∉ pair.key)
    (built : build pairs = some file) : Searchable pairs file := by
  obtain ⟨items, same, layout⟩ := build_layout built
  have increasing := keyAt_strictMono same layout distinct noNul
  constructor
  case count =>
    have kept : (items.map Stored.pair).length = pairs.length := by
      rw [same]
      exact List.length_insertionSort _ pairs
    rw [count_eq layout, ← kept, List.length_map]
  case increasing => exact increasing
  case table_aligned => exact dataTable_aligned layout
  case data_aligned =>
    intro i inside
    obtain ⟨stored, at_i⟩ := stored_at layout inside
    rw [readRecord_eq layout at_i]
    refine dvd_blockStart fun stored _ => ?_
    rw [stored.payload_length]
    exact (Value.item_sound stored.stores).aligned
  case reserved =>
    intro i inside
    obtain ⟨stored, at_i⟩ := stored_at layout inside
    rw [readRecord_eq layout at_i]
    exact (Value.item_sound stored.stores).length_le
  case inside =>
    intro i inside
    obtain ⟨stored, at_i⟩ := stored_at layout inside
    rw [count_eq layout] at inside
    have ends : blockStart Stored.payload items i + stored.payload.length ≤
        (dataTable items).length := by
      rw [dataTable, ← blockStart_length]
      exact blockStart_add_le at_i inside
    rw [readHeader_eq layout, readRecord_eq layout at_i, file_length layout,
      Nat.add_assoc]
    refine Nat.add_le_add_left ?_ _
    change blockStart Stored.payload items i + stored.item.maxLength ≤ _
    rwa [← stored.payload_length]
  case apart =>
    intro i j before inside
    obtain ⟨left, at_i⟩ := stored_at layout (before.trans inside)
    obtain ⟨right, at_j⟩ := stored_at layout inside
    rw [readRecord_eq layout at_i, readRecord_eq layout at_j]
    change blockStart Stored.payload items i + left.item.maxLength ≤ _
    rw [← left.payload_length]
    exact blockStart_add_le at_i before
  case found =>
    intro pair member
    rw [← mem_sortedPairs, ← same] at member
    obtain ⟨stored, written, rfl⟩ := List.mem_map.mp member
    obtain ⟨i, at_i⟩ := List.mem_iff_getElem?.mp written
    have inside : i < (readHeader file).count := by
      rw [count_eq layout]
      exact (List.getElem?_eq_some_iff.mp at_i).1
    have key_at := keyAt_eq layout at_i (noNul _ (pair_mem same at_i))
    have search : binarySearch (keyAt file) (encodeUtf8 stored.pair.key) 0
        (readHeader file).count = some i :=
      (binarySearch_eq_some_iff increasing).mpr ⟨Nat.zero_le i, inside, key_at⟩
    unfold lookup
    rw [search]
    exact valueAt_eq layout at_i
  case only =>
    intro key value looked
    obtain ⟨i, search, _⟩ := Option.bind_eq_some_iff.mp looked
    obtain ⟨_, inside, key_at⟩ := (binarySearch_eq_some_iff increasing).mp search
    obtain ⟨stored, at_i⟩ := stored_at layout inside
    refine ⟨stored.pair, pair_mem same at_i, ?_⟩
    rw [← key_at, keyAt_eq layout at_i (noNul _ (pair_mem same at_i))]

/-- `build` returns a file unless its values take four gibibytes, and the file
that it returns can be searched for every key, and for no other. -/
theorem build_searchable (distinct : (pairs.map Pair.key).Nodup)
    (noNul : ∀ pair ∈ pairs, '\x00' ∉ pair.key)
    (fits : ∀ pair ∈ pairs, pair.value.Fits)
    (keys : (pairs.map Pair.keySize).sum < 65536) :
    ((pairs.map Pair.dataSize).sum < 2 ^ 32 →
        ∃ file, build pairs = some file) ∧
      ∀ file, build pairs = some file → Searchable pairs file := by
  constructor
  · exact fun data => build_returns fits keys data
  · exact fun _ built => searchable_of_build distinct noNul built

end Whole

theorem build_searchable_version :
    let pairs : List Pair :=
      [⟨['T', 'I', 'T', 'L', 'E'], .text ['p', 's', 'p', 's', 's', 'h']⟩,
        ⟨['A', 'P', 'P', '_', 'V', 'E', 'R'], .text ['0', '1', '.', '0', '0']⟩,
        ⟨['M', 'E', 'M', 'S', 'I', 'Z', 'E'], .int 1⟩]
    ∃ file, build pairs = some file ∧ Searchable pairs file := by
  intro pairs
  have keys : (pairs.map Pair.keySize).sum < 65536 := by decide +kernel
  obtain ⟨returns, searchable⟩ := build_searchable (by decide +kernel)
    (by decide +kernel) (by decide) keys
  obtain ⟨file, built⟩ := returns (by decide +kernel)
  exact ⟨file, built, searchable file built⟩

/-! ## The command line -/

section CommandLine

variable (int : List Char → Option Int)

/-- A `KEY=VALUE` argument, with `int` for what Python makes of a number:
`none` where the program gives up. -/
def argumentPair (argument : List Char) : Option Pair :=
  if '=' ∉ argument then none
  else
    let key := argument.takeWhile (· ≠ '=')
    match (argument.dropWhile (· ≠ '=')).tail with
    | ':' :: number => (int number).map fun value => { key, value := .int value }
    | value => some { key, value := .text value }

def mainPairs (title : List Char) (arguments : List (List Char)) :
    Option (List Pair) := do
  let rest ← arguments.mapM (argumentPair int)
  let pairs := { key := ['T', 'I', 'T', 'L', 'E'], value := .text title } :: rest
  if (pairs.map Pair.key).Nodup then some pairs else none

variable {int}

theorem argumentPair_key {argument : List Char} {pair : Pair}
    (parsed : argumentPair int argument = some pair) :
    pair.key = argument.takeWhile (· ≠ '=') := by
  obtain ⟨_, parsed⟩ := Option.ite_none_left_eq_some.mp parsed
  dsimp only at parsed
  split at parsed
  · obtain ⟨value, _, rfl⟩ := Option.map_eq_some_iff.mp parsed
    rfl
  · cases parsed
    rfl

theorem exists_of_mapM {α β : Type} {read : α → Option β} {given : List α}
    {results : List β} (each : given.mapM read = some results) :
    ∀ result ∈ results, ∃ item ∈ given, read item = some result := by
  induction given generalizing results with
  | nil =>
      cases each
      exact List.forall_mem_nil _
  | cons item rest ih =>
      rw [List.mapM_cons] at each
      obtain ⟨first, here, each⟩ := Option.bind_eq_some_iff.mp each
      obtain ⟨others, later, each⟩ := Option.bind_eq_some_iff.mp each
      cases each
      refine List.forall_mem_cons.mpr ⟨⟨item, List.mem_cons_self, here⟩, ?_⟩
      intro result member
      obtain ⟨other, inside, found⟩ := ih later result member
      exact ⟨other, List.mem_cons_of_mem item inside, found⟩

/-- Arguments hold no NUL, and `main` lets no key through twice: what it writes
can be searched. -/
theorem main_searchable {title : List Char} {arguments : List (List Char)}
    {pairs : List Pair} {file : List UInt8}
    (noNul : ∀ argument ∈ arguments, '\x00' ∉ argument)
    (parsed : mainPairs int title arguments = some pairs)
    (built : build pairs = some file) : Searchable pairs file := by
  obtain ⟨rest, each, parsed⟩ := Option.bind_eq_some_iff.mp parsed
  obtain ⟨distinct, same⟩ := Option.ite_none_right_eq_some.mp parsed
  cases same
  refine searchable_of_build distinct (fun pair member => ?_) built
  rcases List.mem_cons.mp member with rfl | later
  · change '\x00' ∉ ['T', 'I', 'T', 'L', 'E']
    decide
  · obtain ⟨argument, given, read⟩ := exists_of_mapM each pair later
    rw [argumentPair_key read]
    exact fun nul => noNul argument given ((List.takeWhile_sublist _).mem nul)

end CommandLine

end Pspssh.Sfo
