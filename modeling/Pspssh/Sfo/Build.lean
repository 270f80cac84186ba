import Pspssh.Data.Struct
import Pspssh.Data.Utf8

namespace Pspssh.Sfo

open Pspssh.Data

/-! The writer of PARAM.SFO. -/

def magic : List UInt8 := [0x00, 0x50, 0x53, 0x46]

def version : Nat := 0x00000101

def fmtUtf8 : Nat := 0x0204

def fmtInt32 : Nat := 0x0404

/-- A value: a text, or what `int` makes of it. -/
inductive Value where
  | text (string : List Char)
  | int (value : Int)
  deriving DecidableEq

structure Pair where
  key : List Char
  value : Value
  deriving DecidableEq

/-- `(length + 3) & ~3` -/
def roundedUp (length : Nat) : Nat :=
  (length + 3) / 4 * 4

structure Item where
  fmt : Nat
  length : Nat
  maxLength : Nat
  payload : List UInt8

/-- The item of a value, with `none` where `struct.pack` raises. -/
def Value.item : Value → Option Item
  | .int value =>
      if value < 0 then none
      else
        (structPack [(4, value.toNat)]).map fun payload =>
          { fmt := fmtInt32, length := 4, maxLength := 4, payload }
  | .text string =>
      let payload := encodeUtf8 string ++ [0]
      let length := payload.length
      let maxLength := roundedUp length
      some
        { fmt := fmtUtf8
          length
          maxLength
          payload := payload ++ List.replicate (maxLength - length) 0 }

/-- The payload of an item fills the place reserved for it, which is a multiple
of four and holds the value. -/
structure Item.Sound (item : Item) : Prop where
  fmt : item.fmt = fmtUtf8 ∨ item.fmt = fmtInt32
  payload_length : item.payload.length = item.maxLength
  length_le : item.length ≤ item.maxLength
  aligned : 4 ∣ item.maxLength

theorem roundedUp_le (length : Nat) : length ≤ roundedUp length := by
  unfold roundedUp
  omega

theorem dvd_roundedUp (length : Nat) : 4 ∣ roundedUp length :=
  Nat.dvd_mul_left 4 _

theorem Value.item_sound {value : Value} {item : Item}
    (stores : value.item = some item) : item.Sound := by
  cases value with
  | int value =>
      obtain ⟨_, packs⟩ := Option.ite_none_left_eq_some.mp stores
      obtain ⟨payload, packed, rfl⟩ := Option.map_eq_some_iff.mp packs
      exact ⟨.inr rfl, structPack_length packed, Nat.le_refl 4, Nat.dvd_refl 4⟩
  | text string =>
      cases stores
      have long := roundedUp_le (encodeUtf8 string ++ [0]).length
      refine ⟨.inl rfl, ?_, long, dvd_roundedUp _⟩
      rw [List.length_append, List.length_replicate]
      exact Nat.add_sub_cancel' long

structure Record where
  keyOffset : Nat
  fmt : Nat
  length : Nat
  maxLength : Nat
  dataOffset : Nat
  deriving DecidableEq

/-- `"<HHIII"` -/
def Record.fields (record : Record) : List (Nat × Nat) :=
  [(2, record.keyOffset), (2, record.fmt), (4, record.length),
    (4, record.maxLength), (4, record.dataOffset)]

structure Tables where
  keyBlob : List UInt8
  dataBlob : List UInt8
  index : List UInt8

/-- The body of the loop. -/
def Tables.add (tables : Tables) (pair : Pair) : Option Tables := do
  let item ← pair.value.item
  let packed ← structPack (Record.fields
    { keyOffset := tables.keyBlob.length
      fmt := item.fmt
      length := item.length
      maxLength := item.maxLength
      dataOffset := tables.dataBlob.length })
  pure
    { keyBlob := tables.keyBlob ++ (encodeUtf8 pair.key ++ [0])
      dataBlob := tables.dataBlob ++ item.payload
      index := tables.index ++ packed }

/-- `sorted(pairs, key=lambda p: p[0])` -/
def sortedPairs (pairs : List Pair) : List Pair :=
  pairs.insertionSort fun left right => left.key ≤ right.key

/-- The zeros behind a table that is to end on a multiple of four. -/
def padding (length : Nat) : List UInt8 :=
  List.replicate ((4 - length % 4) % 4) 0

structure Header where
  magic : Nat
  version : Nat
  keyTable : Nat
  dataTable : Nat
  count : Nat
  deriving DecidableEq

/-- `"<IIIII"` -/
def Header.fields (header : Header) : List (Nat × Nat) :=
  [(4, header.magic), (4, header.version), (4, header.keyTable),
    (4, header.dataTable), (4, header.count)]

/-- The file that `build` returns, with `none` where it raises. -/
def build (pairs : List Pair) : Option (List UInt8) := do
  let entries := sortedPairs pairs
  let tables ← entries.foldlM Tables.add { keyBlob := [], dataBlob := [], index := [] }
  let keyBlob := tables.keyBlob ++ padding tables.keyBlob.length
  let keyTable := 20 + tables.index.length
  let header ← structPack (Header.fields
    { magic := leValue magic
      version := version
      keyTable := keyTable
      dataTable := keyTable + keyBlob.length
      count := entries.length })
  pure (header ++ tables.index ++ keyBlob ++ tables.dataBlob)

/-! ## The order of the keys -/

theorem pairwise_sortedPairs {pairs : List Pair}
    (distinct : (pairs.map Pair.key).Nodup) :
    (sortedPairs pairs).Pairwise fun left right => left.key < right.key := by
  have total : Std.Total fun left right : Pair => left.key ≤ right.key :=
    ⟨fun left right => le_total left.key right.key⟩
  have transitive : IsTrans Pair fun left right => left.key ≤ right.key :=
    ⟨fun _ _ _ first second => le_trans first second⟩
  have sorted := List.pairwise_insertionSort
    (fun left right : Pair => left.key ≤ right.key) pairs
  have apart : ((sortedPairs pairs).map Pair.key).Nodup :=
    ((List.perm_insertionSort _ pairs).map Pair.key).nodup_iff.mpr distinct
  refine sorted.imp₂ (fun left right less other => lt_of_le_of_ne less other) ?_
  exact List.pairwise_map.mp apart

theorem mem_sortedPairs {pairs : List Pair} {pair : Pair} :
    pair ∈ sortedPairs pairs ↔ pair ∈ pairs :=
  (List.perm_insertionSort _ pairs).mem_iff

/-! ## What the loop leaves -/

structure Stored where
  pair : Pair
  item : Item
  stores : pair.value.item = some item

def Stored.keyBytes (stored : Stored) : List UInt8 :=
  encodeUtf8 stored.pair.key ++ [0]

def Stored.payload (stored : Stored) : List UInt8 :=
  stored.item.payload

theorem Stored.payload_length (stored : Stored) :
    stored.payload.length = stored.item.maxLength :=
  (Value.item_sound stored.stores).payload_length

def Stored.record (stored : Stored) (keyOffset dataOffset : Nat) : Record where
  keyOffset := keyOffset
  fmt := stored.item.fmt
  length := stored.item.length
  maxLength := stored.item.maxLength
  dataOffset := dataOffset

def records : Nat → Nat → List Stored → List Record
  | _, _, [] => []
  | keyOffset, dataOffset, stored :: rest =>
      stored.record keyOffset dataOffset ::
        records (keyOffset + stored.keyBytes.length)
          (dataOffset + stored.payload.length) rest

def Record.bytes (record : Record) : List UInt8 :=
  record.fields.flatMap fun field => leBytes field.1 field.2

@[simp] theorem Record.bytes_length (record : Record) :
    record.bytes.length = 16 := by
  simp [bytes, fields]

@[simp] theorem records_length (keyOffset dataOffset : Nat) (items : List Stored) :
    (records keyOffset dataOffset items).length = items.length := by
  induction items generalizing keyOffset dataOffset with
  | nil => rfl
  | cons stored rest ih => exact congrArg (· + 1) (ih _ _)

theorem records_getElem? (keyOffset dataOffset i : Nat) (items : List Stored) :
    (records keyOffset dataOffset items)[i]? =
      items[i]?.map fun stored => stored.record
        (keyOffset + blockStart Stored.keyBytes items i)
        (dataOffset + blockStart Stored.payload items i) := by
  induction items generalizing keyOffset dataOffset i with
  | nil => rfl
  | cons stored rest ih =>
      cases i with
      | zero => rfl
      | succ i =>
          simp only [records, List.getElem?_cons_succ, blockStart,
            List.take_succ_cons, List.flatMap_cons, List.length_append,
            ← Nat.add_assoc]
          exact ih _ _ i

/-- The loop appends the keys, the payloads and the entries of what it adds. -/
structure Adds (start : Tables) (items : List Stored) (tables : Tables) : Prop where
  keyBlob : tables.keyBlob = start.keyBlob ++ items.flatMap Stored.keyBytes
  dataBlob : tables.dataBlob = start.dataBlob ++ items.flatMap Stored.payload
  index : tables.index = start.index ++
    (records start.keyBlob.length start.dataBlob.length items).flatMap Record.bytes
  packs : ∀ record ∈ records start.keyBlob.length start.dataBlob.length items,
    structPack record.fields = some record.bytes

theorem Adds.one {start next : Tables} {pair : Pair}
    (added : start.add pair = some next) :
    ∃ stored : Stored, stored.pair = pair ∧ Adds start [stored] next := by
  obtain ⟨item, stores, added⟩ := Option.bind_eq_some_iff.mp added
  obtain ⟨packed, packs, added⟩ := Option.bind_eq_some_iff.mp added
  cases added
  let stored : Stored := ⟨pair, item, stores⟩
  let record := stored.record start.keyBlob.length start.dataBlob.length
  have same : packed = record.bytes :=
    (Option.some.inj (Option.ite_none_right_eq_some.mp packs).2).symm
  refine ⟨stored, rfl, ?_, ?_, ?_, ?_⟩
  · rw [List.flatMap_singleton]
    rfl
  · rw [List.flatMap_singleton]
    rfl
  · rw [same]
    simp [records, record]
  · rw [same] at packs
    exact List.forall_mem_singleton.mpr packs

theorem Adds.cons {start next tables : Tables} {stored : Stored}
    {items : List Stored} (first : Adds start [stored] next)
    (rest : Adds next items tables) : Adds start (stored :: items) tables := by
  have keys : next.keyBlob = start.keyBlob ++ stored.keyBytes :=
    first.keyBlob.trans (by rw [List.flatMap_singleton])
  have data : next.dataBlob = start.dataBlob ++ stored.payload :=
    first.dataBlob.trans (by rw [List.flatMap_singleton])
  have later : records next.keyBlob.length next.dataBlob.length items =
      records (start.keyBlob.length + stored.keyBytes.length)
        (start.dataBlob.length + stored.payload.length) items := by
    rw [keys, data, List.length_append, List.length_append]
  constructor
  · rw [rest.keyBlob, keys, List.flatMap_cons, List.append_assoc]
  · rw [rest.dataBlob, data, List.flatMap_cons, List.append_assoc]
  · rw [rest.index, first.index, later, records, List.flatMap_cons]
    simp [records]
  · rw [records]
    refine List.forall_mem_cons.mpr ⟨first.packs _ List.mem_cons_self, ?_⟩
    rw [← later]
    exact rest.packs

theorem add_all {start tables : Tables} {entries : List Pair}
    (run : entries.foldlM Tables.add start = some tables) :
    ∃ items : List Stored, items.map Stored.pair = entries ∧
      Adds start items tables := by
  induction entries generalizing start with
  | nil =>
      cases run
      refine ⟨[], rfl, ?_, ?_, ?_, ?_⟩
      · exact (List.append_nil _).symm
      · exact (List.append_nil _).symm
      · exact (List.append_nil _).symm
      · exact List.forall_mem_nil _
  | cons pair rest ih =>
      obtain ⟨next, added, run⟩ := Option.bind_eq_some_iff.mp run
      obtain ⟨items, same, later⟩ := ih run
      obtain ⟨stored, here, first⟩ := Adds.one added
      exact ⟨stored :: items, by rw [List.map_cons, here, same], first.cons later⟩

/-! ## The file -/

def Header.bytes (header : Header) : List UInt8 :=
  header.fields.flatMap fun field => leBytes field.1 field.2

@[simp] theorem Header.bytes_length (header : Header) :
    header.bytes.length = 20 := by
  simp [bytes, fields]

def keyTable (items : List Stored) : List UInt8 :=
  let keys := items.flatMap Stored.keyBytes
  keys ++ padding keys.length

def dataTable (items : List Stored) : List UInt8 :=
  items.flatMap Stored.payload

def index (items : List Stored) : List UInt8 :=
  (records 0 0 items).flatMap Record.bytes

def header (items : List Stored) : Header where
  magic := leValue magic
  version := version
  keyTable := 20 + (index items).length
  dataTable := 20 + (index items).length + (keyTable items).length
  count := items.length

/-- The file is laid out for these items, and every number in it fits. -/
structure Layout (items : List Stored) (file : List UInt8) : Prop where
  header_packs : structPack (header items).fields = some (header items).bytes
  records_pack : ∀ record ∈ records 0 0 items,
    structPack record.fields = some record.bytes
  parts : file =
    (header items).bytes ++ index items ++ keyTable items ++ dataTable items

theorem build_layout {pairs : List Pair} {file : List UInt8}
    (built : build pairs = some file) :
    ∃ items : List Stored, items.map Stored.pair = sortedPairs pairs ∧
      Layout items file := by
  obtain ⟨tables, run, built⟩ := Option.bind_eq_some_iff.mp built
  obtain ⟨items, same, adds⟩ := add_all run
  obtain ⟨packed, packs, built⟩ := Option.bind_eq_some_iff.mp built
  cases built
  have keys : tables.keyBlob = items.flatMap Stored.keyBytes :=
    adds.keyBlob.trans (List.nil_append _)
  have data : tables.dataBlob = dataTable items :=
    adds.dataBlob.trans (List.nil_append _)
  have entries : tables.index = index items :=
    adds.index.trans (List.nil_append _)
  have count : (sortedPairs pairs).length = items.length := by
    rw [← same, List.length_map]
  rw [keys, entries, count] at packs
  have bytes : packed = (header items).bytes :=
    (Option.some.inj (Option.ite_none_right_eq_some.mp packs).2).symm
  refine ⟨items, same, ?_, adds.packs, ?_⟩
  · rw [bytes] at packs
    exact packs
  · rw [bytes, keys, entries, data]
    rfl

/-! ## When there is a file -/

theorem Record.packs (record : Record) (keyOffset : record.keyOffset < 256 ^ 2)
    (fmt : record.fmt < 256 ^ 2) (length : record.length < 256 ^ 4)
    (maxLength : record.maxLength < 256 ^ 4)
    (dataOffset : record.dataOffset < 256 ^ 4) :
    structPack record.fields = some record.bytes := by
  refine if_pos ?_
  simp only [fields, List.forall_mem_cons]
  exact ⟨keyOffset, fmt, length, maxLength, dataOffset, List.forall_mem_nil _⟩

theorem header_packs {keyTable dataTable count : Nat}
    (keys : keyTable < 256 ^ 4) (data : dataTable < 256 ^ 4)
    (entries : count < 256 ^ 4) :
    ∃ packed, structPack (Header.fields
      { magic := leValue magic, version, keyTable, dataTable, count }) =
        some packed := by
  refine ⟨_, if_pos ?_⟩
  simp only [Header.fields, List.forall_mem_cons]
  exact ⟨by decide, by decide, keys, data, entries, List.forall_mem_nil _⟩

theorem padding_length_le (length : Nat) : (padding length).length ≤ 3 := by
  rw [padding, List.length_replicate]
  omega

theorem Item.Sound.fmt_lt {item : Item} (sound : item.Sound) :
    item.fmt < 256 ^ 2 := by
  rcases sound.fmt with utf8 | int32
  · rw [utf8]
    decide
  · rw [int32]
    decide

theorem exists_add (start : Tables) (stored : Stored)
    (keys : start.keyBlob.length < 256 ^ 2)
    (data : start.dataBlob.length + stored.payload.length < 256 ^ 4) :
    ∃ next, start.add stored.pair = some next ∧
      next.keyBlob = start.keyBlob ++ stored.keyBytes ∧
      next.dataBlob = start.dataBlob ++ stored.payload := by
  have sound := Value.item_sound stored.stores
  rw [stored.payload_length] at data
  have maxLength : stored.item.maxLength < 256 ^ 4 := by omega
  have packs := Record.packs
    (stored.record start.keyBlob.length start.dataBlob.length) keys sound.fmt_lt
    (sound.length_le.trans_lt maxLength) maxLength
    (Nat.lt_of_le_of_lt (Nat.le_add_right _ _) data)
  exact ⟨_, Option.bind_eq_some_iff.mpr ⟨stored.item, stored.stores,
    Option.bind_eq_some_iff.mpr ⟨_, packs, rfl⟩⟩, rfl, rfl⟩

theorem exists_add_all (start : Tables) (items : List Stored)
    (keys : start.keyBlob.length + (items.flatMap Stored.keyBytes).length ≤ 256 ^ 2)
    (data : start.dataBlob.length + (items.flatMap Stored.payload).length < 256 ^ 4) :
    ∃ tables, (items.map Stored.pair).foldlM Tables.add start = some tables := by
  induction items generalizing start with
  | nil => exact ⟨start, rfl⟩
  | cons stored rest ih =>
      simp only [List.flatMap_cons, List.length_append] at keys data
      have some_byte : 0 < stored.keyBytes.length := by simp [Stored.keyBytes]
      obtain ⟨next, added, same_keys, same_data⟩ :=
        exists_add start stored (by omega) (by omega)
      obtain ⟨tables, run⟩ := ih next
        (by rw [same_keys, List.length_append]; omega)
        (by rw [same_data, List.length_append]; omega)
      exact ⟨tables, Option.bind_eq_some_iff.mpr ⟨next, added, run⟩⟩

def Value.Fits : Value → Prop
  | .int value => 0 ≤ value ∧ value < 2 ^ 32
  | .text _ => True

instance : DecidablePred Value.Fits
  | .int _ => inferInstanceAs (Decidable (_ ∧ _))
  | .text _ => .isTrue True.intro

theorem exists_item {value : Value} (fits : value.Fits) :
    ∃ item, value.item = some item := by
  cases value with
  | int number =>
      obtain ⟨lower, upper⟩ := fits
      have packs : structPack [(4, number.toNat)] =
          some (leBytes 4 number.toNat ++ []) := by
        refine if_pos ?_
        rw [List.forall_mem_singleton]
        change number.toNat < 256 ^ 4
        omega
      refine ⟨_, Option.ite_none_left_eq_some.mpr
        ⟨Int.not_lt.mpr lower, Option.map_eq_some_iff.mpr ⟨_, packs, rfl⟩⟩⟩
  | text string => exact ⟨_, rfl⟩

theorem exists_stored {entries : List Pair}
    (stores : ∀ pair ∈ entries, ∃ item, pair.value.item = some item) :
    ∃ items : List Stored, items.map Stored.pair = entries := by
  induction entries with
  | nil => exact ⟨[], rfl⟩
  | cons pair rest ih =>
      obtain ⟨item, here⟩ := stores pair List.mem_cons_self
      obtain ⟨items, same⟩ := ih fun other member =>
        stores other (List.mem_cons_of_mem pair member)
      exact ⟨⟨pair, item, here⟩ :: items, congrArg (pair :: ·) same⟩

def Pair.keySize (pair : Pair) : Nat :=
  (encodeUtf8 pair.key).length + 1

def Pair.dataSize (pair : Pair) : Nat :=
  (pair.value.item.map Item.maxLength).getD 0

theorem sum_sortedPairs (size : Pair → Nat) (pairs : List Pair) :
    ((sortedPairs pairs).map size).sum = (pairs.map size).sum :=
  ((List.perm_insertionSort _ pairs).map size).sum_nat

section Sizes

variable {pairs : List Pair} {items : List Stored}

theorem keys_length (same : items.map Stored.pair = sortedPairs pairs) :
    (items.flatMap Stored.keyBytes).length = (pairs.map Pair.keySize).sum := by
  rw [← sum_sortedPairs, ← same, List.map_map, List.length_flatMap]
  refine congrArg List.sum (List.map_congr_left fun stored _ => ?_)
  exact List.length_append

theorem data_length (same : items.map Stored.pair = sortedPairs pairs) :
    (items.flatMap Stored.payload).length = (pairs.map Pair.dataSize).sum := by
  rw [← sum_sortedPairs, ← same, List.map_map, List.length_flatMap]
  refine congrArg List.sum (List.map_congr_left fun stored _ => ?_)
  rw [stored.payload_length, Function.comp, Pair.dataSize, stored.stores]
  rfl

theorem index_length (items : List Stored) :
    (index items).length = 16 * items.length := by
  rw [index, ← blockStart_length,
    blockStart_of_const Record.bytes_length (Nat.le_refl _), records_length]

theorem length_le_keys (items : List Stored) :
    items.length ≤ (items.flatMap Stored.keyBytes).length := by
  rw [List.length_flatMap, ← List.length_map]
  exact List.length_le_sum_of_one_le _ fun length member => by
    obtain ⟨stored, _, rfl⟩ := List.mem_map.mp member
    simp [Stored.keyBytes]

/-- There is a file if the numbers fit in 32 bits, the keys in less than 65536
bytes and the values in less than four gibibytes. -/
theorem build_returns
    (fits : ∀ pair ∈ pairs, pair.value.Fits)
    (keys : (pairs.map Pair.keySize).sum < 65536)
    (data : (pairs.map Pair.dataSize).sum < 2 ^ 32) :
    ∃ file, build pairs = some file := by
  obtain ⟨items, same⟩ : ∃ items : List Stored,
      items.map Stored.pair = sortedPairs pairs :=
    exists_stored fun pair member =>
      exists_item (fits pair (mem_sortedPairs.mp member))
  have key_bytes := keys_length same
  have data_bytes := data_length same
  obtain ⟨tables, run⟩ := exists_add_all
    { keyBlob := [], dataBlob := [], index := [] } items
    (by rw [key_bytes, List.length_nil]; omega)
    (by rw [data_bytes, List.length_nil]; omega)
  rw [same] at run
  obtain ⟨stored, same, adds⟩ := add_all run
  have keyBlob : tables.keyBlob = stored.flatMap Stored.keyBytes :=
    adds.keyBlob.trans (List.nil_append _)
  have entries : tables.index = index stored :=
    adds.index.trans (List.nil_append _)
  have few : stored.length < 65536 := by
    have := length_le_keys stored
    have := keys_length same
    omega
  have count : (sortedPairs pairs).length = stored.length := by
    rw [← same, List.length_map]
  have key_blob : tables.keyBlob.length < 65536 := by
    rw [keyBlob, keys_length same]
    exact keys
  have entries_length : tables.index.length = 16 * stored.length := by
    rw [entries, index_length]
  have pad := padding_length_le tables.keyBlob.length
  obtain ⟨packed, packs⟩ : ∃ packed, structPack (Header.fields
      { magic := leValue magic
        version := version
        keyTable := 20 + tables.index.length
        dataTable := 20 + tables.index.length +
          (tables.keyBlob ++ padding tables.keyBlob.length).length
        count := (sortedPairs pairs).length }) = some packed :=
    header_packs (by omega) (by rw [List.length_append]; omega) (by omega)
  exact ⟨_, Option.bind_eq_some_iff.mpr ⟨tables, run,
    Option.bind_eq_some_iff.mpr ⟨packed, packs, rfl⟩⟩⟩

end Sizes

end Pspssh.Sfo
