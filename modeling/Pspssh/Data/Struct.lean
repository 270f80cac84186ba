import Mathlib

namespace Pspssh.Data

/-! Unsigned numbers as bytes, the lowest first, and blocks laid end to end. -/

def leBytes : Nat → Nat → List UInt8
  | 0, _ => []
  | size + 1, value => UInt8.ofNat (value % 256) :: leBytes size (value / 256)

def leValue : List UInt8 → Nat
  | [] => 0
  | byte :: rest => byte.toNat + 256 * leValue rest

@[simp] theorem leBytes_length (size value : Nat) :
    (leBytes size value).length = size := by
  induction size generalizing value with
  | zero => rfl
  | succ size ih => exact congrArg (· + 1) (ih (value / 256))

theorem leValue_leBytes {size value : Nat} (fits : value < 256 ^ size) :
    leValue (leBytes size value) = value := by
  induction size generalizing value with
  | zero =>
      rw [Nat.pow_zero] at fits
      exact (Nat.lt_one_iff.mp fits).symm
  | succ size ih =>
      have rest : value / 256 < 256 ^ size :=
        Nat.div_lt_of_lt_mul (by rwa [Nat.mul_comm, ← Nat.pow_succ])
      rw [leBytes, leValue, ih rest, UInt8.toNat_ofNat', Nat.mod_mod]
      exact Nat.mod_add_div value 256

/-! ## Several numbers -/

/-- `struct.pack`, with the size of each number: `none` where it raises. -/
def structPack (fields : List (Nat × Nat)) : Option (List UInt8) :=
  if ∀ field ∈ fields, field.2 < 256 ^ field.1 then
    some (fields.flatMap fun field => leBytes field.1 field.2)
  else none

/-- `struct.unpack` of the start of the bytes. -/
def structUnpack : List Nat → List UInt8 → List Nat
  | [], _ => []
  | size :: sizes, bytes =>
      leValue (bytes.take size) :: structUnpack sizes (bytes.drop size)

theorem structPack_length {fields : List (Nat × Nat)} {packed : List UInt8}
    (pack : structPack fields = some packed) :
    packed.length = (fields.map Prod.fst).sum := by
  obtain ⟨_, same⟩ := Option.ite_none_right_eq_some.mp pack
  cases same
  simp [List.length_flatMap]

theorem structUnpack_of_pack {fields : List (Nat × Nat)} {packed : List UInt8}
    (pack : structPack fields = some packed) (rest : List UInt8) :
    structUnpack (fields.map Prod.fst) (packed ++ rest) = fields.map Prod.snd := by
  obtain ⟨fits, same⟩ := Option.ite_none_right_eq_some.mp pack
  cases same
  clear pack
  induction fields with
  | nil => rfl
  | cons field fields ih =>
      obtain ⟨here, later⟩ := List.forall_mem_cons.mp fits
      rw [List.flatMap_cons, List.append_assoc, List.map_cons, List.map_cons,
        structUnpack, List.take_left' (leBytes_length _ _),
        List.drop_left' (leBytes_length _ _), leValue_leBytes here, ih later]

/-! ## Blocks -/

section Blocks

variable {α β : Type} (write : α → List β)

def blockStart (blocks : List α) (i : Nat) : Nat :=
  ((blocks.take i).flatMap write).length

variable {write} {blocks : List α} {i j : Nat} {block : α}

theorem drop_blockStart (at_i : blocks[i]? = some block) :
    (blocks.flatMap write).drop (blockStart write blocks i) =
      write block ++ (blocks.drop (i + 1)).flatMap write := by
  obtain ⟨inside, same⟩ := List.getElem?_eq_some_iff.mp at_i
  have split : blocks = blocks.take i ++ block :: blocks.drop (i + 1) := by
    rw [← same, List.cons_getElem_drop_succ, List.take_append_drop]
  have whole : blocks.flatMap write = (blocks.take i).flatMap write ++
      (write block ++ (blocks.drop (i + 1)).flatMap write) := by
    rw [← List.flatMap_cons, ← List.flatMap_append, ← split]
  rw [whole]
  exact List.drop_left

theorem blockStart_succ (at_i : blocks[i]? = some block) :
    blockStart write blocks (i + 1) =
      blockStart write blocks i + (write block).length := by
  unfold blockStart
  rw [List.take_add_one, at_i, List.flatMap_append, List.length_append]
  simp

theorem blockStart_mono (before : i ≤ j) :
    blockStart write blocks i ≤ blockStart write blocks j := by
  unfold blockStart
  obtain ⟨rest, same⟩ : blocks.take i <+: blocks.take j :=
    List.take_prefix_take_left before
  rw [← same, List.flatMap_append, List.length_append]
  exact Nat.le_add_right _ _

/-- A block ends where the next one starts, or before. -/
theorem blockStart_add_le (at_i : blocks[i]? = some block) (before : i < j) :
    blockStart write blocks i + (write block).length ≤
      blockStart write blocks j := by
  rw [← blockStart_succ at_i]
  exact blockStart_mono before

theorem blockStart_length :
    blockStart write blocks blocks.length = (blocks.flatMap write).length := by
  rw [blockStart, List.take_length]

theorem blockStart_of_const {size : Nat}
    (same : ∀ block, (write block).length = size) (inside : i ≤ blocks.length) :
    blockStart write blocks i = size * i := by
  simp [blockStart, List.length_flatMap, same, Nat.min_eq_left inside,
    Nat.mul_comm]

theorem dvd_blockStart {size : Nat}
    (every : ∀ block ∈ blocks, size ∣ (write block).length) :
    size ∣ blockStart write blocks i := by
  rw [blockStart, List.length_flatMap]
  refine List.dvd_sum fun length member => ?_
  obtain ⟨block, inside, rfl⟩ := List.mem_map.mp member
  exact every block (List.mem_of_mem_take inside)

end Blocks

end Pspssh.Data
