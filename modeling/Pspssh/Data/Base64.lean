import Mathlib

namespace Pspssh.Data.Base64

/-! Base64 of RFC 4648 without padding, and back. -/

def symbol (sextet : Nat) : UInt8 :=
  if sextet < 26 then (0x41 + sextet).toUInt8
  else if sextet < 52 then (0x61 + (sextet - 26)).toUInt8
  else if sextet < 62 then (0x30 + (sextet - 52)).toUInt8
  else if sextet = 62 then 0x2b
  else 0x2f

def sextet (symbol : UInt8) : Option Nat :=
  if 0x41 ≤ symbol ∧ symbol ≤ 0x5a then some (symbol.toNat - 0x41)
  else if 0x61 ≤ symbol ∧ symbol ≤ 0x7a then some (symbol.toNat - 0x61 + 26)
  else if 0x30 ≤ symbol ∧ symbol ≤ 0x39 then some (symbol.toNat - 0x30 + 52)
  else if symbol = 0x2b then some 62
  else if symbol = 0x2f then some 63
  else none

/-- The first `count` of the four sextets of a group of 24 bits. -/
def symbols (count bits : Nat) : List UInt8 :=
  ([bits / 64 ^ 3, bits / 64 ^ 2 % 64, bits / 64 % 64, bits % 64].take count).map
    symbol

/-- The first `count` of the three bytes of a group of 24 bits. -/
def bytes (count bits : Nat) : List UInt8 :=
  [(bits / 256 ^ 2).toUInt8, (bits / 256).toUInt8, bits.toUInt8].take count

def group (data : List UInt8) : Nat :=
  (data.getD 0 0).toNat * 256 ^ 2 + (data.getD 1 0).toNat * 256 +
    (data.getD 2 0).toNat

def encode : List UInt8 → List UInt8
  | [] => []
  | [first] => symbols 2 (group [first])
  | [first, second] => symbols 3 (group [first, second])
  | first :: second :: third :: rest =>
      symbols 4 (group [first, second, third]) ++ encode rest

def decode : List UInt8 → Option (List UInt8)
  | [] => some []
  | [_] => none
  | [first, second] => do
      let bits := (← sextet first) * 64 ^ 3 + (← sextet second) * 64 ^ 2
      some (bytes 1 bits)
  | [first, second, third] => do
      let bits := (← sextet first) * 64 ^ 3 + (← sextet second) * 64 ^ 2 +
        (← sextet third) * 64
      some (bytes 2 bits)
  | first :: second :: third :: fourth :: rest => do
      let bits := (← sextet first) * 64 ^ 3 + (← sextet second) * 64 ^ 2 +
        (← sextet third) * 64 + (← sextet fourth)
      some (bytes 3 bits ++ (← decode rest))

theorem sextet_symbol {value : Nat} (small : value < 64) :
    sextet (symbol value) = some value := by
  have every : ∀ value : Fin 64, sextet (symbol value) = some value.val := by
    decide +kernel
  exact every ⟨value, small⟩

theorem symbol_ne_zero {value : Nat} (small : value < 64) :
    symbol value ≠ 0 := by
  have every : ∀ value : Fin 64, symbol value ≠ 0 := by decide +kernel
  exact every ⟨value, small⟩

theorem group_lt (data : List UInt8) : group data < 2 ^ 24 := by
  have first := (data.getD 0 0).toNat_lt
  have second := (data.getD 1 0).toNat_lt
  have third := (data.getD 2 0).toNat_lt
  simp only [group]
  omega

theorem symbols_length (bits : Nat) {count : Nat} (few : count ≤ 4) :
    (symbols count bits).length = count := by
  simp [symbols, few]

theorem symbols_noNul (count : Nat) {bits : Nat} (small : bits < 2 ^ 24) :
    0 ∉ symbols count bits := by
  intro member
  obtain ⟨value, among, same⟩ := List.mem_map.mp member
  have found := List.mem_of_mem_take among
  simp only [List.mem_cons, List.not_mem_nil, or_false] at found
  have bounded : value < 64 := by
    rcases found with found | found | found | found <;> omega
  exact symbol_ne_zero bounded same

theorem encode_noNul (data : List UInt8) : 0 ∉ encode data := by
  induction data using encode.induct with
  | case1 => exact List.not_mem_nil
  | case2 first => exact symbols_noNul 2 (group_lt [first])
  | case3 first second => exact symbols_noNul 3 (group_lt [first, second])
  | case4 first second third rest ih =>
      rw [encode, List.mem_append, not_or]
      exact ⟨symbols_noNul 4 (group_lt [first, second, third]), ih⟩

theorem encode_length (data : List UInt8) :
    (encode data).length = (4 * data.length + 2) / 3 := by
  induction data using encode.induct with
  | case1 => rfl
  | case2 first => simp [encode, symbols_length]
  | case3 first second => simp [encode, symbols_length]
  | case4 first second third rest ih =>
      rw [encode, List.length_append, symbols_length _ (le_refl 4), ih]
      simp only [List.length_cons]
      omega

theorem encode_group {data : List UInt8} (some : data ≠ []) :
    encode data = symbols ((data.take 3).length + 1) (group (data.take 3)) ++
      encode (data.drop 3) := by
  match data with
  | [] => exact absurd rfl some
  | [_] => exact (List.append_nil _).symm
  | [_, _] => exact (List.append_nil _).symm
  | _ :: _ :: _ :: _ => rfl

/-! ## Reading back -/

theorem sextets (bits : Nat) :
    bits / 64 ^ 3 * 64 ^ 3 + bits / 64 ^ 2 % 64 * 64 ^ 2 +
      bits / 64 % 64 * 64 + bits % 64 = bits := by
  omega

theorem bytes_group (data : List UInt8) (short : data.length ≤ 3) :
    bytes data.length (group data) = data := by
  have every (first second third : UInt8) :
      bytes 3 (group [first, second, third]) = [first, second, third] := by
    have small := second.toNat_lt
    have smaller := third.toNat_lt
    have upper : group [first, second, third] / 256 ^ 2 = first.toNat := by
      simp only [group, List.getD_cons_zero, List.getD_cons_succ]
      omega
    have middle : group [first, second, third] / 256 =
        first.toNat * 256 + second.toNat := by
      simp only [group, List.getD_cons_zero, List.getD_cons_succ]
      omega
    have first_byte : (group [first, second, third] / 256 ^ 2).toUInt8 = first := by
      rw [upper]
      exact UInt8.ofNat_toNat
    have second_byte : (group [first, second, third] / 256).toUInt8 = second := by
      rw [middle]
      apply UInt8.toNat_inj.mp
      simp
    have third_byte : (group [first, second, third]).toUInt8 = third := by
      apply UInt8.toNat_inj.mp
      simp [group]
    simp only [bytes, first_byte, second_byte, third_byte, List.take]
  match data with
  | [] => rfl
  | [first] => exact congrArg (List.take 1) (every first 0 0)
  | [first, second] => exact congrArg (List.take 2) (every first second 0)
  | [first, second, third] => exact every first second third

theorem sextet_first {bits : Nat} (small : bits < 2 ^ 24) :
    sextet (symbol (bits / 64 ^ 3)) = some (bits / 64 ^ 3) :=
  sextet_symbol (by omega)

theorem sextet_next (bits : Nat) :
    sextet (symbol (bits % 64)) = some (bits % 64) :=
  sextet_symbol (Nat.mod_lt bits (by decide))

theorem decode_encode (data : List UInt8) : decode (encode data) = some data := by
  induction data using encode.induct with
  | case1 => rfl
  | case2 first =>
      have whole : group [first] / 64 ^ 3 * 64 ^ 3 +
          group [first] / 64 ^ 2 % 64 * 64 ^ 2 = group [first] := by
        simp only [group, List.getD_cons_zero, List.getD_cons_succ,
          List.getD_nil, UInt8.toNat_zero]
        omega
      have back := bytes_group [first] (by simp)
      simp only [encode, symbols, List.take, List.map_cons, List.map_nil, decode,
        sextet_first (group_lt [first]), sextet_next, Option.bind_eq_bind,
        Option.bind_some, whole]
      exact congrArg some back
  | case3 first second =>
      have whole : group [first, second] / 64 ^ 3 * 64 ^ 3 +
          group [first, second] / 64 ^ 2 % 64 * 64 ^ 2 +
          group [first, second] / 64 % 64 * 64 = group [first, second] := by
        simp only [group, List.getD_cons_zero, List.getD_cons_succ,
          List.getD_nil, UInt8.toNat_zero]
        omega
      have back := bytes_group [first, second] (by simp)
      simp only [encode, symbols, List.take, List.map_cons, List.map_nil, decode,
        sextet_first (group_lt [first, second]), sextet_next, Option.bind_eq_bind,
        Option.bind_some, whole]
      exact congrArg some back
  | case4 first second third rest ih =>
      have back := bytes_group [first, second, third] (by simp)
      simp only [encode, symbols, List.take, List.map_cons, List.map_nil, decode,
        List.cons_append, List.nil_append, ih,
        sextet_first (group_lt [first, second, third]), sextet_next,
        Option.bind_eq_bind, Option.bind_some, sextets]
      exact congrArg (fun group => some (group ++ rest)) back

theorem encode_injective : Function.Injective encode := by
  intro left right same
  exact Option.some.inj
    ((decode_encode left).symm.trans ((congrArg decode same).trans
      (decode_encode right)))

end Pspssh.Data.Base64
