import Mathlib

namespace Pspssh.Data

/-! The memory behind a pointer, and what stores leave in it. -/

abbrev Buffer := Nat → UInt8

namespace Buffer

def store (buffer : Buffer) (place : Nat) (value : UInt8) : Buffer :=
  Function.update buffer place value

/-- The bytes of `data` from `place` on: `memcpy`. -/
def copy (buffer : Buffer) (place : Nat) (data : List UInt8) : Buffer :=
  fun index =>
    if place ≤ index then data.getD (index - place) (buffer index)
    else buffer index

def take (buffer : Buffer) (size : Nat) : List UInt8 :=
  (List.range size).map buffer

def slice (buffer : Buffer) (place size : Nat) : List UInt8 :=
  (List.range size).map fun index => buffer (place + index)

variable (buffer : Buffer) (place : Nat)

theorem take_add (size : Nat) :
    buffer.take (place + size) = buffer.take place ++ buffer.slice place size := by
  rw [take, take, slice, List.range_add, List.map_append, List.map_map]
  rfl

theorem take_slice {count size : Nat} (part : count ≤ size) :
    (buffer.slice place size).take count = buffer.slice place count := by
  rw [slice, slice, ← List.map_take, List.take_range, Nat.min_eq_left part]

theorem take_take {count size : Nat} (part : count ≤ size) :
    (buffer.take size).take count = buffer.take count := by
  rw [take, take, ← List.map_take, List.take_range, Nat.min_eq_left part]

@[simp] theorem take_zero : buffer.take 0 = [] := rfl

@[simp] theorem take_length (size : Nat) : (buffer.take size).length = size := by
  simp [take]

@[simp] theorem slice_length (size : Nat) :
    (buffer.slice place size).length = size := by
  simp [slice]

theorem copy_before {index : Nat} (before : index < place)
    (data : List UInt8) : buffer.copy place data index = buffer index :=
  if_neg (Nat.not_le.mpr before)

theorem copy_inside (data : List UInt8) {index : Nat}
    (inside : index < data.length) :
    buffer.copy place data (place + index) = data[index] := by
  simp only [copy, Nat.le_add_right, if_true, Nat.add_sub_cancel_left]
  exact List.getD_eq_getElem data _ inside

theorem copy_behind (data : List UInt8) {index : Nat}
    (behind : place + data.length ≤ index) :
    buffer.copy place data index = buffer index := by
  have outside : data.length ≤ index - place := by omega
  simp only [copy, List.getD_eq_default data _ outside, ite_self]

@[simp] theorem copy_nil : buffer.copy place [] = buffer := by
  funext index
  simp [copy]

theorem store_eq_copy (value : UInt8) :
    buffer.store place value = buffer.copy place [value] := by
  funext index
  rcases Nat.lt_trichotomy index place with before | same | behind
  · rw [copy_before buffer place before]
    exact Function.update_of_ne before.ne _ _
  · rw [same]
    exact (Function.update_self place value buffer).trans
      (copy_inside buffer place [value] Nat.zero_lt_one).symm
  · rw [copy_behind buffer place [value] behind]
    exact Function.update_of_ne behind.ne' _ _

theorem copy_append (first second : List UInt8) :
    buffer.copy place (first ++ second) =
      (buffer.copy place first).copy (place + first.length) second := by
  funext index
  by_cases before : index < place + first.length
  · rw [copy_before _ _ before]
    simp only [copy]
    by_cases inside : place ≤ index
    · rw [if_pos inside, if_pos inside,
        List.getD_append first second _ _ (by omega)]
    · rw [if_neg inside, if_neg inside]
  · have behind : place + first.length ≤ index := Nat.not_lt.mp before
    have inside : place ≤ index := by omega
    simp only [copy, if_pos inside, if_pos behind]
    rw [List.getD_append_right first second _ _ (by omega),
      List.getD_eq_default first _ (by omega), Nat.sub_sub]

theorem store_copy (data : List UInt8) (value : UInt8) :
    (buffer.copy place data).store (place + data.length) value =
      buffer.copy place (data ++ [value]) := by
  rw [store_eq_copy, copy_append]

theorem take_of_agree {other : Buffer} {size : Nat}
    (agree : ∀ index < size, other index = buffer index) :
    other.take size = buffer.take size :=
  List.map_congr_left fun index member => agree index (List.mem_range.mp member)

theorem slice_copy (data : List UInt8) :
    (buffer.copy place data).slice place data.length = data := by
  apply List.ext_getElem
  · simp
  · intro index small inside
    simp only [slice, List.getElem_map, List.getElem_range]
    exact copy_inside buffer place data inside

theorem take_copy (data : List UInt8) :
    (buffer.copy place data).take (place + data.length) =
      buffer.take place ++ data := by
  rw [take_add, slice_copy]
  exact congrArg (· ++ data) (take_of_agree buffer fun index before =>
    copy_before buffer place before data)

theorem take_store (value : UInt8) :
    (buffer.store place value).take place = buffer.take place :=
  take_of_agree buffer fun _ before => Function.update_of_ne before.ne _ _

theorem store_self (value : UInt8) : buffer.store place value place = value := by
  simp [store]

theorem store_behind {index : Nat} (behind : place < index) (value : UInt8) :
    buffer.store place value index = buffer index :=
  Function.update_of_ne behind.ne' _ _

end Buffer

end Pspssh.Data
