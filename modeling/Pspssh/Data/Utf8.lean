import Mathlib

namespace Pspssh.Data

/-! The order of texts, by code points and by the bytes that encode them. -/

@[reducible] def byteOrder : LinearOrder UInt8 where
  le_refl := UInt8.le_refl
  le_trans := fun _ _ _ => UInt8.le_trans
  le_antisymm := fun _ _ => UInt8.le_antisymm
  le_total := UInt8.le_total
  lt_iff_le_not_ge := fun _ _ => Std.lt_iff_le_and_not_ge
  toDecidableLE := inferInstance

attribute [local instance] byteOrder

def encodeUtf8 (text : List Char) : List UInt8 :=
  text.flatMap String.utf8EncodeChar

section Lexicographic

variable {α β : Type} [LT α] [LT β]

/-- The lists differ somewhere, and where they first do the left one has the
smaller element. -/
inductive Below : List α → List α → Prop
  | head {x y : α} {left right : List α} (less : x < y) :
      Below (x :: left) (y :: right)
  | tail {x : α} {left right : List α} (later : Below left right) :
      Below (x :: left) (x :: right)

theorem Below.append_lt {left right : List α} (below : Below left right)
    (first second : List α) : left ++ first < right ++ second := by
  induction below with
  | head less => exact List.Lex.rel less
  | tail _ ih => exact List.Lex.cons ih

theorem Below.append {left right : List α} (below : Below left right)
    (first second : List α) : Below (left ++ first) (right ++ second) := by
  induction below with
  | head less => exact .head less
  | tail _ ih => exact .tail ih

theorem Below.behind (front : List α) {left right : List α}
    (below : Below left right) : Below (front ++ left) (front ++ right) := by
  induction front with
  | nil => exact below
  | cons x front ih => exact .tail ih

theorem flatMap_lt {encode : α → List β} (some_element : ∀ x, encode x ≠ [])
    (below : ∀ x y, x < y → Below (encode x) (encode y)) {left right : List α}
    (less : left < right) : left.flatMap encode < right.flatMap encode := by
  induction less with
  | nil =>
      rename_i x rest
      rw [List.flatMap_nil, List.flatMap_cons]
      cases first : encode x with
      | nil => exact absurd first (some_element x)
      | cons element more => exact List.Lex.nil
  | cons _ ih =>
      rw [List.flatMap_cons, List.flatMap_cons]
      exact List.append_left_lt ih
  | rel less =>
      rw [List.flatMap_cons, List.flatMap_cons]
      exact (below _ _ less).append_lt _ _

end Lexicographic

theorem byte_lt {left right : Nat} (less : left < right) (small : right < 256) :
    UInt8.ofNat left < UInt8.ofNat right := by
  rw [UInt8.lt_iff_toNat_lt, UInt8.toNat_ofNat', UInt8.toNat_ofNat']
  omega

/-- A first byte with a mark and what is left of the value, and `count` bytes
with six bits of it each. -/
def marked (mark size : Nat) : Nat → Nat → List UInt8
  | 0, value => [UInt8.ofNat (value % size + mark)]
  | count + 1, value =>
      marked mark size count (value / 64) ++ [UInt8.ofNat (value % 64 + 0x80)]

theorem marked_below (mark size count : Nat) {left right : Nat}
    (less : left < right) (fits : right < size * 64 ^ count)
    (room : size + mark ≤ 256) :
    Below (marked mark size count left) (marked mark size count right) := by
  induction count generalizing left right with
  | zero =>
      rw [Nat.pow_zero, Nat.mul_one] at fits
      rw [marked, marked, Nat.mod_eq_of_lt fits, Nat.mod_eq_of_lt (less.trans fits)]
      exact .head (byte_lt (by omega) (by omega))
  | succ count ih =>
      have shorter : right / 64 < size * 64 ^ count := by
        rw [Nat.pow_succ, ← Nat.mul_assoc] at fits
        exact Nat.div_lt_of_lt_mul (by rwa [Nat.mul_comm])
      rcases Nat.lt_or_ge (left / 64) (right / 64) with high | high
      · exact (ih high shorter).append _ _
      · have same : left / 64 = right / 64 := by omega
        rw [marked, marked, same]
        exact Below.behind _ (.head (byte_lt (by omega) (by omega)))

theorem utf8EncodeChar_below {left right : Char} (less : left < right) :
    Below (String.utf8EncodeChar left) (String.utf8EncodeChar right) := by
  have values : left.val.toNat < right.val.toNat := less
  have valid : right.val.toNat < 0x110000 := by
    rcases right.valid with low | high
    · omega
    · exact high.2
  unfold String.utf8EncodeChar
  generalize left.val.toNat = v at values
  generalize right.val.toNat = w at values valid
  dsimp only
  split_ifs
  · exact .head (byte_lt (by omega) (by omega))
  · exact .head (byte_lt (by omega) (by omega))
  · exact .head (byte_lt (by omega) (by omega))
  · exact .head (byte_lt (by omega) (by omega))
  · omega
  · exact marked_below 0xc0 0x20 1 values (by omega) (by decide)
  · exact .head (byte_lt (by omega) (by omega))
  · exact .head (byte_lt (by omega) (by omega))
  · omega
  · omega
  · have three := marked_below 0xe0 0x10 2 values (by omega) (by decide)
    simpa [marked, Nat.div_div_eq_div_mul] using three
  · exact .head (byte_lt (by omega) (by omega))
  · omega
  · omega
  · omega
  · have four := marked_below 0xf0 0x08 3 values (by omega) (by decide)
    simpa [marked, Nat.div_div_eq_div_mul] using four

/-- Texts are in the order of the bytes that encode them. -/
theorem encodeUtf8_lt {left right : List Char} (less : left < right) :
    encodeUtf8 left < encodeUtf8 right :=
  flatMap_lt (fun _ => String.utf8EncodeChar_ne_nil)
    (fun _ _ => utf8EncodeChar_below) less

theorem byte_ne_zero {value : Nat} (positive : 0 < value) (small : value < 256) :
    0 ≠ UInt8.ofNat value :=
  (byte_lt positive small).ne

theorem utf8EncodeChar_noNul {ch : Char} (some_char : ch.val.toNat ≠ 0) :
    0 ∉ String.utf8EncodeChar ch := by
  have valid : ch.val.toNat < 0x110000 := by
    rcases ch.valid with low | high
    · omega
    · exact high.2
  unfold String.utf8EncodeChar
  generalize ch.val.toNat = value at some_char valid
  dsimp only
  split_ifs <;> simp only [List.mem_cons, List.not_mem_nil, or_false, not_or]
  · exact byte_ne_zero (by omega) (by omega)
  · exact ⟨byte_ne_zero (by omega) (by omega), byte_ne_zero (by omega) (by omega)⟩
  · exact ⟨byte_ne_zero (by omega) (by omega),
      byte_ne_zero (by omega) (by omega),
      byte_ne_zero (by omega) (by omega)⟩
  · exact ⟨byte_ne_zero (by omega) (by omega),
      byte_ne_zero (by omega) (by omega),
      byte_ne_zero (by omega) (by omega),
      byte_ne_zero (by omega) (by omega)⟩

theorem encodeUtf8_noNul {text : List Char} (noNul : '\x00' ∉ text) :
    0 ∉ encodeUtf8 text := by
  intro member
  obtain ⟨ch, inside, zero⟩ := List.mem_flatMap.mp member
  refine utf8EncodeChar_noNul (fun nul => noNul ?_) zero
  have same : ch = '\x00' := Char.toNat_inj.mp nul
  exact same ▸ inside

end Pspssh.Data
