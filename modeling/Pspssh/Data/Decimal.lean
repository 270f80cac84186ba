import Mathlib

namespace Pspssh.Data

/-! Numerals as byte strings: `%d` and `atoi`. -/

abbrev IsDigit (ch : UInt8) : Prop :=
  0x30 ≤ ch ∧ ch ≤ 0x39

def digitOf (ch : UInt8) : Nat :=
  (ch - 0x30).toNat

def digitByte (digit : Nat) : UInt8 :=
  0x30 + UInt8.ofNat digit

/-- The number that a string of digits writes; the empty string writes 0. -/
def decimalValue (text : List UInt8) : Nat :=
  text.foldl (fun value ch => value * 10 + digitOf ch) 0

def decimalText (value : Nat) : List UInt8 :=
  if value = 0 then [0x30] else (Nat.digits 10 value).reverse.map digitByte

/-- `%d`. -/
def intText (value : Int32) : List UInt8 :=
  if value.toInt < 0 then 0x2d :: decimalText value.toInt.natAbs
  else decimalText value.toInt.natAbs

theorem decimalValue_append_one (text : List UInt8) (ch : UInt8) :
    decimalValue (text ++ [ch]) = decimalValue text * 10 + digitOf ch := by
  rw [decimalValue, List.foldl_append]
  rfl

theorem digitOf_digitByte {digit : Nat} (small : digit < 10) :
    digitOf (digitByte digit) = digit := by
  interval_cases digit <;> rfl

theorem isDigit_digitByte {digit : Nat} (small : digit < 10) :
    IsDigit (digitByte digit) := by
  interval_cases digit <;> decide

theorem decimalValue_eq_ofDigits (text : List UInt8) :
    decimalValue text = Nat.ofDigits 10 (text.map digitOf).reverse := by
  induction text using List.reverseRecOn with
  | nil => rfl
  | append_singleton text ch ih =>
      rw [decimalValue_append_one, ih, List.map_append, List.reverse_append,
        List.map_singleton, List.reverse_singleton, List.singleton_append,
        Nat.ofDigits_cons]
      ring

theorem decimalText_digits (value : Nat) :
    ∀ ch ∈ decimalText value, IsDigit ch := by
  intro ch member
  unfold decimalText at member
  split at member
  · rw [List.mem_singleton.mp member]
    decide
  · obtain ⟨digit, digits, rfl⟩ := List.mem_map.mp member
    exact isDigit_digitByte
      (Nat.digits_lt_base (by norm_num) (List.mem_reverse.mp digits))

theorem decimalText_ne_nil (value : Nat) : decimalText value ≠ [] := by
  unfold decimalText
  split
  · exact List.cons_ne_nil _ _
  · rename_i nonzero
    simpa [Nat.digits_ne_nil_iff_ne_zero] using nonzero

theorem decimalValue_decimalText (value : Nat) :
    decimalValue (decimalText value) = value := by
  unfold decimalText
  split
  · rename_i zero
    rw [zero]
    rfl
  · have back : ((Nat.digits 10 value).reverse.map digitByte).map digitOf =
        (Nat.digits 10 value).reverse := by
      rw [List.map_map]
      conv_rhs => rw [← List.map_id (Nat.digits 10 value).reverse]
      refine List.map_congr_left fun digit digits => ?_
      exact digitOf_digitByte
        (Nat.digits_lt_base (by norm_num) (List.mem_reverse.mp digits))
    rw [decimalValue_eq_ofDigits, back, List.reverse_reverse,
      Nat.ofDigits_digits]

theorem decimalText_length {value width : Nat} (some_digit : 1 ≤ width)
    (fits : value < 10 ^ width) : (decimalText value).length ≤ width := by
  unfold decimalText
  split
  · exact some_digit
  · rw [List.length_map, List.length_reverse,
      Nat.digits_length_le_iff (by norm_num)]
    exact fits

/-! ## Reading a numeral back -/

/-- What C leaves open: the result of `atoi` on a numeral that is no `int`. -/
class Libc where
  atoiOverflow : List UInt8 → Int32

/-- A library that answers with the closest `int`. -/
@[reducible] def saturating : Libc where
  atoiOverflow text :=
    if 0x2d ∈ text then Int32.minValue else Int32.maxValue

abbrev IsSpace (ch : UInt8) : Prop :=
  ch = 0x20 ∨ 0x09 ≤ ch ∧ ch ≤ 0x0d

def takeSign : List UInt8 → Bool × List UInt8
  | ch :: rest =>
      if ch = 0x2d then (true, rest)
      else if ch = 0x2b then (false, rest)
      else (false, ch :: rest)
  | [] => (false, [])

def atoi [Libc] (text : List UInt8) : Int32 :=
  let signed := takeSign (text.dropWhile (IsSpace ·))
  let magnitude : Int := decimalValue (signed.2.takeWhile (IsDigit ·))
  let value := if signed.1 then -magnitude else magnitude
  if -2147483648 ≤ value ∧ value ≤ 2147483647 then
    Int32.ofInt value
  else Libc.atoiOverflow text

theorem takeSign_of_digit {ch : UInt8} (digit : IsDigit ch)
    (rest : List UInt8) : takeSign (ch :: rest) = (false, ch :: rest) := by
  have other {sign : UInt8} (nondigit : ¬ IsDigit sign) : ch ≠ sign := by
    rintro rfl
    exact nondigit digit
  rw [takeSign, if_neg (other (by decide)), if_neg (other (by decide))]

theorem not_isSpace_of_digit {ch : UInt8} (digit : IsDigit ch) :
    ¬ IsSpace ch := by
  obtain ⟨lower, upper⟩ := digit
  grind

theorem atoi_intText [Libc] (value : Int32) : atoi (intText value) = value := by
  have lower := value.le_toInt
  have upper := value.toInt_lt
  have digits := decimalText_digits value.toInt.natAbs
  have all : (decimalText value.toInt.natAbs).takeWhile (IsDigit ·) =
      decimalText value.toInt.natAbs :=
    List.takeWhile_eq_self_iff.mpr (by simpa using digits)
  have back := decimalValue_decimalText value.toInt.natAbs
  unfold atoi intText
  split
  · rename_i negative
    have unspaced :
        (0x2d :: decimalText value.toInt.natAbs).dropWhile (IsSpace ·) =
          0x2d :: decimalText value.toInt.natAbs := rfl
    rw [unspaced]
    simp only [takeSign, if_true, all, back]
    rw [if_pos (by omega), Int.natCast_natAbs, abs_of_neg negative, neg_neg,
      Int32.ofInt_toInt]
  · rename_i nonnegative
    obtain ⟨first, rest, numeral⟩ :=
      List.exists_cons_of_ne_nil (decimalText_ne_nil value.toInt.natAbs)
    have digit : IsDigit first := by
      refine digits first ?_
      rw [numeral]
      exact List.mem_cons_self
    have unspaced : (decimalText value.toInt.natAbs).dropWhile (IsSpace ·) =
        decimalText value.toInt.natAbs := by
      rw [numeral, List.dropWhile_cons_of_neg
        (by simpa using not_isSpace_of_digit digit)]
    have unsigned : takeSign (decimalText value.toInt.natAbs) =
        (false, decimalText value.toInt.natAbs) := by
      rw [numeral, takeSign_of_digit digit]
    simp only [unspaced, unsigned, all, back]
    rw [if_neg Bool.false_ne_true, if_pos (by omega), Int.natCast_natAbs,
      abs_of_nonneg (Int.not_lt.mp nonnegative), Int32.ofInt_toInt]

theorem intText_length (value : Int32) : (intText value).length ≤ 11 := by
  have lower := value.le_toInt
  have upper := value.toInt_lt
  have digits : (decimalText value.toInt.natAbs).length ≤ 10 :=
    decimalText_length (by decide) (by omega)
  unfold intText
  split
  · exact Nat.succ_le_succ digits
  · exact Nat.le_succ_of_le digits

theorem mem_intText {value : Int32} {ch : UInt8} (member : ch ∈ intText value) :
    ch = 0x2d ∨ IsDigit ch := by
  have digits := decimalText_digits value.toInt.natAbs ch
  unfold intText at member
  split at member
  · exact (List.mem_cons.mp member).imp_right digits
  · exact .inr (digits member)

end Pspssh.Data
