import Pspssh.Data.Base64
import Pspssh.Data.Buffer
import Pspssh.Data.Text

namespace Pspssh.Session

open Pspssh.Data
open Pspssh.Data.Base64 (group symbols encode decode)

/-! The fingerprint of a server's key: base64 into a buffer of a given size. -/

def alphabet : List UInt8 :=
  ascii "ABCDEFGHIJKLMNOPQRSTUVWXYZabcdefghijklmnopqrstuvwxyz0123456789+/"

/-- `alphabet[bits & 0x3f]`. -/
def letter (bits : UInt32) : UInt8 :=
  alphabet.getD (bits &&& 0x3f).toNat 0

/-- `triple` and `have`: up to three bytes and how many there were. -/
def readTriple (input : List UInt8) (i : Nat) (inside : i < input.length) :
    UInt32 × Nat :=
  let first := input[i].toUInt32 <<< 16
  if two : i + 1 < input.length then
    let second := first ||| input[i + 1].toUInt32 <<< 8
    if three : i + 2 < input.length then
      (second ||| input[i + 2].toUInt32, 3)
    else (second, 2)
  else (first, 1)

def writeTriple (triple : UInt32) (count put : Nat) (out : Buffer) :
    Nat × Buffer :=
  let out := out.store put (letter (triple >>> 18))
  let out := out.store (put + 1) (letter (triple >>> 12))
  let put := put + 2
  let (put, out) :=
    if 1 < count then (put + 1, out.store put (letter (triple >>> 6)))
    else (put, out)
  if 2 < count then (put + 1, out.store put (letter triple)) else (put, out)

/-- The loop of `base64_unpadded`, with `put` characters written. -/
def base64Loop (input : List UInt8) (outLen i put : Nat) (out : Buffer) :
    Nat × Buffer :=
  if more : i < input.length ∧ put + 4 < outLen then
    let (triple, count) := readTriple input i more.1
    let (put, out) := writeTriple triple count put out
    base64Loop input outLen (i + 3) put out
  else (put, out)
  termination_by input.length - i

def base64Unpadded (input : List UInt8) (outLen : Nat) (out : Buffer) :
    Buffer :=
  let (put, out) := base64Loop input outLen 0 0 out
  out.store put 0

/-- `snprintf` of a text into a buffer. -/
def snprintf (out : Buffer) (size : Nat) (text : List UInt8) : Buffer :=
  out.copy 0 (text.take (size - 1) ++ [0])

def fingerprintLen : Nat := 64

/-- What the SHA-256 of the library answers to its calls. -/
structure Sha256 where
  init : Int
  update : List UInt8 → Int
  final : List UInt8 → Int × Vector UInt8 32

/-- `fingerprint_of`, where `encoded` is the array on its stack. -/
def fingerprintOf (sha : Sha256) (key : List UInt8) (encoded out : Buffer)
    (outLen : Nat) : Int × Buffer :=
  if outLen < fingerprintLen then (-1, out)
  else if sha.init ≠ 0 then (-1, out)
  else
    let ret := sha.update key
    let ret := if ret = 0 then (sha.final key).1 else ret
    if ret ≠ 0 then (-1, out)
    else
      let encoded := base64Unpadded (sha.final key).2.toList 48 encoded
      (0, snprintf out outLen
        (ascii "SHA256:" ++ (cString (encoded.take 48)).text))

/-! ## One group -/

theorem letter_toNat (bits : UInt32) :
    letter bits = Base64.symbol (bits.toNat % 64) := by
  have every : ∀ sextet : Fin 64,
      alphabet.getD sextet.val 0 = Base64.symbol sextet.val := by
    decide +kernel
  have low : (bits &&& 0x3f).toNat = bits.toNat % 64 :=
    Nat.and_two_pow_sub_one_eq_mod bits.toNat 6
  rw [letter, low]
  exact every ⟨bits.toNat % 64, Nat.mod_lt _ (by decide)⟩

theorem high_byte (byte : UInt8) :
    (byte.toUInt32 <<< 16).toNat = 2 ^ 16 * byte.toNat := by
  have small := byte.toNat_lt
  rw [UInt32.toNat_shiftLeft, UInt8.toNat_toUInt32, Nat.shiftLeft_eq]
  simp only [UInt32.reduceToNat, Nat.reduceMod]
  omega

theorem middle_byte (byte : UInt8) :
    (byte.toUInt32 <<< 8).toNat = 2 ^ 8 * byte.toNat := by
  have small := byte.toNat_lt
  rw [UInt32.toNat_shiftLeft, UInt8.toNat_toUInt32, Nat.shiftLeft_eq]
  simp only [UInt32.reduceToNat, Nat.reduceMod]
  omega

theorem two_bytes (first second : UInt8) :
    (first.toUInt32 <<< 16 ||| second.toUInt32 <<< 8).toNat =
      2 ^ 8 * (2 ^ 8 * first.toNat + second.toNat) := by
  have small := second.toNat_lt
  have apart : 2 ^ 8 * second.toNat < 2 ^ 16 := by omega
  rw [UInt32.toNat_or, high_byte, middle_byte,
    ← Nat.two_pow_add_eq_or_of_lt apart]
  omega

theorem three_bytes (first second third : UInt8) :
    (first.toUInt32 <<< 16 ||| second.toUInt32 <<< 8 |||
      third.toUInt32).toNat =
      2 ^ 8 * (2 ^ 8 * first.toNat + second.toNat) + third.toNat := by
  rw [UInt32.toNat_or, two_bytes, UInt8.toNat_toUInt32,
    ← Nat.two_pow_add_eq_or_of_lt third.toNat_lt]

theorem readTriple_eq {input : List UInt8} {i : Nat} (inside : i < input.length) :
    (readTriple input i inside).1.toNat = group ((input.drop i).take 3) ∧
      (readTriple input i inside).2 = ((input.drop i).take 3).length := by
  rw [List.drop_eq_getElem_cons inside]
  by_cases two : i + 1 < input.length
  · rw [List.drop_eq_getElem_cons two]
    by_cases three : i + 2 < input.length
    · rw [List.drop_eq_getElem_cons three]
      simp only [readTriple, dif_pos two, dif_pos three, three_bytes]
      simp only [group, List.take, List.getD_cons_zero, List.getD_cons_succ]
      refine ⟨?_, rfl⟩
      omega
    · rw [List.drop_eq_nil_of_le (Nat.le_of_not_lt three)]
      simp only [readTriple, dif_pos two, dif_neg three, two_bytes]
      simp only [group, List.take, List.getD_cons_zero, List.getD_cons_succ]
      refine ⟨?_, rfl⟩
      simp
      omega
  · rw [List.drop_eq_nil_of_le (Nat.le_of_not_lt two)]
    simp only [readTriple, dif_neg two, high_byte]
    refine ⟨?_, rfl⟩
    simp [group]
    omega

theorem symbols_of_triple (triple : UInt32) (small : triple.toNat < 2 ^ 24) :
    symbols 4 triple.toNat =
      [letter (triple >>> 18), letter (triple >>> 12), letter (triple >>> 6),
        letter triple] := by
  have top : triple.toNat / 2 ^ 18 % 64 = triple.toNat / 64 ^ 3 := by omega
  simp only [letter_toNat, UInt32.toNat_shiftRight, Nat.shiftRight_eq_div_pow,
    UInt32.reduceToNat, Nat.reduceMod, top]
  rfl

theorem symbols_take {count : Nat} (few : count ≤ 4) (bits : Nat) :
    symbols count bits = (symbols 4 bits).take count := by
  rw [symbols, symbols, ← List.map_take, List.take_take, Nat.min_eq_left few]

theorem writeTriple_eq {triple : UInt32} (small : triple.toNat < 2 ^ 24)
    {count : Nat} (some : 1 ≤ count) (few : count ≤ 3) (put : Nat)
    (out : Buffer) :
    writeTriple triple count put out =
      (put + (count + 1), out.copy put (symbols (count + 1) triple.toNat)) := by
  have two : (out.store put (letter (triple >>> 18))).store (put + 1)
      (letter (triple >>> 12)) =
      out.copy put [letter (triple >>> 18), letter (triple >>> 12)] := by
    rw [Buffer.store_eq_copy out put]
    exact Buffer.store_copy out put [_] _
  have three : (out.copy put [letter (triple >>> 18), letter (triple >>> 12)]).store
      (put + 2) (letter (triple >>> 6)) = out.copy put
        [letter (triple >>> 18), letter (triple >>> 12), letter (triple >>> 6)] :=
    Buffer.store_copy out put [_, _] _
  have four : (out.copy put [letter (triple >>> 18), letter (triple >>> 12),
      letter (triple >>> 6)]).store (put + 3) (letter triple) = out.copy put
        [letter (triple >>> 18), letter (triple >>> 12), letter (triple >>> 6),
          letter triple] :=
    Buffer.store_copy out put [_, _, _] _
  rw [symbols_take (by omega), symbols_of_triple triple small]
  interval_cases count
  · exact Prod.ext rfl two
  · exact Prod.ext rfl ((congrArg (Buffer.store · _ _) two).trans three)
  · exact Prod.ext rfl ((congrArg (fun out =>
      Buffer.store (Buffer.store out _ _) _ _) two).trans
        ((congrArg (Buffer.store · _ _) three).trans four))

/-! ## The whole text -/

theorem base64Loop_pass {input : List UInt8} {outLen i put : Nat}
    (more : i < input.length ∧ put + 4 < outLen) (out : Buffer) :
    ∃ wrote, base64Loop input outLen i put out =
        base64Loop input outLen (i + 3) (put + wrote.length)
          (out.copy put wrote) ∧
      encode (input.drop i) = wrote ++ encode (input.drop (i + 3)) ∧
      wrote.length ≤ 4 := by
  have bits := (readTriple_eq more.1).1
  have taken := (readTriple_eq more.1).2
  have some : input.drop i ≠ [] := fun none =>
    absurd (List.drop_eq_nil_iff.mp none) (Nat.not_le.mpr more.1)
  generalize read : readTriple input i more.1 = triple at bits taken
  have count : triple.2 = min 3 (input.length - i) := by
    rw [taken, List.length_take, List.length_drop]
  have small : triple.1.toNat < 2 ^ 24 := bits ▸ Base64.group_lt _
  have size : (symbols (triple.2 + 1) triple.1.toNat).length = triple.2 + 1 :=
    Base64.symbols_length _ (by omega)
  refine ⟨symbols (triple.2 + 1) triple.1.toNat, ?_, ?_, by omega⟩
  · rw [base64Loop, dif_pos more, read]
    simp only [writeTriple_eq small (by omega : 1 ≤ triple.2) (by omega), size]
  · rw [Base64.encode_group some, ← taken, ← bits, List.drop_drop]

theorem base64Loop_eq (input : List UInt8) (outLen i put : Nat) (out : Buffer)
    (inside : put < outLen) :
    ∃ kept, base64Loop input outLen i put out =
        (put + kept.length, out.copy put kept) ∧
      kept <+: encode (input.drop i) ∧ put + kept.length < outLen ∧
      (put + 4 * ((input.length - i + 2) / 3) < outLen →
        kept = encode (input.drop i)) := by
  induction left : input.length - i using Nat.strong_induction_on
    generalizing i put out with
  | h left ih =>
      by_cases more : i < input.length ∧ put + 4 < outLen
      · obtain ⟨wrote, pass, cut, short⟩ := base64Loop_pass more out
        obtain ⟨kept, result, front, fits, whole⟩ :=
          ih (input.length - (i + 3)) (by omega) (i + 3) (put + wrote.length)
            (out.copy put wrote) (by omega) rfl
        refine ⟨wrote ++ kept, ?_, ?_, ?_, ?_⟩
        · rw [pass, result, List.length_append, Buffer.copy_append,
            Nat.add_assoc]
        · rw [cut]
          exact (List.prefix_append_right_inj _).mpr front
        · rw [List.length_append]
          omega
        · intro room
          rw [cut, whole (by omega)]
      · rw [base64Loop, dif_neg more]
        refine ⟨[], by simp, List.nil_prefix, inside, fun room => ?_⟩
        rw [List.drop_eq_nil_of_le (by omega)]
        rfl

theorem base64Unpadded_eq (input : List UInt8) {outLen : Nat}
    (some : 1 ≤ outLen) (out : Buffer) :
    ∃ kept, base64Unpadded input outLen out = out.copy 0 (kept ++ [0]) ∧
      kept <+: encode input ∧ kept.length < outLen ∧
      (4 * ((input.length + 2) / 3) + 1 ≤ outLen → kept = encode input) := by
  obtain ⟨kept, result, front, fits, whole⟩ :=
    base64Loop_eq input outLen 0 0 out some
  refine ⟨kept, ?_, front, by omega, fun room => whole (by omega)⟩
  simp only [base64Unpadded, result]
  exact Buffer.store_copy out 0 kept 0

theorem cString_copy {text : List UInt8} (noNul : 0 ∉ text) {size : Nat}
    (fits : text.length < size) (out : Buffer) :
    (cString ((out.copy 0 (text ++ [0])).take size)).text = text := by
  obtain ⟨more, rfl⟩ : ∃ more, size = (text ++ [0]).length + more :=
    Nat.exists_eq_add_of_le (by simpa using fits)
  have start := Buffer.take_copy out 0 (text ++ [0])
  rw [Nat.zero_add, Buffer.take_zero, List.nil_append] at start
  rw [Buffer.take_add, start, List.append_assoc]
  exact cString_append noNul (by simp)

/-- The text that a caller finds in its `outLen` bytes. -/
def encodedText (input : List UInt8) (outLen : Nat) (out : Buffer) :
    List UInt8 :=
  (cString ((base64Unpadded input outLen out).take outLen)).text

structure Encoded (input : List UInt8) (outLen : Nat) (out : Buffer) :
    Prop where
  terminated : 0 ∈ (base64Unpadded input outLen out).take outLen
  front : encodedText input outLen out <+: encode input
  whole : 4 * ((input.length + 2) / 3) + 1 ≤ outLen →
    encodedText input outLen out = encode input
  untouched : ∀ index, outLen ≤ index →
    base64Unpadded input outLen out index = out index

theorem encoded (input : List UInt8) {outLen : Nat} (some : 1 ≤ outLen)
    (out : Buffer) : Encoded input outLen out := by
  obtain ⟨kept, result, front, fits, whole⟩ :=
    base64Unpadded_eq input some out
  have noNul : 0 ∉ kept := fun member =>
    Base64.encode_noNul input (front.subset member)
  have text : encodedText input outLen out = kept := by
    rw [encodedText, result]
    exact cString_copy noNul fits out
  constructor
  · have stored : base64Unpadded input outLen out kept.length = 0 := by
      have last : kept.length < (kept ++ [0]).length := by simp
      rw [result, ← Nat.zero_add kept.length, Buffer.copy_inside out 0 _ last]
      exact List.getElem_concat_length rfl last
    exact List.mem_map.mpr ⟨kept.length, List.mem_range.mpr fits, stored⟩
  · exact text ▸ front
  · exact fun room => text.trans (whole room)
  · intro index outside
    rw [result]
    refine Buffer.copy_behind out 0 (kept ++ [0]) ?_
    simp only [List.length_append, List.length_singleton]
    omega

theorem fingerprintOf_made {sha : Sha256} {key : List UInt8} {outLen : Nat}
    {stack out after : Buffer}
    (made : fingerprintOf sha key stack out outLen = (0, after)) :
    fingerprintLen ≤ outLen ∧
      after = snprintf out outLen (ascii "SHA256:" ++
        (cString ((base64Unpadded (sha.final key).2.toList 48 stack).take
          48)).text) := by
  simp only [fingerprintOf] at made
  split_ifs at made with short failed updated stopped <;>
    first
    | exact absurd (Prod.mk.inj made).1 (by decide)
    | exact ⟨Nat.not_lt.mp short, (Prod.mk.inj made).2.symm⟩

theorem fingerprintOf_text {sha : Sha256} {key : List UInt8} {outLen : Nat}
    {stack out after : Buffer}
    (made : fingerprintOf sha key stack out outLen = (0, after)) :
    (cString (after.take outLen)).text =
      ascii "SHA256:" ++ encode (sha.final key).2.toList := by
  have digest := encoded (sha.final key).2.toList (by decide : 1 ≤ 48) stack
  have size : (encode (sha.final key).2.toList).length = 43 := by
    rw [Base64.encode_length, Vector.length_toList]
  have text : (cString ((base64Unpadded (sha.final key).2.toList 48 stack).take
      48)).text = encode (sha.final key).2.toList :=
    digest.whole (by rw [Vector.length_toList]; decide)
  have noNul : 0 ∉ ascii "SHA256:" ++ encode (sha.final key).2.toList := by
    rw [List.mem_append, not_or]
    exact ⟨by decide +kernel, Base64.encode_noNul _⟩
  have length : (ascii "SHA256:" ++ encode (sha.final key).2.toList).length =
      50 := by
    rw [List.length_append, size]
    rfl
  obtain ⟨room, filled⟩ := fingerprintOf_made made
  have fits : (ascii "SHA256:" ++ encode (sha.final key).2.toList).length <
      outLen := length ▸ lt_of_lt_of_le (by decide) room
  rw [text, snprintf, List.take_of_length_le (by omega)] at filled
  rw [filled]
  exact cString_copy noNul fits out

theorem base64_unpadded_faithful (input : List UInt8) {outLen : Nat}
    (room : 1 ≤ outLen) (out : Buffer) :
    Encoded input outLen out ∧
      (4 * ((input.length + 2) / 3) + 1 ≤ outLen →
        decode (encodedText input outLen out) = some input ∧
        ∀ other otherLen stack, 4 * ((other.length + 2) / 3) + 1 ≤ otherLen →
          encodedText other otherLen stack = encodedText input outLen out →
          other = input) ∧
      ∀ (sha other : Sha256) key given (stack otherStack first second
          firstAfter secondAfter : Buffer) firstLen secondLen,
        fingerprintOf sha key stack first firstLen = (0, firstAfter) →
        fingerprintOf other given otherStack second secondLen =
          (0, secondAfter) →
        (cString (firstAfter.take firstLen)).text =
          (cString (secondAfter.take secondLen)).text →
        (sha.final key).2 = (other.final given).2 := by
  have ours := encoded input room out
  refine ⟨ours, fun whole => ⟨?_, ?_⟩, ?_⟩
  · rw [ours.whole whole]
    exact Base64.decode_encode input
  · intro other otherLen stack enough same
    have theirs := encoded other (by omega : 1 ≤ otherLen) stack
    rw [theirs.whole enough, ours.whole whole] at same
    exact Base64.encode_injective same
  · intro sha other key given stack otherStack first second firstAfter
      secondAfter firstLen secondLen made again same
    rw [fingerprintOf_text made, fingerprintOf_text again] at same
    exact Vector.toList_inj.mp
      (Base64.encode_injective (List.append_cancel_left same))

theorem three_letters_in_five :
    encodedText [0x61, 0x62, 0x63] 5 (fun _ => 7) = ascii "YWJj" :=
  ((base64_unpadded_faithful [0x61, 0x62, 0x63] (by decide : 1 ≤ 5)
    (fun _ => 7)).1.whole (by decide)).trans (by decide +kernel)

end Pspssh.Session
