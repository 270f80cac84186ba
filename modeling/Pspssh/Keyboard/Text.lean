import Pspssh.Data.Cells
import Pspssh.Data.Text

namespace Pspssh.Keyboard

open Pspssh.Data

/-! The text of the on-screen keyboard, to 16-bit units and back. -/

abbrev oskMaxText : Nat := 255

abbrev oskMax : Nat := oskMaxText + 1

abbrev Units := Cells oskMax UInt16

/-- `to_utf16`, with `none` for `NULL`. -/
def toUtf16 (source : Option (List UInt8)) (target : Units) (max : Nat) : Units :=
  target.store (convertUnits UInt8.toUInt16 (max - 1) (source.getD []))

def drawable (unit : UInt16) : UInt8 :=
  if 0x20 ≤ unit ∧ unit ≤ 0x7e then unit.toUInt8 else 0x3f

def fromUtf16 {size : Nat} (source : Units) (target : Cells size UInt8) (max : Nat) :
    Cells size UInt8 :=
  target.store (convertUnits drawable (max - 1) (List.ofFn source))

/-- A byte that the font can draw. -/
def Typable (ch : UInt8) : Prop :=
  0x20 ≤ ch ∧ ch ≤ 0x7e

instance : DecidablePred Typable := fun _ =>
  inferInstanceAs (Decidable (_ ∧ _))

theorem widened_eq_zero_iff (ch : UInt8) : ch.toUInt16 = 0 ↔ ch = 0 := by
  rw [← UInt16.toNat_inj, ← UInt8.toNat_inj, UInt8.toNat_toUInt16]
  rfl

theorem drawable_ne_zero (unit : UInt16) : drawable unit ≠ 0 := by
  unfold drawable
  split
  · rename_i inside
    intro zero
    have bounds := UInt16.le_iff_toNat_le.mp inside.1
    have upper := UInt16.le_iff_toNat_le.mp inside.2
    have low := congrArg UInt8.toNat zero
    rw [UInt16.toNat_toUInt8] at low
    simp at bounds upper low
    omega
  · decide

theorem drawable_widened_iff (ch : UInt8) :
    drawable ch.toUInt16 = ch ↔ Typable ch := by
  have same : (0x20 ≤ ch.toUInt16 ∧ ch.toUInt16 ≤ 0x7e) ↔ Typable ch := by
    unfold Typable
    simp only [UInt16.le_iff_toNat_le, UInt8.le_iff_toNat_le,
      UInt8.toNat_toUInt16]
    rfl
  unfold drawable
  split
  · rename_i inside
    exact iff_of_true (UInt8.toUInt8_toUInt16 ch) (same.mp inside)
  · rename_i outside
    refine iff_of_false ?_ (mt same.mpr outside)
    rintro rfl
    exact outside (same.mpr (by decide))

theorem convert_noNul {α β : Type} [Zero α] [DecidableEq α] [Zero β]
    {convert : α → β} (keeps : ∀ unit, unit ≠ 0 → convert unit ≠ 0) (room : Nat)
    (text : List α) : 0 ∉ convertUnits convert room text := by
  rw [convertUnits_eq]
  intro member
  obtain ⟨unit, inside, zero⟩ := List.mem_map.mp member
  have some_unit := List.mem_takeWhile_imp (List.mem_of_mem_take inside)
  exact keeps unit (by simpa using some_unit) zero

theorem toUtf16_noNul (room : Nat) (text : List UInt8) :
    0 ∉ convertUnits UInt8.toUInt16 room text :=
  convert_noNul (fun ch some_byte => mt (widened_eq_zero_iff ch).mp some_byte)
    room text

/-- A text without a NUL that fits is widened byte by byte. -/
theorem text_toUtf16 {text : List UInt8} (target : Units) (noNul : 0 ∉ text)
    (fits : text.length < oskMax) :
    (toUtf16 (some text) target oskMax).text = text.map UInt8.toUInt16 := by
  have whole : convertUnits UInt8.toUInt16 (oskMax - 1) text =
      text.map UInt8.toUInt16 := by
    have kept : text.takeWhile (· ≠ 0) = text := cString_text noNul
    have short : text.length ≤ oskMax - 1 := Nat.le_of_lt_succ fits
    rw [convertUnits_eq, kept, List.take_of_length_le short]
  change (target.store (convertUnits UInt8.toUInt16 (oskMax - 1) text)).text = _
  rw [Cells.text_store target (toUtf16_noNul _ _), whole]
  rw [whole, List.length_map]
  exact fits

theorem toUtf16_eq_zero_iff {source : Option (List UInt8)} {target : Units} :
    toUtf16 source target oskMax = 0 ↔
      (cString (source.getD [])).text = [] ∧ ∀ i, 0 < i.val → target i = 0 := by
  have short := convertUnits_length UInt8.toUInt16 (oskMax - 1) (source.getD [])
  unfold toUtf16
  rw [Cells.store_eq_zero_iff (toUtf16_noNul _ _) (Nat.lt_succ_of_le short),
    convertUnits_eq, List.map_eq_nil_iff, List.take_eq_nil_iff,
    or_iff_right (by decide)]
  rfl

theorem text_fromUtf16 {size : Nat} (source : Units) (target : Cells size UInt8)
    (room : 0 < size) :
    (fromUtf16 source target size).text =
      (source.text.take (size - 1)).map drawable := by
  unfold fromUtf16
  rw [Cells.text_store, convertUnits_eq]
  · rfl
  · exact convert_noNul (fun unit _ => drawable_ne_zero unit) _ _
  · have := convertUnits_length drawable (size - 1) (List.ofFn source)
    omega

/-- A field comes back from the keyboard unchanged if and only if the font can
draw all of it. -/
theorem fromUtf16_toUtf16_iff {size : Nat} (field : Field size)
    (short : size ≤ oskMax) (units : Units) (cells : Cells size UInt8) :
    (fromUtf16 (toUtf16 (some field.text) units oskMax) cells size).text =
        field.text ↔
      ∀ ch ∈ field.text, Typable ch := by
  have fits := field.fits
  rw [text_fromUtf16 _ _ (by omega),
    text_toUtf16 units field.noNul (by omega),
    List.take_of_length_le (by rw [List.length_map]; omega), List.map_map]
  constructor
  · intro same ch member
    have each := List.map_inj_left.mp (same.trans (List.map_id _).symm)
    exact (drawable_widened_iff ch).mp (each ch member)
  · intro typable
    refine (List.map_congr_left fun ch member => ?_).trans (List.map_id _)
    exact (drawable_widened_iff ch).mpr (typable ch member)

end Pspssh.Keyboard
