import Mathlib

namespace Pspssh.Screen

/-! The font that everything is drawn in. -/

def fontFirst : UInt8 := 0x20

def fontLast : UInt8 := 0x7e

/-- `font_spleen_6x12`: of each glyph the twelve rows, a byte each, the topmost
one first. -/
def font : List Nat := [
  0x000000000000000000000000, 0x002020202020200020000000, 0x005050500000000000000000,
  0x000050f8505050f850000000, 0x2078a0a070282828f0200000, 0x000848501020284840000000,
  0x003048483060948874000000, 0x002020200000000000000000, 0x182040404040404020180000,
  0x601008080808080810600000, 0x0000004830fc304800000000, 0x0000002020f8202000000000,
  0x000000000000002020400000, 0x0000000000f8000000000000, 0x000000000000000020000000,
  0x080810102020404080800000, 0x00708898a8c8888870000000, 0x002060202020202070000000,
  0x0070880808708080f8000000, 0x007088083008088870000000, 0x008080909090f81010000000,
  0x00f88080f0080808f0000000, 0x00708080f088888870000000, 0x00f888081020202020000000,
  0x007088887088888870000000, 0x007088888878080870000000, 0x000000002000000020000000,
  0x000000002000002020400000, 0x000810204040201008000000, 0x00000000f800f80000000000,
  0x004020100808102040000000, 0x007088081020200020000000, 0x00708888b8b8b88078000000,
  0x0070888888f8888888000000, 0x00f08888f0888888f0000000, 0x007880808080808078000000,
  0x00f0888888888888f0000000, 0x00788080f080808078000000, 0x00788080f080808080000000,
  0x00788080b888888878000000, 0x00888888f888888888000000, 0x007020202020202070000000,
  0x0070202020202020c0000000, 0x00888890e090888888000000, 0x008080808080808078000000,
  0x0088d8f8a888888888000000, 0x0088c8c8a8a8989888000000, 0x007088888888888870000000,
  0x00f0888888f0808080000000, 0x007088888888888870180000, 0x00f0888888f0888888000000,
  0x0078808070080808f0000000, 0x00f820202020202020000000, 0x008888888888888878000000,
  0x008888888888887070000000, 0x0088888888a8f8d888000000, 0x008888502050888888000000,
  0x0088888888780808f0000000, 0x00f8081020408080f8000000, 0x784040404040404040780000,
  0x808040402020101008080000, 0x780808080808080808780000, 0x002050880000000000000000,
  0x000000000000000000f80000, 0x004020100000000000000000, 0x000000700878888878000000,
  0x008080f088888888f0000000, 0x000000788080808078000000, 0x000808788888888878000000,
  0x000000788888f88078000000, 0x00384040f040404040000000, 0x00000078888888887008f000,
  0x008080f08888888888000000, 0x002000602020202030000000, 0x001000101010101010600000,
  0x00808090a0c0a09088000000, 0x004040404040404030000000, 0x000000f0a8a8a88888000000,
  0x000000f08888888888000000, 0x000000708888888870000000, 0x000000f088888888f0808080,
  0x000000788888888878080808, 0x000000788880808080000000, 0x0000007880700808f0000000,
  0x004040e04040404030000000, 0x000000888888888878000000, 0x000000888888885020000000,
  0x0000008888a8f8d888000000, 0x000000888870708888000000, 0x0000008888888888780808f0,
  0x000000f808102040f8000000, 0x18202020c0c0202020180000, 0x202020202020202020200000,
  0x601010100c0c101010600000, 0x000000000048b00000000000]

def fontRow (ch : UInt8) (y : Nat) : UInt8 :=
  (font.getD (ch - fontFirst).toNat 0 >>> (8 * (11 - y))).toUInt8

/-- `bits & (0x80u >> x)`. -/
def bitAt (bits : UInt8) (x : Nat) : Bool :=
  bits.toUInt32 &&& ((0x80 : UInt32) >>> x.toUInt32) ≠ 0

/-- What is drawn for a byte: anything but printable ASCII is a space. -/
def drawn (ch : UInt8) : UInt8 :=
  if ch < fontFirst ∨ ch > fontLast then 0x20 else ch

/-- The pixels of a cell that the glyph of a byte inks. -/
def inked (ch : UInt8) (x y : Nat) : Bool :=
  bitAt (fontRow (drawn ch) y) x

end Pspssh.Screen
