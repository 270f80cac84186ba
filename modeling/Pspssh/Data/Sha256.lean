import Mathlib

namespace Pspssh.Data.Sha256

/-! SHA-256 as a function of the whole message. -/

def roundConstants : List UInt32 :=
  [0x428a2f98, 0x71374491, 0xb5c0fbcf, 0xe9b5dba5,
    0x3956c25b, 0x59f111f1, 0x923f82a4, 0xab1c5ed5,
    0xd807aa98, 0x12835b01, 0x243185be, 0x550c7dc3,
    0x72be5d74, 0x80deb1fe, 0x9bdc06a7, 0xc19bf174,
    0xe49b69c1, 0xefbe4786, 0x0fc19dc6, 0x240ca1cc,
    0x2de92c6f, 0x4a7484aa, 0x5cb0a9dc, 0x76f988da,
    0x983e5152, 0xa831c66d, 0xb00327c8, 0xbf597fc7,
    0xc6e00bf3, 0xd5a79147, 0x06ca6351, 0x14292967,
    0x27b70a85, 0x2e1b2138, 0x4d2c6dfc, 0x53380d13,
    0x650a7354, 0x766a0abb, 0x81c2c92e, 0x92722c85,
    0xa2bfe8a1, 0xa81a664b, 0xc24b8b70, 0xc76c51a3,
    0xd192e819, 0xd6990624, 0xf40e3585, 0x106aa070,
    0x19a4c116, 0x1e376c08, 0x2748774c, 0x34b0bcb5,
    0x391c0cb3, 0x4ed8aa4a, 0x5b9cca4f, 0x682e6ff3,
    0x748f82ee, 0x78a5636f, 0x84c87814, 0x8cc70208,
    0x90befffa, 0xa4506ceb, 0xbef9a3f7, 0xc67178f2]

/-- The eight words of the state. -/
structure Words where
  (a b c d e f g h : UInt32)

def initial : Words :=
  ⟨0x6a09e667, 0xbb67ae85, 0x3c6ef372, 0xa54ff53a,
    0x510e527f, 0x9b05688c, 0x1f83d9ab, 0x5be0cd19⟩

def rotate (word count : UInt32) : UInt32 :=
  word >>> count ||| word <<< (32 - count)

/-- The words of a block and the forty-eight after them, the last one first. -/
def schedule (block : List UInt32) : List UInt32 :=
  (List.range 48).foldl (fun words _ =>
    let early := words.getD 14 0
    let late := words.getD 1 0
    (words.getD 15 0 + words.getD 6 0 +
      (rotate early 7 ^^^ rotate early 18 ^^^ early >>> 3) +
      (rotate late 17 ^^^ rotate late 19 ^^^ late >>> 10)) :: words)
    block.reverse

def round (state : Words) (added : UInt32 × UInt32) : Words :=
  let first := state.h +
    (rotate state.e 6 ^^^ rotate state.e 11 ^^^ rotate state.e 25) +
    (state.e &&& state.f ^^^ ~~~state.e &&& state.g) + added.1 + added.2
  let second := (rotate state.a 2 ^^^ rotate state.a 13 ^^^ rotate state.a 22) +
    (state.a &&& state.b ^^^ state.a &&& state.c ^^^ state.b &&& state.c)
  ⟨first + second, state.a, state.b, state.c,
    state.d + first, state.e, state.f, state.g⟩

def compress (state : Words) (block : List UInt32) : Words :=
  let mixed := (roundConstants.zip (schedule block).reverse).foldl round state
  ⟨state.a + mixed.a, state.b + mixed.b, state.c + mixed.c, state.d + mixed.d,
    state.e + mixed.e, state.f + mixed.f, state.g + mixed.g, state.h + mixed.h⟩

def wordBytes (word : UInt32) : Vector UInt8 4 :=
  #v[(word >>> 24).toUInt8, (word >>> 16).toUInt8, (word >>> 8).toUInt8,
    word.toUInt8]

/-- The message, a one bit, zeros, and the length in bits as eight bytes. -/
def pad (message : List UInt8) : List UInt8 :=
  let bits := 8 * message.length
  message ++ 0x80 :: List.replicate ((119 - message.length % 64) % 64) 0 ++
    (wordBytes (bits / 2 ^ 32).toUInt32).toList ++
    (wordBytes bits.toUInt32).toList

def wordAt (padded : List UInt8) (index : Nat) : UInt32 :=
  ((padded.drop (4 * index)).take 4).foldl
    (fun word byte => word <<< 8 ||| byte.toUInt32) 0

def digest (message : List UInt8) : Vector UInt8 32 :=
  let padded := pad message
  let state := (List.range (padded.length / 64)).foldl (fun state block =>
    compress state ((List.range 16).map fun i => wordAt padded (16 * block + i)))
    initial
  wordBytes state.a ++ wordBytes state.b ++ wordBytes state.c ++
    wordBytes state.d ++ wordBytes state.e ++ wordBytes state.f ++
    wordBytes state.g ++ wordBytes state.h

example : (digest [0x61, 0x62, 0x63]).toList =
    [0xba, 0x78, 0x16, 0xbf, 0x8f, 0x01, 0xcf, 0xea,
      0x41, 0x41, 0x40, 0xde, 0x5d, 0xae, 0x22, 0x23,
      0xb0, 0x03, 0x61, 0xa3, 0x96, 0x17, 0x7a, 0x9c,
      0xb4, 0x10, 0xff, 0x61, 0xf2, 0x00, 0x15, 0xad] := by
  decide +kernel

end Pspssh.Data.Sha256
