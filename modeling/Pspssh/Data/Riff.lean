import Pspssh.Data.Struct

namespace Pspssh.Data.Riff

/-! The chunks of a RIFF file: a name of four bytes, a length, and a payload that is
filled up to an even length. -/

structure Chunk where
  id : List UInt8
  payload : List UInt8
  deriving DecidableEq

/-- At most so many chunks, while there is room for a name and a length; the last
payload may be cut short. -/
def chunksFrom : Nat → List UInt8 → List Chunk
  | 0, _ => []
  | count + 1, rest =>
      if 8 ≤ rest.length then
        let size := leValue ((rest.drop 4).take 4)
        ⟨rest.take 4, (rest.drop 8).take size⟩ ::
          chunksFrom count (rest.drop (8 + size + size % 2))
      else []

/-- What is behind the payload. -/
def filling (length : Nat) : List UInt8 :=
  List.replicate (length % 2) 0

def Chunk.bytes (chunk : Chunk) : List UInt8 :=
  chunk.id ++ leBytes 4 chunk.payload.length ++ chunk.payload ++
    filling chunk.payload.length

structure Chunk.Sound (chunk : Chunk) : Prop where
  id : chunk.id.length = 4
  payload : chunk.payload.length < 256 ^ 4

theorem leValue_lt (bytes : List UInt8) : leValue bytes < 256 ^ bytes.length := by
  induction bytes with
  | nil => exact Nat.one_pos
  | cons byte rest ih =>
      have := byte.toNat_lt
      rw [leValue, List.length_cons, Nat.pow_succ]
      omega

theorem chunksFrom_sound {count : Nat} {rest : List UInt8} {chunk : Chunk}
    (among : chunk ∈ chunksFrom count rest) : chunk.Sound := by
  induction count generalizing rest with
  | zero => cases among
  | succ count ih =>
      rw [chunksFrom] at among
      split at among
      · rename_i room
        rcases List.mem_cons.mp among with rfl | later
        · refine ⟨by rw [List.length_take]; omega, ?_⟩
          have small := leValue_lt ((rest.drop 4).take 4)
          rw [List.length_take, List.length_drop, Nat.min_eq_left (by omega)] at small
          exact Nat.lt_of_le_of_lt (List.length_take_le _ _) small
        · exact ih later
      · cases among

namespace Chunk

variable {chunk : Chunk}

theorem Sound.bytes_length (sound : chunk.Sound) :
    chunk.bytes.length = 8 + chunk.payload.length + chunk.payload.length % 2 := by
  simp only [bytes, filling, List.length_append, List.length_replicate, sound.id,
    leBytes_length]

/-- A chunk that stands in front is read as it is. -/
theorem Sound.read (sound : chunk.Sound) (count : Nat) (rest : List UInt8) :
    chunksFrom (count + 1) (chunk.bytes ++ rest) = chunk :: chunksFrom count rest := by
  have length := sound.bytes_length
  have parts : chunk.bytes ++ rest = chunk.id ++ (leBytes 4 chunk.payload.length ++
      (chunk.payload ++ (filling chunk.payload.length ++ rest))) := by
    simp only [bytes, List.append_assoc]
  have name : (chunk.bytes ++ rest).take 4 = chunk.id := by
    rw [parts, List.take_left' sound.id]
  have behind : (chunk.bytes ++ rest).drop 4 = leBytes 4 chunk.payload.length ++
      (chunk.payload ++ (filling chunk.payload.length ++ rest)) := by
    rw [parts, List.drop_left' sound.id]
  have size : leValue (((chunk.bytes ++ rest).drop 4).take 4) =
      chunk.payload.length := by
    rw [behind, List.take_left' (leBytes_length _ _), leValue_leBytes sound.payload]
  have payload : ((chunk.bytes ++ rest).drop 8).take chunk.payload.length =
      chunk.payload := by
    rw [show 8 = 4 + 4 from rfl, ← List.drop_drop, behind,
      List.drop_left' (leBytes_length _ _), List.take_left' rfl]
  rw [chunksFrom, if_pos (by rw [List.length_append, length]; omega)]
  dsimp only
  rw [size, name, payload, List.drop_left' length]

end Chunk

/-- What is written down is read back. -/
theorem chunksFrom_bytes {chunks : List Chunk} (sound : ∀ chunk ∈ chunks, chunk.Sound)
    {count : Nat} (enough : chunks.length ≤ count) :
    chunksFrom count (chunks.flatMap Chunk.bytes) = chunks := by
  induction chunks generalizing count with
  | nil => cases count <;> rfl
  | cons chunk chunks ih =>
      obtain ⟨here, later⟩ := List.forall_mem_cons.mp sound
      cases count with
      | zero => cases enough
      | succ count =>
          rw [List.flatMap_cons, here.read, ih later (Nat.le_of_succ_le_succ enough)]

theorem length_le_bytes {chunks : List Chunk} (sound : ∀ chunk ∈ chunks, chunk.Sound) :
    chunks.length ≤ (chunks.flatMap Chunk.bytes).length := by
  induction chunks with
  | nil => exact le_refl _
  | cons chunk chunks ih =>
      obtain ⟨here, later⟩ := List.forall_mem_cons.mp sound
      have := ih later
      have := here.bytes_length
      rw [List.flatMap_cons, List.length_append, List.length_cons]
      omega

end Pspssh.Data.Riff
