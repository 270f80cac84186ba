import Pspssh.Data.Riff
import Pspssh.Data.Text

namespace Pspssh.At3

open Pspssh.Data Pspssh.Data.Riff

/-! The loop over the whole of an ATRAC3 file. -/

def chunks (data : List UInt8) : List Chunk :=
  chunksFrom data.length (data.drop 12)

inductive Problem where
  | notRiff | alreadyLooped | noFmtOrFact | structError | zeroDivision
  deriving DecidableEq

/-- `struct.unpack` with `"<I"`. -/
def unpackWord (bytes : List UInt8) : Except Problem Nat :=
  if bytes.length = 4 then .ok (leValue bytes) else .error .structError

def pack (fields : List (Nat × Nat)) : Except Problem (List UInt8) :=
  (structPack fields).elim (.error .structError) .ok

/-- A forward loop over everything, as `"<IIIIIIIII"` and `"<IIIIII"`. -/
def loopFields (totalSamples sampleRate : Nat) : List (Nat × Nat) :=
  [(4, 0), (4, 0), (4, 1000000000 / sampleRate), (4, 60), (4, 0), (4, 0), (4, 0),
    (4, 1), (4, 0)] ++
    [(4, 0), (4, 0), (4, 0), (4, totalSamples - 1), (4, 0), (4, 0)]

def smplChunk (totalSamples sampleRate : Nat) : Except Problem (List UInt8) := do
  if sampleRate = 0 then throw .zeroDivision
  let body ← pack (loopFields totalSamples sampleRate)
  let size ← pack [(4, body.length)]
  pure (ascii "smpl" ++ size ++ body)

/-- The variables of the first loop in `main`. -/
structure Known where
  rate : Option Nat
  total : Option Nat
  deriving DecidableEq

def look (known : Known) (chunk : Chunk) : Except Problem Known :=
  if chunk.id = ascii "fmt " then do
    let rate ← unpackWord ((chunk.payload.drop 4).take 4)
    pure { known with rate := some rate }
  else if chunk.id = ascii "fact" then do
    let total ← unpackWord (chunk.payload.take 4)
    pure { known with total := some total }
  else if chunk.id = ascii "smpl" then throw .alreadyLooped
  else pure known

/-- The body of the second loop. -/
def put (total rate : Nat) (out : List UInt8) (chunk : Chunk) :
    Except Problem (List UInt8) := do
  let out ← (if chunk.id = ascii "data" then do
      let smpl ← smplChunk total rate
      pure (out ++ smpl)
    else pure out : Except Problem (List UInt8))
  let size := chunk.payload.length
  let packed ← pack [(4, size)]
  let out := out ++ (chunk.id ++ packed ++ chunk.payload)
  pure (if size % 2 = 1 then out ++ [0] else out)

/-- `main`, from the file that is read to the file that is written. -/
def addLoop (data : List UInt8) : Except Problem (List UInt8) := do
  if data.take 4 ≠ ascii "RIFF" ∨ (data.drop 8).take 4 ≠ ascii "WAVE" then
    throw .notRiff
  match ← (chunks data).foldlM look ⟨none, none⟩ with
  | ⟨some rate, some total⟩ =>
      let out ← (chunks data).foldlM (put total rate) (data.take 12)
      let size ← pack [(4, out.length - 8)]
      pure (out.take 4 ++ size ++ out.drop 8)
  | _ => throw .noFmtOrFact

end Pspssh.At3
