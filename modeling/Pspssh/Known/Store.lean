import Pspssh.Card.File
import Pspssh.Data.Decimal
import Pspssh.Data.Table
import Pspssh.Data.Text

namespace Pspssh.Known

open Pspssh.Data
open Pspssh.Card

/-! The remembered host keys: the list, its file and its changes. -/

def knownPath : Path := ascii "pspssh.known"

abbrev knownMax : Nat := 48

abbrev addressLen : Nat := 96

abbrev fingerprintLen : Nat := 72

instance : NeZero addressLen := ⟨by decide⟩

instance : NeZero fingerprintLen := ⟨by decide⟩

def fileMax : Nat := knownMax * (addressLen + fingerprintLen + 16)

structure KnownEntry where
  address : Field addressLen
  port : Int32
  fingerprint : Field fingerprintLen
deriving DecidableEq

def zeroEntry : KnownEntry where
  address := emptyField _
  port := 0
  fingerprint := emptyField _

structure KnownHosts where
  entries : Table KnownEntry knownMax
  lastError : String

def KnownHosts.fail (known : KnownHosts) (message : String) : KnownHosts :=
  { known with lastError := message }

def noKnownHosts : KnownHosts where
  entries := { slots := fun _ => zeroEntry, count := 0, within := Nat.zero_le _ }
  lastError := ""

def knownhostsError (known : KnownHosts) : String :=
  if known.lastError ≠ "" then known.lastError else "no error"

def knownhostsCount (known : KnownHosts) : Int :=
  known.entries.count

def KnownEntry.IsFor (address : List UInt8) (port : Int32)
    (entry : KnownEntry) : Bool :=
  entry.port = port ∧ entry.address.text = address

def find (address : CString) (port : Int32) (known : KnownHosts) : Option Nat :=
  known.entries.find (·.IsFor address.text port)

/-- `knownhosts_lookup`, with `none` for `NULL`. -/
def knownhostsLookup (address : Option CString) (port : Int32)
    (known : KnownHosts) : Option CString :=
  match address with
  | none => none
  | some address =>
      match find address port known with
      | none => none
      | some index => some (known.entries.slots index).fingerprint.toCString

/-! ## The file -/

/-- The line of an entry, without its end. -/
def KnownEntry.line (entry : KnownEntry) : List UInt8 :=
  entry.address.text ++ 0x09 :: (intText entry.port ++ 0x09 ::
    entry.fingerprint.text)

def save (known : KnownHosts) : Io (Int × KnownHosts) :=
  match gather fileMax
      (known.entries.toList.map fun entry => entry.line ++ [0x0a]) with
  | none => pure (-1, known.fail "the remembered keys did not fit")
  | some text => do
      let result ← cardfileWrite knownPath text
      if result.value ≠ 0 then
        pure (-1, known.fail (cardfileError result))
      else pure (0, known)

section Reading

variable [Libc]

/-- `take_line` writes the port into the next free slot before it looks at it. -/
def takeLine (entries : Table KnownEntry knownMax) (line : List UInt8) :
    Table KnownEntry knownMax :=
  if line = [] ∨ line.head? = some 0x23 then entries
  else if room : entries.count < knownMax then
    match cutAt 0x09 line with
    | none => entries
    | some (address, rest) =>
        match cutAt 0x09 rest with
        | none => entries
        | some (port, fingerprint) =>
            if address = [] ∨ fingerprint = [] then entries
            else if address.length ≥ addressLen ∨
                fingerprint.length ≥ fingerprintLen then entries
            else
              let port := atoi port
              let scribbled := entries.store entries.count
                { entries.slots entries.count with port := port }
              if port < 1 ∨ port > 65535 then scribbled
              else
                scribbled.push
                  { address := copyField _ address
                    port := port
                    fingerprint := copyField _ fingerprint } room
  else entries

def knownhostsLoad (known : KnownHosts) : Io (Int × KnownHosts) := do
  let empty : KnownHosts :=
    { entries := known.entries.clear, lastError := "" }
  let read ← cardfileRead knownPath (fileMax - 1)
  match read.value with
  | .unreadable => pure (-1, empty.fail (cardfileError read))
  | .missing => pure (0, empty)
  | .whole content =>
      pure (0, { empty with
        entries := (lines (cString content).text).foldl takeLine empty.entries })

end Reading

/-! ## Changing the list -/

/-- `knownhosts_remember`, with `none` for `NULL`. -/
def knownhostsRemember (address : Option CString) (port : Int32)
    (fingerprint : Option CString) (known : KnownHosts) :
    Io (Int × KnownHosts) :=
  match address, fingerprint with
  | some address, some fingerprint =>
      if address.text = [] ∨ fingerprint.text = [] then
        pure (-1, known.fail "there is nothing to remember")
      else if ¬ Plain address.text ∨ ¬ Plain fingerprint.text then
        pure (-1, known.fail "that address cannot be stored")
      else
        let entry : KnownEntry :=
          { address := copyField _ address.text
            port := port
            fingerprint := copyField _ fingerprint.text }
        match find address port known with
        | some index =>
            save { known with entries := known.entries.store index entry }
        | none =>
            if room : known.entries.count < knownMax then
              save { known with entries := known.entries.push entry room }
            else
              pure (-1,
                known.fail "there is no room to remember another server")
  | _, _ => pure (-1, known.fail "there is nothing to remember")

def knownhostsForget (address : Option CString) (port : Int32)
    (known : KnownHosts) : Io (Int × KnownHosts) :=
  match address with
  | none => pure (0, known)
  | some address =>
      match find address port known with
      | none => pure (0, known)
      | some index =>
          save { known with entries := known.entries.removeAt index zeroEntry }

end Pspssh.Known
