import Pspssh.Card.File
import Pspssh.Data.Decimal
import Pspssh.Data.Table
import Pspssh.Data.Text

namespace Pspssh.Hosts

open Pspssh.Data
open Pspssh.Card

/-! The saved servers: the list, its checks and its file. -/

def hostsPath : Path := ascii "pspssh.hosts"

def legacyPath : Path := ascii "pspssh.cfg"

abbrev hostsMax : Nat := 24

abbrev hostNameLen : Nat := 24

abbrev hostAddressLen : Nat := 96

abbrev hostUserLen : Nat := 32

abbrev hostPasswordLen : Nat := 64

abbrev fileMax : Nat := 16384

instance : NeZero hostNameLen := ⟨by decide⟩

instance : NeZero hostAddressLen := ⟨by decide⟩

instance : NeZero hostUserLen := ⟨by decide⟩

instance : NeZero hostPasswordLen := ⟨by decide⟩

@[ext] structure HostEntry where
  name : Field hostNameLen
  address : Field hostAddressLen
  user : Field hostUserLen
  password : Field hostPasswordLen
  port : Int32
  profile : Int32
deriving DecidableEq

def zeroEntry : HostEntry where
  name := emptyField _
  address := emptyField _
  user := emptyField _
  password := emptyField _
  port := 0
  profile := 0

def hostsBlank : HostEntry :=
  { zeroEntry with port := 22, profile := 0 }

structure HostEntry.AllPlain (entry : HostEntry) : Prop where
  name : Plain entry.name.text
  address : Plain entry.address.text
  user : Plain entry.user.text
  password : Plain entry.password.text

instance (entry : HostEntry) : Decidable entry.AllPlain :=
  decidable_of_iff
    (Plain entry.name.text ∧ Plain entry.address.text ∧
      Plain entry.user.text ∧ Plain entry.password.text)
    ⟨fun ⟨name, address, user, password⟩ => ⟨name, address, user, password⟩,
      fun plain => ⟨plain.name, plain.address, plain.user, plain.password⟩⟩

/-- `hosts_problem`, with `none` for `NULL`. -/
def hostsProblem : Option HostEntry → Option String
  | none => some "there is nothing to save"
  | some entry =>
      if entry.address.text = [] then some "a host needs an address"
      else if entry.user.text = [] then some "a host needs a user name"
      else if entry.port < 1 ∨ entry.port > 65535 then
        some "a port has to be between 1 and 65535"
      else if entry.profile < 0 ∨ entry.profile > 10 then
        some "a wi-fi profile is 1 to 10, or 0 for any"
      else if ¬ entry.AllPlain then
        some "tabs and line breaks cannot be stored in a field"
      else none

structure HostList where
  entries : Table HostEntry hostsMax
  lastError : String

def HostList.fail (hosts : HostList) (message : String) : HostList :=
  { hosts with lastError := message }

def noHosts : HostList where
  entries := { slots := fun _ => zeroEntry, count := 0, within := Nat.zero_le _ }
  lastError := ""

def hostsCount (hosts : HostList) : Int :=
  hosts.entries.count

/-- `hosts_at`, with `none` for `NULL`. -/
def hostsAt (index : Int) (hosts : HostList) : Option HostEntry :=
  if index < 0 ∨ index ≥ hosts.entries.count then none
  else some (hosts.entries.slots index.toNat)

/-! ## Reading -/

section Reading

variable [Libc]

/-- The entry that a line of the file describes. -/
def readEntry (line : List UInt8) : Option HostEntry :=
  match split 7 line with
  | name :: address :: port :: user :: password :: profile :: _ =>
      let entry : HostEntry :=
        { name := copyField _ name
          address := copyField _ address
          port := atoi port
          user := copyField _ user
          password := copyField _ password
          profile := atoi profile }
      if hostsProblem (some entry) ≠ none then none else some entry
  | _ => none

def takeLine (entries : Table HostEntry hostsMax) (line : List UInt8) :
    Table HostEntry hostsMax :=
  if line = [] ∨ line.head? = some 0x23 then entries
  else if room : entries.count < hostsMax then
    match readEntry line with
    | none => entries
    | some entry => entries.push entry room
  else entries

def parse (text : List UInt8) (entries : Table HostEntry hostsMax) :
    Table HostEntry hostsMax :=
  (lines text).foldl takeLine entries

def legacyLine (entry : HostEntry) (line : List UInt8) : HostEntry :=
  match cutAt 0x3d line with
  | none => entry
  | some (key, value) =>
      if line.head? = some 0x23 then entry
      else
        let key := key.dropWhile (· = 0x20)
        let value := value.dropWhile (· = 0x20)
        if key = ascii "host" then { entry with address := copyField _ value }
        else if key = ascii "port" then { entry with port := atoi value }
        else if key = ascii "user" then { entry with user := copyField _ value }
        else if key = ascii "password" then
          { entry with password := copyField _ value }
        else if key = ascii "profile" then { entry with profile := atoi value }
        else entry

def legacyEntry (text : List UInt8) : HostEntry :=
  let entry := (lines text).foldl legacyLine hostsBlank
  let entry := if entry.port ≤ 0 then { entry with port := 22 } else entry
  { entry with name := copyField _ entry.address.text }

end Reading

/-! ## Saving -/

/-- The line of an entry, without its end. -/
def HostEntry.line (entry : HostEntry) : List UInt8 :=
  entry.name.text ++ 0x09 :: (entry.address.text ++ 0x09 ::
    (intText entry.port ++ 0x09 :: (entry.user.text ++ 0x09 ::
      (entry.password.text ++ 0x09 :: intText entry.profile))))

/-- `sizeof(text)` in `save`. -/
def textSize : Nat :=
  hostsMax *
    (hostNameLen + hostAddressLen + hostUserLen + hostPasswordLen + 32)

def save (hosts : HostList) : Io (Int × HostList) :=
  match gather textSize
      (hosts.entries.toList.map fun entry => entry.line ++ [0x0a]) with
  | none => pure (-1, hosts.fail "the host list did not fit")
  | some text => do
      let result ← cardfileWrite hostsPath text
      if result.value ≠ 0 then
        pure (result.value, hosts.fail (cardfileError result))
      else pure (result.value, hosts)

/-! ## Loading -/

section Loading

variable [Libc]

def importLegacy (hosts : HostList) (room : hosts.entries.count < hostsMax) :
    Io HostList := do
  let read ← cardfileRead legacyPath (fileMax - 1)
  match read.value with
  | .whole content =>
      let entry := legacyEntry (cString content).text
      if hostsProblem (some entry) = none then
        let (_, saved) ← save
          { hosts with entries := hosts.entries.push entry room }
        pure saved
      else pure hosts
  | _ => pure hosts

def hostsLoad (hosts : HostList) : Io (Int × HostList) := do
  let empty : HostList := { entries := hosts.entries.clear, lastError := "" }
  let read ← cardfileRead hostsPath (fileMax - 1)
  match read.value with
  | .unreadable => pure (-1, empty.fail (cardfileError read))
  | .missing =>
      let imported ← importLegacy empty (Nat.zero_lt_succ _)
      pure (0, imported)
  | .whole content =>
      pure (0, { empty with
        entries := parse (cString content).text empty.entries })

end Loading

/-! ## Changing the list -/

def hostsAdd (entry : Option HostEntry) (hosts : HostList) : Io (Int × HostList) :=
  if room : hosts.entries.count < hostsMax then
    match hostsProblem entry, entry with
    | none, some entry => do
        let added := { hosts with entries := hosts.entries.push entry room }
        let (result, saved) ← save added
        if result ≠ 0 then pure (-1, saved)
        else pure (saved.entries.count - 1, saved)
    | problem, _ => pure (-1, hosts.fail (problem.getD ""))
  else pure (-1, hosts.fail "there is no room for another host")

def hostsReplace (index : Int) (entry : Option HostEntry) (hosts : HostList) :
    Io (Int × HostList) :=
  if index < 0 ∨ index ≥ hosts.entries.count then
    pure (-1, hosts.fail "that host is no longer in the list")
  else
    match hostsProblem entry, entry with
    | none, some entry =>
        save { hosts with entries := hosts.entries.store index.toNat entry }
    | problem, _ => pure (-1, hosts.fail (problem.getD ""))

def hostsRemove (index : Int) (hosts : HostList) : Io (Int × HostList) :=
  if index < 0 ∨ index ≥ hosts.entries.count then
    pure (-1, hosts.fail "that host is no longer in the list")
  else
    let entry := hosts.entries.slots index.toNat
    let wiped := hosts.entries.store index.toNat
      { entry with password := emptyField _ }
    save { hosts with entries := wiped.removeAt index.toNat zeroEntry }

end Pspssh.Hosts
