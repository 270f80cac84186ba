import Pspssh.Data.Process
import Pspssh.Keyboard.Prompt

namespace Pspssh.Net

open Pspssh.Data Pspssh.Keyboard
open Pspssh.Data.Process (ask iterate)

/-! Joining one of the connections that are saved on the console. -/

inductive NetModule where
  | common | inet

inductive RadioCall where
  | exitRequested
  | consolePrintf (text : List UInt8)
  | delay (micros : Nat)
  | loadNetModule (module : NetModule)
  | inetInit
  | checkNetParam (id : Nat)
  | getNetParamName (id : Nat)
  | apctlConnect (id : Nat)
  | apctlGetState
  | apctlGetInfo
  | apctlDisconnect

/-- What each of them gives back: an error or 0, and what is in the variable that
it was given by then. -/
abbrev RadioCall.Result : RadioCall → Type
  | .exitRequested => Bool
  | .consolePrintf _ => Unit
  | .delay _ => Unit
  | .loadNetModule _ => Unit
  | .inetInit => Int32
  | .checkNetParam _ => Int32
  | .getNetParamName _ => Int32 × List UInt8
  | .apctlConnect _ => Int32
  | .apctlGetState => Int32 × Int
  | .apctlGetInfo => Int32 × List UInt8
  | .apctlDisconnect => Unit

abbrev Radio (α : Type) := Process RadioCall.Result α

def call (op : RadioCall) : Radio op.Result :=
  ask op

def print (text : List UInt8) : Radio Unit :=
  call (.consolePrintf text)

def connectionNameLen : Nat := 64

instance : NeZero connectionNameLen := ⟨by decide⟩

structure SavedConnection where
  id : Nat
  name : Field connectionNameLen

def connectionName (id : Nat) (found : Int32 × List UInt8) : Field connectionNameLen :=
  let (err, text) := found
  let name := if err = 0 then copyField connectionNameLen text else emptyField _
  if name.text = [] then
    copyField _ (ascii "connection " ++ intText (Int32.ofNat id))
  else name

def listProfiles (max : Nat) : Radio (List SavedConnection) :=
  iterate (fun (id, found) => do
    if id ≤ 10 ∧ found.length < max then
      if (← call (.checkNetParam id)) ≠ 0 then pure (.inl (id + 1, found))
      else
        let named ← call (.getNetParamName id)
        pure (.inl (id + 1, found ++ [⟨id, connectionName id named⟩]))
    else pure (.inr found)) (1, [])

def stageName (state : Int) : String :=
  if state = 0 then "disconnected"
  else if state = 1 then "scanning"
  else if state = 2 then "joining"
  else if state = 3 then "asking for an address"
  else if state = 4 then "connected"
  else if state = 5 then "authenticating"
  else if state = 6 then "exchanging keys"
  else "working"

structure Attempt where
  state : Int
  highest : Int
  tries : Nat

/-- One round of that loop. -/
def poll (attempt : Attempt) : Radio (Attempt ⊕ Attempt) := do
  if attempt.state = 4 then pure (.inr attempt)
  else
    let tries := attempt.tries + 1
    if ¬ attempt.tries < 600 then pure (.inr { attempt with tries })
    else if ← call .exitRequested then pure (.inr { attempt with tries })
    else
      let (err, state) ← call .apctlGetState
      if err < 0 then pure (.inr { attempt with state, tries })
      else
        if state ≠ attempt.state ∧ state ≠ 0 then
          print (ascii " " ++ ascii (stageName state))
        let highest := if state > attempt.highest then state else attempt.highest
        call (.delay 50000)
        pure (.inl { state, highest, tries })

def explainFailure (highest : Int) : Radio Unit := do
  if highest ≥ 2 then
    print (ascii ", turned away\n")
    print (ascii "    it found the network and was refused. usually the\n")
    print (ascii "    security type: a psp does wep and wpa-tkip, and\n")
    print (ascii "    wpa2-aes only with the wpa2psp plugin loaded.\n")
  else if highest = 1 then
    print (ascii ", not found\n")
    print (ascii "    it scanned and never saw that network. check the\n")
    print (ascii "    ssid, and that it is on 2.4 ghz.\n")
  else
    print (ascii " nothing happened\n")
    print (ascii "    the radio never started. is the wlan switch on?\n")

def tryProfile (profile : SavedConnection) : Radio Bool := do
  print (ascii "  " ++ profile.name.text ++ ascii "\n")
  let err ← call (.apctlConnect profile.id)
  if err ≠ 0 then
    print (ascii "    would not start (0x" ++ hexText err ++ ascii ")\n")
    pure false
  else
    print (ascii "   ")
    let attempt ← iterate poll ⟨0, 0, 0⟩
    if attempt.state = 4 then
      let (err, ip) ← call .apctlGetInfo
      if err = 0 then print (ascii ", address " ++ (cString ip).text ++ ascii "\n")
      else print (ascii ", connected\n")
      pure true
    else
      explainFailure attempt.highest
      call .apctlDisconnect
      call (.delay 500000)
      pure false

structure NetState where
  stackStarted : Bool
  connected : Bool

def NetState.fresh : NetState := ⟨false, false⟩

/-- The connection that the server asks for, and its place: the last one with its
number. -/
def chosenOf (preferred : Int32) (available : List SavedConnection) :
    Option (SavedConnection × Nat) :=
  (available.zipIdx.filter fun (profile, _) => preferred.toInt = profile.id).getLast?

def explainChoice (preferred : Int32) (chosen : Option (SavedConnection × Nat))
    (count : Nat) : Radio Unit := do
  if preferred > 0 ∧ chosen.isNone then
    print (ascii "  this host asks for wi-fi profile " ++ intText preferred ++
      ascii ", which is not\n")
    print (ascii "  saved on this console any more. trying the " ++
      intText (Int32.ofNat count) ++ ascii " that\n")
    print (ascii "  " ++ ascii (if count = 1 then "is" else "are") ++ ascii ".\n\n")
  else if preferred = 0 then
    print (ascii "  no wi-fi profile set for this host, so each saved\n")
    print (ascii "  connection is tried in turn.\n\n")

/-- The loop over all connections but the chosen one. -/
def tryOthers (preferred : Int32) (chosen : Option Nat) (net : NetState) :
    List (SavedConnection × Nat) → Radio (Bool × NetState)
  | [] => pure (false, net)
  | (profile, i) :: rest => do
      if ← call .exitRequested then pure (false, net)
      else if chosen = some i then tryOthers preferred chosen net rest
      else if ← tryProfile profile then
        if preferred.toInt ≠ profile.id then
          print (ascii "\n  set this host's wi-fi profile to " ++
            intText (Int32.ofNat profile.id) ++ ascii " to come\n")
          print (ascii "  straight here next time.\n")
        pure (true, { net with connected := true })
      else tryOthers preferred chosen net rest

/-- `net_start` once there is a network stack. -/
def joinSaved (preferred : Int32) (net : NetState) : Radio (Bool × NetState) := do
  let available ← listProfiles 10
  if available = [] then
    print (ascii "  no saved wi-fi connections.\n")
    print (utf8 "  create one under Settings > Network Settings first —\n")
    print (ascii "  this picks a saved connection, it does not join a\n")
    print (ascii "  network by itself.\n")
    pure (false, net)
  else
    let chosen := chosenOf preferred available
    explainChoice preferred chosen available.length
    match chosen with
    | none => tryOthers preferred none net available.zipIdx
    | some (profile, place) =>
        if ← tryProfile profile then pure (true, { net with connected := true })
        else tryOthers preferred (some place) net available.zipIdx

def netStart (preferred : Int32) (net : NetState) : Radio (Bool × NetState) := do
  if net.connected then pure (true, net)
  else if net.stackStarted then joinSaved preferred net
  else
    call (.loadNetModule .common)
    call (.loadNetModule .inet)
    let err ← call .inetInit
    if err ≠ 0 then
      print (ascii "  the network stack would not start (0x" ++ hexText err ++
        ascii ")\n")
      pure (false, net)
    else joinSaved preferred { net with stackStarted := true }

end Pspssh.Net
