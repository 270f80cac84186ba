import Pspssh.App.Connect
import Pspssh.App.Editor

namespace Pspssh.App

open Pspssh.Data Pspssh.Card Pspssh.Core Pspssh.Hosts Pspssh.Known Pspssh.Menu
open Pspssh.Pad Pspssh.Screen
open Pspssh.Data.Process (iterate)

/-! The whole of the application: the list of servers, and a session for each
that is chosen. -/

def buttonMask : Button → UInt32
  | .up => ctrlUp
  | .down => ctrlDown
  | .left => ctrlLeft
  | .right => ctrlRight
  | .cross => ctrlCross
  | .circle => ctrlCircle
  | .square => ctrlSquare
  | .triangle => ctrlTriangle
  | .select => ctrlSelect
  | .start => ctrlStart

variable [Libc] (build : Build)

def uiCall : (request : UiCall) → Psp request.Result
  | .hostsCount => do
      let statics ← call .statics
      pure (hostsCount statics.hosts)
  | .hostsAt index => do
      let statics ← call .statics
      pure (hostsAt index statics.hosts)
  | .editForm index existing => editForm build index existing
  | .hostsRemove index => do
      let statics ← call .statics
      let (result, hosts) ← onCard (hostsRemove index statics.hosts)
      modify fun statics => { statics with hosts }
      pure result
  | .hostsError => do
      let statics ← call .statics
      pure (hostsError statics.hosts)
  | .knownhostsLookup address port => do
      let statics ← call .statics
      pure ((knownhostsLookup (some (cString address)) port statics.known).map
        CString.text)
  | .knownhostsForget address port => do
      let statics ← call .statics
      let (result, known) ←
        onCard (knownhostsForget (some (cString address)) port statics.known)
      modify fun statics => { statics with known }
      pure result
  | .knownhostsError => do
      let statics ← call .statics
      pure (ascii (knownhostsError statics.known))
  | .draw drawings => call (.draw drawings)
  | .padExitRequested => call .padExitRequested
  | .padPressed => do
      let pressed ← call .padPressed
      pure fun button => pressed &&& buttonMask button ≠ 0
  | .uiConfirm question detail => call (.uiConfirm question detail)
  | .uiMessage title detail colour => call (.uiMessage title (some detail) colour)
  | .dereferenceNull => pure ()

def uiHostList : Psp Int :=
  iterate (fun view => Process.via (uiCall build) (hostListFrame build view)) ⟨0, 0⟩

def hostsForgetPasswords (hosts : HostList) : HostList :=
  { hosts with
    entries :=
      { hosts.entries with
        slots := forUp 0 hostsMax (fun i slots =>
          Function.update slots i.toNat
            { slots i.toNat with password := emptyField _ }) hosts.entries.slots } }

def loadKnown : Psp Unit := do
  let statics ← call .statics
  let (result, known) ← onCard (knownhostsLoad statics.known)
  modify fun statics => { statics with known }
  if result ≠ 0 then
    call (.uiMessage (ascii "the remembered host keys could not be read")
      (some (ascii (knownhostsError known))) gfxRed)

def loadHosts : Psp Unit := do
  let statics ← call .statics
  let (result, hosts) ← onCard (hostsLoad statics.hosts)
  modify fun statics => { statics with hosts }
  if result ≠ 0 then
    call (.uiMessage (ascii "the saved hosts could not be read")
      (some (hostsError hosts)) gfxRed)

/-- One pass of the loop of `main`. -/
def mainPass (typed : Buffer) : Psp (Unit ⊕ Unit) := do
  let chosen ← uiHostList build
  if chosen < 0 then pure (.inr ())
  else
    let statics ← call .statics
    let _ ← runSession build typed (hostsAt chosen statics.hosts)
    pure (.inl ())

/-- `main` once the libraries are started. -/
def runApplication (typed : Buffer) : Psp Unit := do
  loadKnown
  loadHosts
  iterate (fun _ => mainPass build typed) ()
  modify fun statics => { statics with hosts := hostsForgetPasswords statics.hosts }
  pspsshCleanup library
  call .gfxShutdown
  call .exitGame

def main (typed : Buffer) : Psp Unit := do
  if (← call .gfxInit) ≠ 0 then call .exitGame
  else
    call .consoleReset
    call .padInit
    call .setupCallbacks
    if (← pspsshInit library) ≠ 0 then
      call (.uiMessage (ascii "the ssh library would not start") none gfxRed)
      call .gfxShutdown
      call .exitGame
    else runApplication build typed

end Pspssh.App
