import Pspssh.App.Terminal

namespace Pspssh.App

open Pspssh.Data Pspssh.Core Pspssh.Hosts Pspssh.Keyboard Pspssh.Known Pspssh.Menu
open Pspssh.Screen Pspssh.Session

/-! From the list to a shell: the password, the network, the server's key. -/

def yieldBriefly : Psp Int32 := do
  call (.delay 1000)
  pure 1

def checkHostkey (host : HostEntry) (fingerprint : List UInt8) : Psp Int := do
  let statics ← call .statics
  match knownhostsLookup (some host.address.toCString) host.port statics.known with
  | some known =>
      if known.text = fingerprint then
        call (.consolePrintf
          (ascii "  host key " ++ fingerprint ++ ascii " (known)\n"))
        pure 1
      else
        call (.consolePrintf (ascii "\n  THE HOST KEY CHANGED\n"))
        call (.consolePrintf (ascii "  expected " ++ known.text ++ ascii "\n"))
        call (.consolePrintf (ascii "  offered  " ++ fingerprint ++ ascii "\n"))
        call (.uiMessage
          (ascii "this is not the server you connected to before")
          (some (utf8 "if you rebuilt it, forget its key from the list — SELECT"))
          gfxRed)
        pure 0
  | none =>
      call (.consolePrintf (ascii "  host key " ++ fingerprint ++ ascii "\n"))
      if ¬ (← call (.uiConfirm (firstSight host) fingerprint)) then pure 0
      else
        let (result, known) ← onCard (knownhostsRemember
          (some host.address.toCString) host.port (some (cString fingerprint))
          statics.known)
        modify fun statics => { statics with known }
        if result ≠ 0 then
          call (.consolePrintf (ascii "  (it could not be remembered: " ++
            ascii (knownhostsError known) ++ ascii ")\n"))
        pure 1

def promptLen : Nat := hostUserLen + hostAddressLen + 16

instance : NeZero promptLen := ⟨by decide⟩

def passwordPrompt (entry : HostEntry) : List UInt8 :=
  (copyField promptLen
    (ascii "password for " ++ entry.user.text ++ ascii "@" ++ entry.address.text)).text

/-- `ui_ask_password`: what it returns, and what is in the array by then. -/
def uiAskPassword (entry : HostEntry) : Psp (Bool × Field hostPasswordLen) := do
  call .waitForRelease
  let (result, text) ←
    call (.oskPrompt (passwordPrompt entry) [] hostPasswordLen .text none)
  if result ≠ .entered then
    let problem ← call .oskFailure
    call (.uiMessage (ascii "the keyboard would not open") (some problem) gfxRed)
    pure (false, entry.password)
  else pure (text ≠ [], copyField hostPasswordLen text)

def sessionConfig (host : HostEntry) : PspsshConfig AppCall.Result where
  user := some host.user.text
  password := some host.password.text
  recv := true
  send := true
  onHostkey := some fun fingerprint _ => checkHostkey host fingerprint
  onWait := some yieldBriefly
  handshakeTimeoutMs := 30000
  columns := Int32.ofInt gfxCols
  rows := Int32.ofInt termRows

variable (build : Build)

/-- What is printed before the network is started. -/
def announce (host : HostEntry) : Psp Unit := do
  call .consoleReset
  call (.consolePrintf
    (ascii "pspssh v" ++ build.version ++ ascii "  -  " ++ build.author ++ ascii "\n"))
  call (.consolePrintf (ascii "curve25519-sha256, ssh-ed25519, aes256-ctr\n"))
  call (.consolePrintf
    (ascii "------------------------------------------------------------\n\n"))
  call (.consolePrintf
    (ascii "  " ++ host.user.text ++ ascii "@" ++ host.address.text ++ ascii ":" ++
      intText host.port ++ ascii "\n\n"))

/-- `run_session` once there is a socket. -/
def runConnected (typed : Buffer) (host : HostEntry) (fd : Int) : Psp HostEntry := do
  call (.consolePrintf (ascii "  connected. key exchange may take a moment...\n"))
  match ← pspsshOpen library (sessionConfig host) with
  | .error problem =>
      call (.close fd)
      let host := Hosts.zeroEntry
      call (.uiMessage (ascii "ssh failed") (some problem) gfxRed)
      pure host
  | .ok session =>
      modify fun statics => { statics with session }
      let host := { host with password := emptyField _ }
      let _ ← runTerminal build host typed
      pspsshClose library true true
      call (.close fd)
      pure Hosts.zeroEntry

/-- `run_session` once there is a password. -/
def runDialled (typed : Buffer) (host : HostEntry) : Psp HostEntry := do
  announce build host
  if ¬ (← call (.netStart host.profile)) then
    let host := Hosts.zeroEntry
    call (.uiMessage (ascii "the network would not come up")
      (some (ascii "the log behind this says how far it got")) gfxRed)
    pure host
  else
    let fd ← call (.netConnect host.address.text host.port)
    if fd < 0 then
      let host := Hosts.zeroEntry
      call (.uiMessage (ascii "the server could not be reached")
        (some (ascii "the log behind this says why")) gfxRed)
      pure host
    else runConnected build typed host fd

/-- `run_session`, with what the array of `run_terminal` holds before: its copy
of the host when it returns, if it has made one. -/
def runSession (typed : Buffer) (chosen : Option HostEntry) :
    Psp (Option HostEntry) := do
  match chosen with
  | none => pure none
  | some host =>
      if host.password.text = [] then
        let (given, password) ← uiAskPassword host
        let host := { host with password }
        if ¬ given then pure (some Hosts.zeroEntry)
        else
          let left ← runDialled build typed host
          pure (some left)
      else
        let left ← runDialled build typed host
        pure (some left)

end Pspssh.App
