import Pspssh.Core.Library

namespace Pspssh.Core

open Pspssh.Data Pspssh.Session
open Pspssh.Data.Process (iterate)

/-! A session from its opening to its end, in terms of what it calls. -/

/-- What a session is given. The callbacks are processes of its caller, and of
the two for the transport only whether they are there. -/
structure PspsshConfig {Op : Type} (Result : Op → Type) where
  user : Option (List UInt8)
  password : Option (List UInt8)
  recv : Bool
  send : Bool
  onHostkey : Option (List UInt8 → List UInt8 → Process Result Int)
  onWait : Option (Process Result Int32)
  handshakeTimeoutMs : Int32
  columns : Int32
  rows : Int32

section Core

variable {Op : Type} {Result : Op → Type}
  (library : (call : LibraryCall) → Process Result call.Result)

def pspsshInit : Process Result Int := do
  let started ← library .init
  pure (if started then 0 else -1)

def pspsshCleanup : Process Result Unit :=
  library .cleanup

/-- `pspssh_close`, given which of the two pointers are set. -/
def pspsshClose (ctx ssh : Bool) : Process Result Unit := do
  if ssh then
    library .shutdown
    library .free
  if ctx then
    library .ctxFree
  library .freeSession

/-- What is behind `failed:`. -/
def failed (ctx ssh : Bool) (session : PspsshSession) :
    Process Result (Except (List UInt8) PspsshSession) := do
  pspsshClose library ctx ssh
  pure (.error (reason session))

/-! ## The two questions of a handshake -/

def hostkeyCheck (onHostkey : Option (List UInt8 → List UInt8 → Process Result Int))
    (key : List UInt8) (sha : Sha256) (encoded fingerprint : Buffer)
    (session : PspsshSession) : Process Result (KeyAnswer × PspsshSession) :=
  match onHostkey with
  | none =>
      pure (refuse session
        (ascii "no host key policy was supplied, so the key was refused"))
  | some onHostkey =>
      let (made, fingerprint) :=
        fingerprintOf sha key encoded fingerprint fingerprintLen
      if made ≠ 0 then
        pure (refuse session
          (ascii "the server's host key could not be fingerprinted"))
      else do
        let answer ← onHostkey (cString (fingerprint.take fingerprintLen)).text key
        if answer = 0 then
          pure (refuse session (ascii "the host key was refused"))
        else pure (.success, session)

def userAuth (password : Option (List UInt8)) : AuthType → AuthAnswer
  | .password =>
      match password with
      | none => .failure
      | some text => .password text
  | .other => .invalidType

variable (config : PspsshConfig Result)

/-- `wolfSSH_connect`, with the callbacks it makes. -/
def connect (session : PspsshSession) : Process Result (Bool × PspsshSession) := do
  let first ← library .connect
  iterate (fun (turn, session) =>
    match turn with
    | .asksKey key sha encoded fingerprint => do
        let (answer, session) ←
          hostkeyCheck config.onHostkey key sha encoded fingerprint session
        let turn ← library (.answerKey answer)
        pure (.inl (turn, session))
    | .asksAuth kind => do
        let turn ← library (.answerAuth (userAuth config.password kind))
        pure (.inl (turn, session))
    | .returns success => pure (.inr (success, session))) (first, session)

/-- `wolfSSH_get_error` is neither of the two errors that mean to wait. -/
def isFinal : Process Result Bool := do
  let error ← library .getError
  if error ≠ .wantRead then
    let error ← library .getError
    pure (error ≠ .wantWrite)
  else pure false

/-- The loop of `pspssh_open`: whether it connected, and what it waited. -/
def handshake (onWait : Process Result Int32) (budget : Int32)
    (session : PspsshSession) : Process Result (Bool × Int × PspsshSession) :=
  iterate (fun (waited, session) => do
    let (success, session) ← connect library config session
    if success then pure (.inr (true, waited, session))
    else if ← isFinal library then pure (.inr (false, waited, session))
    else
      let slept ← onWait
      let waited := waited + waitCost slept
      if waited < budget.toInt then pure (.inl (waited, session))
      else pure (.inr (false, waited, session))) ((0 : Int), session)

/-! ## Opening -/

def pinned : AlgoList → List UInt8
  | .kex => ascii "curve25519-sha256"
  | .keyAccepted => ascii "ssh-ed25519"
  | .key => ascii "ssh-ed25519"
  | .cipher => ascii "aes256-ctr"
  | .mac => ascii "hmac-sha2-256"

/-- The calls of `wolfSSH_CTX_SetAlgoList...` up to the first that fails. -/
def setAlgoLists : List AlgoList → Process Result Bool
  | [] => pure true
  | list :: rest => do
      if ← library (.setAlgoList list (pinned list)) then setAlgoLists rest
      else pure false

def newFailure (session : PspsshSession) : Process Result PspsshSession := do
  let rng ← library .initRng
  if rng ≠ 0 then
    pure (setError session
      (ascii "no usable random source: wc_InitRng gave " ++ intText rng))
  else
    library .freeRng
    pure (setError session
      (ascii "wolfSSH session could not be created" ++
        ascii " (the random source is fine, so this is memory)"))

def afterHandshake (budget : Int32) (success : Bool) (waited : Int)
    (session : PspsshSession) :
    Process Result (Except (List UInt8) PspsshSession) := do
  if ¬ success ∧ budget.toInt ≤ waited then
    failed library true true (setError session (timeoutText budget))
  else if ¬ success then
    if ¬ session.hostkeyRefused then
      let error ← library .getError
      let name ← library (.errorToName error)
      failed library true true (setError session name)
    else failed library true true session
  else
    if 0 < config.columns ∧ 0 < config.rows then
      let _ ← library (.changeTerminalSize config.columns config.rows)
    pure (.ok session)

/-- `pspssh_open` once there is a connection. -/
def openConnection (user : List UInt8) (onWait : Process Result Int32)
    (session : PspsshSession) :
    Process Result (Except (List UInt8) PspsshSession) := do
  library (.setCallbackCtx .ioRecv)
  library (.setCallbackCtx .ioSend)
  library (.setCallbackCtx .userAuth)
  library (.setCallbackCtx .publicKeyCheck)
  if ¬ (← library (.setUsername user)) then
    failed library true true
      (setError session (ascii "the user name was not accepted"))
  else if ¬ (← library .setChannelType) then
    failed library true true
      (setError session (ascii "a pty session could not be requested"))
  else
    let budget := handshakeBudget config.handshakeTimeoutMs
    let (success, waited, session) ← handshake library config onWait budget session
    afterHandshake library config budget success waited session

/-- `pspssh_open` once there is a context. -/
def openContext (user : List UInt8) (onWait : Process Result Int32)
    (session : PspsshSession) :
    Process Result (Except (List UInt8) PspsshSession) := do
  library (.setCallback .ioRecv)
  library (.setCallback .ioSend)
  library (.setCallback .userAuth)
  library (.setCallback .publicKeyCheck)
  if ¬ (← setAlgoLists library [.kex, .keyAccepted, .key, .cipher, .mac]) then
    failed library true false
      (setError session
        (ascii "the modern algorithm list was not accepted by wolfSSH"))
  else if ¬ (← library .new) then
    failed library true false (← newFailure library session)
  else openConnection library config user onWait session

/-- `pspssh_open`: the session, or the reason why there is none. -/
def pspsshOpen : Process Result (Except (List UInt8) PspsshSession) := do
  match config.user, config.onWait with
  | some user, some onWait =>
      if ¬ config.recv ∨ ¬ config.send then
        pure (.error (ascii "a user, both transport callbacks and a wait callback" ++
          ascii " are required"))
      else if ¬ (← library .calloc) then pure (.error (ascii "out of memory"))
      else if ¬ (← library .ctxNew) then
        failed library false false
          (setError .fresh (ascii "wolfSSH context could not be created"))
      else openContext library config user onWait .fresh
  | _, _ =>
      pure (.error (ascii "a user, both transport callbacks and a wait callback" ++
        ascii " are required"))

/-! ## Reading and writing -/

/-- `pspssh_read`: what it returns, what it has put into the buffer, and the
session. -/
def pspsshRead (size : Nat) (session : PspsshSession) :
    Process Result (Int × List UInt8 × PspsshSession) := do
  let (n, data) ← library (.streamRead size)
  if n > 0 then pure (n, data, session)
  else if n = 0 then pure (-1, data, session)
  else
    match ← library .getError with
    | .wantRead | .wantWrite => pure (0, data, session)
    | .eof => pure (-1, data, setError session (ascii "the server closed the session"))
    | .windowFull | .other _ =>
        let error ← library .getError
        let name ← library (.errorToName error)
        pure (-1, data, setError session name)

def pspsshWrite (data : List UInt8) (session : PspsshSession) :
    Process Result (Int × PspsshSession) := do
  let n ← library (.streamSend data)
  if 0 ≤ n then pure (n, session)
  else
    match ← library .getError with
    | .wantRead | .wantWrite => pure (0, session)
    | .windowFull =>
        library .worker
        pure (0, session)
    | .eof | .other _ =>
        let error ← library .getError
        let name ← library (.errorToName error)
        pure (-1, setError session name)

def pspsshError (session : PspsshSession) : List UInt8 :=
  if session.error.text = [] then ascii "no error" else session.error.text

end Core

end Pspssh.Core
