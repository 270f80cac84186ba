import Pspssh.Data.Process
import Pspssh.Data.Sha256
import Pspssh.Session.Handshake
import Pspssh.Session.Send

namespace Pspssh.Core

open Pspssh.Data Pspssh.Session

/-! The SSH library that a session is made of: its calls, and what it keeps to. It
calls back during `wolfSSH_connect` only: another exchange of keys, which it may make
inside `wolfSSH_stream_read` or `wolfSSH_worker`, is left out. -/

inductive Callback where
  | ioRecv | ioSend | userAuth | publicKeyCheck

inductive AlgoList where
  | kex | keyAccepted | key | cipher | mac
  deriving DecidableEq

inductive AuthType where
  | password | other

/-- Where `wolfSSH_connect` has got to: it asks through one of the callbacks, or
it returns. -/
inductive Connecting where
  | asksKey (key : List UInt8) (sha : Sha256) (encoded fingerprint : Buffer)
  | asksAuth (kind : AuthType)
  | returns (success : Bool)

inductive AuthAnswer where
  | password (text : List UInt8)
  | failure
  | invalidType

inductive LibraryCall where
  | init
  | cleanup
  | calloc
  | ctxNew
  | setCallback (callback : Callback)
  | setAlgoList (list : AlgoList) (names : List UInt8)
  | new
  | initRng
  | freeRng
  | setCallbackCtx (callback : Callback)
  | setUsername (user : List UInt8)
  | setChannelType
  | connect
  -- the two callbacks returning
  | answerKey (answer : KeyAnswer)
  | answerAuth (answer : AuthAnswer)
  | getError
  | errorToName (error : SshError)
  | changeTerminalSize (columns rows : Int32)
  | streamRead (size : Nat)
  | streamSend (data : List UInt8)
  | worker
  | shutdown
  | free
  | ctxFree
  | freeSession

/-- What each of them gives back: whether it worked, where that is all. -/
abbrev LibraryCall.Result : LibraryCall → Type
  | .init => Bool
  | .cleanup => Unit
  | .calloc => Bool
  | .ctxNew => Bool
  | .setCallback _ => Unit
  | .setAlgoList _ _ => Bool
  | .new => Bool
  | .initRng => Int32
  | .freeRng => Unit
  | .setCallbackCtx _ => Unit
  | .setUsername _ => Bool
  | .setChannelType => Bool
  | .connect => Connecting
  | .answerKey _ => Connecting
  | .answerAuth _ => Connecting
  | .getError => SshError
  | .errorToName _ => List UInt8
  | .changeTerminalSize _ _ => Bool
  | .streamRead _ => Int × List UInt8
  | .streamSend _ => Int
  | .worker => Unit
  | .shutdown => Unit
  | .free => Unit
  | .ctxFree => Unit
  | .freeSession => Unit

/-- The objects that there are: the session's block of memory, the context with
its lists, the random source that is tried out, and the connection with its user
name, the key that the server has offered last, the one that was accepted, and
whether one was refused. -/
structure Library where
  block : Bool
  ctx : Bool
  ssh : Bool
  probe : Bool
  lists : AlgoList → Option (List UInt8)
  user : Option (List UInt8)
  offered : Option (List UInt8)
  accepted : Option (List UInt8)
  refused : Bool
  connected : Bool

def Library.empty : Library where
  block := false
  ctx := false
  ssh := false
  probe := false
  lists := fun _ => none
  user := none
  offered := none
  accepted := none
  refused := false
  connected := false

/-- What `ssh-keygen -lf` prints for a key. -/
def keyFingerprint (key : List UInt8) : List UInt8 :=
  ascii "SHA256:" ++ Base64.encode (Pspssh.Data.Sha256.digest key).toList

def Library.Trusted (library : Library) : Prop :=
  library.accepted ≠ none ∧ library.refused = false

/-- `wolfSSH_connect` goes on: without a key that is trusted it asks for no
password and does not succeed. Its SHA-256 is that of the standard. -/
inductive Library.GoesOn (library : Library) : Connecting → Library → Prop where
  | key {key : List UInt8} {sha : Sha256} {encoded fingerprint : Buffer}
      (digest : (sha.final key).2 = Pspssh.Data.Sha256.digest key) :
      GoesOn library (.asksKey key sha encoded fingerprint)
        { library with offered := some key }
  | auth {kind : AuthType} (trusted : library.Trusted) :
      GoesOn library (.asksAuth kind) library
  | succeeds (trusted : library.Trusted) :
      GoesOn library (.returns true) { library with connected := true }
  | fails : GoesOn library (.returns false) library

def Library.answered (library : Library) : KeyAnswer → Library
  | .success => { library with accepted := library.offered }
  | .rejected => { library with refused := true }

/-- What the library keeps to. -/
def Library.Does : World LibraryCall.Result Library := fun library call result after =>
  match call, result with
  | .calloc, made => after = { library with block := made }
  | .ctxNew, made => after = { library with ctx := made, lists := fun _ => none }
  | .setAlgoList list names, set =>
      after =
        if set then
          { library with lists := Function.update library.lists list (some names) }
        else library
  | .new, made =>
      after =
        { library with
          ssh := made
          user := none
          offered := none
          accepted := none
          refused := false
          connected := false }
  | .initRng, rng => after = { library with probe := decide (rng = 0) }
  | .freeRng, _ => after = { library with probe := false }
  | .setUsername user, set =>
      after = if set then { library with user := some user } else library
  | .connect, turn => library.GoesOn turn after
  | .answerKey answer, turn => (library.answered answer).GoesOn turn after
  | .answerAuth _, turn => library.GoesOn turn after
  | .streamRead size, (n, data) =>
      data.length = n.toNat ∧ n ≤ size ∧ after = library
  | .streamSend data, n => n ≤ data.length ∧ after = library
  | .free, _ => after = { library with ssh := false, connected := false }
  | .ctxFree, _ => after = { library with ctx := false }
  | .freeSession, _ => after = { library with block := false }
  | _, _ => after = library

end Pspssh.Core
