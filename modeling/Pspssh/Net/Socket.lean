import Pspssh.Data.Process
import Pspssh.Data.Text

namespace Pspssh.Net.Socket

open Pspssh.Data
open Pspssh.Data.Process (ask)

/-! Resolving a name, and a socket for the session. -/

inductive SocketCall where
  | consolePrintf (text : List UInt8)
  | errno
  | inetAton (name : List UInt8)
  | inetNtoa (address : UInt32)
  | resolverCreate
  | resolverStartNtoA (rid : Int) (name : List UInt8) (seconds tries : Nat)
  | resolverDelete (rid : Int)
  | socket
  -- with `sin_port` as a number, before `htons`
  | connect (fd : Int) (address : UInt32) (port : UInt16)
  | close (fd : Int)
  | select (fd : Int) (seconds micros : Nat)
  | recv (fd : Int) (len : Nat)
  | send (fd : Int) (data : List UInt8)

/-- What each of them gives back, and what it has put in the place that it was
given. -/
abbrev SocketCall.Result : SocketCall → Type
  | .consolePrintf _ => Unit
  | .errno => Int32
  | .inetAton _ => Option UInt32
  | .inetNtoa _ => List UInt8
  | .resolverCreate => Int32 × Int
  | .resolverStartNtoA _ _ _ _ => Int32 × UInt32
  | .resolverDelete _ => Unit
  | .socket => Int
  | .connect _ _ _ => Int32
  | .close _ => Unit
  | .select _ _ _ => Int32
  | .recv _ _ => Int × List UInt8
  | .send _ _ => Int

abbrev Sock (α : Type) := Process SocketCall.Result α

def call (op : SocketCall) : Sock op.Result :=
  ask op

def print (text : List UInt8) : Sock Unit :=
  call (.consolePrintf text)

/-! ## Connecting -/

def resolve (name : List UInt8) : Sock (Option UInt32) := do
  match ← call (.inetAton name) with
  | some address => pure (some address)
  | none =>
      let (err, rid) ← call .resolverCreate
      if err < 0 then pure none
      else
        let (ok, address) ← call (.resolverStartNtoA rid name 2 3)
        call (.resolverDelete rid)
        pure (if ok ≥ 0 then some address else none)

def netConnect (host : List UInt8) (port : Int32) : Sock Int := do
  print (ascii "  looking up " ++ host ++ ascii "\n")
  match ← resolve host with
  | none =>
      print (ascii "  could not resolve " ++ host ++ ascii "\n")
      pure (-1)
  | some resolved =>
      let dotted ← call (.inetNtoa resolved)
      print (ascii "  connecting to " ++ dotted ++ ascii ":" ++ intText port ++
        ascii " ...\n")
      let fd ← call .socket
      if fd < 0 then
        let error ← call .errno
        print (ascii "  no socket (" ++ intText error ++ ascii ")\n")
        pure (-1)
      else if (← call (.connect fd resolved port.toUInt32.toUInt16)) < 0 then
        let error ← call .errno
        print (ascii "  " ++ host ++ ascii ":" ++ intText port ++
          ascii " refused the connection (" ++ intText error ++ ascii ")\n")
        call (.close fd)
        pure (-1)
      else pure fd

/-! ## The two ends of the socket -/

/-- `EINTR` -/
def interrupted : Int32 := 4

/-- `EAGAIN`, which is `EWOULDBLOCK` as well. -/
def again : Int32 := 11

def waitReadable (fd : Int) (milliseconds : Nat) : Sock Bool := do
  let ready ← call (.select fd (milliseconds / 1000) (milliseconds % 1000 * 1000))
  pure (ready > 0)

/-- What it returns, and what is in the buffer by then. -/
def netRecv (fd : Int) (len : Nat) : Sock (Int × List UInt8) := do
  if ¬ (← waitReadable fd 50) then pure (0, [])
  else
    let (n, bytes) ← call (.recv fd len)
    if n = 0 then pure (-1, bytes)
    else if n < 0 then
      let error ← call .errno
      if error = again ∨ error = interrupted then pure (0, bytes)
      else pure (-1, bytes)
    else pure (n, bytes)

def netSend (fd : Int) (data : List UInt8) : Sock Int := do
  let n ← call (.send fd data)
  if n < 0 then
    let error ← call .errno
    if error = again ∨ error = interrupted then pure 0 else pure (-1)
  else pure n

/-! ## What the library is given -/

/-- `WS_CBIO_ERR_WANT_READ` and the others. -/
inductive CbioError where
  | wantRead | wantWrite | general

/-- `io_recv`, over the callback of the session. -/
def ioRecv (recv : Nat → Sock (Int × List UInt8)) (len : Nat) :
    Sock (Except CbioError Int × List UInt8) := do
  let (n, bytes) ← recv len
  if n = 0 then pure (.error .wantRead, bytes)
  else if n < 0 then pure (.error .general, bytes)
  else pure (.ok n, bytes)

def ioSend (send : List UInt8 → Sock Int) (data : List UInt8) :
    Sock (Except CbioError Int) := do
  let n ← send data
  if n = 0 then pure (.error .wantWrite)
  else if n < 0 then pure (.error .general)
  else pure (.ok n)

inductive Callback where
  | recv (len : Nat)
  | send (data : List UInt8)

abbrev Callback.Result : Callback → Type
  | .recv _ => Except CbioError Int × List UInt8
  | .send _ => Except CbioError Int

def callback (fd : Int) : (op : Callback) → Sock op.Result
  | .recv len => ioRecv (netRecv fd) len
  | .send data => ioSend (netSend fd) data

end Pspssh.Net.Socket
