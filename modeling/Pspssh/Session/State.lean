import Pspssh.Data.Text

namespace Pspssh.Session

open Pspssh.Data

/-! What a session remembers of a failure, and the errors it tells apart. -/

def errorLen : Nat := 256

instance : NeZero errorLen := ⟨by decide⟩

/-- The errors of wolfSSH, with the code of those the session only names. -/
inductive SshError where
  | wantRead
  | wantWrite
  | windowFull
  | eof
  | other (code : Int)
deriving DecidableEq

structure PspsshSession where
  hostkeyRefused : Bool
  error : Field errorLen

/-- A session as `calloc` leaves it. -/
def PspsshSession.fresh : PspsshSession := ⟨false, emptyField errorLen⟩

def setError (session : PspsshSession) (message : List UInt8) : PspsshSession :=
  { session with error := copyField errorLen message }

end Pspssh.Session
