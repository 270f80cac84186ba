import Pspssh.Core.Opening
import Pspssh.Known.HostKey
import Pspssh.Menu.EditField
import Pspssh.Menu.HostList
import Pspssh.Pad.Buttons
import Pspssh.Screen.Cursor

namespace Pspssh.App

open Pspssh.Data Pspssh.Card Pspssh.Core Pspssh.Hosts Pspssh.Keyboard Pspssh.Known
open Pspssh.Menu.Editor Pspssh.Screen Pspssh.Session Pspssh.Terminal
open Pspssh.Data.Process (ask)

/-! What the application calls, and what is around it. -/

/-- What outlives a call: the variables of the modules, and the block that the
session lies in. -/
structure Statics where
  term : Term
  bellLeft : Int
  hosts : HostList
  known : KnownHosts
  form : HostEntry
  formField : Int
  formIsNew : Bool
  session : PspsshSession

/-- `field_labels`, by number. -/
def fieldNumber (number : Int) : Option FormField :=
  if number = 0 then some .name
  else if number = 1 then some .address
  else if number = 2 then some .port
  else if number = 3 then some .user
  else if number = 4 then some .password
  else if number = 5 then some .profile
  else none

inductive AppCall where
  | statics
  | modify (change : Statics → Statics)
  | gfxInit
  | gfxShutdown
  | padInit
  | setupCallbacks
  | exitGame
  | card (call : IoCall)
  | library (call : LibraryCall)
  | draw (drawings : List Drawing)
  | consoleReset
  | consolePrintf (text : List UInt8)
  | delay (micros : Nat)
  | padPressed
  | padExitRequested
  | waitForRelease
  | uiMessage (title : List UInt8) (detail : Option (List UInt8)) (colour : UInt32)
  | uiConfirm (question detail : List UInt8)
  | oskPrompt (prompt initial : List UInt8) (outLen : Nat) (kind : OskKind)
      (backdrop : Option (List Drawing))
  | oskFailure
  | editCurrentField (form : HostEntry) (field : FormField)
  | netStart (preferred : Int32)
  | netConnect (address : List UInt8) (port : Int32)
  | close (fd : Int)

/-- What each of them gives back. A prompt gives what it returns, and the text
that is in its array by then. -/
abbrev AppCall.Result : AppCall → Type
  | .statics => Statics
  | .modify _ => Unit
  | .gfxInit => Int
  | .gfxShutdown => Unit
  | .padInit => Unit
  | .setupCallbacks => Unit
  | .exitGame => Unit
  | .card call => call.Result
  | .library call => call.Result
  | .draw _ => Unit
  | .consoleReset => Unit
  | .consolePrintf _ => Unit
  | .delay _ => Unit
  | .padPressed => UInt32
  | .padExitRequested => Bool
  | .waitForRelease => Unit
  | .uiMessage _ _ _ => Unit
  | .uiConfirm _ _ => Bool
  | .oskPrompt _ _ _ _ _ => OskResult × List UInt8
  | .oskFailure => List UInt8
  | .editCurrentField _ _ => HostEntry
  | .netStart _ => Bool
  | .netConnect _ _ => Int
  | .close _ => Unit

abbrev Psp (α : Type) := Process AppCall.Result α

abbrev AppEvent := Event AppCall.Result

def call (op : AppCall) : Psp op.Result :=
  ask op

def library (request : LibraryCall) : Psp request.Result :=
  call (.library request)

def onCard {α : Type} (program : Io α) : Psp α :=
  Process.via (fun request => call (.card request)) program

def modify (change : Statics → Statics) : Psp Unit :=
  call (.modify change)

/-! ## The world -/

structure Machine where
  statics : Statics
  card : MemoryCard
  library : Library
  sockets : List Int

def booted (card : MemoryCard) : Machine where
  statics :=
    { term := initial
      bellLeft := 0
      hosts := noHosts
      known := noKnownHosts
      form := Hosts.zeroEntry
      formField := 0
      formIsNew := false
      session := .fresh }
  card := card
  library := .empty
  sockets := []

/-- A form after one of its fields was edited: no other field has changed, and a
number that was in its range still is. -/
structure EditedBy (field : FormField) (form edited : HostEntry) : Prop where
  name : field ≠ .name → edited.name = form.name
  address : field ≠ .address → edited.address = form.address
  user : field ≠ .user → edited.user = form.user
  password : field ≠ .password → edited.password = form.password
  port : edited.port = form.port ∨ field = .port ∧ 1 ≤ edited.port ∧ edited.port ≤ 65535
  profile : edited.profile = form.profile ∨
    field = .profile ∧ 0 ≤ edited.profile ∧ edited.profile ≤ 10

/-- What the calls may come to. The card and the library keep to what they are
known for; a call that is not named here may give back anything and changes
nothing. -/
def machine (faults : IoCall → Prop) : World AppCall.Result Machine :=
  fun before op result after =>
    match op, result with
    | .statics, statics => statics = before.statics ∧ after = before
    | .modify change, _ => after = { before with statics := change before.statics }
    | .card request, result =>
        Step faults before.card request result after.card ∧
          after = { before with card := after.card }
    | .library request, result =>
        before.library.Does request result after.library ∧
          after = { before with library := after.library }
    | .oskPrompt _ _ outLen _ _, (_, text) =>
        (0 ∉ text ∧ text.length < outLen) ∧ after = before
    | .editCurrentField form field, edited =>
        EditedBy field form edited ∧ after = before
    | .netConnect _ _, fd =>
        (0 ≤ fd → fd ∉ before.sockets) ∧
          after =
            { before with
              sockets := if 0 ≤ fd then fd :: before.sockets else before.sockets }
    | .close fd, _ => after = { before with sockets := before.sockets.erase fd }
    | _, _ => after = before

end Pspssh.App
