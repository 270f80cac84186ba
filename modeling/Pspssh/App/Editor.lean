import Pspssh.App.Calls
import Pspssh.Menu.HostName

namespace Pspssh.App

open Pspssh.Data Pspssh.Hosts Pspssh.Menu Pspssh.Menu.Editor Pspssh.Pad Pspssh.Screen
open Pspssh.Data.Process (iterate)

/-! The editor: a form, its fields one after another, and what saving it does. -/

def fieldCount : Int := 6

def fieldLabels : FormField → List UInt8
  | .name => ascii "name"
  | .address => ascii "address"
  | .port => ascii "port"
  | .user => ascii "user"
  | .password => ascii "password"
  | .profile => ascii "wi-fi profile"

def fieldValue (form : HostEntry) : FormField → List UInt8
  | .name =>
      if form.name.text = [] then ascii "(same as address)" else form.name.text
  | .address => if form.address.text = [] then ascii "(needed)" else form.address.text
  | .port => intText form.port
  | .user => if form.user.text = [] then ascii "(needed)" else form.user.text
  | .password =>
      if form.password.text = [] then ascii "(ask each time)"
      else ascii "(stored on the card)"
  | .profile =>
      if form.profile = 0 then ascii "any that works" else intText form.profile

/-- `"%-14s"` -/
def paddedLabel (text : List UInt8) : List UInt8 :=
  text ++ List.replicate (14 - text.length) 0x20

def valueLen : Nat := hostAddressLen + 8

instance : NeZero valueLen := ⟨by decide⟩

/-- `ui_frame`, with `frame_clears` as an argument. -/
def uiFrameOver (clears : Bool) (build : Build) (title legend : List UInt8) :
    List Drawing :=
  (if clears then [.clear gfxBlack] else []) ++ titleBar build gfxAccent title ++
    [.fillCells 0 footerRow gfxCols 1 gfxBlack,
      .puts 1 footerRow legend gfxGrey gfxBlack]

/-- The body of the loop in `draw_form`, for the field with this number. -/
def drawField (form : HostEntry) (chosenField i : Int) : List Drawing :=
  match fieldNumber i with
  | none => []
  | some field =>
      let row := listTop + i
      let chosen : Prop := i = chosenField
      let bg := if chosen then gfxAccent else gfxBlack
      let value := (copyField valueLen (fieldValue form field)).text
      [.fillCells 1 row (gfxCols - 2) 1 bg,
        .puts 2 row (if chosen then ascii ">" else ascii " ") gfxWhite bg,
        gfxPrintf 4 row gfxGrey bg (paddedLabel (fieldLabels field)),
        .puts 20 row value gfxWhite bg]

def drawForm (build : Build) (clears : Bool) (statics : Statics) : List Drawing :=
  uiFrameOver clears build
      (if statics.formIsNew then ascii "add a host" else ascii "edit host")
      (ascii "X  change      []  save      O  cancel") ++
    ((List.range fieldCount.toNat).flatMap fun (i : Nat) =>
      drawField statics.form statics.formField i) ++
    if statics.form.password.text ≠ [] then
      [.puts 2 (listTop + fieldCount + 2)
        (ascii "a stored password is plain text on the memory card") gfxDim gfxBlack]
    else []

variable (build : Build) (index : Int)

def editField : Psp Unit := do
  let statics ← call .statics
  match fieldNumber statics.formField with
  | none => pure ()
  | some field =>
      let form ← call (.editCurrentField statics.form field)
      modify fun statics => { statics with form }

def wipeForm : Psp Unit :=
  modify fun statics => { statics with form := zeroEntry }

/-- What is done with a form that can be saved: whether it was. -/
def keepForm (statics : Statics) : Psp Bool := do
  if statics.formIsNew then
    let (result, hosts) ← onCard (hostsAdd (some statics.form) statics.hosts)
    modify fun statics => { statics with hosts }
    pure (0 ≤ result)
  else
    let (result, hosts) ← onCard (hostsReplace index (some statics.form) statics.hosts)
    modify fun statics => { statics with hosts }
    pure (result = 0)

def hostsError (hosts : HostList) : List UInt8 :=
  if hosts.lastError = "" then ascii "no error" else ascii hosts.lastError

/-- The branch for the square. -/
def saveForm : Psp (Unit ⊕ Int) := do
  let statics ← call .statics
  if statics.form.name.text = [] then
    modify fun statics => { statics with form := nameFromAddress statics.form }
  let statics ← call .statics
  match hostsProblem (some statics.form) with
  | some problem =>
      call (.uiMessage (ascii "that host cannot be saved")
        (some (ascii problem)) gfxRed)
      pure (.inl ())
  | none =>
      if ← keepForm index statics then
        wipeForm
        pure (.inr 1)
      else
        let statics ← call .statics
        call (.uiMessage (ascii "it could not be saved")
          (some (hostsError statics.hosts)) gfxRed)
        pure (.inl ())

def moveField (by_rows : Int) : Psp Unit :=
  modify fun statics =>
    { statics with formField := Int.tmod (statics.formField + by_rows) fieldCount }

/-- One pass of the loop of `edit_host`. -/
def editPass : Psp (Unit ⊕ Int) := do
  let statics ← call .statics
  call (.draw (drawForm build true statics ++ [.flip]))
  if ← call .padExitRequested then
    wipeForm
    pure (.inr 0)
  else
    let pressed ← call .padPressed
    if pressed &&& ctrlUp ≠ 0 then
      moveField (fieldCount - 1)
      pure (.inl ())
    else if pressed &&& ctrlDown ≠ 0 then
      moveField 1
      pure (.inl ())
    else if pressed &&& ctrlCross ≠ 0 then
      editField
      call .waitForRelease
      pure (.inl ())
    else if pressed &&& ctrlSquare ≠ 0 then saveForm index
    else if pressed &&& ctrlCircle ≠ 0 then
      wipeForm
      call .waitForRelease
      pure (.inr 0)
    else pure (.inl ())

/-- `edit_host` behind its call of `hosts_at`. -/
def editForm (existing : Option HostEntry) : Psp Int := do
  modify fun statics =>
    { statics with
      formIsNew := existing.isNone
      form := existing.getD hostsBlank
      formField := if existing.isNone then 1 else 0 }
  call .waitForRelease
  iterate (fun _ => editPass build index) ()

end Pspssh.App
