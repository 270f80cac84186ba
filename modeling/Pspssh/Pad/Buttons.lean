import Pspssh.Data.Process
import Pspssh.Menu.HostList

namespace Pspssh.Pad

open Pspssh.Data Pspssh.Menu Pspssh.Screen
open Pspssh.Data.Process (ask iterate)

/-! The buttons as presses, and the dialogs that wait for one. -/

/-! ## Buttons -/

/-! `PSP_CTRL_SELECT` and the others. -/

def ctrlSelect : UInt32 := 0x1

def ctrlStart : UInt32 := 0x8

def ctrlUp : UInt32 := 0x10

def ctrlRight : UInt32 := 0x20

def ctrlDown : UInt32 := 0x40

def ctrlLeft : UInt32 := 0x80

def ctrlLtrigger : UInt32 := 0x100

def ctrlRtrigger : UInt32 := 0x200

def ctrlTriangle : UInt32 := 0x1000

def ctrlCircle : UInt32 := 0x2000

def ctrlCross : UInt32 := 0x4000

def ctrlSquare : UInt32 := 0x8000

/-! ## Reading them -/

structure PadState where
  previous : UInt32
  held : UInt32
  started : Bool

def PadState.fresh : PadState := ⟨0, 0, false⟩

inductive PadCall where
  -- `sceCtrlSetSamplingCycle` and `sceCtrlSetSamplingMode`
  | setSampling
  | peek
  | exitAsked
  | draw (drawings : List Drawing)
  | delay (micros : Nat)

/-- What each of them gives back; `peek` gives the buttons that are down. -/
abbrev PadCall.Result : PadCall → Type
  | .setSampling => Unit
  | .peek => UInt32
  | .exitAsked => Bool
  | .draw _ => Unit
  | .delay _ => Unit

abbrev Buttons (α : Type) := Process PadCall.Result α

def call (op : PadCall) : Buttons op.Result :=
  ask op

def padInit (pad : PadState) : Buttons PadState := do
  if pad.started then pure pad
  else
    call .setSampling
    pure { pad with started := true, previous := 0 }

/-- The buttons that went down since the last call, and the variables. -/
def padPressed (pad : PadState) : Buttons (UInt32 × PadState) := do
  let pad ← (if ¬ pad.started then padInit pad else pure pad : Buttons PadState)
  let now ← call .peek
  pure (now &&& ~~~pad.previous, { pad with previous := now, held := now })

def padHeld (pad : PadState) : UInt32 := pad.held

def waitForRelease (pad : PadState) : Buttons PadState :=
  iterate (fun (frames, pad) => do
    if padHeld pad ≠ 0 ∧ frames < 60 then
      let (_, pad) ← padPressed pad
      call (.delay 16000)
      pure (.inl (frames + 1, pad))
    else pure (.inr pad)) ((0 : Nat), pad)

/-! ## Dialogs -/

variable (build : Build)

def messageFrame (title : List UInt8) (detail : Option (List UInt8)) (colour : UInt32) :
    List Drawing :=
  uiFrame build (ascii "pspssh") (ascii "X  continue") ++
    [.puts 2 (listTop + 2) title colour gfxBlack] ++
    (match detail with
      | none => []
      | some detail => [.puts 2 (listTop + 4) detail gfxGrey gfxBlack]) ++ [.flip]

def confirmFrame (question : List UInt8) (detail : Option (List UInt8)) :
    List Drawing :=
  uiFrame build (ascii "pspssh") (ascii "X  yes            O  no") ++
    [.puts 2 (listTop + 2) question gfxYellow gfxBlack] ++
    (match detail with
      | none => []
      | some detail => [.puts 2 (listTop + 4) detail gfxGrey gfxBlack]) ++ [.flip]

def uiMessage (title : List UInt8) (detail : Option (List UInt8)) (colour : UInt32)
    (pad : PadState) : Buttons PadState := do
  let pad ← waitForRelease pad
  let pad ← iterate (fun pad => do
    call (.draw (messageFrame build title detail colour))
    let (pressed, pad) ← padPressed pad
    if pressed &&& (ctrlCross ||| ctrlCircle) ≠ 0 then pure (.inr pad)
    else if ← call .exitAsked then pure (.inr pad)
    else pure (.inl pad)) pad
  waitForRelease pad

def uiConfirm (question : List UInt8) (detail : Option (List UInt8)) (pad : PadState) :
    Buttons (Bool × PadState) := do
  let pad ← waitForRelease pad
  iterate (fun pad => do
    call (.draw (confirmFrame build question detail))
    let (pressed, pad) ← padPressed pad
    if ← call .exitAsked then
      let pad ← waitForRelease pad
      pure (.inr (false, pad))
    else if pressed &&& ctrlCircle ≠ 0 then
      let pad ← waitForRelease pad
      pure (.inr (false, pad))
    else if pressed &&& ctrlCross ≠ 0 then
      let pad ← waitForRelease pad
      pure (.inr (true, pad))
    else pure (.inl pad)) pad

end Pspssh.Pad
