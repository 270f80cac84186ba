import Pspssh.App.Terminal

namespace Pspssh.App

open Pspssh.Data Pspssh.Card Pspssh.Core Pspssh.Known Pspssh.Pad Pspssh.Screen
open Pspssh.Session
open Pspssh.Data.Process (Guarded Observed)

/-! What can be seen of a running application from outside. -/

/-- The chunks that were read for each frame and since the last of them, the
bytes that the user has asked to be sent and those that were accepted, the last
question if the answer was yes and nothing was drawn or said to the server since,
the last prompt that was not the shell's with what was entered there, the
address and port that were dialled last, and the keys that were remembered when
the server may last have offered its own. -/
structure Seen where
  frames : List (List (List UInt8))
  chunks : List (List UInt8)
  asked : List UInt8
  accepted : List UInt8
  confirmed : Option (List UInt8 × List UInt8)
  entered : Option (List UInt8 × List UInt8)
  target : Option (List UInt8 × Int32)
  store : KnownHosts

def Seen.nothing : Seen where
  frames := []
  chunks := []
  asked := []
  accepted := []
  confirmed := none
  entered := none
  target := none
  store := noKnownHosts

/-- What the buttons ask to be sent. The cross opens the keyboard instead. -/
def wanted (pressed : UInt32) : List UInt8 :=
  if pressed &&& ctrlCross ≠ 0 then [] else (keys pressed).getD []

def Seen.heard (known : KnownHosts) (seen : Seen) :
    (request : LibraryCall) → request.Result → Seen
  | .streamRead _, (n, data) =>
      { seen with
        chunks := if 0 < n then seen.chunks ++ [data] else seen.chunks
        confirmed := none }
  | .streamSend data, n =>
      { seen with accepted := seen.accepted ++ data.take n.toNat, confirmed := none }
  | .connect, _ | .answerKey _, _ | .answerAuth _, _ =>
      { seen with store := known, confirmed := none }
  | _, _ => { seen with confirmed := none }

def Seen.note (known : KnownHosts) (seen : Seen) : AppEvent → Seen
  | ⟨.library request, result⟩ => seen.heard known request result
  | ⟨.draw _, _⟩ =>
      { seen with
        frames := seen.frames ++ [seen.chunks]
        chunks := []
        confirmed := none }
  | ⟨.padPressed, pressed⟩ => { seen with asked := seen.asked ++ wanted pressed }
  | ⟨.oskPrompt prompt _ _ _ _, (result, text)⟩ =>
      if result = .entered then
        if prompt = linePrompt then
          { seen with asked := seen.asked ++ (text ++ [0x0a]) }
        else { seen with entered := some (prompt, text) }
      else seen
  | ⟨.uiConfirm question detail, yes⟩ =>
      { seen with confirmed := if yes then some (question, detail) else none }
  | ⟨.netConnect address port, _⟩ => { seen with target := some (address, port) }
  | _ => seen

def scene (faults : IoCall → Prop) : World AppCall.Result (Machine × Seen) :=
  Observed (machine faults) fun device => Seen.note device.statics.known

/-! ## Rules -/

def Silent : AppCall → Prop
  | .gfxInit | .gfxShutdown | .padInit | .setupCallbacks | .exitGame | .consoleReset
  | .consolePrintf _ | .delay _ | .padExitRequested | .waitForRelease
  | .uiMessage _ _ _ | .oskFailure | .netStart _ => True
  | _ => False

section Rules

variable {faults : IoCall → Prop} {allowed : AppCall → Machine × Seen → Prop}
  {α : Type} {post : α → Machine × Seen → Prop} {device : Machine} {seen : Seen}

theorem Silent.same {op : AppCall} (silent : Silent op) {result : op.Result}
    {state after : Machine × Seen} (made : scene faults state op result after) :
    after = state := by
  obtain ⟨did, noted⟩ := made
  cases op <;> first | exact Prod.ext did noted | contradiction

theorem guarded_call {op : AppCall} {next : op.Result → Psp α} {state : Machine × Seen}
    (permitted : allowed op state)
    (rest : ∀ result after, scene faults state op result after →
      Guarded (scene faults) allowed post (next result) after) :
    Guarded (scene faults) allowed post (call op >>= next) state :=
  .call permitted rest

theorem guarded_silent {op : AppCall} {next : op.Result → Psp α}
    {state : Machine × Seen}
    (silent : Silent op) (permitted : allowed op state)
    (rest : ∀ result, Guarded (scene faults) allowed post (next result) state) :
    Guarded (scene faults) allowed post (call op >>= next) state := by
  refine guarded_call permitted fun result after made => ?_
  rw [silent.same made]
  exact rest result

theorem guarded_statics {next : Statics → Psp α}
    (permitted : allowed .statics (device, seen))
    (rest : Guarded (scene faults) allowed post (next device.statics) (device, seen)) :
    Guarded (scene faults) allowed post (call .statics >>= next) (device, seen) := by
  refine guarded_call permitted fun statics after made => ?_
  obtain ⟨⟨rfl, same⟩, noted⟩ := made
  have unseen : after.2 = seen := noted
  rw [← Prod.eta after, same, unseen]
  exact rest

theorem guarded_modify {change : Statics → Statics} {next : Unit → Psp α}
    (permitted : allowed (.modify change) (device, seen))
    (rest : Guarded (scene faults) allowed post (next ())
      ({ device with statics := change device.statics }, seen)) :
    Guarded (scene faults) allowed post (modify change >>= next) (device, seen) := by
  refine guarded_call permitted fun _ after made => ?_
  obtain ⟨changed, noted⟩ := made
  have changed : after.1 = { device with statics := change device.statics } := changed
  have unseen : after.2 = seen := noted
  rw [← Prod.eta after, changed, unseen]
  exact rest

theorem guarded_modify_last {change : Statics → Statics}
    {post : Unit → Machine × Seen → Prop}
    (permitted : allowed (.modify change) (device, seen))
    (holds : post () ({ device with statics := change device.statics }, seen)) :
    Guarded (scene faults) allowed post (modify change) (device, seen) :=
  guarded_modify permitted (.done holds)

end Rules

end Pspssh.App
