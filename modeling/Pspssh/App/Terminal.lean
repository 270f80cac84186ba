import Pspssh.App.Calls

namespace Pspssh.App

open Pspssh.Data Pspssh.Core Pspssh.Hosts Pspssh.Keyboard Pspssh.Pad Pspssh.Screen
open Pspssh.Session Pspssh.Terminal
open Pspssh.Data.Process (iterate)

/-! A session in front of its user: what arrives is drawn, what is typed is
sent. -/

/-- `pspssh_read` of a buffer of this size, for the session there is. -/
def readSession (size : Nat) : Psp (Int × List UInt8) := do
  let statics ← call .statics
  let (n, data, session) ← pspsshRead library size statics.session
  modify fun statics => { statics with session }
  pure (n, data)

/-- `pspssh_write` and, if it has to be tried again, the delay behind it. -/
def writeSession (data : List UInt8) : Psp Int := do
  let statics ← call .statics
  let (n, session) ← pspsshWrite library data statics.session
  modify fun statics => { statics with session }
  if n = 0 then
    call (.delay 1000)
  pure n

def sendAll (text : Buffer) (len : Nat) : Psp Int :=
  Process.via writeSession (Session.sendAll text len)

def chunkSize : Nat := 1024

def screenful : Nat := 8192

/-- The loop that reads until the far side is quiet or a screenful has arrived:
the reason if there is nothing more to come. -/
def drain : Psp (Option (List UInt8)) :=
  iterate (fun (drained : Nat) => do
    let (n, data) ← readSession chunkSize
    if n < 0 then
      let statics ← call .statics
      pure (.inr (some (pspsshError statics.session)))
    else if n = 0 then pure (.inr none)
    else
      modify fun statics =>
        { statics with term := termFeed (data.take n.toNat) statics.term }
      let drained := drained + n.toNat
      if drained > screenful then pure (.inr none) else pure (.inl drained)) 0

def bellFrames : Int := 24

structure Running where
  typed : Buffer
  frames : Nat
  ended : Bool
  ending : Option (List UInt8)

variable (build : Build) (host : HostEntry)

/-- From `term_take_bell` to the count of the bell. -/
def drawFrame (frames : Nat) : Psp Unit := do
  modify fun statics =>
    let (rang, term) := termTakeBell statics.term
    { statics with
      term
      bellLeft := if rang then bellFrames else statics.bellLeft }
  let statics ← call .statics
  call (.draw (drawTerminal build host (frames / 20 % 2 = 0) true statics.bellLeft
    statics.term ++ [.flip]))
  modify fun statics =>
    { statics with
      bellLeft :=
        if statics.bellLeft > 0 then statics.bellLeft - 1 else statics.bellLeft }

def typedSize : Nat := oskMaxText + 2

def terminalBackdrop (statics : Statics) : List Drawing :=
  drawTerminal build host false false statics.bellLeft statics.term

def wipeBytes (buffer : Buffer) (size : Nat) : Buffer :=
  buffer.copy 0 (List.replicate size 0)

def lineFailure : List UInt8 := ascii "the line could not be sent"

def keyFailure : List UInt8 := ascii "the keystroke could not be sent"

def linePrompt : List UInt8 := ascii "type a line for the shell"

/-- The branch for the cross. -/
def typeLine (running : Running) : Psp Running := do
  let typed := running.typed.store 0 0
  let statics ← call .statics
  let (result, text) ← call (.oskPrompt linePrompt []
    typedSize .text (some (terminalBackdrop build host statics)))
  let typed := typed.copy 0 (text ++ [0])
  let running ← (do
    if result = .entered then
      let typed := typed.store text.length 0x0a
      let sent ← sendAll typed (text.length + 1)
      if sent ≠ 0 then
        pure { running with typed, ended := true, ending := some lineFailure }
      else pure { running with typed }
    else pure { running with typed } : Psp Running)
  pure { running with typed := wipeBytes running.typed typedSize }

def keys (pressed : UInt32) : Option (List UInt8) :=
  if pressed &&& ctrlSquare ≠ 0 then some [0x0d]
  else if pressed &&& ctrlTriangle ≠ 0 then some [0x03]
  else if pressed &&& ctrlSelect ≠ 0 then some [0x04]
  else if pressed &&& ctrlStart ≠ 0 then some [0x09]
  else if pressed &&& ctrlLtrigger ≠ 0 then some [0x1b]
  else if pressed &&& ctrlRtrigger ≠ 0 then some [0x0c]
  else if pressed &&& ctrlUp ≠ 0 then some [0x1b, 0x5b, 0x41]
  else if pressed &&& ctrlDown ≠ 0 then some [0x1b, 0x5b, 0x42]
  else if pressed &&& ctrlRight ≠ 0 then some [0x1b, 0x5b, 0x43]
  else if pressed &&& ctrlLeft ≠ 0 then some [0x1b, 0x5b, 0x44]
  else none

def sendKeys (pressed : UInt32) (running : Running) : Psp Running :=
  match keys pressed with
  | none => pure running
  | some text => do
      let sent ← sendAll (fun index => text.getD index 0) text.length
      if sent ≠ 0 then
        pure { running with ended := true, ending := some keyFailure }
      else pure running

/-- How the loop is left: through its end, or with the array as `return` found
it. -/
inductive Left where
  | ended (typed : Buffer) (ending : Option (List UInt8))
  | returned (typed : Buffer)

def answerButtons (pressed : UInt32) (running : Running) : Psp (Running ⊕ Left) := do
  if pressed = 0 then pure (.inl running)
  else if pressed &&& ctrlCross ≠ 0 then
    let running ← typeLine build host running
    pure (.inl running)
  else
    let running ← sendKeys pressed running
    if pressed &&& ctrlCircle ≠ 0 then
      if ← call (.uiConfirm (ascii "leave this session?")
          (ascii "the shell on the other side will be closed")) then
        pure (.inr (.returned (wipeBytes running.typed typedSize)))
      else pure (.inl running)
    else pure (.inl running)

/-- One pass of the loop of `run_terminal`, with its condition in front. -/
def terminalPass (running : Running) : Psp (Running ⊕ Left) := do
  if running.ended then pure (.inr (.ended running.typed running.ending))
  else if ← call .padExitRequested then
    pure (.inr (.ended running.typed running.ending))
  else
    let failure ← drain
    drawFrame build host running.frames
    let running := { running with frames := running.frames + 1 }
    match failure with
    | some ending => pure (.inr (.ended running.typed (some ending)))
    | none =>
        let pressed ← call .padPressed
        answerButtons build host pressed running

/-- `run_terminal`: what is in its array when it returns. -/
def runTerminal (typed : Buffer) : Psp Buffer := do
  modify fun statics =>
    { statics with term := termReset gfxCols termRows statics.term, bellLeft := 0 }
  match ← iterate (terminalPass build host) ⟨typed, 0, false, none⟩ with
  | .returned typed => pure typed
  | .ended typed ending =>
      call (.uiMessage (ascii "the session ended")
        (some (ending.getD (ascii "the far side closed it"))) gfxGrey)
      pure typed

end Pspssh.App
