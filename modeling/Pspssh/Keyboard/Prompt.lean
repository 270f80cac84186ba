import Pspssh.Data.Run
import Pspssh.Keyboard.Text
import Pspssh.Screen.Drawing

namespace Pspssh.Keyboard

open Pspssh.Data Pspssh.Screen

/-! The system's keyboard dialog and what it leaves behind. -/

inductive OskKind where
  | text | digits | hostname

inductive OskResult where
  | entered | cancelled | unavailable
  deriving DecidableEq

inductive DialogStatus where
  | none | init | visible | quit | finished
  | other (code : Int32)
  deriving DecidableEq

/-- `data.result`. -/
inductive DialogResult where
  | unchanged | cancelled | changed
  deriving DecidableEq

/-- `PSP_UTILITY_OSK_INPUTTYPE_ALL`. -/
def inputTypeFor (_kind : OskKind) : UInt32 := 0

structure OskData where
  lines : Nat
  inputtype : UInt32
  outtextlength : Nat
  outtextlimit : Nat
  deriving DecidableEq

inductive OskCall where
  | initStart (data : OskData)
  | shutdownStart
  | update
  | displayWaitVblankStart
  | guClear (colour : UInt32)
  | backdrop
  | draw (drawing : Drawing)
  deriving DecidableEq

/-- The static variables, and the calls made so far. -/
structure Osk where
  desc16 : Units
  in16 : Units
  out16 : Units
  failure : Field 80
  calls : List OskCall

def Osk.does (osk : Osk) (calls : List OskCall) : Osk :=
  { osk with calls := osk.calls ++ calls }

/-- The dialog has put a text into `out16` in the meantime. -/
def Osk.hears (osk : Osk) (text : Units) : Osk :=
  { osk with out16 := text }

def oskFailure (osk : Osk) : List UInt8 :=
  if osk.failure.text = [] then ascii "no failure" else osk.failure.text

/-! ## What the console answers -/

/-- The answer to one `sceUtilityOskGetStatus`, and what the dialog has in
`out16` when the next one is asked for. -/
structure Answer where
  status : DialogStatus
  text : Units

/-- The answers to one pass of the loop. `again` is the second status, which is
asked for only if `exitRequested`. -/
structure Frame extends Answer where
  exitRequested : Bool
  again : DialogStatus

/-- The answers to one prompt, from its first call to its last. -/
structure Script where
  leftover : List Answer
  started : Int32
  frames : List Frame
  closing : List Answer
  result : DialogResult

/-! ## Waiting for a dialog to be gone -/

structure Await where
  osk : Osk
  spins : Nat
  gone : Bool

def Await.answered (limit : Nat) (calls : List OskCall) (await : Await)
    (answer : Answer) : Await :=
  let osk := await.osk.hears answer.text
  if answer.status = .none then { await with osk, gone := true }
  else if await.spins < limit then
    { osk := osk.does calls, spins := await.spins + 1, gone := false }
  else { osk, spins := await.spins + 1, gone := true }

/-- `while (sceUtilityOskGetStatus() != PSP_UTILITY_DIALOG_NONE &&
spins++ < limit)`, with the calls of its body. -/
def awaitNone (limit : Nat) (calls : List OskCall) (spins : Nat) (osk : Osk)
    (answers : List Answer) : Option Osk :=
  (runUntil (·.gone) (Await.answered limit calls)
    { osk, spins, gone := false } answers).map (·.osk)

def drainAnyLeftover (osk : Osk) : List Answer → Option Osk
  | [] => none
  | first :: rest =>
      let osk := osk.hears first.text
      if first.status = .none then if rest = [] then some osk else none
      else
        awaitNone 300 [.update, .displayWaitVblankStart] 0
          (osk.does [.shutdownStart]) rest

/-! ## The loop -/

/-- The variables of the loop. `late` is set where the source returns from
inside it. -/
structure Progress where
  finished : Bool
  appeared : Bool
  waiting : Nat
  late : Bool

/-- What the `switch` over the status does to them. -/
def Progress.switch (progress : Progress) : DialogStatus → Progress
  | .visible => { progress with appeared := true }
  | .quit => progress
  | .finished => { progress with finished := true }
  | .none => if progress.appeared then { progress with finished := true } else progress
  | .init => progress
  | .other _ => progress

/-- The calls in the `switch`. -/
def switchCalls : DialogStatus → List OskCall
  | .visible => [.update]
  | .quit => [.shutdownStart]
  | .finished => []
  | .none => []
  | .init => []
  | .other _ => []

/-- `!appeared && ++waiting > 300` -/
def Progress.counted (progress : Progress) : Progress :=
  if progress.appeared then progress
  else
    { progress with
      waiting := progress.waiting + 1
      late := progress.late || progress.waiting + 1 > 300 }

def openingNotice : Drawing :=
  .puts 2 (gfxRows - 1) (ascii "opening the keyboard...") gfxYellow gfxBlack

/-- What a pass draws in front of the `switch`. -/
def drawnBehind (backdrop : Bool) (status : DialogStatus) : List OskCall :=
  [.guClear gfxBlack] ++ (if backdrop then [.backdrop] else []) ++
    (if status ≠ .visible then [.draw openingNotice] else [])

/-- The dialog told to close, at the end of a pass, because the system asks to. -/
def exitCalls (frame : Frame) : List OskCall :=
  if frame.exitRequested ∧ frame.again = .visible then [.shutdownStart] else []

structure Loop extends Progress where
  osk : Osk

/-- The body of the loop. -/
def Loop.frame (backdrop : Bool) (loop : Loop) (frame : Frame) : Loop :=
  let progress := (loop.toProgress.switch frame.status).counted
  let calls := drawnBehind backdrop frame.status ++ switchCalls frame.status ++
    [.draw .flip] ++ (if progress.late then [] else exitCalls frame)
  { progress with osk := (loop.osk.hears frame.text).does calls }

def Loop.stops (loop : Loop) : Bool :=
  loop.finished || loop.late

def frameLoop (backdrop : Bool) (osk : Osk) (frames : List Frame) : Option Loop :=
  runUntil Loop.stops (Loop.frame backdrop)
    { osk, finished := false, appeared := false, waiting := 0, late := false }
    frames

/-! ## The prompt -/

/-- `"%08x"` -/
def hexText (value : Int32) : List UInt8 :=
  let digits := (Nat.toDigits 16 value.toUInt32.toNat).map fun ch => ch.toNat.toUInt8
  List.replicate (8 - digits.length) 0x30 ++ digits

/-- What the function returns, what `out` points to by then, and the static
variables. -/
structure Outcome (outLen : Nat) where
  result : OskResult
  out : Option (Cells outLen UInt8)
  osk : Osk

def Osk.filled (osk : Osk) (prompt initial : Option (List UInt8)) : Osk :=
  { osk with
    desc16 := toUtf16 prompt osk.desc16 oskMax
    in16 := toUtf16 initial osk.in16 oskMax
    out16 := 0 }

def oskData (kind : OskKind) (outLen : Nat) : OskData where
  lines := 1
  inputtype := inputTypeFor kind
  outtextlength := oskMax
  outtextlimit := min (outLen - 1) oskMaxText

section Prompt

variable {outLen : Nat}

/-- The prompt from the end of the loop on. -/
def closePrompt (out : Cells outLen UInt8) (script : Script) (loop : Loop) :
    Option (Outcome outLen) :=
  if loop.late then
    let osk := { loop.osk with
      failure := copyField 80 (ascii "it started, then never became visible") }
    (awaitNone 600 [.guClear gfxBlack, .update, .draw .flip] loop.waiting
      (osk.does [.shutdownStart]) script.closing).map
        fun osk => ⟨.unavailable, some out, osk⟩
  else if script.closing ≠ [] then none
  else if script.result = .cancelled then some ⟨.cancelled, some out, loop.osk⟩
  else
    some ⟨.entered, some (fromUtf16 loop.osk.out16 out outLen),
      { loop.osk with out16 := 0, in16 := 0 }⟩

/-- The prompt from `sceUtilityOskInitStart` on. -/
def openPrompt (kind : OskKind) (backdrop : Bool) (out : Cells outLen UInt8)
    (script : Script) (osk : Osk) : Option (Outcome outLen) :=
  let osk := { osk with failure := emptyField 80 }.does
    [.initStart (oskData kind outLen)]
  if script.started < 0 then
    let failure := copyField 80
      (ascii "sceUtilityOskInitStart gave 0x" ++ hexText script.started)
    if script.frames = [] ∧ script.closing = [] then
      some ⟨.unavailable, some out, { osk with failure }⟩
    else none
  else (frameLoop backdrop osk script.frames).bind (closePrompt out script)

/-- `osk_prompt`, with `none` for `NULL`: what it comes to if these are the
answers and it takes all of them. -/
def oskPrompt (prompt initial : Option (List UInt8)) (kind : OskKind)
    (backdrop : Bool) (out : Option (Cells outLen UInt8)) (script : Script)
    (osk : Osk) : Option (Outcome outLen) :=
  match out with
  | none => some ⟨.unavailable, none, osk⟩
  | some cells =>
      if outLen < 2 then some ⟨.unavailable, out, osk⟩
      else
        (drainAnyLeftover (osk.filled prompt initial) script.leftover).bind
          (openPrompt kind backdrop cells script)

end Prompt

/-! ## What a run does to the buffers -/

/-- After these texts of the dialog `out16` holds the last of them, and `in16`
is as it was. -/
structure After (texts : List Units) (osk last : Osk) : Prop where
  in16 : last.in16 = osk.in16
  out16 : last.out16 = texts.getLastD osk.out16

namespace After

variable {texts more : List Units} {osk middle last : Osk}

theorem refl (osk : Osk) : After [] osk osk :=
  ⟨rfl, rfl⟩

theorem trans (first : After texts osk middle) (second : After more middle last) :
    After (texts ++ more) osk last := by
  constructor
  · exact second.in16.trans first.in16
  · rw [second.out16, first.out16, getLastD_append]

theorem foldl {σ α : Type} {step : σ → α → σ} (osk : σ → Osk) {text : α → Units}
    (each : ∀ state item, After [text item] (osk state) (osk (step state item)))
    (state : σ) (items : List α) :
    After (items.map text) (osk state) (osk (items.foldl step state)) := by
  induction items generalizing state with
  | nil => exact refl _
  | cons item rest ih => exact (each state item).trans (ih (step state item))

end After

section Waiting

variable {limit : Nat} {calls : List OskCall} {osk last : Osk}
  {answers : List Answer}

theorem Await.answered_after (await : Await) (answer : Answer) :
    After [answer.text] await.osk (await.answered limit calls answer).osk := by
  unfold Await.answered
  dsimp only
  split_ifs <;> exact ⟨rfl, rfl⟩

theorem awaitNone_after {spins : Nat}
    (found : awaitNone limit calls spins osk answers = some last) :
    After (answers.map (·.text)) osk last := by
  obtain ⟨await, run, rfl⟩ := Option.map_eq_some_iff.mp found
  obtain ⟨_, _, rfl⟩ := runUntil_eq_some_iff.mp run
  exact After.foldl Await.osk Await.answered_after { osk, spins, gone := false } answers

theorem drainAnyLeftover_after
    (found : drainAnyLeftover osk answers = some last) :
    After (answers.map (·.text)) osk last := by
  cases answers with
  | nil => cases found
  | cons first rest =>
      have heard : After [first.text] osk (osk.hears first.text) := ⟨rfl, rfl⟩
      have waited : After (rest.map (·.text)) (osk.hears first.text) last := by
        rw [drainAnyLeftover] at found
        split at found
        · obtain ⟨rfl, same⟩ := Option.ite_none_right_eq_some.mp found
          cases same
          exact .refl _
        · have waited := awaitNone_after found
          exact ⟨waited.in16, waited.out16⟩
      exact heard.trans waited

end Waiting

theorem frame_after {backdrop : Bool} (loop : Loop) (frame : Frame) :
    After [frame.text] loop.osk (loop.frame backdrop frame).osk :=
  ⟨rfl, rfl⟩

theorem frameLoop_after {backdrop : Bool} {osk : Osk} {frames : List Frame}
    {last : Loop} (found : frameLoop backdrop osk frames = some last) :
    After (frames.map (·.text)) osk last.osk := by
  obtain ⟨_, _, rfl⟩ := runUntil_eq_some_iff.mp found
  exact After.foldl Loop.osk frame_after
    { osk, finished := false, appeared := false, waiting := 0, late := false }
    frames

/-! ## Whether the dialog appears -/

/-- The dialog becomes visible, or says that it is over, before the loop has
waited for five seconds, of which `waited` frames are gone. -/
def Opens (waited : Nat) (frames : List Frame) : Prop :=
  (∃ frame ∈ frames.take (301 - waited), frame.status = .visible) ∨
    ∃ frame ∈ frames.take (300 - waited), frame.status = .finished

instance (waited : Nat) (frames : List Frame) : Decidable (Opens waited frames) :=
  inferInstanceAs (Decidable (_ ∨ _))

theorem opens_cons {waited : Nat} (more : waited < 300) (frame : Frame)
    (rest : List Frame) :
    Opens waited (frame :: rest) ↔
      frame.status = .visible ∨ frame.status = .finished ∨
        Opens (waited + 1) rest := by
  have visible_time : 301 - waited = 301 - (waited + 1) + 1 := by omega
  have finished_time : 300 - waited = 300 - (waited + 1) + 1 := by omega
  unfold Opens
  rw [visible_time, finished_time, List.take_succ_cons, List.take_succ_cons]
  rw [List.exists_mem_cons_iff, List.exists_mem_cons_iff, or_or_or_comm, or_assoc]

theorem opens_at_last (frame : Frame) (rest : List Frame) :
    Opens 300 (frame :: rest) ↔ frame.status = .visible := by
  simp [Opens]

section Frames

variable {backdrop : Bool} {loop last : Loop} {frames : List Frame}

theorem frame_shown (frame : Frame)
    (shown : loop.appeared ∨ frame.status = .visible) :
    (loop.frame backdrop frame).appeared ∧
      (loop.frame backdrop frame).late = loop.late := by
  have appears : (loop.toProgress.switch frame.status).appeared := by
    rcases shown with before | now
    · cases frame.status <;> simp [Progress.switch, before]
    · simp [Progress.switch, now]
  have same : (loop.toProgress.switch frame.status).late = loop.late := by
    cases frame.status <;> simp [Progress.switch]
    split <;> rfl
  simp [Loop.frame, Progress.counted, appears, same]

theorem frame_hidden {frame : Frame} (hidden : loop.appeared = false)
    (unseen : frame.status ≠ .visible) :
    (loop.frame backdrop frame).toProgress =
      { finished := loop.finished || frame.status = .finished
        appeared := false
        waiting := loop.waiting + 1
        late := loop.late || 300 ≤ loop.waiting } := by
  obtain ⟨⟨finished, appeared, waiting, late⟩, osk⟩ := loop
  obtain rfl : appeared = false := hidden
  cases status : frame.status with
  | visible => exact absurd status unseen
  | none => simp [Loop.frame, Progress.counted, Progress.switch, status]
  | init => simp [Loop.frame, Progress.counted, Progress.switch, status]
  | quit => simp [Loop.frame, Progress.counted, Progress.switch, status]
  | finished => simp [Loop.frame, Progress.counted, Progress.switch, status]
  | other code => simp [Loop.frame, Progress.counted, Progress.switch, status]

theorem late_of_shown
    (run : runUntil Loop.stops (Loop.frame backdrop) loop frames = some last)
    (shown : loop.appeared) : last.late = loop.late := by
  induction frames generalizing loop with
  | nil =>
      obtain ⟨_, same⟩ := Option.ite_none_right_eq_some.mp run
      cases same
      rfl
  | cons frame rest ih =>
      obtain ⟨_, run⟩ := Option.ite_none_left_eq_some.mp run
      obtain ⟨still, same⟩ := frame_shown frame (.inl shown)
      exact (ih run still).trans same

/-- A loop that has waited is given up if nothing is seen of the dialog in the
time that is left. -/
theorem late_iff_of_hidden
    (run : runUntil Loop.stops (Loop.frame backdrop) loop frames = some last)
    (hidden : loop.appeared = false) (going : loop.stops = false)
    (time : loop.waiting ≤ 300) :
    last.late ↔ ¬ Opens loop.waiting frames := by
  induction frames generalizing loop with
  | nil =>
      obtain ⟨stopped, _⟩ := Option.ite_none_right_eq_some.mp run
      exact absurd stopped (Bool.eq_false_iff.mp going)
  | cons frame rest ih =>
      obtain ⟨unfinished, early⟩ := Bool.or_eq_false_iff.mp going
      obtain ⟨_, run⟩ := Option.ite_none_left_eq_some.mp run
      by_cases seen : frame.status = .visible
      · obtain ⟨shown, same⟩ := frame_shown frame (.inr seen)
        rw [late_of_shown run shown, same, early]
        rcases Nat.lt_or_eq_of_le time with more | last_pass
        · simp [opens_cons more, seen]
        · simp [last_pass, opens_at_last, seen]
      · have next : (loop.frame backdrop frame).toProgress = _ :=
          frame_hidden hidden seen
        have waited : (loop.frame backdrop frame).waiting = loop.waiting + 1 :=
          congrArg Progress.waiting next
        rcases Nat.lt_or_eq_of_le time with more | last_pass
        · have in_time : (loop.frame backdrop frame).late = false := by
            rw [next]
            simp [early, more]
          rw [opens_cons more, or_iff_right seen]
          by_cases ends : frame.status = .finished
          · have stopped : (loop.frame backdrop frame).stops := by
              unfold Loop.stops
              rw [next]
              simp [ends]
            rw [runUntil_stopped stopped run, in_time]
            simp [ends]
          · have goes_on : (loop.frame backdrop frame).stops = false := by
              unfold Loop.stops
              rw [next]
              simp [unfinished, ends, early, more]
            rw [or_iff_right ends, ← waited]
            apply ih run
            · rw [next]
            · exact goes_on
            · rw [waited]
              exact more
        · have late : (loop.frame backdrop frame).late := by
            rw [next]
            simp [last_pass]
          have stopped : (loop.frame backdrop frame).stops := by
            unfold Loop.stops
            rw [next]
            simp [last_pass]
          rw [runUntil_stopped stopped run, last_pass, opens_at_last]
          exact iff_of_true late seen

theorem late_iff {osk : Osk} (found : frameLoop backdrop osk frames = some last) :
    last.late ↔ ¬ Opens 0 frames :=
  late_iff_of_hidden found rfl rfl (Nat.zero_le _)

end Frames

/-! ## What is left -/

def Script.typed (script : Script) : List Units :=
  script.frames.map (·.text) ++ script.closing.map (·.text)

def Script.left (script : Script) : Units :=
  (script.leftover.map (·.text) ++ script.typed).getLastD 0

/-- The dialog starts, opens, and is confirmed. -/
def Script.Confirms (script : Script) : Prop :=
  ¬ script.started < 0 ∧ Opens 0 script.frames ∧ script.result ≠ .cancelled

section Prompt

variable {outLen : Nat} {prompt initial : Option (List UInt8)} {kind : OskKind}
  {backdrop : Bool} {out : Cells outLen UInt8} {script : Script}
  {osk : Osk} {outcome : Outcome outLen}

/-- A prompt that is confirmed: the text is handed over and wiped. -/
structure HandsOver (out : Cells outLen UInt8) (left : Units)
    (outcome : Outcome outLen) : Prop where
  result : outcome.result = .entered
  out : outcome.out = some (fromUtf16 left out outLen)
  out16 : outcome.osk.out16 = 0
  in16 : outcome.osk.in16 = 0

/-- A prompt that is not: nothing is handed over, and nothing is wiped. -/
structure GivesUp (out : Cells outLen UInt8) (texts : List Units) (osk : Osk)
    (outcome : Outcome outLen) : Prop where
  result : outcome.result ≠ .entered
  out : outcome.out = some out
  after : After texts osk outcome.osk

theorem closePrompt_cases {loop : Loop}
    (returned : closePrompt out script loop = some outcome) :
    (¬ loop.late ∧ script.result ≠ .cancelled ∧ script.closing = [] ∧
        HandsOver out loop.osk.out16 outcome) ∨
      (¬ (¬ loop.late ∧ script.result ≠ .cancelled) ∧
        GivesUp out (script.closing.map (·.text)) loop.osk outcome) := by
  unfold closePrompt at returned
  split_ifs at returned with late closing cancelled
  · obtain ⟨last, waited, rfl⟩ := Option.map_eq_some_iff.mp returned
    have after := awaitNone_after waited
    exact .inr ⟨fun opened => opened.1 late, nofun, rfl, after.in16, after.out16⟩
  · cases returned
    rw [not_not.mp closing]
    exact .inr ⟨fun opened => opened.2 cancelled, nofun, rfl, .refl _⟩
  · cases returned
    exact .inl ⟨late, cancelled, not_not.mp closing, rfl, rfl, rfl, rfl⟩

theorem openPrompt_cases
    (returned : openPrompt kind backdrop out script osk = some outcome) :
    (script.Confirms ∧ HandsOver out (script.typed.getLastD osk.out16) outcome) ∨
      (¬ script.Confirms ∧ GivesUp out script.typed osk outcome) := by
  unfold openPrompt at returned
  split_ifs at returned with refused unused
  · cases returned
    refine .inr ⟨fun confirmed => confirmed.1 refused, nofun, rfl, ?_⟩
    unfold Script.typed
    rw [unused.1, unused.2]
    exact ⟨rfl, rfl⟩
  · obtain ⟨loop, found, closed⟩ := Option.bind_eq_some_iff.mp returned
    have after := frameLoop_after found
    have opens : ¬ loop.late ↔ Opens 0 script.frames := by
      rw [late_iff found, not_not]
    rcases closePrompt_cases closed with ⟨opened, kept, silent, handed⟩ | ⟨failed, left⟩
    · refine .inl ⟨⟨refused, opens.mp opened, kept⟩, ?_⟩
      have text : loop.osk.out16 =
          (script.frames.map (·.text)).getLastD osk.out16 := after.out16
      unfold Script.typed
      rw [silent, List.map_nil, List.append_nil, ← text]
      exact handed
    · refine .inr ⟨?_, left.result, left.out, ?_⟩
      · intro confirmed
        exact failed ⟨opens.mpr confirmed.2.1, confirmed.2.2⟩
      · have all := after.trans left.after
        exact ⟨all.in16, all.out16⟩

/-- What a prompt does that gets as far as its buffers. -/
theorem oskPrompt_cases (room : 2 ≤ outLen)
    (returned : oskPrompt prompt initial kind backdrop (some out) script osk =
      some outcome) :
    (script.Confirms ∧ HandsOver out script.left outcome) ∨
      (¬ script.Confirms ∧
        GivesUp out (script.leftover.map (·.text) ++ script.typed)
          (osk.filled prompt initial) outcome) := by
  have entered : ¬ outLen < 2 := Nat.not_lt.mpr room
  rw [oskPrompt, if_neg entered] at returned
  obtain ⟨drained, waited, opened⟩ := Option.bind_eq_some_iff.mp returned
  have after := drainAnyLeftover_after waited
  have left : script.typed.getLastD drained.out16 = script.left := by
    rw [after.out16, ← getLastD_append]
    rfl
  rcases openPrompt_cases opened with ⟨confirmed, handed⟩ | ⟨refused, kept⟩
  · exact .inl ⟨confirmed, left ▸ handed⟩
  · have all := after.trans kept.after
    exact .inr ⟨refused, kept.result, kept.out, all.in16, all.out16⟩

/-- The static buffers are all zero, and a caller that gets no text has its
buffer as it was. -/
structure KeepsNothing (out : Cells outLen UInt8) (outcome : Outcome outLen) :
    Prop where
  out16 : outcome.osk.out16 = 0
  in16 : outcome.osk.in16 = 0
  out : outcome.result ≠ .entered → outcome.out = some out

/-- The keyboard keeps nothing exactly if its text is confirmed, or if there
was nothing to keep: no text to begin with, none typed, and none from before. -/
theorem keeps_nothing_iff (room : 2 ≤ outLen)
    (returned : oskPrompt prompt initial kind backdrop (some out) script osk =
      some outcome) :
    KeepsNothing out outcome ↔
      script.Confirms ∨
        script.left = 0 ∧ (cString (initial.getD [])).text = [] ∧
          ∀ i, 0 < i.val → osk.in16 i = 0 := by
  rcases oskPrompt_cases room returned with ⟨confirmed, handed⟩ | ⟨refused, left⟩
  · exact iff_of_true
      ⟨handed.out16, handed.in16, fun other => absurd handed.result other⟩
      (.inl confirmed)
  · rw [or_iff_right refused, ← toUtf16_eq_zero_iff]
    have out16 : outcome.osk.out16 = script.left := left.after.out16
    have in16 : outcome.osk.in16 = toUtf16 initial osk.in16 oskMax :=
      left.after.in16
    constructor
    · intro nothing
      exact ⟨out16.symm.trans nothing.out16, in16.symm.trans nothing.in16⟩
    · intro blank
      exact ⟨out16.trans blank.1, in16.trans blank.2, fun _ => left.out⟩

end Prompt

def freshOsk : Osk where
  desc16 := 0
  in16 := 0
  out16 := 0
  failure := emptyField 80
  calls := []

def typing (text : List UInt8) (result : DialogResult) : Script where
  leftover := [⟨.none, 0⟩]
  started := 0
  frames :=
    let typed := toUtf16 (some text) 0 oskMax
    [⟨⟨.init, 0⟩, false, .init⟩, ⟨⟨.visible, typed⟩, false, .visible⟩,
      ⟨⟨.quit, typed⟩, false, .quit⟩, ⟨⟨.finished, typed⟩, false, .finished⟩]
  closing := []
  result := result

theorem keeps_nothing_of_confirmed :
    ∃ outcome : Outcome 64,
      oskPrompt (some (ascii "password")) (some []) .text true (some 0)
        (typing (ascii "hunter2") .changed) freshOsk = some outcome ∧
      KeepsNothing 0 outcome := by
  obtain ⟨outcome, returned⟩ : ∃ outcome : Outcome 64,
      oskPrompt (some (ascii "password")) (some []) .text true (some 0)
        (typing (ascii "hunter2") .changed) freshOsk = some outcome :=
    Option.isSome_iff_exists.mp (by decide +kernel)
  refine ⟨outcome, returned, (keeps_nothing_iff (by decide) returned).mpr ?_⟩
  exact .inl ⟨by decide, by decide +kernel, by decide⟩

/-- A password that is typed and then cancelled stays in the buffer. -/
theorem cancelled_password_stays :
    ∃ outcome : Outcome 64,
      oskPrompt (some (ascii "password")) (some []) .text true (some 0)
        (typing (ascii "hunter2") .cancelled) freshOsk = some outcome ∧
      outcome.osk.out16.text = (ascii "hunter2").map UInt8.toUInt16 ∧
      ¬ KeepsNothing 0 outcome := by
  obtain ⟨outcome, returned⟩ : ∃ outcome : Outcome 64,
      oskPrompt (some (ascii "password")) (some []) .text true (some 0)
        (typing (ascii "hunter2") .cancelled) freshOsk = some outcome :=
    Option.isSome_iff_exists.mp (by decide +kernel)
  have kept : outcome.osk.out16.text = (ascii "hunter2").map UInt8.toUInt16 := by
    rcases oskPrompt_cases (by decide) returned with ⟨confirmed, _⟩ | ⟨_, left⟩
    · exact absurd rfl confirmed.2.2
    · have out16 : outcome.osk.out16 = toUtf16 (some (ascii "hunter2")) 0 oskMax :=
        left.after.out16
      rw [out16]
      exact text_toUtf16 0 (by decide +kernel) (by decide +kernel)
  refine ⟨outcome, returned, kept, fun nothing => ?_⟩
  rw [nothing.out16] at kept
  exact absurd kept (by decide +kernel)

end Pspssh.Keyboard
