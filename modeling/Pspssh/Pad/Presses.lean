import Pspssh.Pad.Buttons

namespace Pspssh.Pad

open Pspssh.Data Pspssh.Screen
open Pspssh.Data.Process (Ends Guarded)

/-! A press is read once: it answers one dialog and not the one behind it. -/

/-- The samples so far, each with the frame on the screen when it was taken, the
frame that is there now, and whether the system has asked to be left. -/
structure Player where
  samples : List (UInt32 × List Drawing)
  frame : List Drawing
  exited : Bool

def Player.fresh : Player := ⟨[], [], false⟩

/-- Any buttons may be down at any time. -/
def playing : World PadCall.Result Player := fun before op result after =>
  match op, result with
  | .peek, buttons =>
      after = { before with samples := before.samples ++ [(buttons, before.frame)] }
  | .draw drawings, _ => after = { before with frame := drawings }
  | .exitAsked, asked => after = { before with exited := before.exited || asked }
  | _, _ => after = before

def Player.last (player : Player) : UInt32 :=
  (player.samples.map Prod.fst).getLastD 0

/-- The buttons that went down with each sample, and the frame they were pressed
at. -/
def downs : UInt32 → List (UInt32 × List Drawing) → List (UInt32 × List Drawing)
  | _, [] => []
  | previous, (now, frame) :: rest => (now &&& ~~~previous, frame) :: downs now rest

def Player.presses (player : Player) (kind : UInt32 × List Drawing → Bool) : Nat :=
  (downs 0 player.samples).countP kind

theorem downs_append (previous : UInt32) (samples more : List (UInt32 × List Drawing)) :
    downs previous (samples ++ more) =
      downs previous samples ++
        downs ((samples.map Prod.fst).getLastD previous) more := by
  induction samples generalizing previous with
  | nil => rfl
  | cons first rest ih =>
      obtain ⟨now, frame⟩ := first
      rw [List.cons_append, downs, downs, ih, List.cons_append, List.map_cons,
        List.getLastD_cons]

/-- The variables of the pad agree with the samples that were taken. -/
structure Follows (pad : PadState) (player : Player) : Prop where
  previous : pad.previous = player.last
  started : pad.started = false → player.samples = []

theorem follows_fresh : Follows .fresh .fresh :=
  ⟨rfl, fun _ => rfl⟩

/-- From one state to another nothing but samples was taken and frames drawn. -/
structure Later (before after : Player) : Prop where
  samples : before.samples <+: after.samples
  exited : before.exited = true → after.exited = true

theorem Later.refl (player : Player) : Later player player :=
  ⟨List.prefix_rfl, id⟩

theorem Later.trans {first second third : Player} (before : Later first second)
    (after : Later second third) : Later first third :=
  ⟨before.samples.trans after.samples, fun exited =>
    after.exited (before.exited exited)⟩

theorem Later.presses {before after : Player} (later : Later before after)
    (kind : UInt32 × List Drawing → Bool) :
    before.presses kind ≤ after.presses kind := by
  obtain ⟨more, same⟩ := later.samples
  rw [Player.presses, Player.presses, ← same, downs_append, List.countP_append]
  exact Nat.le_add_right _ _

/-! ## One sample -/

section Steps

structure Sampled (player : Player) (pressed : UInt32) (after : PadState)
    (then_ : Player) : Prop where
  follows : Follows after then_
  taken : ∃ now, pressed = now &&& ~~~player.last ∧ after.held = now ∧
    then_ = { player with samples := player.samples ++ [(now, player.frame)] }

variable {pad : PadState} {player : Player}

theorem padPressed_sampled (follows : Follows pad player) :
    Guarded playing (fun _ _ => True)
      (fun result after => Sampled player result.1 result.2 after)
      (padPressed pad) player := by
  have peeks {pad : PadState} (follows : Follows pad player)
    (started : pad.started = true) :
      Guarded playing (fun _ _ => True)
        (fun result after => Sampled player result.1 result.2 after)
        (do
          let now ← call .peek
          pure (now &&& ~~~pad.previous, { pad with previous := now, held := now }))
        player := by
    refine .call trivial fun now after made => .done ?_
    have did : after =
      { player with samples := player.samples ++ [(now, player.frame)] } := made
    subst did
    refine ⟨⟨?_, fun other => absurd (started.symm.trans other) nofun⟩, now, ?_,
      rfl, rfl⟩
    · simp [Player.last]
    · rw [follows.previous]
  unfold padPressed
  split
  · rename_i unstarted
    have unstarted : pad.started = false := by simpa using unstarted
    refine .bind ?_
    unfold padInit
    rw [unstarted]
    refine .call trivial fun _ after made => .done ?_
    have same : after = player := made
    subst same
    have ready : Follows { pad with started := true, previous := 0 } after := by
      refine ⟨?_, fun other => nomatch other⟩
      rw [Player.last, follows.started unstarted]
      rfl
    exact peeks ready rfl
  · rename_i started
    exact .bind (.done (peeks follows (by simpa using started)))

theorem Sampled.later {pressed : UInt32} {after : PadState} {then_ : Player}
    (sampled : Sampled player pressed after then_) : Later player then_ := by
  obtain ⟨now, _, _, rfl⟩ := sampled.taken
  exact ⟨List.prefix_append _ _, id⟩

theorem Sampled.counts {pressed : UInt32} {after : PadState} {then_ : Player}
    (sampled : Sampled player pressed after then_)
    {kind : UInt32 × List Drawing → Bool}
    (counted : kind (pressed, player.frame) = true) :
    player.presses kind + 1 ≤ then_.presses kind := by
  obtain ⟨now, rfl, _, rfl⟩ := sampled.taken
  rw [Player.presses, Player.presses, downs_append, List.countP_append]
  refine Nat.add_le_add_left (Nat.le_of_eq ?_) _
  change 1 = [(now &&& ~~~player.last, player.frame)].countP kind
  rw [List.countP_cons_of_pos counted]
  rfl

/-- The button is let go, or it was waited for long enough; whatever was pressed
meanwhile is gone. -/
theorem waitForRelease_waited (follows : Follows pad player) :
    Guarded playing (fun _ _ => True)
      (fun result after => Follows result after ∧ Later player after ∧
        after.frame = player.frame ∧
        after.samples.length ≤ player.samples.length + 60 ∧
        (result.held = 0 ∨ after.samples.length = player.samples.length + 60))
      (waitForRelease pad) player := by
  refine .iterate (fun (memory : Nat × PadState) state =>
    Follows memory.2 state ∧ Later player state ∧ state.frame = player.frame ∧
      memory.1 ≤ 60 ∧ state.samples.length = player.samples.length + memory.1)
    ⟨follows, .refl player, rfl, Nat.zero_le _, rfl⟩ ?_
  rintro ⟨frames, pad⟩ state ⟨follows, later, frame, few, length⟩
  dsimp only at follows few length ⊢
  split
  · rename_i held
    refine .bind ((padPressed_sampled follows).mono ?_)
    rintro ⟨pressed, pad⟩ after sampled
    refine .call trivial fun _ then_ made => .done ?_
    have same : then_ = after := made
    subst same
    have later := later.trans sampled.later
    obtain ⟨follows, now, _, _, rfl⟩ := sampled
    refine ⟨follows, later, frame, held.2, ?_⟩
    rw [List.length_append, length]
    rfl
  · rename_i done
    refine .done ⟨follows, later, frame, by omega, ?_⟩
    rcases not_and_or.mp done with released | long
    · exact .inl (not_not.mp released)
    · exact .inr (by omega)

end Steps

/-! ## One dialog -/

/-- A press that says yes to the question that is on the screen. -/
def saysYes (build : Build) (question : List UInt8) (detail : Option (List UInt8)) :
    UInt32 × List Drawing → Bool := fun (down, frame) =>
  down &&& ctrlCross ≠ 0 ∧ down &&& ctrlCircle = 0 ∧
    frame = confirmFrame build question detail

def ends : UInt32 × List Drawing → Bool := fun (down, _) =>
  down &&& (ctrlCross ||| ctrlCircle) ≠ 0

theorem ends_iff {down : UInt32} {frame : List Drawing} :
    ends (down, frame) = true ↔
      down &&& ctrlCross ≠ 0 ∨ down &&& ctrlCircle ≠ 0 := by
  have both : down &&& (ctrlCross ||| ctrlCircle) =
      (down &&& ctrlCross) ||| (down &&& ctrlCircle) := by
    rw [← UInt32.toBitVec_inj]
    exact BitVec.and_or_distrib_left
  rw [ends, decide_eq_true_iff, both, ne_eq, UInt32.or_eq_zero_iff, not_and_or]

section Dialogs

variable {pad : PadState} {player : Player} (build : Build)

/-- A dialog took a press of its own, unless the system has asked to be left. -/
structure Ended (player : Player) (pad : PadState) (after : Player) : Prop where
  follows : Follows pad after
  later : Later player after
  press : after.exited = true ∨ player.presses ends + 1 ≤ after.presses ends

theorem Ended.waited {after last : Player} {later_pad : PadState}
    (ended : Ended player pad after) (follows : Follows later_pad last)
    (later : Later after last) : Ended player later_pad last where
  follows := follows
  later := ended.later.trans later
  press := ended.press.imp later.exited fun more => more.trans (later.presses ends)

theorem uiMessage_ended (title : List UInt8) (detail : Option (List UInt8))
    (colour : UInt32) (follows : Follows pad player) :
    Guarded playing (fun _ _ => True) (fun pad after => Ended player pad after)
      (uiMessage build title detail colour pad) player := by
  refine .bind ((waitForRelease_waited follows).mono ?_)
  rintro pad state ⟨follows, later, _⟩
  refine .bind (Guarded.mono (.iterate (fun pad state =>
    Follows pad state ∧ Later player state) ⟨follows, later⟩ ?_)
    (fun pad state (ended : Ended player pad state) =>
      (waitForRelease_waited ended.follows).mono fun pad last waited =>
        ended.waited waited.1 waited.2.1))
  rintro pad state ⟨follows, later⟩
  refine .ask trivial fun _ drawn made => ?_
  have did : drawn =
    { state with frame := messageFrame build title detail colour } := made
  subst did
  have follows : Follows pad
      { state with frame := messageFrame build title detail colour } :=
    ⟨follows.previous, follows.started⟩
  refine .bind ((padPressed_sampled follows).mono ?_)
  rintro ⟨pressed, pad⟩ after sampled
  have onward : Later player after :=
    later.trans ⟨sampled.later.samples, sampled.later.exited⟩
  dsimp only
  split
  · rename_i ending
    have press : player.presses ends + 1 ≤ after.presses ends :=
      (Nat.add_le_add_right (later.presses ends) 1).trans
        (sampled.counts (decide_eq_true ending))
    have ended : Ended player pad after := ⟨sampled.follows, onward, .inr press⟩
    exact .done ended
  refine .ask trivial fun asked then_ made => ?_
  have did : then_ = { after with exited := after.exited || asked } := made
  subst did
  have follows : Follows pad { after with exited := after.exited || asked } :=
    ⟨sampled.follows.previous, sampled.follows.started⟩
  have onward : Later player { after with exited := after.exited || asked } :=
    ⟨onward.samples, fun exited =>
      Bool.or_eq_true_iff.mpr (.inl (onward.exited exited))⟩
  split
  · rename_i leaving
    have ended : Ended player pad { after with exited := after.exited || asked } :=
      ⟨follows, onward, .inl (Bool.or_eq_true_iff.mpr (.inr leaving))⟩
    exact .done ended
  · exact .done ⟨follows, onward⟩

/-- A question, which is answered with yes by a press of its own as well. -/
theorem uiConfirm_ended (question : List UInt8) (detail : Option (List UInt8))
    (follows : Follows pad player) :
    Guarded playing (fun _ _ => True)
      (fun result after => Ended player result.2 after ∧
        (result.1 = true →
          player.presses (saysYes build question detail) + 1 ≤
            after.presses (saysYes build question detail)))
      (uiConfirm build question detail pad) player := by
  refine .bind ((waitForRelease_waited follows).mono ?_)
  rintro pad state ⟨follows, later, _⟩
  refine .iterate (fun pad state => Follows pad state ∧ Later player state)
    ⟨follows, later⟩ ?_
  rintro pad state ⟨follows, later⟩
  refine .ask trivial fun _ drawn made => ?_
  have did : drawn = { state with frame := confirmFrame build question detail } := made
  subst did
  have follows : Follows pad
      { state with frame := confirmFrame build question detail } :=
    ⟨follows.previous, follows.started⟩
  refine .bind ((padPressed_sampled follows).mono ?_)
  rintro ⟨pressed, pad⟩ after sampled
  have onward : Later player after :=
    later.trans ⟨sampled.later.samples, sampled.later.exited⟩
  refine .ask trivial fun asked then_ made => ?_
  have did : then_ = { after with exited := after.exited || asked } := made
  subst did
  have follows : Follows pad { after with exited := after.exited || asked } :=
    ⟨sampled.follows.previous, sampled.follows.started⟩
  have onward : Later player { after with exited := after.exited || asked } :=
    ⟨onward.samples, fun exited =>
      Bool.or_eq_true_iff.mpr (.inl (onward.exited exited))⟩
  -- what a press of a kind adds, and the wait that all three ways out end with
  have counts {kind : UInt32 × List Drawing → Bool}
      (counted : kind (pressed, confirmFrame build question detail) = true) :
      player.presses kind + 1 ≤ after.presses kind :=
    (Nat.add_le_add_right (later.presses kind) 1).trans (sampled.counts counted)
  have leave (answer : Bool)
      (press : asked = true ∨
        ends (pressed, confirmFrame build question detail) = true)
      (yes : answer = true →
        saysYes build question detail
          (pressed, confirmFrame build question detail) = true) :
      Guarded playing (fun _ _ => True)
        (Sum.elim (fun pad state => Follows pad state ∧ Later player state)
          fun result after => Ended player result.2 after ∧
            (result.1 = true →
              player.presses (saysYes build question detail) + 1 ≤
                after.presses (saysYes build question detail)))
        (do
          let pad ← waitForRelease pad
          pure (.inr (answer, pad)))
            { after with exited := after.exited || asked } := by
    have ended : Ended player pad { after with exited := after.exited || asked } :=
      ⟨follows, onward, press.imp (fun asked => Bool.or_eq_true_iff.mpr (.inr asked))
        counts⟩
    refine .bind ((waitForRelease_waited follows).mono ?_)
    rintro pad last ⟨follows, later, _⟩
    exact .done ⟨ended.waited follows later,
      fun answered => (counts (yes answered)).trans (later.presses _)⟩
  split
  · rename_i leaving
    exact leave false (.inl leaving) nofun
  split
  · rename_i circle
    exact leave false (.inr (ends_iff.mpr (.inr circle))) nofun
  rename_i uncircled
  split
  · rename_i cross
    refine leave true (.inr (ends_iff.mpr (.inl cross))) fun _ => ?_
    exact decide_eq_true ⟨cross, not_not.mp uncircled, rfl⟩
  · exact .done ⟨follows, onward⟩

end Dialogs

/-! ## Any number of them -/

inductive PadUse where
  | pressed
  | message (title : List UInt8) (detail : Option (List UInt8)) (colour : UInt32)
  | confirm (question : List UInt8) (detail : Option (List UInt8))
  deriving DecidableEq

def PadUse.IsDialog : PadUse → Bool
  | .pressed => false
  | .message _ _ _ => true
  | .confirm _ _ => true

section Uses

variable (build : Build)

def PadUse.run (pad : PadState) : PadUse → Buttons (Bool × PadState)
  | .pressed => do
      let (_, pad) ← padPressed pad
      pure (false, pad)
  | .message title detail colour => do
      let pad ← uiMessage build title detail colour pad
      pure (false, pad)
  | .confirm question detail => uiConfirm build question detail pad

def useAll : List PadUse → PadState → Buttons (List (PadUse × Bool) × PadState)
  | [], pad => pure ([], pad)
  | first :: rest, pad => do
      let (answer, pad) ← first.run build pad
      let (answers, pad) ← useAll rest pad
      pure ((first, answer) :: answers, pad)

variable {pad : PadState} {player : Player}

theorem run_ended (first : PadUse) (question : List UInt8)
    (detail : Option (List UInt8)) (follows : Follows pad player) :
    Guarded playing (fun _ _ => True)
      (fun result after => Follows result.2 after ∧ Later player after ∧
        (first.IsDialog = true →
          after.exited = true ∨ player.presses ends + 1 ≤ after.presses ends) ∧
        ((first, result.1) = (.confirm question detail, true) →
          player.presses (saysYes build question detail) + 1 ≤
            after.presses (saysYes build question detail)))
      (first.run build pad) player := by
  cases first with
  | pressed =>
      refine .bind ((padPressed_sampled follows).mono ?_)
      rintro ⟨pressed, pad⟩ after sampled
      exact .done ⟨sampled.follows, sampled.later, nofun, nofun⟩
  | message title text colour =>
      refine .bind ((uiMessage_ended build title text colour follows).mono ?_)
      intro pad after ended
      exact .done ⟨ended.follows, ended.later, fun _ => ended.press, nofun⟩
  | confirm asked note =>
      refine (uiConfirm_ended build asked note follows).mono ?_
      rintro ⟨answer, pad⟩ after ⟨ended, yes⟩
      refine ⟨ended.follows, ended.later, fun _ => ended.press, fun same => ?_⟩
      cases same
      exact yes rfl

/-- However the dialogs and the reads follow one another, each dialog took a press
of its own, unless the system has asked to be left; and each yes to a question a
press of the cross that was made while the question was on the screen. -/
theorem one_press_one_answer (uses : List PadUse) (question : List UInt8)
    (detail : Option (List UInt8)) :
    Ends playing (useAll build uses .fresh) .fresh fun result after =>
      (after.exited = true ∨ uses.countP PadUse.IsDialog ≤ after.presses ends) ∧
        result.1.count (.confirm question detail, true) ≤
          after.presses (saysYes build question detail) := by
  have spends {pad : PadState} {player : Player} (follows : Follows pad player) :
      Guarded playing (fun _ _ => True)
        (fun result after => Later player after ∧
          (after.exited = true ∨
            player.presses ends + uses.countP PadUse.IsDialog ≤ after.presses ends) ∧
          player.presses (saysYes build question detail) +
              result.1.count (.confirm question detail, true) ≤
            after.presses (saysYes build question detail))
        (useAll build uses pad) player := by
    induction uses generalizing pad player with
    | nil => exact .done ⟨.refl player, .inr (le_refl _), le_refl _⟩
    | cons first rest ih =>
        refine .bind ((run_ended build first question detail follows).mono ?_)
        rintro ⟨answer, pad⟩ middle ⟨follows, later, dialog, yes⟩
        refine .bind ((ih follows).mono ?_)
        rintro ⟨answers, pad⟩ after ⟨onward, dialogs, answered⟩
        refine .done ⟨later.trans onward, ?_, ?_⟩
        · rw [List.countP_cons]
          rcases dialogs with exited | dialogs
          · exact .inl exited
          by_cases isDialog : first.IsDialog = true
          · rw [if_pos isDialog]
            rcases dialog isDialog with exited | more
            · exact .inl (onward.exited exited)
            · exact .inr (by omega)
          · rw [if_neg isDialog]
            have := later.presses ends
            exact .inr (by omega)
        · rw [List.count_cons]
          dsimp only at yes answered
          split
          · rename_i same
            have := yes (beq_iff_eq.mp same)
            omega
          · have := later.presses (saysYes build question detail)
            omega
  intro result after run
  obtain ⟨_, dialogs, yes⟩ := (spends follows_fresh).returns result after run
  have nothing (kind : UInt32 × List Drawing → Bool) :
    Player.fresh.presses kind = 0 := rfl
  rw [nothing, Nat.zero_add] at dialogs yes
  exact ⟨dialogs, yes⟩

end Uses

/-! ## Once the system wants to be left -/

/-- The calls that were made. Whoever asks is told to leave, and any buttons may be
down. -/
def told : World PadCall.Result Nat := fun made op result after =>
  match op, result with
  | .exitAsked, asked => asked = true ∧ after = made + 1
  | _, _ => after = made + 1

section Told

variable {made limit : Nat} {pad : PadState}

end Told

end Pspssh.Pad
