import Pspssh.Session.Fingerprint
import Pspssh.Session.State

namespace Pspssh.Session

open Pspssh.Data

/-! Opening a session: attempts to connect with waits in between, until one
succeeds, one fails, or the waits have used up a budget. -/

/-- A host key that the server offers while connecting, with the policy as it
answers then. -/
structure Offer where
  key : List UInt8
  sha : Sha256
  encoded : Buffer
  fingerprint : Buffer
  onHostkey : Option (List UInt8 → List UInt8 → Int)

inductive KeyAnswer where
  | success
  | rejected
deriving DecidableEq

def refuse (session : PspsshSession) (message : List UInt8) :
    KeyAnswer × PspsshSession :=
  (.rejected, setError { session with hostkeyRefused := true } message)

def hostkeyCheck (offer : Offer) (session : PspsshSession) :
    KeyAnswer × PspsshSession :=
  match offer.onHostkey with
  | none =>
      refuse session
        (ascii "no host key policy was supplied, so the key was refused")
  | some onHostkey =>
      let (made, fingerprint) := fingerprintOf offer.sha offer.key
        offer.encoded offer.fingerprint fingerprintLen
      if made ≠ 0 then
        refuse session
          (ascii "the server's host key could not be fingerprinted")
      else if onHostkey (cString (fingerprint.take fingerprintLen)).text
          offer.key = 0 then
        refuse session (ascii "the host key was refused")
      else (.success, session)

inductive Outcome where
  | success
  | failure (error : SshError)
deriving DecidableEq

/-- One call of `wolfSSH_connect`: the keys it has checked and its outcome. -/
structure Attempt where
  offers : List Offer
  outcome : Outcome

def Attempt.check (attempt : Attempt) (session : PspsshSession) : PspsshSession :=
  attempt.offers.foldl (fun session offer => (hostkeyCheck offer session).2)
    session

/-- The outcomes of the attempts and the answers of the waits between them. -/
structure Handshake where
  connect : Nat → Attempt
  onWait : Nat → Int32

/-- How the loop was left: `waited` is the sum of the waits. -/
structure Stopped where
  ret : Outcome
  waited : Int
  session : PspsshSession
  waits : Nat

/-- What a wait counts for: one that reports nothing still costs a turn. -/
def waitCost (slept : Int32) : Int :=
  if 0 < slept.toInt then slept.toInt else 1

theorem one_le_waitCost (slept : Int32) : 1 ≤ waitCost slept := by
  unfold waitCost
  split <;> omega

/-- The loop of `pspssh_open` from its attempt `turn` on. -/
def connectLoop (run : Handshake) (budget : Int) (turn : Nat) (waited : Int)
    (session : PspsshSession) : Stopped :=
  let session := (run.connect turn).check session
  match (run.connect turn).outcome with
  | .success => ⟨.success, waited, session, turn⟩
  | .failure error =>
      if error ≠ .wantRead ∧ error ≠ .wantWrite then
        ⟨.failure error, waited, session, turn⟩
      else
        let waited := waited + waitCost (run.onWait turn)
        if waited < budget then
          connectLoop run budget (turn + 1) waited session
        else ⟨.failure error, waited, session, turn + 1⟩
termination_by (budget - waited).toNat
decreasing_by
  have := one_le_waitCost (run.onWait turn)
  omega

def timeoutText (budget : Int32) : List UInt8 :=
  ascii "the handshake did not finish within " ++ intText budget ++ ascii " ms"

def handshakeBudget (timeoutMs : Int32) : Int32 :=
  if 0 < timeoutMs then timeoutMs else 30000

/-- What `failed:` has to say. -/
def reason (session : PspsshSession) : List UInt8 :=
  if session.error.text = [] then ascii "connection failed"
  else session.error.text

/-- What `pspssh_open` makes of the way the loop was left. -/
def openResult (errorToName : SshError → List UInt8) (budget : Int32)
    (stopped : Stopped) : Except (List UInt8) PspsshSession :=
  match stopped.ret with
  | .success => .ok stopped.session
  | .failure error =>
      if budget.toInt ≤ stopped.waited then
        .error (reason (setError stopped.session (timeoutText budget)))
      else if stopped.session.hostkeyRefused then
        .error (reason stopped.session)
      else .error (reason (setError stopped.session (errorToName error)))

/-- `pspssh_open` once its set-up calls have succeeded. -/
def pspsshOpen (errorToName : SshError → List UInt8) (timeoutMs : Int32)
    (run : Handshake) : Except (List UInt8) PspsshSession :=
  let budget := handshakeBudget timeoutMs
  openResult errorToName budget (connectLoop run budget.toInt 0 0 .fresh)

def report (err : Option Buffer) (errLen : Nat) (text : List UInt8) :
    Option Buffer :=
  err.map fun err => if 0 < errLen then snprintf err errLen text else err

/-! ## Refused keys -/

def refusals : List (List UInt8) :=
  [ascii "no host key policy was supplied, so the key was refused",
    ascii "the server's host key could not be fingerprinted",
    ascii "the host key was refused"]

/-- The key is refused, whatever the session remembers. -/
def Offer.Refused (offer : Offer) : Prop :=
  (hostkeyCheck offer .fresh).1 = .rejected

theorem refused_of {offer : Offer} {message : List UInt8}
    (among : message ∈ refusals)
    (every : ∀ session, hostkeyCheck offer session = refuse session message) :
    offer.Refused ∧ ∃ message ∈ refusals,
      ∀ session, hostkeyCheck offer session = refuse session message :=
  ⟨congrArg Prod.fst (every .fresh), message, among, every⟩

theorem hostkeyCheck_cases (offer : Offer) :
    (¬ offer.Refused ∧
      ∀ session, hostkeyCheck offer session = (.success, session)) ∨
      (offer.Refused ∧ ∃ message ∈ refusals,
        ∀ session, hostkeyCheck offer session = refuse session message) := by
  cases policy : offer.onHostkey with
  | none =>
      refine .inr (refused_of List.mem_cons_self fun session => ?_)
      simp only [hostkeyCheck, policy]
  | some onHostkey =>
      generalize made : fingerprintOf offer.sha offer.key offer.encoded
        offer.fingerprint fingerprintLen = result
      by_cases failed : result.1 ≠ 0
      · refine .inr (refused_of (List.mem_cons_of_mem _ List.mem_cons_self)
          fun session => ?_)
        simp only [hostkeyCheck, policy, made, if_pos failed]
      · by_cases no : onHostkey (cString (result.2.take fingerprintLen)).text
            offer.key = 0
        · refine .inr (refused_of (List.mem_cons_of_mem _
            (List.mem_cons_of_mem _ List.mem_cons_self)) fun session => ?_)
          simp only [hostkeyCheck, policy, made, if_neg failed, if_pos no]
        · have accepted (session : PspsshSession) :
              hostkeyCheck offer session = (.success, session) := by
            simp only [hostkeyCheck, policy, made, if_neg failed, if_neg no]
          refine .inl ⟨fun refused => ?_, accepted⟩
          rw [Offer.Refused, accepted] at refused
          contradiction

theorem refusal_fits : ∀ message ∈ refusals,
    0 ∉ message ∧ message.length < errorLen ∧ message ≠ [] := by
  decide +kernel

theorem refuse_error {message : List UInt8} (among : message ∈ refusals)
    (session : PspsshSession) :
    (refuse session message).2.hostkeyRefused = true ∧
      (refuse session message).2.error.text = message := by
  obtain ⟨noNul, fits, _⟩ := refusal_fits message among
  exact ⟨rfl, copyField_text noNul fits⟩

theorem check_unrefused {attempt : Attempt}
    (none : ∀ offer ∈ attempt.offers, ¬ offer.Refused)
    (session : PspsshSession) : attempt.check session = session := by
  refine List.foldlRecOn attempt.offers _ (motive := (· = session)) rfl ?_
  rintro _ rfl offer member
  rcases hostkeyCheck_cases offer with ⟨_, same⟩ | ⟨refused, _⟩
  · rw [same]
  · exact absurd refused (none offer member)

theorem check_refused {attempt : Attempt}
    (refused : (attempt.check .fresh).hostkeyRefused = true) :
    (attempt.check .fresh).error.text ∈ refusals := by
  have held : attempt.check .fresh = .fresh ∨
      (attempt.check .fresh).error.text ∈ refusals := by
    refine List.foldlRecOn attempt.offers _ (motive := fun session : PspsshSession =>
      session = .fresh ∨ session.error.text ∈ refusals) (.inl rfl) ?_
    intro session held offer _
    rcases hostkeyCheck_cases offer with ⟨_, same⟩ | ⟨_, message, among, same⟩
    · rw [same]
      exact held
    · rw [same, (refuse_error among session).2]
      exact .inr among
  rcases held with same | among
  · rw [same] at refused
    exact absurd refused Bool.false_ne_true
  · exact among

/-! ## The course of the loop -/

def Attempt.AsksToWait (attempt : Attempt) : Prop :=
  attempt.outcome = .failure .wantRead ∨ attempt.outcome = .failure .wantWrite

namespace Handshake

variable (run : Handshake)

def waited (turns : Nat) : Int :=
  ((List.range turns).map fun turn => waitCost (run.onWait turn)).sum

def Reached (budget : Int) (turn : Nat) : Prop :=
  (∀ earlier < turn, (run.connect earlier).AsksToWait) ∧
    run.waited turn < budget

/-- A refused key makes its attempt fail with an error that is no wait. -/
def Surfaces : Prop :=
  ∀ turn, ∀ offer ∈ (run.connect turn).offers, offer.Refused →
    ∃ error, (run.connect turn).outcome = .failure error ∧
      error ≠ .wantRead ∧ error ≠ .wantWrite

@[simp] theorem waited_zero : run.waited 0 = 0 := rfl

theorem waited_succ (turns : Nat) :
    run.waited (turns + 1) = run.waited turns + waitCost (run.onWait turns) := by
  simp [waited, List.range_succ]

theorem le_waited (turns : Nat) : (turns : Int) ≤ run.waited turns := by
  induction turns with
  | zero => exact le_refl 0
  | succ turns ih =>
      have cost := one_le_waitCost (run.onWait turns)
      rw [waited_succ]
      push_cast
      omega

theorem waited_mono : Monotone run.waited := by
  apply monotone_nat_of_le_succ
  intro turns
  have cost := one_le_waitCost (run.onWait turns)
  rw [waited_succ]
  omega

end Handshake

inductive Course (run : Handshake) (budget : Int) : Stopped → Prop where
  | opened {turn : Nat} (reached : run.Reached budget turn)
      (success : (run.connect turn).outcome = .success) :
      Course run budget
        ⟨.success, run.waited turn, (run.connect turn).check .fresh, turn⟩
  | failed {turn : Nat} {error : SshError} (reached : run.Reached budget turn)
      (failure : (run.connect turn).outcome = .failure error)
      (final : error ≠ .wantRead ∧ error ≠ .wantWrite) :
      Course run budget ⟨.failure error, run.waited turn,
        (run.connect turn).check .fresh, turn⟩
  | expired {turn : Nat} {error : SshError} (reached : run.Reached budget turn)
      (asks : (run.connect turn).AsksToWait)
      (spent : budget ≤ run.waited (turn + 1)) :
      Course run budget
        ⟨.failure error, run.waited (turn + 1), .fresh, turn + 1⟩

theorem asked_unrefused {run : Handshake} (surfaces : run.Surfaces) {turn : Nat}
    (asks : (run.connect turn).AsksToWait) :
    ∀ offer ∈ (run.connect turn).offers, ¬ offer.Refused := by
  intro offer member refused
  obtain ⟨error, failure, notRead, notWrite⟩ := surfaces turn offer member refused
  rcases asks with asks | asks
  · exact notRead (Outcome.failure.inj (failure.symm.trans asks))
  · exact notWrite (Outcome.failure.inj (failure.symm.trans asks))

theorem connectLoop_course {run : Handshake} (surfaces : run.Surfaces)
    {budget : Int} {turn : Nat} (reached : run.Reached budget turn) :
    Course run budget
      (connectLoop run budget turn (run.waited turn) .fresh) := by
  induction left : (budget - run.waited turn).toNat using
    Nat.strong_induction_on generalizing turn with
  | h left ih =>
      rw [connectLoop]
      cases outcome : (run.connect turn).outcome with
      | success => exact .opened reached outcome
      | failure error =>
          dsimp only
          split
          · rename_i final
            exact .failed reached outcome final
          · rename_i wait
            have asks : (run.connect turn).AsksToWait := by
              rcases Decidable.not_and_iff_or_not.mp wait with read | write
              · exact .inl (outcome.trans (congrArg _ (not_not.mp read)))
              · exact .inr (outcome.trans (congrArg _ (not_not.mp write)))
            have cost := one_le_waitCost (run.onWait turn)
            rw [check_unrefused (asked_unrefused surfaces asks),
              ← run.waited_succ]
            split
            · rename_i more
              refine ih _ ?_ ⟨?_, more⟩ rfl
              · have next := run.waited_succ turn
                omega
              · intro earlier before
                rcases Nat.lt_succ_iff_lt_or_eq.mp before with before | rfl
                · exact reached.1 earlier before
                · exact asks
            · rename_i spent
              exact .expired reached asks (not_lt.mp spent)

theorem handshakeBudget_pos (timeoutMs : Int32) :
    0 < (handshakeBudget timeoutMs).toInt := by
  unfold handshakeBudget
  split
  · rename_i positive
    exact Int32.lt_iff_toInt_lt.mp positive
  · decide

theorem timeoutText_fits (budget : Int32) :
    0 ∉ timeoutText budget ∧ (timeoutText budget).length < errorLen := by
  constructor
  · intro member
    simp only [timeoutText, List.mem_append] at member
    rcases member with (member | member) | member
    · exact absurd member (by decide +kernel)
    · rcases mem_intText member with dash | digit
      · exact absurd dash (by decide)
      · exact absurd digit (by decide)
    · exact absurd member (by decide +kernel)
  · have short := intText_length budget
    rw [timeoutText, List.length_append, List.length_append]
    have front : (ascii "the handshake did not finish within ").length = 36 := by
      decide +kernel
    have back : (ascii " ms").length = 3 := by decide +kernel
    rw [front, back, errorLen]
    omega

/-! ## What the caller gets -/

theorem reason_setError (session : PspsshSession) {message : List UInt8}
    (noNul : 0 ∉ message) (fits : message.length < errorLen)
    (some : message ≠ []) : reason (setError session message) = message := by
  have kept : (setError session message).error.text = message :=
    copyField_text noNul fits
  rw [reason, kept, if_neg some]

section Results

variable {run : Handshake} {errorToName : SshError → List UInt8}
  {timeoutMs : Int32} {budget : Int}

theorem course (surfaces : run.Surfaces) (timeoutMs : Int32) :
    Course run (handshakeBudget timeoutMs).toInt
      (connectLoop run (handshakeBudget timeoutMs).toInt 0 0 .fresh) :=
  connectLoop_course surfaces
    ⟨fun earlier before => absurd before (Nat.not_lt_zero earlier),
      handshakeBudget_pos timeoutMs⟩

theorem waits_le {stopped : Stopped} (course : Course run budget stopped) :
    (stopped.waits : Int) ≤ budget := by
  cases course with
  | @opened turn reached _ =>
      exact (run.le_waited turn).trans reached.2.le
  | @failed turn _ reached _ _ =>
      exact (run.le_waited turn).trans reached.2.le
  | @expired turn _ reached _ _ =>
      have counted := run.le_waited turn
      have more := reached.2
      push_cast
      omega

theorem reached_le {turn last : Nat} (reached : run.Reached budget turn)
    (stops : ¬ (run.connect last).AsksToWait) : turn ≤ last :=
  not_lt.mp fun behind => stops (reached.1 last behind)

theorem reached_lt {turn turns : Nat} (reached : run.Reached budget turn)
    (spent : budget ≤ run.waited turns) : turn < turns :=
  not_le.mp fun behind =>
    absurd (spent.trans (run.waited_mono behind)) (not_le.mpr reached.2)

theorem success_stops {turn : Nat}
    (success : (run.connect turn).outcome = .success) :
    ¬ (run.connect turn).AsksToWait := by
  simp [Attempt.AsksToWait, success]

theorem failure_stops {turn : Nat} {error : SshError}
    (failure : (run.connect turn).outcome = .failure error)
    (final : error ≠ .wantRead ∧ error ≠ .wantWrite) :
    ¬ (run.connect turn).AsksToWait := by
  simp [Attempt.AsksToWait, failure, final]

/-- A run that asks to wait once more has asked at every turn until then. -/
theorem asks_through {turn other : Nat} (reached : run.Reached budget turn)
    (asks : (run.connect turn).AsksToWait) (before : other < turn + 1) :
    (run.connect other).AsksToWait := by
  rcases Nat.lt_succ_iff_lt_or_eq.mp before with earlier | rfl
  · exact reached.1 other earlier
  · exact asks

theorem openResult_failed {budget : Int32} {turn waits : Nat} {error : SshError}
    {session : PspsshSession} (reached : run.Reached budget.toInt turn) :
    openResult errorToName budget
        ⟨.failure error, run.waited turn, session, waits⟩ =
      .error (if session.hostkeyRefused then reason session
        else reason (setError session (errorToName error))) := by
  simp only [openResult, if_neg (not_le.mpr reached.2)]
  split <;> rfl

theorem openResult_expired {budget : Int32} {turns waits : Nat}
    {error : SshError} (spent : budget.toInt ≤ run.waited turns) :
    openResult errorToName budget
        ⟨.failure error, run.waited turns, .fresh, waits⟩ =
      .error (timeoutText budget) := by
  obtain ⟨noNul, fits⟩ := timeoutText_fits budget
  have some : timeoutText budget ≠ [] := by
    rw [timeoutText, List.append_assoc]
    exact List.append_ne_nil_of_left_ne_nil (by decide +kernel) _
  simp only [openResult, if_pos spent, reason_setError _ noNul fits some]

theorem opened_iff (surfaces : run.Surfaces) :
    (∃ session, pspsshOpen errorToName timeoutMs run = .ok session) ↔
      ∃ turn, run.Reached (handshakeBudget timeoutMs).toInt turn ∧
        (run.connect turn).outcome = .success := by
  have course := course surfaces timeoutMs
  simp only [pspsshOpen]
  generalize connectLoop run _ 0 0 .fresh = stopped at course
  cases course with
  | @opened turn reached success =>
      exact ⟨fun _ => ⟨turn, reached, success⟩, fun _ => ⟨_, rfl⟩⟩
  | @failed turn error reached failure final =>
      rw [openResult_failed reached]
      refine ⟨fun ⟨_, opened⟩ => by contradiction, ?_⟩
      intro ⟨other, reachedOther, success⟩
      have same : other = turn := Nat.le_antisymm
        (reached_le reachedOther (failure_stops failure final))
        (reached_le reached (success_stops success))
      rw [same, failure] at success
      contradiction
  | @expired turn error reached asks spent =>
      rw [openResult_expired spent]
      refine ⟨fun ⟨_, opened⟩ => by contradiction, ?_⟩
      intro ⟨other, reachedOther, success⟩
      have asked := asks_through reached asks (reached_lt reachedOther spent)
      exact absurd asked (success_stops success)

/-- The library has no name that reads like the message of a time-out. -/
def NamesApart (errorToName : SshError → List UInt8) : Prop :=
  ∀ error, ¬ ascii "the handshake did not finish within" <+: errorToName error

theorem timeout_front (budget : Int32) :
    ascii "the handshake did not finish within" <+: timeoutText budget := by
  refine ⟨ascii " " ++ intText budget ++ ascii " ms", ?_⟩
  simp only [timeoutText, ← List.append_assoc]
  rfl

theorem name_ne_timeout (names : NamesApart errorToName) (error : SshError)
    (session : PspsshSession) (budget : Int32) :
    reason (setError session (errorToName error)) ≠ timeoutText budget := by
  intro same
  have front := timeout_front budget
  rw [← same, reason] at front
  split at front
  · exact absurd front (by decide +kernel)
  · refine names error (front.trans ?_)
    exact (List.take_prefix _ _).trans (List.takeWhile_prefix _)

theorem refusal_ne_timeout {message : List UInt8} (among : message ∈ refusals)
    (budget : Int32) : message ≠ timeoutText budget := by
  have apart : ∀ message ∈ refusals,
      ¬ ascii "the handshake did not finish within" <+: message := by
    decide +kernel
  intro same
  exact apart message among (same ▸ timeout_front budget)

theorem reason_refused {attempt : Attempt}
    (refused : (attempt.check .fresh).hostkeyRefused = true) :
    reason (attempt.check .fresh) = (attempt.check .fresh).error.text :=
  if_neg (refusal_fits _ (check_refused refused)).2.2

theorem timed_out_iff (surfaces : run.Surfaces)
    (names : NamesApart errorToName) :
    pspsshOpen errorToName timeoutMs run =
        .error (timeoutText (handshakeBudget timeoutMs)) ↔
      ∃ turns, (∀ turn < turns, (run.connect turn).AsksToWait) ∧
        (handshakeBudget timeoutMs).toInt ≤ run.waited turns := by
  have course := course surfaces timeoutMs
  simp only [pspsshOpen]
  generalize connectLoop run _ 0 0 .fresh = stopped at course
  cases course with
  | @opened turn reached success =>
      refine ⟨fun timedOut => by contradiction, fun ⟨turns, asked, spent⟩ => ?_⟩
      exact absurd (asked turn (reached_lt reached spent)) (success_stops success)
  | @failed turn error reached failure final =>
      rw [openResult_failed reached]
      refine ⟨fun timedOut => ?_, fun ⟨turns, asked, spent⟩ => ?_⟩
      · have same := Except.error.inj timedOut
        split at same
        · rename_i refused
          rw [reason_refused refused] at same
          exact absurd same (refusal_ne_timeout (check_refused refused) _)
        · exact absurd same (name_ne_timeout names error _ _)
      · exact absurd (asked turn (reached_lt reached spent))
          (failure_stops failure final)
  | @expired turn error reached asks spent =>
      rw [openResult_expired spent]
      exact ⟨fun _ => ⟨turn + 1, fun _ => asks_through reached asks, spent⟩,
        fun _ => rfl⟩

theorem refusal_reported (surfaces : run.Surfaces) {turn : Nat}
    (reached : run.Reached (handshakeBudget timeoutMs).toInt turn)
    (refused : ((run.connect turn).check .fresh).hostkeyRefused = true) :
    pspsshOpen errorToName timeoutMs run =
      .error ((run.connect turn).check .fresh).error.text := by
  obtain ⟨offer, member, rejected⟩ : ∃ offer ∈ (run.connect turn).offers,
      offer.Refused := by
    by_contra none
    push Not at none
    rw [check_unrefused none] at refused
    exact Bool.false_ne_true refused
  obtain ⟨error, failure, final⟩ := surfaces turn offer member rejected
  have stops := failure_stops failure final
  have course := course surfaces timeoutMs
  simp only [pspsshOpen]
  generalize connectLoop run _ 0 0 .fresh = stopped at course
  cases course with
  | @opened last reachedLast success =>
      have same : turn = last := Nat.le_antisymm
        (reached_le reached (success_stops success)) (reached_le reachedLast stops)
      rw [← same, failure] at success
      contradiction
  | @failed last error reachedLast failed finalLast =>
      have same : turn = last := Nat.le_antisymm
        (reached_le reached (failure_stops failed finalLast))
        (reached_le reachedLast stops)
      rw [openResult_failed reachedLast, ← same, if_pos refused,
        reason_refused refused]
  | @expired last error reachedLast asks spent =>
      have asked := asks_through reachedLast asks (reached_lt reached spent)
      exact absurd asked stops

theorem reason_noNul (session : PspsshSession) : 0 ∉ reason session := by
  unfold reason
  split
  · decide +kernel
  · exact session.error.noNul

theorem openResult_noNul {budget : Int32} {stopped : Stopped} {text : List UInt8}
    (failed : openResult errorToName budget stopped = .error text) :
    0 ∉ text := by
  unfold openResult at failed
  split at failed
  · contradiction
  · split_ifs at failed <;>
      exact Except.error.inj failed ▸ reason_noNul _

theorem report_text {text : List UInt8} (noNul : 0 ∉ text) {errLen : Nat}
    (room : 0 < errLen) (err : Buffer) :
    ∃ after, report (some err) errLen text = some after ∧
      (cString (after.take errLen)).text = text.take (errLen - 1) := by
  refine ⟨snprintf err errLen text, ?_, ?_⟩
  · simp only [report, Option.map_some, if_pos room]
  refine cString_copy (fun member => noNul (List.mem_of_mem_take member)) ?_ err
  rw [List.length_take]
  omega

end Results

theorem handshake_bounded_and_reported {run : Handshake}
    {errorToName : SshError → List UInt8} (timeoutMs : Int32)
    (surfaces : run.Surfaces) (names : NamesApart errorToName) :
    ((connectLoop run (handshakeBudget timeoutMs).toInt 0 0 .fresh).waits : Int) ≤
        (handshakeBudget timeoutMs).toInt ∧
      ((∃ session, pspsshOpen errorToName timeoutMs run = .ok session) ↔
        ∃ turn, run.Reached (handshakeBudget timeoutMs).toInt turn ∧
          (run.connect turn).outcome = .success) ∧
      (pspsshOpen errorToName timeoutMs run =
          .error (timeoutText (handshakeBudget timeoutMs)) ↔
        ∃ turns, (∀ turn < turns, (run.connect turn).AsksToWait) ∧
          (handshakeBudget timeoutMs).toInt ≤ run.waited turns) ∧
      (∀ turn, run.Reached (handshakeBudget timeoutMs).toInt turn →
        ((run.connect turn).check .fresh).hostkeyRefused = true →
        ((run.connect turn).check .fresh).error.text ∈ refusals ∧
        pspsshOpen errorToName timeoutMs run =
          .error ((run.connect turn).check .fresh).error.text) ∧
      ∀ text err errLen, pspsshOpen errorToName timeoutMs run = .error text →
        0 < errLen → ∃ after, report (some err) errLen text = some after ∧
          (cString (after.take errLen)).text = text.take (errLen - 1) := by
  refine ⟨waits_le (course surfaces timeoutMs), opened_iff surfaces,
    timed_out_iff surfaces names, ?_, ?_⟩
  · intro turn reached refused
    exact ⟨check_refused refused, refusal_reported surfaces reached refused⟩
  · intro text err errLen failed room
    exact report_text (openResult_noNul failed) room err

def keyWithoutPolicy : Handshake where
  connect turn :=
    if turn = 0 then ⟨[], .failure .wantRead⟩
    else
      ⟨[⟨[], ⟨0, fun _ => 0, fun _ => (0, .replicate 32 0)⟩, fun _ => 0, fun _ => 0,
        none⟩], .failure (.other (-1000))⟩
  onWait _ := 0

theorem key_without_policy_reported :
    pspsshOpen (fun _ => ascii "unknown error code") 0 keyWithoutPolicy =
      .error (ascii "no host key policy was supplied, so the key was refused") := by
  have surfaces : keyWithoutPolicy.Surfaces := by
    intro turn offer member _
    rcases turn with _ | turn
    · exact absurd member List.not_mem_nil
    · exact ⟨_, rfl, by decide, by decide⟩
  have names : NamesApart fun _ => ascii "unknown error code" := by
    intro error
    have apart : ¬ ascii "the handshake did not finish within" <+:
        ascii "unknown error code" := by
      decide +kernel
    exact apart
  have reached : keyWithoutPolicy.Reached (handshakeBudget 0).toInt 1 := by
    refine ⟨fun earlier before => ?_, by decide⟩
    rw [Nat.lt_one_iff.mp before]
    exact .inl rfl
  have reported := (handshake_bounded_and_reported 0 surfaces names).2.2.2.1
    1 reached (by decide)
  exact reported.2.trans (congrArg Except.error (by decide +kernel))

end Pspssh.Session
