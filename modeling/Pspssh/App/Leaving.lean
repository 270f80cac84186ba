import Pspssh.App.Dialled
import Pspssh.App.Main
import Pspssh.Pad.Presses

namespace Pspssh.App

open Pspssh.Data Pspssh.Card Pspssh.Core Pspssh.Hosts Pspssh.Known Pspssh.Menu
open Pspssh.Screen
open Pspssh.Data.Process (Always Guarded Only via)

/-! What the application still does once it is told to leave. -/

/-- The calls that were made since it was told to leave, if it was. Whoever asks
again is told again; whatever else is asked may be answered in any way. -/
def leaving : World AppCall.Result (Option Nat) := fun told op result after =>
  match op, result with
  | .padExitRequested, true => after = some (told.elim 0 (· + 1))
  | .padExitRequested, false => told = none ∧ after = none
  | _, _ => after = told.map (· + 1)

/-- The calls that only show something or put something away. -/
def TidiesUp : AppCall → Prop
  | .statics | .modify _ | .draw _ | .padExitRequested | .uiMessage _ _ _ => True
  | .library .shutdown | .library .free | .library .ctxFree | .library .freeSession
  | .library .cleanup | .close _ | .gfxShutdown | .exitGame => True
  | _ => False

/-- A call that may still be made. A session is closed in 7, the list drawn once
more and left in 52, and the rest is 4. -/
def PutsAway (op : AppCall) (told : Option Nat) : Prop :=
  ∀ made ∈ told, TidiesUp op ∧ made < 64

/-- Not told yet, or at most so many calls ago. -/
def Early (calls : Nat) (told : Option Nat) : Prop :=
  ∀ made ∈ told, made ≤ calls

/-- Any call but the question whether to leave. -/
def Unasking : AppCall → Prop
  | .padExitRequested => False
  | _ => True

theorem early_none {calls : Nat} : Early calls none := by
  intro made told
  cases told

theorem Early.mono {calls more : Nat} {told : Option Nat} (early : Early calls told)
    (le : calls ≤ more) : Early more told :=
  fun made known => (early made known).trans le

theorem Unasking.counted {op : AppCall} {result : op.Result} {told after : Option Nat}
    (plain : Unasking op) (made : leaving told op result after) :
    after = told.map (· + 1) := by
  cases op <;> first | exact made | exact absurd plain id

theorem Early.counted {calls : Nat} {told after : Option Nat} (early : Early calls told)
    (next : after = told.map (· + 1)) : Early (calls + 1) after := by
  subst next
  cases told with
  | none => exact early_none
  | some before =>
      have few : before ≤ calls := early before rfl
      intro made known
      cases known
      exact Nat.succ_le_succ few

/-! ## Rules -/

section Rules

variable {α : Type} {post : α → Option Nat → Prop} {told : Option Nat} {calls : Nat}

/-- A call that may be made whether or not to leave. -/
theorem guarded_tidy {op : AppCall} {next : op.Result → Psp α} (tidies : TidiesUp op)
    (plain : Unasking op) (early : Early calls told) (few : calls < 64)
    (rest : ∀ result after, Early (calls + 1) after →
      Guarded leaving PutsAway post (next result) after) :
    Guarded leaving PutsAway post (call op >>= next) told := by
  refine .call (fun made known => ⟨tidies, (early made known).trans_lt few⟩) ?_
  exact fun result after made => rest result after (early.counted (plain.counted made))

theorem guarded_tidy_last {op : AppCall} (tidies : TidiesUp op) (plain : Unasking op)
    (early : Early calls told) (few : calls < 64) :
    Guarded leaving PutsAway (fun _ => Early (calls + 1)) (call op) told :=
  guarded_tidy tidies plain early few fun _ _ early => .done early

theorem guarded_exitRequested {next : Bool → Psp α} (early : Early calls told)
    (few : calls < 64)
    (leave : ∀ after, Early (calls + 1) after →
      Guarded leaving PutsAway post (next true) after)
    (stay : Guarded leaving PutsAway post (next false) none) :
    Guarded leaving PutsAway post (call .padExitRequested >>= next) told := by
  refine .call (fun made known => ⟨trivial, (early made known).trans_lt few⟩) ?_
  intro asked after made
  cases asked with
  | true =>
      have counted : after = some (told.elim 0 (· + 1)) := made
      refine leave after ?_
      subst counted
      cases told with
      | none =>
          intro made known
          cases known
          exact Nat.zero_le _
      | some before => exact early.counted rfl
  | false =>
      obtain ⟨_, untold⟩ : told = none ∧ after = none := made
      subst untold
      exact stay

end Rules

/-! ## What does not ask -/

section Saving

variable (index : Int)

end Saving

/-! ## The editor -/

section Editing

variable (build : Build) (index : Int)

end Editing

/-! ## The terminal -/

section Terminal

variable (build : Build) (host : HostEntry)

end Terminal

/-! ## The list -/

section Listing

variable (build : Build)

def Looks : UiCall → Prop
  | .hostsCount | .hostsAt _ | .draw _ | .dereferenceNull => True
  | _ => False

variable {told : Option Nat} {calls : Nat}

theorem uiCall_looks {op : UiCall} (looks : Looks op) (early : Early calls told)
    (few : calls < 64) :
    Guarded leaving PutsAway (fun _ => Early (calls + 1)) (uiCall build op) told := by
  cases op with
  | hostsCount =>
      exact guarded_tidy trivial trivial early few fun _ _ early => .done early
  | hostsAt =>
      exact guarded_tidy trivial trivial early few fun _ _ early => .done early
  | draw drawings =>
      have shown : TidiesUp (.draw drawings) := trivial
      exact guarded_tidy_last shown trivial early few
  | dereferenceNull => exact .done (early.mono (Nat.le_succ calls))
  | _ => exact absurd looks id

variable {α : Type} {post : α → Option Nat → Prop}

theorem guarded_look_next {op : UiCall} {next : op.Result → Ui α} (looks : Looks op)
    (early : Early calls told) (few : calls < 64)
    (rest : ∀ result after, Early (calls + 1) after →
      Guarded leaving PutsAway post (via (uiCall build) (next result)) after) :
    Guarded leaving PutsAway post (via (uiCall build) (Menu.ask op >>= next)) told :=
  .bind ((uiCall_looks build looks early few).mono rest)

theorem guarded_look (op : UiCall) (looks : Looks op) (early : Early calls told)
    (few : calls < 64) :
    Guarded leaving PutsAway (fun _ => Early (calls + 1))
      (via (uiCall build) (Menu.ask op)) told :=
  .bind ((uiCall_looks build looks early few).mono fun _ _ early => .done early)

theorem drawRow_leaves (view : View) (count i : Int) (early : Early calls told)
    (few : calls + 3 ≤ 64) :
    Guarded leaving PutsAway (fun _ => Early (calls + 3))
      (via (uiCall build) (drawRow view count i)) told := by
  unfold drawRow
  refine guarded_look_next build trivial early (by omega) fun _ told early => ?_
  split
  · refine (guarded_look build (.draw _) trivial early (by omega)).mono ?_
    exact fun _ _ early => early.mono (by omega)
  refine guarded_look_next build trivial early (by omega) fun found told early => ?_
  cases found with
  | none => exact guarded_look build .dereferenceNull trivial early (by omega)
  | some entry => exact guarded_look build (.draw _) trivial early (by omega)

theorem drawRows_leaves (view : View) (count : Int) (fuel : Nat) (i : Int)
    (early : Early calls told) (few : calls + 3 * fuel ≤ 64) :
    Guarded leaving PutsAway (fun _ => Early (calls + 3 * fuel))
      (via (uiCall build) (drawRows view count fuel i)) told := by
  induction fuel generalizing i calls told with
  | zero => exact .done early
  | succ fuel ih =>
      unfold drawRows
      split
      · rw [Process.via_bind]
        refine .bind ((drawRow_leaves build view count i early (by omega)).mono ?_)
        intro _ told early
        exact (ih (i + 1) early (by omega)).mono fun _ _ early => early.mono (by omega)
      · exact .done (early.mono (by omega))

theorem drawNotice_leaves (count : Int) (early : Early calls told) (few : calls < 64) :
    Guarded leaving PutsAway (fun _ => Early (calls + 1))
      (via (uiCall build) (drawNotice count)) told := by
  unfold drawNotice
  split
  · exact guarded_look build (.draw _) trivial early few
  · exact .done (early.mono (Nat.le_succ calls))

theorem drawList_leaves (view : View) (early : Early calls told)
    (few : calls + 49 ≤ 64) :
    Guarded leaving PutsAway (fun _ => Early (calls + 49))
      (via (uiCall build) (drawList build view)) told := by
  unfold drawList
  refine guarded_look_next build trivial early (by omega) fun count told early => ?_
  refine guarded_look_next build trivial early (by omega) fun _ told early => ?_
  rw [Process.via_bind]
  refine .bind ((drawNotice_leaves build count early (by omega)).mono ?_)
  intro _ told early
  rw [Process.via_bind]
  refine .bind ((drawRows_leaves build view count 15 0 early (by omega)).mono ?_)
  intro _ told early
  unfold drawPosition
  split
  · refine (guarded_look build (.draw _) trivial early (by omega)).mono ?_
    exact fun _ _ early => early.mono (by omega)
  · exact .done (early.mono (by omega))

/-! ## What the list calls once it has asked -/

end Listing

/-! ## The application -/

section Whole

variable (build : Build) (typed : Buffer)

variable [Libc]

end Whole

end Pspssh.App
