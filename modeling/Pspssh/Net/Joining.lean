import Mathlib.Data.List.ModifyLast
import Pspssh.Net.Radio

namespace Pspssh.Net

open Pspssh.Data Pspssh.Data.Process

/-! Each connection is tried from a radio at rest, in order, and for so long. -/

/-! ## The radio -/

/-- One attempt: how often the radio was asked, how long was waited, and whether it
has ever said that there is an address. -/
structure Effort where
  id : Nat
  polls : Nat
  waited : Nat
  addressed : Bool

/-- The connections that are saved, whether there is a stack, the connection that
the radio was told to join, what it said last, whether the application is to be
left, and the attempts so far. -/
structure Air where
  saved : Nat → Bool
  stack : Bool
  joining : Option Nat
  said : Int
  leaving : Bool
  attempts : List Effort

def Air.silent (saved : Nat → Bool) : Air where
  saved := saved
  stack := false
  joining := none
  said := 0
  leaving := false
  attempts := []

def Effort.wait (micros : Nat) (effort : Effort) : Effort :=
  { effort with waited := effort.waited + micros }

def Effort.poll (state : Int) (effort : Effort) : Effort :=
  { effort with
    polls := effort.polls + 1
    addressed := effort.addressed || decide (state = 4) }

/-- What a call does to the radio; any other call may come to anything. -/
def onAir : World RadioCall.Result Air :=
  fun before op result after =>
    match op, result with
    | .exitRequested, asked =>
        (before.leaving = true → asked = true) ∧
          after = { before with leaving := asked }
    | .delay micros, _ =>
        after = { before with attempts := before.attempts.modifyLast (.wait micros) }
    | .inetInit, err =>
        after = { before with stack := before.stack || decide (err = 0) }
    | .checkNetParam id, err => (err = 0 ↔ before.saved id = true) ∧ after = before
    | .apctlConnect id, err =>
        after =
          { before with
            attempts := before.attempts ++ [⟨id, 0, 0, false⟩]
            joining := if err = 0 then some id else before.joining
            said := 0 }
    | .apctlGetState, (_, state) =>
        after =
          { before with
            said := state
            attempts := before.attempts.modifyLast (.poll state) }
    | .apctlDisconnect, _ => after = { before with joining := none, said := 0 }
    | _, _ => after = before

/-- A connection is started when it is saved and the radio is at rest, asked after
when it was started, and broken off when it was started and has no address. -/
def Orderly : RadioCall → Air → Prop
  | .apctlConnect id, air =>
      air.stack = true ∧ air.saved id = true ∧ air.joining = none
  | .apctlGetState, air => air.joining.isSome = true ∧ air.said ≠ 4
  | .apctlDisconnect, air => air.joining.isSome = true ∧ air.said ≠ 4
  | _, _ => True

section Rules

variable {α : Type} {post : α → Air → Prop} {air : Air} {next : Unit → Radio α}

theorem guarded_print {text : List UInt8}
    (rest : Guarded onAir Orderly post (next ()) air) :
    Guarded onAir Orderly post (print text >>= next) air := by
  refine .ask trivial fun _ after made => ?_
  have same : after = air := made
  rw [same]
  exact rest

theorem guarded_print_last {text : List UInt8} {post : Unit → Air → Prop}
    (holds : post () air) :
    Guarded onAir Orderly post (print text) air := by
  refine .call trivial fun _ after made => .done ?_
  have same : after = air := made
  rw [same]
  exact holds

theorem guarded_delay {micros : Nat}
    (rest : Guarded onAir Orderly post (next ())
      { air with attempts := air.attempts.modifyLast (.wait micros) }) :
    Guarded onAir Orderly post (call (.delay micros) >>= next) air := by
  refine .ask trivial fun _ after made => ?_
  have did : after =
    { air with attempts := air.attempts.modifyLast (.wait micros) } := made
  rw [did]
  exact rest

theorem guarded_exitRequested {next : Bool → Radio α}
    (rest : ∀ asked, (air.leaving = true → asked = true) →
      Guarded onAir Orderly post (next asked) { air with leaving := asked }) :
    Guarded onAir Orderly post (call .exitRequested >>= next) air := by
  refine .ask trivial fun asked after made => ?_
  obtain ⟨stays, did⟩ := made
  rw [did]
  exact rest asked stays

end Rules

/-! ## What was tried -/

/-- Half a minute and half a second, and the questions that fit in there. -/
structure Effort.Brief (effort : Effort) : Prop where
  polls : effort.polls ≤ 600
  waited : effort.waited ≤ 30500000

/-- Between two states these attempts were made, each within its limits. -/
structure Tried (before : Air) (efforts : List Effort) (after : Air) : Prop where
  saved : after.saved = before.saved
  stack : before.stack = true → after.stack = true
  leaving : before.leaving = true → after.leaving = true
  attempts : after.attempts = before.attempts ++ efforts
  brief : ∀ effort ∈ efforts, effort.Brief

namespace Tried

variable {first second third : Air} {efforts more : List Effort}

theorem refl (air : Air) : Tried air [] air where
  saved := rfl
  stack := id
  leaving := id
  attempts := (List.append_nil _).symm
  brief := fun _ member => absurd member List.not_mem_nil

theorem trans (before : Tried first efforts second) (after : Tried second more third) :
    Tried first (efforts ++ more) third where
  saved := after.saved.trans before.saved
  stack := fun stack => after.stack (before.stack stack)
  leaving := fun leaving => after.leaving (before.leaving leaving)
  attempts := by rw [after.attempts, before.attempts, List.append_assoc]
  brief := fun effort member =>
    (List.mem_append.mp member).elim (before.brief effort) (after.brief effort)

theorem asked {asked : Bool} (stays : first.leaving = true → asked = true) :
    Tried first [] { first with leaving := asked } :=
  { refl first with leaving := stays }

end Tried

/-! ## One connection -/

/-- The attempt at this connection, behind the earlier ones, with at most so many
questions and so much waiting. The radio has said that there is an address if that
is what it said last. -/
def Under (earlier : List Effort) (id : Nat) (state : Int) (polls waited : Nat)
    (air : Air) : Prop :=
  ∃ effort : Effort, air.attempts = earlier ++ [effort] ∧ effort.id = id ∧
    effort.polls ≤ polls ∧ effort.waited ≤ waited ∧
    effort.addressed = decide (state = 4)

/-- What stays as it is while the radio is asked. -/
structure Steady (start : Air) (state : Int) (air : Air) : Prop where
  said : air.said = state
  joining : air.joining = start.joining
  saved : air.saved = start.saved
  stack : air.stack = start.stack
  leaving : start.leaving = true → air.leaving = true

/-- Somewhere in the loop, after so many rounds. -/
structure Polling (start : Air) (earlier : List Effort) (id : Nat) (attempt : Attempt)
    (air : Air) : Prop extends Steady start attempt.state air where
  under : Under earlier id attempt.state attempt.tries (50000 * attempt.tries) air
  few : attempt.tries ≤ 600

structure Polled (start : Air) (earlier : List Effort) (id : Nat) (state : Int)
    (air : Air) : Prop extends Steady start state air where
  under : Under earlier id state 600 30000000 air

section Attempts

variable {start air : Air} {earlier : List Effort} {id : Nat} {attempt : Attempt}

theorem Polling.polled (polling : Polling start earlier id attempt air)
    {asked : Bool} (stays : start.leaving = true → asked = true) :
    Polled start earlier id attempt.state { air with leaving := asked } where
  said := polling.said
  joining := polling.joining
  saved := polling.saved
  stack := polling.stack
  leaving := stays
  under := by
    obtain ⟨effort, attempts, same, polls, waited, addressed⟩ := polling.under
    have := polling.few
    exact ⟨effort, attempts, same, by omega, by omega, addressed⟩

theorem Polling.asked (polling : Polling start earlier id attempt air)
    (unjoined : attempt.state ≠ 4) {asked : Bool}
    (stays : start.leaving = true → asked = true) (state : Int) :
    Steady start state
        { air with
          leaving := asked
          said := state
          attempts := air.attempts.modifyLast (.poll state) } ∧
      Under earlier id state (attempt.tries + 1) (50000 * attempt.tries)
        { air with
          leaving := asked
          said := state
          attempts := air.attempts.modifyLast (.poll state) } := by
  obtain ⟨effort, attempts, same, polls, waited, addressed⟩ := polling.under
  refine ⟨⟨rfl, polling.joining, polling.saved, polling.stack, stays⟩,
    effort.poll state, ?_, same, Nat.succ_le_succ polls, waited, ?_⟩
  · dsimp only
    rw [attempts, List.modifyLast_concat]
  · rw [Effort.poll, addressed, decide_eq_false unjoined, Bool.false_or]

theorem poll_polling (joined : start.joining.isSome = true)
    (polling : Polling start earlier id attempt air) :
    Guarded onAir Orderly
      (Sum.elim (fun attempt air => Polling start earlier id attempt air)
        fun attempt air => Polled start earlier id attempt.state air)
      (poll attempt) air := by
  unfold poll
  split
  · exact .done (polling.polled polling.leaving)
  rename_i unjoined
  dsimp only
  split
  · exact .done (polling.polled polling.leaving)
  rename_i more
  refine guarded_exitRequested fun asked stays => ?_
  have leaves : start.leaving = true → asked = true :=
    fun leaving => stays (polling.leaving leaving)
  split
  · exact .done (polling.polled leaves)
  have orderly : air.joining.isSome = true ∧ air.said ≠ 4 := by
    rw [polling.joining, polling.said]
    exact ⟨joined, unjoined⟩
  refine .ask orderly ?_
  rintro ⟨err, state⟩ after made
  obtain ⟨steady, under⟩ := polling.asked unjoined leaves state
  have did : after =
    { air with
      leaving := asked
      said := state
      attempts := air.attempts.modifyLast (.poll state) } := made
  rw [← did] at steady under
  obtain ⟨effort, attempts, same, polls, waited, addressed⟩ := under
  dsimp only
  split
  · exact .done { steady with
      under := ⟨effort, attempts, same, by omega, by omega, addressed⟩ }
  have onward (highest : Int) : Guarded onAir Orderly
      (Sum.elim (fun (attempt : Attempt) air => Polling start earlier id attempt air)
        fun (attempt : Attempt) air => Polled start earlier id attempt.state air)
      (do
        call (.delay 50000)
        pure (.inl { state, highest, tries := attempt.tries + 1 })) after := by
    refine guarded_delay (.done ?_)
    refine
      { said := steady.said
        joining := steady.joining
        saved := steady.saved
        stack := steady.stack
        leaving := steady.leaving
        under := ⟨effort.wait 50000, ?_, same, polls, ?_, addressed⟩
        few := ?_ }
    · dsimp only
      rw [attempts, List.modifyLast_concat]
    · change effort.waited + 50000 ≤ 50000 * (attempt.tries + 1)
      omega
    · dsimp only
      omega
  split
  · exact guarded_print (onward _)
  · exact onward _

end Attempts

theorem explainFailure_silent {highest : Int} {air : Air} {post : Unit → Air → Prop}
    (holds : post () air) :
    Guarded onAir Orderly post (explainFailure highest) air := by
  unfold explainFailure
  split
  · exact guarded_print (guarded_print (guarded_print (guarded_print_last holds)))
  split
  · exact guarded_print (guarded_print (guarded_print_last holds))
  · exact guarded_print (guarded_print_last holds)

/-- The radio has an address on the connection that was tried, or it never had one
there and is at rest. -/
def Joined (effort : Effort) (joined : Bool) (air : Air) : Prop :=
  effort.addressed = joined ∧
    if joined then air.joining = some effort.id ∧ air.said = 4 else air.joining = none

theorem tryProfile_tried {profile : SavedConnection} {air : Air}
    (stack : air.stack = true) (saved : air.saved profile.id = true)
    (rests : air.joining = none) :
    Guarded onAir Orderly
      (fun joined after => ∃ effort : Effort, effort.id = profile.id ∧
        Tried air [effort] after ∧ Joined effort joined after)
      (tryProfile profile) air := by
  refine guarded_print (.ask ⟨stack, saved, rests⟩ ?_)
  intro err after made
  have did : after =
    { air with
      attempts := air.attempts ++ [⟨profile.id, 0, 0, false⟩]
      joining := if err = 0 then some profile.id else air.joining
      said := 0 } := made
  rw [did]
  split
  · rename_i refused
    refine guarded_print (.done ⟨⟨profile.id, 0, 0, false⟩, rfl, ?_, rfl, ?_⟩)
    · refine ⟨rfl, id, id, rfl, fun effort member => ?_⟩
      obtain rfl := List.mem_singleton.mp member
      exact ⟨Nat.zero_le _, Nat.zero_le _⟩
    · exact rests
  rename_i started
  rw [if_pos (not_not.mp started)]
  refine guarded_print ?_
  generalize starts : ({ air with
    attempts := air.attempts ++ [⟨profile.id, 0, 0, false⟩]
    joining := some profile.id
    said := 0 } : Air) = start
  have joining : start.joining = some profile.id := by rw [← starts]
  have begins : Polling start air.attempts profile.id ⟨0, 0, 0⟩ start :=
    { said := by rw [← starts]
      joining := rfl
      saved := rfl
      stack := rfl
      leaving := id
      under := ⟨⟨profile.id, 0, 0, false⟩, by rw [← starts], rfl, le_refl _, le_refl _,
        rfl⟩
      few := Nat.zero_le _ }
  have joined : start.joining.isSome = true := by rw [joining]; rfl
  refine .bind (Guarded.mono (.iterate
    (fun attempt state => Polling start air.attempts profile.id attempt state) begins
    fun attempt state polling => poll_polling joined polling) ?_)
  intro attempt state polled
  obtain ⟨effort, attempts, same, polls, waited, addressed⟩ := polled.under
  -- the connection was tried, whatever it has come to
  have tried {after : Air} {last : Effort} (saved : after.saved = state.saved)
      (stack : after.stack = state.stack) (leaving : after.leaving = state.leaving)
      (attempts : after.attempts = air.attempts ++ [last])
      (brief : last.Brief) : Tried air [last] after := by
    refine ⟨?_, ?_, ?_, attempts, fun effort member => ?_⟩
    · rw [saved, polled.saved, ← starts]
    · intro started
      rw [stack, polled.stack, ← starts]
      exact started
    · intro left
      rw [leaving]
      exact polled.leaving (by rw [← starts]; exact left)
    · rw [List.mem_singleton.mp member]
      exact brief
  split
  · rename_i connected
    have here : Joined effort true state := by
      refine ⟨addressed.trans (decide_eq_true connected), ?_, ?_⟩
      · rw [polled.joining, joining, same]
      · exact polled.said.trans connected
    have ends : Tried air [effort] state :=
      tried rfl rfl rfl attempts ⟨polls, waited.trans (by decide)⟩
    refine .ask trivial ?_
    rintro ⟨err, ip⟩ after made
    have kept : after = state := made
    rw [kept]
    dsimp only
    split
    · exact guarded_print (.done ⟨effort, same, ends, here⟩)
    · exact guarded_print (.done ⟨effort, same, ends, here⟩)
  · rename_i unconnected
    refine .bind (explainFailure_silent ?_)
    have begun : state.joining.isSome = true := by rw [polled.joining, joined]
    refine .ask ⟨begun, by rw [polled.said]; exact unconnected⟩ fun _ after made => ?_
    have did : after = { state with joining := none, said := 0 } := made
    rw [did]
    refine guarded_delay (.done ⟨effort.wait 500000, same, ?_, ?_, rfl⟩)
    · refine tried rfl rfl rfl ?_ ⟨polls, Nat.add_le_add_right waited 500000⟩
      dsimp only
      rw [attempts, List.modifyLast_concat]
    · exact addressed.trans (decide_eq_false unconnected)

/-! ## The list of them -/

def savedIds (saved : Nat → Bool) : List Nat :=
  (List.range' 1 10).filter saved

theorem savedIds_nodup (saved : Nat → Bool) : (savedIds saved).Nodup :=
  (List.nodup_range' 1).filter _

theorem listProfiles_saved (air : Air) :
    Guarded onAir Orderly
      (fun available after =>
        available.map SavedConnection.id = savedIds air.saved ∧ after = air)
      (listProfiles 10) air := by
  refine .iterate (fun (memory : Nat × List SavedConnection) state =>
    1 ≤ memory.1 ∧ memory.1 ≤ 11 ∧
      memory.2.map SavedConnection.id =
        (List.range' 1 (memory.1 - 1)).filter air.saved ∧ state = air)
    ⟨le_refl _, by decide, rfl, rfl⟩ ?_
  rintro ⟨id, found⟩ state ⟨first, last, listed, rfl⟩
  dsimp only at first last listed ⊢
  have few : found.length ≤ id - 1 := by
    have filtered := List.length_filter_le state.saved (List.range' 1 (id - 1))
    rw [← listed, List.length_map, List.length_range'] at filtered
    exact filtered
  have next : List.range' 1 (id + 1 - 1) = List.range' 1 (id - 1) ++ [id] := by
    rw [show id + 1 - 1 = (id - 1) + 1 by omega, List.range'_1_concat,
      show 1 + (id - 1) = id by omega]
  split
  · refine .ask trivial fun err after made => ?_
    obtain ⟨saved, rfl⟩ := made
    split
    · rename_i unsaved
      refine .done ⟨by omega, by dsimp only; omega, ?_, rfl⟩
      have unsaved : after.saved id = false := by simpa [saved] using unsaved
      dsimp only
      rw [next, List.filter_append, List.filter_cons_of_neg (by simp [unsaved])]
      rw [List.filter_nil, List.append_nil, listed]
    · rename_i there
      have there : after.saved id = true := saved.mp (not_not.mp there)
      refine .ask trivial fun named between made => ?_
      have same : between = after := made
      refine .done ⟨by omega, by dsimp only; omega, ?_, same⟩
      dsimp only
      rw [next, List.filter_append, List.filter_cons_of_pos there, List.filter_nil,
        List.map_append, listed, List.map_singleton]
  · have done : id - 1 = 10 := by omega
    rw [done] at listed
    exact .done ⟨listed, rfl⟩

/-! ## The one that is asked for -/

section Chosen

variable {preferred : Int32} {available : List SavedConnection}

theorem chosenOf_spec {chosen : SavedConnection × Nat}
    (found : chosenOf preferred available = some chosen) :
    available[chosen.2]? = some chosen.1 ∧ preferred.toInt = chosen.1.id := by
  have among := List.mem_of_getLast? found
  obtain ⟨placed, same⟩ := List.mem_filter.mp among
  exact ⟨List.mem_zipIdx_iff_getElem?.mp placed, of_decide_eq_true same⟩

theorem chosenOf_isSome {profile : SavedConnection} {i : Nat}
    (placed : available[i]? = some profile) (same : preferred.toInt = profile.id) :
    ∃ chosen, chosenOf preferred available = some chosen := by
  have among : (profile, i) ∈ available.zipIdx :=
    List.mem_zipIdx_iff_getElem?.mpr placed
  refine Option.isSome_iff_exists.mp (List.getLast?_isSome.mpr
    (List.ne_nil_of_mem (List.mem_filter.mpr ⟨among, ?_⟩)))
  exact decide_eq_true same

theorem chosenOf_place (distinct : (available.map SavedConnection.id).Nodup)
    {profile : SavedConnection} {i : Nat} (placed : available[i]? = some profile) :
    (chosenOf preferred available).map Prod.snd = some i ↔
      preferred.toInt = profile.id := by
  constructor
  · intro chosen
    obtain ⟨⟨other, place⟩, found, rfl⟩ := Option.map_eq_some_iff.mp chosen
    obtain ⟨there, same⟩ := chosenOf_spec found
    dsimp only at there same placed
    rw [there] at placed
    cases placed
    exact same
  · intro same
    obtain ⟨⟨other, place⟩, found⟩ := chosenOf_isSome placed same
    obtain ⟨there, equal⟩ := chosenOf_spec found
    rw [found, Option.map_some, Option.some_inj]
    have numbers : other.id = profile.id := by
      dsimp only at equal
      omega
    obtain ⟨inside, first⟩ := List.getElem?_eq_some_iff.mp there
    obtain ⟨within, second⟩ := List.getElem?_eq_some_iff.mp placed
    have place_inside : place < (available.map SavedConnection.id).length := by
      rw [List.length_map]
      exact inside
    have inside : i < (available.map SavedConnection.id).length := by
      rw [List.length_map]
      exact within
    have same : (available.map SavedConnection.id)[place] =
        (available.map SavedConnection.id)[i] := by
      rw [List.getElem_map, List.getElem_map, first, second]
      exact numbers
    exact distinct.getElem_inj_iff.mp same

end Chosen

/-! ## One start -/

/-- The preferred connection comes first, if it is saved, and then the others as
they are numbered. -/
def order (preferred : Int32) (ids : List Nat) : List Nat :=
  (ids.filter fun id : Nat => preferred.toInt = id) ++
    ids.filter fun id : Nat => preferred.toInt ≠ id

/-- None of these attempts has come to an address but, where there is a connection
now, the last of them, which was at that connection. -/
def ComeTo (efforts : List Effort) : Option Nat → Prop
  | none => ∀ effort ∈ efforts, effort.addressed = false
  | some id => ∃ failed last, efforts = failed ++ [last] ∧ last.id = id ∧
      last.addressed = true ∧ ∀ effort ∈ failed, effort.addressed = false

theorem ComeTo.past {first : Effort} {efforts : List Effort} {joining : Option Nat}
    (come : ComeTo efforts joining) (failed : first.addressed = false) :
    ComeTo (first :: efforts) joining := by
  have grown {others : List Effort}
    (all : ∀ effort ∈ others, effort.addressed = false) :
      ∀ effort ∈ first :: others, effort.addressed = false := by
    intro effort member
    rcases List.mem_cons.mp member with rfl | behind
    · exact failed
    · exact all effort behind
  cases joining with
  | none => exact grown come
  | some id =>
      obtain ⟨others, last, rfl, same, addressed, all⟩ := come
      exact ⟨first :: others, last, rfl, same, addressed, grown all⟩

/-- Of these connections the first ones were tried, up to the one that was joined;
or all of them, unless there is no stack or the application is to be left. -/
structure Went (before : Air) (ids : List Nat) (joined : Bool)
    (after : Air) : Prop where
  some_tried : ∃ efforts : List Effort, efforts.map Effort.id <+: ids ∧
    Tried before efforts after ∧ ComeTo efforts after.joining ∧
    (joined = false →
      efforts.map Effort.id = ids ∨ after.stack = false ∨ after.leaving = true)
  joining : after.joining.isSome = joined
  said : joined = true → after.said = 4

namespace Went

variable {before middle after : Air} {effort : Effort} {ids : List Nat} {joined : Bool}

theorem nowhere (rests : after.joining = none) (tried : Tried before [] after)
    (excused : ids = [] ∨ after.stack = false ∨ after.leaving = true) :
    Went before ids false after where
  some_tried := by
    refine ⟨[], List.nil_prefix, tried, ?_, fun _ => excused.imp Eq.symm id⟩
    rw [rests]
    exact fun _ member => absurd member List.not_mem_nil
  joining := by rw [rests]; rfl
  said := fun here => absurd here Bool.false_ne_true

theorem here (tried : Tried before [effort] after) (joined : Joined effort true after) :
    Went before (effort.id :: ids) true after where
  some_tried := by
    refine ⟨[effort], List.prefix_append [effort.id] ids, tried, ?_, fun there => ?_⟩
    · rw [joined.2.1]
      exact ⟨[], effort, rfl, rfl, joined.1, fun _ member =>
        absurd member List.not_mem_nil⟩
    · exact absurd there.symm Bool.false_ne_true
  joining := by rw [joined.2.1]; rfl
  said := fun _ => joined.2.2

theorem past (tried : Tried before [effort] middle) (failed : effort.addressed = false)
    (went : Went middle ids joined after) :
    Went before (effort.id :: ids) joined after where
  some_tried := by
    obtain ⟨more, first, rest, come, all⟩ := went.some_tried
    refine ⟨effort :: more, ?_, tried.trans rest, come.past failed, fun nowhere => ?_⟩
    · exact List.cons_prefix_cons.mpr ⟨rfl, first⟩
    · exact (all nowhere).imp_left fun same => by rw [List.map_cons, same]
  joining := went.joining
  said := went.said

theorem since (tried : Tried before [] middle) (went : Went middle ids joined after) :
    Went before ids joined after where
  some_tried := by
    obtain ⟨more, first, rest, come, all⟩ := went.some_tried
    exact ⟨more, first, tried.trans rest, come, all⟩
  joining := went.joining
  said := went.said

end Went

/-- What `net_start` leaves when it was not connected before. -/
def Started (before : Air) (ids : List Nat) (net : NetState) :
    Bool × NetState → Air → Prop := fun (joined, left) after =>
  Went before ids joined after ∧ left = { net with connected := joined }

theorem tryOthers_started {preferred : Int32} {chosen : Option Nat} {net : NetState}
    (down : net.connected = false) (rest : List (SavedConnection × Nat)) {air : Air}
    (stack : air.stack = true) (rests : air.joining = none)
    (saved : ∀ profile ∈ rest.map Prod.fst, air.saved profile.id = true)
    (place : ∀ profile ∈ rest,
      chosen = some profile.2 ↔ preferred.toInt = profile.1.id) :
    Guarded onAir Orderly
      (Started air ((rest.map fun profile => profile.1.id).filter
        fun id : Nat => preferred.toInt ≠ id) net)
      (tryOthers preferred chosen net rest) air := by
  have same : net = { net with connected := false } := by
    obtain ⟨stackStarted, connected⟩ := net
    rw [← down]
  induction rest generalizing air with
  | nil => exact .done ⟨.nowhere rests (.refl air) (.inl rfl), same⟩
  | cons first rest ih =>
      obtain ⟨profile, i⟩ := first
      refine guarded_exitRequested fun asked stays => ?_
      have waited := Tried.asked stays
      split
      · rename_i leaving
        exact .done ⟨.nowhere rests waited (.inr (.inr leaving)), same⟩
      replace stack : ({ air with leaving := asked } : Air).stack = true := stack
      replace rests : ({ air with leaving := asked } : Air).joining = none := rests
      replace saved : ∀ other ∈ ((profile, i) :: rest).map Prod.fst,
          ({ air with leaving := asked } : Air).saved other.id = true := saved
      generalize ({ air with leaving := asked } : Air) =
        now at waited stack rests saved ⊢
      split
      · rename_i tried
        have preferred_here := (place (profile, i) List.mem_cons_self).mp tried
        rw [List.map_cons, List.filter_cons_of_neg (by simpa using preferred_here)]
        refine (ih stack rests
          (fun other among => saved other (List.mem_cons_of_mem _ among))
          (fun other among => place other (List.mem_cons_of_mem _ among))).mono ?_
        rintro ⟨joined, left⟩ after ⟨went, left_same⟩
        exact ⟨went.since waited, left_same⟩
      rename_i untried
      have other_one : preferred.toInt ≠ profile.id := fun preferred =>
        untried ((place (profile, i) List.mem_cons_self).mpr preferred)
      rw [List.map_cons, List.filter_cons_of_pos (by simpa using other_one)]
      refine .bind ((tryProfile_tried stack
        (saved profile List.mem_cons_self) rests).mono ?_)
      intro joined middle ⟨effort, attempted, tried, comes⟩
      have whole : Tried air [effort] middle := waited.trans tried
      rw [← attempted] at other_one ⊢
      split
      · rename_i here
        rw [here] at comes
        dsimp only
        exact guarded_print (guarded_print (.done ⟨.here whole comes, rfl⟩))
      · rename_i there
        rw [Bool.not_eq_true] at there
        rw [there] at comes
        have rests : middle.joining = none := comes.2
        refine (ih (tried.stack stack) rests
          (fun other among => ?_)
          (fun other among => place other (List.mem_cons_of_mem _ among))).mono ?_
        · rw [tried.saved]
          exact saved other (List.mem_cons_of_mem _ among)
        · rintro ⟨joined, left⟩ after ⟨went, left_same⟩
          exact ⟨went.past whole comes.1, left_same⟩

theorem order_unchosen {preferred : Int32} {available : List SavedConnection}
    (missing : chosenOf preferred available = none) :
    order preferred (available.map SavedConnection.id) =
      (available.map SavedConnection.id).filter
        fun id : Nat => preferred.toInt ≠ id := by
  have unlike : ∀ id ∈ available.map SavedConnection.id, preferred.toInt ≠ id := by
    intro id among same
    obtain ⟨profile, listed, rfl⟩ := List.mem_map.mp among
    obtain ⟨i, placed⟩ := List.mem_iff_getElem?.mp listed
    obtain ⟨chosen, found⟩ := chosenOf_isSome placed same
    rw [missing] at found
    cases found
  rw [order, List.filter_eq_nil_iff.mpr, List.nil_append]
  simpa using unlike

theorem order_chosen {preferred : Int32} {available : List SavedConnection}
    (distinct : (available.map SavedConnection.id).Nodup)
    {chosen : SavedConnection × Nat}
    (found : chosenOf preferred available = some chosen) :
    order preferred (available.map SavedConnection.id) =
      chosen.1.id :: (available.map SavedConnection.id).filter
        fun id : Nat => preferred.toInt ≠ id := by
  obtain ⟨placed, same⟩ := chosenOf_spec found
  have listed : chosen.1.id ∈ available.map SavedConnection.id :=
    List.mem_map_of_mem (List.mem_of_getElem? placed)
  have like : (fun id : Nat => decide (preferred.toInt = id)) =
      fun id => id == chosen.1.id := by
    funext id
    rw [same, Bool.beq_eq_decide_eq]
    exact decide_eq_decide.mpr (by omega)
  rw [order, like, List.filter_beq, distinct.count, if_pos listed]
  rfl

theorem explainChoice_silent {preferred : Int32}
    {chosen : Option (SavedConnection × Nat)} {count : Nat} {air : Air}
    {post : Unit → Air → Prop} (holds : post () air) :
    Guarded onAir Orderly post (explainChoice preferred chosen count) air := by
  unfold explainChoice
  split
  · exact guarded_print (guarded_print (guarded_print_last holds))
  split
  · exact guarded_print (guarded_print_last holds)
  · exact .done holds

theorem joinSaved_started {preferred : Int32} {net : NetState} {air : Air}
    (down : net.connected = false) (stack : air.stack = true)
    (rests : air.joining = none) :
    Guarded onAir Orderly (Started air (order preferred (savedIds air.saved)) net)
      (joinSaved preferred net) air := by
  have same : net = { net with connected := false } := by
    obtain ⟨stackStarted, connected⟩ := net
    rw [← down]
  refine .bind ((listProfiles_saved air).mono ?_)
  rintro available _ ⟨listed, rfl⟩
  rename_i air
  have distinct : (available.map SavedConnection.id).Nodup := by
    rw [listed]
    exact savedIds_nodup air.saved
  have saved : ∀ profile ∈ available, air.saved profile.id = true := by
    intro profile among
    have there : profile.id ∈ savedIds air.saved := by
      rw [← listed]
      exact List.mem_map_of_mem among
    exact (List.mem_filter.mp there).2
  have firsts : available.zipIdx.map Prod.fst = available := by simp
  have ids : (available.zipIdx.map fun profile => profile.1.id) =
      available.map SavedConnection.id := by
    rw [← firsts, List.map_map, firsts]
    rfl
  have others (chosen : Option Nat)
      (place : ∀ profile ∈ available.zipIdx,
        chosen = some profile.2 ↔ preferred.toInt = profile.1.id)
      {now : Air} (stack : now.stack = true) (rests : now.joining = none)
      (kept : now.saved = air.saved) :
      Guarded onAir Orderly
        (Started now ((available.map SavedConnection.id).filter
          fun id : Nat => preferred.toInt ≠ id) net)
        (tryOthers preferred chosen net available.zipIdx) now := by
    rw [← ids]
    refine tryOthers_started down _ stack rests ?_ place
    rw [firsts, kept]
    exact saved
  have place : ∀ profile ∈ available.zipIdx,
      (chosenOf preferred available).map Prod.snd = some profile.2 ↔
        preferred.toInt = profile.1.id :=
    fun profile among => chosenOf_place distinct (List.mem_zipIdx_iff_getElem?.mp among)
  rw [← listed]
  split
  · rename_i empty
    refine guarded_print
      (guarded_print (guarded_print (guarded_print (.done ⟨?_, same⟩))))
    exact .nowhere rests (.refl air) (.inl (by rw [empty]; rfl))
  dsimp only
  refine .bind (explainChoice_silent ?_)
  cases found : chosenOf preferred available with
  | none =>
      rw [order_unchosen found]
      rw [found] at place
      exact others none place stack rests rfl
  | some chosen =>
      obtain ⟨profile, i⟩ := chosen
      rw [order_chosen distinct found]
      rw [found] at place
      obtain ⟨placed, _⟩ := chosenOf_spec found
      refine .bind ((tryProfile_tried stack
        (saved profile (List.mem_of_getElem? placed)) rests).mono ?_)
      intro joined middle ⟨effort, attempted, tried, comes⟩
      rw [← attempted]
      split
      · rename_i here
        rw [here] at comes
        exact .done ⟨.here tried comes, rfl⟩
      · rename_i there
        rw [Bool.not_eq_true] at there
        rw [there] at comes
        refine (others (some i) place (tried.stack stack) comes.2 tried.saved).mono ?_
        rintro ⟨joined, left⟩ after ⟨went, left_same⟩
        exact ⟨went.past tried comes.1, left_same⟩

/-! ## Any number of starts -/

/-- Between two starts: the variables say how the radio is. -/
structure Standing (net : NetState) (air : Air) : Prop where
  stack : net.stackStarted = air.stack
  joining : net.connected = air.joining.isSome
  said : net.connected = true → air.stack = true ∧ air.said = 4

theorem netStart_started {preferred : Int32} {net : NetState} {air : Air}
    (standing : Standing net air) :
    Guarded onAir Orderly
      (fun (joined, left) after => Standing left after ∧
        after.saved = air.saved ∧
        (net.connected = true → joined = true ∧ after = air) ∧
        (net.connected = false →
          Went air (order preferred (savedIds air.saved)) joined after))
      (netStart preferred net) air := by
  unfold netStart
  split
  · rename_i up
    exact .done ⟨standing, rfl, fun _ => ⟨rfl, rfl⟩,
      fun down => absurd up (by rw [down]; exact Bool.false_ne_true)⟩
  rename_i down
  rw [Bool.not_eq_true] at down
  have rests : air.joining = none := by
    rw [← Option.not_isSome_iff_eq_none, ← standing.joining, down]
    exact Bool.false_ne_true
  -- joining with a stack, whether there was one before or not
  have joins {now : Air} (stack : now.stack = true) (rests : now.joining = none)
      (tried : Tried air [] now) :
      Guarded onAir Orderly
        (fun (joined, left) after => Standing left after ∧
          after.saved = air.saved ∧
          (net.connected = true → joined = true ∧ after = air) ∧
          (net.connected = false →
            Went air (order preferred (savedIds air.saved)) joined after))
        (joinSaved preferred { net with stackStarted := true }) now := by
    have unconnected :
      ({ net with stackStarted := true } : NetState).connected = false :=
      down
    rw [← tried.saved]
    refine (joinSaved_started unconnected stack rests).mono ?_
    rintro ⟨joined, left⟩ after ⟨went, rfl⟩
    obtain ⟨more, _, further, _, _⟩ := went.some_tried
    have still : after.stack = true := further.stack stack
    exact ⟨⟨still.symm, went.joining.symm, fun joined => ⟨still, went.said joined⟩⟩,
      further.saved, fun up => absurd (up.symm.trans down) nofun,
      fun _ => went.since tried⟩
  split
  · rename_i started
    have same : net = { net with stackStarted := true } := by
      obtain ⟨stackStarted, connected⟩ := net
      rw [← started]
    rw [same]
    exact joins (standing.stack.symm.trans started) rests (.refl air)
  · rename_i unstarted
    rw [Bool.not_eq_true] at unstarted
    have stackless : air.stack = false := standing.stack.symm.trans unstarted
    refine .ask trivial fun _ after made => ?_
    have kept : after = air := made
    rw [kept]
    refine .ask trivial fun _ after made => ?_
    have kept : after = air := made
    rw [kept]
    refine .ask trivial fun err after made => ?_
    have did : after = { air with stack := air.stack || decide (err = 0) } := made
    rw [did]
    split
    · rename_i refused
      have stays : (air.stack || decide (err = 0)) = air.stack := by
        rw [decide_eq_false refused, Bool.or_false]
      rw [stays]
      refine guarded_print (.done ⟨standing, rfl, ?_, fun _ => ?_⟩)
      · exact fun up => absurd (up.symm.trans down) nofun
      · exact .nowhere rests (.refl air) (.inr (.inl stackless))
    · rename_i started
      have begun : (air.stack || decide (err = 0)) = true := by
        rw [not_not.mp started, decide_eq_true rfl, Bool.or_true]
      exact joins begun rests { Tried.refl air with stack := fun _ => begun }

def netStarts : List Int32 → NetState → Radio NetState
  | [], net => pure net
  | first :: rest, net => do
      let (_, net) ← netStart first net
      netStarts rest net

theorem netStarts_standing (preferreds : List Int32) {net : NetState} {air : Air}
    (standing : Standing net air) :
    Guarded onAir Orderly
      (fun left after => Standing left after ∧ after.saved = air.saved)
      (netStarts preferreds net) air := by
  induction preferreds generalizing net air with
  | nil => exact .done ⟨standing, rfl⟩
  | cons first rest ih =>
      refine .bind ((netStart_started standing).mono ?_)
      rintro ⟨joined, left⟩ middle ⟨standing, saved, _⟩
      refine (ih standing).mono fun left after ends => ?_
      rw [← saved]
      exact ends

theorem standing_silent (saved : Nat → Bool) : Standing .fresh (.silent saved) :=
  ⟨rfl, rfl, nofun⟩

/-- However often the network is started and whatever the servers ask for: a
connection is started when it is saved, there is a stack and no other is under way
or up, and one that has an address is not broken off. -/
theorem attempts_start_at_rest (preferreds : List Int32) (saved : Nat → Bool) :
    Always onAir (netStarts preferreds .fresh) (.silent saved) Orderly :=
  (netStarts_standing preferreds (standing_silent saved)).always fun _ _ => id

/-- After any number of starts, one more succeeds at once if one has succeeded
before. Otherwise it tries the connection that is asked for, if it is saved, then
the others as they are numbered, each once, each with at most 600 questions and 30.5
seconds of waiting, and each but the last without an address; it succeeds with the
first that has one, and fails with the radio at rest: when all were tried, there is
no stack, or the application is to be left. -/
theorem tries_all_in_order (earlier : List Int32) (saved : Nat → Bool)
    (preferred : Int32) :
    Ends onAir (netStarts earlier .fresh) (.silent saved) fun net before =>
      Ends onAir (netStart preferred net) before fun (joined, left) after =>
        (net.connected = true → joined = true ∧ after = before) ∧
        (net.connected = false →
          Went before (order preferred (savedIds saved)) joined after) ∧
        left.connected = after.joining.isSome := by
  intro net before run
  obtain ⟨standing, same⟩ :=
    (netStarts_standing earlier (standing_silent saved)).returns net before run
  rintro ⟨joined, left⟩ after run
  obtain ⟨stands, _, up, down⟩ :=
    (netStart_started standing).returns (joined, left) after run
  have same : before.saved = saved := same
  rw [same] at down
  exact ⟨up, down, stands.joining⟩

end Pspssh.Net
