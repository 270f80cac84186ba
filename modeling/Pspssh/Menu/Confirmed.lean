import Pspssh.Data.Process
import Pspssh.Hosts.RoundTrip
import Pspssh.Menu.HostList

namespace Pspssh.Menu

open Pspssh.Data Pspssh.Data.Program Pspssh.Hosts Pspssh.Screen
open Pspssh.Data.Process (Observed)

/-! Nothing is taken away that the user was not just asked about. -/

abbrev Question := List UInt8 × List UInt8

def deleteQuestion (entry : HostEntry) : Question :=
  ((copyField deleteQuestionLen
      (ascii "delete \"" ++ entry.name.text ++ ascii "\"?")).text,
    ascii "retyping it on the keyboard is the cost")

def forgetQuestion (entry : HostEntry) : Question :=
  ((copyField forgetQuestionLen
      (ascii "forget the key for \"" ++ entry.name.text ++ ascii "\"?")).text,
    utf8 "only if you know why it changed — this is the check")

/-- The question if it was the last call and the answer was yes. -/
def justAnswered : Event UiCall.Result → Option Question
  | ⟨.uiConfirm question detail, yes⟩ => if yes then some (question, detail) else none
  | _ => none

/-- The list, and somebody who listens to the user. -/
def askedWorld : World UiCall.Result (HostList × Option Question) :=
  Observed uiWorld fun _ _ event => justAnswered event

/-- A call that takes something away comes right after the yes to the question
that names it. -/
def Confirmed : UiCall → HostList × Option Question → Prop
  | .hostsRemove index, (hosts, answered) =>
      ∃ entry, hostsAt index hosts = some entry ∧
        answered = some (deleteQuestion entry)
  | .knownhostsForget address port, (hosts, answered) =>
      ∃ entry ∈ hosts.entries.toList, address = entry.address.text ∧
        port = entry.port ∧ answered = some (forgetQuestion entry)
  | _, _ => True

def Harmless : UiCall → Prop
  | .hostsRemove _ | .knownhostsForget _ _ => False
  | _ => True

theorem Harmless.confirmed {call : UiCall} (harmless : Harmless call)
    (state : HostList × Option Question) : Confirmed call state := by
  cases call <;> trivial

section Rules

variable {α : Type} {state : HostList × Option Question}

/-- Sound calls, of which nothing but the questions is wanted. -/
abbrev Asking (program : Ui α) (state : HostList × Option Question) : Prop :=
  Guarded askedWorld Confirmed (fun _ _ => True) program state

theorem asking_call {call : UiCall} {next : call.Result → Ui α}
    (harmless : Harmless call)
    (rest : ∀ result after, askedWorld state call result after →
      Asking (next result) after) :
    Asking (ask call >>= next) state :=
  ⟨harmless.confirmed state, rest⟩

theorem asking_any {call : UiCall} {next : call.Result → Ui α}
    (harmless : Harmless call)
    (rest : ∀ result state, Asking (next result) state) :
    Asking (ask call >>= next) state :=
  asking_call harmless fun result after _ => rest result after

theorem asking_last {call : UiCall} (harmless : Harmless call) :
    Asking (ask call) state :=
  ⟨harmless.confirmed state, fun _ _ _ => trivial⟩

theorem asking_bind {β : Type} {program : Ui β} {next : β → Ui α}
    (first : Asking program state)
    (rest : ∀ value state, Asking (next value) state) :
    Asking (program >>= next) state :=
  Guarded.bind (first.mono fun value state _ => rest value state)

end Rules

variable {state : HostList × Option Question}

theorem drawRow_asking (view : View) (count i : Int) :
    Asking (drawRow view count i) state := by
  refine asking_any trivial fun _ _ => ?_
  split
  · exact asking_last trivial
  · refine asking_any trivial fun entry _ => ?_
    cases entry with
    | none => exact asking_last trivial
    | some entry => exact asking_last trivial

theorem drawRows_asking (view : View) (count : Int) (fuel : Nat) (i : Int) :
    Asking (drawRows view count fuel i) state := by
  induction fuel generalizing i state with
  | zero => trivial
  | succ fuel ih =>
      unfold drawRows
      split
      · exact asking_bind (drawRow_asking view count i) fun _ _ => ih (i + 1)
      · trivial

theorem drawList_asking (build : Build) (view : View) :
    Asking (drawList build view) state := by
  refine asking_any trivial fun count _ => asking_any trivial fun _ _ => ?_
  refine asking_bind ?_ fun _ _ =>
    asking_bind (drawRows_asking view count _ 0) fun _ _ => ?_
  · unfold drawNotice
    split
    · exact asking_last trivial
    · trivial
  · unfold drawPosition
    split
    · exact asking_last trivial
    · trivial

theorem editHost_asking (index : Int) : Asking (editHost index) state :=
  asking_any trivial fun _ _ => asking_last trivial

theorem deleteSelected_asking (selected : Int) :
    Asking (deleteSelected selected) state := by
  refine asking_call trivial fun found after looked => ?_
  obtain ⟨⟨rfl, same⟩, _⟩ := looked
  cases found : hostsAt selected state.1 with
  | none => exact asking_last trivial
  | some entry =>
      refine asking_call trivial fun yes answered made => ?_
      obtain ⟨unchanged, noted⟩ := made
      have unchanged : answered.1 = after.1 := unchanged
      split
      · rename_i agreed
        have noted : answered.2 = some (deleteQuestion entry) :=
          noted.trans (if_pos agreed)
        refine ⟨⟨entry, by rw [unchanged, same, found], noted⟩, ?_⟩
        intro removed after _
        change Asking (if removed ≠ 0 then _ else _) after
        split
        · exact asking_any trivial fun _ _ => asking_last trivial
        · trivial
      · trivial

theorem mem_of_hostsAt {index : Int} {hosts : HostList} {entry : HostEntry}
    (found : hostsAt index hosts = some entry) : entry ∈ hosts.entries.toList := by
  unfold hostsAt at found
  split at found
  · cases found
  · rename_i inside
    cases found
    have used : index.toNat < hosts.entries.count := by omega
    have within : index.toNat < hosts.entries.toList.length := by
      rw [Table.length_toList]
      exact used
    rw [← Table.getElem_toList within]
    exact List.getElem_mem within

theorem forgetSelected_asking (selected : Int) :
    Asking (forgetSelected selected) state := by
  refine asking_call trivial fun found after looked => ?_
  obtain ⟨⟨rfl, same⟩, _⟩ := looked
  cases found : hostsAt selected state.1 with
  | none => exact asking_last trivial
  | some entry =>
      refine asking_call trivial fun known known_after made => ?_
      have known_same : known_after.1 = after.1 := made.1
      cases known with
      | none => exact asking_last trivial
      | some fingerprint =>
          refine asking_call trivial fun yes answered made => ?_
          obtain ⟨unchanged, noted⟩ := made
          have unchanged : answered.1 = known_after.1 := unchanged
          split
          · rename_i agreed
            have noted : answered.2 = some (forgetQuestion entry) :=
              noted.trans (if_pos agreed)
            have listed : entry ∈ answered.1.entries.toList := by
              rw [unchanged, known_same, same]
              exact mem_of_hostsAt found
            refine ⟨⟨entry, listed, rfl, rfl, noted⟩, ?_⟩
            intro forgotten after _
            change Asking (if forgotten ≠ 0 then _ else _) after
            split
            · exact asking_any trivial fun _ _ => asking_last trivial
            · trivial
          · trivial

theorem frame_asking (build : Build) (view : View) :
    Asking (hostListFrame build view) state := by
  refine asking_any trivial fun count _ => ?_
  dsimp only
  generalize view.clamped count = view
  refine asking_bind (drawList_asking build view) fun _ _ => ?_
  refine asking_any trivial fun _ _ => asking_any trivial fun leaving _ => ?_
  split
  · trivial
  refine asking_any trivial fun pressed _ => ?_
  split
  · trivial
  split
  · trivial
  split
  · split
    · refine asking_bind (editHost_asking _) fun _ _ => ?_
      exact asking_any trivial fun _ _ => trivial
    · trivial
  split
  · exact asking_bind (editHost_asking _) fun _ _ => trivial
  split
  · exact asking_bind (deleteSelected_asking _) fun _ _ => trivial
  split
  · exact asking_bind (forgetSelected_asking _) fun _ _ => trivial
  split
  · trivial
  · trivial

/-- In every frame of the list of servers, whatever the buttons and the answers
are, no server is removed and no key forgotten but the one that the user has
just said yes to, asked by its name. -/
theorem taken_only_if_confirmed (build : Build) (view : View)
    (start : HostList × Option Question) :
    ∀ call state, Asks askedWorld (hostListFrame build view) start call state →
      Confirmed call state :=
  fun _ _ asked => (frame_asking build view).asks asked

/-- The triangle is pressed on the only server, and the question answered with
yes. -/
theorem exists_removal :
    ∃ state, Asks askedWorld (hostListFrame ⟨[], []⟩ ⟨0, 0⟩) (oneHost "pi", none)
      (.hostsRemove 0) state := by
  have counted (answered : Option Question) :
      askedWorld (oneHost "pi", answered) .hostsCount (1 : Int) (oneHost "pi", none) :=
    ⟨⟨rfl, rfl⟩, rfl⟩
  have found (answered : Option Question) :
      askedWorld (oneHost "pi", answered) (.hostsAt 0)
        (some ((oneHost "pi").entries.slots 0)) (oneHost "pi", none) :=
    ⟨⟨rfl, rfl⟩, rfl⟩
  have drawn (drawings : List Drawing) (answered : Option Question) :
      askedWorld (oneHost "pi", answered) (.draw drawings) () (oneHost "pi", none) :=
    ⟨rfl, rfl⟩
  have stays : askedWorld (oneHost "pi", none) .padExitRequested false
      (oneHost "pi", none) := ⟨rfl, rfl⟩
  have triangle : askedWorld (oneHost "pi", none) .padPressed
      (fun button => button = .triangle) (oneHost "pi", none) := ⟨rfl, rfl⟩
  have yes (question detail : List UInt8) :
      askedWorld (oneHost "pi", none) (.uiConfirm question detail) true
        (oneHost "pi", some (question, detail)) := ⟨rfl, rfl⟩
  let first := (oneHost "pi").entries.slots 0
  refine ⟨(oneHost "pi", some (deleteQuestion first)),
    .later (counted _) (.later (counted _) (.later (drawn _ _) ?_))⟩
  refine .later (drawn _ _) (.later (found _) (.later (drawn _ _) ?_))
  refine .later (drawn _ _) (.later (drawn _ _) (.later (drawn _ _) ?_))
  refine .later stays (.later triangle (.later (found _) (.later (yes _ _) ?_)))
  exact .here

theorem removal_is_confirmed :
    ∃ state, Asks askedWorld (hostListFrame ⟨[], []⟩ ⟨0, 0⟩) (oneHost "pi", none)
      (.hostsRemove 0) state ∧ Confirmed (.hostsRemove 0) state := by
  obtain ⟨state, asked⟩ := exists_removal
  exact ⟨state, asked,
    taken_only_if_confirmed ⟨[], []⟩ ⟨0, 0⟩ (oneHost "pi", none) _ _ asked⟩

end Pspssh.Menu
