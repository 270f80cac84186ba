import Pspssh.App.Sound
import Pspssh.Hosts.Memory

namespace Pspssh.App

open Pspssh.Data Pspssh.Card Pspssh.Core Pspssh.Hosts Pspssh.Known Pspssh.Menu
open Pspssh.Menu.Editor Pspssh.Screen
open Pspssh.Data.Process (Guarded Asks Returns)

/-! The editor: what it shows, what it keeps and what it leaves behind. -/

/-- The form with no more of a stored password than that there is one. -/
def masked (form : HostEntry) : HostEntry :=
  if form.password.text = [] then form
  else { form with password := copyField _ (ascii "*") }

theorem masked_empty_iff (form : HostEntry) :
    (masked form).password.text = [] ↔ form.password.text = [] := by
  unfold masked
  split
  · rfl
  · rename_i stored
    have hidden : (copyField hostPasswordLen (ascii "*")).text ≠ [] := by decide
    exact iff_of_false hidden stored

theorem fieldValue_masked (form : HostEntry) (field : FormField) :
    fieldValue (masked form) field = fieldValue form field := by
  cases field with
  | password => simp only [fieldValue, masked_empty_iff]
  | _ =>
      unfold masked
      split
      · rfl
      · rfl

theorem drawForm_masked (build : Build) (clears : Bool) (statics : Statics) :
    drawForm build clears { statics with form := masked statics.form } =
      drawForm build clears statics := by
  have field (chosen i : Int) : drawField (masked statics.form) chosen i =
      drawField statics.form chosen i := by
    unfold drawField
    split
    · rfl
    · simp only [fieldValue_masked]
  simp only [drawForm, field, ne_eq, masked_empty_iff]

/-! ## What there is to keep -/

def formEdit (isNew : Bool) (index : Int) (entry : HostEntry) : HostEdit :=
  if isNew then .add (some entry) else .replace index (some entry)

def Untouched (start device : Machine) : Prop :=
  device.statics.hosts.entries.toList = start.statics.hosts.entries.toList ∧
    device.card = start.card

/-- The form is open. Neither the list nor the card has changed, unless a save
may have failed. -/
structure Editing (faults : IoCall → Prop) (start : Machine) (isNew : Bool)
    (device : Machine) : Prop extends AtRest device where
  untouched : Untouched start device ∨ Faulty faults
  isNew : device.statics.formIsNew = isNew
  field : 0 ≤ device.statics.formField ∧ device.statics.formField < fieldCount

/-- An entry that was accepted is in the list, and the list on the card. -/
def Saved (faults : IoCall → Prop) (index : Int) (start : Machine) (isNew : Bool)
    (device : Machine) : Prop :=
  ∃ entry list, hostsProblem (some entry) = none ∧
    (list = start.statics.hosts.entries.toList ∨ Faulty faults) ∧
    (formEdit isNew index entry).onList list =
      some device.statics.hosts.entries.toList ∧
    device.card.files hostsPath = some (listText device.statics.hosts.entries.toList)

/-- What the editor returns, and how it leaves the list and the card. -/
structure Edited (faults : IoCall → Prop) (index : Int) (start : Machine)
    (isNew : Bool) (value : Int) (device : Machine) : Prop where
  calm : Calm device
  outcome : value = 0 ∧ (Untouched start device ∨ Faulty faults) ∨
    value = 1 ∧ Saved faults index start isNew device

/-- A frame shows the form and nothing of its password. -/
def Hides (build : Build) : AppCall → Machine × Seen → Prop
  | .draw drawings, (device, _) =>
      drawings = drawForm build true
        { device.statics with form := masked device.statics.form } ++ [.flip]
  | _, _ => True

/-! ## One pass -/

section Passes

variable {faults : IoCall → Prop} {build : Build} {index : Int} {start device : Machine}
  {isNew : Bool} {seen : Seen}

abbrev Kept (build : Build) (op : AppCall) (state : Machine × Seen) : Prop :=
  Sound op state ∧ Hides build op state

theorem kept_of_same {change : Statics → Statics}
    (same : (change device.statics).known = device.statics.known) :
    Kept build (.modify change) (device, seen) :=
  ⟨sound_of_same same, trivial⟩

theorem Editing.formed (editing : Editing faults start isNew device)
    (form : HostEntry) :
    Editing faults start isNew
      { device with statics := { device.statics with form } } :=
  { editing with }

/-- A change of the list on the card, and when it is taken as made. -/
theorem edit_kept (editing : Editing faults start isNew device)
    (accepted : hostsProblem (some device.statics.form) = none) (edit : HostEdit)
    (kept : Int → Bool) (same : edit = formEdit isNew index device.statics.form)
    (made : ∀ list, kept (edit.answer list) = true) (failed : kept (-1) = false) :
    Guarded (scene faults) (Kept build)
      (fun kept after =>
        if kept = true then AtRest after.1 ∧ Saved faults index start isNew after.1
        else Editing faults start isNew after.1)
      (do
        let (result, hosts) ← onCard (edit.run device.statics.hosts)
        modify fun statics => { statics with hosts }
        pure (kept result)) (device, seen) := by
  have before : device.statics.hosts.entries.toList =
      start.statics.hosts.entries.toList ∨ Faulty faults :=
    editing.untouched.imp_left And.left
  refine onCard_next (fun _ _ => ⟨trivial, trivial⟩) ?_
  rintro ⟨value, hosts⟩ card run
  refine guarded_modify (kept_of_same rfl) (.done ?_)
  dsimp only
  rcases edit_cases run with ⟨_, rfl, entries, rfl⟩ | ⟨changed, saved⟩
  · rw [failed, if_neg Bool.false_ne_true]
    exact
      { sockets := editing.sockets
        closed := editing.closed
        accepted := by
          change ∀ entry ∈ hosts.entries.toList, _
          rw [entries]
          exact editing.accepted
        untouched := editing.untouched.imp_left fun untouched =>
          ⟨(congrArg Table.toList entries).trans untouched.1, untouched.2⟩
        isNew := editing.isNew
        field := editing.field }
  · have resting : AtRest
        { device with card, statics := { device.statics with hosts } } :=
      ⟨editing.sockets, editing.closed,
        onList_accepted editing.accepted changed⟩
    rcases saved with ⟨rfl, present⟩ | ⟨rfl, faulty⟩
    · rw [made, if_pos rfl]
      refine ⟨resting, device.statics.form, _, accepted, before, ?_, present⟩
      rw [← same]
      exact changed
    · rw [failed, if_neg Bool.false_ne_true]
      exact
        { resting with
          untouched := .inr faulty
          isNew := editing.isNew
          field := editing.field }

theorem keepForm_guarded (editing : Editing faults start isNew device)
    (accepted : hostsProblem (some device.statics.form) = none) :
    Guarded (scene faults) (Kept build)
      (fun kept after =>
        if kept = true then AtRest after.1 ∧ Saved faults index start isNew after.1
        else Editing faults start isNew after.1)
      (keepForm index device.statics) (device, seen) := by
  unfold keepForm
  rw [editing.isNew]
  cases isNew with
  | true =>
      refine edit_kept editing accepted (.add (some device.statics.form))
        (fun result => 0 ≤ result) rfl ?_ rfl
      intro list
      exact decide_eq_true (Int.natCast_nonneg list.length)
  | false =>
      refine edit_kept editing accepted (.replace index (some device.statics.form))
        (fun result => result = 0) rfl ?_ rfl
      exact fun list => rfl

def Continues (faults : IoCall → Prop) (index : Int) (start : Machine) (isNew : Bool) :
    Unit ⊕ Int → Machine × Seen → Prop :=
  Sum.elim (fun _ after => Editing faults start isNew after.1)
    (fun value after => Edited faults index start isNew value after.1)

/-- The form is forgotten, whatever comes of it. -/
theorem wipeForm_next {α : Type} {next : Unit → Psp α}
    {post : α → Machine × Seen → Prop}
    (resting : AtRest device)
    (rest : ∀ device', Calm device' → device'.statics.hosts = device.statics.hosts →
      device'.card = device.card →
        Guarded (scene faults) (Kept build) post (next ()) (device', seen)) :
    Guarded (scene faults) (Kept build) post (wipeForm >>= next) (device, seen) :=
  guarded_modify (kept_of_same rfl)
    (rest { device with statics := { device.statics with form := Hosts.zeroEntry } }
      ⟨⟨resting.sockets, resting.closed, resting.accepted⟩, rfl⟩ rfl rfl)

/-- What follows once the form has a name. -/
theorem named_guarded (editing : Editing faults start isNew device) :
    Guarded (scene faults) (Kept build) (Continues faults index start isNew)
      (do
        let statics ← call .statics
        match hostsProblem (some statics.form) with
        | some problem =>
            call (.uiMessage (ascii "that host cannot be saved")
              (some (ascii problem)) gfxRed)
            pure (.inl ())
        | none =>
            if ← keepForm index statics then
              wipeForm
              pure (.inr 1)
            else
              let statics ← call .statics
              call (.uiMessage (ascii "it could not be saved")
                (some (hostsError statics.hosts)) gfxRed)
              pure (.inl ())) (device, seen) := by
  refine guarded_statics ⟨trivial, trivial⟩ ?_
  split
  · exact guarded_silent trivial ⟨trivial, trivial⟩ fun _ => .done editing
  · rename_i accepted
    refine .bind ((keepForm_guarded editing accepted).mono ?_)
    rintro kept ⟨device, seen⟩ ends
    cases kept with
    | true =>
        obtain ⟨resting, saved⟩ := ends
        refine wipeForm_next resting fun after calm hosts card => .done ?_
        refine ⟨calm, .inr ⟨rfl, ?_⟩⟩
        unfold Saved
        rw [hosts, card]
        exact saved
    | false =>
        refine guarded_statics ⟨trivial, trivial⟩ ?_
        exact guarded_silent trivial ⟨trivial, trivial⟩ fun _ => .done ends

theorem saveForm_guarded (editing : Editing faults start isNew device) :
    Guarded (scene faults) (Kept build) (Continues faults index start isNew)
      (saveForm index) (device, seen) := by
  refine guarded_statics ⟨trivial, trivial⟩ ?_
  split
  · exact guarded_modify (kept_of_same rfl) (named_guarded (editing.formed _))
  · exact named_guarded editing

theorem moveField_next {α : Type} {next : Unit → Psp α}
    {post : α → Machine × Seen → Prop} {by_rows : Int}
    (editing : Editing faults start isNew device) (forward : 0 ≤ by_rows)
    (rest : ∀ device, Editing faults start isNew device →
      Guarded (scene faults) (Kept build) post (next ()) (device, seen)) :
    Guarded (scene faults) (Kept build) post (moveField by_rows >>= next)
      (device, seen) := by
  refine guarded_modify (kept_of_same rfl) (rest _ { editing with field := ?_ })
  obtain ⟨lower, upper⟩ := editing.field
  change 0 ≤ Int.tmod (device.statics.formField + by_rows) fieldCount ∧
    Int.tmod (device.statics.formField + by_rows) fieldCount < fieldCount
  have size : fieldCount = 6 := rfl
  rw [size] at upper ⊢
  exact ⟨Int.tmod_nonneg 6 (by omega), Int.tmod_lt_of_pos _ (by omega)⟩

theorem editField_next {α : Type} {next : Unit → Psp α}
    {post : α → Machine × Seen → Prop}
    (editing : Editing faults start isNew device)
    (rest : ∀ device, Editing faults start isNew device →
      Guarded (scene faults) (Kept build) post (next ()) (device, seen)) :
    Guarded (scene faults) (Kept build) post (editField >>= next) (device, seen) := by
  refine .bind (guarded_statics ⟨trivial, trivial⟩ ?_)
  split
  · exact .done (rest device editing)
  · refine guarded_call ⟨trivial, trivial⟩ fun form after made => ?_
    obtain ⟨⟨_, same⟩, noted⟩ := made
    have unseen : after.2 = seen := noted
    rw [← Prod.eta after, same, unseen]
    exact guarded_modify_last (kept_of_same rfl) (rest _ (editing.formed form))

theorem editPass_continues (editing : Editing faults start isNew device) :
    Guarded (scene faults) (Kept build)
      (Continues faults index start isNew) (editPass build index) (device, seen) := by
  have left {device : Machine} (editing : Editing faults start isNew device)
      {after : Machine} (calm : Calm after)
      (hosts : after.statics.hosts = device.statics.hosts)
      (card : after.card = device.card) : Edited faults index start isNew 0 after := by
    refine ⟨calm, .inl ⟨rfl, editing.untouched.imp_left fun untouched => ?_⟩⟩
    exact ⟨(congrArg (fun hosts : HostList => hosts.entries.toList) hosts).trans
      untouched.1, card.trans untouched.2⟩
  unfold editPass
  refine guarded_statics ⟨trivial, trivial⟩ ?_
  refine guarded_call ⟨trivial, ?_⟩ fun _ after drawn => ?_
  · rw [Hides, drawForm_masked]
  rw [← Prod.eta after, show after.1 = device from drawn.1]
  refine guarded_silent trivial ⟨trivial, trivial⟩ fun leaving => ?_
  split
  · exact wipeForm_next editing.toAtRest fun after calm hosts card =>
      .done (left editing calm hosts card)
  refine guarded_call ⟨trivial, trivial⟩ fun pressed after read => ?_
  rw [← Prod.eta after, show after.1 = device from read.1]
  split
  · exact moveField_next editing (by decide) fun device editing => .done editing
  split
  · exact moveField_next editing (by decide) fun device editing => .done editing
  split
  · refine editField_next editing fun device editing => ?_
    exact guarded_silent trivial ⟨trivial, trivial⟩ fun _ => .done editing
  split
  · exact saveForm_guarded editing
  split
  · refine wipeForm_next editing.toAtRest fun after calm hosts card => ?_
    exact guarded_silent trivial ⟨trivial, trivial⟩ fun _ =>
      .done (left editing calm hosts card)
  · exact .done editing

theorem editForm_edited (existing : Option HostEntry) (resting : AtRest device) :
    Guarded (scene faults) (Kept build)
      (fun value after => Edited faults index device existing.isNone value after.1)
      (editForm build index existing) (device, seen) := by
  refine guarded_modify (kept_of_same rfl) ?_
  refine guarded_silent trivial ⟨trivial, trivial⟩ fun _ => ?_
  refine .iterate (fun _ state => Editing faults device existing.isNone state.1) ?_ ?_
  · refine ⟨⟨resting.sockets, resting.closed, resting.accepted⟩, .inl ⟨rfl, rfl⟩,
      rfl, ?_⟩
    cases existing with
    | none => exact (by decide : (0 : Int) ≤ 1 ∧ (1 : Int) < fieldCount)
    | some entry => exact (by decide : (0 : Int) ≤ 0 ∧ (0 : Int) < fieldCount)
  · rintro _ ⟨device, seen⟩ editing
    exact editPass_continues editing

end Passes

/-! ## What the editor does -/

open Pspssh.Data.Process (Always)

/-- In every run of the editor, neither a frame nor the picture behind the keyboard
tells more of a stored password than that there is one; the form is wiped however it
is left; and on a card where no call fails, either nothing was changed or the entry
was accepted and is in the list and on the card. -/
theorem editor_saves_or_leaves (faults : IoCall → Prop) (build : Build) (index : Int)
    (existing : Option HostEntry) {device : Machine} {seen : Seen}
    (resting : AtRest device) :
    (∀ clears statics, drawForm build clears statics =
        drawForm build clears { statics with form := masked statics.form }) ∧
      Always (scene faults) (editForm build index existing) (device, seen)
        (Hides build) ∧
      ∀ value after,
        Returns (scene faults) (editForm build index existing) (device, seen) value
          after →
        Edited faults index device existing.isNone value after.1 := by
  have edited : Guarded (scene faults) (Kept build) _ (editForm build index existing)
      (device, seen) := editForm_edited existing resting
  exact ⟨fun clears statics => (drawForm_masked build clears statics).symm,
    edited.always fun _ _ kept => kept.2, edited.returns⟩

/-- The only server of the list is edited. -/
theorem editor_saves_or_leaves_pi :
    let build : Build := ⟨ascii "2.1.1", []⟩
    let pi := hostsAt 0 (oneHost "pi")
    (∀ clears statics, drawForm build clears statics =
        drawForm build clears { statics with form := masked statics.form }) ∧
      Always (scene noFaults) (editForm build 0 pi) (consoleWithHost, .nothing)
        (Hides build) ∧
      ∀ value after,
        Returns (scene noFaults) (editForm build 0 pi) (consoleWithHost, .nothing)
          value after →
        Edited noFaults 0 consoleWithHost false value after.1 :=
  editor_saves_or_leaves noFaults ⟨ascii "2.1.1", []⟩ 0 (hostsAt 0 (oneHost "pi"))
    consoleWithHost_calm.toAtRest

end Pspssh.App
