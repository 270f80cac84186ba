import Pspssh.Hosts.Entry
import Pspssh.Keyboard.Prompt

namespace Pspssh.Menu.Editor

open Pspssh.Data Pspssh.Hosts Pspssh.Screen Pspssh.Keyboard

/-! A field of the editor in the keyboard. -/

inductive FormField where
  | name | address | port | user | password | profile

structure Message where
  title : List UInt8
  detail : List UInt8
  colour : UInt32

def fieldCells {size : Nat} (field : Field size) : Cells size UInt8 :=
  Cells.store 0 field.text

def written {size : Nat} (field : Field size) (cells : Cells size UInt8) :
    Field size where
  text := cells.text.take (size - 1)
  noNul := fun member => cells.zero_not_mem_text (List.mem_of_mem_take member)
  fits := by
    have := field.fits
    rw [List.length_take]
    omega

structure Asked (size : Nat) where
  result : OskResult
  field : Field size
  osk : Osk
  shown : List Message

def ask {size : Nat} (prompt initial : List UInt8) (field : Field size)
    (kind : OskKind) (script : Script) (osk : Osk) :
    Option (Asked size) :=
  (oskPrompt (some prompt) (some initial) kind true (some (fieldCells field))
    script osk).map fun outcome =>
      { result := outcome.result
        field := (outcome.out.map (written field)).getD field
        osk := outcome.osk
        shown :=
          if outcome.result = .unavailable then
            [⟨ascii "the keyboard would not open", oskFailure outcome.osk, gfxRed⟩]
          else [] }

structure Edit where
  form : HostEntry
  osk : Osk
  shown : List Message

section Editing

variable [Libc]

def digitsLen : Nat := 8

instance : NeZero digitsLen := ⟨by decide⟩

/-- The fields that hold a number: kept if it is between `low` and `high`,
refused with a message otherwise. -/
def editNumber (prompt : List UInt8) (value low high : Int32)
    (problem : Message) (put : Int32 → HostEntry) (script : Script) (osk : Osk) :
    Option Edit :=
  let digits := copyField digitsLen (intText value)
  (ask prompt digits.text digits .digits script osk).map fun asked =>
    let entered := atoi asked.field.text
    if asked.result ≠ .entered then ⟨put value, asked.osk, asked.shown⟩
    else if low ≤ entered ∧ entered ≤ high then
      ⟨put entered, asked.osk, asked.shown⟩
    else ⟨put value, asked.osk, asked.shown ++ [problem]⟩

def editCurrentField (form : HostEntry) (field : FormField) (script : Script)
    (osk : Osk) : Option Edit :=
  match field with
  | .name =>
      (ask (ascii "a short name for this host") form.name.text form.name .text
        script osk).map fun asked =>
          ⟨{ form with name := asked.field }, asked.osk, asked.shown⟩
  | .address =>
      (ask (ascii "host name or ip address") form.address.text form.address
        .hostname script osk).map fun asked =>
          ⟨{ form with address := asked.field }, asked.osk, asked.shown⟩
  | .user =>
      (ask (ascii "user name on the server") form.user.text form.user .text
        script osk).map fun asked =>
          ⟨{ form with user := asked.field }, asked.osk, asked.shown⟩
  | .password =>
      (ask (utf8 "password — leave empty to be asked each time") []
        form.password .text script osk).map fun asked =>
          ⟨{ form with password := asked.field }, asked.osk, asked.shown⟩
  | .port =>
      editNumber (ascii "port") form.port 1 65535
        ⟨ascii "that is not a port", ascii "a port is a number from 1 to 65535",
          gfxRed⟩
        (fun port => { form with port }) script osk
  | .profile =>
      editNumber (ascii "wi-fi profile number, or 0 to try each one") form.profile
        0 10
        ⟨ascii "that is not a profile",
          ascii "the psp holds ten, numbered 1 to 10", gfxRed⟩
        (fun profile => { form with profile }) script osk

end Editing

/-! ## Confirming what was there -/

/-- The dialog is confirmed with the text it was given, as it was given. -/
structure HandsBack (script : Script) (text : List UInt8) (osk : Osk) : Prop where
  confirms : script.Confirms
  same : script.left = toUtf16 (some text) osk.in16 oskMax

/-- The text that the keyboard opens with, for the fields that are texts. -/
def FormField.prefilled (form : HostEntry) : FormField → Option (List UInt8)
  | .name => some form.name.text
  | .address => some form.address.text
  | .user => some form.user.text
  | .password => none
  | .port => none
  | .profile => none

section Confirmed

variable {size : Nat} {prompt : List UInt8} {field : Field size}
  {kind : OskKind} {script : Script} {osk : Osk} {asked : Asked size}

theorem written_eq_iff {cells : Cells size UInt8}
    (fits : cells.text.length < size) :
    written field cells = field ↔ cells.text = field.text := by
  have text : (written field cells).text = cells.text :=
    List.take_of_length_le (by omega)
  rw [Field.ext_iff, text]

/-- A field that is handed back comes out as it was exactly if the font can
draw all of it. -/
theorem ask_handed_back (room : 2 ≤ size) (short : size ≤ oskMax)
    (handed : HandsBack script field.text osk)
    (made : ask prompt field.text field kind script osk = some asked) :
    asked.field = field ↔ ∀ ch ∈ field.text, Typable ch := by
  obtain ⟨outcome, returned, rfl⟩ := Option.map_eq_some_iff.mp made
  rcases oskPrompt_cases room returned with ⟨_, handsOver⟩ | ⟨refused, _⟩
  · have fits : (fromUtf16 script.left (fieldCells field) size).text.length <
        size := by
      rw [text_fromUtf16 _ _ (by omega), List.length_map, List.length_take]
      omega
    rw [handsOver.out]
    change written field (fromUtf16 script.left (fieldCells field) size) = field ↔ _
    rw [written_eq_iff fits, handed.same]
    exact fromUtf16_toUtf16_iff field short osk.in16 (fieldCells field)
  · exact absurd handed.confirms refused

/-- The same of the form that the field is put back into. -/
theorem put_back_iff {form : HostEntry} {edit : Edit} (room : 2 ≤ size)
    (short : size ≤ oskMax) (put : Field size → HostEntry)
    (read : HostEntry → Field size) (read_put : ∀ field, read (put field) = field)
    (was : put field = form) (handed : HandsBack script field.text osk)
    (edited : (ask prompt field.text field kind script osk).map (fun asked =>
      (⟨put asked.field, asked.osk, asked.shown⟩ : Edit)) = some edit) :
    edit.form = form ↔ ∀ ch ∈ field.text, Typable ch := by
  obtain ⟨asked, made, rfl⟩ := Option.map_eq_some_iff.mp edited
  rw [← ask_handed_back room short handed made, ← was]
  constructor
  · intro same
    rw [← read_put asked.field, ← read_put field]
    exact congrArg read same
  · intro same
    exact congrArg put same

end Confirmed

/-- A field that is confirmed as the keyboard was given it leaves the form as
it was exactly if every byte of it is one that the font can draw. -/
theorem unedited_field_kept_iff [Libc] {form : HostEntry} {field : FormField}
    {text : List UInt8} {script : Script} {osk : Osk} {edit : Edit}
    (prefilled : field.prefilled form = some text)
    (handed : HandsBack script text osk)
    (edited : editCurrentField form field script osk = some edit) :
    edit.form = form ↔ ∀ ch ∈ text, Typable ch := by
  cases field with
  | name =>
      cases prefilled
      exact put_back_iff (by decide) (by decide)
        (fun name => { form with name }) HostEntry.name (fun _ => rfl) rfl handed
        edited
  | address =>
      cases prefilled
      exact put_back_iff (by decide) (by decide)
        (fun address => { form with address }) HostEntry.address (fun _ => rfl)
        rfl handed edited
  | user =>
      cases prefilled
      exact put_back_iff (by decide) (by decide)
        (fun user => { form with user }) HostEntry.user (fun _ => rfl) rfl handed
        edited
  | password => cases prefilled
  | port => cases prefilled
  | profile => cases prefilled

def accented : HostEntry :=
  { hostsBlank with
    name :=
      { text := utf8 "café", noNul := by decide +kernel, fits := by decide +kernel }
    address :=
      { text := ascii "10.0.0.2", noNul := by decide +kernel,
        fits := by decide +kernel }
    user :=
      { text := ascii "root", noNul := by decide +kernel,
        fits := by decide +kernel } }

theorem unedited_user_kept :
    ∃ edit, @editCurrentField saturating accented .user
        (typing (ascii "root") .unchanged) freshOsk = some edit ∧
      edit.form = accented := by
  have handed : HandsBack (typing (ascii "root") .unchanged) (ascii "root")
      freshOsk := ⟨⟨by decide, by decide +kernel, by decide⟩, rfl⟩
  have user : accented.user.text = ascii "root" := by decide +kernel
  obtain ⟨edit, edited⟩ : ∃ edit, @editCurrentField saturating accented .user
      (typing (ascii "root") .unchanged) freshOsk = some edit :=
    Option.isSome_iff_exists.mp (by decide +kernel)
  have prefilled : FormField.prefilled accented .user = some (ascii "root") :=
    congrArg some user
  refine ⟨edit, edited, ?_⟩
  exact (@unedited_field_kept_iff saturating _ _ _ _ _ _ prefilled handed
    edited).mpr (by decide +kernel)

/-- A name that a file may hold is changed by confirming it. -/
theorem unedited_name_changed :
    hostsProblem (some accented) = none ∧
      accented.name.text = utf8 "café" ∧
      HandsBack (typing (utf8 "café") .unchanged) (utf8 "café") freshOsk ∧
      ∃ edit, @editCurrentField saturating accented .name
          (typing (utf8 "café") .unchanged) freshOsk = some edit ∧
        edit.form.name.text = ascii "caf??" ∧ edit.form ≠ accented := by
  have accepted : hostsProblem (some accented) = none := by decide +kernel
  have name : accented.name.text = utf8 "café" := by decide +kernel
  have handed : HandsBack (typing (utf8 "café") .unchanged) (utf8 "café")
      freshOsk := ⟨⟨by decide, by decide +kernel, by decide⟩, rfl⟩
  have changed : (@editCurrentField saturating accented .name
      (typing (utf8 "café") .unchanged) freshOsk).map (·.form.name.text) =
        some (ascii "caf??") := by decide +kernel
  obtain ⟨edit, edited, text⟩ := Option.map_eq_some_iff.mp changed
  refine ⟨accepted, name, handed, edit, edited, text, fun same => ?_⟩
  rw [same, name] at text
  exact absurd text (by decide +kernel)

end Pspssh.Menu.Editor
