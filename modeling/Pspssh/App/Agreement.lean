import Pspssh.App.Connect
import Pspssh.Net.Dialling

namespace Pspssh.App

open Pspssh.Data Pspssh.Card Pspssh.Hosts Pspssh.Keyboard Pspssh.Known
open Pspssh.Menu.Editor Pspssh.Screen
open Pspssh.Data.Process (Observed Returns returns_ask returns_bind)

/-! What the machine lets a prompt, an edited field and a new connection come to
is what they do, and a key is checked as the list of keys has it. -/

variable {faults : IoCall → Prop} {device : Machine}

/-! ## The keyboard -/

theorem oskPrompt_agrees {outLen : Nat} {prompt initial : List UInt8} {kind : OskKind}
    {backdrop : Option (List Drawing)} {out cells : Cells outLen UInt8}
    {script : Script} {osk : Osk} {outcome : Outcome outLen} (room : 2 ≤ outLen)
    (before : out.text.length < outLen)
    (returned : oskPrompt (some prompt) (some initial) kind backdrop.isSome (some out)
      script osk = some outcome)
    (written : outcome.out = some cells) :
    machine faults device (.oskPrompt prompt initial outLen kind backdrop)
      (outcome.result, cells.text) device := by
  refine ⟨⟨Cells.zero_not_mem_text cells, ?_⟩, rfl⟩
  rcases oskPrompt_cases room returned with ⟨_, handed⟩ | ⟨_, gaveUp⟩
  · obtain rfl := Option.some.inj (written.symm.trans handed.out)
    rw [text_fromUtf16 _ _ (by omega), List.length_map, List.length_take]
    omega
  · obtain rfl := Option.some.inj (written.symm.trans gaveUp.out)
    exact before

section Fields

variable [Libc] {form : HostEntry} {script : Script} {osk : Osk} {edit : Edit}

/-- A number that is asked for stays as it was, or is one in its range. -/
theorem editNumber_cases {prompt : List UInt8} {value low high : Int32}
    {problem : Message} {put : Int32 → HostEntry}
    (edited : editNumber prompt value low high problem put script osk = some edit) :
    ∃ number, edit.form = put number ∧
      (number = value ∨ low ≤ number ∧ number ≤ high) := by
  obtain ⟨asked, _, rfl⟩ := Option.map_eq_some_iff.mp edited
  dsimp only
  split
  · exact ⟨value, rfl, .inl rfl⟩
  split
  · rename_i within
    exact ⟨_, rfl, .inr within⟩
  · exact ⟨value, rfl, .inl rfl⟩

/-- `edit_current_field` changes no field but its own. -/
theorem editCurrentField_editedBy {field : FormField}
    (edited : editCurrentField form field script osk = some edit) :
    EditedBy field form edit.form := by
  cases field with
  | name =>
      obtain ⟨asked, _, rfl⟩ := Option.map_eq_some_iff.mp edited
      exact ⟨fun other => absurd rfl other, fun _ => rfl, fun _ => rfl, fun _ => rfl,
        .inl rfl, .inl rfl⟩
  | address =>
      obtain ⟨asked, _, rfl⟩ := Option.map_eq_some_iff.mp edited
      exact ⟨fun _ => rfl, fun other => absurd rfl other, fun _ => rfl, fun _ => rfl,
        .inl rfl, .inl rfl⟩
  | user =>
      obtain ⟨asked, _, rfl⟩ := Option.map_eq_some_iff.mp edited
      exact ⟨fun _ => rfl, fun _ => rfl, fun other => absurd rfl other, fun _ => rfl,
        .inl rfl, .inl rfl⟩
  | password =>
      obtain ⟨asked, _, rfl⟩ := Option.map_eq_some_iff.mp edited
      exact ⟨fun _ => rfl, fun _ => rfl, fun _ => rfl, fun other => absurd rfl other,
        .inl rfl, .inl rfl⟩
  | port =>
      unfold editCurrentField at edited
      obtain ⟨number, put, range⟩ := editNumber_cases edited
      rw [put]
      exact ⟨fun _ => rfl, fun _ => rfl, fun _ => rfl, fun _ => rfl,
        range.imp_right fun within => ⟨rfl, within⟩, .inl rfl⟩
  | profile =>
      unfold editCurrentField at edited
      obtain ⟨number, put, range⟩ := editNumber_cases edited
      rw [put]
      exact ⟨fun _ => rfl, fun _ => rfl, fun _ => rfl, fun _ => rfl, .inl rfl,
        range.imp_right fun within => ⟨rfl, within⟩⟩

theorem editCurrentField_agrees {field : FormField}
    (edited : editCurrentField form field script osk = some edit) :
    machine faults device (.editCurrentField form field) edit.form device :=
  ⟨editCurrentField_editedBy edited, rfl⟩

end Fields

/-! ## A connection -/

theorem netConnect_agrees {names : List UInt8 → UInt32 → Prop}
    {before after : Net.Socket.Wires} {host : List UInt8} {port : Int32} {fd : Int}
    (sockets : before.sockets = device.sockets)
    (run : Returns (Net.Socket.onWires names) (Net.Socket.netConnect host port) before
      fd after) :
    machine faults device (.netConnect host port) fd
      { device with sockets := after.sockets } := by
  obtain ⟨_, _, dialled⟩ := (Net.Socket.netConnect_dialled port).returns fd after run
  split_ifs at dialled with opened
  · exact ⟨fun _ => sockets ▸ dialled.1, by rw [if_pos opened, ← sockets, dialled.2.1]⟩
  · exact ⟨fun other => absurd other opened, by rw [if_neg opened, dialled, sockets]⟩

/-! ## The check of a key -/

def shownBy : AppEvent → List Shown
  | ⟨.consolePrintf text, _⟩ => [.console text]
  | ⟨.uiMessage title (some note) _, _⟩ => [.message title note]
  | ⟨.uiConfirm question note, _⟩ => [.confirm question note]
  | _ => []

def showing (faults : IoCall → Prop) : World AppCall.Result (Machine × List Shown) :=
  Observed (machine faults) fun _ shown event => shown ++ shownBy event

theorem onCard_returns {α : Type} {program : Io α} {shown : List Shown} {value : α}
    {after : Machine × List Shown}
    (run : Returns (showing faults) (onCard program) (device, shown) value after) :
    ∃ card, Program.Returns (Step faults) program device.card value card ∧
      after = ({ device with card }, shown) := by
  induction program generalizing device with
  | done value =>
      cases run
      exact ⟨_, .done, rfl⟩
  | call request next ih =>
      obtain ⟨result, ⟨middle, unseen⟩, asked, rest⟩ := returns_bind run
      obtain ⟨⟨stepped, same⟩, noted⟩ := returns_ask asked
      have quiet : shown ++ shownBy ⟨.card request, result⟩ = shown :=
        List.append_nil shown
      dsimp only at stepped same noted
      rw [noted, same, quiet] at rest
      obtain ⟨card, ended, same⟩ := ih result rest
      exact ⟨card, .call stepped ended, same⟩

/-- A call that leaves the machine alone only shows what it shows. -/
theorem returns_shows {α : Type} {op : AppCall} {next : op.Result → Psp α}
    {shown : List Shown} {value : α} {after : Machine × List Shown}
    (run : Returns (showing faults) (call op >>= next) (device, shown) value after)
    (still : ∀ result after, machine faults device op result after → after = device) :
    ∃ result, Returns (showing faults) (next result)
      (device, shown ++ shownBy ⟨op, result⟩) value after := by
  obtain ⟨result, middle, asked, rest⟩ := returns_bind run
  obtain ⟨made, noted⟩ := returns_ask asked
  rw [show middle = (device, _) from Prod.ext (still result _ made) noted] at rest
  exact ⟨result, rest⟩

/-- What `check_hostkey` does with its machine around it, `Known.checkHostkey` does
with the list, by some answer to the question. -/
theorem checkHostkey_agrees {host : HostEntry} {fingerprint : List UInt8}
    {verdict : Int} {after : Machine} {shown : List Shown}
    (plain : (cString fingerprint).text = fingerprint)
    (run : Returns (showing faults) (checkHostkey host fingerprint) (device, []) verdict
      (after, shown)) :
    ∃ uiConfirm known card,
      Program.Returns (Step faults)
        (Known.checkHostkey uiConfirm host (cString fingerprint) device.statics.known)
        device.card (verdict, known, shown) card ∧
      after = { device with card, statics := { device.statics with known } } := by
  obtain ⟨statics, ⟨middle, _⟩, asked, run⟩ := returns_bind run
  obtain ⟨⟨same, still⟩, noted⟩ := returns_ask asked
  dsimp only at same still noted
  obtain rfl := still.symm
  subst same noted
  unfold Known.checkHostkey
  rw [plain]
  cases found : knownhostsLookup (some host.address.toCString) host.port
      device.statics.known with
  | some known =>
      have pinned : known.text = fingerprint ↔ known = cString fingerprint := by
        rw [CString.ext_iff, plain]
      rw [found] at run
      dsimp only at run
      split_ifs at run with matching
      · obtain ⟨_, run⟩ := returns_shows run fun _ _ same => same
        cases run
        refine ⟨fun _ _ => false, _, _, ?_, rfl⟩
        dsimp only
        rw [if_pos (pinned.mp matching)]
        exact .done
      · obtain ⟨_, run⟩ := returns_shows run fun _ _ same => same
        obtain ⟨_, run⟩ := returns_shows run fun _ _ same => same
        obtain ⟨_, run⟩ := returns_shows run fun _ _ same => same
        obtain ⟨_, run⟩ := returns_shows run fun _ _ same => same
        cases run
        have dash : utf8 "if you rebuilt it, forget its key from the list — SELECT" =
            ascii "if you rebuilt it, forget its key from the list " ++
              [0xe2, 0x80, 0x94] ++ ascii " SELECT" := by decide +kernel
        refine ⟨fun _ _ => false, _, _, ?_, rfl⟩
        dsimp only
        rw [if_neg (mt pinned.mpr matching), ← dash]
        exact .done
  | none =>
      rw [found] at run
      dsimp only at run
      obtain ⟨_, run⟩ := returns_shows run fun _ _ same => same
      obtain ⟨yes, run⟩ := returns_shows run fun _ _ same => same
      refine ⟨fun _ _ => yes, ?_⟩
      cases yes with
      | false =>
          cases run
          exact ⟨_, _, .done, rfl⟩
      | true =>
          obtain ⟨⟨result, known⟩, _, saved, run⟩ := returns_bind run
          obtain ⟨card, remembered, rfl⟩ := onCard_returns saved
          obtain ⟨_, ⟨_, _⟩, changed, run⟩ := returns_bind run
          obtain ⟨rfl, rfl⟩ := returns_ask changed
          dsimp only at run
          split_ifs at run with failed
          · obtain ⟨_, run⟩ := returns_shows run fun _ _ same => same
            cases run
            refine ⟨known, card, Program.returns_bind_iff.mpr
              ⟨(result, known), card, remembered, ?_⟩, rfl⟩
            dsimp only
            rw [if_pos failed]
            exact .done
          · cases run
            refine ⟨known, card, Program.returns_bind_iff.mpr
              ⟨(result, known), card, remembered, ?_⟩, rfl⟩
            dsimp only
            rw [if_neg failed]
            exact .done

end Pspssh.App
