import Pspssh.Data.Guarded
import Pspssh.Hosts.RoundTrip
import Pspssh.Screen.Drawing

namespace Pspssh.Menu

open Pspssh.Data Pspssh.Data.Program Pspssh.Hosts Pspssh.Screen

/-! The list of saved servers, one frame at a time. -/

def listTop : Int := 4

def listRows : Int := gfxRows - listTop - 3

def footerRow : Int := gfxRows - 2

inductive Button where
  | up | down | left | right | cross | circle | square | triangle | select | start
  deriving DecidableEq

/-- What the screen calls. `dereferenceNull` is not in the source: it stands
for an access through a pointer that is `NULL`. -/
inductive UiCall where
  | hostsCount
  | hostsAt (index : Int)
  -- `edit_host` behind its call of `hosts_at`
  | editForm (index : Int) (existing : Option HostEntry)
  | hostsRemove (index : Int)
  | hostsError
  | knownhostsLookup (address : List UInt8) (port : Int32)
  | knownhostsForget (address : List UInt8) (port : Int32)
  | knownhostsError
  | draw (drawings : List Drawing)
  | padExitRequested
  | padPressed
  | uiConfirm (question detail : List UInt8)
  | uiMessage (title detail : List UInt8) (colour : UInt32)
  | dereferenceNull

abbrev UiCall.Result : UiCall → Type
  | .hostsCount => Int
  | .hostsAt _ => Option HostEntry
  | .editForm _ _ => Int
  | .hostsRemove _ => Int
  | .hostsError => List UInt8
  | .knownhostsLookup _ _ => Option (List UInt8)
  | .knownhostsForget _ _ => Int
  | .knownhostsError => List UInt8
  | .draw _ => Unit
  | .padExitRequested => Bool
  | .padPressed => Button → Bool
  | .uiConfirm _ _ => Bool
  | .uiMessage _ _ _ => Unit
  | .dereferenceNull => Unit

abbrev Ui (α : Type) := Program UiCall.Result α

def ask (call : UiCall) : Ui call.Result :=
  .call call .done

structure View where
  selected : Int
  top : Int

/-! ## Drawing -/

/-- `ui_frame` while `frame_clears` is set. -/
def uiFrame (build : Build) (title legend : List UInt8) : List Drawing :=
  [.clear gfxBlack] ++ titleBar build gfxAccent title ++
    [.fillCells 0 footerRow gfxCols 1 gfxBlack,
      .puts 1 footerRow legend gfxGrey gfxBlack]

/-- `"%-23s"` -/
def padded (text : List UInt8) : List UInt8 :=
  text ++ List.replicate (23 - text.length) 0x20

/-- `"%s@%s:%d"` -/
def addressText (entry : HostEntry) : List UInt8 :=
  entry.user.text ++ ascii "@" ++ entry.address.text ++ ascii ":" ++
    intText entry.port

/-- The body of the loop in `draw_list`. -/
def drawRow (view : View) (count i : Int) : Ui Unit := do
  let index := view.top + i
  let row := listTop + i
  let chosen : Prop := index = view.selected
  let bg := if chosen then gfxAccent else gfxBlack
  ask (.draw [.fillCells 1 row (gfxCols - 2) 1 bg,
    .puts 2 row (if chosen then ascii ">" else ascii " ") gfxWhite bg])
  if index = count then
    ask (.draw [.puts 4 row (ascii "+  add a host") gfxGreen bg])
  else
    match ← ask (.hostsAt index) with
    | none => ask .dereferenceNull
    | some entry =>
        ask (.draw [gfxPrintf 4 row gfxWhite bg (padded entry.name.text),
          gfxPrintf 28 row gfxGrey bg (addressText entry)])

/-- The loop of `draw_list` from `i` on, for at most `fuel` passes. -/
def drawRows (view : View) (count : Int) : Nat → Int → Ui Unit
  | 0, _ => pure ()
  | fuel + 1, i =>
      if i < listRows ∧ view.top + i < count + 1 then do
        drawRow view count i
        drawRows view count fuel (i + 1)
      else pure ()

def drawNotice (count : Int) : Ui Unit :=
  if count = 0 then
    ask (.draw [
      .puts 4 (listTop + 1) (ascii "no hosts saved yet.") gfxWhite gfxBlack,
      .puts 4 (listTop + 3)
        (utf8 "press X to add one — the on-screen keyboard") gfxGrey gfxBlack,
      .puts 4 (listTop + 4)
        (ascii "will ask for the address and the user name.") gfxGrey gfxBlack])
  else pure ()

/-- Where the selected row is, if there are more rows than fit. -/
def drawPosition (selected shown : Int) : Ui Unit :=
  if shown > listRows then
    ask (.draw [gfxPrintf (gfxCols - 12) (listTop + listRows) gfxDim gfxBlack
      (intText (Int32.ofInt (selected + 1)) ++ ascii " of " ++
        intText (Int32.ofInt shown))])
  else pure ()

def drawList (build : Build) (view : View) : Ui Unit := do
  let count ← ask .hostsCount
  ask (.draw (uiFrame build (ascii "pspssh")
    (ascii "X connect  [] edit  /\\ delete  SEL forget key  O quit")))
  drawNotice count
  drawRows view count listRows.toNat 0
  drawPosition view.selected (count + 1)

/-! ## The buttons -/

def editHost (index : Int) : Ui Int := do
  let existing ← ask (.hostsAt index)
  ask (.editForm index existing)

def deleteQuestionLen : Nat := hostNameLen + 16

def forgetQuestionLen : Nat := hostNameLen + 32

instance : NeZero deleteQuestionLen := ⟨by decide⟩

instance : NeZero forgetQuestionLen := ⟨by decide⟩

/-- The branch for the triangle. -/
def deleteSelected (selected : Int) : Ui Unit := do
  match ← ask (.hostsAt selected) with
  | none => ask .dereferenceNull
  | some entry =>
      let question := (copyField deleteQuestionLen
        (ascii "delete \"" ++ entry.name.text ++ ascii "\"?")).text
      if ← ask (.uiConfirm question
          (ascii "retyping it on the keyboard is the cost")) then
        let removed ← ask (.hostsRemove selected)
        if removed ≠ 0 then
          let problem ← ask .hostsError
          ask (.uiMessage (ascii "it could not be removed") problem gfxRed)
        else pure ()
      else pure ()

/-- The branch for SELECT. -/
def forgetSelected (selected : Int) : Ui Unit := do
  match ← ask (.hostsAt selected) with
  | none => ask .dereferenceNull
  | some entry =>
      match ← ask (.knownhostsLookup entry.address.text entry.port) with
      | none =>
          ask (.uiMessage (ascii "nothing is remembered for that host")
            (ascii "its key will be trusted on first sight") gfxGrey)
      | some _ =>
          let question := (copyField forgetQuestionLen
            (ascii "forget the key for \"" ++ entry.name.text ++
              ascii "\"?")).text
          if ← ask (.uiConfirm question
              (utf8 "only if you know why it changed — this is the check")) then
            let forgotten ← ask (.knownhostsForget entry.address.text entry.port)
            if forgotten ≠ 0 then
              let problem ← ask .knownhostsError
              ask (.uiMessage (ascii "it could not be forgotten") problem gfxRed)
            else pure ()
          else pure ()

def View.clamped (view : View) (count : Int) : View :=
  let shown := count + 1
  let selected := if view.selected ≥ shown then shown - 1 else view.selected
  let selected := if selected < 0 then 0 else selected
  let top := if selected < view.top then selected else view.top
  let top := if selected ≥ top + listRows then selected - listRows + 1 else top
  { selected, top }

/-- The body of the loop in `ui_host_list`: the view that the next frame starts
from, or what the function returns. -/
def hostListFrame (build : Build) (view : View) : Ui (View ⊕ Int) := do
  let count ← ask .hostsCount
  let shown := count + 1
  let view := view.clamped count
  drawList build view
  ask (.draw [.flip])
  if ← ask .padExitRequested then pure (.inr (-1))
  else
    let pressed ← ask .padPressed
    if pressed .up then
      pure (.inl { view with
        selected := Int.tmod (view.selected + shown - 1) shown })
    else if pressed .down then
      pure (.inl { view with selected := Int.tmod (view.selected + 1) shown })
    else if pressed .cross then
      if view.selected = count then
        let _ ← editHost (-1)
        let count ← ask .hostsCount
        pure (.inl { view with selected := count })
      else pure (.inr view.selected)
    else if pressed .square ∧ view.selected < count then
      let _ ← editHost view.selected
      pure (.inl view)
    else if pressed .triangle ∧ view.selected < count then
      deleteSelected view.selected
      pure (.inl view)
    else if pressed .select ∧ view.selected < count then
      forgetSelected view.selected
      pure (.inl view)
    else if pressed .circle then pure (.inr (-1))
    else pure (.inl view)

/-! ## What surrounds the screen -/

/-- What the calls give back, and what they do to the list: editing and
removing may leave any list at all. -/
def uiWorld : World UiCall.Result HostList := fun before call result after =>
  match call, result with
  | .hostsCount, count => count = hostsCount before ∧ after = before
  | .hostsAt index, entry => entry = hostsAt index before ∧ after = before
  | .editForm _ _, _ => True
  | .hostsRemove _, _ => True
  | _, _ => after = before

def IsHost (index : Int) (hosts : HostList) : Prop :=
  0 ≤ index ∧ index < hostsCount hosts

/-- A call that asks for no server that is not there. `edit_host` is given -1
for a new one. -/
def Sound : UiCall → HostList → Prop
  | .hostsAt index, hosts => index = -1 ∨ IsHost index hosts
  | .editForm index existing, hosts =>
      index = -1 ∨ IsHost index hosts ∧ existing = hostsAt index hosts
  | .hostsRemove index, hosts => IsHost index hosts
  | .dereferenceNull, _ => False
  | _, _ => True

/-- The selected row is in the list or the one below it, and on the screen. -/
structure View.Valid (view : View) (count : Int) : Prop where
  selected_nonneg : 0 ≤ view.selected
  selected_le : view.selected ≤ count
  top_nonneg : 0 ≤ view.top
  top_le : view.top ≤ view.selected
  selected_lt : view.selected < view.top + listRows

theorem View.clamped_valid {view : View} {count : Int} (some_rows : 0 ≤ count)
    (top : 0 ≤ view.top) : (view.clamped count).Valid count := by
  have rows : listRows = 15 := rfl
  unfold View.clamped
  constructor <;> grind

theorem hostsCount_nonneg (hosts : HostList) : 0 ≤ hostsCount hosts :=
  Int.natCast_nonneg _

theorem exists_host {index : Int} {hosts : HostList} (listed : IsHost index hosts) :
    ∃ entry, hostsAt index hosts = some entry := by
  obtain ⟨lower, upper⟩ := listed
  have inside : ¬ (index < 0 ∨ index ≥ hosts.entries.count) := by
    change index < hosts.entries.count at upper
    omega
  exact ⟨hosts.entries.slots index.toNat, if_neg inside⟩

section Rules

variable {α : Type} {hosts : HostList} {post : α → HostList → Prop}

theorem guarded_ask {call : UiCall} {next : call.Result → Ui α}
    (sound : Sound call hosts)
    (rest : ∀ result after, uiWorld hosts call result after →
      Guarded uiWorld Sound post (next result) after) :
    Guarded uiWorld Sound post (ask call >>= next) hosts :=
  ⟨sound, rest⟩

theorem guarded_count {next : Int → Ui α}
    (rest : Guarded uiWorld Sound post (next (hostsCount hosts)) hosts) :
    Guarded uiWorld Sound post (ask .hostsCount >>= next) hosts := by
  refine guarded_ask True.intro ?_
  rintro result after ⟨rfl, rfl⟩
  exact rest

theorem guarded_host {index : Int} {next : Option HostEntry → Ui α}
    (listed : IsHost index hosts)
    (rest : ∀ entry, hostsAt index hosts = some entry →
      Guarded uiWorld Sound post (next (some entry)) hosts) :
    Guarded uiWorld Sound post (ask (.hostsAt index) >>= next) hosts := by
  obtain ⟨entry, found⟩ := exists_host listed
  refine guarded_ask (.inr listed) ?_
  rintro result after ⟨rfl, rfl⟩
  rw [found]
  exact rest entry found

/-- The calls that neither look at the list nor change it. -/
def Idle : UiCall → Prop
  | .hostsError | .knownhostsLookup _ _ | .knownhostsForget _ _
  | .knownhostsError | .draw _ | .padExitRequested | .padPressed
  | .uiConfirm _ _ | .uiMessage _ _ _ => True
  | _ => False

theorem Idle.sound {call : UiCall} (idle : Idle call) : Sound call hosts := by
  cases call <;> trivial

theorem Idle.same {call : UiCall} (idle : Idle call) {result : call.Result}
    {after : HostList} (made : uiWorld hosts call result after) :
    after = hosts := by
  cases call <;> first | exact made | contradiction

theorem guarded_idle {call : UiCall} {next : call.Result → Ui α}
    (idle : Idle call)
    (rest : ∀ result, Guarded uiWorld Sound post (next result) hosts) :
    Guarded uiWorld Sound post (ask call >>= next) hosts := by
  refine guarded_ask idle.sound fun result after made => ?_
  rw [idle.same made]
  exact rest result

/-- The program makes sound calls and leaves the list alone. -/
abbrev Leaves (program : Ui α) (hosts : HostList) : Prop :=
  Guarded uiWorld Sound (fun _ after => after = hosts) program hosts

theorem leaves_idle {call : UiCall} (idle : Idle call) :
    Leaves (ask call) hosts :=
  ⟨idle.sound, fun _ _ made => idle.same made⟩

end Rules

variable {hosts : HostList}

theorem drawRow_leaves {view : View} {i : Int} (top : 0 ≤ view.top) (row : 0 ≤ i)
    (inside : view.top + i < hostsCount hosts + 1) :
    Leaves (drawRow view (hostsCount hosts) i) hosts := by
  unfold drawRow
  refine guarded_idle True.intro fun _ => ?_
  split
  · exact leaves_idle True.intro
  · refine guarded_host ⟨by omega, by omega⟩ fun entry _ => ?_
    exact leaves_idle True.intro

theorem drawRows_leaves {view : View} (top : 0 ≤ view.top) (fuel : Nat) {i : Int}
    (row : 0 ≤ i) : Leaves (drawRows view (hostsCount hosts) fuel i) hosts := by
  induction fuel generalizing i with
  | zero => rfl
  | succ fuel ih =>
      unfold drawRows
      split
      · rename_i more
        refine Guarded.bind ((drawRow_leaves top row more.2).mono ?_)
        intro _ after same
        rw [same]
        exact ih (by omega)
      · rfl

theorem drawList_leaves {view : View} (build : Build) (top : 0 ≤ view.top) :
    Leaves (drawList build view) hosts := by
  unfold drawList
  refine guarded_count (guarded_idle True.intro fun _ => ?_)
  have notice : Leaves (drawNotice (hostsCount hosts)) hosts := by
    unfold drawNotice
    split
    · exact leaves_idle True.intro
    · rfl
  have position : Leaves (drawPosition view.selected (hostsCount hosts + 1))
      hosts := by
    unfold drawPosition
    split
    · exact leaves_idle True.intro
    · rfl
  refine Guarded.bind (notice.mono ?_)
  intro _ after same
  rw [same]
  refine Guarded.bind ((drawRows_leaves top _ (Int.le_refl 0)).mono ?_)
  intro _ after same
  rw [same]
  exact position

/-! ## The branches -/

theorem editHost_sound {index : Int} (existing : index = -1 ∨ IsHost index hosts) :
    Guarded uiWorld Sound (fun _ _ => True) (editHost index) hosts := by
  refine guarded_ask existing ?_
  rintro entry after ⟨rfl, rfl⟩
  exact ⟨existing.imp_right fun listed => ⟨listed, rfl⟩, fun _ _ _ => True.intro⟩

theorem deleteSelected_sound {selected : Int} (listed : IsHost selected hosts) :
    Guarded uiWorld Sound (fun _ _ => True) (deleteSelected selected) hosts := by
  refine guarded_host listed fun entry _ => ?_
  refine guarded_idle True.intro fun confirmed => ?_
  split
  · refine guarded_ask listed fun removed after _ => ?_
    split
    · refine guarded_idle True.intro fun _ => ?_
      exact ⟨True.intro, fun _ _ _ => True.intro⟩
    · exact True.intro
  · exact True.intro

theorem forgetSelected_sound {selected : Int} (listed : IsHost selected hosts) :
    Leaves (forgetSelected selected) hosts := by
  refine guarded_host listed fun entry _ => ?_
  refine guarded_idle True.intro fun known => ?_
  cases known with
  | none => exact leaves_idle True.intro
  | some fingerprint =>
      refine guarded_idle True.intro fun confirmed => ?_
      split
      · refine guarded_idle True.intro fun forgotten => ?_
        split
        · refine guarded_idle True.intro fun _ => ?_
          exact leaves_idle True.intro
        · rfl
      · rfl

/-- One frame asks for no server that is not there; the view it leaves keeps
its first row at or below the top of the list, and what it returns is the index
of a server or negative. -/
theorem frame_sound {view : View} (build : Build) (top : 0 ≤ view.top) :
    Guarded uiWorld Sound
      (fun next after => match next with
        | .inl view => 0 ≤ view.top
        | .inr index => 0 ≤ index → IsHost index after)
      (hostListFrame build view) hosts := by
  have valid := (View.clamped_valid (hostsCount_nonneg hosts) top :
    (view.clamped (hostsCount hosts)).Valid (hostsCount hosts))
  unfold hostListFrame
  refine guarded_count ?_
  dsimp only
  generalize view.clamped (hostsCount hosts) = view at valid
  have stays : 0 ≤ view.top := valid.top_nonneg
  refine Guarded.bind ((drawList_leaves build stays).mono ?_)
  intro _ after same
  rw [same]
  refine guarded_idle True.intro fun _ => ?_
  refine guarded_idle True.intro fun leaving => ?_
  split
  · exact fun impossible => absurd impossible (by decide)
  refine guarded_idle True.intro fun pressed => ?_
  split
  · exact stays
  split
  · exact stays
  split
  · split
    · refine Guarded.bind ((editHost_sound (.inl rfl)).mono ?_)
      intro _ after _
      exact guarded_count stays
    · rename_i row
      have := valid.selected_le
      exact fun lower => ⟨lower, by omega⟩
  split
  · rename_i edit
    have listed : IsHost view.selected hosts := ⟨valid.selected_nonneg, edit.2⟩
    refine Guarded.bind ((editHost_sound (.inr listed)).mono ?_)
    exact fun _ _ _ => stays
  split
  · rename_i delete
    have listed : IsHost view.selected hosts := ⟨valid.selected_nonneg, delete.2⟩
    refine Guarded.bind ((deleteSelected_sound listed).mono ?_)
    exact fun _ _ _ => stays
  split
  · rename_i forget
    have listed : IsHost view.selected hosts := ⟨valid.selected_nonneg, forget.2⟩
    refine Guarded.bind ((forgetSelected_sound listed).mono ?_)
    exact fun _ _ _ => stays
  split
  · exact fun impossible => absurd impossible (by decide)
  · exact stays

/-! ## Frames -/

def Frame (build : Build) (before after : View × HostList) : Prop :=
  Returns uiWorld (hostListFrame build before.1) before.2 (.inl after.1) after.2

theorem frames_top {build : Build} {start reached : View × HostList}
    (frames : Relation.ReflTransGen (Frame build) start reached)
    (top : 0 ≤ start.1.top) : 0 ≤ reached.1.top := by
  induction frames with
  | refl => exact top
  | tail _ frame ih => exact (frame_sound build ih).returns frame

/-- In every frame the selected row exists and is on the screen, no call asks
for a server that is not there and no missing one is looked at, and what is
returned is the index of a server or negative. -/
theorem host_list_sound (build : Build) (start : HostList) {view : View}
    {hosts : HostList}
    (reached : Relation.ReflTransGen (Frame build) (⟨0, 0⟩, start)
      (view, hosts)) :
    (view.clamped (hostsCount hosts)).Valid (hostsCount hosts) ∧
      (∀ call state, Asks uiWorld (hostListFrame build view) hosts call state →
        Sound call state) ∧
      ∀ index after,
        Returns uiWorld (hostListFrame build view) hosts (.inr index) after →
          0 ≤ index → IsHost index after := by
  have top : 0 ≤ view.top := frames_top reached (Int.le_refl 0)
  have frame : Guarded uiWorld Sound _ (hostListFrame build view) hosts :=
    frame_sound build top
  refine ⟨View.clamped_valid (hostsCount_nonneg hosts) top, ?_, ?_⟩
  · intro call state asked
    exact frame.asks asked
  · intro index after run
    exact frame.returns run

def twoHosts : HostList :=
  { oneHost "pi" with
    entries :=
      (oneHost "pi").entries.push ((oneHost "nas").entries.slots 0) (by decide) }

/-- The button for down, and the cross on the row that adds a server. -/
theorem exists_addition (build : Build) :
    Relation.ReflTransGen (Frame build) (⟨0, 0⟩, oneHost "pi") (⟨2, 0⟩, twoHosts) := by
  have counted : uiWorld (oneHost "pi") .hostsCount (1 : Int) (oneHost "pi") :=
    ⟨rfl, rfl⟩
  have found : uiWorld (oneHost "pi") (.hostsAt 0)
      (some ((oneHost "pi").entries.slots 0)) (oneHost "pi") := ⟨rfl, rfl⟩
  have drawn (drawings : List Drawing) :
      uiWorld (oneHost "pi") (.draw drawings) () (oneHost "pi") := rfl
  have stays : uiWorld (oneHost "pi") .padExitRequested false (oneHost "pi") := rfl
  have pressed (button : Button) : uiWorld (oneHost "pi") .padPressed
      (fun other => other = button) (oneHost "pi") := rfl
  have moved : Frame build (⟨0, 0⟩, oneHost "pi") (⟨1, 0⟩, oneHost "pi") := by
    refine .call counted (.call counted (.call (drawn _) ?_))
    refine .call (drawn _) (.call found (.call (drawn _) ?_))
    refine .call (drawn _) (.call (drawn _) (.call (drawn _) ?_))
    exact .call stays (.call (pressed .down) .done)
  have added : Frame build (⟨1, 0⟩, oneHost "pi") (⟨2, 0⟩, twoHosts) := by
    have nothing : uiWorld (oneHost "pi") (.hostsAt (-1)) none (oneHost "pi") :=
      ⟨rfl, rfl⟩
    have edited : uiWorld (oneHost "pi") (.editForm (-1) none) (1 : Int) twoHosts :=
      trivial
    have recounted : uiWorld twoHosts .hostsCount (2 : Int) twoHosts := ⟨rfl, rfl⟩
    refine .call counted (.call counted (.call (drawn _) ?_))
    refine .call (drawn _) (.call found (.call (drawn _) ?_))
    refine .call (drawn _) (.call (drawn _) (.call (drawn _) ?_))
    refine .call stays (.call (pressed .cross) ?_)
    exact .call nothing (.call edited (.call recounted .done))
  exact .tail (.single moved) added

/-- The frame behind the addition of a second server. -/
theorem host_list_sound_added :
    ((⟨2, 0⟩ : View).clamped (hostsCount twoHosts)).Valid (hostsCount twoHosts) ∧
      (∀ call state,
        Asks uiWorld (hostListFrame ⟨[], []⟩ ⟨2, 0⟩) twoHosts call state →
          Sound call state) ∧
      ∀ index after,
        Returns uiWorld (hostListFrame ⟨[], []⟩ ⟨2, 0⟩) twoHosts (.inr index)
          after → 0 ≤ index → IsHost index after :=
  host_list_sound ⟨[], []⟩ (oneHost "pi") (exists_addition ⟨[], []⟩)

end Pspssh.Menu
