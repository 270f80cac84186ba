import Pspssh.App.Seen

namespace Pspssh.App

open Pspssh.Data Pspssh.Card Pspssh.Core Pspssh.Hosts Pspssh.Keyboard Pspssh.Pad
open Pspssh.Screen Pspssh.Session Pspssh.Terminal
open Pspssh.Data.Process (Guarded)

/-! Between the shell and its user nothing is lost, repeated or made up. -/

/-! ## The frames of a session -/

section Frames

variable (before : Term) (frames : List (List (List UInt8)))

/-- The terminal that is drawn in the last of these frames. -/
def shellTerminal : Term :=
  runCalls (sessionCalls frames) (termReset gfxCols termRows before)

/-- The terminal in front of the frame at `index`, fed with what was read for
that. -/
def fedTerminal (index : Nat) : Term :=
  runCalls ((frames.getD index []).map .feed) (shellTerminal before (frames.take index))

def rings : List Bool :=
  (List.range frames.length).map fun index =>
    (termTakeBell (fedTerminal before frames index)).1

variable (chunks : List (List UInt8))

theorem shellTerminal_append :
    shellTerminal before (frames ++ [chunks]) =
      (termTakeBell (runCalls (chunks.map .feed) (shellTerminal before frames))).2 := by
  unfold shellTerminal sessionCalls
  rw [List.flatMap_append, runCalls, List.foldl_append]
  simp [runCalls, TermCall.run]

theorem fedTerminal_last :
    fedTerminal before (frames ++ [chunks]) frames.length =
      runCalls (chunks.map .feed) (shellTerminal before frames) := by
  unfold fedTerminal
  rw [List.take_left, List.getD_append_right _ _ _ _ (Nat.le_refl _), Nat.sub_self]
  rfl

theorem fedTerminal_earlier {index : Nat} (earlier : index < frames.length) :
    fedTerminal before (frames ++ [chunks]) index =
      fedTerminal before frames index := by
  unfold fedTerminal
  rw [List.take_append_of_le_length earlier.le, List.getD_append _ _ _ _ earlier]

theorem rings_append :
    rings before (frames ++ [chunks]) =
      rings before frames ++
        [(termTakeBell
          (runCalls (chunks.map .feed) (shellTerminal before frames))).1] := by
  unfold rings
  rw [List.length_append, List.length_singleton, List.range_succ, List.map_append,
    List.map_singleton, fedTerminal_last]
  congr 1
  refine List.map_congr_left fun index member => ?_
  rw [fedTerminal_earlier before frames chunks (List.mem_range.mp member)]

end Frames

/-- The count of the bell in the last of these frames: it starts when the bell
is heard and goes down by one with every frame since. -/
def bellLeftAt (rings : List Bool) : Int :=
  match rings.reverse.findIdx? id with
  | none => 0
  | some since => max 0 (bellFrames - since)

theorem bellLeftAt_nonneg (rings : List Bool) : 0 ≤ bellLeftAt rings := by
  unfold bellLeftAt
  split
  · exact Int.le_refl 0
  · exact le_max_left 0 _

theorem bellLeftAt_rung (rings : List Bool) :
    bellLeftAt (rings ++ [true]) = bellFrames := by
  unfold bellLeftAt
  rw [List.reverse_append]
  rfl

theorem bellLeftAt_silent (rings : List Bool) :
    bellLeftAt (rings ++ [false]) = max 0 (bellLeftAt rings - 1) := by
  unfold bellLeftAt
  rw [List.reverse_append, List.reverse_singleton, List.singleton_append,
    List.findIdx?_cons]
  cases rings.reverse.findIdx? id with
  | none => rfl
  | some since =>
      change max 0 (bellFrames - ((since + 1 : Nat) : Int)) =
        max 0 (max 0 (bellFrames - since) - 1)
      omega

theorem bellLeftAt_next (rings : List Bool) (rung : Bool) :
    bellLeftAt (rings ++ [rung]) =
      if rung then bellFrames else max 0 (bellLeftAt rings - 1) := by
  cases rung with
  | true => exact bellLeftAt_rung rings
  | false => exact bellLeftAt_silent rings

/-! ## What is allowed -/

/-- Where the session stands between two calls: the terminal has been fed with
all that was read, in order, and the bell counted in every frame. -/
structure Linked (before : Term) (device : Machine) (seen : Seen) : Prop where
  term : device.statics.term =
    runCalls (seen.chunks.map .feed) (shellTerminal before seen.frames)
  bell : device.statics.bellLeft = max 0 (bellLeftAt (rings before seen.frames) - 1)
  opened : device.library.Open
  connected : device.library.connected = true

def wholeFrame (build : Build) (host : HostEntry) (before : Term) (seen : Seen) :
    List Drawing :=
  let frames := seen.frames ++ [seen.chunks]
  drawTerminal build host (seen.frames.length / 20 % 2 = 0) true
    (bellLeftAt (rings before frames)) (shellTerminal before frames) ++ [.flip]

/-- What is behind the keyboard: the terminal as the last frame showed it, without
its cursor. -/
def behindKeyboard (build : Build) (host : HostEntry) (before : Term) (seen : Seen) :
    List Drawing :=
  drawTerminal build host false false
    (max 0 (bellLeftAt (rings before seen.frames) - 1))
    (shellTerminal before seen.frames)

/-- Every frame shows the terminal as all that was read has left it, and no read
waits until more than a screenful is undrawn. What is offered is exactly what
the user has asked to be sent and was not yet accepted. The buttons and the
keyboard are looked at only once everything read is drawn and everything asked
for is sent, and the last message names the failure if not. -/
def Faithful (build : Build) (host : HostEntry) (before : Term) :
    AppCall → Machine × Seen → Prop
  | .draw drawings, (_, seen) => drawings = wholeFrame build host before seen
  | .library request, (device, seen) =>
      Proper request device.library ∧
        match request with
        | .streamRead size => size = chunkSize ∧ seen.chunks.flatten.length ≤ screenful
        | .streamSend data => seen.asked = seen.accepted ++ data
        | _ => True
  | .padPressed, (_, seen) => seen.chunks = [] ∧ seen.accepted = seen.asked
  | .oskPrompt _ _ _ _ backdrop, (_, seen) =>
      (seen.chunks = [] ∧ backdrop = some (behindKeyboard build host before seen)) ∧
        seen.accepted = seen.asked
  | .uiMessage _ detail _, (_, seen) =>
      seen.chunks = [] ∧ seen.accepted <+: seen.asked ∧
        (detail = some lineFailure ∨ detail = some keyFailure ∨
          seen.accepted = seen.asked)
  | _, _ => True

section Passes

variable {faults : IoCall → Prop} {build : Build} {host : HostEntry} {before : Term}
  {device : Machine} {seen : Seen}

/-- Another state of the session, in which nothing else has changed. -/
theorem Linked.session (linked : Linked before device seen) (session : PspsshSession) :
    Linked before
      { device with statics := { device.statics with session } } seen :=
  { linked with }

/-! ## Reading -/

/-- The library gives something else back, and nothing is heard of it. -/
theorem guarded_library_quiet {α : Type} {post : α → Machine × Seen → Prop}
    {request : LibraryCall} {next : request.Result → Psp α} (quiet : Quiet request)
    (proper : Proper request device.library)
    (rest : ∀ result, Guarded (scene faults) (Faithful build host before) post
      (next result) (device, { seen with confirmed := none })) :
    Guarded (scene faults) (Faithful build host before) post
      (library request >>= next) (device, seen) := by
  have permitted : Faithful build host before (.library request) (device, seen) := by
    refine ⟨proper, ?_⟩
    cases request <;> trivial
  refine guarded_call permitted fun result after made => ?_
  obtain ⟨⟨did, same⟩, noted⟩ := made
  have unseen : after.2 = { seen with confirmed := none } := by
    cases request <;> first | exact noted | contradiction
  rw [quiet.same did] at same
  rw [← Prod.eta after, same, unseen]
  exact rest result

inductive Seen.Reads (seen : Seen) : Int → List UInt8 → Seen → Prop where
  | nothing {n : Int} {data : List UInt8} (none_read : n ≤ 0) :
      Reads seen n data { seen with confirmed := none }
  | chunk {n : Nat} {data : List UInt8} (some_read : 0 < n) (whole : data.length = n) :
      Reads seen n data { seen with chunks := seen.chunks ++ [data], confirmed := none }

theorem pspsshRead_reads {session : PspsshSession} (linked : Linked before device seen)
    (few : seen.chunks.flatten.length ≤ screenful) :
    Guarded (scene faults) (Faithful build host before)
      (fun result after => after.1 = device ∧
        seen.Reads result.1 result.2.1 after.2)
      (pspsshRead library chunkSize session) (device, seen) := by
  refine guarded_call ⟨⟨linked.opened, linked.connected⟩, rfl, few⟩
    fun result after made => ?_
  obtain ⟨n, data⟩ := result
  obtain ⟨⟨⟨whole, _, did⟩, same⟩, noted⟩ := made
  rw [did] at same
  have same : after.1 = device := same
  have noted : after.2 = { seen with
    chunks := if 0 < n then seen.chunks ++ [data] else seen.chunks
    confirmed := none } := noted
  rw [← Prod.eta after, same, noted]
  dsimp only
  by_cases positive : 0 < n
  · rw [if_pos positive, if_pos positive]
    refine .done ⟨rfl, ?_⟩
    have counted : ((n.toNat : Nat) : Int) = n := Int.toNat_of_nonneg positive.le
    have chunk : seen.Reads n.toNat data _ := .chunk (by omega) whole
    rwa [counted] at chunk
  rw [if_neg positive, if_neg positive]
  split
  · exact .done ⟨rfl, .nothing (Int.negSucc_lt_zero 0).le⟩
  · refine guarded_library_quiet trivial linked.opened fun error => ?_
    cases error with
    | wantRead => exact .done ⟨rfl, .nothing (Int.le_refl 0)⟩
    | wantWrite => exact .done ⟨rfl, .nothing (Int.le_refl 0)⟩
    | eof => exact .done ⟨rfl, .nothing (Int.negSucc_lt_zero 0).le⟩
    | windowFull =>
        refine guarded_library_quiet trivial linked.opened fun error => ?_
        refine guarded_library_quiet trivial linked.opened fun name => ?_
        exact .done ⟨rfl, .nothing (Int.negSucc_lt_zero 0).le⟩
    | other code =>
        refine guarded_library_quiet trivial linked.opened fun error => ?_
        refine guarded_library_quiet trivial linked.opened fun name => ?_
        exact .done ⟨rfl, .nothing (Int.negSucc_lt_zero 0).le⟩

theorem readSession_reads (linked : Linked before device seen)
    (few : seen.chunks.flatten.length ≤ screenful) :
    Guarded (scene faults) (Faithful build host before)
      (fun result after =>
        (∃ session, after.1 =
          { device with statics := { device.statics with session } }) ∧
        seen.Reads result.1 result.2 after.2)
      (readSession chunkSize) (device, seen) := by
  refine guarded_statics trivial (.bind ((pspsshRead_reads linked few).mono ?_))
  rintro ⟨n, data, session⟩ ⟨device', seen'⟩ ⟨same, reads⟩
  dsimp only at same reads ⊢
  subst same
  exact guarded_modify trivial (.done ⟨⟨session, rfl⟩, reads⟩)

structure Draining (before : Term) (seen : Seen) (drained : Nat)
    (state : Machine × Seen) : Prop where
  linked : Linked before state.1 state.2
  frames : state.2.frames = seen.frames
  asked : state.2.asked = seen.asked
  accepted : state.2.accepted = seen.accepted
  drained : state.2.chunks.flatten.length = drained

theorem Draining.fed {start : Seen} {drained : Nat}
    (draining : Draining before start drained (device, seen)) (data : List UInt8)
    (session : PspsshSession) :
    Draining before start (drained + data.length)
      ({ device with
          statics :=
            { device.statics with
              term := termFeed data device.statics.term
              session := session } },
        { seen with chunks := seen.chunks ++ [data], confirmed := none }) where
  linked :=
    { term := by
        dsimp only
        rw [List.map_append, runCalls, List.foldl_append, draining.linked.term]
        rfl
      bell := draining.linked.bell
      opened := draining.linked.opened
      connected := draining.linked.connected }
  frames := draining.frames
  asked := draining.asked
  accepted := draining.accepted
  drained := by
    have drained := draining.drained
    dsimp only at drained ⊢
    rw [List.flatten_append, List.length_append, drained, List.flatten_singleton]

theorem drain_fed (linked : Linked before device seen) (drawn : seen.chunks = []) :
    Guarded (scene faults) (Faithful build host before)
      (fun _ after => ∃ drained, Draining before seen drained after)
      drain (device, seen) := by
  refine .iterate (fun drained state =>
    Draining before seen drained state ∧ drained ≤ screenful) ⟨?_, Nat.zero_le _⟩ ?_
  · exact ⟨linked, rfl, rfl, rfl, by rw [drawn]; rfl⟩
  rintro drained ⟨device', seen'⟩ ⟨draining, few⟩
  refine .bind ((readSession_reads draining.linked
    (draining.drained.trans_le few)).mono ?_)
  rintro ⟨n, data⟩ ⟨device'', seen''⟩ ⟨⟨session, same⟩, reads⟩
  dsimp only at same reads ⊢
  subst same
  have still : Draining before seen drained
      ({ device' with statics := { device'.statics with session } },
        { seen' with confirmed := none }) :=
    { draining with linked := { draining.linked with } }
  cases reads with
  | nothing none_read =>
      split
      · refine guarded_statics trivial (.done ⟨drained, still⟩)
      · rw [if_pos (by omega)]
        exact .done ⟨drained, still⟩
  | @chunk count _ some_read whole =>
      rw [if_neg (by omega), if_neg (by omega)]
      refine guarded_modify trivial ?_
      rw [Int.toNat_natCast, List.take_of_length_le whole.le]
      have fed := draining.fed data session
      rw [whole] at fed
      split
      · exact .done ⟨_, fed⟩
      · rename_i more
        exact .done ⟨fed, Nat.not_lt.mp more⟩

/-! ## Drawing -/

theorem counted_down {count : Int} (nonneg : 0 ≤ count) :
    (if count > 0 then count - 1 else count) = max 0 (count - 1) := by
  split
  · omega
  · omega

theorem drawFrame_linked (linked : Linked before device seen) :
    Guarded (scene faults) (Faithful build host before)
      (fun _ after => Linked before after.1 after.2 ∧
        after.2 =
          { seen with
            frames := seen.frames ++ [seen.chunks]
            chunks := []
            confirmed := none })
      (drawFrame build host seen.frames.length) (device, seen) := by
  have taken := shellTerminal_append before seen.frames seen.chunks
  have counted := bellLeftAt_next (rings before seen.frames)
    (termTakeBell
      (runCalls (seen.chunks.map .feed) (shellTerminal before seen.frames))).1
  rw [← rings_append, ← linked.bell, ← linked.term] at counted
  rw [← linked.term] at taken
  refine guarded_modify trivial (guarded_statics trivial ?_)
  dsimp only
  rw [← taken, ← counted]
  refine guarded_call rfl fun _ after made => ?_
  obtain ⟨same, noted⟩ := made
  rw [← Prod.eta after, same, noted]
  refine guarded_modify_last trivial ⟨?_, rfl⟩
  exact
    { term := rfl
      bell := counted_down (bellLeftAt_nonneg _)
      opened := linked.opened
      connected := linked.connected }

/-! ## Writing -/

/-- What `send_all` offers is what is left of its text. -/
theorem sendLoop_offers (text : Buffer) (len sent spins : Nat) (part : sent ≤ len) :
    Program.Guarded accepting
      (fun offered accepted => accepted ++ offered = text.take len)
      (fun value accepted => accepted <+: text.take len ∧
        (value = 0 → accepted = text.take len))
      (sendLoop text len sent spins) (text.take sent) := by
  have front {sent : Nat} (part : sent ≤ len) : text.take sent <+: text.take len := by
    rw [← Buffer.take_take text part]
    exact List.take_prefix _ _
  induction sent, spins using sendLoop.induct len with
  | case1 sent spins more again progress =>
      rw [sendLoop, if_pos more]
      refine ⟨?_, fun n after made => ?_⟩
      · change text.take sent ++ text.slice sent (len - sent) = text.take len
        rw [← Buffer.take_add, Nat.add_sub_cancel' part]
      dsimp only
      rcases Accepts.inversion made with ⟨negative, rfl⟩ | ⟨rfl, rfl⟩ |
        ⟨count, rfl, positive, short, rfl⟩
      · rw [if_pos negative]
        exact ⟨front part, fun zero => absurd zero (by decide)⟩
      · rw [if_neg (lt_irrefl 0), if_pos rfl]
        exact again part
      · rw [if_neg (by omega), if_neg (by omega), Int.toNat_natCast]
        rw [Buffer.slice_length] at short
        rw [Buffer.take_slice text sent short, ← Buffer.take_add]
        exact progress count (by omega) (by omega) (by omega)
  | case2 sent spins stop =>
      rw [sendLoop, if_neg stop]
      refine ⟨front part, fun whole => ?_⟩
      split at whole
      · rename_i same
        rw [same]
      · cases whole

structure SendingText (before : Term) (start : Seen) (text : List UInt8)
    (state : Machine × Seen) (accepted : List UInt8) : Prop where
  linked : Linked before state.1 state.2
  frames : state.2.frames = start.frames
  chunks : state.2.chunks = start.chunks
  asked : state.2.asked = start.accepted ++ text
  accepted : state.2.accepted = start.accepted ++ accepted

theorem pspsshWrite_sends {session : PspsshSession} {start : Seen}
    {text data accepted : List UInt8}
    (sending : SendingText before start text (device, seen) accepted)
    (offered : accepted ++ data = text) :
    Guarded (scene faults) (Faithful build host before)
      (fun result after => after.1 = device ∧
        ∃ left, Accepts accepted data result.1 left ∧
          after.2 =
            { seen with accepted := start.accepted ++ left, confirmed := none })
      (pspsshWrite library data session) (device, seen) := by
  have whole : seen.asked = seen.accepted ++ data := by
    have asked := sending.asked
    have part := sending.accepted
    dsimp only at asked part
    rw [asked, part, List.append_assoc, offered]
  have same : seen.accepted = start.accepted ++ accepted := sending.accepted
  refine guarded_call ⟨⟨sending.linked.opened, sending.linked.connected⟩, whole⟩
    fun (n : Int) after made => ?_
  obtain ⟨⟨⟨part, did⟩, unmoved⟩, noted⟩ := made
  rw [did] at unmoved
  have unmoved : after.1 = device := unmoved
  have noted : after.2 = { seen with
    accepted := seen.accepted ++ data.take n.toNat, confirmed := none } := noted
  rw [← Prod.eta after, unmoved, noted, same]
  split
  · rename_i nonneg
    have nonneg : (0 : Int) ≤ n := nonneg
    have part : n ≤ (data.length : Int) := part
    refine .done ⟨rfl, accepted ++ data.take n.toNat, ?_, by rw [List.append_assoc]⟩
    rcases nonneg.lt_or_eq with positive | rfl
    · have taken : Accepts accepted data n.toNat (accepted ++ data.take n.toNat) :=
        .some (by omega) (by omega)
      rwa [Int.toNat_of_nonneg nonneg] at taken
    · simpa using Accepts.notYet
  · rename_i negative
    have negative : ¬ (0 : Int) ≤ n := negative
    rw [Int.toNat_of_nonpos (by omega), List.take_zero, List.append_nil]
    have failed : Accepts accepted data (-1) accepted :=
      .failed (Int.negSucc_lt_zero 0)
    refine guarded_library_quiet trivial sending.linked.opened fun error => ?_
    cases error with
    | wantRead => exact .done ⟨rfl, accepted, .notYet, rfl⟩
    | wantWrite => exact .done ⟨rfl, accepted, .notYet, rfl⟩
    | windowFull =>
        refine guarded_call ⟨⟨sending.linked.opened, sending.linked.connected⟩, trivial⟩
          fun _ last made => ?_
        obtain ⟨⟨did, unmoved⟩, noted⟩ := made
        have did : last.1.library = device.library := did
        rw [did] at unmoved
        exact .done ⟨unmoved, accepted, .notYet, noted⟩
    | eof =>
        refine guarded_library_quiet trivial sending.linked.opened fun error => ?_
        refine guarded_library_quiet trivial sending.linked.opened fun name => ?_
        exact .done ⟨rfl, accepted, failed, rfl⟩
    | other code =>
        refine guarded_library_quiet trivial sending.linked.opened fun error => ?_
        refine guarded_library_quiet trivial sending.linked.opened fun name => ?_
        exact .done ⟨rfl, accepted, failed, rfl⟩

theorem writeSession_sends {start : Seen} {text data accepted : List UInt8}
    {state : Machine × Seen}
    (sending : SendingText before start text state accepted)
    (offered : accepted ++ data = text) :
    Guarded (scene faults) (Faithful build host before)
      (fun n after => ∃ left, accepting accepted data n left ∧
        SendingText before start text after left)
      (writeSession data) state := by
  obtain ⟨device, seen⟩ := state
  refine guarded_statics trivial (.bind ((pspsshWrite_sends sending offered).mono ?_))
  rintro ⟨n, session⟩ ⟨device', seen'⟩ ⟨same, left, accepts, noted⟩
  dsimp only at same noted accepts ⊢
  subst same noted
  refine guarded_modify trivial ?_
  have sent : SendingText before start text
      ({ device' with statics := { device'.statics with session } },
        { seen with accepted := start.accepted ++ left, confirmed := none }) left :=
    { linked := { sending.linked with }
      frames := sending.frames
      chunks := sending.chunks
      asked := sending.asked
      accepted := rfl }
  split
  · exact guarded_silent trivial trivial fun _ => .done ⟨left, accepts, sent⟩
  · exact .done ⟨left, accepts, sent⟩

theorem sendAll_sends {start : Seen} {text : List UInt8} {line : Buffer} {len : Nat}
    {state : Machine × Seen} (whole : line.take len = text)
    (sending : SendingText before start text state []) :
    Guarded (scene faults) (Faithful build host before)
      (fun value after => ∃ accepted, (accepted <+: text ∧
          (value = 0 → accepted = text)) ∧
        SendingText before start text after accepted)
      (sendAll line len) state := by
  subst whole
  exact Guarded.via (SendingText before start (line.take len))
    (fun _ _ _ sending offered => writeSession_sends sending offered)
    (sendLoop_offers line len 0 0 (Nat.zero_le len)) sending

/-! ## Passes -/

/-- The array was not touched, or nothing of a line is left in it. -/
def Wiped (typed now : Buffer) : Prop :=
  now = typed ∨ ∀ index < typedSize, now index = 0

theorem wipeBytes_zero (buffer : Buffer) {size index : Nat} (inside : index < size) :
    wipeBytes buffer size index = 0 := by
  have room : index < (List.replicate size (0 : UInt8)).length := by
    rwa [List.length_replicate]
  have zero := Buffer.copy_inside buffer 0 _ room
  rwa [Nat.zero_add, List.getElem_replicate] at zero

theorem wipeBytes_wiped (typed now : Buffer) : Wiped typed (wipeBytes now typedSize) :=
  .inr fun _ inside => wipeBytes_zero now inside

theorem take_line (typed : Buffer) (text : List UInt8) :
    ((typed.copy 0 (text ++ [0])).store text.length 0x0a).take (text.length + 1) =
      text ++ [0x0a] := by
  have line : (typed.copy 0 (text ++ [0])).store text.length 0x0a =
      typed.copy 0 (text ++ [0x0a]) := by
    have written := Buffer.store_copy typed 0 text
    simp only [Nat.zero_add] at written
    rw [← written, ← written, Buffer.store, Buffer.store, Buffer.store,
      Function.update_idem]
  have taken := Buffer.take_copy typed 0 (text ++ [0x0a])
  rw [Nat.zero_add, List.length_append, List.length_singleton] at taken
  rw [line, taken, Buffer.take_zero, List.nil_append]

theorem take_keys (text : List UInt8) :
    Buffer.take (fun index => text.getD index 0) text.length = text := by
  apply List.ext_getElem
  · simp
  · intro index _ inside
    simp [Buffer.take, inside]

/-- Everything read is drawn, and what was asked for is sent or the loop about
to end. -/
structure Resting (before : Term) (typed : Buffer) (running : Running)
    (state : Machine × Seen) : Prop where
  linked : Linked before state.1 state.2
  drawn : state.2.chunks = []
  frames : running.frames = state.2.frames.length
  part : state.2.accepted <+: state.2.asked
  sent : running.ended = false → state.2.accepted = state.2.asked
  told : running.ended = true →
    running.ending = some lineFailure ∨ running.ending = some keyFailure
  wiped : Wiped typed running.typed

def Leaves (before : Term) (typed : Buffer) (left : Left) (state : Machine × Seen) :
    Prop :=
  (Linked before state.1 state.2 ∧ state.2.chunks = [] ∧
    state.2.accepted <+: state.2.asked) ∧
  match left with
  | .ended now ending =>
      Wiped typed now ∧
        (ending = some lineFailure ∨ ending = some keyFailure ∨
          state.2.accepted = state.2.asked)
  | .returned now => Wiped typed now

theorem SendingText.start {text : List UInt8} (linked : Linked before device seen)
    (asked : seen.asked = seen.accepted ++ text) :
    SendingText before seen text (device, seen) [] where
  linked := linked
  frames := rfl
  chunks := rfl
  asked := asked
  accepted := (List.append_nil _).symm

theorem Resting.sending {start : Seen} {text accepted : List UInt8} {typed : Buffer}
    {running : Running} {state : Machine × Seen}
    (sending : SendingText before start text state accepted)
    (part : accepted <+: text)
    (whole : running.ended = false → accepted = text) (drawn : start.chunks = [])
    (frames : running.frames = start.frames.length)
    (told : running.ended = true →
      running.ending = some lineFailure ∨ running.ending = some keyFailure)
    (wiped : Wiped typed running.typed) :
    Resting before typed running state where
  linked := sending.linked
  drawn := sending.chunks.trans drawn
  frames := frames.trans (congrArg List.length sending.frames).symm
  part := by
    rw [sending.accepted, sending.asked]
    exact (List.prefix_append_right_inj _).mpr part
  sent := by
    intro going
    rw [sending.accepted, sending.asked, whole going]
  told := told
  wiped := wiped

theorem typeLine_rests {typed : Buffer} {running : Running}
    (resting : Resting before typed running (device, seen))
    (going : running.ended = false) :
    Guarded (scene faults) (Faithful build host before) (Resting before typed)
      (typeLine build host running) (device, seen) := by
  have sent := resting.sent going
  dsimp only at sent
  have drawn : seen.chunks = [] := resting.drawn
  have behind : terminalBackdrop build host device.statics =
      behindKeyboard build host before seen := by
    have term : device.statics.term =
        runCalls (seen.chunks.map .feed) (shellTerminal before seen.frames) :=
      resting.linked.term
    rw [drawn] at term
    have bell : device.statics.bellLeft =
        max 0 (bellLeftAt (rings before seen.frames) - 1) := resting.linked.bell
    rw [terminalBackdrop, behindKeyboard, bell, term]
    exact congrArg _ List.foldl_nil
  refine guarded_statics trivial ?_
  refine guarded_call ⟨⟨drawn, congrArg some behind⟩, sent⟩ fun answer after made => ?_
  obtain ⟨result, text⟩ := answer
  obtain ⟨⟨_, same⟩, noted⟩ := made
  obtain ⟨device', seen'⟩ := after
  dsimp only at same noted ⊢
  subst same
  by_cases entered : result = .entered
  · have noted : seen' = { seen with asked := seen.asked ++ (text ++ [0x0a]) } := by
      rw [noted, Seen.note, if_pos entered, if_pos rfl]
    subst noted
    refine .bind ?_
    rw [if_pos entered]
    have linked : Linked before device'
        { seen with asked := seen.asked ++ (text ++ [0x0a]) } := { resting.linked with }
    have sending := SendingText.start linked
      (congrArg (· ++ (text ++ [0x0a])) sent.symm)
    refine .bind ((sendAll_sends (take_line _ text) sending).mono ?_)
    rintro value after ⟨accepted, ⟨part, whole⟩, sending⟩
    split
    · rename_i failed
      exact .done (.done (.sending sending part nofun resting.drawn resting.frames
        (fun _ => .inl rfl) (wipeBytes_wiped _ _)))
    · rename_i succeeded
      refine .done (.done (.sending sending part (fun _ => whole ?_) resting.drawn
        resting.frames (fun ended => ?_) (wipeBytes_wiped _ _)))
      · exact not_not.mp succeeded
      · exact absurd (going.symm.trans ended) Bool.false_ne_true
  · have noted : seen' = seen := noted.trans (if_neg entered)
    subst noted
    refine .bind ?_
    rw [if_neg entered]
    exact .done (.done { resting with wiped := wipeBytes_wiped _ _ })

structure Pressed (before : Term) (typed : Buffer) (pressed : UInt32)
    (running : Running) (state : Machine × Seen) : Prop where
  linked : Linked before state.1 state.2
  drawn : state.2.chunks = []
  frames : running.frames = state.2.frames.length
  asked : state.2.asked = state.2.accepted ++ wanted pressed
  going : running.ended = false
  wiped : Wiped typed running.typed

theorem Pressed.rests {typed : Buffer} {pressed : UInt32} {running : Running}
    {state : Machine × Seen} (read : Pressed before typed pressed running state)
    (nothing : wanted pressed = []) : Resting before typed running state where
  linked := read.linked
  drawn := read.drawn
  frames := read.frames
  part := by
    rw [read.asked]
    exact List.prefix_append _ _
  sent := by
    intro _
    rw [read.asked, nothing, List.append_nil]
  told := fun ended => absurd (read.going.symm.trans ended) Bool.false_ne_true
  wiped := read.wiped

theorem sendKeys_rests {typed : Buffer} {pressed : UInt32} {running : Running}
    (read : Pressed before typed pressed running (device, seen))
    (uncrossed : ¬ pressed &&& ctrlCross ≠ 0) :
    Guarded (scene faults) (Faithful build host before) (Resting before typed)
      (sendKeys pressed running) (device, seen) := by
  have direct : wanted pressed = (keys pressed).getD [] := if_neg uncrossed
  unfold sendKeys
  split
  · rename_i silent
    exact .done (read.rests (by rw [direct, silent]; rfl))
  · rename_i text spelled
    have asked := read.asked
    dsimp only at asked
    rw [direct, spelled, Option.getD_some] at asked
    refine .bind ((sendAll_sends (take_keys text) (.start read.linked asked)).mono ?_)
    rintro value after ⟨accepted, ⟨part, whole⟩, sending⟩
    split
    · exact .done
        (.sending sending part (fun going => absurd going.symm Bool.false_ne_true)
        read.drawn read.frames (fun _ => .inr rfl) read.wiped)
    · rename_i succeeded
      refine .done (.sending sending part (fun _ => whole ?_) read.drawn read.frames
        (fun ended => ?_) read.wiped)
      · exact not_not.mp succeeded
      · exact absurd (read.going.symm.trans ended) Bool.false_ne_true

def Onward (before : Term) (typed : Buffer) :
    Running ⊕ Left → Machine × Seen → Prop :=
  Sum.elim (Resting before typed) (Leaves before typed)

theorem answerButtons_onward {typed : Buffer} {pressed : UInt32} {running : Running}
    (read : Pressed before typed pressed running (device, seen)) :
    Guarded (scene faults) (Faithful build host before) (Onward before typed)
      (answerButtons build host pressed running) (device, seen) := by
  unfold answerButtons
  split
  · rename_i none_pressed
    subst none_pressed
    exact .done (read.rests (by decide))
  split
  · rename_i crossed
    have resting := read.rests (if_pos crossed)
    refine .bind ((typeLine_rests resting read.going).mono ?_)
    exact fun running after resting => .done resting
  · rename_i uncrossed
    refine .bind ((sendKeys_rests read uncrossed).mono ?_)
    rintro running ⟨device', seen'⟩ resting
    split
    · refine guarded_call trivial fun yes after made => ?_
      obtain ⟨same, noted⟩ := made
      rw [← Prod.eta after, same, noted]
      have still : Resting before typed running (device',
          { seen' with
            confirmed := if yes then some (ascii "leave this session?",
              ascii "the shell on the other side will be closed") else none }) :=
        { resting with linked := { resting.linked with } }
      split
      · exact .done ⟨⟨still.linked, still.drawn, still.part⟩, wipeBytes_wiped _ _⟩
      · exact .done still
    · exact .done resting

theorem Resting.leaves {typed : Buffer} {running : Running} {state : Machine × Seen}
    (resting : Resting before typed running state) :
    Leaves before typed (.ended running.typed running.ending) state := by
  refine ⟨⟨resting.linked, resting.drawn, resting.part⟩, resting.wiped, ?_⟩
  cases ended : running.ended with
  | false => exact .inr (.inr (resting.sent ended))
  | true =>
      rcases resting.told ended with line | key
      · exact .inl line
      · exact .inr (.inl key)

theorem terminalPass_onward {typed : Buffer} {running : Running}
    (resting : Resting before typed running (device, seen)) :
    Guarded (scene faults) (Faithful build host before) (Onward before typed)
      (terminalPass build host running) (device, seen) := by
  unfold terminalPass
  split
  · exact .done resting.leaves
  rename_i going
  have going : running.ended = false := Bool.eq_false_iff.mpr going
  refine guarded_silent trivial trivial fun leaving => ?_
  split
  · exact .done resting.leaves
  refine .bind ((drain_fed resting.linked resting.drawn).mono ?_)
  rintro failure ⟨device', seen'⟩ ⟨drained, draining⟩
  have frames : running.frames = seen'.frames.length := by
    rw [resting.frames]
    exact congrArg List.length draining.frames.symm
  rw [frames]
  refine .bind ((drawFrame_linked draining.linked).mono ?_)
  rintro _ ⟨device'', seen''⟩ ⟨linked, shown⟩
  dsimp only at linked shown ⊢
  subst shown
  have sent : seen'.accepted = seen'.asked := by
    have sent := resting.sent going
    have asked := draining.asked
    have accepted := draining.accepted
    dsimp only at sent asked accepted
    rw [accepted, asked, sent]
  cases failure with
  | some ending =>
      refine .done ⟨⟨linked, rfl, ?_⟩, resting.wiped, .inr (.inr sent)⟩
      exact sent ▸ List.prefix_rfl
  | none =>
      refine guarded_call ⟨rfl, sent⟩ fun pressed after made => ?_
      obtain ⟨same, noted⟩ := made
      rw [← Prod.eta after, same, noted]
      refine answerButtons_onward
        { linked := { linked with }
          drawn := rfl
          frames := ?_
          asked := ?_
          going := going
          wiped := resting.wiped }
      · change seen'.frames.length + 1 = (seen'.frames ++ [seen'.chunks]).length
        simp
      · exact congrArg (· ++ wanted pressed) sent.symm

/-- A session that has just been opened, seen from its first call. -/
theorem runTerminal_faithful {typed : Buffer} (opened : device.library.Open)
    (connected : device.library.connected = true) (fresh : seen.frames = [])
    (drawn : seen.chunks = []) (sent : seen.accepted = seen.asked) :
    Guarded (scene faults) (Faithful build host device.statics.term)
      (fun now after => Wiped typed now ∧
        Linked device.statics.term after.1 after.2 ∧ after.2.chunks = [] ∧
          after.2.accepted <+: after.2.asked)
      (runTerminal build host typed) (device, seen) := by
  refine guarded_modify trivial (.bind ?_)
  have start : Resting device.statics.term typed ⟨typed, 0, false, none⟩
      ({ device with
          statics :=
            { device.statics with
              term := termReset gfxCols termRows device.statics.term
              bellLeft := 0 } }, seen) :=
    { linked :=
        { term := by
            rw [drawn, fresh]
            rfl
          bell := by
            rw [fresh]
            rfl
          opened := opened
          connected := connected }
      drawn := drawn
      frames := (congrArg List.length fresh).symm
      part := sent ▸ List.prefix_rfl
      sent := fun _ => sent
      told := nofun
      wiped := .inl rfl }
  refine .iterate (Resting device.statics.term typed) start ?_
  rintro running ⟨device', seen'⟩ resting
  refine (terminalPass_onward resting).mono fun next after onward => ?_
  cases next with
  | inl running => exact onward
  | inr left =>
      obtain ⟨⟨linked, drawn, part⟩, ends⟩ := onward
      cases left with
      | returned now => exact .done ⟨ends, linked, drawn, part⟩
      | ended now ending =>
          obtain ⟨wiped, told⟩ := ends
          refine guarded_silent trivial ⟨drawn, part, ?_⟩ fun _ =>
            .done ⟨wiped, linked, drawn, part⟩
          rcases told with rfl | rfl | whole
          · exact .inl rfl
          · exact .inr (.inl rfl)
          · exact .inr (.inr whole)

end Passes

/-! ## The two directions -/

/-- Every frame shows the terminal as all that was read has left it, with the
bell as it was last heard; not much more than a screenful is read in front of
one, and nothing that was read is undrawn when the user is asked, also not behind
the keyboard. -/
def Shows (build : Build) (host : HostEntry) (before : Term) :
    AppCall → Seen → Prop
  | .draw drawings, seen => drawings = wholeFrame build host before seen
  | .library (.streamRead size), seen =>
      size = chunkSize ∧ seen.chunks.flatten.length ≤ screenful
  | .padPressed, seen => seen.chunks = []
  | .oskPrompt _ _ _ _ backdrop, seen =>
      seen.chunks = [] ∧ backdrop = some (behindKeyboard build host before seen)
  | .uiMessage _ _ _, seen => seen.chunks = []
  | _, _ => True

/-- What is offered to the session is exactly what the user has asked to be sent
and it has not yet accepted; there is nothing such when the buttons are read or
the keyboard is opened, and at the end only if the message says so. -/
def Sends : AppCall → Seen → Prop
  | .library (.streamSend data), seen => seen.asked = seen.accepted ++ data
  | .padPressed, seen => seen.accepted = seen.asked
  | .oskPrompt _ _ _ _ _, seen => seen.accepted = seen.asked
  | .uiMessage _ detail _, seen =>
      seen.accepted <+: seen.asked ∧
        (detail = some lineFailure ∨ detail = some keyFailure ∨
          seen.accepted = seen.asked)
  | _, _ => True

theorem Faithful.shows {build : Build} {host : HostEntry} {before : Term}
    {op : AppCall} {state : Machine × Seen}
    (faithful : Faithful build host before op state) :
    Shows build host before op state.2 := by
  cases op with
  | draw drawings => exact faithful
  | padPressed => exact faithful.1
  | oskPrompt => exact faithful.1
  | uiMessage => exact faithful.1
  | library request =>
      cases request with
      | streamRead size => exact faithful.2
      | _ => trivial
  | _ => trivial

theorem Faithful.sends {build : Build} {host : HostEntry} {before : Term}
    {op : AppCall} {state : Machine × Seen}
    (faithful : Faithful build host before op state) : Sends op state.2 := by
  cases op with
  | padPressed => exact faithful.2
  | oskPrompt => exact faithful.2
  | uiMessage => exact faithful.2
  | library request =>
      cases request with
      | streamSend data => exact faithful.2
      | _ => trivial
  | _ => trivial

section Run

open Pspssh.Data.Process (Asks Returns)

variable (faults : IoCall → Prop) (build : Build) (host : HostEntry) (typed : Buffer)
  (device : Machine)

/-- In every run of a session's terminal, every frame shows exactly what was
read before it. -/
theorem shell_shows_what_is_read (opened : device.library.Open)
    (connected : device.library.connected = true) :
    (∀ op state,
        Asks (scene faults) (runTerminal build host typed) (device, .nothing) op state →
        Shows build host device.statics.term op state.2) ∧
      ∀ now after,
        Returns (scene faults) (runTerminal build host typed) (device, .nothing) now
          after →
        after.2.chunks = [] := by
  have guarded : Guarded (scene faults) _ _ (runTerminal build host typed)
      (device, .nothing) := runTerminal_faithful opened connected rfl rfl rfl
  refine ⟨fun op state asked => (guarded.asks op state asked).shows, ?_⟩
  exact fun now after run => (guarded.returns now after run).2.2.1

/-- In every run of a session's terminal, what the shell gets is exactly what
was typed, and none of it stays in the array it was typed into. -/
theorem shell_sends_what_is_typed (opened : device.library.Open)
    (connected : device.library.connected = true) :
    (∀ op state,
        Asks (scene faults) (runTerminal build host typed) (device, .nothing) op state →
        Sends op state.2) ∧
      ∀ now after,
        Returns (scene faults) (runTerminal build host typed) (device, .nothing) now
          after →
        after.2.accepted <+: after.2.asked ∧ Wiped typed now := by
  have guarded : Guarded (scene faults) _ _ (runTerminal build host typed)
      (device, .nothing) := runTerminal_faithful opened connected rfl rfl rfl
  refine ⟨fun op state asked => (guarded.asks op state asked).sends, ?_⟩
  intro now after run
  obtain ⟨wiped, _, _, part⟩ := guarded.returns now after run
  exact ⟨part, wiped⟩

end Run

def connectedConsole : Machine :=
  { booted blankCard with
    library :=
      { Library.empty with
        block := true
        ctx := true
        ssh := true
        lists := fun list => some (pinned list)
        connected := true }
    sockets := [3] }

theorem connectedConsole_open : connectedConsole.library.Open :=
  ⟨⟨rfl, rfl, rfl, rfl⟩, fun _ => rfl⟩

theorem shell_shows_on_console :
    let terminal := runTerminal ⟨ascii "2.1.1", []⟩ hostsBlank fun _ => 0
    (∀ op state,
        Process.Asks (scene noFaults) terminal (connectedConsole, .nothing) op state →
        Shows ⟨ascii "2.1.1", []⟩ hostsBlank initial op state.2) ∧
      ∀ now after,
        Process.Returns (scene noFaults) terminal (connectedConsole, .nothing) now
          after →
        after.2.chunks = [] :=
  shell_shows_what_is_read noFaults ⟨ascii "2.1.1", []⟩ hostsBlank (fun _ => 0)
    connectedConsole connectedConsole_open rfl

theorem shell_sends_from_console :
    let terminal := runTerminal ⟨ascii "2.1.1", []⟩ hostsBlank fun _ => 0
    (∀ op state,
        Process.Asks (scene noFaults) terminal (connectedConsole, .nothing) op state →
        Sends op state.2) ∧
      ∀ now after,
        Process.Returns (scene noFaults) terminal (connectedConsole, .nothing) now
          after →
        after.2.accepted <+: after.2.asked ∧ Wiped (fun _ => 0) now :=
  shell_sends_what_is_typed noFaults ⟨ascii "2.1.1", []⟩ hostsBlank (fun _ => 0)
    connectedConsole connectedConsole_open rfl

end Pspssh.App
