import Pspssh.Net.Socket

namespace Pspssh.Net.Socket

open Pspssh.Data Pspssh.Data.Process

/-! The callbacks make a stream of a socket: nothing is lost, and nothing is read or
sent twice. -/

/-! ## What the library may rely on -/

/-- What the server has sent so far and how much of it was delivered, what it was
given, whether it has closed its side, and whether the socket has failed. -/
structure Stream where
  sent : List UInt8
  delivered : List UInt8
  given : List UInt8
  ended : Bool
  broken : Bool

structure GoesOn (before after : Stream) : Prop where
  sent : before.sent <+: after.sent
  ended : before.ended = true → after.ended = true ∧ after.sent = before.sent
  broken : before.broken = true → after.broken = true

/-- What the callbacks may answer. An error that is no wish to be asked again means
that there is nothing more to read, or that the socket has failed. -/
def stream : World Callback.Result Stream :=
  fun before op result after =>
    GoesOn before after ∧
    match op, result with
    | .recv len, (answer, bytes) =>
        after.delivered = before.delivered ++ bytes ∧ after.delivered <+: after.sent ∧
          after.given = before.given ∧
          match answer with
          | .ok n => 0 < n ∧ n = bytes.length ∧ n ≤ len
          | .error error =>
              bytes = [] ∧ error ≠ .wantWrite ∧
                (error = .general → len = 0 ∨ after.broken = true ∨
                  after.ended = true ∧ after.delivered = after.sent)
    | .send data, answer =>
        after.delivered = before.delivered ∧
          match answer with
          | .ok n =>
              0 < n ∧ n ≤ data.length ∧
                after.given = before.given ++ data.take n.toNat
          | .error error =>
              after.given = before.given ∧ error ≠ .wantRead ∧
                (error = .general → after.broken = true)

def received (events : List (Event Callback.Result)) : List UInt8 :=
  events.flatMap fun
    | ⟨.recv _, _, bytes⟩ => bytes
    | ⟨.send _, _⟩ => []

def accepted (events : List (Event Callback.Result)) : List UInt8 :=
  events.flatMap fun
    | ⟨.send data, .ok n⟩ => data.take n.toNat
    | ⟨.send _, .error _⟩ => []
    | ⟨.recv _, _⟩ => []

theorem stream_step {op : Callback} {result : op.Result} {before after : Stream}
    (made : stream before op result after) :
    after.delivered = before.delivered ++ received [⟨op, result⟩] ∧
      after.given = before.given ++ accepted [⟨op, result⟩] := by
  obtain ⟨_, made⟩ := made
  cases op with
  | recv len =>
      obtain ⟨answer, bytes⟩ := result
      obtain ⟨delivered, _, given, _⟩ := made
      exact ⟨by simpa [received] using delivered, by simpa [accepted] using given⟩
  | send data =>
      obtain ⟨delivered, made⟩ := made
      refine ⟨by simpa [received] using delivered, ?_⟩
      cases result with
      | ok n => simpa [accepted] using made.2.2
      | error error => simpa [accepted] using made.1

/-- The bytes that were handed over and taken are those that a run says they are. -/
theorem stream_exact {α : Type} {program : Program Callback.Result α}
    {start after : Stream} {value : α}
    (run : Program.Returns stream program start value after)
    (before : List (Event Callback.Result)) :
    ∃ events,
      Program.Returns (Program.Traced stream) program (start, before) value
        (after, before ++ events) ∧
      after.delivered = start.delivered ++ received events ∧
      after.given = start.given ++ accepted events := by
  induction run generalizing before with
  | done =>
      refine ⟨[], ?_, (List.append_nil _).symm, (List.append_nil _).symm⟩
      rw [List.append_nil]
      exact .done
  | @call op next result state between after value made rest ih =>
      obtain ⟨events, run, delivered, given⟩ := ih (before ++ [⟨op, result⟩])
      obtain ⟨delivers, gives⟩ := stream_step made
      refine ⟨⟨op, result⟩ :: events, ?_, ?_, ?_⟩
      · rw [List.append_assoc, List.singleton_append] at run
        exact .call (Program.traced made before) run
      · rw [delivered, delivers, List.append_assoc]
        exact congrArg _ List.flatMap_append.symm
      · rw [given, gives, List.append_assoc]
        exact congrArg _ List.flatMap_append.symm

/-! ## The socket -/

/-- The bytes from the server wait in front of the socket until they are read. -/
structure Peer where
  delivered : List UInt8
  waiting : List UInt8
  given : List UInt8
  ended : Bool
  broken : Bool
  readable : Bool

def Peer.stream (peer : Peer) : Stream where
  sent := peer.delivered ++ peer.waiting
  delivered := peer.delivered
  given := peer.given
  ended := peer.ended
  broken := peer.broken

/-- What a call does to a socket, and what meanwhile arrives at it. -/
def withPeer : World SocketCall.Result Peer :=
  fun before op result after =>
    match op, result with
    | .select _ _ _, ready =>
        ∃ more ended, (before.ended = true → more = [] ∧ ended = true) ∧
          after =
            { before with
              waiting := before.waiting ++ more
              ended := ended
              readable := decide (0 < ready) }
    | .recv _ len, (n, bytes) =>
        ∃ more left ended, (before.ended = true → more = [] ∧ ended = true) ∧
          before.waiting ++ more = bytes ++ left ∧
          (0 < n → n = bytes.length ∧ n ≤ len) ∧ (n ≤ 0 → bytes = []) ∧
          (n = 0 → len = 0 ∨ ended = true ∧ left = []) ∧
          after =
            { before with
              delivered := before.delivered ++ bytes
              waiting := left
              ended := ended
              readable := false }
    | .send _ data, n =>
        n ≤ data.length ∧
          after = { before with given := before.given ++ data.take n.toNat }
    | .errno, error =>
        after =
          { before with
            broken := before.broken || ¬ (error = again ∨ error = interrupted) }
    | _, _ => after = before

/-- Nothing is read that is not there, since that would not return; and nothing is
waited for but the twentieth part of a second. -/
def Prompt (fd : Int) : SocketCall → Peer → Prop
  | .recv other _, peer => other = fd ∧ peer.readable = true
  | .select other seconds micros, _ => other = fd ∧ seconds = 0 ∧ micros = 50000
  | .send other _, _ => other = fd
  | _, _ => True

/-! ## The callbacks -/

theorem GoesOn.trans {first second third : Stream} (before : GoesOn first second)
    (after : GoesOn second third) : GoesOn first third where
  sent := before.sent.trans after.sent
  ended := by
    intro ended
    obtain ⟨still, same⟩ := before.ended ended
    obtain ⟨last, equal⟩ := after.ended still
    exact ⟨last, equal.trans same⟩
  broken := fun broken => after.broken (before.broken broken)

structure Receives (len : Nat) (before : Peer) (n : Int) (bytes : List UInt8)
    (after : Peer) : Prop where
  goesOn : GoesOn before.stream after.stream
  delivered : after.delivered = before.delivered ++ bytes
  given : after.given = before.given
  counted : 0 < n → n = bytes.length ∧ n ≤ len
  nothing : n ≤ 0 → bytes = []
  failed : n < 0 →
    len = 0 ∨ after.broken = true ∨ after.ended = true ∧ after.waiting = []

theorem netRecv_receives (fd : Int) (len : Nat) (before : Peer) :
    Guarded withPeer (Prompt fd) (fun result after =>
      Receives len before result.1 result.2 after) (netRecv fd len) before := by
  refine .bind ?_
  unfold waitReadable
  refine .ask ⟨rfl, rfl, rfl⟩ fun ready looked made => .done ?_
  obtain ⟨more, ended, closed, rfl⟩ := made
  have arrives : GoesOn before.stream
      { before.stream with
        sent := before.delivered ++ (before.waiting ++ more)
        ended := ended } := by
    refine ⟨⟨more, List.append_assoc _ _ _⟩, fun was => ?_, id⟩
    obtain ⟨rfl, still⟩ := closed was
    exact ⟨still, by rw [List.append_nil]; rfl⟩
  split
  · exact .done ⟨arrives, (List.append_nil _).symm, rfl, nofun, fun _ => rfl, nofun⟩
  rename_i there
  refine .ask ⟨rfl, by simpa using there⟩ ?_
  rintro ⟨n, bytes⟩ took made
  obtain ⟨further, left, later, closes, same, counted, empty, last, rfl⟩ := made
  have takes (broken : Bool) (failed : before.broken = true → broken = true) :
      GoesOn before.stream
        { sent := (before.delivered ++ bytes) ++ left
          delivered := before.delivered ++ bytes
          given := before.given
          ended := later
          broken := broken } := by
    refine arrives.trans ⟨⟨further, ?_⟩, fun was => ?_, failed⟩
    · rw [List.append_assoc, List.append_assoc _ bytes, same]
    · obtain ⟨rfl, still⟩ := closes was
      refine ⟨still, ?_⟩
      rw [List.append_assoc, ← same, List.append_nil]
  dsimp only
  split
  · rename_i zero
    refine .done ⟨takes before.broken id, rfl, rfl, nofun, fun _ => ?_, fun _ => ?_⟩
    · exact empty (by omega)
    · exact (last zero).imp_right .inr
  rename_i nonzero
  split
  · rename_i negative
    have nothing : bytes = [] := empty (by omega)
    refine .ask trivial fun error after made => ?_
    have did : after = _ := made
    rw [did]
    split
    · rename_i temporary
      refine .done ⟨takes _ fun broken => ?_, rfl, rfl, nofun, fun _ => nothing, nofun⟩
      rw [broken, Bool.true_or]
    · rename_i lasting
      refine .done ⟨takes _ fun broken => ?_, rfl, rfl, nofun, fun _ => nothing,
        fun _ => .inr (.inl ?_)⟩
      · rw [broken, Bool.true_or]
      · dsimp only
        rw [decide_eq_true lasting, Bool.or_true]
  · rename_i nonnegative
    have positive : 0 < n := by omega
    exact .done ⟨takes before.broken id, rfl, rfl, fun _ => counted positive,
      fun other => absurd positive (by dsimp only at other; omega),
      fun other => absurd positive (by dsimp only at other; omega)⟩

structure Sends (data : List UInt8) (before : Peer) (n : Int) (after : Peer) :
    Prop where
  goesOn : GoesOn before.stream after.stream
  delivered : after.delivered = before.delivered
  given : after.given = before.given ++ data.take n.toNat
  within : n ≤ data.length
  failed : n < 0 → after.broken = true

theorem netSend_sends (fd : Int) (data : List UInt8) (before : Peer) :
    Guarded withPeer (Prompt fd) (Sends data before) (netSend fd data) before := by
  refine .ask rfl fun n sent made => ?_
  obtain ⟨within, rfl⟩ := made
  have goesOn (broken : Bool) (failed : before.broken = true → broken = true)
      (given : List UInt8) :
      GoesOn before.stream { before.stream with given := given, broken := broken } :=
    ⟨List.prefix_rfl, fun ended => ⟨ended, rfl⟩, failed⟩
  split
  · rename_i negative
    have nothing : n.toNat = 0 := Int.toNat_of_nonpos (Int.le_of_lt negative)
    refine .ask trivial fun error after made => ?_
    have did : after = _ := made
    rw [did, nothing]
    have none_given : before.given ++ data.take 0 = before.given := by
      rw [List.take_zero, List.append_nil]
    split
    · refine .done ⟨goesOn _ (fun broken => ?_) _, rfl, rfl, ?_, nofun⟩
      · rw [broken, Bool.true_or]
      · exact Int.natCast_nonneg _
    · rename_i lasting
      refine .done ⟨goesOn _ (fun broken => ?_) _, rfl, rfl, ?_, fun _ => ?_⟩
      · rw [broken, Bool.true_or]
      · have := Int.natCast_nonneg data.length
        omega
      · dsimp only
        rw [decide_eq_true lasting, Bool.or_true]
  · rename_i nonnegative
    exact .done ⟨goesOn before.broken id _, rfl, rfl, within,
      fun negative => absurd negative nonnegative⟩

/-- Over a socket the callbacks answer as those of a stream. -/
theorem callback_stream (fd : Int) (op : Callback) (before : Peer) :
    Guarded withPeer (Prompt fd) (fun result after =>
      stream before.stream op result after.stream) (callback fd op) before := by
  cases op with
  | recv len =>
      refine .bind ((netRecv_receives fd len before).mono ?_)
      rintro ⟨n, bytes⟩ after receives
      have all : after.delivered <+: after.delivered ++ after.waiting :=
        List.prefix_append _ _
      dsimp only at receives ⊢
      split
      · rename_i zero
        refine .done ⟨receives.goesOn, receives.delivered, all, receives.given,
          receives.nothing (by omega), nofun, nofun⟩
      split
      · rename_i nonzero negative
        refine .done ⟨receives.goesOn, receives.delivered, all, receives.given,
          receives.nothing (by omega), nofun, fun _ => ?_⟩
        refine (receives.failed negative).imp_right (Or.imp_right ?_)
        rintro ⟨ended, empty⟩
        refine ⟨ended, ?_⟩
        change after.delivered = after.delivered ++ after.waiting
        rw [empty, List.append_nil]
      · rename_i nonzero nonnegative
        have positive : 0 < n := by omega
        exact .done ⟨receives.goesOn, receives.delivered, all, receives.given,
          positive, receives.counted positive⟩
  | send data =>
      refine .bind ((netSend_sends fd data before).mono ?_)
      intro n after sends
      have given := sends.given
      split
      · rename_i zero
        rw [zero, Int.toNat_zero, List.take_zero, List.append_nil] at given
        exact .done ⟨sends.goesOn, sends.delivered, given, nofun, nofun⟩
      split
      · rename_i nonzero negative
        rw [Int.toNat_of_nonpos (by omega), List.take_zero, List.append_nil] at given
        exact .done ⟨sends.goesOn, sends.delivered, given, nofun,
          fun _ => sends.failed negative⟩
      · rename_i nonzero nonnegative
        exact .done ⟨sends.goesOn, sends.delivered, by omega, sends.within, given⟩

/-- Whatever the library makes of the answers, in every run over a socket the two
callbacks are those of a stream: what it was handed is what the server has sent, in
order and without a gap, what it was told is on its way is what the server was
given, and it is told of an end only when all was handed over or the socket has
failed. Nothing is read that is not there. -/
theorem session_over_stream {α : Type} (fd : Int) (program : Program Callback.Result α)
    (start : Peer) :
    Always withPeer (.via (callback fd) program) start (Prompt fd) ∧
      Ends withPeer (.via (callback fd) program) start fun value after =>
        ∃ events,
          Program.Returns (Program.Traced stream) program (start.stream, []) value
            (after.stream, events) ∧
          after.delivered = start.delivered ++ received events ∧
          after.given = start.given ++ accepted events := by
  have each (op : Callback) (state : Peer) (result : op.Result) (after : Peer)
      (run : Returns withPeer (callback fd op) state result after) :
      stream state.stream op result after.stream :=
    (callback_stream fd op state).returns result after run
  constructor
  · intro op reached asked
    obtain ⟨inner, middle, _, asked⟩ := asks_via Peer.stream each asked
    exact (callback_stream fd inner middle).asks op reached asked
  · intro value after run
    exact stream_exact (returns_via Peer.stream each run) []

end Pspssh.Net.Socket
