import Pspssh.Net.Socket

namespace Pspssh.Net.Socket

open Pspssh.Data Pspssh.Data.Process

/-! A socket that is given back is open and connected to the server, and no other
is left behind. -/

/-- The resolvers and the sockets that are open, and what the sockets are connected
to. -/
structure Wires where
  resolvers : List Int
  sockets : List Int
  dialled : Int → Option (UInt32 × UInt16)

section World

variable (names : List UInt8 → UInt32 → Prop)

/-- What a call does to them, where the names stand for these addresses. What is
opened was not open; any other call may come to anything. -/
def onWires : World SocketCall.Result Wires :=
  fun before op result after =>
    match op, result with
    | .inetAton name, address =>
        (∀ found, address = some found → names name found) ∧ after = before
    | .resolverCreate, (err, rid) =>
        (0 ≤ err → rid ∉ before.resolvers) ∧
          after =
            { before with
              resolvers :=
                if 0 ≤ err then rid :: before.resolvers else before.resolvers }
    | .resolverStartNtoA _ name _ _, (err, address) =>
        (0 ≤ err → names name address) ∧ after = before
    | .resolverDelete rid, _ =>
        after = { before with resolvers := before.resolvers.erase rid }
    | .socket, fd =>
        (0 ≤ fd → fd ∉ before.sockets) ∧
          after =
            { before with
              sockets := if 0 ≤ fd then fd :: before.sockets else before.sockets }
    | .connect fd address port, err =>
        after =
          { before with
            dialled :=
              if 0 ≤ err then Function.update before.dialled fd (some (address, port))
              else before.dialled }
    | .close fd, _ => after = { before with sockets := before.sockets.erase fd }
    | _, _ => after = before

/-- Only what was opened here is used and closed, and it is connected to nothing
but the server. -/
def Dials (before : Wires) (host : List UInt8) (port : UInt16) :
    SocketCall → Wires → Prop
  | .resolverStartNtoA rid name _ _, now =>
      rid ∈ now.resolvers ∧ rid ∉ before.resolvers ∧ name = host
  | .resolverDelete rid, now => rid ∈ now.resolvers ∧ rid ∉ before.resolvers
  | .connect fd address number, now =>
      fd ∈ now.sockets ∧ fd ∉ before.sockets ∧ names host address ∧ number = port
  | .close fd, now => fd ∈ now.sockets ∧ fd ∉ before.sockets
  | _, _ => True

/-- There is one more socket, and it is connected to the server; or there is none. -/
def Dialled (before : Wires) (host : List UInt8) (port : UInt16) (fd : Int)
    (after : Wires) : Prop :=
  after.resolvers = before.resolvers ∧
    (∀ other ∈ before.sockets, after.dialled other = before.dialled other) ∧
    if 0 ≤ fd then
      fd ∉ before.sockets ∧ after.sockets = fd :: before.sockets ∧
        ∃ address, names host address ∧ after.dialled fd = some (address, port)
    else after.sockets = before.sockets

variable {names} {before : Wires} {host : List UInt8} {port : UInt16}

section Rules

variable {α : Type} {post : α → Wires → Prop} {now : Wires} {next : Unit → Sock α}

theorem guarded_print {text : List UInt8}
    (rest : Guarded (onWires names) (Dials names before host port) post (next ()) now) :
    Guarded (onWires names) (Dials names before host port) post
      (print text >>= next) now := by
  refine .ask trivial fun _ after made => ?_
  have same : after = now := made
  rw [same]
  exact rest

theorem guarded_look {op : SocketCall} {next : op.Result → Sock α}
    (permitted : Dials names before host port op now)
    (looks : ∀ result after, onWires names now op result after → after = now)
    (rest : ∀ result, Guarded (onWires names) (Dials names before host port) post
      (next result) now) :
    Guarded (onWires names) (Dials names before host port) post
      (call op >>= next) now := by
  refine .ask permitted fun result after made => ?_
  rw [looks result after made]
  exact rest result

end Rules

theorem resolve_names :
    Guarded (onWires names) (Dials names before host port)
      (fun found after =>
        (∀ address, found = some address → names host address) ∧ after = before)
      (resolve host) before := by
  refine .ask trivial fun dotted after made => ?_
  obtain ⟨known, rfl⟩ := made
  cases dotted with
  | some address => exact .done ⟨known, rfl⟩
  | none =>
      refine .ask trivial ?_
      rintro ⟨err, rid⟩ opened made
      obtain ⟨unused, did⟩ := made
      rw [did]
      dsimp only
      split
      · rename_i failed
        rw [if_neg (Int32.not_le.mpr failed)]
        exact .done ⟨nofun, rfl⟩
      rename_i worked
      have worked : 0 ≤ err := Int32.not_lt.mp worked
      rw [if_pos worked]
      refine .ask ⟨List.mem_cons_self, unused worked, rfl⟩ ?_
      rintro ⟨ok, address⟩ asked made
      obtain ⟨known, did⟩ := made
      rw [did]
      refine .ask ⟨List.mem_cons_self, unused worked⟩ fun _ deleted made => ?_
      have did : deleted = after := by
        refine Eq.trans made ?_
        dsimp only
        rw [List.erase_cons_head]
      rw [did]
      refine .done ⟨fun found same => ?_, rfl⟩
      split at same
      · rename_i there
        cases same
        exact known there
      · cases same

theorem netConnect_dialled (number : Int32) :
    Guarded (onWires names) (Dials names before host number.toUInt32.toUInt16)
      (Dialled names before host number.toUInt32.toUInt16)
      (netConnect host number) before := by
  have nowhere : Dialled names before host number.toUInt32.toUInt16 (-1) before :=
    ⟨rfl, fun _ _ => rfl, by rw [if_neg (by decide)]⟩
  refine guarded_print (.bind (resolve_names.mono ?_))
  rintro found after ⟨known, rfl⟩
  cases found with
  | none => exact guarded_print (.done nowhere)
  | some address =>
      have known := known address rfl
      refine guarded_look trivial (fun _ _ made => made) fun dotted => guarded_print ?_
      refine .ask trivial fun fd opened made => ?_
      obtain ⟨unused, did⟩ := made
      rw [did]
      split
      · rename_i failed
        rw [if_neg (Int.not_le.mpr failed)]
        refine guarded_look trivial (fun _ _ made => made) fun error => guarded_print ?_
        exact .done nowhere
      rename_i worked
      have worked : 0 ≤ fd := Int.not_lt.mp worked
      have unused := unused worked
      rw [if_pos worked]
      refine .ask ⟨List.mem_cons_self, unused, known, rfl⟩ fun err connected made => ?_
      have did : connected = _ := made
      rw [did]
      have others (other : Int) (among : other ∈ after.sockets) : other ≠ fd := by
        rintro rfl
        exact unused among
      split
      · rename_i refused
        rw [if_neg (Int32.not_le.mpr refused)]
        refine guarded_look trivial (fun _ _ made => made) fun error => guarded_print ?_
        refine .ask ⟨List.mem_cons_self, unused⟩ fun _ closed made => ?_
        have did : closed = after := by
          refine Eq.trans made ?_
          dsimp only
          rw [List.erase_cons_head]
        rw [did]
        exact .done nowhere
      · rename_i accepted
        rw [if_pos (Int32.not_lt.mp accepted)]
        refine .done ⟨rfl, fun other among => ?_, ?_⟩
        · exact Function.update_of_ne (others other among) _ _
        · rw [if_pos worked]
          exact ⟨unused, rfl, address, known, Function.update_self _ _ _⟩

/-- Whatever is open before and whatever the calls come to: a socket that is given
back is new, the only one that is, and connected to an address of the server at its
port; no socket and no resolver is left behind, none of the others is touched, and
nothing but the server is dialled. -/
theorem connects_or_leaves_nothing (names : List UInt8 → UInt32 → Prop) (before : Wires)
    (host : List UInt8) (port : Int32) :
    Always (onWires names) (netConnect host port) before
        (Dials names before host port.toUInt32.toUInt16) ∧
      Ends (onWires names) (netConnect host port) before
        (Dialled names before host port.toUInt32.toUInt16) :=
  ⟨(netConnect_dialled port).asks, (netConnect_dialled port).returns⟩

end World

end Pspssh.Net.Socket
