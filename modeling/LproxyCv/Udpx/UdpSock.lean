import LproxyCv.Foundation.BytesMut
import LproxyCv.Foundation.Run
import LproxyCv.Foundation.Transport
import LproxyCv.Tunnels.Tunnel
import LproxyCv.Udpx.UdpxWorld
import Mathlib.Data.List.TakeDrop

set_option autoImplicit false

/-!
# Udpx: the socket of redirected datagrams

Every datagram is read into the room behind one buffer, and what was read is split off.  A
datagram that is longer than the room is cut, and nothing tells so.  The buffer is empty
before every read, so no datagram has anything of another one.
-/

namespace LproxyCv.Udpx

open LproxyCv.Foundation LproxyCv.Lws LproxyCv.Net LproxyCv.Tunnels

/-- The room that is asked for before every read. -/
def initialRdCapacity : Nat := 640

/-- What is yielded: the bytes, who has sent them and to whom. -/
abbrev Item : Type := Bytes × SocketAddr × SocketAddr

/-- What a poll of the socket finds. -/
inductive Arrival where
  | notReady
  /-- whether there is something to read cannot be told -/
  | readinessFailed (code : Int)
  /-- there is nothing to read after all; `cleared` is the error of saying so -/
  | wouldBlock (cleared : Option Int)
  | recvFailed (code : Int)
  /-- a datagram, with the addresses that the system tells -/
  | datagram (payload : Bytes) (srcAddr dstAddr : Option SocketAddr)
  deriving DecidableEq, Repr

/-- The datagram that a poll finds, complete. -/
def Arrival.complete : Arrival → Option Item
  | .datagram payload (some saddr) (some daddr) => some (payload, saddr, daddr)
  | _ => none

/-- The socket. -/
structure UdpSocketEx where
  rawfd : Int
  rd : BytesMut
  deriving DecidableEq, Repr

/-- Receive a datagram into a buffer: what is longer than the buffer is dropped. -/
def recvSas (bufLen : Nat) (payload : Bytes) (srcAddr dstAddr : Option SocketAddr) :
    Bytes × Option SocketAddr × Option SocketAddr :=
  (payload.take bufLen, srcAddr, dstAddr)

namespace UdpSocketEx

/-- A socket just made. -/
def new (rawfd : Int) (offered : Nat) : UdpSocketEx :=
  ⟨rawfd, .withCapacity initialRdCapacity offered⟩

/-- Read into a buffer.  A datagram without one of its addresses is a panic. -/
def pollRecvFrom (bufLen : Nat) : Arrival → Option (Poll (Except Int Item))
  | .notReady => some .pending
  | .readinessFailed code => some (.ready (.error code))
  | .wouldBlock none => some .pending
  | .wouldBlock (some code) => some (.ready (.error code))
  | .recvFailed code => some (.ready (.error code))
  | .datagram payload srcAddr dstAddr => do
      let (bs, srcAddr, dstAddr) := recvSas bufLen payload srcAddr dstAddr
      let srcAddr ← srcAddr
      let dstAddr ← dstAddr
      some (.ready (.ok (bs, srcAddr, dstAddr)))

/-- The next item.  `offered` is what the allocator likes to give if the buffer grows. -/
def pollNext (s : UdpSocketEx) (offered : Nat) (arrival : Arrival) :
    Option (Poll (Option (Except Int Item)) × UdpSocketEx) := do
  let rd := s.rd.reserve initialRdCapacity offered
  match ← pollRecvFrom rd.spare arrival with
  | .pending => some (.pending, { s with rd := rd })
  | .ready (.error code) => some (.ready (some (.error code)), { s with rd := rd })
  | .ready (.ok (bs, saddr, daddr)) => do
      let rd ← rd.advanceMut bs
      let (item, rd) ← rd.splitTo rd.data.length
      some (.ready (some (.ok (item, saddr, daddr))), { s with rd := rd.clear })

/-- The item of an answer. -/
def itemOf : Poll (Option (Except Int Item)) → Option Item
  | .ready (some (.ok item)) => some item
  | _ => none

/-- A read yields what fits in the buffer of a datagram with both addresses, and nothing of
anything else. -/
theorem pollRecvFrom_cases {bufLen : Nat} {arrival : Arrival} {polled : Poll (Except Int Item)}
    (h : pollRecvFrom bufLen arrival = some polled) :
    (arrival.complete = none ∧ (polled = .pending ∨ ∃ code, polled = .ready (.error code))) ∨
      ∃ payload saddr daddr, arrival.complete = some (payload, saddr, daddr) ∧
        polled = .ready (.ok (payload.take bufLen, saddr, daddr)) := by
  cases arrival with
  | notReady =>
      cases h
      exact .inl ⟨rfl, .inl rfl⟩
  | readinessFailed code =>
      cases h
      exact .inl ⟨rfl, .inr ⟨code, rfl⟩⟩
  | wouldBlock cleared =>
      cases cleared with
      | none =>
          cases h
          exact .inl ⟨rfl, .inl rfl⟩
      | some code =>
          cases h
          exact .inl ⟨rfl, .inr ⟨code, rfl⟩⟩
  | recvFailed code =>
      cases h
      exact .inl ⟨rfl, .inr ⟨code, rfl⟩⟩
  | datagram payload srcAddr dstAddr =>
      simp only [pollRecvFrom, recvSas, Option.bind_eq_bind, Option.bind_eq_some_iff,
        Option.some.injEq] at h
      obtain ⟨saddr, rfl, daddr, rfl, rfl⟩ := h
      exact .inr ⟨payload, saddr, daddr, rfl, rfl⟩

theorem pollRecvFrom_of_complete (bufLen : Nat) {arrival : Arrival} {payload : Bytes}
    {saddr daddr : SocketAddr} (h : arrival.complete = some (payload, saddr, daddr)) :
    pollRecvFrom bufLen arrival = some (.ready (.ok (payload.take bufLen, saddr, daddr))) := by
  unfold Arrival.complete at h
  split at h
  · cases h
    rfl
  · cases h

/-- One poll of an empty buffer: a datagram is yielded as far as it fits in the room, and
whatever is polled the buffer is empty again. -/
theorem pollNext_spec {s : UdpSocketEx} (hempty : s.rd.data = []) (offered : Nat)
    {arrival : Arrival} {r : Poll (Option (Except Int Item)) × UdpSocketEx}
    (h : s.pollNext offered arrival = some r) :
    r.2.rd.data = [] ∧
      (arrival.complete = none ∧ itemOf r.1 = none ∨
        ∃ payload saddr daddr, arrival.complete = some (payload, saddr, daddr) ∧
          itemOf r.1 = some (payload.take (s.rd.reserve initialRdCapacity offered).spare,
            saddr, daddr)) := by
  simp only [pollNext, Option.bind_eq_bind, Option.bind_eq_some_iff] at h
  obtain ⟨polled, hpolled, h⟩ := h
  have hreserved : (s.rd.reserve initialRdCapacity offered).data = [] := by
    rw [BytesMut.data_reserve, hempty]
  rcases pollRecvFrom_cases hpolled with
    ⟨hnone, rfl | ⟨code, rfl⟩⟩ | ⟨payload, saddr, daddr, hcomplete, rfl⟩
  · cases h
    exact ⟨hreserved, .inl ⟨hnone, rfl⟩⟩
  · cases h
    exact ⟨hreserved, .inl ⟨hnone, rfl⟩⟩
  · simp only [Option.bind_eq_some_iff, Option.some.injEq] at h
    obtain ⟨rd, hadvance, ⟨bs, rd'⟩, hsplit, rfl⟩ := h
    have hbs : bs = payload.take (s.rd.reserve initialRdCapacity offered).spare := by
      rw [BytesMut.splitTo_length_eq hsplit, BytesMut.data_advanceMut hadvance, hreserved,
        List.nil_append]
    exact ⟨rfl, .inr ⟨payload, saddr, daddr, hcomplete, by rw [itemOf, hbs]⟩⟩

/-- A poll that finds a datagram with both addresses yields something. -/
theorem pollNext_of_complete (s : UdpSocketEx) (offered : Nat) {arrival : Arrival} {item : Item}
    (h : arrival.complete = some item) : ∃ r, s.pollNext offered arrival = some r := by
  obtain ⟨payload, saddr, daddr⟩ := item
  obtain ⟨rd, hadvance⟩ := BytesMut.advanceMut_of_le
    (List.length_take_le (s.rd.reserve initialRdCapacity offered).spare payload)
  obtain ⟨rd', hsplit⟩ := rd.splitTo_length
  simp only [pollNext, pollRecvFrom_of_complete _ h, Option.bind_eq_bind, Option.bind_some,
    hadvance, hsplit]
  exact ⟨_, rfl⟩

end UdpSocketEx

/-! ## Everything that comes, and everything that is yielded -/

/-- A socket, what it has received and what it has yielded. -/
structure Reception where
  sock : UdpSocketEx
  received : List Item
  yielded : List Item
  deriving DecidableEq, Repr

namespace Reception

/-- A socket just made. -/
def start (rawfd : Int) (offered : Nat) : Reception := ⟨.new rawfd offered, [], []⟩

/-- Poll the socket.  A poll is what the allocator offers and what the poll finds. -/
def handle (w : Reception) (poll : Nat × Arrival) : Option Reception := do
  let (answer, sock) ← w.sock.pollNext poll.1 poll.2
  some ⟨sock, w.received ++ poll.2.complete.toList, w.yielded ++ (UdpSocketEx.itemOf answer).toList⟩

/-- One poll. -/
def Step (w : Reception) (poll : Nat × Arrival) (w' : Reception) : Prop :=
  w.handle poll = some w'

/-- The datagram is no longer than the room that the buffer has for it. -/
def Fits (w : Reception) (poll : Nat × Arrival) : Prop :=
  ∀ item, poll.2.complete = some item →
    item.1.length ≤ (w.sock.rd.reserve initialRdCapacity poll.1).spare

/-- What a tunnel sends for an item is, behind the head of the frame and the two addresses,
the datagram. -/
def ForwardsAs (t : Tunnel) (item datagram : Item) : Prop :=
  ∃ head, head.length = 3 + (writeSocketaddr datagram.2.1 ++ writeSocketaddr datagram.2.2).length ∧
    t.udpProxyNorth item.1 item.2.1 item.2.2 = .send t.tx (WMessage.new (head ++ datagram.1) 0)

/-- Every datagram has been yielded complete and on its own, and is forwarded so. -/
structure Intact (w : Reception) : Prop where
  items : w.yielded = w.received
  north : ∀ t : Tunnel, List.Forall₂ (ForwardsAs t) w.yielded w.received

variable {w w' : Reception} {poll : Nat × Arrival}

theorem forwardsAs_self (t : Tunnel) (item : Item) : ForwardsAs t item item := by
  refine ⟨leBytes 2 (3 + (writeSocketaddr item.2.1 ++ writeSocketaddr item.2.2 ++ item.1).length) ++
    [Cmd.udpX.toUInt8] ++ (writeSocketaddr item.2.1 ++ writeSocketaddr item.2.2), ?_, ?_⟩
  · simp only [List.length_append, leBytes_length, List.length_singleton]
  · simp only [Tunnel.udpProxyNorth, frame, List.append_assoc, List.cons_append, List.nil_append]

theorem intact_iff : w.Intact ↔ w.yielded = w.received := by
  refine ⟨Intact.items, fun hitems => ⟨hitems, fun t => ?_⟩⟩
  rw [hitems]
  exact List.forall₂_same.mpr fun item _ => forwardsAs_self t item

theorem exists_step {item : Item} (w : Reception) (h : poll.2.complete = some item) :
    ∃ w', Step w poll w' := by
  obtain ⟨r, hpoll⟩ := w.sock.pollNext_of_complete poll.1 h
  simp only [Step, handle, hpoll, Option.bind_eq_bind, Option.bind_some]
  exact ⟨_, rfl⟩

/-- A poll of an empty buffer adds nothing on either side, or one datagram and what of it fits
in the room. -/
theorem Step.added (hstep : Step w poll w') (hempty : w.sock.rd.data = []) :
    w'.sock.rd.data = [] ∧
      (poll.2.complete = none ∧ w'.received = w.received ∧ w'.yielded = w.yielded ∨
        ∃ payload saddr daddr, poll.2.complete = some (payload, saddr, daddr) ∧
          w'.received = w.received ++ [(payload, saddr, daddr)] ∧
          w'.yielded = w.yielded ++
            [(payload.take (w.sock.rd.reserve initialRdCapacity poll.1).spare, saddr, daddr)]) := by
  simp only [Step, handle, Option.bind_eq_bind, Option.bind_eq_some_iff, Option.some.injEq] at hstep
  obtain ⟨⟨answer, sock⟩, hpoll, rfl⟩ := hstep
  obtain ⟨hempty', ⟨hnone, hitem⟩ | ⟨payload, saddr, daddr, hcomplete, hitem⟩⟩ :=
    UdpSocketEx.pollNext_spec hempty poll.1 hpoll
  · dsimp only at hitem
    rw [hnone, hitem]
    exact ⟨hempty', .inl ⟨rfl, List.append_nil _, List.append_nil _⟩⟩
  · dsimp only at hitem
    rw [hcomplete, hitem]
    exact ⟨hempty', .inr ⟨payload, saddr, daddr, rfl, rfl, rfl⟩⟩

/-- Whether the datagrams fit or not, every item is the front of its own datagram. -/
theorem run_front {rawfd : Int} {offered : Nat} {polls : List (Nat × Arrival)}
    (hrun : Run Step (start rawfd offered) polls w) :
    List.Forall₂ (fun item datagram => item.1 <+: datagram.1 ∧ item.2 = datagram.2)
      w.yielded w.received := by
  have hkept : w.sock.rd.data = [] ∧
      List.Forall₂ (fun item datagram => item.1 <+: datagram.1 ∧ item.2 = datagram.2)
        w.yielded w.received := by
    refine hrun.preserves (I := fun w => w.sock.rd.data = [] ∧ List.Forall₂ _ w.yielded w.received)
      ?_ ⟨rfl, .nil⟩
    rintro v poll v' ⟨hempty, hfront⟩ hstep
    obtain ⟨hempty', ⟨_, hreceived, hyielded⟩ |
      ⟨payload, saddr, daddr, _, hreceived, hyielded⟩⟩ := Step.added hstep hempty
    · rw [hreceived, hyielded]
      exact ⟨hempty', hfront⟩
    · rw [hreceived, hyielded]
      have hcut := List.take_prefix (v.sock.rd.reserve initialRdCapacity poll.1).spare payload
      exact ⟨hempty', List.rel_append hfront (.cons ⟨hcut, rfl⟩ .nil)⟩
  exact hkept.2

/-- A poll keeps everything intact exactly when the datagram fits. -/
theorem step_intact_iff (hempty : w.sock.rd.data = []) (hintact : w.Intact)
    (hstep : Step w poll w') : w'.Intact ↔ w.Fits poll := by
  rw [intact_iff] at hintact ⊢
  unfold Fits
  obtain ⟨_, ⟨hnone, hreceived, hyielded⟩ |
    ⟨payload, saddr, daddr, hcomplete, hreceived, hyielded⟩⟩ := hstep.added hempty
  · rw [hreceived, hyielded, hnone]
    exact iff_of_true hintact (by simp)
  · rw [hreceived, hyielded, hintact, hcomplete, List.append_cancel_left_eq, List.cons.injEq,
      Prod.mk.injEq, List.take_eq_self_iff]
    constructor
    · rintro ⟨⟨hle, _⟩, _⟩ item hitem
      cases hitem
      exact hle
    · intro hfits
      exact ⟨⟨hfits _ rfl, rfl⟩, rfl⟩

/-- Up to the room that is asked for, every datagram fits. -/
theorem fits_of_le (h : ∀ item, poll.2.complete = some item → item.1.length ≤ initialRdCapacity) :
    w.Fits poll := fun item hitem =>
  Nat.le_trans (h item hitem) (BytesMut.le_spare_reserve _ _ _)

/-- In a run, everything that has come is yielded complete and on its own in every state
exactly when every datagram fits in the room that the buffer has when it is read. -/
theorem run_intact_iff (rawfd : Int) (offered : Nat) (polls : List (Nat × Arrival))
    (w : Reception) :
    (start rawfd offered).Intact ∧ (Run (Guarded Fits Step) (start rawfd offered) polls w ↔
      Run (fun w poll w' => Step w poll w' ∧ w'.Intact) (start rawfd offered) polls w) := by
  have hstart : (start rawfd offered).Intact := intact_iff.mpr rfl
  refine ⟨hstart, Run.guarded_iff (I := fun w => w.sock.rd.data = [] ∧ w.Intact) ?_ ?_
    ⟨rfl, hstart⟩⟩
  · rintro v poll v' ⟨hempty, hintact⟩ hstep
    exact step_intact_iff hempty hintact hstep
  · rintro v poll v' ⟨hempty, _⟩ hstep hintact'
    exact ⟨(hstep.added hempty).1, hintact'⟩

/-- A datagram of 641 bytes comes while the buffer has room for 640. -/
def oversized : Nat × Arrival := (640, .datagram (List.replicate 641 1) (some UdpxWorld.client)
  (some UdpxWorld.server))

/-- Its last byte is lost. -/
theorem last_byte_lost : ∃ w, Run Step (start 7 640) [oversized] w ∧
    w.yielded = [(List.replicate 640 1, UdpxWorld.client, UdpxWorld.server)] ∧ ¬ w.Intact := by
  have hcomplete : oversized.2.complete =
      some (List.replicate 641 1, UdpxWorld.client, UdpxWorld.server) := rfl
  obtain ⟨w, hstep⟩ := exists_step (start 7 640) hcomplete
  have hempty : (start 7 640).sock.rd.data = [] := rfl
  have hroom : ((start 7 640).sock.rd.reserve initialRdCapacity oversized.1).spare = 640 := rfl
  have hfits := (step_intact_iff hempty (intact_iff.mpr rfl) hstep).mp
  refine ⟨w, .cons hstep (.nil w), ?_, ?_⟩
  · obtain ⟨_, ⟨hnone, _⟩ | ⟨payload, saddr, daddr, hsome, _, hyielded⟩⟩ := hstep.added hempty
    · rw [hcomplete] at hnone
      cases hnone
    · rw [hcomplete, Option.some.injEq, Prod.mk.injEq, Prod.mk.injEq] at hsome
      obtain ⟨rfl, rfl, rfl⟩ := hsome
      rw [hyielded, hroom, List.take_replicate]
      rfl
  · intro hintact
    have hle := hfits hintact _ hcomplete
    rw [hroom, List.length_replicate] at hle
    exact absurd hle (by decide)

end Reception

end LproxyCv.Udpx
