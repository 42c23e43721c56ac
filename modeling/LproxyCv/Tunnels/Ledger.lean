import LproxyCv.Foundation.Run
import LproxyCv.Tunnels.Tunnel

set_option autoImplicit false

/-!
# Tunnels: a tunnel and the history of its requests

`Ledger` records what has happened to the requests of one tunnel: which were
given a slot, which were released and by whom, what was sent about them and what
was delivered to them.  The tunnel knows nothing of it.  `Step` runs the tunnel's
own functions and keeps the ledger beside them, so that a statement about the
ledger in every reachable state is a statement about every run.

A request is released when its slot is taken back, which drops its trigger.
`Fair` is what keeps the table sound (`safe_of_run`): the server must not close a
slot that no request holds.
-/

namespace LproxyCv.Tunnels

open LproxyCv.Foundation LproxyCv.Lws LproxyCv.Net

/-- The history of the requests of a tunnel.  A request is named by the identity
of its channel and trigger. -/
structure Ledger where
  /-- the identity of the next request -/
  next : Nat
  /-- the requests that were given a slot, with their stubs -/
  issued : List (Nat × TunStub)
  /-- the ones among them that are not released -/
  live : List (Nat × TunStub)
  released : List Nat
  /-- the ones released by the server -/
  serverClosed : List Nat
  /-- the requests the server was told to close -/
  clientClosed : List THeader
  /-- whose payload was delivered to which request -/
  delivered : List (THeader × Channel)
  /-- whether a request was counted out of zero -/
  underflow : Bool
  deriving DecidableEq

/-- The slot of a request. -/
def slotOf (x : Nat × TunStub) : Nat := x.2.reqIdx.toNat

/-- The request a frame tells the server to close. -/
def closedHeader : Effect → Option THeader
  | .send _ msg =>
      match requestFrame msg.buf with
      | some (.reqClientClosed, th) => some th
      | _ => none
  | _ => none

/-- The channel a message goes to. -/
def sentTo : Effect → Option Channel
  | .send tx _ => some tx
  | _ => none

namespace Ledger

/-- Nothing has happened. -/
def new : Ledger := ⟨0, [], [], [], [], [], [], false⟩

/-- The request `next` was given a slot, or refused. -/
def create (h : Ledger) (stub : Option TunStub) : Ledger :=
  match stub with
  | none => { h with next := h.next + 1 }
  | some ts =>
      { h with
        next := h.next + 1
        issued := (h.next, ts) :: h.issued
        live := (h.next, ts) :: h.live }

/-- The requests that hold the slot `i`. -/
def holders (h : Ledger) (i : Nat) : List (Nat × TunStub) := h.live.filter (slotOf · = i)

/-- The slot `i` was taken back while the tunnel counted `count` requests. -/
def release (h : Ledger) (i : Nat) (count : UInt16) : Ledger :=
  { h with
    live := h.live.filter (slotOf · ≠ i)
    released := (h.holders i).map Prod.fst ++ h.released
    underflow := h.underflow || decide (count = 0) }

end Ledger

/-- A tunnel and its history. -/
structure Tracked where
  tunnel : Tunnel
  ledger : Ledger
  deriving DecidableEq

/-- What happens to a tunnel: a new request, the end of a request's task, a frame
of the server. -/
inductive Event where
  | create (ip : IpAddr) (port : UInt16)
  | close (ts : TunStub)
  | frame (msg : RMessage) (elapsed : UInt64)

namespace Tracked

/-- A tunnel just connected. -/
def new (tx : Channel) (rawfd : Int) (idx cap : Nat) (requestQuota : UInt16) : Tracked :=
  ⟨Tunnel.new tx rawfd idx cap requestQuota, Ledger.new⟩

/-- A new request. -/
def create (s : Tracked) (ip : IpAddr) (port : UInt16) : Tracked :=
  let r := s.tunnel.onRequestCreated (Request.withTx s.ledger.next s.ledger.next) ip port
  ⟨r.1, s.ledger.create r.2.1⟩

/-- The end of the task of a request. -/
def close (s : Tracked) (ts : TunStub) : Tracked :=
  let r := s.tunnel.onRequestClosed ts
  let told := r.2.filterMap closedHeader
  if (s.tunnel.requests.free ts.reqIdx ts.reqTag).1 then
    let h := s.ledger.release ts.reqIdx.toNat s.tunnel.reqCount
    ⟨r.1, { h with clientClosed := told ++ h.clientClosed }⟩
  else ⟨r.1, { s.ledger with clientClosed := told ++ s.ledger.clientClosed }⟩

/-- A frame of the server. -/
def frame (s : Tracked) (msg : RMessage) (elapsed : UInt64) : Option Tracked := do
  let r ← s.tunnel.onTunnelMsg msg elapsed
  match requestFrame msg.buf with
  | some (.reqData, th) =>
      let sent := (r.2.filterMap sentTo).map fun tx => (th, tx)
      some ⟨r.1, { s.ledger with delivered := sent ++ s.ledger.delivered }⟩
  | some (.reqServerClosed, th) =>
      if (s.tunnel.requests.free th.reqIdx th.reqTag).1 then
        let h := s.ledger.release th.reqIdx.toNat s.tunnel.reqCount
        let gone := (s.ledger.holders th.reqIdx.toNat).map Prod.fst
        some ⟨r.1, { h with serverClosed := gone ++ h.serverClosed }⟩
      else some ⟨r.1, s.ledger⟩
  | _ => some ⟨r.1, s.ledger⟩

/-- The steps of a tunnel.  Only a request that was given a slot can end. -/
inductive Step : Tracked → Event → Tracked → Prop where
  | create (s : Tracked) (ip : IpAddr) (port : UInt16) :
      Step s (.create ip port) (s.create ip port)
  | close {s : Tracked} {ts : TunStub} : (∃ id, (id, ts) ∈ s.ledger.issued) →
      Step s (.close ts) (s.close ts)
  | frame {s t : Tracked} {msg : RMessage} {elapsed : UInt64} :
      s.frame msg elapsed = some t → Step s (.frame msg elapsed) t

/-! ## What each step does -/

/-- A request was given the slot `i`, which was on top of the stack. -/
structure Created (s t : Tracked) (i : Nat) (req : Request) (ts : TunStub) : Prop where
  top : s.tunnel.requests.freeList = i :: t.tunnel.requests.freeList
  slot : s.tunnel.requests.slot i = some req
  elements : t.tunnel.requests.elements = s.tunnel.requests.elements.set i
    (Reqq.fillReq req (Request.withTx s.ledger.next s.ledger.next))
  reqIdx : ts.reqIdx.toNat = i
  reqTag : ts.reqTag = req.tag + 1
  count : t.tunnel.reqCount = s.tunnel.reqCount + 1
  ledger : t.ledger = s.ledger.create (some ts)

namespace Created

variable {s t : Tracked} {i : Nat} {req : Request} {ts : TunStub}

theorem mem_freeList (h : Created s t i req ts) : i ∈ s.tunnel.requests.freeList := by
  rw [h.top]
  exact List.mem_cons_self

theorem slot_self (h : Created s t i req ts) : t.tunnel.requests.slot i =
    some (Reqq.fillReq req (Request.withTx s.ledger.next s.ledger.next)) := by
  rw [Reqq.slot_set h.elements, if_pos rfl, h.slot]
  rfl

theorem slot_other (h : Created s t i req ts) {j : Nat} (hj : i ≠ j) :
    t.tunnel.requests.slot j = s.tunnel.requests.slot j := by
  rw [Reqq.slot_set h.elements, if_neg hj]

theorem next (h : Created s t i req ts) : t.ledger.next = s.ledger.next + 1 := by
  rw [h.ledger]
  rfl

theorem issued (h : Created s t i req ts) :
    t.ledger.issued = (s.ledger.next, ts) :: s.ledger.issued := by
  rw [h.ledger]
  rfl

theorem live (h : Created s t i req ts) :
    t.ledger.live = (s.ledger.next, ts) :: s.ledger.live := by
  rw [h.ledger]
  rfl

theorem slotOf_eq (h : Created s t i req ts) : slotOf (s.ledger.next, ts) = i := h.reqIdx

end Created

/-- The slot `i` was taken back. -/
structure Released (s t : Tracked) (i : Nat) (req : Request) : Prop where
  slot : s.tunnel.requests.slot i = some req
  freeList : t.tunnel.requests.freeList = i :: s.tunnel.requests.freeList
  elements : t.tunnel.requests.elements = s.tunnel.requests.elements.set i (Reqq.cleanReq req)
  count : t.tunnel.reqCount = s.tunnel.reqCount - 1
  next : t.ledger.next = s.ledger.next
  issued : t.ledger.issued = s.ledger.issued
  live : t.ledger.live = s.ledger.live.filter (slotOf · ≠ i)
  released : t.ledger.released = (s.ledger.holders i).map Prod.fst ++ s.ledger.released
  delivered : t.ledger.delivered = s.ledger.delivered
  underflow : t.ledger.underflow = (s.ledger.underflow || decide (s.tunnel.reqCount = 0))

theorem Released.slot_self {s t : Tracked} {i : Nat} {req : Request} (h : Released s t i req) :
    t.tunnel.requests.slot i = some (Reqq.cleanReq req) := by
  rw [Reqq.slot_set h.elements, if_pos rfl, h.slot]
  rfl

theorem Released.slot_other {s t : Tracked} {i : Nat} {req : Request} (h : Released s t i req)
    {j : Nat} (hj : i ≠ j) : t.tunnel.requests.slot j = s.tunnel.requests.slot j := by
  rw [Reqq.slot_set h.elements, if_neg hj]

/-- No slot changed hands: at most a channel was closed. -/
structure Quiet (s t : Tracked) : Prop where
  freeList : t.tunnel.requests.freeList = s.tunnel.requests.freeList
  length : t.tunnel.requests.elements.length = s.tunnel.requests.elements.length
  slot : ∀ i req', t.tunnel.requests.slot i = some req' →
    ∃ req, s.tunnel.requests.slot i = some req ∧ req'.tag = req.tag ∧
      (req'.requestTx = req.requestTx ∨ req'.requestTx = none)
  count : t.tunnel.reqCount = s.tunnel.reqCount
  next : t.ledger.next = s.ledger.next
  issued : t.ledger.issued = s.ledger.issued
  live : t.ledger.live = s.ledger.live
  released : t.ledger.released = s.ledger.released
  serverClosed : t.ledger.serverClosed = s.ledger.serverClosed
  clientClosed : t.ledger.clientClosed = s.ledger.clientClosed
  underflow : t.ledger.underflow = s.ledger.underflow

/-- A new request is refused and changes nothing, or is given the slot on top of
the stack. -/
theorem create_cases (s : Tracked) (ip : IpAddr) (port : UInt16)
    (htop : ∀ i rest, s.tunnel.requests.freeList = i :: rest → i < 65535) :
    (s.tunnel.requests.freeList = [] ∧ s.create ip port = ⟨s.tunnel, s.ledger.create none⟩) ∨
      ∃ i req ts, i < 65535 ∧ Created s (s.create ip port) i req ts := by
  cases hfree : s.tunnel.requests.freeList with
  | nil =>
      left
      refine ⟨rfl, ?_⟩
      unfold create
      rw [Tunnel.onRequestCreated_nil hfree]
  | cons i rest =>
      right
      obtain ⟨req, ts, hslot, hstub, hidx, htag, _, _, hrest, helems, hcount, _, _⟩ :=
        Tunnel.onRequestCreated_cons hfree (htop i rest hfree)
          (Request.withTx s.ledger.next s.ledger.next) ip port
      refine ⟨i, req, ts, htop i rest hfree, ?_, hslot, helems, hidx, htag, hcount, ?_⟩
      · rw [hfree]
        exact congrArg (i :: ·) hrest.symm
      · exact congrArg s.ledger.create hstub

/-- The end of a task takes the slot of its stub back and tells the server, or
changes nothing. -/
theorem close_cases (s : Tracked) (ts : TunStub) :
    (∃ req, req.tag = ts.reqTag ∧ Released s (s.close ts) ts.reqIdx.toNat req ∧
      (s.close ts).ledger.serverClosed = s.ledger.serverClosed ∧
      (s.close ts).ledger.clientClosed = ts.header :: s.ledger.clientClosed) ∨
    s.close ts = s := by
  have htold : closedHeader (sendRequestClosedToServer ts) = some ts.header := by
    have hframe := requestFrame_frame .reqClientClosed ts.header []
    rw [List.append_nil] at hframe
    simp [closedHeader, sendRequestClosedToServer, WMessage.new, hframe]
  unfold close Tunnel.onRequestClosed
  rcases s.tunnel.release_cases ts.reqIdx ts.reqTag with
    ⟨req, hslot, htag, hok, hrel, hfree, helems, hcount⟩ | ⟨hno, hsame, _⟩
  · left
    refine ⟨req, htag, ?_⟩
    rw [if_pos hok]
    refine ⟨⟨hslot, hfree, helems, hcount, rfl, rfl, rfl, rfl, rfl, rfl⟩, rfl, ?_⟩
    simp [hrel, htold, Ledger.release]
  · right
    simp [hno, hsame]

/-- A frame of the server takes a slot back, delivers a payload, or changes
nothing about the requests. -/
theorem frame_cases {s t : Tracked} {msg : RMessage} {elapsed : UInt64}
    (h : s.frame msg elapsed = some t) :
    (∃ th req, requestFrame msg.buf = some (.reqServerClosed, th) ∧ req.tag = th.reqTag ∧
      Released s t th.reqIdx.toNat req ∧
      t.ledger.serverClosed =
        (s.ledger.holders th.reqIdx.toNat).map Prod.fst ++ s.ledger.serverClosed ∧
      t.ledger.clientClosed = s.ledger.clientClosed) ∨
    (Quiet s t ∧ (t.ledger.delivered = s.ledger.delivered ∨
      ∃ th c, requestFrame msg.buf = some (.reqData, th) ∧
        s.tunnel.getRequestTx th.reqIdx th.reqTag = some c ∧
        t.ledger.delivered = (th, c) :: s.ledger.delivered)) := by
  unfold frame at h
  simp only [Option.bind_eq_bind, Option.bind_eq_some_iff] at h
  obtain ⟨⟨t', effects⟩, hmsg, h⟩ := h
  have hspec := Tunnel.onTunnelMsg_spec hmsg
  have hself : ∀ i req', s.tunnel.requests.slot i = some req' →
      ∃ req, s.tunnel.requests.slot i = some req ∧ req'.tag = req.tag ∧
        (req'.requestTx = req.requestTx ∨ req'.requestTx = none) :=
    fun i req' hreq' => ⟨req', hreq', rfl, Or.inl rfl⟩
  cases hspec with
  | @data th _ b hframe heffects =>
      right
      rw [hframe] at h
      cases h
      refine ⟨⟨rfl, rfl, hself, rfl, rfl, rfl, rfl, rfl, rfl, rfl, rfl⟩, ?_⟩
      cases hget : s.tunnel.getRequestTx th.reqIdx th.reqTag with
      | none =>
          left
          simp [heffects, hget]
      | some c =>
          right
          exact ⟨th, c, hframe, hget, by simp [heffects, hget, sentTo]⟩
  | @finished th b hframe =>
      right
      rw [hframe] at h
      cases h
      obtain ⟨hfree, hlen, hslot⟩ := s.tunnel.freeRequestTx_slot th.reqIdx th.reqTag
      refine ⟨⟨hfree, hlen, ?_, s.tunnel.freeRequestTx_reqCount _ _, rfl, rfl, rfl, rfl, rfl, rfl,
        rfl⟩, Or.inl rfl⟩
      intro i req' hreq'
      obtain ⟨req, hreq, htag, _, htx⟩ := hslot i req' hreq'
      exact ⟨req, hreq, htag, htx⟩
  | @closed th b hframe =>
      rw [hframe] at h
      dsimp only at h
      rcases s.tunnel.release_cases th.reqIdx th.reqTag with
        ⟨req, hslot, htag, hok, _, hfree, helems, hcount⟩ | ⟨hno, hsame, _⟩
      · left
        rw [if_pos hok] at h
        cases h
        exact ⟨th, req, hframe, htag,
          ⟨hslot, hfree, helems, hcount, rfl, rfl, rfl, rfl, rfl, rfl⟩, rfl, rfl⟩
      · right
        rw [hno] at h
        cases h
        rw [hsame]
        exact ⟨⟨rfl, rfl, hself, rfl, rfl, rfl, rfl, rfl, rfl, rfl, rfl⟩, Or.inl rfl⟩
  | other hnot hreqs hcount _ _ =>
      right
      have hlast : t = ⟨t', s.ledger⟩ := by
        split at h
        · rename_i th hframe
          exact absurd rfl (hnot _ th hframe).1
        · rename_i th hframe
          exact absurd rfl (hnot _ th hframe).2.2
        · simpa [eq_comm] using h
      rw [hlast]
      exact ⟨⟨by rw [hreqs], by rw [hreqs], by rw [hreqs]; exact hself, hcount, rfl, rfl, rfl, rfl,
        rfl, rfl, rfl⟩, Or.inl rfl⟩

/-! ## The table against any server -/

/-- The table is consistent: no slot is free twice, none is both free and held,
none is held twice, and the counter counts the requests that hold one. -/
structure Safe (s : Tracked) : Prop where
  freeNodup : s.tunnel.requests.freeList.Nodup
  freeUnheld : ∀ x ∈ s.ledger.live, slotOf x ∉ s.tunnel.requests.freeList
  heldOnce : (s.ledger.live.map slotOf).Nodup
  count : s.tunnel.reqCount.toNat = s.ledger.live.length
  noUnderflow : s.ledger.underflow = false

/-- The server closes no slot that is free, by the tag it has; and the slot on
top of the stack is one whose index is a valid handle. -/
def Fair (s : Tracked) : Event → Prop
  | .create _ _ => ∀ i rest, s.tunnel.requests.freeList = i :: rest → i < 65535
  | .close _ => True
  | .frame msg _ => ∀ th, requestFrame msg.buf = some (.reqServerClosed, th) →
      ∀ req, s.tunnel.requests.slot th.reqIdx.toNat = some req → req.tag = th.reqTag →
        th.reqIdx.toNat ∉ s.tunnel.requests.freeList

/-- The invariant behind `Safe`: every slot is free or held, with an even tag
when it is free and an odd one when it is held. -/
structure Sound (s : Tracked) : Prop where
  pool : Once s.tunnel.requests.elements.length
    (s.ledger.live.map slotOf ++ s.tunnel.requests.freeList)
  evenFree : ∀ i ∈ s.tunnel.requests.freeList, ∀ req, s.tunnel.requests.slot i = some req →
    req.tag.toNat % 2 = 0
  oddHeld : ∀ i ∈ s.ledger.live.map slotOf, ∀ req, s.tunnel.requests.slot i = some req →
    req.tag.toNat % 2 = 1
  oddIssued : ∀ x ∈ s.ledger.issued, x.2.reqTag.toNat % 2 = 1
  handle : ∀ i ∈ s.ledger.live.map slotOf, i < 65535
  count : s.tunnel.reqCount.toNat = s.ledger.live.length
  noUnderflow : s.ledger.underflow = false

theorem Sound.safe {s : Tracked} (h : Sound s) : Safe s where
  freeNodup := (List.nodup_append.mp h.pool.nodup).2.1
  freeUnheld := fun _ hx => h.pool.disjoint (List.mem_map_of_mem hx)
  heldOnce := (List.nodup_append.mp h.pool.nodup).1
  count := h.count
  noUnderflow := h.noUnderflow

theorem sound_new (tx : Channel) (rawfd : Int) (idx cap : Nat) (requestQuota : UInt16) :
    Sound (new tx rawfd idx cap requestQuota) where
  pool := by
    have hsize : (Reqq.new cap).elements.length = cap := Reqq.new_length cap
    show Once (Reqq.new cap).elements.length ([] ++ List.range cap)
    rw [hsize]
    exact once_range cap
  evenFree := by
    intro i _ req hreq
    rw [(Reqq.new_slot hreq).2]
    rfl
  oddHeld := by simp [new, Ledger.new]
  oddIssued := by simp [new, Ledger.new]
  handle := by simp [new, Ledger.new]
  count := rfl
  noUnderflow := rfl

theorem tag_succ (t : UInt16) : (t + 1).toNat % 2 = (t.toNat + 1) % 2 := by
  have hlt := t.toNat_lt
  rw [UInt16.toNat_add]
  simp only [UInt16.toNat_one]
  omega

/-- Without the requests that hold a slot, the slot is gone from the held ones. -/
theorem map_slotOf_filter {live : List (Nat × TunStub)} (h : (live.map slotOf).Nodup) (i : Nat) :
    (live.filter (slotOf · ≠ i)).map slotOf = (live.map slotOf).erase i := by
  rw [h.erase_eq_filter, List.filter_map]
  congr 1
  apply List.filter_congr
  intro x _
  by_cases hx : slotOf x = i <;> simp [hx]

/-- No slot changed hands. -/
theorem Sound.of_quiet {s t : Tracked} (h : Sound s) (hq : Quiet s t) : Sound t where
  pool := by rw [hq.length, hq.live, hq.freeList]; exact h.pool
  evenFree := by
    intro i hi req' hreq'
    obtain ⟨req, hreq, heq, _⟩ := hq.slot i req' hreq'
    rw [heq]
    exact h.evenFree i (hq.freeList ▸ hi) req hreq
  oddHeld := by
    intro i hi req' hreq'
    obtain ⟨req, hreq, heq, _⟩ := hq.slot i req' hreq'
    rw [heq]
    exact h.oddHeld i (hq.live ▸ hi) req hreq
  oddIssued := by rw [hq.issued]; exact h.oddIssued
  handle := by rw [hq.live]; exact h.handle
  count := by rw [hq.count, hq.live]; exact h.count
  noUnderflow := by rw [hq.underflow]; exact h.noUnderflow

/-- A slot that is not free is held. -/
theorem Sound.held {s : Tracked} (h : Sound s) {i : Nat} {req : Request}
    (hslot : s.tunnel.requests.slot i = some req) (hfree : i ∉ s.tunnel.requests.freeList) :
    i ∈ s.ledger.live.map slotOf :=
  (List.mem_append.mp (h.pool.mem_iff.mpr (Reqq.slot_lt hslot))).resolve_right hfree

/-- A held slot was taken back. -/
theorem Sound.of_released {s t : Tracked} {i : Nat} {req : Request} (h : Sound s)
    (hr : Released s t i req) (hheld : i ∉ s.tunnel.requests.freeList) : Sound t := by
  have hmem := h.held hr.slot hheld
  have herase := map_slotOf_filter h.safe.heldOnce i
  have hpool : Once t.tunnel.requests.elements.length
      (t.ledger.live.map slotOf ++ t.tunnel.requests.freeList) := by
    rw [hr.elements, List.length_set, hr.live, herase, hr.freeList]
    exact h.pool.give hmem
  have hlen : t.ledger.live.length + 1 = s.ledger.live.length := by
    have hpos := List.length_pos_of_mem hmem
    rw [← List.length_map slotOf, hr.live, herase, List.length_erase_of_mem hmem]
    rw [List.length_map] at hpos ⊢
    omega
  have hcount := h.count
  refine ⟨hpool, ?_, ?_, by rw [hr.issued]; exact h.oddIssued, ?_, ?_, ?_⟩
  · intro j hj req' hreq'
    rw [hr.freeList] at hj
    by_cases hij : i = j
    · subst hij
      rw [hr.slot_self] at hreq'
      cases hreq'
      have hodd := h.oddHeld i hmem req hr.slot
      rw [Reqq.cleanReq, tag_succ]
      omega
    · rw [hr.slot_other hij] at hreq'
      exact h.evenFree j ((List.mem_cons.mp hj).resolve_left (Ne.symm hij)) req' hreq'
  · intro j hj req' hreq'
    rw [hr.live, herase] at hj
    have hij : i ≠ j := by
      rintro rfl
      exact h.safe.heldOnce.not_mem_erase hj
    rw [hr.slot_other hij] at hreq'
    exact h.oddHeld j (List.mem_of_mem_erase hj) req' hreq'
  · intro j hj
    rw [hr.live, herase] at hj
    exact h.handle j (List.mem_of_mem_erase hj)
  · have hle : (1 : UInt16) ≤ s.tunnel.reqCount := by
      rw [UInt16.le_iff_toNat_le, UInt16.toNat_one]
      omega
    rw [hr.count, UInt16.toNat_sub_of_le _ _ hle, UInt16.toNat_one]
    omega
  · rw [hr.underflow, h.noUnderflow, Bool.false_or, decide_eq_false_iff_not]
    intro hzero
    rw [hzero, UInt16.toNat_zero] at hcount
    omega

/-- A request was given a slot. -/
theorem Sound.of_created {s t : Tracked} {i : Nat} {req : Request} {ts : TunStub} (h : Sound s)
    (hi : i < 65535) (hnew : Created s t i req ts) : Sound t := by
  have heven := h.evenFree i hnew.mem_freeList req hnew.slot
  have hslots : t.ledger.live.map slotOf = i :: s.ledger.live.map slotOf := by
    rw [hnew.live, List.map_cons, hnew.slotOf_eq]
  have hpool : Once t.tunnel.requests.elements.length
      (t.ledger.live.map slotOf ++ t.tunnel.requests.freeList) := by
    have hold := h.pool
    rw [hnew.top] at hold
    rw [hnew.elements, List.length_set, hslots]
    exact hold.take
  have hhandle : ∀ j ∈ t.ledger.live.map slotOf, j < 65535 := by
    intro j hj
    rw [hslots] at hj
    rcases List.mem_cons.mp hj with rfl | hmem
    · exact hi
    · exact h.handle j hmem
  refine ⟨hpool, ?_, ?_, ?_, hhandle, ?_, by rw [hnew.ledger]; exact h.noUnderflow⟩
  · intro j hj req' hreq'
    have hij : i ≠ j := by
      rintro rfl
      exact hpool.disjoint (by rw [hslots]; exact List.mem_cons_self) hj
    rw [hnew.slot_other hij] at hreq'
    exact h.evenFree j (by rw [hnew.top]; exact List.mem_cons_of_mem i hj) req' hreq'
  · intro j hj req' hreq'
    by_cases hij : i = j
    · subst hij
      rw [hnew.slot_self] at hreq'
      cases hreq'
      rw [Reqq.fillReq, tag_succ]
      omega
    · rw [hslots] at hj
      rw [hnew.slot_other hij] at hreq'
      exact h.oddHeld j ((List.mem_cons.mp hj).resolve_left (Ne.symm hij)) req' hreq'
  · intro x hx
    rw [hnew.issued] at hx
    rcases List.mem_cons.mp hx with rfl | hmem
    · rw [hnew.reqTag, tag_succ]
      omega
    · exact h.oddIssued x hmem
  · -- the held slots are different handles, so the counter does not overflow
    have hle : t.ledger.live.length ≤ 65535 := by
      rw [← List.length_map slotOf]
      exact length_le_of_nodup (List.nodup_append.mp hpool.nodup).1 hhandle
    have hcount := h.count
    rw [hnew.live, List.length_cons] at hle ⊢
    rw [hnew.count, UInt16.toNat_add, hcount, UInt16.toNat_one]
    omega

/-- A free slot has no stub. -/
theorem Sound.not_free_of_issued {s : Tracked} (h : Sound s) {x : Nat × TunStub} {req : Request}
    (hx : x ∈ s.ledger.issued) (hslot : s.tunnel.requests.slot (slotOf x) = some req)
    (htag : req.tag = x.2.reqTag) : slotOf x ∉ s.tunnel.requests.freeList := by
  intro hmem
  have heven := h.evenFree _ hmem req hslot
  have hodd := h.oddIssued x hx
  rw [htag] at heven
  omega

/-- Every fair step keeps the table consistent. -/
theorem Sound.step {s t : Tracked} {e : Event} (h : Sound s) (hfair : Fair s e)
    (hstep : Step s e t) : Sound t := by
  cases hstep with
  | create ip port =>
      rcases create_cases s ip port hfair with ⟨_, hsame⟩ | ⟨i, req, ts, hi, hnew⟩
      · rw [hsame]
        exact ⟨h.pool, h.evenFree, h.oddHeld, h.oddIssued, h.handle, h.count, h.noUnderflow⟩
      · exact h.of_created hi hnew
  | @close ts hissued =>
      obtain ⟨id, hid⟩ := hissued
      rcases close_cases s ts with ⟨req, htag, hr, _, _⟩ | hsame
      · exact h.of_released hr (h.not_free_of_issued hid hr.slot htag)
      · rw [hsame]
        exact h
  | @frame _ msg elapsed hframe =>
      rcases frame_cases hframe with ⟨th, req, hclosed, htag, hr, _, _⟩ | ⟨hq, _⟩
      · exact h.of_released hr (hfair th hclosed req hr.slot htag)
      · exact h.of_quiet hq

/-- In every run in which the server closes no free slot by its tag, the table
stays consistent. -/
theorem safe_of_run {tx : Channel} {rawfd : Int} {idx cap : Nat} {requestQuota : UInt16}
    {es : List Event} {s : Tracked}
    (hrun : Run (Guarded Fair Step) (new tx rawfd idx cap requestQuota) es s) : Safe s :=
  (hrun.preserves (fun _ _ _ h hstep => h.step hstep.1 hstep.2)
    (sound_new tx rawfd idx cap requestQuota)).safe

/-- A request that came and went. -/
theorem safe_of_run_one :
    ∃ s, Run (Guarded Fair Step) (new 7 3 0 2 10)
        [.create (.v4 ⟨10, 0, 0, 1⟩) 80, .close ⟨7, 0, 0, 1, 10⟩] s ∧ Safe s := by
  have hrun : Run (Guarded Fair Step) (new 7 3 0 2 10)
      [.create (.v4 ⟨10, 0, 0, 1⟩) 80, .close ⟨7, 0, 0, 1, 10⟩]
      (((new 7 3 0 2 10).create (.v4 ⟨10, 0, 0, 1⟩) 80).close ⟨7, 0, 0, 1, 10⟩) := by
    refine .cons ⟨?_, .create _ _ _⟩ (.cons ⟨trivial, .close ⟨0, ?_⟩⟩ (.nil _))
    · intro i rest hfree
      cases hfree
      decide
    · exact List.mem_cons_self
  exact ⟨_, hrun, safe_of_run hrun⟩

/-- The server closes slot 0 of a tunnel that has no request yet, by the tag the
slot was made with: the slot is on the free list twice, and the counter wraps. -/
theorem stray_close_not_safe :
    ∃ s, Run Step (new 7 3 0 2 10)
        [.frame ⟨Tunnels.frame .reqServerClosed (THeader.toBytes ⟨0, 0⟩), 7, none⟩ 0] s ∧
      s.tunnel.requests.freeList = [0, 0, 1] ∧ s.tunnel.reqCount = 65535 ∧ ¬ Safe s :=
  ⟨_, .cons (.frame rfl) (.nil _), by decide, by decide,
    fun h => absurd h.freeNodup (by decide)⟩

end Tracked

end LproxyCv.Tunnels
