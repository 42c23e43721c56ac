import LproxyCv.Tunnels.Ledger

set_option autoImplicit false

/-!
# Tunnels: a server that only names requests it was told about

A stub names its request for as long as the tags of its slot do not repeat: the
tag of a slot is twice the number of times it was handed out, less one while it
is held.  Against a server that only echoes handles it was given, a frame or a
stub that comes late finds another tag and does nothing, whatever the order
(`echo_of_run`).
-/

namespace LproxyCv.Tunnels

open LproxyCv.Foundation LproxyCv.Lws LproxyCv.Net

namespace Tracked

/-- How often the slot `i` was handed out. -/
def allocs (s : Tracked) (i : Nat) : Nat := (s.ledger.issued.map slotOf).count i

/-- The server names only requests it was told about, and no slot is handed out
so often that its tags repeat. -/
def Echo (s : Tracked) : Event → Prop
  | .create _ _ => ∀ i rest, s.tunnel.requests.freeList = i :: rest → s.allocs i + 1 < 32768
  | .close _ => True
  | .frame msg _ => ∃ cmd th, requestFrame msg.buf = some (cmd, th) ∧
      (cmd = .reqData ∨ cmd = .reqServerFinished ∨ cmd = .reqServerClosed) ∧
      ∃ x ∈ s.ledger.issued, x.2.header = th

/-- What holds of the requests of a tunnel against such a server. -/
structure EchoLaw (s : Tracked) : Prop where
  freeNodup : s.tunnel.requests.freeList.Nodup
  /-- the free slots are the ones no unreleased request holds -/
  free_iff : ∀ i, i ∈ s.tunnel.requests.freeList ↔
    i < s.tunnel.requests.elements.length ∧ ∀ x ∈ s.ledger.live, slotOf x ≠ i
  count : s.tunnel.reqCount.toNat = s.ledger.live.length
  /-- no handle is issued twice -/
  handleNodup : (s.ledger.issued.map fun x => x.2.header).Nodup
  /-- a payload goes to the request its handle was issued to -/
  delivered : ∀ p ∈ s.ledger.delivered, ∃ x ∈ s.ledger.issued, x.2.header = p.1 ∧ x.1 = p.2
  releasedNodup : s.ledger.released.Nodup
  live_iff : ∀ x ∈ s.ledger.issued, x ∈ s.ledger.live ↔ x.1 ∉ s.ledger.released
  clientNodup : s.ledger.clientClosed.Nodup
  /-- the server is told to close only what it has not closed -/
  clientOpen : ∀ th ∈ s.ledger.clientClosed,
    ∃ x ∈ s.ledger.issued, x.2.header = th ∧ x.1 ∉ s.ledger.serverClosed

/-! ## The tags -/

/-- The invariant about the table: the tag of each slot counts its allocations. -/
structure Exact (s : Tracked) : Prop where
  sound : Sound s
  size : s.tunnel.requests.elements.length ≤ 65534
  tag : ∀ i req, s.tunnel.requests.slot i = some req →
    req.tag.toNat + (s.ledger.live.map slotOf).count i = 2 * s.allocs i
  few : ∀ i, s.allocs i < 32768
  older : ∀ x ∈ s.ledger.issued, x.2.reqTag.toNat < 2 * s.allocs (slotOf x)
  handleNodup : (s.ledger.issued.map fun x => x.2.header).Nodup
  idNodup : (s.ledger.issued.map Prod.fst).Nodup
  idLt : ∀ x ∈ s.ledger.issued, x.1 < s.ledger.next
  liveIssued : ∀ x ∈ s.ledger.live, x ∈ s.ledger.issued
  current : ∀ x ∈ s.ledger.live, ∀ req, s.tunnel.requests.slot (slotOf x) = some req →
    req.tag = x.2.reqTag
  owner : ∀ i req c, s.tunnel.requests.slot i = some req → req.requestTx = some c →
    ∃ x ∈ s.ledger.live, slotOf x = i ∧ x.1 = c

theorem exact_new {cap : Nat} (hcap : cap ≤ 65534) (tx : Channel) (rawfd : Int) (idx : Nat)
    (requestQuota : UInt16) : Exact (new tx rawfd idx cap requestQuota) where
  sound := sound_new tx rawfd idx cap requestQuota
  size := by
    show (Reqq.new cap).elements.length ≤ 65534
    rw [Reqq.new_length]
    exact hcap
  tag := by
    intro i req hreq
    rw [(Reqq.new_slot hreq).2]
    rfl
  few := by
    intro i
    show 0 < 32768
    omega
  older := by simp [new, Ledger.new]
  handleNodup := by simp [new, Ledger.new]
  idNodup := by simp [new, Ledger.new]
  idLt := by simp [new, Ledger.new]
  liveIssued := by simp [new, Ledger.new]
  current := by simp [new, Ledger.new]
  owner := by
    intro i req c hreq htx
    rw [(Reqq.new_slot hreq).2] at htx
    cases htx

/-- Two requests with one handle, or with one identity, are one request. -/
theorem eq_of_nodup_map {α β : Type} {f : α → β} {l : List α} (h : (l.map f).Nodup) {x y : α}
    (hx : x ∈ l) (hy : y ∈ l) (heq : f x = f y) : x = y :=
  List.inj_on_of_nodup_map h hx hy heq

theorem header_eq {x y : Nat × TunStub} (hslot : slotOf x = slotOf y)
    (htag : x.2.reqTag = y.2.reqTag) : x.2.header = y.2.header := by
  have hidx : x.2.reqIdx = y.2.reqIdx := UInt16.toNat.inj hslot
  rw [TunStub.header, TunStub.header, hidx, htag]

/-- A request whose stub has the tag of its slot holds that slot, and no other
request does. -/
theorem Exact.holder {s : Tracked} (h : Exact s) {x : Nat × TunStub} {req : Request}
    (hx : x ∈ s.ledger.issued) (hslot : s.tunnel.requests.slot (slotOf x) = some req)
    (htag : req.tag = x.2.reqTag) :
    x ∈ s.ledger.live ∧ ∀ y ∈ s.ledger.live, slotOf y = slotOf x → y = x := by
  have hheld := h.sound.held hslot (h.sound.not_free_of_issued hx hslot htag)
  have hsame : ∀ y ∈ s.ledger.live, slotOf y = slotOf x → y = x := by
    intro y hy hyx
    have hcur := h.current y hy req (by rw [hyx]; exact hslot)
    exact eq_of_nodup_map h.handleNodup (h.liveIssued y hy) hx
      (header_eq hyx (by rw [← hcur, htag]))
  obtain ⟨y, hy, hyx⟩ := List.mem_map.mp hheld
  exact ⟨hsame y hy hyx ▸ hy, hsame⟩

theorem Exact.of_quiet {s t : Tracked} (h : Exact s) (hq : Quiet s t) : Exact t where
  sound := h.sound.of_quiet hq
  size := by rw [hq.length]; exact h.size
  tag := by
    intro i req' hreq'
    obtain ⟨req, hreq, htag, _⟩ := hq.slot i req' hreq'
    rw [htag, hq.live, allocs, hq.issued]
    exact h.tag i req hreq
  few := by
    intro i
    rw [allocs, hq.issued]
    exact h.few i
  older := by
    intro x hx
    rw [hq.issued] at hx
    rw [allocs, hq.issued]
    exact h.older x hx
  handleNodup := by rw [hq.issued]; exact h.handleNodup
  idNodup := by rw [hq.issued]; exact h.idNodup
  idLt := by rw [hq.issued, hq.next]; exact h.idLt
  liveIssued := by rw [hq.live, hq.issued]; exact h.liveIssued
  current := by
    intro x hx req' hreq'
    obtain ⟨req, hreq, htag, _⟩ := hq.slot _ req' hreq'
    rw [htag]
    exact h.current x (hq.live ▸ hx) req hreq
  owner := by
    intro i req' c hreq' htx
    obtain ⟨req, hreq, _, hsame | hnone⟩ := hq.slot i req' hreq'
    · rw [hq.live]
      exact h.owner i req c hreq (hsame ▸ htx)
    · rw [hnone] at htx
      cases htx

/-- The slot of a request that held it was taken back. -/
theorem Exact.of_released {s t : Tracked} {x : Nat × TunStub} {req : Request} (h : Exact s)
    (hx : x ∈ s.ledger.issued) (htag : req.tag = x.2.reqTag)
    (hr : Released s t (slotOf x) req) : Exact t := by
  have hfree := h.sound.not_free_of_issued hx hr.slot htag
  have hheld := h.sound.held hr.slot hfree
  have herase := map_slotOf_filter h.sound.safe.heldOnce (slotOf x)
  have hallocs : ∀ i, t.allocs i = s.allocs i := fun i => by rw [allocs, hr.issued, allocs]
  refine ⟨h.sound.of_released hr hfree, ?_, ?_, fun i => hallocs i ▸ h.few i, ?_, ?_, ?_, ?_, ?_,
    ?_, ?_⟩
  · rw [hr.elements, List.length_set]
    exact h.size
  · intro i req' hreq'
    rw [hallocs, hr.live, herase]
    by_cases hi : slotOf x = i
    · subst hi
      rw [hr.slot_self] at hreq'
      cases hreq'
      have hold := h.tag _ req hr.slot
      have hone := List.count_eq_one_of_mem h.sound.safe.heldOnce hheld
      have hfew := h.few (slotOf x)
      rw [List.count_erase_self, hone, Reqq.cleanReq, UInt16.toNat_add, UInt16.toNat_one]
      omega
    · rw [hr.slot_other hi] at hreq'
      rw [List.count_erase_of_ne (Ne.symm hi)]
      exact h.tag i req' hreq'
  · intro y hy
    rw [hallocs]
    exact h.older y (hr.issued ▸ hy)
  · rw [hr.issued]; exact h.handleNodup
  · rw [hr.issued]; exact h.idNodup
  · rw [hr.issued, hr.next]; exact h.idLt
  · intro y hy
    rw [hr.live] at hy
    rw [hr.issued]
    exact h.liveIssued y (List.mem_filter.mp hy).1
  · intro y hy req' hreq'
    rw [hr.live, List.mem_filter, decide_eq_true_eq] at hy
    rw [hr.slot_other (Ne.symm hy.2)] at hreq'
    exact h.current y hy.1 req' hreq'
  · intro i req' c hreq' htx
    by_cases hi : slotOf x = i
    · subst hi
      rw [hr.slot_self] at hreq'
      cases hreq'
      cases htx
    · rw [hr.slot_other hi] at hreq'
      obtain ⟨y, hy, hyi, hyc⟩ := h.owner i req' c hreq' htx
      refine ⟨y, ?_, hyi, hyc⟩
      rw [hr.live, List.mem_filter, decide_eq_true_eq]
      exact ⟨hy, by rw [hyi]; exact Ne.symm hi⟩

theorem Created.allocs {s t : Tracked} {i : Nat} {req : Request} {ts : TunStub}
    (h : Created s t i req ts) (j : Nat) : t.allocs j = s.allocs j + if i = j then 1 else 0 := by
  rw [Tracked.allocs, h.issued, List.map_cons, h.slotOf_eq, List.count_cons, Tracked.allocs]
  simp only [beq_iff_eq]

/-- A slot that is given out was held by nobody. -/
theorem Exact.unheld_of_created {s t : Tracked} {i : Nat} {req : Request} {ts : TunStub}
    (h : Exact s) (hnew : Created s t i req ts) : i ∉ s.ledger.live.map slotOf :=
  fun hin => h.sound.pool.disjoint hin hnew.mem_freeList

/-- The tag of a stub says how often its slot was given out before. -/
theorem Exact.reqTag_of_created {s t : Tracked} {i : Nat} {req : Request} {ts : TunStub}
    (h : Exact s) (hfew : s.allocs i + 1 < 32768) (hnew : Created s t i req ts) :
    ts.reqTag.toNat = 2 * s.allocs i + 1 := by
  have htag := h.tag i req hnew.slot
  rw [List.count_eq_zero_of_not_mem (h.unheld_of_created hnew)] at htag
  rw [hnew.reqTag, UInt16.toNat_add, UInt16.toNat_one]
  omega

/-- No older stub is the same: one of the same slot has a smaller tag. -/
theorem Exact.header_fresh {s t : Tracked} {i : Nat} {req : Request} {ts : TunStub}
    (h : Exact s) (hfew : s.allocs i + 1 < 32768) (hnew : Created s t i req ts) :
    ts.header ∉ s.ledger.issued.map fun x => x.2.header := by
  intro hin
  obtain ⟨y, hy, hyh⟩ := List.mem_map.mp hin
  have hold := h.older y hy
  have hyslot : slotOf y = i := by
    rw [slotOf, ← hnew.reqIdx]
    exact congrArg (fun th => th.reqIdx.toNat) hyh
  have hytag : y.2.reqTag = ts.reqTag := congrArg THeader.reqTag hyh
  rw [hyslot, hytag, h.reqTag_of_created hfew hnew] at hold
  omega

/-- A request was given a slot. -/
theorem Exact.of_created {s t : Tracked} {i : Nat} {req : Request} {ts : TunStub} (h : Exact s)
    (hfew : s.allocs i + 1 < 32768) (hnew : Created s t i req ts) : Exact t := by
  have hi : i < 65535 := by
    have hlt := s.tunnel.requests.freeList_lt i hnew.mem_freeList
    have hsize := h.size
    omega
  have hunheld := h.unheld_of_created hnew
  have hnot : ∀ y ∈ s.ledger.live, slotOf y ≠ i :=
    fun y hy heq => hunheld (heq ▸ List.mem_map_of_mem hy)
  have htag := h.reqTag_of_created hfew hnew
  refine ⟨h.sound.of_created hi hnew, ?_, ?_, ?_, ?_, ?_, ?_, ?_, ?_, ?_, ?_⟩
  · rw [hnew.elements, List.length_set]
    exact h.size
  · intro j req' hreq'
    rw [hnew.allocs, hnew.live, List.map_cons, hnew.slotOf_eq]
    by_cases hj : i = j
    · subst hj
      rw [hnew.slot_self] at hreq'
      cases hreq'
      rw [List.count_cons_self, List.count_eq_zero_of_not_mem hunheld, Reqq.fillReq,
        ← hnew.reqTag, htag, if_pos rfl]
      omega
    · rw [hnew.slot_other hj] at hreq'
      rw [List.count_cons_of_ne hj, if_neg hj]
      exact h.tag j req' hreq'
  · intro j
    rw [hnew.allocs]
    split
    · rename_i hj
      exact hj ▸ hfew
    · exact h.few j
  · intro y hy
    rw [hnew.allocs]
    rw [hnew.issued] at hy
    rcases List.mem_cons.mp hy with rfl | hy
    · rw [hnew.slotOf_eq, if_pos rfl, htag]
      omega
    · have hold := h.older y hy
      omega
  · rw [hnew.issued, List.map_cons, List.nodup_cons]
    exact ⟨h.header_fresh hfew hnew, h.handleNodup⟩
  · rw [hnew.issued, List.map_cons, List.nodup_cons]
    refine ⟨?_, h.idNodup⟩
    intro hin
    obtain ⟨y, hy, hyid⟩ := List.mem_map.mp hin
    have hlt := h.idLt y hy
    simp only at hyid
    omega
  · intro y hy
    rw [hnew.issued] at hy
    rw [hnew.next]
    rcases List.mem_cons.mp hy with rfl | hy
    · exact Nat.lt_succ_self _
    · exact Nat.lt_succ_of_lt (h.idLt y hy)
  · intro y hy
    rw [hnew.live] at hy
    rw [hnew.issued]
    rcases List.mem_cons.mp hy with rfl | hy
    · exact List.mem_cons_self
    · exact List.mem_cons_of_mem _ (h.liveIssued y hy)
  · intro y hy req' hreq'
    rw [hnew.live] at hy
    rcases List.mem_cons.mp hy with rfl | hy
    · rw [hnew.slotOf_eq, hnew.slot_self] at hreq'
      cases hreq'
      exact hnew.reqTag.symm
    · rw [hnew.slot_other (Ne.symm (hnot y hy))] at hreq'
      exact h.current y hy req' hreq'
  · intro j req' c hreq' htx
    rw [hnew.live]
    by_cases hj : i = j
    · subst hj
      rw [hnew.slot_self] at hreq'
      cases hreq'
      have hc : s.ledger.next = c := by simpa [Reqq.fillReq, Request.withTx] using htx
      exact ⟨_, List.mem_cons_self, hnew.slotOf_eq, hc⟩
    · rw [hnew.slot_other hj] at hreq'
      obtain ⟨y, hy, hyj, hyc⟩ := h.owner j req' c hreq' htx
      exact ⟨y, List.mem_cons_of_mem _ hy, hyj, hyc⟩

/-! ## The history -/

/-- The invariant about the ledger. -/
structure History (s : Tracked) : Prop where
  releasedNodup : s.ledger.released.Nodup
  live_iff : ∀ x ∈ s.ledger.issued, x ∈ s.ledger.live ↔ x.1 ∉ s.ledger.released
  releasedLt : ∀ id ∈ s.ledger.released, id < s.ledger.next
  delivered : ∀ p ∈ s.ledger.delivered, ∃ x ∈ s.ledger.issued, x.2.header = p.1 ∧ x.1 = p.2
  server : ∀ id ∈ s.ledger.serverClosed, id ∈ s.ledger.released
  client : ∀ th ∈ s.ledger.clientClosed, ∃ x ∈ s.ledger.issued,
    x.2.header = th ∧ x.1 ∈ s.ledger.released ∧ x.1 ∉ s.ledger.serverClosed
  clientNodup : s.ledger.clientClosed.Nodup

theorem history_new (tx : Channel) (rawfd : Int) (idx cap : Nat) (requestQuota : UInt16) :
    History (new tx rawfd idx cap requestQuota) := by
  constructor <;> simp [new, Ledger.new]

/-- The one holder of a slot. -/
theorem holders_eq {s : Tracked} (h : Exact s) {x : Nat × TunStub} (hx : x ∈ s.ledger.live)
    (hone : ∀ y ∈ s.ledger.live, slotOf y = slotOf x → y = x) :
    s.ledger.holders (slotOf x) = [x] := by
  have hnodup : (s.ledger.holders (slotOf x)).Nodup :=
    (h.sound.safe.heldOnce.of_map slotOf).filter _
  have hmem : ∀ y, y ∈ s.ledger.holders (slotOf x) ↔ y = x := by
    intro y
    rw [Ledger.holders, List.mem_filter, decide_eq_true_eq]
    constructor
    · rintro ⟨hy, hyx⟩
      exact hone y hy hyx
    · rintro rfl
      exact ⟨hx, rfl⟩
  exact List.perm_singleton.mp ((List.perm_ext_iff_of_nodup hnodup (List.nodup_singleton x)).mpr
    fun y => by rw [hmem, List.mem_singleton])

/-- The slot of a request that held it was taken back: the request is released,
and it was not before. -/
theorem History.of_released {s t : Tracked} {x : Nat × TunStub} {req : Request} (he : Exact s)
    (h : History s) (hx : x ∈ s.ledger.issued) (htag : req.tag = x.2.reqTag)
    (hr : Released s t (slotOf x) req) :
    x.1 ∉ s.ledger.released ∧ t.ledger.released = x.1 :: s.ledger.released ∧
      t.ledger.released.Nodup ∧
      (∀ y ∈ t.ledger.issued, y ∈ t.ledger.live ↔ y.1 ∉ t.ledger.released) ∧
      ∀ id ∈ t.ledger.released, id < t.ledger.next := by
  obtain ⟨hlive, hone⟩ := he.holder hx hr.slot htag
  have hnot : x.1 ∉ s.ledger.released := (h.live_iff x hx).mp hlive
  have hreleased : t.ledger.released = x.1 :: s.ledger.released := by
    rw [hr.released, holders_eq he hlive hone]
    rfl
  refine ⟨hnot, hreleased, ?_, ?_, ?_⟩
  · rw [hreleased]
    exact List.nodup_cons.mpr ⟨hnot, h.releasedNodup⟩
  · intro y hy
    rw [hr.issued] at hy
    rw [hr.live, List.mem_filter, decide_eq_true_eq, hreleased, List.mem_cons, not_or,
      h.live_iff y hy]
    constructor
    · rintro ⟨hyr, hyx⟩
      refine ⟨?_, hyr⟩
      intro heq
      exact hyx (congrArg slotOf (eq_of_nodup_map he.idNodup hy hx heq))
    · rintro ⟨hyx, hyr⟩
      refine ⟨hyr, ?_⟩
      intro heq
      exact hyx (congrArg Prod.fst (hone y ((h.live_iff y hy).mpr hyr) heq))
  · intro id hid
    rw [hreleased] at hid
    rw [hr.next]
    rcases List.mem_cons.mp hid with rfl | hid
    · exact he.idLt x hx
    · exact h.releasedLt id hid

theorem History.of_created {s t : Tracked} {i : Nat} {req : Request} {ts : TunStub}
    (he : Exact s) (h : History s) (hnew : Created s t i req ts) : History t := by
  have hfresh : s.ledger.next ∉ s.ledger.released :=
    fun hin => Nat.lt_irrefl _ (h.releasedLt _ hin)
  constructor <;> rw [hnew.ledger]
  · exact h.releasedNodup
  · intro y hy
    rcases List.mem_cons.mp hy with rfl | hy
    · exact ⟨fun _ => hfresh, fun _ => List.mem_cons_self⟩
    · refine Iff.trans ?_ (h.live_iff y hy)
      refine ⟨fun hin => (List.mem_cons.mp hin).resolve_left ?_, List.mem_cons_of_mem _⟩
      rintro rfl
      exact Nat.lt_irrefl _ (he.idLt _ hy)
  · exact fun id hid => Nat.lt_succ_of_lt (h.releasedLt id hid)
  · intro p hp
    obtain ⟨x, hx, hxp⟩ := h.delivered p hp
    exact ⟨x, List.mem_cons_of_mem _ hx, hxp⟩
  · exact h.server
  · intro th hth
    obtain ⟨x, hx, hxth⟩ := h.client th hth
    exact ⟨x, List.mem_cons_of_mem _ hx, hxth⟩
  · exact h.clientNodup

theorem History.of_close {s t : Tracked} {x : Nat × TunStub} {req : Request} (he : Exact s)
    (h : History s) (hx : x ∈ s.ledger.issued) (htag : req.tag = x.2.reqTag)
    (hr : Released s t (slotOf x) req) (hserver : t.ledger.serverClosed = s.ledger.serverClosed)
    (hclient : t.ledger.clientClosed = x.2.header :: s.ledger.clientClosed) : History t := by
  obtain ⟨hnot, hreleased, hnodup, hlive, hlt⟩ := h.of_released he hx htag hr
  refine ⟨hnodup, hlive, hlt, ?_, ?_, ?_, ?_⟩
  · rw [hr.delivered, hr.issued]
    exact h.delivered
  · intro id hid
    rw [hreleased]
    exact List.mem_cons_of_mem _ (h.server id (hserver ▸ hid))
  · intro th hth
    rw [hclient] at hth
    rw [hr.issued, hreleased, hserver]
    rcases List.mem_cons.mp hth with rfl | hth
    · exact ⟨x, hx, rfl, List.mem_cons_self, fun hin => hnot (h.server _ hin)⟩
    · obtain ⟨y, hy, hyth, hyr, hys⟩ := h.client th hth
      exact ⟨y, hy, hyth, List.mem_cons_of_mem _ hyr, hys⟩
  · rw [hclient]
    refine List.nodup_cons.mpr ⟨?_, h.clientNodup⟩
    -- the server was never told to close the request before
    intro hin
    obtain ⟨y, hy, hyth, hyr, _⟩ := h.client _ hin
    exact hnot (eq_of_nodup_map he.handleNodup hy hx hyth ▸ hyr)

theorem History.of_serverClosed {s t : Tracked} {x : Nat × TunStub} {req : Request}
    (he : Exact s) (h : History s) (hx : x ∈ s.ledger.issued) (htag : req.tag = x.2.reqTag)
    (hr : Released s t (slotOf x) req)
    (hserver : t.ledger.serverClosed =
      (s.ledger.holders (slotOf x)).map Prod.fst ++ s.ledger.serverClosed)
    (hclient : t.ledger.clientClosed = s.ledger.clientClosed) : History t := by
  obtain ⟨hnot, hreleased, hnodup, hlive, hlt⟩ := h.of_released he hx htag hr
  obtain ⟨hxlive, hone⟩ := he.holder hx hr.slot htag
  rw [holders_eq he hxlive hone] at hserver
  refine ⟨hnodup, hlive, hlt, ?_, ?_, ?_, by rw [hclient]; exact h.clientNodup⟩
  · rw [hr.delivered, hr.issued]
    exact h.delivered
  · intro id hid
    rw [hserver] at hid
    rw [hreleased]
    rcases List.mem_cons.mp hid with rfl | hid
    · exact List.mem_cons_self
    · exact List.mem_cons_of_mem _ (h.server id hid)
  · intro th hth
    rw [hclient] at hth
    obtain ⟨y, hy, hyth, hyr, hys⟩ := h.client th hth
    rw [hr.issued, hreleased, hserver]
    refine ⟨y, hy, hyth, List.mem_cons_of_mem _ hyr, ?_⟩
    rintro hin
    rcases List.mem_cons.mp hin with heq | hin
    · exact hnot (heq ▸ hyr)
    · exact hys hin

/-- A channel of the table is the one of the request its slot was handed to. -/
theorem Exact.delivers {s : Tracked} (he : Exact s) {th : THeader} {c : Channel}
    (h : s.tunnel.getRequestTx th.reqIdx th.reqTag = some c) :
    ∃ x ∈ s.ledger.issued, x.2.header = th ∧ x.1 = c := by
  unfold Tunnel.getRequestTx at h
  split at h
  · cases h
  · rename_i req hslot
    split at h
    · rename_i htag
      obtain ⟨x, hx, hxi, hxc⟩ := he.owner _ req c hslot h
      have hcur := he.current x hx req (by rw [hxi]; exact hslot)
      refine ⟨x, he.liveIssued x hx, ?_, hxc⟩
      have hidx : x.2.reqIdx = th.reqIdx := UInt16.toNat.inj hxi
      rw [TunStub.header, hidx, ← hcur, htag]
    · cases h

theorem History.of_quiet {s t : Tracked} (h : History s) (hq : Quiet s t)
    (hdelivered : ∀ p ∈ t.ledger.delivered, ∃ x ∈ s.ledger.issued, x.2.header = p.1 ∧ x.1 = p.2) :
    History t where
  releasedNodup := by rw [hq.released]; exact h.releasedNodup
  live_iff := by rw [hq.issued, hq.live, hq.released]; exact h.live_iff
  releasedLt := by rw [hq.released, hq.next]; exact h.releasedLt
  delivered := by rw [hq.issued]; exact hdelivered
  server := by rw [hq.serverClosed, hq.released]; exact h.server
  client := by rw [hq.clientClosed, hq.issued, hq.released, hq.serverClosed]; exact h.client
  clientNodup := by rw [hq.clientClosed]; exact h.clientNodup

/-- Every step against such a server keeps both invariants. -/
theorem Exact.step {s t : Tracked} {e : Event} (he : Exact s) (h : History s) (hecho : Echo s e)
    (hstep : Step s e t) : Exact t ∧ History t := by
  cases hstep with
  | create ip port =>
      have htop : ∀ i rest, s.tunnel.requests.freeList = i :: rest → i < 65535 := by
        intro i rest hfree
        have hlt := s.tunnel.requests.freeList_lt i (by rw [hfree]; exact List.mem_cons_self)
        have hsize := he.size
        omega
      rcases create_cases s ip port htop with ⟨_, hsame⟩ | ⟨i, req, ts, _, hnew⟩
      · rw [hsame]
        have hsound := he.sound
        exact ⟨⟨⟨hsound.pool, hsound.evenFree, hsound.oddHeld, hsound.oddIssued, hsound.handle,
            hsound.count, hsound.noUnderflow⟩, he.size, he.tag, he.few, he.older, he.handleNodup,
            he.idNodup, fun x hx => Nat.lt_succ_of_lt (he.idLt x hx), he.liveIssued, he.current,
            he.owner⟩,
          ⟨h.releasedNodup, h.live_iff, fun id hid => Nat.lt_succ_of_lt (h.releasedLt id hid),
            h.delivered, h.server, h.client, h.clientNodup⟩⟩
      · exact ⟨he.of_created (hecho i _ hnew.top) hnew, h.of_created he hnew⟩
  | @close ts hissued =>
      obtain ⟨id, hid⟩ := hissued
      rcases close_cases s ts with ⟨req, htag, hr, hserver, hclient⟩ | hsame
      · exact ⟨he.of_released hid htag hr, h.of_close he hid htag hr hserver hclient⟩
      · rw [hsame]
        exact ⟨he, h⟩
  | @frame _ msg elapsed hframe =>
      obtain ⟨cmd, th, hmsg, _, x, hx, hxth⟩ := hecho
      rcases frame_cases hframe with
        ⟨th', req, hclosed, htag, hr, hserver, hclient⟩ | ⟨hq, hdelivered⟩
      · rw [hmsg] at hclosed
        cases hclosed
        subst hxth
        exact ⟨he.of_released hx htag hr, h.of_serverClosed he hx htag hr hserver hclient⟩
      · refine ⟨he.of_quiet hq, h.of_quiet hq ?_⟩
        rcases hdelivered with hsame | ⟨th', c, _, hget, hnew⟩
        · rw [hsame]
          exact h.delivered
        · rw [hnew]
          intro p hp
          rcases List.mem_cons.mp hp with rfl | hp
          · exact he.delivers hget
          · exact h.delivered p hp

theorem Exact.law {s : Tracked} (he : Exact s) (h : History s) : EchoLaw s where
  freeNodup := he.sound.safe.freeNodup
  free_iff := by
    intro i
    constructor
    · intro hi
      exact ⟨s.tunnel.requests.freeList_lt i hi,
        fun x hx heq => he.sound.pool.disjoint (List.mem_map_of_mem hx) (heq ▸ hi)⟩
    · rintro ⟨hi, hnone⟩
      refine (List.mem_append.mp (he.sound.pool.mem_iff.mpr hi)).resolve_left ?_
      intro hin
      obtain ⟨x, hx, hxi⟩ := List.mem_map.mp hin
      exact hnone x hx hxi
  count := he.sound.count
  handleNodup := he.handleNodup
  delivered := h.delivered
  releasedNodup := h.releasedNodup
  live_iff := h.live_iff
  clientNodup := h.clientNodup
  clientOpen := fun th hth =>
    let ⟨x, hx, hxth, _, hxs⟩ := h.client th hth
    ⟨x, hx, hxth, hxs⟩

/-! ## After the connection is gone -/

/-- The tunnel after its connection is gone. -/
def onClosed (s : Tracked) : Tracked := { s with tunnel := s.tunnel.onClosed }

/-- Nothing can be handed out, no slot has a channel, and no stub or echoed
handle has the tag of its slot. -/
structure Dead (s : Tracked) : Prop where
  free : s.tunnel.requests.freeList = []
  silent : ∀ i req, s.tunnel.requests.slot i = some req → req.requestTx = none
  stale : ∀ x ∈ s.ledger.issued, ∀ req, s.tunnel.requests.slot (slotOf x) = some req →
    req.tag ≠ x.2.reqTag

theorem Exact.dead {s : Tracked} (he : Exact s) : Dead s.onClosed where
  free := rfl
  silent := by
    intro i req' hreq'
    rw [show s.onClosed.tunnel.requests.slot i = s.tunnel.requests.clearAll.slot i from rfl,
      Reqq.clearAll_slot, Option.map_eq_some_iff] at hreq'
    obtain ⟨req, _, rfl⟩ := hreq'
    rfl
  stale := by
    intro x hx req' hreq' htag
    rw [show s.onClosed.tunnel.requests.slot (slotOf x) = s.tunnel.requests.clearAll.slot (slotOf x)
      from rfl, Reqq.clearAll_slot, Option.map_eq_some_iff] at hreq'
    obtain ⟨req, hreq, rfl⟩ := hreq'
    have hold := he.tag _ req hreq
    have holder := he.older x hx
    have hfew := he.few (slotOf x)
    have hcount : (s.ledger.live.map slotOf).count (slotOf x) ≤ 1 :=
      List.nodup_iff_count_le_one.mp he.sound.safe.heldOnce _
    rw [← htag, Reqq.cleanReq, UInt16.toNat_add, UInt16.toNat_one] at holder
    omega

/-- A closed tunnel stays closed: it gives out no slot and delivers nothing. -/
theorem Dead.step {s t : Tracked} {e : Event} (h : Dead s) (hecho : Echo s e)
    (hstep : Step s e t) :
    Dead t ∧ t.ledger.issued = s.ledger.issued ∧ t.ledger.delivered = s.ledger.delivered := by
  cases hstep with
  | create ip port =>
      have htop : ∀ i rest, s.tunnel.requests.freeList = i :: rest → i < 65535 := by
        intro i rest hfree
        rw [h.free] at hfree
        cases hfree
      rcases create_cases s ip port htop with ⟨_, hsame⟩ | ⟨i, req, ts, _, hnew⟩
      · rw [hsame]
        exact ⟨⟨h.free, h.silent, h.stale⟩, rfl, rfl⟩
      · have hfree := hnew.top
        rw [h.free] at hfree
        cases hfree
  | @close ts hissued =>
      obtain ⟨id, hid⟩ := hissued
      rcases close_cases s ts with ⟨req, htag, hr, _, _⟩ | hsame
      · exact absurd htag (h.stale _ hid req hr.slot)
      · rw [hsame]
        exact ⟨h, rfl, rfl⟩
  | @frame _ msg elapsed hframe =>
      obtain ⟨cmd, th, hmsg, _, x, hx, hxth⟩ := hecho
      rcases frame_cases hframe with ⟨th', req, hclosed, htag, hr, _, _⟩ | ⟨hq, hdelivered⟩
      · rw [hmsg] at hclosed
        cases hclosed
        subst hxth
        exact absurd htag (h.stale x hx req hr.slot)
      · refine ⟨⟨hq.freeList.trans h.free, ?_, ?_⟩, hq.issued, ?_⟩
        · intro i req' hreq'
          obtain ⟨req, hreq, _, hsame | hnone⟩ := hq.slot i req' hreq'
          · rw [hsame]
            exact h.silent i req hreq
          · exact hnone
        · intro y hy req' hreq'
          obtain ⟨req, hreq, htag, _⟩ := hq.slot _ req' hreq'
          rw [htag]
          exact h.stale y (hq.issued ▸ hy) req hreq
        · rcases hdelivered with hsame | ⟨th', c, _, hget, _⟩
          · exact hsame
          · -- a slot without a channel delivers nothing
            unfold Tunnel.getRequestTx at hget
            split at hget
            · cases hget
            · rename_i req hslot
              rw [h.silent _ req hslot] at hget
              split at hget <;> cases hget

theorem Dead.run {s t : Tracked} {es : List Event} (h : Dead s)
    (hrun : Run (Guarded Echo Step) s es t) :
    Dead t ∧ t.ledger.issued = s.ledger.issued ∧ t.ledger.delivered = s.ledger.delivered := by
  induction hrun with
  | nil _ => exact ⟨h, rfl, rfl⟩
  | cons hfirst _ ih =>
      obtain ⟨hmid, hissued, hdelivered⟩ := h.step hfirst.1 hfirst.2
      obtain ⟨hend, hissued', hdelivered'⟩ := ih hmid
      exact ⟨hend, hissued'.trans hissued, hdelivered'.trans hdelivered⟩

/-- Against a server that only echoes the handles it was given, in any order and
any number of times, the requests of a tunnel keep their slots and their data
apart; and once the connection is gone, no request is created and no payload
delivered. -/
theorem echo_of_run {tx : Channel} {rawfd : Int} {idx cap : Nat} {requestQuota : UInt16}
    {es : List Event} {s : Tracked} (hcap : cap ≤ 65534)
    (hrun : Run (Guarded Echo Step) (new tx rawfd idx cap requestQuota) es s) :
    EchoLaw s ∧ ∀ fs t, Run (Guarded Echo Step) s.onClosed fs t →
      (∀ req ip port, (t.tunnel.onRequestCreated req ip port).2.1 = none) ∧
        t.ledger.issued = s.ledger.issued ∧ t.ledger.delivered = s.ledger.delivered := by
  have hkeep : ∀ s e t, Exact s ∧ History s → Guarded Echo Step s e t → Exact t ∧ History t :=
    fun _ _ _ hinv hstep => hinv.1.step hinv.2 hstep.1 hstep.2
  obtain ⟨he, h⟩ := hrun.preserves hkeep
    ⟨exact_new hcap tx rawfd idx requestQuota, history_new tx rawfd idx cap requestQuota⟩
  refine ⟨he.law h, ?_⟩
  intro fs t hafter
  obtain ⟨hdead, hissued, hdelivered⟩ := he.dead.run hafter
  refine ⟨?_, hissued, hdelivered⟩
  intro req ip port
  rw [Tunnel.onRequestCreated_nil hdead.free]

/-- A request, a payload for it, and its end. -/
theorem echo_of_run_one :
    ∃ s, Run (Guarded Echo Step) (new 7 3 0 2 10)
        [.create (.v4 ⟨10, 0, 0, 1⟩) 80,
          .frame ⟨Tunnels.frame .reqData (THeader.toBytes ⟨0, 1⟩ ++ [5]), 8, none⟩ 0,
          .close ⟨7, 0, 0, 1, 10⟩] s ∧ EchoLaw s := by
  obtain ⟨s, hrun⟩ : ∃ s, Run (Guarded Echo Step) (new 7 3 0 2 10)
      [.create (.v4 ⟨10, 0, 0, 1⟩) 80,
        .frame ⟨Tunnels.frame .reqData (THeader.toBytes ⟨0, 1⟩ ++ [5]), 8, none⟩ 0,
        .close ⟨7, 0, 0, 1, 10⟩] s := by
    refine ⟨_, .cons ⟨?_, .create _ _ _⟩
      (.cons ⟨?_, .frame rfl⟩ (.cons ⟨trivial, .close ⟨0, ?_⟩⟩ (.nil _)))⟩
    · intro i rest _
      show 0 + 1 < 32768
      omega
    · exact ⟨.reqData, ⟨0, 1⟩, rfl, Or.inl rfl, _, List.mem_cons_self, rfl⟩
    · exact List.mem_cons_self
  exact ⟨s, hrun, (echo_of_run (by decide) hrun).1⟩

end Tracked

end LproxyCv.Tunnels
