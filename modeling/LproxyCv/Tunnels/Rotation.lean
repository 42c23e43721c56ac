import LproxyCv.Foundation.RoundRobin
import LproxyCv.Tunnels.Quota
import LproxyCv.Tunnels.Stubs

set_option autoImplicit false

/-!
# Tunnels: which tunnel takes a request

The manager takes its tunnels in turn, from a cursor on, and passes over those that are missing
or full.  The cursor is kept in sixteen bits: it is where it belongs as long as the order has no
more places than that, and then no tunnel is passed over for good (`rotates_iff`).
-/

namespace LproxyCv.Tunnels

open LproxyCv.Foundation LproxyCv.Lws LproxyCv.Net

/-! ## A tunnel with room -/

namespace Tunnel

/-- The tunnel has room for another request. -/
def HasRoom (t : Tunnel) : Prop := t.reqCount.toNat + 1 < t.capacity.toNat

instance (t : Tunnel) : Decidable t.HasRoom := inferInstanceAs (Decidable (_ < _))

/-- The table has `cap` slots, the counter counts those that a request holds, and the others can
be handed out. -/
structure Counted (t : Tunnel) (cap : Nat) : Prop where
  length : t.requests.elements.length = cap
  capacity : t.capacity = UInt16.ofNat cap
  count : t.reqCount.toNat = t.requests.elements.countP fun req => req.trigger.isSome
  free : ∀ i req, t.requests.slot i = some req → req.trigger = none → i ∈ t.requests.freeList

theorem hasRoom_of_lt {t : Tunnel} (h : t.reqCount + 1 < t.capacity) (hmax : t.reqCount ≠ 65535) :
    t.HasRoom := by
  have hne : t.reqCount.toNat ≠ 65535 := fun heq => hmax (UInt16.toNat_inj.mp heq)
  have hbound := t.reqCount.toNat_lt
  have hlt := UInt16.lt_iff_toNat_lt.mp h
  rw [UInt16.toNat_add, UInt16.toNat_one, Nat.mod_eq_of_lt (by omega)] at hlt
  exact hlt

theorem HasRoom.lt {t : Tunnel} (h : t.HasRoom) : t.reqCount + 1 < t.capacity := by
  have hbound := t.capacity.toNat_lt
  unfold HasRoom at h
  rw [UInt16.lt_iff_toNat_lt, UInt16.toNat_add, UInt16.toNat_one, Nat.mod_eq_of_lt (by omega)]
  exact h

/-- A tunnel just connected counts its slots. -/
theorem counted_new (tx : Channel) (rawfd : Int) (idx cap : Nat) (requestQuota : UInt16) :
    (new tx rawfd idx cap requestQuota).Counted cap where
  length := Reqq.new_length cap
  capacity := rfl
  count := by
    refine (List.countP_eq_zero.mpr ?_).symm
    intro req hreq
    obtain ⟨i, hi⟩ := List.mem_iff_getElem?.mp hreq
    obtain ⟨_, rfl⟩ := Reqq.new_slot hi
    exact Bool.false_ne_true
  free := by
    intro i req hslot _
    exact List.mem_range.mpr (Reqq.new_slot hslot).1

variable {t : Tunnel} {cap : Nat}

theorem Counted.reqCount_ne (h : t.Counted cap) (hcap : cap ≤ 65534) : t.reqCount ≠ 65535 := by
  intro heq
  have hle := List.countP_le_length (p := fun req : Request => req.trigger.isSome)
    (l := t.requests.elements)
  rw [← h.count, h.length, heq] at hle
  have hmax : (65535 : UInt16).toNat = 65535 := rfl
  omega

/-- A tunnel that has room for a request takes it. -/
theorem Counted.succeeds (h : t.Counted cap) (hcap : cap ≤ 65534) (hroom : t.HasRoom)
    (req : Request) (ip : IpAddr) (port : UInt16) :
    (t.onRequestCreated req ip port).2.1.isSome := by
  -- not all slots are held, so one can be handed out
  have hfree : ∃ i, i ∈ t.requests.freeList := by
    have hbits : t.capacity.toNat = cap := by
      rw [h.capacity, UInt16.toNat_ofNat']
      omega
    unfold HasRoom at hroom
    rw [h.count, hbits, ← h.length] at hroom
    have hnot : ¬ ∀ req ∈ t.requests.elements, req.trigger.isSome = true := by
      intro hall
      rw [List.countP_eq_length.mpr hall] at hroom
      omega
    push Not at hnot
    obtain ⟨req, hmem, hnone⟩ := hnot
    obtain ⟨i, hi⟩ := List.mem_iff_getElem?.mp hmem
    exact ⟨i, h.free i req hi (Option.not_isSome_iff_eq_none.mp hnone)⟩
  cases hlist : t.requests.freeList with
  | nil =>
      rw [hlist] at hfree
      obtain ⟨i, hi⟩ := hfree
      cases hi
  | cons i rest =>
      have hlt := t.requests.freeList_lt i (by rw [hlist]; exact List.mem_cons_self)
      rw [h.length] at hlt
      obtain ⟨_, ts, _, hstub, _⟩ := onRequestCreated_cons hlist (by omega) req ip port
      rw [hstub]
      rfl

end Tunnel

namespace TunMgr

/-- The tunnel with an index is there, and has room for another request. -/
def HasRoom (m : TunMgr) (i : UInt16) : Prop := ∃ tun, m.getTunnel i.toNat = some tun ∧ tun.HasRoom

/-- The tunnel at a position of the order is there, and has room for another request. -/
def RoomAt (m : TunMgr) (n : Nat) : Prop := ∃ i, m.sortedTunIndies[n]? = some i ∧ m.HasRoom i

/-- The tunnels have as many slots as is configured, which is few enough, and count them. -/
def Counted (m : TunMgr) : Prop :=
  m.tunnelReqCap ≤ 65534 ∧ ∀ index tun, m.getTunnel index = some tun → tun.Counted m.tunnelReqCap

/-! ## One choice -/

/-- What is chosen is the first tunnel in turn that has room; the cursor moves behind it and stays
in range; the tunnel takes the request; and none is chosen only if none has room. -/
structure Chooses (m : TunMgr) : Prop where
  some : ∀ index tun m', m.allocTunnelForReq = some (index, tun, m') →
    ∃ n i, Picks m.RoomAt m.sortedTunIndies.length m.currentTunIdx.toNat n ∧
      m.sortedTunIndies[n]? = some i ∧ index = i.toNat ∧ m.getTunnel index = some tun ∧
      m'.currentTunIdx.toNat = (n + 1) % m.sortedTunIndies.length ∧
      m'.currentTunIdx.toNat < m.sortedTunIndies.length ∧
      ∀ req ip port, (tun.onRequestCreated req ip port).2.1.isSome
  none : m.allocTunnelForReq = none ↔ ∀ n < m.sortedTunIndies.length, ¬ m.RoomAt n

variable {m : TunMgr}

theorem eligible_eq_some {n : Nat} {r : Nat × Nat × Tunnel} :
    m.eligible n = some r ↔ ∃ i, m.sortedTunIndies[n]? = some i ∧
      m.getTunnel i.toNat = some r.2.2 ∧ r.2.2.reqCount + 1 < r.2.2.capacity ∧
      r.1 = n ∧ r.2.1 = i.toNat := by
  obtain ⟨n', index, tun⟩ := r
  unfold eligible
  cases m.sortedTunIndies[n]? with
  | none => simp
  | some i =>
      simp only [Option.some.injEq, exists_eq_left']
      cases htun : m.getTunnel i.toNat with
      | none => simp
      | some tun' =>
          dsimp only
          split
          · rename_i hfull
            refine iff_of_false nofun ?_
            rintro ⟨heq, hlt, _⟩
            cases heq
            exact absurd hlt (UInt16.not_lt.mpr hfull)
          · rename_i hfree
            constructor
            · intro heq
              cases heq
              exact ⟨rfl, UInt16.not_le.mp hfree, rfl, rfl⟩
            · rintro ⟨heq, _, hn, hindex⟩
              cases heq
              rw [hn, hindex]

/-- Every tunnel that has room can be chosen. -/
theorem eligible_of_roomAt {n : Nat} (h : m.RoomAt n) : m.eligible n ≠ none := by
  obtain ⟨i, hi, tun, htun, hroom⟩ := h
  have hsome : m.eligible n = some (n, i.toNat, tun) :=
    eligible_eq_some.mpr ⟨i, hi, htun, hroom.lt, rfl, rfl⟩
  rw [hsome]
  exact Option.some_ne_none (n, i.toNat, tun)

/-- While the counters are right, only those can. -/
theorem eligible_eq_none (h : m.Counted) (n : Nat) : m.eligible n = none ↔ ¬ m.RoomAt n := by
  constructor
  · intro hnone hroom
    exact eligible_of_roomAt hroom hnone
  · intro hnot
    rw [Option.eq_none_iff_forall_ne_some]
    intro r hr
    obtain ⟨i, hi, htun, hlt, _⟩ := eligible_eq_some.mp hr
    have hmax := (h.2 _ _ htun).reqCount_ne h.1
    exact hnot ⟨i, hi, r.2.2, htun, Tunnel.hasRoom_of_lt hlt hmax⟩

theorem allocTunnelForReq_eq_none :
    m.allocTunnelForReq = none ↔ ∀ n < m.sortedTunIndies.length, m.eligible n = none := by
  rw [← scan_none m.current_le]
  unfold allocTunnelForReq
  split
  · rename_i hnone
    exact iff_of_true rfl hnone
  · rename_i hsome
    refine iff_of_false nofun ?_
    intro hnone
    cases hsome.symm.trans hnone

/-- The tunnel that is chosen is the first in turn that can be, and the cursor is moved behind
it, in sixteen bits. -/
theorem allocTunnelForReq_eq_some {index : Nat} {tun : Tunnel} {m' : TunMgr}
    (h : m.allocTunnelForReq = some (index, tun, m')) :
    ∃ n i, Picks (fun n => m.eligible n ≠ none) m.sortedTunIndies.length m.currentTunIdx.toNat n ∧
      m.sortedTunIndies[n]? = some i ∧ index = i.toNat ∧ m.getTunnel index = some tun ∧
      tun.reqCount + 1 < tun.capacity ∧ m'.sortedTunIndies = m.sortedTunIndies ∧
      m'.currentTunIdx = UInt16.ofNat ((n + 1) % m.sortedTunIndies.length) := by
  unfold allocTunnelForReq at h
  split at h
  · cases h
  · rename_i n index' tun' hfind
    cases h
    obtain ⟨k, hk, hfound, hfront⟩ := (scan_some m.current_le).mp hfind
    obtain ⟨i, hi, htun, hlt, hn, rfl⟩ := eligible_eq_some.mp hfound
    dsimp only at hn
    subst hn
    refine ⟨_, i, ⟨k, hk, rfl, by simp [hfound], ?_⟩, hi, rfl, htun, hlt, rfl, rfl⟩
    intro j hj hnot
    exact hnot (hfront j hj)

/-- With no more places than sixteen bits can tell, the choice is right. -/
theorem chooses_of_le (h : m.Counted) (hfew : m.sortedTunIndies.length ≤ 2 ^ 16) :
    m.Chooses where
  some index tun m' halloc := by
    obtain ⟨n, i, hpick, hi, hindex, htun, hlt, _, hcursor⟩ := allocTunnelForReq_eq_some halloc
    have hroom := Tunnel.hasRoom_of_lt hlt ((h.2 _ _ htun).reqCount_ne h.1)
    have hpos : (n + 1) % m.sortedTunIndies.length < m.sortedTunIndies.length :=
      Nat.mod_lt _ (Nat.zero_lt_of_lt (List.getElem?_eq_some_iff.mp hi).1)
    have hvalue : m'.currentTunIdx.toNat = (n + 1) % m.sortedTunIndies.length := by
      rw [hcursor, UInt16.toNat_ofNat', Nat.mod_eq_of_lt (by omega)]
    refine ⟨n, i, ?_, hi, hindex, htun, hvalue, hvalue ▸ hpos, (h.2 _ _ htun).succeeds h.1 hroom⟩
    simpa only [ne_eq, eligible_eq_none h, not_not] using hpick
  none := by
    rw [allocTunnelForReq_eq_none]
    simp only [eligible_eq_none h]

/-! ## Many choices -/

/-- The place that a request would be given. -/
def chosen (m : TunMgr) : Option Nat :=
  if m.discarded then none else m.allocTunnelForReq.map Prod.fst

/-- What happens to a manager between two keepalive ticks. -/
inductive MgrCall where
  /-- a request, with the place that it was given -/
  | request (req : Request) (ip : IpAddr) (port : UInt16) (index : Option Nat)
  | connected (tun : Tunnel)
  | failed (index : Nat)
  | closed (index : Nat)
  | input (x : MgrInput)
  | updateTuncfg (cfg : TunCfg)

/-- The place that was chosen. -/
def MgrCall.chosen : MgrCall → Option Nat
  | .request _ _ _ index => index
  | _ => none

/-- The calls of a manager, but for the ticks, which sort the tunnels again. -/
inductive Calls (parses : String → Bool) (sorter : Sorter) : TunMgr → MgrCall → TunMgr → Prop where
  | request (m : TunMgr) (req : Request) (ip : IpAddr) (port : UInt16) :
      Calls parses sorter m (.request req ip port m.chosen) (m.onRequestCreated req ip port).1
  | connected {m : TunMgr} {tun : Tunnel} {r : Bool × TunMgr} :
      m.onTunnelCreated tun = some r → Calls parses sorter m (.connected tun) r.2
  | failed (m : TunMgr) (index : Nat) :
      Calls parses sorter m (.failed index) (m.onTunnelBuildError index)
  | closed {m : TunMgr} {index : Nat} {r : TunMgr × Option Tunnel} :
      m.onTunnelClosed index = some r → Calls parses sorter m (.closed index) r.1
  | input {m : TunMgr} {x : MgrInput} {r : TunMgr × List ConnectTask} :
      ¬ IsTick x → (∀ req ip port, x ≠ .requestCreated req ip port) →
      m.handle parses sorter x = some r → Calls parses sorter m (.input x) r.1
  | updateTuncfg (m : TunMgr) (cfg : TunCfg) :
      Calls parses sorter m (.updateTuncfg cfg) (m.updateTuncfg cfg)

/-- The order and the cursor are what they were. -/
structure SameTurn (m m' : TunMgr) : Prop where
  order : m'.sortedTunIndies = m.sortedTunIndies
  cursor : m'.currentTunIdx = m.currentTunIdx

theorem sameTurn_handle {parses : String → Bool} {sorter : Sorter} {x : MgrInput}
    {r : TunMgr × List ConnectTask} (htick : ¬ IsTick x)
    (hreq : ∀ req ip port, x ≠ .requestCreated req ip port)
    (h : m.handle parses sorter x = some r) : SameTurn m r.1 := by
  cases x with
  | keepalive elapsed sent => exact absurd trivial htick
  | stop =>
      cases h
      unfold stop
      split
      · exact ⟨rfl, rfl⟩
      · exact ⟨rfl, rfl⟩
  | requestCreated req ip port => exact absurd rfl (hreq req ip port)
  | requestClosed tunstub =>
      simp only [handle, onRequestClosed, Option.map_eq_some_iff] at h
      obtain ⟨r', hr', rfl⟩ := h
      split at hr'
      · cases hr'
      · cases hr'
        exact ⟨rfl, rfl⟩
      · cases hr'
        exact ⟨rfl, rfl⟩
  | tunnelMsg index msg elapsed =>
      simp only [handle, onTunnelMsg, Option.map_eq_some_iff, Option.bind_eq_bind,
        Option.bind_eq_some_iff, Option.some.injEq] at h
      obtain ⟨r', ⟨t, _, ⟨t', effects⟩, _, rfl⟩, rfl⟩ := h
      exact ⟨rfl, rfl⟩
  | logAccess peerAddr targetIp =>
      cases h
      exact ⟨rfl, rfl⟩
  | udpProxyNorth msg srcAddr dstAddr hashCode =>
      simp only [handle, udpProxyNorth, Option.map_eq_some_iff] at h
      obtain ⟨r', hr', rfl⟩ := h
      split at hr'
      · cases hr'
      · split at hr'
        · cases hr'
          exact ⟨rfl, rfl⟩
        · cases hr'
          exact ⟨rfl, rfl⟩
  | setUdpxTx tx =>
      cases h
      exact ⟨rfl, rfl⟩

/-- A call that chooses no tunnel leaves the turn as it is. -/
theorem sameTurn_of_calls {parses : String → Bool} {sorter : Sorter} {m' : TunMgr} {e : MgrCall}
    (h : Calls parses sorter m e m') (hnone : e.chosen = none) : SameTurn m m' := by
  cases h with
  | request req ip port =>
      have hchosen : m.chosen = none := hnone
      unfold chosen at hchosen
      unfold onRequestCreated
      split
      · exact ⟨rfl, rfl⟩
      · rename_i hrun
        rw [if_neg hrun, Option.map_eq_none_iff] at hchosen
        rw [hchosen]
        exact ⟨rfl, rfl⟩
  | connected hcall =>
      rcases onTunnelCreated_cases hcall with rfl | ⟨udpxTx, rfl⟩
      · exact ⟨rfl, rfl⟩
      · exact ⟨rfl, rfl⟩
  | failed index =>
      unfold onTunnelBuildError
      split
      · exact ⟨rfl, rfl⟩
      · exact ⟨rfl, rfl⟩
  | closed hcall =>
      unfold onTunnelClosed at hcall
      split at hcall
      · cases hcall
      · cases hcall
        exact ⟨rfl, rfl⟩
      · cases hcall
        dsimp only
        split
        · exact ⟨rfl, rfl⟩
        · exact ⟨rfl, rfl⟩
  | input htick hreq hcall => exact sameTurn_handle htick hreq hcall
  | updateTuncfg cfg => exact ⟨rfl, rfl⟩

/-- A call that chooses one moves the cursor behind it. -/
theorem turn_of_chosen {parses : String → Bool} {sorter : Sorter} {m' : TunMgr} {e : MgrCall}
    {index : Nat} (h : Calls parses sorter m e m') (hsome : e.chosen = some index) :
    ∃ n i, Picks (fun n => m.eligible n ≠ none) m.sortedTunIndies.length m.currentTunIdx.toNat n ∧
      m.sortedTunIndies[n]? = some i ∧ index = i.toNat ∧
      m'.sortedTunIndies = m.sortedTunIndies ∧
      m'.currentTunIdx = UInt16.ofNat ((n + 1) % m.sortedTunIndies.length) := by
  cases h with
  | request req ip port =>
      have hchosen : m.chosen = some index := hsome
      unfold chosen at hchosen
      split at hchosen
      · cases hchosen
      · rename_i hrun
        rw [Option.map_eq_some_iff] at hchosen
        obtain ⟨⟨index', tun, m₁⟩, halloc, rfl⟩ := hchosen
        obtain ⟨n, i, hpick, hi, hindex, _, _, horder, hcursor⟩ :=
          allocTunnelForReq_eq_some halloc
        unfold onRequestCreated
        rw [if_neg hrun, halloc]
        exact ⟨n, i, hpick, hi, hindex, horder, hcursor⟩
  | _ => cases hsome

/-- In every run in which a tunnel of the order always has room, it is chosen, if as many are as
the order has places. -/
def Serves (parses : String → Bool) (sorter : Sorter) (m : TunMgr) : Prop :=
  ∀ i ∈ m.sortedTunIndies, ∀ es m',
    Run (Guarded (fun s _ => s.HasRoom i) (Calls parses sorter)) m es m' →
    m.sortedTunIndies.length ≤ es.countP (fun e => e.chosen.isSome) →
    ∃ e ∈ es, e.chosen = some i.toNat

/-- The cursor is `d` places in front of the position `p` of an order. -/
def Behind (order : List UInt16) (p : Nat) (m : TunMgr) (d : Nat) : Prop :=
  m.sortedTunIndies = order ∧ (m.currentTunIdx.toNat + d) % order.length = p

/-- With no more places than sixteen bits can tell, no tunnel is passed over for good. -/
theorem serves_of_le (parses : String → Bool) (sorter : Sorter)
    (hfew : m.sortedTunIndies.length ≤ 2 ^ 16) : m.Serves parses sorter := by
  intro i hi es m' hrun hmany
  by_contra hnever
  push Not at hnever
  obtain ⟨p, hp⟩ := List.mem_iff_getElem?.mp hi
  have hlt := (List.getElem?_eq_some_iff.mp hp).1
  obtain ⟨d, hd, hbehind⟩ := exists_behind m.current_le hlt
  have hstart : Behind m.sortedTunIndies p m d := ⟨rfl, hbehind⟩
  have hle : es.countP (fun e => e.chosen.isSome) ≤ d := by
    refine (hrun.restrict hnever).countP_le ?_ hstart
    rintro s e t d ⟨horder, hd⟩ ⟨⟨hroom, hcall⟩, hne⟩
    cases hchosen : e.chosen with
    | none =>
        have hsame := sameTurn_of_calls hcall hchosen
        exact ⟨hsame.order.trans horder, hsame.cursor ▸ hd⟩
    | some index =>
        obtain ⟨n, j, hpick, hj, rfl, horder', hcursor⟩ := turn_of_chosen hcall hchosen
        have hnp : n ≠ p := by
          rintro rfl
          rw [horder, hp] at hj
          cases hj
          exact hne hchosen
        have hcan : s.eligible p ≠ none := eligible_of_roomAt ⟨i, by rw [horder, hp], hroom⟩
        rw [horder] at hpick hcursor
        obtain ⟨d', hd', hbehind'⟩ := hpick.closer hcan hd hnp
        have hvalue : t.currentTunIdx.toNat = (n + 1) % m.sortedTunIndies.length := by
          have hbound : (n + 1) % m.sortedTunIndies.length < m.sortedTunIndies.length :=
            Nat.mod_lt _ (by omega)
          rw [hcursor, UInt16.toNat_ofNat', Nat.mod_eq_of_lt (by omega)]
        refine ⟨d', hd', horder'.trans horder, ?_⟩
        rw [hvalue]
        exact hbehind'
  omega

/-- The choice is right, and no tunnel is passed over for good. -/
structure Rotates (parses : String → Bool) (sorter : Sorter) (m : TunMgr) : Prop where
  chooses : m.Chooses
  serves : m.Serves parses sorter

/-- A manager of `n` places, of which the last that sixteen bits can tell is next. -/
def beyond (n : Nat) (h : 2 ^ 16 < n) : TunMgr :=
  { (new n (quotaCfg 100)).setTunnel 65535 (some (Tunnel.new 0 3 65535 4 100)) with
    currentTunIdx := 65535
    current_le := by
      have hlength : (new n (quotaCfg 100)).sortedTunIndies.length = n := by simp [new]
      exact Nat.le_trans (show 65535 ≤ n by omega) (Nat.le_of_eq hlength.symm) }

section Beyond

variable {n : Nat} (h : 2 ^ 16 < n)

theorem beyond_length : (beyond n h).sortedTunIndies.length = n := by simp [beyond, setTunnel,
  withTunnels, new]

theorem beyond_getTunnel (i : Nat) : (beyond n h).getTunnel i =
    if i = 65535 then some (Tunnel.new 0 3 65535 4 100) else none := by
  have hset := getTunnel_setTunnel (new n (quotaCfg 100)) 65535 i
    (some (Tunnel.new 0 3 65535 4 100))
  have hlength : (new n (quotaCfg 100)).tunnels.length = n := List.length_replicate
  refine hset.trans ?_
  rw [getTunnel_new, hlength]
  by_cases hi : i = 65535
  · subst hi
    rw [if_pos rfl, if_pos rfl, if_pos (by omega)]
  · rw [if_neg hi, if_neg (Ne.symm hi)]

theorem beyond_counted : (beyond n h).Counted := by
  refine ⟨show 4 ≤ 65534 by omega, ?_⟩
  intro index tun htun
  rw [beyond_getTunnel] at htun
  split at htun
  · cases htun
    exact Tunnel.counted_new 0 3 65535 4 100
  · cases htun

theorem beyond_roomAt : (beyond n h).RoomAt 65535 := by
  have hplace : (beyond n h).sortedTunIndies[65535]? = some 65535 := by
    have hrange : (List.range n)[65535]? = some 65535 := List.getElem?_range (by omega)
    have hmap := congrArg (Option.map UInt16.ofNat) hrange
    rw [← List.getElem?_map] at hmap
    exact hmap
  have hindex : (65535 : UInt16).toNat = 65535 := rfl
  refine ⟨65535, hplace, Tunnel.new 0 3 65535 4 100, ?_, by decide⟩
  rw [hindex, beyond_getTunnel, if_pos rfl]

/-- Its cursor does not get behind the tunnel that is next. -/
theorem beyond_not_chooses : ¬ (beyond n h).Chooses := by
  intro hchooses
  have hlength := beyond_length h
  have hroom := beyond_roomAt h
  cases halloc : (beyond n h).allocTunnelForReq with
  | none => exact hchooses.none.mp halloc 65535 (by omega) hroom
  | some r =>
      obtain ⟨p, i, hpick, _, _, _, hcursor, _⟩ := hchooses.some r.1 r.2.1 r.2.2 halloc
      obtain ⟨k, _, hp, _, hfront⟩ := hpick
      rw [hlength] at hp hcursor hfront
      -- the tunnel at the cursor has room, so it is the one that is chosen
      have hfirst : (65535 + 0) % n = 65535 := Nat.mod_eq_of_lt (by omega)
      have hzero : k = 0 := by
        by_contra hne
        refine hfront 0 (by omega) ?_
        rw [show (beyond n h).currentTunIdx.toNat = 65535 from rfl, hfirst]
        exact hroom
      subst hzero
      rw [show (beyond n h).currentTunIdx.toNat = 65535 from rfl, hfirst] at hp
      subst hp
      rw [Nat.mod_eq_of_lt (by omega)] at hcursor
      have hbits := r.2.2.currentTunIdx.toNat_lt
      omega

end Beyond

/-- The choice of a manager whose counters are right is right, and no tunnel is passed over for
good, whatever its tunnels are, exactly when its order has at most 65536 places. -/
theorem rotates_iff (parses : String → Bool) (sorter : Sorter) (n : Nat) :
    (∀ m : TunMgr, m.Counted → m.sortedTunIndies.length = n → m.Rotates parses sorter) ↔
      n ≤ 2 ^ 16 := by
  constructor
  · intro hall
    by_contra hmany
    have hn : 2 ^ 16 < n := by omega
    exact beyond_not_chooses hn (hall _ (beyond_counted hn) (beyond_length hn)).chooses
  · rintro hfew m hcounted rfl
    exact ⟨chooses_of_le hcounted hfew, serves_of_le parses sorter hfew⟩

/-- With one place more, the cursor does not get behind the last but one. -/
theorem cursor_not_behind :
    ∃ m : TunMgr, m.Counted ∧ m.sortedTunIndies.length = 65537 ∧ m.currentTunIdx = 65535 ∧
      m.RoomAt 65535 ∧ ¬ m.Chooses := by
  have hn : 2 ^ 16 < 65537 := by decide
  exact ⟨beyond 65537 hn, beyond_counted hn, beyond_length hn, rfl, beyond_roomAt hn,
    beyond_not_chooses hn⟩

end TunMgr

end LproxyCv.Tunnels
