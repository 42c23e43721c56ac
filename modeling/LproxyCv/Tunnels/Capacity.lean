import LproxyCv.Tunnels.Rotation

set_option autoImplicit false

/-!
# Tunnels: which requests are refused

A tunnel is passed over when one more request would make its counter reach its capacity, so
its last slot is never held.  Its capacity is the configured one in sixteen bits, while its table
has all the slots.  `conserves_work_iff` says in which reachable states a request is refused only
when all slots are held.

A tunnel that can be chosen has a slot to hand out, whatever the server does
(`Stocked.created`), unless the server closes the slot 65535, whose index stands for a failed
allocation.
-/

namespace LproxyCv.Tunnels

open LproxyCv.Foundation LproxyCv.Lws LproxyCv.Net

/-! ## The slots of a tunnel -/

namespace Tunnel

/-- The tunnel can be chosen for a request. -/
def Offers (t : Tunnel) : Prop := t.reqCount + 1 < t.capacity

/-- Requests hold `cap` slots of the tunnel. -/
def Holds (t : Tunnel) (cap : Nat) : Prop :=
  t.requests.elements.countP (fun req => req.trigger.isSome) = cap

/-- Of the `cap` slots of the tunnel, those that can be handed out are as many as the counter
leaves, but for multiples of 65536, and fewer than the capacity are missing: those that came
back, and those from `next` on. -/
structure Stocked (t : Tunnel) (cap : Nat) : Prop where
  length : t.requests.elements.length = cap
  capacity : t.capacity = UInt16.ofNat cap
  balance : (t.requests.freeList.length + t.reqCount.toNat) % 2 ^ 16 = cap % 2 ^ 16
  enough : cap ≤ t.requests.freeList.length + (t.capacity.toNat - 1)
  stack : ∃ returned next, t.requests.freeList = returned ++ List.range' next (cap - next) ∧
    next ≤ t.capacity.toNat - 1 ∧ ∀ i ∈ returned, i < 65535

theorem stocked_new (tx : Channel) (rawfd : Int) (idx cap : Nat) (requestQuota : UInt16) :
    (new tx rawfd idx cap requestQuota).Stocked cap where
  length := Reqq.new_length cap
  capacity := rfl
  balance := by
    show ((List.range cap).length + 0) % 2 ^ 16 = cap % 2 ^ 16
    rw [List.length_range, Nat.add_zero]
  enough := by
    show cap ≤ (List.range cap).length + _
    rw [List.length_range]
    exact Nat.le_add_right _ _
  stack := ⟨[], 0, List.range_eq_range', Nat.zero_le _, by simp⟩

section Steps

variable {t t' : Tunnel} {cap : Nat}

theorem Stocked.capacity_toNat (h : t.Stocked cap) : t.capacity.toNat = cap % 2 ^ 16 := by
  rw [h.capacity, UInt16.toNat_ofNat']

/-- A step that changes neither the free slots nor the counter keeps the stock. -/
theorem Stocked.of_same (h : t.Stocked cap)
    (hlength : t'.requests.elements.length = t.requests.elements.length)
    (hfree : t'.requests.freeList = t.requests.freeList) (hcount : t'.reqCount = t.reqCount)
    (hcapacity : t'.capacity = t.capacity) : t'.Stocked cap where
  length := hlength.trans h.length
  capacity := hcapacity.trans h.capacity
  balance := by
    rw [hfree, hcount]
    exact h.balance
  enough := by
    rw [hfree, hcapacity]
    exact h.enough
  stack := by
    rw [hfree, hcapacity]
    exact h.stack

theorem Stocked.of_alike (h : t.Stocked cap) (halike : t.Alike t') : t'.Stocked cap :=
  h.of_same (by rw [halike.requests]) (by rw [halike.requests]) halike.reqCount halike.capacity

/-- Taking a slot back keeps the stock, if its index is that of a slot. -/
theorem Stocked.release (h : t.Stocked cap) {reqIdx : UInt16} (reqTag : UInt16)
    (hidx : reqIdx = 65535 → cap ≤ 65535) : (t.release reqIdx reqTag).2.Stocked cap := by
  rcases t.release_cases reqIdx reqTag with
    ⟨req, hslot, _, _, _, hfree, helems, hcount⟩ | ⟨_, hsame, _⟩
  · have hlt : reqIdx.toNat < 65535 := by
      by_contra hmax
      have hbound := reqIdx.toNat_lt
      have heq : reqIdx = 65535 := by
        apply UInt16.toNat_inj.mp
        rw [show (65535 : UInt16).toNat = 65535 from rfl]
        omega
      have hslots := Reqq.slot_lt hslot
      have hfew := hidx heq
      rw [h.length] at hslots
      omega
    have hbalance := h.balance
    have henough := h.enough
    have hcountBound := t.reqCount.toNat_lt
    have hone : (t.reqCount - 1).toNat = (2 ^ 16 - 1 + t.reqCount.toNat) % 2 ^ 16 := by
      rw [UInt16.toNat_sub]
      rfl
    refine ⟨?_, h.capacity, ?_, ?_, ?_⟩
    · rw [helems, List.length_set, h.length]
    · rw [hfree, hcount, List.length_cons, hone]
      omega
    · rw [hfree, List.length_cons]
      exact Nat.le_trans henough (by show _ ≤ _ + 1 + (t.capacity.toNat - 1); omega)
    · obtain ⟨returned, next, hstack, hnext, hreturned⟩ := h.stack
      refine ⟨reqIdx.toNat :: returned, next, ?_, hnext, ?_⟩
      · rw [hfree, hstack, List.cons_append]
      · intro i hi
        rcases List.mem_cons.mp hi with rfl | hi
        · exact hlt
        · exact hreturned i hi
  · rw [hsame]
    exact h

/-- A tunnel that can be chosen has a slot to hand out, with an index that is a valid handle, and
what is left is still a stock. -/
theorem Stocked.created (h : t.Stocked cap) (hoffers : t.Offers) (req : Request) (ip : IpAddr)
    (port : UInt16) :
    (t.onRequestCreated req ip port).1.Stocked cap ∧
      (t.onRequestCreated req ip port).2.1.isSome := by
  have hbalance := h.balance
  have henough := h.enough
  have hcapacity := h.capacity_toNat
  have hbits := t.capacity.toNat_lt
  have hroom : (t.reqCount.toNat + 1) % 2 ^ 16 < cap % 2 ^ 16 := by
    have hlt := UInt16.lt_iff_toNat_lt.mp hoffers
    rwa [UInt16.toNat_add, UInt16.toNat_one, hcapacity] at hlt
  obtain ⟨returned, next, hstack, hnext, hreturned⟩ := h.stack
  rw [hcapacity] at henough hnext
  cases hlist : t.requests.freeList with
  | nil =>
      rw [hlist, List.length_nil] at henough
      omega
  | cons i rest =>
      rw [hlist] at hbalance henough hstack
      rw [List.length_cons] at hbalance henough
      -- the slot on top came back, or is the next one that was never handed out
      have htop : i < 65535 ∧ ∃ returned next, rest = returned ++ List.range' next (cap - next) ∧
          next ≤ cap % 2 ^ 16 - 1 ∧ ∀ i ∈ returned, i < 65535 := by
        cases returned with
        | cons top others =>
            obtain ⟨rfl, rfl⟩ := List.cons.inj hstack
            exact ⟨hreturned i List.mem_cons_self, others, next, rfl, hnext,
              fun j hj => hreturned j (List.mem_cons_of_mem _ hj)⟩
        | nil =>
            rw [List.nil_append] at hstack
            have hlength := congrArg List.length hstack
            rw [List.length_cons, List.length_range'] at hlength
            have hmore : cap - next = (cap - (next + 1)) + 1 := by omega
            rw [hmore, List.range'_succ] at hstack
            obtain ⟨rfl, rfl⟩ := List.cons.inj hstack
            exact ⟨by omega, [], i + 1, rfl, by omega, by simp⟩
      obtain ⟨hvalid, hrest⟩ := htop
      obtain ⟨req', ts, _, hstub, _, _, _, _, hfree, helems, hcount, _⟩ :=
        onRequestCreated_cons hlist hvalid req ip port
      have hsetup := (t.sameSetup_onRequestCreated req ip port).1
      refine ⟨⟨?_, hsetup.capacity.trans h.capacity, ?_, ?_, ?_⟩, by rw [hstub]; rfl⟩
      · rw [helems, List.length_set, h.length]
      · rw [hfree, hcount, UInt16.toNat_add, UInt16.toNat_one]
        omega
      · rw [hfree, hsetup.capacity, hcapacity]
        omega
      · rw [hfree, hsetup.capacity, hcapacity]
        exact hrest

/-- A frame of the server keeps the stock, unless it takes back the slot 65535. -/
theorem Stocked.message (h : t.Stocked cap) {msg : RMessage} {elapsed : UInt64}
    {effects : List Effect} (hmsg : t.onTunnelMsg msg elapsed = some (t', effects))
    (hvalid : ∀ th, requestFrame msg.buf = some (.reqServerClosed, th) → th.reqIdx = 65535 →
      cap ≤ 65535) : t'.Stocked cap := by
  have hsetup := sameSetup_onTunnelMsg hmsg
  cases onTunnelMsg_spec hmsg with
  | data b _ _ => exact h.of_same rfl rfl rfl rfl
  | @finished th b _ =>
      obtain ⟨hfree, hlength, _⟩ := t.freeRequestTx_slot th.reqIdx th.reqTag
      exact h.of_same hlength hfree (t.freeRequestTx_reqCount _ _) hsetup.capacity
  | @closed th b hframe =>
      have hrelease := h.release th.reqTag (hvalid th hframe)
      exact hrelease.of_same rfl rfl rfl rfl
  | other _ hreq hcount _ _ =>
      exact h.of_same (by rw [hreq]) (by rw [hreq]) hcount hsetup.capacity

end Steps

end Tunnel

/-! ## Refusals -/

namespace TunMgr

/-- A request is refused only when requests hold all `cap` slots of every tunnel. -/
def ConservesWork (m : TunMgr) (cap : Nat) : Prop :=
  ∀ req ip port, (m.onRequestCreated req ip port).2.1 = none →
    ∀ index tun, m.getTunnel index = some tun → tun.Holds cap

/-- Some tunnel of the order can be chosen. -/
def Offers (m : TunMgr) : Prop :=
  ∃ i ∈ m.sortedTunIndies, ∃ tun, m.getTunnel i.toNat = some tun ∧ tun.Offers

/-- Requests hold all `cap` slots of every tunnel. -/
def Exhausted (m : TunMgr) (cap : Nat) : Prop :=
  ∀ index tun, m.getTunnel index = some tun → tun.Holds cap

/-- Every tunnel is stocked. -/
def Stocked (m : TunMgr) (cap : Nat) : Prop :=
  ∀ index tun, m.getTunnel index = some tun → tun.Stocked cap

variable {m : TunMgr} {cap : Nat}

/-- A request is refused exactly when no tunnel can be chosen. -/
theorem onRequestCreated_eq_none (hrun : m.discarded = false) (h : m.Stocked cap) (req : Request)
    (ip : IpAddr) (port : UInt16) :
    (m.onRequestCreated req ip port).2.1 = none ↔ ¬ m.Offers := by
  unfold onRequestCreated
  rw [if_neg (Bool.eq_false_iff.mp hrun)]
  cases halloc : m.allocTunnelForReq with
  | none =>
      refine iff_of_true rfl ?_
      rintro ⟨i, hi, tun, htun, hoffers⟩
      obtain ⟨n, hn⟩ := List.mem_iff_getElem?.mp hi
      have hnone := allocTunnelForReq_eq_none.mp halloc n (List.getElem?_eq_some_iff.mp hn).1
      have hsome : m.eligible n = some (n, i.toNat, tun) :=
        eligible_eq_some.mpr ⟨i, hn, htun, hoffers, rfl, rfl⟩
      cases hnone.symm.trans hsome
  | some r =>
      obtain ⟨index, tun, m'⟩ := r
      obtain ⟨n, i, _, hi, hindex, htun, hoffers, _⟩ := allocTunnelForReq_eq_some halloc
      have hstub := ((h _ _ htun).created hoffers req ip port).2
      refine iff_of_false ?_ ?_
      · intro hnone
        rw [hnone] at hstub
        cases hstub
      · rw [not_not]
        exact ⟨i, List.mem_of_getElem? hi, tun, hindex ▸ htun, hoffers⟩

/-- A manager that is not stopped conserves work when a tunnel can be chosen, or none has a slot
left. -/
theorem conservesWork_iff (hrun : m.discarded = false) (h : m.Stocked cap) :
    m.ConservesWork cap ↔ m.Offers ∨ m.Exhausted cap := by
  unfold ConservesWork
  simp only [onRequestCreated_eq_none hrun h]
  constructor
  · intro hconserves
    by_cases hoffers : m.Offers
    · exact .inl hoffers
    · exact .inr (hconserves (Request.withTx 0 0) (.v4 ⟨0, 0, 0, 0⟩) 0 hoffers)
  · rintro (hoffers | hexhausted)
    · intro _ _ _ hnot
      exact absurd hoffers hnot
    · intro _ _ _ _
      exact hexhausted

theorem Stocked.of_evolves {R : Tunnel → Tunnel → Prop} {m' : TunMgr} (h : m.Stocked cap)
    (hR : m.Evolves R m') (hkeep : ∀ t t', t.Stocked cap → R t t' → t'.Stocked cap) :
    m'.Stocked cap := by
  intro index t' ht'
  obtain ⟨t, ht, hmove⟩ := hR index t' ht'
  exact hkeep t t' (h index t ht) hmove

theorem Stocked.setTunnel (h : m.Stocked cap) (index : Nat) {t : Tunnel} (ht : t.Stocked cap) :
    (m.setTunnel index (some t)).Stocked cap := by
  intro i u hu
  rw [getTunnel_setTunnel] at hu
  split at hu
  · split at hu
    · cases hu
      exact ht
    · cases hu
  · exact h i u hu

/-- A request leaves the tunnels stocked. -/
theorem Stocked.onRequestCreated (h : m.Stocked cap) (req : Request) (ip : IpAddr)
    (port : UInt16) : (m.onRequestCreated req ip port).1.Stocked cap := by
  unfold TunMgr.onRequestCreated
  split
  · exact h
  · split
    · exact h
    · rename_i index tun m' halloc
      obtain ⟨_, htunnels, _⟩ := allocTunnelForReq_some halloc
      obtain ⟨_, _, _, _, _, htun, hoffers, _⟩ := allocTunnelForReq_eq_some halloc
      have hsame : m'.Stocked cap := by
        intro i u hu
        rw [getTunnel, htunnels] at hu
        exact h i u hu
      exact hsame.setTunnel index ((h index tun htun).created hoffers req ip port).1

end TunMgr

namespace Audited

/-- The tunnels that connect have the slots that are configured, and the server does not take back
the slot 65535, if there is one. -/
def Sized (cap : Nat) (_ : Audited) : AuditEvent → Prop
  | .connected task _ => task.tunnelReqCap = cap
  | .input (.tunnelMsg _ msg _) => ∀ th, requestFrame msg.buf = some (.reqServerClosed, th) →
      th.reqIdx = 65535 → cap ≤ 65535
  | _ => True

variable {parses : String → Bool} {sorter : Sorter} {s t : Audited} {cap : Nat}

/-- Every step leaves the tunnels stocked. -/
theorem stocked_step {e : AuditEvent} (h : s.mgr.Stocked cap) (htraced : s.Traced)
    (hsized : s.Sized cap e) (hstep : Step parses sorter s e t) : t.mgr.Stocked cap := by
  cases hstep with
  | @connected _ task rawfd hcall =>
      unfold connected at hcall
      rw [Option.map_eq_some_iff] at hcall
      obtain ⟨r, hr, rfl⟩ := hcall
      rcases TunMgr.onTunnelCreated_cases hr with rfl | ⟨udpxTx, rfl⟩
      · exact h
      · have hnew := Tunnel.stocked_new s.ledger.nextTx rawfd task.index task.tunnelReqCap
          task.requestQuota
        have hcap : task.tunnelReqCap = cap := hsized
        rw [hcap] at hnew
        refine h.setTunnel _ (hnew.of_same ?_ ?_ rfl ?_)
        · rw [ConnectTask.tunnel, hcap]
        · rw [ConnectTask.tunnel, hcap]
        · rw [ConnectTask.tunnel, hcap]
  | closed hcall =>
      unfold closed at hcall
      rw [Option.map_eq_some_iff] at hcall
      obtain ⟨r, hr, rfl⟩ := hcall
      exact h.of_evolves (TunMgr.evolves_onTunnelClosed hr) fun _ _ hu => hu.of_alike
  | request ip port => exact h.onRequestCreated _ ip port
  | @requestClosed _ id ts hpending hcall =>
      unfold requestClosed at hcall
      rw [Option.map_eq_some_iff] at hcall
      obtain ⟨r, hr, rfl⟩ := hcall
      have hidx := htraced.issued id ts (htraced.pending _ hpending)
      refine h.of_evolves (TunMgr.evolves_onRequestClosed hr) ?_
      rintro u u' hu (rfl | rfl)
      · exact hu
      · exact hu.release ts.reqTag fun heq => absurd heq hidx
  | @input x r hrequest hclosed hcall =>
      refine h.of_evolves (TunMgr.evolves_handle hrequest hcall) ?_
      intro u u' hu hdid
      cases hdid with
      | nothing halike => exact hu.of_alike halike
      | @closed ts heq => exact absurd heq (hclosed ts)
      | message heq hmsg =>
          subst heq
          exact hu.message hmsg hsized
  | updateTuncfg cfg => exact h

/-- In every state that is reached, while the manager is not stopped, a request is refused only
when requests hold all slots of every tunnel, exactly if a tunnel can be chosen or no tunnel has
a slot left. -/
theorem conserves_work_iff {n : Nat} {cfg : TunCfg} {es : List AuditEvent}
    (hrun : Run (Guarded (Sized cfg.tunnelReqCap) (Step parses sorter)) (new n cfg) es s)
    (hlive : s.mgr.discarded = false) :
    s.mgr.ConservesWork cfg.tunnelReqCap ↔
      s.mgr.Offers ∨ s.mgr.Exhausted cfg.tunnelReqCap := by
  have hboth : s.Traced ∧ s.mgr.Stocked cfg.tunnelReqCap := by
    refine hrun.preserves (I := fun s => s.Traced ∧ s.mgr.Stocked cfg.tunnelReqCap) ?_
      ⟨traced_new n cfg, ?_⟩
    · rintro s e t ⟨htraced, hstocked⟩ ⟨hsized, hstep⟩
      exact ⟨htraced.step hstep, stocked_step hstocked htraced hsized hstep⟩
    · intro index tun htun
      cases (TunMgr.getTunnel_new n cfg index).symm.trans htun
  exact TunMgr.conservesWork_iff hlive hboth.2

/-- One tunnel of four slots, two of which are held. -/
theorem conserves_work_one :
    let cfg := TunMgr.quotaCfg 100
    ∃ s, Run (Guarded (Sized cfg.tunnelReqCap) (Step (fun _ => true) Sorter.insertion)) (new 1 cfg)
        [.connected ((TunMgr.new 1 cfg).connectTask 0) 3, .request (.v4 ⟨10, 0, 0, 1⟩) 80,
          .request (.v4 ⟨10, 0, 0, 2⟩) 443] s ∧
      s.mgr.discarded = false ∧ s.mgr.triggers.length = 2 ∧
      (s.mgr.ConservesWork cfg.tunnelReqCap ↔
        s.mgr.Offers ∨ s.mgr.Exhausted cfg.tunnelReqCap) := by
  intro cfg
  have hrun : ∃ s, Run (Guarded (Sized cfg.tunnelReqCap) (Step (fun _ => true) Sorter.insertion))
      (new 1 cfg) [.connected ((TunMgr.new 1 cfg).connectTask 0) 3,
        .request (.v4 ⟨10, 0, 0, 1⟩) 80, .request (.v4 ⟨10, 0, 0, 2⟩) 443] s ∧
      s.mgr.discarded = false ∧ s.mgr.triggers.length = 2 :=
    ⟨_, .cons ⟨rfl, .connected rfl⟩ (.cons ⟨trivial, .request _ _ _⟩
      (.cons ⟨trivial, .request _ _ _⟩ (.nil _))), by decide, by decide⟩
  obtain ⟨s, hrun, hlive, hheld⟩ := hrun
  exact ⟨s, hrun, hlive, hheld, conserves_work_iff hrun hlive⟩

/-- The one slot of a tunnel is free, and the request is refused. -/
theorem single_slot_refused :
    let cfg := { TunMgr.quotaCfg 100 with tunnelReqCap := 1 }
    ∃ s, Run (Guarded (Sized 1) (Step (fun _ => true) Sorter.insertion)) (new 1 cfg)
        [.connected ((TunMgr.new 1 cfg).connectTask 0) 3] s ∧ s.mgr.discarded = false ∧
      (s.mgr.onRequestCreated (Request.withTx 0 0) (.v4 ⟨10, 0, 0, 1⟩) 80).2.1 = none ∧
      s.mgr.liveTunnels.map (fun tun => tun.requests.elements.map Request.trigger) = [[none]] ∧
      ¬ s.mgr.ConservesWork 1 := by
  intro cfg
  refine ⟨_, .cons ⟨rfl, .connected rfl⟩ (.nil _), rfl, by decide, by decide, ?_⟩
  intro hconserves
  have hholds := hconserves (Request.withTx 0 0) (.v4 ⟨10, 0, 0, 1⟩) 80 (by decide) 0 _ rfl
  unfold Tunnel.Holds at hholds
  revert hholds
  decide

end Audited

end LproxyCv.Tunnels
