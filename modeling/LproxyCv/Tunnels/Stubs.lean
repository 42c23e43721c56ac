import LproxyCv.Tunnels.TunSteps

set_option autoImplicit false

/-!
# Tunnels: stubs that outlive their tunnel

The task of a request keeps its stub until it ends, and ends when it likes: also
after its tunnel is gone and another one is in its place.  `StubLedger` records
whose stub has released which request, and has made which tunnel count.

A stub names its request by the index of the tunnel, the index of the slot and its
tag, all of which a new tunnel uses again.  Under `Own`, which is about the table
before the call, a stub only ever releases its own request (`own_of_run`).
-/

namespace LproxyCv.Tunnels

open LproxyCv.Foundation LproxyCv.Lws LproxyCv.Net

/-! ## Requests that go -/

namespace Tunnel

/-- `t'` is `t` with other requests of `t` only, or fewer. -/
structure Wanes (t t' : Tunnel) : Prop where
  tx : t'.tx = t.tx
  held : ∀ i req' r, t'.requests.slot i = some req' → req'.trigger = some r →
    ∃ req, t.requests.slot i = some req ∧ req.trigger = some r ∧ req.tag = req'.tag

theorem Wanes.of_requests {t t' : Tunnel} (htx : t'.tx = t.tx)
    (hreq : t'.requests = t.requests) : t.Wanes t' := by
  refine ⟨htx, ?_⟩
  intro i req r hslot htrigger
  rw [hreq] at hslot
  exact ⟨req, hslot, htrigger, rfl⟩

theorem Wanes.of_alike {t t' : Tunnel} (h : t.Alike t') : t.Wanes t' := .of_requests h.tx h.requests

/-- Taking a slot back ends its request. -/
theorem wanes_release (t : Tunnel) (reqIdx reqTag : UInt16) :
    t.Wanes (t.release reqIdx reqTag).2 := by
  refine ⟨rfl, ?_⟩
  intro i req' r hslot htrigger
  rcases t.release_cases reqIdx reqTag with ⟨req, _, _, _, _, _, helems, _⟩ | ⟨_, hsame, _⟩
  · rw [Reqq.slot_set helems] at hslot
    by_cases hi : reqIdx.toNat = i
    · rw [if_pos hi, Option.map_eq_some_iff] at hslot
      obtain ⟨_, _, rfl⟩ := hslot
      cases htrigger
    · rw [if_neg hi] at hslot
      exact ⟨req', hslot, htrigger, rfl⟩
  · rw [hsame] at hslot
    exact ⟨req', hslot, htrigger, rfl⟩

theorem freeRequestTx_tx (t : Tunnel) (reqIdx reqTag : UInt16) :
    (t.freeRequestTx reqIdx reqTag).tx = t.tx := by
  unfold freeRequestTx
  split
  · rfl
  · split <;> rfl

/-- A frame of the server starts no request. -/
theorem wanes_onTunnelMsg {t t' : Tunnel} {msg : RMessage} {elapsed : UInt64}
    {effects : List Effect} (h : t.onTunnelMsg msg elapsed = some (t', effects)) : t.Wanes t' := by
  cases onTunnelMsg_spec h with
  | data b _ _ => exact .of_requests rfl rfl
  | @finished th b _ =>
      refine ⟨freeRequestTx_tx t th.reqIdx th.reqTag, ?_⟩
      intro i req' r hslot htrigger
      obtain ⟨req, hreq, htag, htrig, _⟩ :=
        (t.freeRequestTx_slot th.reqIdx th.reqTag).2.2 i req' hslot
      exact ⟨req, hreq, htrig ▸ htrigger, htag.symm⟩
  | @closed th b _ =>
      have hrelease := t.wanes_release th.reqIdx th.reqTag
      exact ⟨rfl, hrelease.held⟩
  | other _ hreq _ htx _ => exact .of_requests htx hreq

/-- A tunnel just connected has no requests. -/
theorem tunnel_trigger (task : ConnectTask) (tx : Channel) (rawfd : Int) {i : Nat}
    {req : Request} (h : (task.tunnel tx rawfd).requests.slot i = some req) : req.trigger = none := by
  obtain ⟨_, rfl⟩ := Reqq.new_slot h
  rfl

theorem onRequestCreated_internal (t : Tunnel) (req2 : Request) (ip : IpAddr) (port : UInt16) :
    (t.onRequestCreated req2 ip port).1 = (t.onRequestCreatedInternal req2).1 ∧
      (t.onRequestCreated req2 ip port).2.1 = (t.onRequestCreatedInternal req2).2 := by
  unfold onRequestCreated
  rcases t.onRequestCreatedInternal req2 with ⟨t', _ | ts⟩
  · exact ⟨rfl, rfl⟩
  · exact ⟨rfl, rfl⟩

/-- Whatever its index, the slot on top of the stack is filled. -/
theorem onRequestCreated_fills {t : Tunnel} {i : Nat} {rest : List Nat}
    (h : t.requests.freeList = i :: rest) (req2 : Request) (ip : IpAddr) (port : UInt16) :
    ∃ req, t.requests.slot i = some req ∧ (t.onRequestCreated req2 ip port).1.tx = t.tx ∧
      (t.onRequestCreated req2 ip port).1.requests.elements =
        t.requests.elements.set i (Reqq.fillReq req req2) := by
  obtain ⟨req, hslot, _, _, helems⟩ := Reqq.alloc_cons h req2
  refine ⟨req, hslot, ?_⟩
  rw [(onRequestCreated_internal t req2 ip port).1]
  unfold onRequestCreatedInternal
  dsimp only
  split
  · exact ⟨rfl, helems⟩
  · exact ⟨rfl, helems⟩

theorem onRequestCreated_tx (t : Tunnel) (req2 : Request) (ip : IpAddr) (port : UInt16) :
    (t.onRequestCreated req2 ip port).1.tx = t.tx := by
  cases hfree : t.requests.freeList with
  | nil => rw [onRequestCreated_nil hfree]
  | cons top rest =>
      obtain ⟨_, _, htx, _⟩ := onRequestCreated_fills hfree req2 ip port
      exact htx

/-- A request that a tunnel has after a new one came was there before, or is the
new one, and its stub names its slot. -/
theorem onRequestCreated_held (t : Tunnel) (id : Nat) (ip : IpAddr) (port : UInt16) {i : Nat}
    {req : Request} {r : Trigger} (hi : i < 65535)
    (hslot : (t.onRequestCreated (Request.withTx id id) ip port).1.requests.slot i = some req)
    (htrigger : req.trigger = some r) :
    t.requests.slot i = some req ∨
      r = id ∧ ∃ ts, (t.onRequestCreated (Request.withTx id id) ip port).2.1 = some ts ∧
        ts.tunnelTx = t.tx ∧ ts.reqIdx.toNat = i ∧ ts.reqTag = req.tag := by
  cases hfree : t.requests.freeList with
  | nil =>
      rw [onRequestCreated_nil hfree] at hslot
      exact .inl hslot
  | cons top rest =>
      obtain ⟨req₀, hreq₀, htx, helems⟩ :=
        onRequestCreated_fills hfree (Request.withTx id id) ip port
      rw [Reqq.slot_set helems] at hslot
      by_cases htop : top = i
      · right
        subst htop
        rw [if_pos rfl, hreq₀] at hslot
        cases hslot
        cases htrigger
        obtain ⟨req₁, ts, hreq₁, hts, hidx, htag, htsTx, _⟩ :=
          onRequestCreated_cons hfree hi (Request.withTx id id) ip port
        rw [hreq₀] at hreq₁
        cases hreq₁
        exact ⟨rfl, ts, hts, htsTx, hidx, htag⟩
      · left
        rw [if_neg htop] at hslot
        exact hslot

/-- No stub has the index that stands for a failed allocation. -/
theorem onRequestCreated_ne_max {t : Tunnel} {req2 : Request} {ip : IpAddr} {port : UInt16}
    {ts : TunStub} (h : (t.onRequestCreated req2 ip port).2.1 = some ts) : ts.reqIdx ≠ 65535 := by
  rw [(onRequestCreated_internal t req2 ip port).2] at h
  unfold onRequestCreatedInternal at h
  dsimp only at h
  split at h
  · rename_i hne
    cases h
    exact hne
  · cases h

end Tunnel

/-! ## The manager and its stubs -/

namespace TunMgr

/-- `m'` has tunnels of `m` only, none of them with a new request. -/
def Wanes (m m' : TunMgr) : Prop :=
  ∀ index t', m'.getTunnel index = some t' → ∃ t, m.getTunnel index = some t ∧ t.Wanes t'

theorem Wanes.of_evolves {R : Tunnel → Tunnel → Prop} {m m' : TunMgr} (h : m.Evolves R m')
    (hle : ∀ t t', R t t' → t.Wanes t') : m.Wanes m' :=
  h.mono hle

theorem Wanes.of_tunnels {m m' : TunMgr} (h : m'.tunnels = m.tunnels) : m.Wanes m' :=
  .of_evolves (.of_tunnels Tunnel.Alike.refl h) fun _ _ => .of_alike

/-- A tunnel that is gone has no requests. -/
theorem wanes_onTunnelClosed {m : TunMgr} {index : Nat} {r : TunMgr × Option Tunnel}
    (h : m.onTunnelClosed index = some r) : m.Wanes r.1 :=
  .of_evolves (evolves_onTunnelClosed h) fun _ _ => .of_alike

/-- The end of a request's task starts no request. -/
theorem wanes_onRequestClosed {m : TunMgr} {ts : TunStub} {r : TunMgr × List Effect}
    (h : m.onRequestClosed ts = some r) : m.Wanes r.1 := by
  refine .of_evolves (evolves_onRequestClosed h) ?_
  rintro t t' (rfl | rfl)
  · exact .of_alike (.refl _)
  · exact t.wanes_release ts.reqIdx ts.reqTag

/-- No input but a new request starts one. -/
theorem wanes_handle {parses : String → Bool} {sorter : Sorter} {m : TunMgr} {x : MgrInput}
    {r : TunMgr × List ConnectTask} (hx : ∀ req ip port, x ≠ .requestCreated req ip port)
    (h : m.handle parses sorter x = some r) : m.Wanes r.1 := by
  refine .of_evolves (evolves_handle hx h) ?_
  intro t t' hdid
  cases hdid with
  | nothing halike => exact .of_alike halike
  | @closed ts _ => exact t.wanes_release ts.reqIdx ts.reqTag
  | message _ hmsg => exact Tunnel.wanes_onTunnelMsg hmsg

end TunMgr

/-- The history of the stubs.  A request is named by the identity of its channel
and trigger. -/
structure StubLedger where
  /-- the identity of the next tunnel's channel -/
  nextTx : Channel
  /-- the identity of the next request -/
  next : Nat
  issued : List (Nat × TunStub)
  /-- the ones among them whose task has not ended -/
  pending : List (Nat × TunStub)
  /-- which request's stub has released which request -/
  freed : List (Nat × Nat)
  /-- for which tunnel's stub which tunnel has counted -/
  counted : List (Channel × Channel)
  deriving DecidableEq

/-- The manager and the history of its stubs. -/
structure Audited where
  mgr : TunMgr
  ledger : StubLedger
  deriving DecidableEq

/-- What happens to the manager. -/
inductive AuditEvent where
  | connected (task : ConnectTask) (rawfd : Int)
  | closed (index : Nat)
  | request (ip : IpAddr) (port : UInt16)
  | requestClosed (id : Nat) (ts : TunStub)
  | input (x : MgrInput)
  | updateTuncfg (cfg : TunCfg)

/-- The requests of all tunnels. -/
def TunMgr.triggers (m : TunMgr) : List Trigger :=
  m.liveTunnels.flatMap fun t => t.requests.elements.filterMap Request.trigger

/-- The tunnels that have counted between two states. -/
def TunMgr.recounted (m m' : TunMgr) : List Channel :=
  (List.range m.tunnels.length).filterMap fun i =>
    match m.getTunnel i, m'.getTunnel i with
    | some t, some t' => if t.reqCount = t'.reqCount then none else some t.tx
    | _, _ => none

theorem TunMgr.mem_triggers {m : TunMgr} {r : Trigger} :
    r ∈ m.triggers ↔ ∃ index tun i req, m.getTunnel index = some tun ∧
      tun.requests.slot i = some req ∧ req.trigger = some r := by
  have hlive : ∀ tun, tun ∈ m.liveTunnels ↔ ∃ index, m.getTunnel index = some tun := by
    intro tun
    simp only [liveTunnels, List.mem_filterMap, id_eq, exists_eq_right, getTunnel_some]
    exact List.mem_iff_getElem?
  simp only [triggers, List.mem_flatMap, hlive, List.mem_filterMap]
  constructor
  · rintro ⟨tun, ⟨index, hindex⟩, req, hmem, htrigger⟩
    obtain ⟨i, hi⟩ := List.mem_iff_getElem?.mp hmem
    exact ⟨index, tun, i, req, hindex, hi, htrigger⟩
  · rintro ⟨index, tun, i, req, hindex, hi, htrigger⟩
    exact ⟨tun, ⟨index, hindex⟩, req, List.mem_iff_getElem?.mpr ⟨i, hi⟩, htrigger⟩

theorem TunMgr.mem_recounted {m m' : TunMgr} {tx : Channel} (h : tx ∈ m.recounted m') :
    ∃ i t t', m.getTunnel i = some t ∧ m'.getTunnel i = some t' ∧ t.reqCount ≠ t'.reqCount ∧
      tx = t.tx := by
  obtain ⟨i, _, hi⟩ := List.mem_filterMap.mp h
  split at hi
  · rename_i t t' ht ht'
    split at hi
    · cases hi
    · rename_i hne
      cases hi
      exact ⟨i, t, t', ht, ht', hne, rfl⟩
  · cases hi

namespace Audited

/-- A manager without tunnels. -/
def new (tunnelCount : Nat) (cfg : TunCfg) : Audited :=
  ⟨TunMgr.new tunnelCount cfg, ⟨0, 0, [], [], [], []⟩⟩

/-- A tunnel is connected, with a channel of its own. -/
def connected (s : Audited) (task : ConnectTask) (rawfd : Int) : Option Audited :=
  (s.mgr.onTunnelCreated (task.tunnel s.ledger.nextTx rawfd)).map fun r =>
    ⟨r.2, { s.ledger with nextTx := s.ledger.nextTx + 1 }⟩

/-- The connection of a tunnel is gone. -/
def closed (s : Audited) (index : Nat) : Option Audited :=
  (s.mgr.onTunnelClosed index).map fun r => ⟨r.1, s.ledger⟩

/-- A new request, which may be refused. -/
def request (s : Audited) (ip : IpAddr) (port : UInt16) : Audited :=
  let r := s.mgr.onRequestCreated (Request.withTx s.ledger.next s.ledger.next) ip port
  let stub := r.2.1.toList.map fun ts => (s.ledger.next, ts)
  ⟨r.1, { s.ledger with
    next := s.ledger.next + 1
    issued := stub ++ s.ledger.issued
    pending := stub ++ s.ledger.pending }⟩

/-- The task of a request has ended. -/
def requestClosed (s : Audited) (id : Nat) (ts : TunStub) : Option Audited :=
  (s.mgr.onRequestClosed ts).map fun r =>
    let freed := s.mgr.triggers.filter (· ∉ r.1.triggers)
    let counted := s.mgr.recounted r.1
    ⟨r.1, { s.ledger with
      pending := s.ledger.pending.erase (id, ts)
      freed := freed.map (fun other => (id, other)) ++ s.ledger.freed
      counted := counted.map (fun tx => (ts.tunnelTx, tx)) ++ s.ledger.counted }⟩

/-- The steps of the manager.  The task of a request ends once. -/
inductive Step (parses : String → Bool) (sorter : Sorter) : Audited → AuditEvent → Audited → Prop
  where
  | connected {s t : Audited} {task : ConnectTask} {rawfd : Int} :
      s.connected task rawfd = some t → Step parses sorter s (.connected task rawfd) t
  | closed {s t : Audited} {index : Nat} :
      s.closed index = some t → Step parses sorter s (.closed index) t
  | request (s : Audited) (ip : IpAddr) (port : UInt16) :
      Step parses sorter s (.request ip port) (s.request ip port)
  | requestClosed {s t : Audited} {id : Nat} {ts : TunStub} :
      (id, ts) ∈ s.ledger.pending → s.requestClosed id ts = some t →
      Step parses sorter s (.requestClosed id ts) t
  | input {s : Audited} {x : MgrInput} {r : TunMgr × List ConnectTask} :
      (∀ req ip port, x ≠ .requestCreated req ip port) → (∀ ts, x ≠ .requestClosed ts) →
      s.mgr.handle parses sorter x = some r → Step parses sorter s (.input x) ⟨r.1, s.ledger⟩
  | updateTuncfg (s : Audited) (cfg : TunCfg) :
      Step parses sorter s (.updateTuncfg cfg) ⟨s.mgr.updateTuncfg cfg, s.ledger⟩

/-- When the task of a request ends, either the slot its stub names does not have
its tag, or its tunnel is the one that gave it the stub, and has given the slot
with this tag to no other request. -/
def Own (s : Audited) : AuditEvent → Prop
  | .requestClosed id ts =>
      ∀ tun, s.mgr.getTunnel ts.tunIdx.toNat = some tun →
        (∀ req, tun.requests.slot ts.reqIdx.toNat = some req → req.tag ≠ ts.reqTag) ∨
          tun.tx = ts.tunnelTx ∧ ∀ id' ts', (id', ts') ∈ s.ledger.issued →
            ts'.tunnelTx = ts.tunnelTx → ts'.header = ts.header → id' = id
  | _ => True

/-- A stub has released its own request only, and only its own tunnel has counted
for it. -/
structure Owned (s : Audited) : Prop where
  freed : ∀ p ∈ s.ledger.freed, p.2 = p.1
  counted : ∀ p ∈ s.ledger.counted, p.2 = p.1

/-- Every request in a table has its stub. -/
structure Traced (s : Audited) : Prop where
  held : ∀ index tun i req r, s.mgr.getTunnel index = some tun → i < 65535 →
    tun.requests.slot i = some req → req.trigger = some r →
    ∃ ts, (r, ts) ∈ s.ledger.issued ∧ ts.tunnelTx = tun.tx ∧ ts.reqIdx.toNat = i ∧
      ts.reqTag = req.tag
  issued : ∀ id ts, (id, ts) ∈ s.ledger.issued → ts.reqIdx ≠ 65535
  pending : ∀ p ∈ s.ledger.pending, p ∈ s.ledger.issued

theorem traced_new (tunnelCount : Nat) (cfg : TunCfg) : Traced (new tunnelCount cfg) where
  held := by
    intro index tun i req r htun _ _ _
    cases (TunMgr.getTunnel_new tunnelCount cfg index).symm.trans htun
  issued := by
    intro id ts h
    cases h
  pending := by
    intro p h
    cases h

/-- A step that starts no request keeps every request traced. -/
theorem Traced.wanes {s t : Audited} (h : s.Traced) (hw : s.mgr.Wanes t.mgr)
    (hissued : t.ledger.issued = s.ledger.issued)
    (hpending : t.ledger.pending ⊆ s.ledger.pending) : t.Traced where
  held := by
    intro index tun' i req' r htun' hi hslot htrigger
    obtain ⟨tun, htun, htx, hheld⟩ := hw index tun' htun'
    obtain ⟨req, hreq, htrig, htag⟩ := hheld i req' r hslot htrigger
    obtain ⟨ts, hts, htsTx, hidx, htsTag⟩ := h.held index tun i req r htun hi hreq htrig
    exact ⟨ts, hissued ▸ hts, htsTx.trans htx.symm, hidx, htsTag.trans htag⟩
  issued := by
    rw [hissued]
    exact h.issued
  pending := by
    intro p hp
    rw [hissued]
    exact h.pending p (hpending hp)

/-- A tunnel just connected brings no requests. -/
theorem Traced.connected {s t : Audited} {task : ConnectTask} {rawfd : Int} (h : s.Traced)
    (hstep : s.connected task rawfd = some t) : t.Traced := by
  unfold Audited.connected at hstep
  rw [Option.map_eq_some_iff] at hstep
  obtain ⟨r, hr, rfl⟩ := hstep
  rcases TunMgr.onTunnelCreated_cases hr with rfl | ⟨udpxTx, rfl⟩
  · exact ⟨h.held, h.issued, h.pending⟩
  · refine ⟨?_, h.issued, h.pending⟩
    intro index tun i req r htun hi hslot htrigger
    dsimp only at htun
    rw [TunMgr.getTunnel_setTunnel] at htun
    split at htun
    · split at htun
      · cases htun
        have hnone := Tunnel.tunnel_trigger task s.ledger.nextTx rawfd hslot
        rw [hnone] at htrigger
        cases htrigger
      · cases htun
    · exact h.held index tun i req r htun hi hslot htrigger

/-- A new request is traced to the stub it was given. -/
theorem Traced.request {s : Audited} (h : s.Traced) (ip : IpAddr) (port : UInt16) :
    (s.request ip port).Traced := by
  unfold Audited.request TunMgr.onRequestCreated
  split
  · exact ⟨h.held, h.issued, h.pending⟩
  · split
    · exact ⟨h.held, h.issued, h.pending⟩
    · rename_i index tun m' halloc
      obtain ⟨htun, htunnels, _⟩ := TunMgr.allocTunnelForReq_some halloc
      have hget : ∀ i, m'.getTunnel i = s.mgr.getTunnel i := fun i => by
        rw [TunMgr.getTunnel, htunnels, TunMgr.getTunnel]
      refine ⟨?_, ?_, ?_⟩
      · intro index' tun' i req r htun' hi hslot htrigger
        -- a tunnel that is not the chosen one is as it was
        dsimp only at htun'
        rw [TunMgr.getTunnel_setTunnel, hget] at htun'
        split at htun'
        · rename_i hindex
          split at htun'
          · cases htun'
            rw [Tunnel.onRequestCreated_tx]
            rcases tun.onRequestCreated_held s.ledger.next ip port hi hslot htrigger with
              hold | ⟨rfl, ts, hts, htx, hidx, htag⟩
            · obtain ⟨ts, hts, hrest⟩ := h.held index tun i req r htun hi hold htrigger
              exact ⟨ts, List.mem_append_right _ hts, hrest⟩
            · have hnew := List.mem_map_of_mem (f := fun ts => (s.ledger.next, ts))
                (Option.mem_toList.mpr hts)
              exact ⟨ts, List.mem_append_left _ hnew, htx, hidx, htag⟩
          · cases htun'
        · obtain ⟨ts, hts, hrest⟩ := h.held index' tun' i req r htun' hi hslot htrigger
          exact ⟨ts, List.mem_append_right _ hts, hrest⟩
      · intro id ts hmem
        rcases List.mem_append.mp hmem with hnew | hmem
        · obtain ⟨ts', hts', heq⟩ := List.mem_map.mp hnew
          cases heq
          exact Tunnel.onRequestCreated_ne_max (Option.mem_toList.mp hts')
        · exact h.issued id ts hmem
      · intro p hp
        rcases List.mem_append.mp hp with hnew | hp
        · exact List.mem_append_left _ hnew
        · exact List.mem_append_right _ (h.pending p hp)

/-- Every step keeps every request traced. -/
theorem Traced.step {parses : String → Bool} {sorter : Sorter} {s t : Audited} {e : AuditEvent}
    (h : s.Traced) (hstep : Step parses sorter s e t) : t.Traced := by
  cases hstep with
  | connected hcall => exact h.connected hcall
  | closed hcall =>
      unfold closed at hcall
      rw [Option.map_eq_some_iff] at hcall
      obtain ⟨r, hr, rfl⟩ := hcall
      exact h.wanes (TunMgr.wanes_onTunnelClosed hr) rfl fun _ hp => hp
  | request ip port => exact h.request ip port
  | requestClosed _ hcall =>
      unfold requestClosed at hcall
      rw [Option.map_eq_some_iff] at hcall
      obtain ⟨r, hr, rfl⟩ := hcall
      exact h.wanes (TunMgr.wanes_onRequestClosed hr) rfl List.erase_subset
  | input hx _ hcall => exact h.wanes (TunMgr.wanes_handle hx hcall) rfl fun _ hp => hp
  | updateTuncfg cfg => exact h.wanes (.of_tunnels rfl) rfl fun _ hp => hp

/-- The end of a request's task takes back the slot that its stub names, if it has
the tag, and leaves everything else as it is. -/
theorem onRequestClosed_cases {m : TunMgr} {ts : TunStub} {r : TunMgr × List Effect}
    (h : m.onRequestClosed ts = some r) :
    (∃ tun req, m.getTunnel ts.tunIdx.toNat = some tun ∧
      tun.requests.slot ts.reqIdx.toNat = some req ∧ req.tag = ts.reqTag ∧
      r.1 = m.setTunnel ts.tunIdx.toNat (some (tun.release ts.reqIdx ts.reqTag).2)) ∨
    ∀ i, r.1.getTunnel i = m.getTunnel i := by
  unfold TunMgr.onRequestClosed at h
  split at h
  · cases h
  · cases h
    exact .inr fun _ => rfl
  · rename_i tun htun
    have htun' := TunMgr.getTunnel_some.mpr htun
    cases h
    rcases tun.release_cases ts.reqIdx ts.reqTag with ⟨req, hreq, htag, _⟩ | ⟨_, hsame, _⟩
    · exact .inl ⟨tun, req, htun', hreq, htag, rfl⟩
    · right
      intro i
      dsimp only [Tunnel.onRequestClosed]
      rw [hsame, TunMgr.getTunnel_setTunnel]
      by_cases hi : ts.tunIdx.toNat = i
      · subst hi
        rw [if_pos rfl, if_pos (List.getElem?_eq_some_iff.mp htun).1, htun']
      · rw [if_neg hi]

/-- What the slots of a tunnel hold that took one of them back. -/
theorem release_slot {tun : Tunnel} {reqIdx reqTag : UInt16} {req : Request}
    (hreq : tun.requests.slot reqIdx.toNat = some req) (htag : req.tag = reqTag) {i : Nat}
    (hi : reqIdx.toNat ≠ i) :
    (tun.release reqIdx reqTag).2.requests.slot i = tun.requests.slot i := by
  rcases tun.release_cases reqIdx reqTag with ⟨_, _, _, _, _, _, helems, _⟩ | ⟨_, _, hne⟩
  · rw [Reqq.slot_set helems, if_neg hi]
  · exact absurd htag (hne req hreq)

/-- A request that the end of a task releases is the one in the slot that the stub
names. -/
theorem freed_cases {m m' : TunMgr} {ts : TunStub} {tun : Tunnel} {req : Request} {r : Trigger}
    (htun : m.getTunnel ts.tunIdx.toNat = some tun)
    (hreq : tun.requests.slot ts.reqIdx.toNat = some req) (htag : req.tag = ts.reqTag)
    (heq : m' = m.setTunnel ts.tunIdx.toNat (some (tun.release ts.reqIdx ts.reqTag).2))
    (hbefore : r ∈ m.triggers) (hgone : r ∉ m'.triggers) : req.trigger = some r := by
  obtain ⟨index, tun', i, req', htun', hreq', htrigger⟩ := TunMgr.mem_triggers.mp hbefore
  rw [TunMgr.mem_triggers] at hgone
  by_cases hindex : ts.tunIdx.toNat = index
  · subst hindex
    rw [htun] at htun'
    cases htun'
    have hlt := (List.getElem?_eq_some_iff.mp (TunMgr.getTunnel_some.mp htun)).1
    by_cases hi : ts.reqIdx.toNat = i
    · subst hi
      rw [hreq] at hreq'
      cases hreq'
      exact htrigger
    · refine absurd ⟨ts.tunIdx.toNat, (tun.release ts.reqIdx ts.reqTag).2, i, req', ?_, ?_,
        htrigger⟩ hgone
      · rw [heq, TunMgr.getTunnel_setTunnel, if_pos rfl, if_pos hlt]
      · rw [release_slot hreq htag hi, hreq']
  · refine absurd ⟨index, tun', i, req', ?_, hreq', htrigger⟩ hgone
    rw [heq, TunMgr.getTunnel_setTunnel, if_neg hindex, htun']

/-- Only the tunnel that the stub names counts. -/
theorem recounted_cases {m m' : TunMgr} {index : Nat} {tun : Tunnel} {t : Option Tunnel}
    {tx : Channel} (htun : m.getTunnel index = some tun) (heq : m' = m.setTunnel index t)
    (h : tx ∈ m.recounted m') : tx = tun.tx := by
  obtain ⟨i, u, u', hu, hu', hne, rfl⟩ := TunMgr.mem_recounted h
  by_cases hi : index = i
  · subst hi
    rw [htun] at hu
    cases hu
    rfl
  · rw [heq, TunMgr.getTunnel_setTunnel, if_neg hi, hu] at hu'
    cases hu'
    exact absurd rfl hne

/-- Under `Own`, the end of a request's task releases that request, and makes its
tunnel count. -/
theorem Owned.requestClosed {s t : Audited} {id : Nat} {ts : TunStub} (howned : s.Owned)
    (htraced : s.Traced) (hown : s.Own (.requestClosed id ts))
    (hpending : (id, ts) ∈ s.ledger.pending) (hstep : s.requestClosed id ts = some t) :
    t.Owned := by
  unfold Audited.requestClosed at hstep
  rw [Option.map_eq_some_iff] at hstep
  obtain ⟨r, hr, rfl⟩ := hstep
  have hidx := htraced.issued id ts (htraced.pending _ hpending)
  have hlt : ts.reqIdx.toNat < 65535 := by
    have hmax : ts.reqIdx.toNat ≠ (65535 : UInt16).toNat := fun h => hidx (UInt16.toNat_inj.mp h)
    have hbound := ts.reqIdx.toNat_lt
    have hval : (65535 : UInt16).toNat = 65535 := rfl
    omega
  have hcases := onRequestClosed_cases hr
  constructor
  · intro p hp
    rcases List.mem_append.mp hp with hnew | hold
    · obtain ⟨r', hr', rfl⟩ := List.mem_map.mp hnew
      rw [List.mem_filter, decide_eq_true_eq] at hr'
      rcases hcases with ⟨tun, req, htun, hreq, htag, heq⟩ | hsame
      · -- the slot has the tag, so the tunnel is the one that gave the stub
        obtain ⟨htx, honly⟩ := (hown tun htun).resolve_left fun hne => hne req hreq htag
        have htrigger := freed_cases htun hreq htag heq hr'.1 hr'.2
        obtain ⟨ts', hts', hts'Tx, hts'Idx, hts'Tag⟩ :=
          htraced.held _ tun _ req r' htun hlt hreq htrigger
        refine honly r' ts' hts' (hts'Tx.trans htx) ?_
        rw [TunStub.header, TunStub.header, UInt16.toNat_inj.mp hts'Idx, hts'Tag, htag]
      · refine absurd ?_ hr'.2
        rw [TunMgr.mem_triggers]
        simp only [hsame]
        exact TunMgr.mem_triggers.mp hr'.1
    · exact howned.freed p hold
  · intro p hp
    rcases List.mem_append.mp hp with hnew | hold
    · obtain ⟨tx, htx', rfl⟩ := List.mem_map.mp hnew
      rcases hcases with ⟨tun, req, htun, hreq, htag, heq⟩ | hsame
      · obtain ⟨htx, _⟩ := (hown tun htun).resolve_left fun hne => hne req hreq htag
        exact (recounted_cases htun heq htx').trans htx
      · obtain ⟨i, u, u', hu, hu', hne, _⟩ := TunMgr.mem_recounted htx'
        rw [hsame, hu] at hu'
        cases hu'
        exact absurd rfl hne
    · exact howned.counted p hold

/-- In every run in which every task that ends meets `Own`, a stub releases its
own request only, and only its own tunnel counts for it. -/
theorem own_of_run {parses : String → Bool} {sorter : Sorter} {tunnelCount : Nat} {cfg : TunCfg}
    {s : Audited} {es : List AuditEvent}
    (hrun : Run (Guarded Own (Step parses sorter)) (new tunnelCount cfg) es s) : s.Owned := by
  have hboth : s.Traced ∧ s.Owned := by
    refine hrun.preserves (I := fun s => s.Traced ∧ s.Owned) ?_
      ⟨traced_new tunnelCount cfg, ⟨by simp [new], by simp [new]⟩⟩
    rintro s e t ⟨htraced, howned⟩ ⟨hown, hstep⟩
    refine ⟨htraced.step hstep, ?_⟩
    cases hstep with
    | connected hcall =>
        unfold connected at hcall
        rw [Option.map_eq_some_iff] at hcall
        obtain ⟨r, _, rfl⟩ := hcall
        exact ⟨howned.freed, howned.counted⟩
    | closed hcall =>
        unfold closed at hcall
        rw [Option.map_eq_some_iff] at hcall
        obtain ⟨r, _, rfl⟩ := hcall
        exact ⟨howned.freed, howned.counted⟩
    | request ip port => exact ⟨howned.freed, howned.counted⟩
    | requestClosed hpending hcall => exact howned.requestClosed htraced hown hpending hcall
    | input _ _ _ => exact ⟨howned.freed, howned.counted⟩
    | updateTuncfg cfg => exact ⟨howned.freed, howned.counted⟩
  exact hboth.2

/-- A manager of one tunnel. -/
def single : Audited :=
  new 1
    { tunnelUrl := "wss://127.0.0.1/tun"
      tunnelReqCap := 4
      relayDomain := "127.0.0.1"
      relayPort := 12345
      dnsTunnelNumber := 1
      defaultDnsServer := "223.5.5.5"
      requestQuota := 100
      xportUrl := ""
      token := "" }

/-- A run of one request, whose task ends while its tunnel is there. -/
theorem own_of_run_one :
    ∃ s, Run (Guarded Own (Step (fun _ => true) Sorter.insertion)) single
        [.connected (single.mgr.connectTask 0) 3, .request (.v4 ⟨10, 0, 0, 1⟩) 80,
          .requestClosed 0 ⟨0, 0, 0, 1, 100⟩] s ∧
      s.Owned ∧ s.ledger.freed = [(0, 0)] := by
  have hrun : ∃ s, Run (Guarded Own (Step (fun _ => true) Sorter.insertion)) single
      [.connected (single.mgr.connectTask 0) 3, .request (.v4 ⟨10, 0, 0, 1⟩) 80,
        .requestClosed 0 ⟨0, 0, 0, 1, 100⟩] s ∧ s.ledger.freed = [(0, 0)] := by
    refine ⟨_, .cons ⟨trivial, .connected rfl⟩ (.cons ⟨trivial, .request _ _ _⟩
      (.cons ⟨?_, .requestClosed (by decide) rfl⟩ (.nil _))), by decide⟩
    intro tun htun
    cases htun
    refine .inr ⟨rfl, ?_⟩
    intro id' ts' hmem _ _
    cases List.mem_singleton.mp hmem
    rfl
  obtain ⟨s, hrun, hfreed⟩ := hrun
  exact ⟨s, hrun, own_of_run hrun, hfreed⟩

/-- A tunnel is lost and built again.  The stub of a request of the old one then
releases the request that has its slot in the new one. -/
theorem late_close_not_owned :
    ∃ s, Run (Step (fun _ => true) Sorter.insertion) single
        [.connected (single.mgr.connectTask 0) 3, .request (.v4 ⟨10, 0, 0, 1⟩) 80, .closed 0,
          .input (.keepalive (fun _ => 0) fun _ => true),
          .connected (single.mgr.connectTask 0) 4, .request (.v4 ⟨10, 0, 0, 2⟩) 80,
          .requestClosed 0 ⟨0, 0, 0, 1, 100⟩] s ∧
      s.ledger.freed = [(0, 1)] ∧ s.ledger.counted = [(0, 1)] ∧ ¬ s.Owned := by
  refine ⟨_, .cons (.connected rfl) (.cons (.request _ _ _) (.cons (.closed rfl)
    (.cons (.input (by simp) (by simp) rfl) (.cons (.connected rfl) (.cons (.request _ _ _)
      (.cons (.requestClosed (by decide) rfl) (.nil _))))))), by decide, by decide, ?_⟩
  intro howned
  exact absurd (howned.freed (0, 1) (by decide)) (by decide)

end Audited

end LproxyCv.Tunnels
