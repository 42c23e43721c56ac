import LproxyCv.Tunnels.TunTasks

set_option autoImplicit false

/-!
# Tunnels: what the manager does to its tunnels

Most of what calls the manager leaves the requests of its tunnels alone; a frame of the server and
the end of a request's task reach one tunnel, and a new request the one that is chosen.
`Evolves` says it once, for all tunnels of the table.
-/

namespace LproxyCv.Tunnels

open LproxyCv.Foundation LproxyCv.Lws LproxyCv.Net

namespace Tunnel

/-- `t'` is what `t` was when it was connected. -/
structure SameSetup (t t' : Tunnel) : Prop where
  tx : t'.tx = t.tx
  index : t'.index = t.index
  capacity : t'.capacity = t.capacity
  requestQuota : t'.requestQuota = t.requestQuota

/-- `t'` is `t` with the same requests. -/
structure Alike (t t' : Tunnel) : Prop extends SameSetup t t' where
  requests : t'.requests = t.requests
  reqCount : t'.reqCount = t.reqCount

theorem SameSetup.refl (t : Tunnel) : t.SameSetup t := ⟨rfl, rfl, rfl, rfl⟩

theorem SameSetup.trans {t t' t'' : Tunnel} (h : t.SameSetup t') (h' : t'.SameSetup t'') :
    t.SameSetup t'' :=
  ⟨h'.tx.trans h.tx, h'.index.trans h.index, h'.capacity.trans h.capacity,
    h'.requestQuota.trans h.requestQuota⟩

theorem Alike.refl (t : Tunnel) : t.Alike t := ⟨.refl t, rfl, rfl⟩

theorem Alike.trans {t t' t'' : Tunnel} (h : t.Alike t') (h' : t'.Alike t'') : t.Alike t'' :=
  ⟨h.toSameSetup.trans h'.toSameSetup, h'.requests.trans h.requests,
    h'.reqCount.trans h.reqCount⟩

theorem alike_resetBusy (t : Tunnel) : t.Alike t.resetBusy :=
  ⟨⟨rfl, rfl, rfl, rfl⟩, rfl, rfl⟩

theorem alike_setUdpxTx (t : Tunnel) (tx : Channel) : t.Alike (t.setUdpxTx tx) :=
  ⟨⟨rfl, rfl, rfl, rfl⟩, rfl, rfl⟩

theorem alike_sendPing (t : Tunnel) (elapsed : UInt64) (sent : Bool) :
    t.Alike (t.sendPing elapsed sent).2.1 := by
  unfold sendPing
  split
  · exact .refl t
  · split
    · exact ⟨⟨rfl, rfl, rfl, rfl⟩, rfl, rfl⟩
    · exact .refl t

theorem sameSetup_freeRequestTx (t : Tunnel) (reqIdx reqTag : UInt16) :
    t.SameSetup (t.freeRequestTx reqIdx reqTag) := by
  unfold freeRequestTx
  split
  · exact .refl t
  · split
    · exact ⟨rfl, rfl, rfl, rfl⟩
    · exact .refl t

theorem sameSetup_onPong {t t' : Tunnel} {bs : Bytes} {elapsed : UInt64}
    (h : t.onPong bs elapsed = some t') : t.SameSetup t' := by
  unfold onPong at h
  simp only [Option.bind_eq_bind, Option.bind_eq_some_iff] at h
  obtain ⟨sample, _, h⟩ := h
  cases sample with
  | none =>
      cases h
      exact .refl t
  | some sample =>
      cases h
      exact ⟨rfl, rfl, rfl, rfl⟩

/-- No frame of the server changes what a tunnel was connected with. -/
theorem sameSetup_onTunnelMsg {t t' : Tunnel} {msg : RMessage} {elapsed : UInt64}
    {effects : List Effect} (h : t.onTunnelMsg msg elapsed = some (t', effects)) :
    t.SameSetup t' := by
  obtain ⟨b, hcase⟩ := onTunnelMsg_cases h
  have hbusy : t.SameSetup { t with busy := b } := ⟨rfl, rfl, rfl, rfl⟩
  cases hcase with
  | data _ _ => exact hbusy
  | finished _ _ => exact hbusy.trans (sameSetup_freeRequestTx _ _ _)
  | closed _ _ => exact ⟨rfl, rfl, rfl, rfl⟩
  | pong _ hpong => exact hbusy.trans (sameSetup_onPong hpong)
  | other _ _ _ => exact hbusy

/-- A request changes nothing that a tunnel was connected with, and its stub has the quota. -/
theorem sameSetup_onRequestCreated (t : Tunnel) (req : Request) (ip : IpAddr) (port : UInt16) :
    t.SameSetup (t.onRequestCreated req ip port).1 ∧
      ∀ tun, (t.onRequestCreated req ip port).2.1 = some tun →
        tun.requestQuota = t.requestQuota := by
  unfold onRequestCreated onRequestCreatedInternal
  dsimp only
  split
  · rename_i t' ts heq
    split at heq
    · cases heq
      refine ⟨⟨rfl, rfl, rfl, rfl⟩, ?_⟩
      intro tun htun
      cases htun
      rfl
    · cases heq
  · rename_i t' heq
    split at heq
    · cases heq
    · cases heq
      exact ⟨⟨rfl, rfl, rfl, rfl⟩, by simp⟩

/-- What an input that is no request does to a tunnel. -/
inductive Did (x : MgrInput) (t : Tunnel) : Tunnel → Prop where
  | nothing {t' : Tunnel} : t.Alike t' → Did x t t'
  | closed {ts : TunStub} : x = .requestClosed ts → Did x t (t.onRequestClosed ts).1
  | message {t' : Tunnel} {index : Nat} {msg : RMessage} {elapsed : UInt64}
      {effects : List Effect} : x = .tunnelMsg index msg elapsed →
      t.onTunnelMsg msg elapsed = some (t', effects) → Did x t t'

end Tunnel

namespace TunMgr

/-- The tunnels of `m'` are tunnels of `m`, each after something that `R` allows. -/
def Evolves (R : Tunnel → Tunnel → Prop) (m m' : TunMgr) : Prop :=
  ∀ index t', m'.getTunnel index = some t' → ∃ t, m.getTunnel index = some t ∧ R t t'

theorem getTunnel_setTunnel (m : TunMgr) (index i : Nat) (t : Option Tunnel) :
    (m.setTunnel index t).getTunnel i =
      if index = i then (if i < m.tunnels.length then t else none) else m.getTunnel i := by
  unfold getTunnel
  change (m.tunnels.set index t)[i]?.join = _
  rw [List.getElem?_set]
  by_cases h : index = i
  · subst h
    simp only [if_true]
    split <;> rfl
  · simp [h]

theorem getTunnel_mapTunnels (m : TunMgr) (f : Tunnel → Tunnel) (i : Nat) :
    (m.mapTunnels f).getTunnel i = (m.getTunnel i).map f := by
  unfold getTunnel
  change (m.tunnels.map (Option.map f))[i]?.join = _
  rw [List.getElem?_map]
  cases m.tunnels[i]? <;> rfl

/-- A manager that has just started has no tunnels. -/
theorem getTunnel_new (tunnelCount : Nat) (cfg : TunCfg) (index : Nat) :
    (new tunnelCount cfg).getTunnel index = none := by
  unfold getTunnel new
  rw [List.getElem?_replicate]
  split <;> rfl

section Relations

variable {R S : Tunnel → Tunnel → Prop} {m m' m'' : TunMgr}

theorem Evolves.mono (h : m.Evolves R m') (hle : ∀ t t', R t t' → S t t') : m.Evolves S m' := by
  intro index t' ht'
  obtain ⟨t, ht, hR⟩ := h index t' ht'
  exact ⟨t, ht, hle t t' hR⟩

theorem Evolves.of_tunnels (hrefl : ∀ t, R t t) (h : m'.tunnels = m.tunnels) : m.Evolves R m' := by
  intro index t ht
  rw [getTunnel, h] at ht
  exact ⟨t, ht, hrefl t⟩

theorem Evolves.trans (htrans : ∀ t t' t'', R t t' → R t' t'' → R t t'') (h : m.Evolves R m')
    (h' : m'.Evolves R m'') : m.Evolves R m'' := by
  intro index t'' ht''
  obtain ⟨t', ht', hR'⟩ := h' index t'' ht''
  obtain ⟨t, ht, hR⟩ := h index t' ht'
  exact ⟨t, ht, htrans t t' t'' hR hR'⟩

theorem evolves_setTunnel (hrefl : ∀ t, R t t) {index : Nat} {t t' : Tunnel}
    (h : m.getTunnel index = some t) (hR : R t t') : m.Evolves R (m.setTunnel index (some t')) := by
  intro i u hu
  rw [getTunnel_setTunnel] at hu
  by_cases hi : index = i
  · rw [if_pos hi] at hu
    split at hu
    · cases hu
      exact ⟨t, hi ▸ h, hR⟩
    · cases hu
  · rw [if_neg hi] at hu
    exact ⟨u, hu, hrefl u⟩

theorem evolves_mapTunnels {f : Tunnel → Tunnel} (h : ∀ t, R t (f t)) :
    m.Evolves R (m.mapTunnels f) := by
  intro i u hu
  rw [getTunnel_mapTunnels, Option.map_eq_some_iff] at hu
  obtain ⟨t, ht, rfl⟩ := hu
  exact ⟨t, ht, h t⟩

end Relations

variable {m : TunMgr}

/-- A tunnel whose connection is gone leaves the table; the others stay as they are. -/
theorem evolves_onTunnelClosed {index : Nat} {r : TunMgr × Option Tunnel}
    (h : m.onTunnelClosed index = some r) : m.Evolves Tunnel.Alike r.1 := by
  have hgone : m.Evolves Tunnel.Alike (m.setTunnel index none) := by
    intro i u hu
    rw [getTunnel_setTunnel] at hu
    by_cases hi : index = i
    · rw [if_pos hi] at hu
      split at hu <;> cases hu
    · rw [if_neg hi] at hu
      exact ⟨u, hu, .refl u⟩
  unfold onTunnelClosed at h
  split at h
  · cases h
  · cases h
    exact .of_tunnels Tunnel.Alike.refl rfl
  · cases h
    dsimp only
    split
    · exact hgone
    · exact hgone.trans (fun _ _ _ => .trans) (.of_tunnels Tunnel.Alike.refl rfl)

/-- The end of a request's task reaches the tunnel that its stub names. -/
theorem evolves_onRequestClosed {ts : TunStub} {r : TunMgr × List Effect}
    (h : m.onRequestClosed ts = some r) :
    m.Evolves (fun t t' => t' = t ∨ t' = (t.onRequestClosed ts).1) r.1 := by
  unfold onRequestClosed at h
  split at h
  · cases h
  · cases h
    exact .of_tunnels (fun _ => .inl rfl) rfl
  · rename_i tun htun
    cases h
    exact evolves_setTunnel (fun _ => .inl rfl) (getTunnel_some.mpr htun) (.inr rfl)

/-- A tick leaves the requests of every tunnel alone. -/
theorem evolves_keepalive {parses : String → Bool} {sorter : Sorter}
    {elapsed : Channel → UInt64} {sent : Channel → Bool}
    {r : TunMgr × List ConnectTask × List MgrEffect}
    (h : m.keepalive parses sorter elapsed sent = some r) : m.Evolves Tunnel.Alike r.1 := by
  have hsame : ∀ {m m' : TunMgr}, m'.tunnels = m.tunnels → m.Evolves Tunnel.Alike m' :=
    fun htunnels => .of_tunnels Tunnel.Alike.refl htunnels
  unfold keepalive at h
  split at h
  · cases h
    exact hsame rfl
  · have horder : m.Evolves Tunnel.Alike (m.withOrder (sorter.sortBy m.compareBusy
        m.sortedTunIndies) (sorter.perm _ _)) := hsame rfl
    have hsort : m.Evolves Tunnel.Alike (m.sortTunnelsByBusy sorter) :=
      horder.trans (fun _ _ _ => .trans) (evolves_mapTunnels Tunnel.alike_resetBusy)
    have hpings := hsort.trans (fun _ _ _ => .trans) (evolves_mapTunnels fun t =>
      t.alike_sendPing (elapsed t.tx) (sent t.tx))
    simp only [Option.bind_eq_bind, Option.bind_eq_some_iff] at h
    obtain ⟨⟨m₂, tasks⟩, hre, hr⟩ := h
    rw [processReconnect_eq] at hre
    split at hre
    · cases hre
      unfold reportAccessLog at hr
      split at hr
      · cases hr
        exact hpings.trans (fun _ _ _ => .trans) (hsame rfl)
      · cases hr
        exact hpings.trans (fun _ _ _ => .trans) (hsame rfl)
    · cases hre

/-- What any input but a new request does to the tunnels. -/
theorem evolves_handle {parses : String → Bool} {sorter : Sorter} {x : MgrInput}
    {r : TunMgr × List ConnectTask} (hx : ∀ req ip port, x ≠ .requestCreated req ip port)
    (h : m.handle parses sorter x = some r) : m.Evolves (Tunnel.Did x) r.1 := by
  have hsame : ∀ {m' : TunMgr}, m'.tunnels = m.tunnels → m.Evolves (Tunnel.Did x) m' :=
    fun htunnels => .of_tunnels (fun t => .nothing (.refl t)) htunnels
  cases x with
  | keepalive elapsed sent =>
      simp only [handle, Option.map_eq_some_iff] at h
      obtain ⟨r', hr', rfl⟩ := h
      exact (evolves_keepalive hr').mono fun _ _ => .nothing
  | stop =>
      cases h
      unfold stop
      split
      · exact hsame rfl
      · exact hsame rfl
  | requestCreated req ip port => exact absurd rfl (hx req ip port)
  | requestClosed ts =>
      simp only [handle, Option.map_eq_some_iff] at h
      obtain ⟨r', hr', rfl⟩ := h
      refine (evolves_onRequestClosed hr').mono ?_
      rintro t t' (rfl | rfl)
      · exact .nothing (.refl _)
      · exact .closed rfl
  | tunnelMsg index msg elapsed =>
      simp only [handle, onTunnelMsg, Option.map_eq_some_iff, Option.bind_eq_bind,
        Option.bind_eq_some_iff, Option.some.injEq] at h
      obtain ⟨r', ⟨t, ht, ⟨t', effects⟩, hmsg, rfl⟩, rfl⟩ := h
      exact evolves_setTunnel (fun t => .nothing (.refl t)) ht (.message rfl hmsg)
  | logAccess peerAddr targetIp =>
      cases h
      exact hsame rfl
  | udpProxyNorth msg srcAddr dstAddr hashCode =>
      simp only [handle, Option.map_eq_some_iff] at h
      obtain ⟨r', hr', rfl⟩ := h
      unfold udpProxyNorth at hr'
      split at hr'
      · cases hr'
      · split at hr'
        · cases hr'
          exact hsame rfl
        · cases hr'
          exact hsame rfl
  | setUdpxTx tx =>
      cases h
      have htx : m.Evolves Tunnel.Alike { m with udpxTx := some tx } :=
        .of_tunnels Tunnel.Alike.refl rfl
      refine (htx.trans (fun _ _ _ => .trans) (evolves_mapTunnels fun t =>
        t.alike_setUdpxTx tx)).mono fun _ _ => .nothing

end TunMgr

end LproxyCv.Tunnels
