import LproxyCv.Foundation.Keeper
import LproxyCv.Tunnels.TunMgr

set_option autoImplicit false

/-!
# Tunnels: the tunnel manager and its tasks

The tunnel manager is a manager in the sense of `Foundation.Keeper`: its tasks
connect tunnels and serve them, and everything else that calls it is an input.  A
new configuration is not among the inputs: with an address that is not one, the
next attempt to connect would panic.
-/

namespace LproxyCv.Tunnels

open LproxyCv.Foundation LproxyCv.Lws LproxyCv.Net

/-- What calls the tunnel manager, beside the tasks of its tunnels. -/
inductive MgrInput where
  | keepalive (elapsed : Channel → UInt64) (sent : Channel → Bool)
  | stop
  | requestCreated (req : Request) (ip : IpAddr) (port : UInt16)
  | requestClosed (tunstub : TunStub)
  | tunnelMsg (index : Nat) (msg : RMessage) (elapsed : UInt64)
  | logAccess (peerAddr targetIp : IpAddr)
  | udpProxyNorth (msg : Bytes) (srcAddr dstAddr : SocketAddr) (hashCode : Nat)
  | setUdpxTx (tx : Channel)

namespace TunMgr

/-- An input, with the attempts to connect that it starts. -/
def handle (parses : String → Bool) (sorter : Sorter) (m : TunMgr) :
    MgrInput → Option (TunMgr × List ConnectTask)
  | .keepalive elapsed sent =>
      (m.keepalive parses sorter elapsed sent).map fun r => (r.1, r.2.1)
  | .stop => some (m.stop.1, [])
  | .requestCreated req ip port => some ((m.onRequestCreated req ip port).1, [])
  | .requestClosed tunstub => (m.onRequestClosed tunstub).map fun r => (r.1, [])
  | .tunnelMsg index msg elapsed => (m.onTunnelMsg index msg elapsed).map fun r => (r.1, [])
  | .logAccess peerAddr targetIp => some (m.logAccess peerAddr targetIp, [])
  | .udpProxyNorth msg srcAddr dstAddr hashCode =>
      (m.udpProxyNorth msg srcAddr dstAddr hashCode).map fun r => (r.1, [])
  | .setUdpxTx tx => some (m.setUdpxTx tx, [])

/-- The tunnel manager as its tasks see it. -/
def manager (parses : String → Bool) (sorter : Sorter) :
    Manager TunMgr ConnectTask (Channel × Int) MgrInput :=
  { index := ConnectTask.index
    connected := fun m task conn => m.onTunnelCreated (task.tunnel conn.1 conn.2)
    failed := fun m task => some (m.onTunnelBuildError task.index)
    ended := fun m index => (m.onTunnelClosed index).map Prod.fst
    input := handle parses sorter }

/-- Where the tunnel manager keeps its tunnels and what it has put off. -/
def view : View TunMgr :=
  { table := fun m => Manager.taken m.tunnels
    queue := fun m => m.reconnectQueue.map UInt16.toNat
    stopped := TunMgr.discarded }

/-- A keepalive tick. -/
def IsTick : MgrInput → Prop
  | .keepalive _ _ => True
  | _ => False

/-- Nothing that concerns the connections has changed. -/
structure Quiet (m m' : TunMgr) : Prop where
  table : Manager.taken m'.tunnels = Manager.taken m.tunnels
  queue : m'.reconnectQueue = m.reconnectQueue
  discarded : m'.discarded = m.discarded
  wsUrl : m'.wsUrl = m.wsUrl

theorem Quiet.refl (m : TunMgr) : Quiet m m := ⟨rfl, rfl, rfl, rfl⟩

theorem Quiet.trans {m m' m'' : TunMgr} (h : Quiet m m') (h' : Quiet m' m'') : Quiet m m'' :=
  ⟨h'.table.trans h.table, h'.queue.trans h.queue, h'.discarded.trans h.discarded,
    h'.wsUrl.trans h.wsUrl⟩

theorem getTunnel_some {m : TunMgr} {index : Nat} {tun : Tunnel} :
    m.getTunnel index = some tun ↔ m.tunnels[index]? = some (some tun) := by
  rw [getTunnel, Option.join_eq_some_iff]

/-- A tunnel that changes stays where it is. -/
theorem quiet_setTunnel {m : TunMgr} {index : Nat} {tun : Tunnel}
    (h : m.getTunnel index = some tun) (tun' : Tunnel) :
    Quiet m (m.setTunnel index (some tun')) :=
  ⟨Manager.taken_set_some (getTunnel_some.mp h), rfl, rfl, rfl⟩

theorem quiet_mapTunnels (m : TunMgr) (f : Tunnel → Tunnel) : Quiet m (m.mapTunnels f) :=
  ⟨Manager.taken_map f, rfl, rfl, rfl⟩

/-- Handing out a tunnel moves the cursor and nothing else. -/
theorem allocTunnelForReq_some {m m' : TunMgr} {index : Nat} {tun : Tunnel}
    (h : m.allocTunnelForReq = some (index, tun, m')) :
    m.getTunnel index = some tun ∧ m'.tunnels = m.tunnels ∧ Quiet m m' := by
  unfold allocTunnelForReq at h
  split at h
  · cases h
  · rename_i n index tun hfind
    cases h
    exact ⟨(positions_some hfind).2, rfl, ⟨rfl, rfl, rfl, rfl⟩⟩

theorem onRequestCreated_quiet (m : TunMgr) (req : Request) (ip : IpAddr) (port : UInt16) :
    Quiet m (m.onRequestCreated req ip port).1 := by
  unfold onRequestCreated
  split
  · exact .refl m
  · split
    · exact .refl m
    · rename_i index tun m' halloc
      obtain ⟨htun, htunnels, hquiet⟩ := allocTunnelForReq_some halloc
      have htun' : m'.getTunnel index = some tun := by
        rw [getTunnel, htunnels]
        exact htun
      exact hquiet.trans (quiet_setTunnel htun' _)

theorem onRequestClosed_quiet {m : TunMgr} {tunstub : TunStub} {r : TunMgr × List Effect}
    (h : m.onRequestClosed tunstub = some r) : Quiet m r.1 := by
  unfold onRequestClosed at h
  split at h
  · cases h
  · cases h
    exact .refl m
  · rename_i tun htun
    cases h
    exact quiet_setTunnel (getTunnel_some.mpr htun) _

theorem onTunnelMsg_quiet {m : TunMgr} {index : Nat} {msg : RMessage} {elapsed : UInt64}
    {r : TunMgr × List Effect} (h : m.onTunnelMsg index msg elapsed = some r) : Quiet m r.1 := by
  unfold onTunnelMsg at h
  simp only [Option.bind_eq_bind, Option.bind_eq_some_iff, Option.some.injEq] at h
  obtain ⟨tun, htun, ⟨tun', effects⟩, _, rfl⟩ := h
  exact quiet_setTunnel htun tun'

theorem udpProxyNorth_quiet {m : TunMgr} {msg : Bytes} {srcAddr dstAddr : SocketAddr}
    {hashCode : Nat} {r : TunMgr × List Effect}
    (h : m.udpProxyNorth msg srcAddr dstAddr hashCode = some r) : Quiet m r.1 := by
  unfold udpProxyNorth at h
  split at h
  · cases h
  · split at h
    · cases h
      exact .refl m
    · cases h
      exact ⟨rfl, rfl, rfl, rfl⟩

/-- Sorting and pinging leave every tunnel in its place. -/
theorem sendPings_quiet (m : TunMgr) (sorter : Sorter) (elapsed : Channel → UInt64)
    (sent : Channel → Bool) : Quiet m ((m.sortTunnelsByBusy sorter).sendPings elapsed sent).1 := by
  have horder : Quiet m (m.withOrder (sorter.sortBy m.compareBusy m.sortedTunIndies)
      (sorter.perm _ _)) := ⟨rfl, rfl, rfl, rfl⟩
  have hsort : Quiet m (m.sortTunnelsByBusy sorter) :=
    horder.trans (quiet_mapTunnels _ Tunnel.resetBusy)
  exact hsort.trans (quiet_mapTunnels _ _)

/-- The attempts that were put off are all started, or none can be. -/
theorem processReconnect_eq (parses : String → Bool) (m : TunMgr) :
    m.processReconnect parses =
      if m.reconnectQueue = [] ∨ parses m.wsUrl = true then
        some ({ m with reconnectQueue := [] },
          (m.reconnectQueue.map UInt16.toNat).map m.connectTask)
      else none := by
  unfold processReconnect connect
  rw [Manager.mapM_if]
  simp only [List.map_eq_nil_iff]
  split <;> rfl

/-- A tick, of a manager that is not stopped, starts the attempts that were put
off. -/
theorem keepalive_some {parses : String → Bool} {sorter : Sorter} {m : TunMgr}
    {elapsed : Channel → UInt64} {sent : Channel → Bool}
    {r : TunMgr × List ConnectTask × List MgrEffect} (hrun : m.discarded = false)
    (h : m.keepalive parses sorter elapsed sent = some r) :
    r.1.discarded = false ∧ Manager.taken r.1.tunnels = Manager.taken m.tunnels ∧
      r.1.reconnectQueue = [] ∧ r.2.1.map ConnectTask.index = m.reconnectQueue.map UInt16.toNat ∧
      r.1.wsUrl = m.wsUrl := by
  have hquiet := sendPings_quiet m sorter elapsed sent
  unfold keepalive at h
  simp only [hrun, Bool.false_eq_true, if_false, Option.bind_eq_bind, Option.bind_eq_some_iff] at h
  obtain ⟨⟨m₂, tasks⟩, hre, hr⟩ := h
  rw [processReconnect_eq] at hre
  split at hre
  · cases hre
    have hrun' := hquiet.discarded.trans hrun
    have htasks := List.map_id (m.reconnectQueue.map UInt16.toNat)
    rw [← hquiet.queue] at htasks
    unfold reportAccessLog at hr
    split at hr
    · cases hr
      exact ⟨hrun', hquiet.table, rfl, by rw [List.map_map, ← hquiet.queue]; exact htasks,
        hquiet.wsUrl⟩
    · cases hr
      exact ⟨hrun', hquiet.table, rfl, by rw [List.map_map, ← hquiet.queue]; exact htasks,
        hquiet.wsUrl⟩
  · cases hre

/-- A tick panics for an address that is not one, if there is an attempt to
start, and never else. -/
theorem keepalive_ne_none {parses : String → Bool} {sorter : Sorter} {m : TunMgr}
    {elapsed : Channel → UInt64} {sent : Channel → Bool} (hrun : m.discarded = false)
    (h : m.reconnectQueue = [] ∨ parses m.wsUrl = true) :
    m.keepalive parses sorter elapsed sent ≠ none := by
  have hquiet := sendPings_quiet m sorter elapsed sent
  rw [← hquiet.queue, ← hquiet.wsUrl] at h
  unfold keepalive
  simp [hrun, processReconnect_eq, h]

/-! ## The manager keeps its tunnels -/

/-- The address of the manager is one, unless it never connects. -/
def Ready (parses : String → Bool) (n : Nat) (m : TunMgr) : Prop :=
  0 < n → parses m.wsUrl = true

/-- An index is put off as it is, although the queue is one of 16-bit numbers. -/
theorem queue_later {m : TunMgr} {n i : Nat} (hn : n ≤ 65536) (hi : i < n) :
    view.queue (m.reconnectLater i) = i :: view.queue m := by
  have hindex : (UInt16.ofNat i).toNat = i := by
    rw [UInt16.toNat_ofNat']
    exact Nat.mod_eq_of_lt (by omega)
  exact congrArg (· :: view.queue m) hindex

/-- A quiet input is one that leaves the connections alone. -/
theorem Quiet.turn {parses : String → Bool} {sorter : Sorter} {m m' : TunMgr} (h : Quiet m m') :
    (manager parses sorter).Turn view m m' [] :=
  .idle h.table (congrArg (List.map UInt16.toNat) h.queue) h.discarded rfl

theorem Quiet.ready {parses : String → Bool} {m m' : TunMgr} {n : Nat} (h : Quiet m m')
    (hready : Ready parses n m) : Ready parses n m' := by
  intro hpos
  rw [h.wsUrl]
  exact hready hpos

/-- An input that is neither a tick nor the end leaves the connections alone and starts
nothing. -/
theorem handle_quiet {parses : String → Bool} {sorter : Sorter} {m m' : TunMgr} {x : MgrInput}
    {tasks : List ConnectTask} (htick : ¬ IsTick x) (hstop : x ≠ .stop)
    (h : handle parses sorter m x = some (m', tasks)) : Quiet m m' ∧ tasks = [] := by
  cases x with
  | keepalive elapsed sent => exact absurd trivial htick
  | stop => exact absurd rfl hstop
  | requestCreated req ip port =>
      cases h
      exact ⟨onRequestCreated_quiet m req ip port, rfl⟩
  | requestClosed tunstub =>
      simp only [handle, Option.map_eq_some_iff] at h
      obtain ⟨r, hr, heq⟩ := h
      cases heq
      exact ⟨onRequestClosed_quiet hr, rfl⟩
  | tunnelMsg index msg elapsed =>
      simp only [handle, Option.map_eq_some_iff] at h
      obtain ⟨r, hr, heq⟩ := h
      cases heq
      exact ⟨onTunnelMsg_quiet hr, rfl⟩
  | logAccess peerAddr targetIp =>
      cases h
      exact ⟨⟨rfl, rfl, rfl, rfl⟩, rfl⟩
  | udpProxyNorth msg srcAddr dstAddr hashCode =>
      simp only [handle, Option.map_eq_some_iff] at h
      obtain ⟨r, hr, heq⟩ := h
      cases heq
      exact ⟨udpProxyNorth_quiet hr, rfl⟩
  | setUdpxTx tx =>
      cases h
      have htx : Quiet m { m with udpxTx := some tx } := ⟨rfl, rfl, rfl, rfl⟩
      exact ⟨htx.trans (quiet_mapTunnels _ fun t => t.setUdpxTx tx), rfl⟩

/-- What each call does to the tunnel manager. -/
theorem keeps (parses : String → Bool) (sorter : Sorter) {n : Nat} (hn : n ≤ 65536) :
    (manager parses sorter).Keeps view n (Ready parses n) IsTick where
  connected := by
    rintro m task ⟨tx, rawfd⟩ hready hrun hfree
    have hslot : m.tunnels[(task.tunnel tx rawfd).index]? = some none := Manager.taken_false hfree
    obtain ⟨udpxTx, hok⟩ := onTunnelCreated_free hrun hslot
    exact ⟨_, hok, hready, Manager.taken_set _, rfl, hrun⟩
  refused := by
    intro m task conn _ hstop
    exact onTunnelCreated_discarded hstop _
  failed := by
    intro m task hready hrun hlt
    refine ⟨m.reconnectLater task.index, ?_, hready, rfl, queue_later hn hlt, hrun⟩
    exact congrArg some (if_neg (Bool.eq_false_iff.mp hrun))
  abandoned := by
    intro m task _ hstop
    exact congrArg some (if_pos hstop)
  ended := by
    intro m i hready htaken hlt
    obtain ⟨tun, htun⟩ := Manager.taken_true htaken
    have hok := congrArg (Option.map Prod.fst) (onTunnelClosed_present htun)
    cases hstop : m.discarded with
    | false =>
        rw [hstop, if_neg Bool.false_ne_true] at hok
        exact ⟨_, hok, hready, Manager.taken_set none, fun _ => queue_later hn hlt, rfl⟩
    | true =>
        rw [hstop, if_pos rfl] at hok
        refine ⟨_, hok, hready, Manager.taken_set none, ?_, rfl⟩
        intro hrun
        change m.discarded = false at hrun
        rw [hstop] at hrun
        cases hrun
  input := by
    intro m m' x tasks hready hcall
    change handle parses sorter m x = some (m', tasks) at hcall
    cases x with
    | keepalive elapsed sent =>
        simp only [handle, Option.map_eq_some_iff] at hcall
        obtain ⟨r, hr, heq⟩ := hcall
        cases heq
        cases hrun : m.discarded with
        | true =>
            simp only [keepalive, hrun, if_true] at hr
            cases hr
            exact ⟨hready, (Quiet.refl m).turn⟩
        | false =>
            obtain ⟨hrun', htable, hqueue, htasks, hurl⟩ := keepalive_some hrun hr
            refine ⟨fun hpos => by rw [hurl]; exact hready hpos, ?_⟩
            exact .retry hrun hrun' htable (congrArg (List.map UInt16.toNat) hqueue) htasks
    | stop =>
        cases hrun : m.discarded with
        | true =>
            simp only [handle, stop, hrun, if_true] at hcall
            cases hcall
            exact ⟨hready, (Quiet.refl m).turn⟩
        | false =>
            simp only [handle, stop, hrun, Bool.false_eq_true, if_false] at hcall
            cases hcall
            exact ⟨hready, .stop rfl rfl rfl rfl⟩
    | _ =>
        obtain ⟨hquiet, rfl⟩ := handle_quiet id (by simp) hcall
        exact ⟨hquiet.ready hready, hquiet.turn⟩
  ticks := by
    intro m x hready hqueue htick hnone
    cases x with
    | keepalive elapsed sent =>
        change handle parses sorter m (.keepalive elapsed sent) = none at hnone
        rw [handle, Option.map_eq_none_iff] at hnone
        cases hrun : m.discarded with
        | true =>
            simp [keepalive, hrun] at hnone
        | false =>
            refine keepalive_ne_none hrun ?_ hnone
            cases hq : m.reconnectQueue with
            | nil => exact .inl rfl
            | cons i rest =>
                have hlt := hqueue hrun i.toNat (by simp [view, hq])
                exact .inr (hready (Nat.zero_lt_of_lt hlt))
    | _ => exact htick

/-- The attempts that a manager starts with are one for each tunnel. -/
theorem init_start {parses : String → Bool} {sorter : Sorter} {n : Nat} {cfg : TunCfg}
    {trigger : Trigger} {m : TunMgr} {tasks : List ConnectTask}
    (h : (new n cfg).init parses trigger = some (m, tasks)) :
    Ready parses n m ∧
      Lifecycle.Placed n ((manager parses sorter).lifecycle view (Manager.start m tasks)) := by
  unfold init connect at h
  rw [Manager.mapM_if] at h
  split at h
  · rename_i hready
    cases h
    refine ⟨?_, Manager.placed_start (List.map_replicate) rfl rfl ?_⟩
    · intro hpos
      rcases hready with hnil | hready
      · have hzero : n = 0 := List.range_eq_nil.mp hnil
        omega
      · exact hready
    · exact (List.map_map).trans (List.map_id _)
  · cases h

end TunMgr

end LproxyCv.Tunnels
