import LproxyCv.Tunnels.Tunnel
import Mathlib.Data.List.Sort

set_option autoImplicit false

/-!
# Tunnels: the tunnel manager

The manager keeps a table of tunnels, hands requests to them in turn, and has
lost tunnels rebuilt at the next keepalive tick.  Two things it calls are not its
own: `sortBy` is the sort of the standard library, and `parses` tells whether the
`url` crate accepts an address.  As in `Tunnel`, `none` is a panic.

The queue of tunnels to rebuild is a stack with its top at the head.  The access
log is a set; it is drained in any order.
-/

namespace LproxyCv.Tunnels

open LproxyCv.Foundation LproxyCv.Lws LproxyCv.Net

/-- The part of the server's configuration that the managers read. -/
structure TunCfg where
  tunnelUrl : String
  tunnelReqCap : Nat
  relayDomain : String
  relayPort : UInt16
  dnsTunnelNumber : Nat
  defaultDnsServer : String
  requestQuota : Nat
  xportUrl : String
  token : String
  deriving DecidableEq

/-- The sort of the standard library: whatever the comparison, the result is a
permutation. -/
structure Sorter where
  sortBy : (UInt16 → UInt16 → Ordering) → List UInt16 → List UInt16
  perm : ∀ cmp l, (sortBy cmp l).Perm l

/-- The stable sort that inserts each element in its turn. -/
def Sorter.insertion : Sorter :=
  { sortBy := fun cmp => List.insertionSort fun x y => cmp x y ≠ .gt
    perm := fun _ => List.perm_insertionSort _ }

/-- The tunnel manager. -/
structure TunMgr where
  relayDomain : String
  relayPort : UInt16
  url : String
  capacity : Nat
  tunnelReqCap : Nat
  requestQuota : UInt16
  dnsServer : String
  tunnels : List (Option Tunnel)
  sortedTunIndies : List UInt16
  currentTunIdx : UInt16
  reconnectQueue : List UInt16
  discarded : Bool
  keepaliveTrigger : Option Trigger
  token : String
  udpxTx : Option Channel
  accessLog : List (IpAddr × IpAddr)
  sorted_lt : ∀ i ∈ sortedTunIndies, i.toNat < tunnels.length
  current_le : currentTunIdx.toNat ≤ sortedTunIndies.length
  deriving DecidableEq

/-- What an attempt to connect a tunnel takes from the manager. -/
structure ConnectTask where
  index : Nat
  relayDomain : String
  relayPort : UInt16
  wsUrl : String
  tunnelReqCap : Nat
  requestQuota : UInt16
  dnsServer : String
  deriving DecidableEq

/-- The tunnel of an attempt that has succeeded. -/
def ConnectTask.tunnel (task : ConnectTask) (tx : Channel) (rawfd : Int) : Tunnel :=
  Tunnel.new tx rawfd task.index task.tunnelReqCap task.requestQuota

/-- What the manager does to its surroundings. -/
inductive MgrEffect where
  | tunnel (effect : Effect)
  | accessLog (log : List (IpAddr × IpAddr))
  deriving DecidableEq

namespace TunMgr

theorem toNat_ofNat_le (n : Nat) : (UInt16.ofNat n).toNat ≤ n := by
  rw [UInt16.toNat_ofNat']
  exact Nat.mod_le n _

/-- A manager without tunnels. -/
def new (tunnelCount : Nat) (cfg : TunCfg) : TunMgr :=
  { relayDomain := cfg.relayDomain
    relayPort := cfg.relayPort
    url := cfg.tunnelUrl
    capacity := tunnelCount
    tunnelReqCap := cfg.tunnelReqCap
    requestQuota := UInt16.ofNat cfg.requestQuota
    dnsServer := cfg.defaultDnsServer
    tunnels := List.replicate tunnelCount none
    sortedTunIndies := (List.range tunnelCount).map UInt16.ofNat
    currentTunIdx := 0
    reconnectQueue := []
    discarded := false
    keepaliveTrigger := none
    token := cfg.token
    udpxTx := none
    accessLog := []
    sorted_lt := by
      intro i hi
      obtain ⟨n, hn, rfl⟩ := List.mem_map.mp hi
      rw [List.length_replicate]
      exact Nat.lt_of_le_of_lt (toNat_ofNat_le n) (List.mem_range.mp hn)
    current_le := Nat.zero_le _ }

/-- Put other tunnels in the places of the table. -/
def withTunnels (m : TunMgr) (tunnels : List (Option Tunnel))
    (hlen : tunnels.length = m.tunnels.length) : TunMgr :=
  { m with
    tunnels := tunnels
    sorted_lt := fun i hi => by
      rw [hlen]
      exact m.sorted_lt i hi }

/-- Put a tunnel in its place, or empty the place. -/
def setTunnel (m : TunMgr) (index : Nat) (t : Option Tunnel) : TunMgr :=
  m.withTunnels (m.tunnels.set index t) List.length_set

/-- Do something to each tunnel. -/
def mapTunnels (m : TunMgr) (f : Tunnel → Tunnel) : TunMgr :=
  m.withTunnels (m.tunnels.map (Option.map f)) (List.length_map _)

/-- The tunnels there are. -/
def liveTunnels (m : TunMgr) : List Tunnel := m.tunnels.filterMap id

/-- The tunnel at an index. -/
def getTunnel (m : TunMgr) (index : Nat) : Option Tunnel := m.tunnels[index]?.join

/-! ## Connecting -/

/-- The address that a tunnel connects to. -/
def wsUrl (m : TunMgr) : String :=
  s!"{m.url}?tok={m.token}&cap={m.tunnelReqCap}&quota={m.requestQuota}"

/-- What an attempt to connect takes along. -/
def connectTask (m : TunMgr) (index : Nat) : ConnectTask :=
  { index := index
    relayDomain := m.relayDomain
    relayPort := m.relayPort
    wsUrl := m.wsUrl
    tunnelReqCap := m.tunnelReqCap
    requestQuota := m.requestQuota
    dnsServer := m.dnsServer }

/-- Start an attempt to connect.  An address that is not one is a panic. -/
def connect (parses : String → Bool) (m : TunMgr) (index : Nat) : Option ConnectTask :=
  if parses m.wsUrl then some (m.connectTask index) else none

/-- Start the attempts for all tunnels, and the timer. -/
def init (parses : String → Bool) (m : TunMgr) (trigger : Trigger) :
    Option (TunMgr × List ConnectTask) := do
  let tasks ← (List.range m.capacity).mapM (m.connect parses)
  some ({ m with keepaliveTrigger := some trigger }, tasks)

/-- Take over a new configuration. -/
def updateTuncfg (m : TunMgr) (cfg : TunCfg) : TunMgr :=
  { m with
    url := cfg.tunnelUrl
    relayDomain := cfg.relayDomain
    relayPort := cfg.relayPort
    requestQuota := UInt16.ofNat cfg.requestQuota }

/-- A tunnel is connected.  A manager that is stopped does not take it; a tunnel
that is already there is a panic. -/
def onTunnelCreated (m : TunMgr) (tun : Tunnel) : Option (Bool × TunMgr) :=
  if m.discarded then some (false, m)
  else
    match m.tunnels[tun.index]? with
    | none => none
    | some (some _) => none
    | some none =>
        let udpx :=
          match m.udpxTx with
          | some tx => tun.setUdpxTx tx
          | none => tun
        some (true, m.setTunnel tun.index (some udpx))

/-- Have a tunnel connected at the next tick. -/
def reconnectLater (m : TunMgr) (index : Nat) : TunMgr :=
  { m with reconnectQueue := UInt16.ofNat index :: m.reconnectQueue }

/-- The connection of a tunnel is gone.  The tunnel, if it is there, leaves the
table with its requests closed. -/
def onTunnelClosed (m : TunMgr) (index : Nat) : Option (TunMgr × Option Tunnel) :=
  match m.tunnels[index]? with
  | none => none
  | some none => some (m, none)
  | some (some t) =>
      let m' := m.setTunnel index none
      some (if m.discarded then m' else m'.reconnectLater index, some t.onClosed)

/-- A tunnel could not be connected. -/
def onTunnelBuildError (m : TunMgr) (index : Nat) : TunMgr :=
  if m.discarded then m else m.reconnectLater index

theorem onTunnelCreated_discarded {m : TunMgr} (h : m.discarded = true) (tun : Tunnel) :
    m.onTunnelCreated tun = some (false, m) := by
  simp [onTunnelCreated, h]

/-- A tunnel finds its place free. -/
theorem onTunnelCreated_free {m : TunMgr} {tun : Tunnel} (hrun : m.discarded = false)
    (hfree : m.tunnels[tun.index]? = some none) :
    ∃ udpxTx, m.onTunnelCreated tun =
      some (true, m.setTunnel tun.index (some { tun with udpxTx := udpxTx })) := by
  cases hudpx : m.udpxTx with
  | none => exact ⟨tun.udpxTx, by simp [onTunnelCreated, hrun, hfree, hudpx]⟩
  | some tx => exact ⟨some tx, by simp [onTunnelCreated, hrun, hfree, hudpx, Tunnel.setUdpxTx]⟩

/-- A tunnel is refused, or put in its place. -/
theorem onTunnelCreated_cases {m : TunMgr} {tun : Tunnel} {r : Bool × TunMgr}
    (h : m.onTunnelCreated tun = some r) :
    r = (false, m) ∨
      ∃ udpxTx, r = (true, m.setTunnel tun.index (some { tun with udpxTx := udpxTx })) := by
  cases hrun : m.discarded with
  | true =>
      rw [onTunnelCreated_discarded hrun] at h
      cases h
      exact .inl rfl
  | false =>
      cases hfree : m.tunnels[tun.index]? with
      | none => simp [onTunnelCreated, hrun, hfree] at h
      | some place =>
          cases place with
          | some other => simp [onTunnelCreated, hrun, hfree] at h
          | none =>
              obtain ⟨udpxTx, hok⟩ := onTunnelCreated_free hrun hfree
              rw [hok] at h
              cases h
              exact .inr ⟨udpxTx, rfl⟩

theorem onTunnelClosed_present {m : TunMgr} {index : Nat} {t : Tunnel}
    (h : m.tunnels[index]? = some (some t)) :
    m.onTunnelClosed index =
      some (if m.discarded then m.setTunnel index none
        else (m.setTunnel index none).reconnectLater index, some t.onClosed) := by
  simp [onTunnelClosed, h]

/-- Start the attempts that have been put off. -/
def processReconnect (parses : String → Bool) (m : TunMgr) : Option (TunMgr × List ConnectTask) := do
  let tasks ← (m.reconnectQueue.map UInt16.toNat).mapM (m.connect parses)
  some ({ m with reconnectQueue := [] }, tasks)

/-! ## Requests -/

/-- The tunnel at a position of the order, if it can take another request: the
position, the index and the tunnel. -/
def eligible (m : TunMgr) (n : Nat) : Option (Nat × Nat × Tunnel) :=
  match m.sortedTunIndies[n]? with
  | none => none
  | some tunIdx =>
      match m.getTunnel tunIdx.toNat with
      | none => none
      | some tun =>
          if tun.reqCount + 1 ≥ tun.capacity then none else some (n, tunIdx.toNat, tun)

/-- The positions from the cursor on, and then those before it. -/
def positions (m : TunMgr) : List Nat :=
  let current := m.currentTunIdx.toNat
  List.range' current (m.sortedTunIndies.length - current) ++ List.range current

theorem eligible_some {m : TunMgr} {n : Nat} {r : Nat × Nat × Tunnel}
    (h : m.eligible n = some r) :
    r.1 = n ∧ n < m.sortedTunIndies.length ∧ m.getTunnel r.2.1 = some r.2.2 := by
  unfold eligible at h
  split at h
  · cases h
  · rename_i tunIdx hidx
    split at h
    · cases h
    · rename_i tun htun
      split at h
      · cases h
      · cases h
        exact ⟨rfl, (List.getElem?_eq_some_iff.mp hidx).1, htun⟩

theorem positions_some {m : TunMgr} {r : Nat × Nat × Tunnel}
    (h : m.positions.findSome? m.eligible = some r) :
    r.1 < m.sortedTunIndies.length ∧ m.getTunnel r.2.1 = some r.2.2 := by
  obtain ⟨n, _, hn⟩ := List.exists_of_findSome?_eq_some h
  obtain ⟨heq, hlt, htun⟩ := eligible_some hn
  exact ⟨heq ▸ hlt, htun⟩

/-- The next tunnel that can take a request; the cursor moves behind it. -/
def allocTunnelForReq (m : TunMgr) : Option (Nat × Tunnel × TunMgr) :=
  match h : m.positions.findSome? m.eligible with
  | none => none
  | some (n, index, tun) =>
      some (index, tun,
        { m with
          currentTunIdx := UInt16.ofNat ((n + 1) % m.sortedTunIndies.length)
          current_le :=
            Nat.le_trans (toNat_ofNat_le _)
              (Nat.le_of_lt (Nat.mod_lt _ (Nat.zero_lt_of_lt (positions_some h).1))) })

/-- A new request. -/
def onRequestCreated (m : TunMgr) (req : Request) (ip : IpAddr) (port : UInt16) :
    TunMgr × Option TunStub × List Effect :=
  if m.discarded then (m, none, [])
  else
    match m.allocTunnelForReq with
    | none => (m, none, [])
    | some (index, tun, m') =>
        let r := tun.onRequestCreated req ip port
        (m'.setTunnel index (some r.1), r.2.1, r.2.2)

/-- The task of a request has ended. -/
def onRequestClosed (m : TunMgr) (tunstub : TunStub) : Option (TunMgr × List Effect) :=
  match m.tunnels[tunstub.tunIdx.toNat]? with
  | none => none
  | some none => some (m, [])
  | some (some tun) =>
      let r := tun.onRequestClosed tunstub
      some (m.setTunnel tunstub.tunIdx.toNat (some r.1), r.2)

/-! ## Keepalive -/

/-- The order of two tunnels: by how much they have carried; a missing one equals
every other. -/
def compareBusy (m : TunMgr) (x y : UInt16) : Ordering :=
  match m.getTunnel x.toNat, m.getTunnel y.toNat with
  | some tun1, some tun2 => compare tun1.busy tun2.busy
  | _, _ => .eq

/-- Put the tunnels in another order. -/
def withOrder (m : TunMgr) (sorted : List UInt16) (hperm : sorted.Perm m.sortedTunIndies) :
    TunMgr :=
  { m with
    sortedTunIndies := sorted
    sorted_lt := fun i hi => m.sorted_lt i (hperm.mem_iff.mp hi)
    current_le := by
      rw [hperm.length_eq]
      exact m.current_le }

/-- Order the tunnels by what they have carried, and forget it. -/
def sortTunnelsByBusy (sorter : Sorter) (m : TunMgr) : TunMgr :=
  (m.withOrder (sorter.sortBy m.compareBusy m.sortedTunIndies)
    (sorter.perm _ _)).mapTunnels Tunnel.resetBusy

/-- What pinging a tunnel does: one that has not answered for too long is shut
down. -/
def pingEffects (elapsed : Channel → UInt64) (sent : Channel → Bool) (t : Tunnel) : List Effect :=
  let r := t.sendPing (elapsed t.tx) (sent t.tx)
  if r.1 then r.2.2 else r.2.2 ++ [r.2.1.closeRawfd]

/-- Ping all tunnels.  `elapsed` is the clock of a tunnel, and `sent` tells whether
its channel still has a receiver. -/
def sendPings (m : TunMgr) (elapsed : Channel → UInt64) (sent : Channel → Bool) :
    TunMgr × List Effect :=
  (m.mapTunnels fun t => (t.sendPing (elapsed t.tx) (sent t.tx)).2.1,
    m.liveTunnels.flatMap (pingEffects elapsed sent))

/-- Report the accesses since the last report. -/
def reportAccessLog (m : TunMgr) : TunMgr × List MgrEffect :=
  if m.accessLog.length < 1 then (m, [])
  else ({ m with accessLog := [] }, [.accessLog m.accessLog])

/-- A keepalive tick. -/
def keepalive (parses : String → Bool) (sorter : Sorter) (m : TunMgr)
    (elapsed : Channel → UInt64) (sent : Channel → Bool) :
    Option (TunMgr × List ConnectTask × List MgrEffect) :=
  if m.discarded then some (m, [], [])
  else do
    let (m, pings) := (m.sortTunnelsByBusy sorter).sendPings elapsed sent
    let (m, tasks) ← m.processReconnect parses
    let (m, report) := m.reportAccessLog
    some (m, tasks, pings.map .tunnel ++ report)

/-- Stop: no tunnel is taken or rebuilt any more, and all are shut down. -/
def stop (m : TunMgr) : TunMgr × List Effect :=
  if m.discarded then (m, [])
  else
    ({ m with discarded := true, keepaliveTrigger := none },
      m.liveTunnels.map Tunnel.closeRawfd)

/-! ## Accesses and UDP -/

/-- Remember an access. -/
def logAccess (m : TunMgr) (peerAddr targetIp : IpAddr) : TunMgr :=
  { m with accessLog := m.accessLog.insert (peerAddr, targetIp) }

/-- A UDP packet for the server goes through the tunnel that its hash selects. -/
def udpProxyNorth (m : TunMgr) (msg : Bytes) (srcAddr dstAddr : SocketAddr) (hashCode : Nat) :
    Option (TunMgr × List Effect) :=
  if m.tunnels.length = 0 then none
  else
    match m.getTunnel (hashCode % m.tunnels.length) with
    | none => some (m, [])
    | some tun => some (m.logAccess srcAddr.ip dstAddr.ip, [tun.udpProxyNorth msg srcAddr dstAddr])

/-- Connect the UDP proxy to all tunnels. -/
def setUdpxTx (m : TunMgr) (tx : Channel) : TunMgr :=
  { m with udpxTx := some tx }.mapTunnels fun t => t.setUdpxTx tx

/-- A frame of the server, read by the task of a tunnel.  The task and the table
share the tunnel. -/
def onTunnelMsg (m : TunMgr) (index : Nat) (msg : RMessage) (elapsed : UInt64) :
    Option (TunMgr × List Effect) := do
  let tun ← m.getTunnel index
  let (tun, effects) ← tun.onTunnelMsg msg elapsed
  some (m.setTunnel index (some tun), effects)

end TunMgr

end LproxyCv.Tunnels
