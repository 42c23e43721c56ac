import LproxyCv.Dns.Forwarder
import LproxyCv.Foundation.Keeper

set_option autoImplicit false

/-!
# Dns: the forwarder and its tasks

The forwarder is a manager in the sense of `Foundation.Keeper`.  DNS messages
leave its tunnels as they are, and are not among the inputs.
-/

namespace LproxyCv.Dns

open LproxyCv.Foundation LproxyCv.Lws LproxyCv.Tunnels

/-- What calls the forwarder, beside the tasks of its tunnels. -/
inductive FwdInput where
  | keepalive (elapsed : Channel → UInt64) (sent : Channel → Bool)
  | stop
  | pong (index : Nat) (bs : Bytes) (elapsed : UInt64)
  | lresolverUdpClosed

namespace Forwarder

/-- An input, with the attempts to connect that it starts. -/
def handle (parses : String → Bool) (f : Forwarder) :
    FwdInput → Option (Forwarder × List DnsConnectTask)
  | .keepalive elapsed sent => (f.keepalive parses elapsed sent).map fun r => (r.1, r.2.1)
  | .stop => some (f.stop.1, [])
  | .pong index bs elapsed => (f.onPong index bs elapsed).map fun f' => (f', [])
  | .lresolverUdpClosed => some (f.onLresolverUdpClosed, [])

/-- The forwarder as its tasks see it. -/
def manager (parses : String → Bool) :
    Manager Forwarder DnsConnectTask (Channel × Int) FwdInput :=
  { index := DnsConnectTask.index
    connected := fun f task conn => f.onTunnelCreated (task.tunnel conn.1 conn.2)
    failed := fun f task => some (f.onTunnelBuildError task.index)
    ended := fun f index => f.onTunnelClosed index
    input := handle parses }

/-- Where the forwarder keeps its tunnels and what it has put off. -/
def view : View Forwarder :=
  { table := fun f => Manager.taken f.tunnels
    queue := fun f => f.reconnectQueue.map UInt16.toNat
    stopped := Forwarder.discarded }

/-- A keepalive tick. -/
def IsTick : FwdInput → Prop
  | .keepalive _ _ => True
  | _ => False

/-- The address of the forwarder is one, unless it never connects. -/
def Ready (parses : String → Bool) (n : Nat) (f : Forwarder) : Prop :=
  0 < n → parses f.wsUrl = true

/-- An index is put off as it is, although the queue is one of 16-bit numbers. -/
theorem queue_later {f : Forwarder} {n i : Nat} (hn : n ≤ 65536) (hi : i < n) :
    view.queue (f.reconnectLater i) = i :: view.queue f := by
  have hindex : (UInt16.ofNat i).toNat = i := by
    rw [UInt16.toNat_ofNat']
    exact Nat.mod_eq_of_lt (by omega)
  exact congrArg (· :: view.queue f) hindex

theorem onTunnelCreated_free {f : Forwarder} {tun : DnsTunnel} (hrun : f.discarded = false)
    (hfree : f.tunnels[tun.index]? = some none) :
    f.onTunnelCreated tun = some (true, f.setTunnel tun.index (some tun)) := by
  simp [onTunnelCreated, hrun, hfree]

theorem onTunnelCreated_discarded {f : Forwarder} (h : f.discarded = true) (tun : DnsTunnel) :
    f.onTunnelCreated tun = some (false, f) := by
  simp [onTunnelCreated, h]

theorem onTunnelClosed_present {f : Forwarder} {index : Nat} {t : DnsTunnel}
    (h : f.tunnels[index]? = some (some t)) :
    f.onTunnelClosed index = some ((f.setTunnel index none).reconnectLater index) := by
  simp [onTunnelClosed, h]

/-- The attempts that were put off are all started, or none can be. -/
theorem processReconnect_eq (parses : String → Bool) (f : Forwarder) :
    f.processReconnect parses =
      match f.server.getTx with
      | none => some (f, [])
      | some tx =>
          if f.reconnectQueue = [] ∨ parses f.wsUrl = true then
            some ({ f with reconnectQueue := [] },
              (f.reconnectQueue.map UInt16.toNat).map (f.connectTask tx))
          else none := by
  unfold processReconnect connect
  cases f.server.getTx with
  | none => rfl
  | some tx =>
      dsimp only
      rw [Manager.mapM_if]
      simp only [List.map_eq_nil_iff]
      split <;> rfl

theorem processReconnect_ne_none {parses : String → Bool} {f : Forwarder}
    (h : f.reconnectQueue = [] ∨ parses f.wsUrl = true) : f.processReconnect parses ≠ none := by
  rw [processReconnect_eq]
  split
  · simp
  · rw [if_pos h]
    simp

/-- What a tick, of a forwarder that is not stopped, does to the connections. -/
theorem keepalive_turn {parses : String → Bool} {f : Forwarder} {elapsed : Channel → UInt64}
    {sent : Channel → Bool} {r : Forwarder × List DnsConnectTask × List Effect}
    (hrun : f.discarded = false) (h : f.keepalive parses elapsed sent = some r) :
    r.1.wsUrl = f.wsUrl ∧ (manager parses).Turn view f r.1 r.2.1 := by
  unfold keepalive at h
  simp only [hrun, Bool.false_eq_true, if_false, Option.bind_eq_bind, Option.bind_eq_some_iff] at h
  obtain ⟨⟨f₂, tasks⟩, hre, hr⟩ := h
  cases hr
  rw [processReconnect_eq] at hre
  have htable : Manager.taken (f.tunnels.map (Option.map fun t =>
      (t.sendPing (elapsed t.tx) (sent t.tx)).2.1)) = Manager.taken f.tunnels :=
    Manager.taken_map _
  split at hre
  · cases hre
    exact ⟨rfl, .idle htable rfl hrun.symm rfl⟩
  · split at hre
    · cases hre
      exact ⟨rfl, .retry hrun rfl htable rfl ((List.map_map).trans (List.map_id _))⟩
    · cases hre

/-- A tick panics for an address that is not one, if there is an attempt to
start, and never else. -/
theorem keepalive_ne_none {parses : String → Bool} {f : Forwarder} {elapsed : Channel → UInt64}
    {sent : Channel → Bool} (hrun : f.discarded = false)
    (h : f.reconnectQueue = [] ∨ parses f.wsUrl = true) :
    f.keepalive parses elapsed sent ≠ none := by
  intro hnone
  unfold keepalive at hnone
  simp only [hrun, Bool.false_eq_true, if_false, Option.bind_eq_bind,
    Option.bind_eq_none_iff] at hnone
  have hsome := processReconnect_ne_none
    (f := (Forwarder.sendPings { f with lresolver := f.lresolver.keepalive } elapsed sent).1) h
  obtain ⟨r, hr⟩ := Option.ne_none_iff_exists'.mp hsome
  rw [← hrun] at hnone
  exact absurd (hnone r hr) (by simp)

/-- What each call does to the forwarder. -/
theorem keeps (parses : String → Bool) {n : Nat} (hn : n ≤ 65536) :
    (manager parses).Keeps view n (Ready parses n) IsTick where
  connected := by
    rintro f task ⟨tx, rawfd⟩ hready hrun hfree
    have hslot : f.tunnels[(task.tunnel tx rawfd).index]? = some none := Manager.taken_false hfree
    have hok := onTunnelCreated_free hrun hslot
    exact ⟨_, hok, hready, Manager.taken_set _, rfl, hrun⟩
  refused := by
    intro f task conn _ hstop
    exact onTunnelCreated_discarded hstop _
  failed := by
    intro f task hready hrun hlt
    refine ⟨f.reconnectLater task.index, ?_, hready, rfl, queue_later hn hlt, hrun⟩
    exact congrArg some (if_neg (Bool.eq_false_iff.mp hrun))
  abandoned := by
    intro f task _ hstop
    exact congrArg some (if_pos hstop)
  ended := by
    intro f i hready htaken hlt
    obtain ⟨tun, htun⟩ := Manager.taken_true htaken
    exact ⟨_, onTunnelClosed_present htun, hready, Manager.taken_set none,
      fun _ => queue_later hn hlt, rfl⟩
  input := by
    intro f f' x tasks hready hcall
    change handle parses f x = some (f', tasks) at hcall
    cases x with
    | keepalive elapsed sent =>
        simp only [handle, Option.map_eq_some_iff] at hcall
        obtain ⟨r, hr, heq⟩ := hcall
        cases heq
        cases hrun : f.discarded with
        | true =>
            simp only [keepalive, hrun, if_true] at hr
            cases hr
            exact ⟨hready, .idle rfl rfl rfl rfl⟩
        | false =>
            obtain ⟨hurl, hturn⟩ := keepalive_turn hrun hr
            exact ⟨fun hpos => by rw [hurl]; exact hready hpos, hturn⟩
    | stop =>
        cases hrun : f.discarded with
        | true =>
            simp only [handle, stop, hrun, if_true] at hcall
            cases hcall
            exact ⟨hready, .idle rfl rfl rfl rfl⟩
        | false =>
            simp only [handle, stop, hrun, Bool.false_eq_true, if_false] at hcall
            cases hcall
            exact ⟨hready, .stop rfl rfl rfl rfl⟩
    | pong index bs elapsed =>
        simp only [handle, Option.map_eq_some_iff] at hcall
        obtain ⟨r, hr, heq⟩ := hcall
        cases heq
        simp only [onPong, Option.bind_eq_bind, Option.bind_eq_some_iff, Option.some.injEq] at hr
        obtain ⟨tun, htun, tun', _, rfl⟩ := hr
        exact ⟨hready, .idle (Manager.taken_set_some (Option.join_eq_some_iff.mp htun)) rfl rfl rfl⟩
    | lresolverUdpClosed =>
        cases hcall
        exact ⟨hready, .idle rfl rfl rfl rfl⟩
  ticks := by
    intro f x hready hqueue htick hnone
    cases x with
    | keepalive elapsed sent =>
        change handle parses f (.keepalive elapsed sent) = none at hnone
        rw [handle, Option.map_eq_none_iff] at hnone
        cases hrun : f.discarded with
        | true =>
            simp [keepalive, hrun] at hnone
        | false =>
            refine keepalive_ne_none hrun ?_ hnone
            cases hq : f.reconnectQueue with
            | nil => exact .inl rfl
            | cons i rest =>
                have hlt := hqueue hrun i.toNat (by simp [view, hq])
                exact .inr (hready (Nat.zero_lt_of_lt hlt))
    | _ => exact htick

/-- The attempts that a forwarder starts with, once its UDP server has a socket,
are one for each tunnel. -/
theorem init_start {parses : String → Bool} {cfg : TunCfg} {trigger : Trigger}
    {socket : Channel × Trigger} {resolver : Option (Channel × Trigger)} {ok : Bool}
    {f : Forwarder} {tasks : List DnsConnectTask}
    (h : (new cfg).init parses trigger (some socket) resolver = some (ok, f, tasks)) :
    Ready parses cfg.dnsTunnelNumber f ∧
      Lifecycle.Placed cfg.dnsTunnelNumber
        ((manager parses).lifecycle view (Manager.start f tasks)) := by
  unfold init onDnsUdpCreated connect at h
  simp only [UdpServer.setTx, UdpServer.getTx, Option.bind_eq_bind, Manager.mapM_if,
    Option.bind_eq_some_iff, Option.some.injEq] at h
  obtain ⟨tasks', htasks, heq⟩ := h
  cases heq
  split at htasks
  · rename_i hready
    cases htasks
    refine ⟨?_, Manager.placed_start (List.map_replicate) rfl rfl ?_⟩
    · intro hpos
      rcases hready with hnil | hready
      · have hzero : cfg.dnsTunnelNumber = 0 := List.range_eq_nil.mp hnil
        omega
      · exact hready
    · exact (List.map_map).trans (List.map_id _)
  · cases htasks

end Forwarder

end LproxyCv.Dns
