import LproxyCv.Dns.FwdTasks
import LproxyCv.Tunnels.TunTasks

set_option autoImplicit false

/-!
# Upkeep: every tunnel in its place

Both managers keep their tunnels the same way, and `Foundation.Keeper` has the
argument: what remains is to put the two specifications together.
-/

namespace LproxyCv

open LproxyCv.Foundation LproxyCv.Tunnels LproxyCv.Dns

/-- In every state that a tunnel manager or a forwarder reaches, until it is
stopped every index is with one attempt to connect, in the table, or queued once;
a tunnel that comes up never finds another in its place; and a manager that is
stopped takes and starts nothing. -/
theorem tunnels_kept (parses : String → Bool) (sorter : Sorter) {n : Nat} (hn : n ≤ 65536) :
    (∀ cfg trigger m tasks es s, (TunMgr.new n cfg).init parses trigger = some (m, tasks) →
      Run (TunMgr.manager parses sorter).Step (Manager.start m tasks) es s →
      (TunMgr.manager parses sorter).Kept TunMgr.view n TunMgr.IsTick s) ∧
    (∀ cfg trigger socket resolver ok f tasks es s, cfg.dnsTunnelNumber = n →
      (Forwarder.new cfg).init parses trigger (some socket) resolver = some (ok, f, tasks) →
      Run (Forwarder.manager parses).Step (Manager.start f tasks) es s →
      (Forwarder.manager parses).Kept Forwarder.view n Forwarder.IsTick s) := by
  constructor
  · intro cfg trigger m tasks es s hinit hrun
    obtain ⟨hready, hplaced⟩ := @TunMgr.init_start parses sorter n cfg trigger m tasks hinit
    exact (TunMgr.keeps parses sorter hn).kept hplaced hready hrun
  · intro cfg trigger socket resolver ok f tasks es s hcount hinit hrun
    obtain ⟨hready, hplaced⟩ := Forwarder.init_start hinit
    rw [hcount] at hready hplaced
    exact (Forwarder.keeps parses hn).kept hplaced hready hrun

/-- A configuration with two tunnels. -/
def twoTunnels : TunCfg :=
  { tunnelUrl := "wss://127.0.0.1/tun"
    tunnelReqCap := 100
    relayDomain := "127.0.0.1"
    relayPort := 12345
    dnsTunnelNumber := 2
    defaultDnsServer := "223.5.5.5"
    requestQuota := 100
    xportUrl := ""
    token := "" }

theorem tunnels_kept_two :
    (∃ m tasks es s, (TunMgr.new 2 twoTunnels).init (fun _ => true) 0 = some (m, tasks) ∧
      Run (TunMgr.manager (fun _ => true) Sorter.insertion).Step (Manager.start m tasks) es s ∧
      es.length = 5 ∧
      (TunMgr.manager (fun _ => true) Sorter.insertion).Kept TunMgr.view 2 TunMgr.IsTick s) ∧
    (∃ f tasks es s, (Forwarder.new twoTunnels).init (fun _ => true) 0 (some (1, 2)) none =
        some (false, f, tasks) ∧
      Run (Forwarder.manager fun _ => true).Step (Manager.start f tasks) es s ∧ es.length = 5 ∧
      (Forwarder.manager fun _ => true).Kept Forwarder.view 2 Forwarder.IsTick s) := by
  let m : TunMgr := { TunMgr.new 2 twoTunnels with keepaliveTrigger := some 0 }
  let f : Forwarder :=
    { Forwarder.new twoTunnels with
      keepaliveTrigger := some 0
      server := (Forwarder.new twoTunnels).server.setTx 1 2 }
  have hm : (TunMgr.new 2 twoTunnels).init (fun _ => true) 0 =
      some (m, [m.connectTask 0, m.connectTask 1]) := rfl
  have hf : (Forwarder.new twoTunnels).init (fun _ => true) 0 (some (1, 2)) none =
      some (false, f, [f.connectTask 1 0, f.connectTask 1 1]) := rfl
  have hkept := tunnels_kept (fun _ => true) Sorter.insertion (n := 2) (by decide)
  constructor
  · have hrun : ∃ s, Run (TunMgr.manager (fun _ => true) Sorter.insertion).Step
        (Manager.start m [m.connectTask 0, m.connectTask 1])
        [.connected (m.connectTask 1) (7, 3), .failed (m.connectTask 0), .ended 1,
          .input (.keepalive (fun _ => 0) fun _ => true), .input .stop] s :=
      ⟨_, .cons (.connected (by decide) rfl) (.cons (.failed (by decide) rfl)
        (.cons (.ended (by decide) rfl) (.cons (.input rfl) (.cons (.input rfl) (.nil _)))))⟩
    obtain ⟨s, hrun⟩ := hrun
    exact ⟨m, _, _, s, hm, hrun, rfl, hkept.1 _ _ _ _ _ s hm hrun⟩
  · have hrun : ∃ s, Run (Forwarder.manager fun _ => true).Step
        (Manager.start f [f.connectTask 1 0, f.connectTask 1 1])
        [.connected (f.connectTask 1 1) (7, 3), .failed (f.connectTask 1 0), .ended 1,
          .input (.keepalive (fun _ => 0) fun _ => true), .input .stop] s :=
      ⟨_, .cons (.connected (by decide) rfl) (.cons (.failed (by decide) rfl)
        (.cons (.ended (by decide) rfl) (.cons (.input rfl) (.cons (.input rfl) (.nil _)))))⟩
    obtain ⟨s, hrun⟩ := hrun
    exact ⟨f, _, _, s, hf, hrun, rfl, hkept.2 _ _ _ _ _ _ _ _ s rfl hf hrun⟩

end LproxyCv
