import LproxyCv.Services.System

set_option autoImplicit false

/-!
# Services: the service on its system

`Host` puts the service beside the system that it runs on.  What happens to the service has it
give its commands; a process can be killed between two commands, and another one is started; and
other programs change the tables, each keeping to its own rules.  Whatever has happened, once
the service has stopped the tables are what the others have made of them (`run_restores`), as long
as none of its commands meets another program that is just changing them: then a rule stays that
should have gone.
-/

namespace LproxyCv.Services

open LproxyCv.Foundation

variable {M : Type}

namespace Tools

variable (T : Tools M)

/-- Give the commands. -/
def run (m : M) (cmds : List SysCmd) : M := cmds.foldl T.exec m

/-- None of the commands finds the lock of the tables held. -/
def Unhindered (m : M) : List SysCmd → Prop
  | [] => True
  | cmd :: cmds => SysDoes (T.view m) cmd (T.view (T.exec m cmd)) ∧ Unhindered (T.exec m cmd) cmds

variable {T} in
theorem Unhindered.run_view {m : M} {cmds : List SysCmd} (h : T.Unhindered m cmds) :
    Run SysDoes (T.view m) cmds (T.view (T.run m cmds)) := by
  induction cmds generalizing m with
  | nil => exact .nil _
  | cons cmd cmds ih => exact .cons h.1 (ih h.2)

end Tools

/-- A service on its system. -/
structure Host (M : Type) where
  world : ServiceWorld
  system : M
  /-- what the others have in the tables -/
  others : Family → Chains String Rule

/-- What happens. -/
inductive HostEvent where
  | service (e : ServiceEvent)
  /-- the process is killed after so many of its commands, and another one is started -/
  | killed (e : ServiceEvent) (n : Nat) (hardcoreDns : String)
  /-- other programs change the tables -/
  | others

/-- Other programs leave what belongs to the service, and ask for none of its sets; the hook
stays, and no rule sends to it. -/
structure Sys.Apart (s s' : Sys) : Prop where
  chains : ∀ family c, ownChain c = true → s'.tables family c = s.tables family c
  mine : ∀ family c, (s'.tables family).mine Rule.goto ownChain c =
    (s.tables family).mine Rule.goto ownChain c
  hook : ∀ family, (s'.tables family "PREROUTING").isSome = true
  unused : ∀ family c rs r, s'.tables family c = some rs → r ∈ rs → r.goto ≠ some "PREROUTING"
  proper : ∀ family c rs r, s'.tables family c = some rs → r ∈ rs → r.Proper
  entries : ∀ family, ∀ entry ∈ [ipRoute, ipRule], s'.entries family entry = s.entries family entry

/-- What a system has without the service. -/
def Sys.others (s : Sys) (family : Family) : Chains String Rule :=
  (s.tables family).others Rule.goto ownChain

theorem Sys.Tidy.apart {s s' : Sys} (h : s.Tidy) (hapart : s.Apart s') : s'.Tidy where
  rules := by
    intro family
    refine ⟨?_, ?_⟩
    · intro c hc
      rw [hapart.mine]
      exact (h.rules family).elsewhere c hc
    · rw [hapart.mine]
      exact (h.rules family).hook
  proper := hapart.proper
  entries := by
    intro family entry hentry
    rw [hapart.entries family entry hentry]
    exact h.entries family entry hentry

open Classical in
/-- Do what the command says, where it can be done. -/
noncomputable def Sys.exec (s : Sys) : SysCmd → Sys
  | .iptables family cmd =>
      if s.Ready cmd then
        { s with
          tables := Function.update s.tables family (cmd.exec Rule.goto (s.tables family)) }
      else s
  | .ipsetNew name _ => { s with sets := Function.update s.sets name true }
  | .ipsetFlush _ => s
  | .ipsetDestroy name =>
      if s.Refers name then s else { s with sets := Function.update s.sets name false }
  | .ipAdd family entry => s.setEntry family entry (s.entries family entry + 1)
  | .ipDel family entry => s.setEntry family entry (s.entries family entry - 1)
  | .uciDeleteServer => { s with servers := [] }
  | .uciAddServer server => { s with servers := s.servers ++ [server] }
  | .uciSetNoresolv => { s with noresolv := true }
  | .uciCommit => s
  | .dnsmasqRestart => s

theorem Sys.does_exec (s : Sys) (cmd : SysCmd) : SysDoes s cmd (s.exec cmd) := by
  cases cmd with
  | iptables family cmd =>
      by_cases hready : s.Ready cmd
      · rw [Sys.exec, if_pos hready]
        exact .iptables hready (Foundation.does_exec _ _ cmd)
      · rw [Sys.exec, if_neg hready]
        exact .iptablesFails hready
  | ipsetNew name type => exact .ipsetNew name type
  | ipsetFlush name => exact .ipsetFlush name
  | ipsetDestroy name =>
      by_cases hrefers : s.Refers name
      · rw [Sys.exec, if_pos hrefers]
        exact .ipsetDestroyFails hrefers
      · rw [Sys.exec, if_neg hrefers]
        exact .ipsetDestroy hrefers
  | ipAdd family entry => exact .ipAdd family entry
  | ipDel family entry => exact .ipDel family entry
  | uciDeleteServer => exact .uciDeleteServer
  | uciAddServer server => exact .uciAddServer server
  | uciSetNoresolv => exact .uciSetNoresolv
  | uciCommit => exact .uciCommit
  | dnsmasqRestart => exact .dnsmasqRestart

/-- The tools do what they are told, where it can be done. -/
def Tools.Sure (T : Tools M) : Prop :=
  ∀ m cmd, T.view (T.exec m cmd) = (T.view m).exec cmd

/-- Tools that fail only where they must. -/
noncomputable def Tools.documented : Tools Sys where
  view := id
  exec := Sys.exec
  may s cmd := .does (s.does_exec cmd)

namespace Tools.Sure

variable {T : Tools M}

theorem run (h : T.Sure) (m : M) (cmds : List SysCmd) :
    T.view (T.run m cmds) = cmds.foldl Sys.exec (T.view m) := by
  induction cmds generalizing m with
  | nil => rfl
  | cons cmd cmds ih =>
      rw [List.foldl_cons, ← h m cmd]
      exact ih (T.exec m cmd)

theorem unhindered (h : T.Sure) (m : M) (cmds : List SysCmd) : T.Unhindered m cmds := by
  induction cmds generalizing m with
  | nil => trivial
  | cons cmd cmds ih =>
      refine ⟨?_, ih (T.exec m cmd)⟩
      rw [h m cmd]
      exact (T.view m).does_exec cmd

end Tools.Sure

theorem sure_documented : Tools.documented.Sure := fun _ _ => rfl

namespace Host

/-- The steps. -/
inductive Step (env : Env) (T : Tools M) (h : Host M) : HostEvent → Host M → Prop where
  | service {e : ServiceEvent} {w' : ServiceWorld} : ServiceWorld.Step env h.world e w' →
      Step env T h (.service e) ⟨w', T.run h.system (h.world.commands e), h.others⟩
  | killed {e : ServiceEvent} (n : Nat) (hardcoreDns : String) : h.world.Enabled e →
      Step env T h (.killed e n hardcoreDns)
        ⟨.init hardcoreDns, T.run h.system ((h.world.commands e).take n), h.others⟩
  | others {m' : M} : (T.view h.system).Apart (T.view m') →
      Step env T h .others ⟨h.world, m', (T.view m').others⟩

variable {env : Env} {T : Tools M} {h h' : Host M} {e : HostEvent}

/-- No command finds the lock of the tables held. -/
def Unhindered (T : Tools M) (h : Host M) : HostEvent → Prop
  | .service e => T.Unhindered h.system (h.world.commands e)
  | .killed e n _ => T.Unhindered h.system ((h.world.commands e).take n)
  | .others => True

/-- The system is tidy, and has what the others have made. -/
structure Kept (T : Tools M) (h : Host M) : Prop where
  tidy : (T.view h.system).Tidy
  others : h.others = (T.view h.system).others

/-- Commands of the service keep it so, wherever they are broken off. -/
theorem Kept.run_take (hkept : h.Kept T) {cmds : List SysCmd} (hcmds : Orderly cmds) (n : Nat)
    (hfree : T.Unhindered h.system (cmds.take n)) (w' : ServiceWorld) :
    Kept T ⟨w', T.run h.system (cmds.take n), h.others⟩ := by
  obtain ⟨htidy, hsame⟩ := hkept.tidy.run_take hcmds n hfree.run_view
  exact ⟨htidy, hkept.others.trans (funext hsame).symm⟩

theorem Kept.step (hkept : h.Kept T) (hfree : h.Unhindered T e) (hstep : Step env T h e h') :
    h'.Kept T := by
  cases hstep with
  | @service e w' _ =>
      have hall := hkept.run_take (orderly_commands h.world e) (h.world.commands e).length
        (by rwa [List.take_length]) w'
      rwa [List.take_length] at hall
  | killed n hardcoreDns _ =>
      exact hkept.run_take (orderly_commands h.world _) n hfree (.init hardcoreDns)
  | others hapart => exact ⟨hkept.tidy.apart hapart, rfl⟩

/-- In every run of the program on a system that is tidy at first, in which no command finds the
lock of the tables held, however often its processes are killed among their commands, and whatever
else changes the tables: when the service stops, the tables are left as the others have made them,
there are none of its sets, routes and rules, and dnsmasq asks the default server. -/
theorem run_restores {hardcoreDns : String} {m : M} (htidy : (T.view m).Tidy)
    {es : List HostEvent}
    (hrun : Run (Guarded (Unhindered T) (Step env T)) ⟨.init hardcoreDns, m, (T.view m).others⟩
      es h)
    (hfree : h.Unhindered T (.service .stop)) (hstop : Step env T h (.service .stop) h') :
    (T.view h'.system).tables = h'.others ∧
      (∀ name ∈ ownSets, (T.view h'.system).sets name = false) ∧
      (∀ family, ∀ entry ∈ [ipRoute, ipRule], (T.view h'.system).entries family entry = 0) ∧
      (T.view h'.system).servers = [h.world.svc.defaultDnsServer] := by
  have hkept : h.Kept T := by
    refine hrun.preserves (I := Kept T) ?_ ⟨htidy, rfl⟩
    exact fun _ _ _ hk hstep => hk.step hstep.1 hstep.2
  cases hstop with
  | service _ =>
      obtain ⟨htables, hrest⟩ := hkept.tidy.run_restore (Tools.Unhindered.run_view hfree)
      exact ⟨(funext htables).trans hkept.others.symm, hrest⟩

/-! ## A system -/

/-- What happens to a service happens on every system. -/
theorem run_lift {w w' : ServiceWorld} {es : List ServiceEvent}
    (hrun : Run (ServiceWorld.Step env) w es w') (m : M) (others : Family → Chains String Rule) :
    ∃ m', Run (Step env T) ⟨w, m, others⟩ (es.map .service) ⟨w', m', others⟩ := by
  induction hrun generalizing m with
  | nil w => exact ⟨m, .nil _⟩
  | @cons w v w' e es hfirst _ ih =>
      obtain ⟨m', hrest⟩ := ih (T.run m (w.commands e))
      exact ⟨m', .cons (.service hfirst) hrest⟩

/-- Where the tools do all that they are told, no command is hindered. -/
theorem unhindered_of_sure (hsure : T.Sure) (h : Host M) (e : HostEvent) : h.Unhindered T e := by
  cases e with
  | service e => exact hsure.unhindered _ _
  | killed e n hardcoreDns => exact hsure.unhindered _ _
  | others => trivial

/-- A rule of another program. -/
def foreignRule : Rule := ⟨[.other "-i lo"], .accept⟩

/-- A system that the service has not run on. -/
def untouched : Sys where
  tables := fun _ c => if c = "PREROUTING" then some [foreignRule] else none
  sets := fun _ => false
  entries := fun _ _ => 0
  servers := []
  noresolv := false

theorem untouched_tables (family : Family) (c : String) :
    untouched.tables family c = if c = "PREROUTING" then some [foreignRule] else none := rfl

theorem tidy_untouched : untouched.Tidy where
  rules := by
    intro family
    refine ⟨?_, List.nil_subperm⟩
    intro c hc
    rw [Chains.mine, untouched_tables, if_neg hc]
    rfl
  proper := by
    intro family c rs r hrs hr
    rw [untouched_tables] at hrs
    split at hrs
    · cases hrs
      rw [List.mem_singleton.mp hr]
      decide
    · cases hrs
  entries := fun _ _ _ => Nat.zero_le 1

/-- What happens until the service runs. -/
def first : List ServiceEvent := ServiceWorld.restarted.take 4

/-- The service comes to running, and is stopped. -/
def stopped : Option (Starting × ServiceWorld × ServiceWorld × ServiceWorld) := do
  let w ← first.foldlM (attempt ServiceWorld.Enabled (ServiceWorld.handle ServiceWorld.machine))
    (.init "")
  let task ← w.starting.head?
  let running ← attempt ServiceWorld.Enabled (ServiceWorld.handle ServiceWorld.machine) w
    (.started task true)
  let done ← attempt ServiceWorld.Enabled (ServiceWorld.handle ServiceWorld.machine) running .stop
  some (task, w, running, done)

/-- The rule of the other program is left. -/
theorem run_restores_untouched : ∃ es h h',
    Run (Guarded (Unhindered Tools.documented) (Step ServiceWorld.machine Tools.documented))
      ⟨.init "", untouched, untouched.others⟩ es h ∧
      h.world.svc.state = .running ∧
      Step ServiceWorld.machine Tools.documented h (.service .stop) h' ∧
      h'.system.tables .v4 "PREROUTING" = some [foreignRule] := by
  have hexec : stopped.map (fun r => r.2.2.1.svc.state) = some .running := by decide +kernel
  obtain ⟨_, hstopped, hstate⟩ := Option.map_eq_some_iff.mp hexec
  simp only [stopped, Option.bind_eq_bind, Option.bind_eq_some_iff, Option.some.injEq] at hstopped
  obtain ⟨w, hfirst, task, _, running, hstarted, done, hstop, rfl⟩ := hstopped
  have hrun : Run (ServiceWorld.Step ServiceWorld.machine) (.init "")
      (first ++ [.started task true]) running :=
    (ServiceWorld.run_of_attempts hfirst).append
      (.cons (ServiceWorld.step_of_attempt hstarted) (.nil _))
  obtain ⟨m, hhost⟩ := run_lift hrun untouched untouched.others
  have hfree := unhindered_of_sure sure_documented
  have hguarded : Run (Guarded (Unhindered Tools.documented)
      (Step ServiceWorld.machine Tools.documented)) _ _ _ :=
    hhost.mono fun v e _ hstep => ⟨hfree v e, hstep⟩
  have hstep := Step.service (T := Tools.documented) (h := ⟨running, m, untouched.others⟩)
    (ServiceWorld.step_of_attempt hstop)
  have hrestored := (run_restores tidy_untouched hguarded (hfree _ _) hstep).1
  exact ⟨_, _, _, hguarded, hstate, hstep, congrFun (congrFun hrestored .v4) "PREROUTING"⟩

end Host

end LproxyCv.Services
