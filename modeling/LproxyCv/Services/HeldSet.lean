import LproxyCv.Services.ServiceWorld

set_option autoImplicit false

/-!
# Services: the sub-services that are held

Between a stop and the next start the service is to be stopped and to hold no
sub-services, and at any time it is to hold those of one start at most.  A start of the
sub-services goes on when the service is stopped, and its end looks at nothing: what it
does then decides whether this holds.
-/

namespace LproxyCv.Services

open LproxyCv.Foundation
open LproxyCv.Config (TunCfg)

theorem length_startSubservice (cpus call : Nat) (cfg : TunCfg) :
    cpus + 3 ≤ (startSubservice cpus call cfg).length ∧
      (startSubservice cpus call cfg).length ≤ cpus + 4 := by
  unfold startSubservice
  split <;> simp

namespace Service

/-- The two have the same state, the same trigger and the same sub-services. -/
structure SameSet (s s' : Service) : Prop where
  state : s'.state = s.state
  trigger : s'.instructionTrigger = s.instructionTrigger
  subservices : s'.subservices = s.subservices

/-- While no instructions are taken, the service is stopped and holds no sub-services; and
those that it holds are those of one start. -/
structure Held (cpus : Nat) (s : Service) : Prop where
  stopped : s.instructionTrigger = none → s.state = .stopped ∧ s.subservices = []
  one : s.subservices = [] ∨ ∃ call cfg, s.subservices = (startSubservice cpus call cfg).reverse

variable {env : Env} {cpus : Nat} {s s' s'' : Service} {r : Service × List Action}

theorem SameSet.trans (h : s.SameSet s') (h' : s'.SameSet s'') : s.SameSet s'' :=
  ⟨h'.state.trans h.state, h'.trigger.trans h.trigger, h'.subservices.trans h.subservices⟩

theorem SameSet.held (h : s.SameSet s') (hs : s.Held cpus) : s'.Held cpus := by
  constructor
  · rw [h.trigger, h.state, h.subservices]
    exact hs.stopped
  · rw [h.subservices]
    exact hs.one

theorem sameSet_doDownload {dir : String × String} {url : String}
    (hr : s.doDownload env dir url = some r) : s.SameSet r.1 := by
  unfold doDownload at hr
  split at hr
  · cases hr
    exact ⟨rfl, rfl, rfl⟩
  · split at hr
    · simp only [Option.bind_eq_bind, Option.bind_eq_some_iff, Option.some.injEq] at hr
      obtain ⟨cfg, _, rfl⟩ := hr
      exact ⟨rfl, rfl, rfl⟩
    · cases hr
      exact ⟨rfl, rfl, rfl⟩

theorem sameSet_onAuthReply {response : Option HTTPResponse} {dir : Option (String × String)}
    (hr : s.onAuthReply env response dir = some r) : s.SameSet r.1 := by
  unfold onAuthReply at hr
  split at hr
  · cases hr
    exact ⟨rfl, rfl, rfl⟩
  · split at hr
    · cases hr
      exact ⟨rfl, rfl, rfl⟩
    · split at hr
      · cases hr
        exact ⟨rfl, rfl, rfl⟩
      · split at hr
        · split at hr
          · cases hr
            exact ⟨rfl, rfl, rfl⟩
          · simp only [Option.bind_eq_bind, Option.bind_eq_some_iff, Option.some.injEq] at hr
            obtain ⟨p, hp, rfl⟩ := hr
            have hsame := sameSet_doDownload hp
            exact hsame
        · split at hr
          · cases hr
            exact ⟨rfl, rfl, rfl⟩
          · simp only [Option.bind_eq_bind, Option.bind_eq_some_iff, Option.some.injEq] at hr
            obtain ⟨domains, _, rfl⟩ := hr
            exact ⟨rfl, rfl, rfl⟩

theorem sameSet_doAccessReport (hr : s.doAccessReport env = some r) : s.SameSet r.1 := by
  unfold doAccessReport at hr
  simp only [Option.bind_eq_bind, Option.bind_eq_some_iff] at hr
  obtain ⟨cfg, _, hr⟩ := hr
  split at hr
  · cases hr
    exact ⟨rfl, rfl, rfl⟩
  · split at hr
    · cases hr
      exact ⟨rfl, rfl, rfl⟩
    · split at hr <;> (cases hr; exact ⟨rfl, rfl, rfl⟩)

theorem sameSet_doCfgMonitor (hr : s.doCfgMonitor env = some r) : s.SameSet r.1 := by
  unfold doCfgMonitor at hr
  simp only [Option.bind_eq_bind, Option.bind_eq_some_iff] at hr
  obtain ⟨cfg, _, hr⟩ := hr
  split at hr
  · cases hr
    exact ⟨rfl, rfl, rfl⟩
  · split at hr
    · simp only [Option.bind_eq_some_iff, Option.some.injEq] at hr
      obtain ⟨p, hp, rfl⟩ := hr
      have hsame := sameSet_doAccessReport hp
      exact hsame
    · cases hr
      exact ⟨rfl, rfl, rfl⟩

theorem sameSet_updateCfg {cfg : Option TunCfg} (hr : s.updateCfg cfg = some r) :
    s.SameSet r.1 := by
  cases cfg with
  | none =>
      cases hr
      exact ⟨rfl, rfl, rfl⟩
  | some cfg =>
      simp only [updateCfg, Option.bind_eq_bind, Option.bind_eq_some_iff, Option.some.injEq] at hr
      obtain ⟨sent, _, rfl⟩ := hr
      exact ⟨rfl, rfl, rfl⟩

theorem sameSet_onMonitorReply {response : Option HTTPResponse} {dir : Option (String × String)}
    (hr : s.onMonitorReply env response dir = some r) : s.SameSet r.1 := by
  unfold onMonitorReply at hr
  split at hr
  · cases hr
    exact ⟨rfl, rfl, rfl⟩
  · split at hr
    · cases hr
      exact ⟨rfl, rfl, rfl⟩
    · simp only [Option.bind_eq_bind, Option.bind_eq_some_iff] at hr
      obtain ⟨p, hp, hr⟩ := hr
      have hupdated := sameSet_updateCfg hp
      split at hr
      · split at hr
        · cases hr
          exact hupdated
        · simp only [Option.bind_eq_some_iff, Option.some.injEq] at hr
          obtain ⟨q, hq, rfl⟩ := hr
          have hsame := hupdated.trans (sameSet_doDownload hq)
          exact hsame
      · split at hr <;> (cases hr; exact hupdated)

/-- A stop leaves the service stopped, without sub-services. -/
theorem held_stop (cpus : Nat) (hr : s.stop = some r) : r.1.Held cpus := by
  simp only [stop, Option.bind_eq_bind, Option.bind_eq_some_iff, Option.some.injEq] at hr
  obtain ⟨p, _, rfl⟩ := hr
  exact ⟨fun _ => ⟨rfl, rfl⟩, .inl rfl⟩

/-- A start leaves the sub-services alone, and takes instructions. -/
theorem held_start {id : Nat} (h : s.Held cpus) (hr : s.start id = some r) : r.1.Held cpus := by
  unfold start at hr
  split at hr
  · cases hr
    exact ⟨nofun, h.one⟩
  · cases hr

theorem held_processInstruction {id : Nat} {ins : Instruction} (h : s.Held cpus)
    (hr : s.processInstruction env id ins = some r) : r.1.Held cpus := by
  cases ins with
  | auth =>
      simp only [processInstruction, Option.bind_eq_bind, Option.bind_eq_some_iff,
        Option.some.injEq] at hr
      obtain ⟨actions, _, rfl⟩ := hr
      exact h
  | startSubServices =>
      simp only [processInstruction, doStartSubservices, Option.bind_eq_bind,
        Option.bind_eq_some_iff, Option.some.injEq] at hr
      obtain ⟨cfg, _, tx, _, rfl⟩ := hr
      exact ⟨h.stopped, h.one⟩
  | serverCfgMonitor => exact (sameSet_doCfgMonitor hr).held h
  | restart =>
      simp only [processInstruction, doRestart, Option.bind_eq_bind, Option.bind_eq_some_iff,
        Option.some.injEq] at hr
      obtain ⟨stopped, hstop, started, hstart, rfl⟩ := hr
      have hstarted := held_start (held_stop cpus hstop) hstart
      exact hstarted
  | accessLog v =>
      cases hr
      exact ⟨h.stopped, h.one⟩
  | dnsAdd da =>
      cases hr
      exact ⟨h.stopped, h.one⟩

/-- The end of a start is right exactly when instructions are taken and no sub-services are
held. -/
theorem held_onSubservicesStarted {id call : Nat} {cfg : TunCfg} (h : s.Held cpus)
    (hr : s.onSubservicesStarted id (some (startSubservice cpus call cfg)) = some r) :
    r.1.Held cpus ↔ s.instructionTrigger.isSome = true ∧ s.subservices = [] := by
  simp only [onSubservicesStarted, Option.bind_eq_bind, Option.bind_eq_some_iff,
    Option.some.injEq] at hr
  obtain ⟨_, _, rfl⟩ := hr
  constructor
  · intro hafter
    constructor
    · refine Option.isSome_iff_ne_none.mpr ?_
      intro hnone
      cases (hafter.stopped hnone).1
    · refine h.one.resolve_right ?_
      rintro ⟨call₁, cfg₁, hfirst⟩
      -- two sets are longer than one
      have hlen₁ := length_startSubservice cpus call₁ cfg₁
      have hlen := length_startSubservice cpus call cfg
      rcases hafter.one with hnil | ⟨call₂, cfg₂, hboth⟩
      · have := congrArg List.length hnil
        simp only [startMonitorTimer, List.length_append, List.length_reverse,
          List.length_nil] at this
        omega
      · have hlen₂ := length_startSubservice cpus call₂ cfg₂
        have := congrArg List.length hboth
        simp only [startMonitorTimer, hfirst, List.length_append, List.length_reverse] at this
        omega
  · rintro ⟨hsome, hnil⟩
    refine ⟨fun hnone => ?_, .inr ⟨call, cfg, by simp [startMonitorTimer, hnil]⟩⟩
    have hnone' : s.instructionTrigger = none := hnone
    rw [hnone'] at hsome
    cases hsome

end Service

namespace ServiceWorld

variable {env : Env} {w w' : ServiceWorld} {e : ServiceEvent}

theorem acts_svc (actions : List Action) (w : ServiceWorld) :
    (actions.foldl act w).svc = w.svc := by
  induction actions generalizing w with
  | nil => rfl
  | cons a actions ih => exact (ih _).trans (act_svc w a)

theorem after_svc (w : ServiceWorld) (r : Service × List Action) : (w.after r).svc = r.1 :=
  acts_svc r.2 _

/-- What the service holds is right. -/
def Held (env : Env) (w : ServiceWorld) : Prop := w.svc.Held env.cpus

theorem held_after {r : Service × List Action} (h : r.1.Held env.cpus) : (w.after r).Held env := by
  rw [Held, after_svc]
  exact h

/-- When a start of the sub-services ends well, instructions are taken and no sub-services
are held. -/
def Due (w : ServiceWorld) : ServiceEvent → Prop
  | .started _ true => w.svc.instructionTrigger.isSome = true ∧ w.svc.subservices = []
  | _ => True

/-- What is held after a call is right exactly when the call is due. -/
theorem handle_held_iff (h : w.Held env) (hhandle : w.handle env e = some w') :
    w'.Held env ↔ w.Due e := by
  cases e with
  | instruction =>
      refine iff_of_true ?_ trivial
      unfold handle at hhandle
      cases hqueue : w.queue with
      | nil =>
          rw [hqueue] at hhandle
          cases hhandle
          exact h
      | cons ins rest =>
          simp only [hqueue, Option.bind_eq_bind, Option.bind_eq_some_iff,
            Option.some.injEq] at hhandle
          obtain ⟨r, hr, rfl⟩ := hhandle
          exact held_after (Service.held_processInstruction h hr)
  | authReply response dir =>
      simp only [handle, Option.bind_eq_bind, Option.bind_eq_some_iff, Option.some.injEq] at hhandle
      obtain ⟨r, hr, rfl⟩ := hhandle
      exact iff_of_true (held_after ((Service.sameSet_onAuthReply hr).held h)) trivial
  | monitorReply response dir =>
      simp only [handle, Option.bind_eq_bind, Option.bind_eq_some_iff, Option.some.injEq] at hhandle
      obtain ⟨r, hr, rfl⟩ := hhandle
      exact iff_of_true (held_after ((Service.sameSet_onMonitorReply hr).held h)) trivial
  | downloaded =>
      cases hhandle
      exact iff_of_true (held_after ⟨h.stopped, h.one⟩) trivial
  | broken x => cases x <;> cases hhandle <;> exact iff_of_true h trivial
  | delayed ins =>
      cases hhandle
      exact iff_of_true (held_after h) trivial
  | tick =>
      simp only [handle, Option.bind_eq_bind, Option.bind_eq_some_iff, Option.some.injEq] at hhandle
      obtain ⟨actions, _, rfl⟩ := hhandle
      exact iff_of_true (held_after h) trivial
  | started task ok =>
      simp only [handle, Option.bind_eq_bind, Option.bind_eq_some_iff, Option.some.injEq] at hhandle
      obtain ⟨r, hr, rfl⟩ := hhandle
      rw [Held, after_svc]
      cases ok with
      | true => exact Service.held_onSubservicesStarted h hr
      | false =>
          cases hr
          exact iff_of_true h trivial
  | subservice ins =>
      cases hhandle
      exact iff_of_true (held_after h) trivial
  | stop =>
      simp only [handle, Option.bind_eq_bind, Option.bind_eq_some_iff, Option.some.injEq] at hhandle
      obtain ⟨r, hr, rfl⟩ := hhandle
      exact iff_of_true (held_after (Service.held_stop env.cpus hr)) trivial
  | start =>
      simp only [handle, Option.bind_eq_bind, Option.bind_eq_some_iff, Option.some.injEq] at hhandle
      obtain ⟨r, hr, rfl⟩ := hhandle
      exact iff_of_true (held_after (Service.held_start h hr)) trivial

/-- What is held after a step is right exactly when the step is due. -/
theorem step_held_iff (h : w.Held env) (hstep : Step env w e w') : w'.Held env ↔ w.Due e := by
  cases hstep with
  | done _ hhandle => exact handle_held_iff h hhandle
  | panics _ _ => exact iff_of_true ⟨h.stopped, h.one⟩ trivial

/-- What is held is right at the start of the program; and in a run of the program it is
right after every step exactly when every step is due. -/
theorem run_held_iff (env : Env) (hardcoreDns : String) (es : List ServiceEvent)
    (w : ServiceWorld) :
    (init hardcoreDns).Held env ∧
      (Run (Guarded Due (Step env)) (init hardcoreDns) es w ↔
        Run (fun w e w' => Step env w e w' ∧ w'.Held env) (init hardcoreDns) es w) := by
  have hinit : (init hardcoreDns).Held env := ⟨fun _ => ⟨rfl, rfl⟩, .inl rfl⟩
  refine ⟨hinit, Run.guarded_iff (I := Held env) ?_ ?_ hinit⟩
  · intro v e v' hv hstep
    exact step_held_iff hv hstep
  · intro v e v' _ _ hheld
    exact hheld

/-- The configuration of a reply that has the default in every field. -/
def defaultCfg : TunCfg := { TunCfg.ofValue (.object []) "" with domainArray := none }

/-- The service comes to a start of the sub-services. -/
def toStart : List ServiceEvent :=
  [.start, .instruction, .authReply (some (answer configText)) none, .instruction]

/-- The service is stopped before the start of the sub-services ends. -/
def revived : List ServiceEvent := toStart ++ [.stop, .started ⟨0, defaultCfg, []⟩ true]

/-- It is started once more, and both starts of the sub-services end. -/
def doubled : List ServiceEvent :=
  toStart ++ .stop :: toStart ++
    [.started ⟨0, defaultCfg, []⟩ true, .started ⟨1, defaultCfg, []⟩ true]

/-- A start of the sub-services that ends after a stop has the service running, with
sub-services; and one that ends after another start leaves the sub-services of both. -/
theorem stopped_revived :
    (∃ w, Run (Step machine) (init "") revived w ∧ w.svc.instructionTrigger = none ∧
      w.svc.state = .running ∧ w.svc.subservices.length = 4 ∧ ¬ w.Held machine) ∧
    ∃ w, Run (Step machine) (init "") doubled w ∧
      w.svc.subservices.map SubServiceCtl.handler =
        List.replicate 4 (some 0) ++ List.replicate 4 (some 1) ∧ ¬ w.Held machine := by
  constructor
  · have hexec : (revived.foldlM (attempt Enabled (handle machine)) (init "")).map
        (fun w => (w.svc.instructionTrigger, w.svc.state, w.svc.subservices.length)) =
          some (none, .running, 4) := by decide +kernel
    obtain ⟨w, hw, hfacts⟩ := Option.map_eq_some_iff.mp hexec
    simp only [Prod.mk.injEq] at hfacts
    obtain ⟨htrigger, hstate, hlen⟩ := hfacts
    refine ⟨w, run_of_attempts hw, htrigger, hstate, hlen, ?_⟩
    intro hheld
    rw [(hheld.stopped htrigger).1] at hstate
    cases hstate
  · have hexec : (doubled.foldlM (attempt Enabled (handle machine)) (init "")).map
        (fun w => w.svc.subservices.map SubServiceCtl.handler) =
          some (List.replicate 4 (some 0) ++ List.replicate 4 (some 1)) := by decide +kernel
    obtain ⟨w, hw, hhandlers⟩ := Option.map_eq_some_iff.mp hexec
    refine ⟨w, run_of_attempts hw, hhandlers, ?_⟩
    intro hheld
    have hlen : w.svc.subservices.length = 8 := by simpa using congrArg List.length hhandlers
    rcases hheld.one with hnil | ⟨call, cfg, hone⟩
    · rw [hnil] at hlen
      cases hlen
    · have := length_startSubservice machine.cpus call cfg
      rw [hone, List.length_reverse] at hlen
      simp only [machine] at this hlen
      omega

end ServiceWorld

end LproxyCv.Services
