import LproxyCv.Foundation.Run
import LproxyCv.Services.Service

set_option autoImplicit false

/-!
# Services: the service and what it has set going

`ServiceWorld` puts beside the service the instructions that wait in its channel and the
tasks that it has started: requests to the server, downloads, instructions that are put
off, and starts of the sub-services.  A task goes on when the service is stopped, and it
finds whatever service there is when it ends.  Instructions are taken only while there is
the instruction trigger, which is between a start and the next stop.

A task that panics ends, and the service goes on without what it would have done.
-/

namespace LproxyCv.Services

open LproxyCv.Foundation
open LproxyCv.Config (TunCfg AuthResp)

/-- A start of the sub-services under way. -/
structure Starting where
  call : Nat
  cfg : TunCfg
  domains : List String
  deriving DecidableEq

/-- The service, and what it has set going. -/
structure ServiceWorld where
  svc : Service
  /-- the instructions in the channel, the oldest first -/
  queue : List Instruction
  /-- the requests for the configuration under way -/
  auths : Nat
  /-- the requests for what is new under way -/
  monitors : Nat
  downloads : Nat
  delayed : List Instruction
  starting : List Starting
  /-- how many starts of the sub-services there have been -/
  calls : Nat
  /-- how many channels and triggers there have been -/
  ids : Nat
  deriving DecidableEq

/-- What a task waits for an answer to. -/
inductive Exchange where
  | auth
  | monitor
  | download
  deriving DecidableEq

/-- What happens. -/
inductive ServiceEvent where
  /-- the oldest instruction is taken -/
  | instruction
  | authReply (response : Option HTTPResponse) (dir : Option (String × String))
  | monitorReply (response : Option HTTPResponse) (dir : Option (String × String))
  | downloaded
  /-- the client panics at an answer, and with it the task that waits for it -/
  | broken (x : Exchange)
  /-- an instruction that was put off is given -/
  | delayed (ins : Instruction)
  | tick
  /-- a start of the sub-services is over -/
  | started (task : Starting) (ok : Bool)
  /-- a sub-service gives an instruction -/
  | subservice (ins : Instruction)
  | stop
  | start

namespace ServiceWorld

/-- An instruction comes into the channel; when none are taken, it is lost. -/
def give (w : ServiceWorld) (ins : Instruction) : ServiceWorld :=
  if w.svc.instructionTrigger.isSome then { w with queue := w.queue ++ [ins] } else w

/-- Set one thing going. -/
def act (w : ServiceWorld) : Action → ServiceWorld
  | .listen => { w with queue := [] }
  | .fire ins => w.give ins
  | .delay _ ins => { w with delayed := ins :: w.delayed }
  | .auth _ => { w with auths := w.auths + 1 }
  | .monitor _ _ => { w with monitors := w.monitors + 1 }
  | .download _ _ _ _ => { w with downloads := w.downloads + 1 }
  | .startSubservice cfg domains =>
      { w with starting := ⟨w.calls, cfg, domains⟩ :: w.starting, calls := w.calls + 1 }
  | .report _ _ => w
  | .control _ _ _ => w

/-- The service after a call, and what the call sets going. -/
def after (w : ServiceWorld) (r : Service × List Action) : ServiceWorld :=
  r.2.foldl act { w with svc := r.1, ids := w.ids + 1 }

/-- What can happen. -/
def Enabled (w : ServiceWorld) : ServiceEvent → Prop
  | .instruction => w.svc.instructionTrigger.isSome = true ∧ w.queue ≠ []
  | .authReply _ _ => 0 < w.auths
  | .monitorReply _ _ => 0 < w.monitors
  | .downloaded => 0 < w.downloads
  | .broken .auth => 0 < w.auths
  | .broken .monitor => 0 < w.monitors
  | .broken .download => 0 < w.downloads
  | .delayed ins => ins ∈ w.delayed
  | .tick => w.svc.monitorTrigger.isSome = true
  | .started task _ => task ∈ w.starting
  | .subservice (.accessLog _) => True
  | .subservice (.dnsAdd _) => True
  | .subservice _ => False
  | .stop => True
  | .start => w.svc.state = .stopped

instance (w : ServiceWorld) (e : ServiceEvent) : Decidable (w.Enabled e) :=
  match e with
  | .instruction => inferInstanceAs (Decidable (_ ∧ _))
  | .authReply _ _ => inferInstanceAs (Decidable (_ < _))
  | .monitorReply _ _ => inferInstanceAs (Decidable (_ < _))
  | .downloaded => inferInstanceAs (Decidable (_ < _))
  | .broken .auth => inferInstanceAs (Decidable (_ < _))
  | .broken .monitor => inferInstanceAs (Decidable (_ < _))
  | .broken .download => inferInstanceAs (Decidable (_ < _))
  | .delayed _ => inferInstanceAs (Decidable (_ ∈ _))
  | .tick => inferInstanceAs (Decidable (_ = _))
  | .started _ _ => inferInstanceAs (Decidable (_ ∈ _))
  | .subservice (.accessLog _) => .isTrue trivial
  | .subservice (.dnsAdd _) => .isTrue trivial
  | .subservice .auth => .isFalse id
  | .subservice .startSubServices => .isFalse id
  | .subservice .serverCfgMonitor => .isFalse id
  | .subservice .restart => .isFalse id
  | .stop => .isTrue trivial
  | .start => inferInstanceAs (Decidable (_ = _))

/-- What happens then; none is a panic of what is called. -/
def handle (env : Env) (w : ServiceWorld) : ServiceEvent → Option ServiceWorld
  | .instruction =>
      match w.queue with
      | [] => some w
      | ins :: rest => do
          let r ← w.svc.processInstruction env w.ids ins
          some ({ w with queue := rest }.after r)
  | .authReply response dir => do
      let r ← w.svc.onAuthReply env response dir
      some ({ w with auths := w.auths - 1 }.after r)
  | .monitorReply response dir => do
      let r ← w.svc.onMonitorReply env response dir
      some ({ w with monitors := w.monitors - 1 }.after r)
  | .downloaded => some ({ w with downloads := w.downloads - 1 }.after (w.svc.onDownloaded, []))
  | .broken .auth => some { w with auths := w.auths - 1 }
  | .broken .monitor => some { w with monitors := w.monitors - 1 }
  | .broken .download => some { w with downloads := w.downloads - 1 }
  | .delayed ins =>
      some ({ w with delayed := w.delayed.erase ins }.after (w.svc, w.svc.fireInstruction ins))
  | .tick => do
      let actions ← w.svc.onMonitorTick
      some (w.after (w.svc, actions))
  | .started task ok => do
      let made := if ok then some (startSubservice env.cpus task.call task.cfg) else none
      let r ← w.svc.onSubservicesStarted w.ids made
      some ({ w with starting := w.starting.erase task }.after r)
  | .subservice ins => some (w.after (w.svc, [.fire ins]))
  | .stop => do
      let r ← w.svc.stop
      some (w.after r)
  | .start => do
      let r ← w.svc.start w.ids
      some (w.after r)

/-- The program has started. -/
def init (hardcoreDns : String) : ServiceWorld :=
  { svc := Service.new hardcoreDns
    queue := []
    auths := 0
    monitors := 0
    downloads := 0
    delayed := []
    starting := []
    calls := 0
    ids := 0 }

/-- The task of an answer has panicked in `do_download`, which has put the flag up by then. -/
def panicked (w : ServiceWorld) : ServiceWorld :=
  { w with auths := w.auths - 1, svc := { w.svc with isUpgrading := true } }

/-- Something happens; no other call panics (`handle_spec`). -/
inductive Step (env : Env) (w : ServiceWorld) : ServiceEvent → ServiceWorld → Prop where
  | done {e : ServiceEvent} {w' : ServiceWorld} : w.Enabled e → w.handle env e = some w' →
      Step env w e w'
  | panics {response : Option HTTPResponse} {dir : Option (String × String)} :
      w.Enabled (.authReply response dir) → w.handle env (.authReply response dir) = none →
      Step env w (.authReply response dir) w.panicked

/-! ## The invariant -/

/-- Nothing is under way that needs the configuration before it is there. -/
structure Wired (w : ServiceWorld) : Prop where
  sane : w.svc.Sane
  queue : ∀ ins ∈ w.queue, ins = .startSubServices ∨ ins = .serverCfgMonitor →
    w.svc.tuncfg.isSome = true
  monitors : 0 < w.monitors → w.svc.tuncfg.isSome = true
  delayed : ∀ ins ∈ w.delayed, ins = .auth
  starting : ∀ task ∈ w.starting, w.svc.tuncfg.isSome = true

variable {env : Env} {w w' : ServiceWorld} {e : ServiceEvent}

theorem act_svc (w : ServiceWorld) (a : Action) : (w.act a).svc = w.svc := by
  cases a with
  | fire ins =>
      show (w.give ins).svc = w.svc
      unfold give
      split <;> rfl
  | _ => rfl

theorem Wired.act (h : w.Wired) {a : Action} (hfits : a.Fits w.svc) : (w.act a).Wired := by
  cases a with
  | listen => exact ⟨h.sane, nofun, h.monitors, h.delayed, h.starting⟩
  | fire ins =>
      show (w.give ins).Wired
      unfold give
      split
      · refine ⟨h.sane, ?_, h.monitors, h.delayed, h.starting⟩
        intro ins' hmem hneeds
        rcases List.mem_append.mp hmem with hold | hnew
        · exact h.queue ins' hold hneeds
        · exact hfits (List.mem_singleton.mp hnew ▸ hneeds)
      · exact h
  | delay seconds ins =>
      refine ⟨h.sane, h.queue, h.monitors, ?_, h.starting⟩
      rintro ins' hmem
      rcases List.mem_cons.mp hmem with rfl | hold
      · exact hfits
      · exact h.delayed ins' hold
  | monitor url dnsServer => exact ⟨h.sane, h.queue, fun _ => hfits, h.delayed, h.starting⟩
  | startSubservice cfg domains =>
      exact ⟨h.sane, h.queue, h.monitors, h.delayed, fun _ _ => hfits⟩
  | auth dnsServer => exact ⟨h.sane, h.queue, h.monitors, h.delayed, h.starting⟩
  | download url dnsServer filepath scriptpath =>
      exact ⟨h.sane, h.queue, h.monitors, h.delayed, h.starting⟩
  | report url dnsServer => exact h
  | control call sstype cmd => exact h

theorem Wired.acts {actions : List Action} (h : w.Wired)
    (hfits : ∀ a ∈ actions, a.Fits w.svc) : (actions.foldl ServiceWorld.act w).Wired := by
  induction actions generalizing w with
  | nil => exact h
  | cons a actions ih =>
      refine ih (h.act (hfits a List.mem_cons_self)) ?_
      intro a' ha'
      rw [act_svc]
      exact hfits a' (List.mem_cons_of_mem a ha')

/-- A call of the service leaves everything wired. -/
theorem Wired.after (h : w.Wired) {r : Service × List Action} (hcalls : w.svc.Calls r) :
    (w.after r).Wired := by
  refine Wired.acts ?_ hcalls.fits
  exact ⟨hcalls.sane, fun ins hmem hneeds => hcalls.keeps (h.queue ins hmem hneeds),
    fun hpos => hcalls.keeps (h.monitors hpos), h.delayed,
    fun task hmem => hcalls.keeps (h.starting task hmem)⟩

theorem init_wired (hardcoreDns : String) : (init hardcoreDns).Wired :=
  ⟨⟨nofun, nofun, nofun⟩, nofun, nofun, nofun, nofun⟩

/-! ## Panics -/

/-- An answer to an authentication has a download begin only once there is a
configuration. -/
def Safe (env : Env) (w : ServiceWorld) : ServiceEvent → Prop
  | .authReply response dir => ∀ rsp, response.bind (parseAuthReply env) = some rsp →
      dir.isSome = true → w.svc.BeginsDownload env rsp → w.svc.tuncfg.isSome = true
  | _ => True

/-- What happens is a panic exactly when it is not safe, and leaves everything wired. -/
theorem handle_spec (h : w.Wired) (henabled : w.Enabled e) :
    ((w.handle env e).isSome = true ↔ w.Safe env e) ∧
      ∀ w', w.handle env e = some w' → w'.Wired := by
  have hdone : ∀ {v : ServiceWorld} {c : Option (Service × List Action)}, v.Wired →
      v.svc = w.svc → (∃ r, c = some r ∧ w.svc.Calls r) →
      ((c.bind fun r => some (v.after r)).isSome = true ↔ True) ∧
        ∀ w', (c.bind fun r => some (v.after r)) = some w' → w'.Wired := by
    rintro v _ hv hsvc ⟨r, rfl, hcalls⟩
    refine ⟨by simp, ?_⟩
    rintro w' heq
    cases heq
    exact hv.after (hsvc ▸ hcalls)
  cases e with
  | instruction =>
      obtain ⟨htrigger, hne⟩ := henabled
      unfold handle
      cases hqueue : w.queue with
      | nil => exact absurd hqueue hne
      | cons ins rest =>
          have hrest : Wired { w with queue := rest } :=
            ⟨h.sane, fun ins' hmem => h.queue ins' (hqueue ▸ List.mem_cons_of_mem ins hmem),
              h.monitors, h.delayed, h.starting⟩
          exact hdone hrest rfl (Service.processInstruction_spec env h.sane w.ids
            (h.sane.channel htrigger) (h.queue ins (hqueue ▸ List.mem_cons_self)))
  | authReply response dir =>
      obtain ⟨hsome, hcalls⟩ := Service.onAuthReply_spec env h.sane response dir
      have hrest : Wired { w with auths := w.auths - 1 } :=
        ⟨h.sane, h.queue, h.monitors, h.delayed, h.starting⟩
      constructor
      · have hhandle : (w.handle env (.authReply response dir)).isSome =
            (w.svc.onAuthReply env response dir).isSome := by simp [handle, Option.isSome_bind]
        rw [hhandle]
        exact hsome
      · intro w' heq
        simp only [handle, Option.bind_eq_bind, Option.bind_eq_some_iff, Option.some.injEq] at heq
        obtain ⟨r, hr, rfl⟩ := heq
        exact hrest.after (hcalls r hr)
  | monitorReply response dir =>
      have hrest : Wired { w with monitors := w.monitors - 1 } :=
        ⟨h.sane, h.queue, fun hpos => h.monitors (Nat.lt_of_lt_of_le hpos (Nat.sub_le _ _)),
          h.delayed, h.starting⟩
      exact hdone hrest rfl
        (Service.onMonitorReply_spec env h.sane (h.monitors henabled) response dir)
  | downloaded =>
      have hrest : Wired { w with downloads := w.downloads - 1 } :=
        ⟨h.sane, h.queue, h.monitors, h.delayed, h.starting⟩
      exact hdone (c := some (w.svc.onDownloaded, [])) hrest rfl
        ⟨_, rfl, ⟨h.sane.channel, h.sane.held, h.sane.timer⟩, fun hcfg => hcfg,
          List.forall_mem_nil _⟩
  | broken x =>
      cases x with
      | auth =>
          refine ⟨by simp [handle, Safe], ?_⟩
          rintro _ ⟨⟩
          exact ⟨h.sane, h.queue, h.monitors, h.delayed, h.starting⟩
      | monitor =>
          refine ⟨by simp [handle, Safe], ?_⟩
          rintro _ ⟨⟩
          exact ⟨h.sane, h.queue, fun hpos => h.monitors (Nat.lt_of_lt_of_le hpos (Nat.sub_le _ _)),
            h.delayed, h.starting⟩
      | download =>
          refine ⟨by simp [handle, Safe], ?_⟩
          rintro _ ⟨⟩
          exact ⟨h.sane, h.queue, h.monitors, h.delayed, h.starting⟩
  | delayed ins =>
      have hrest : Wired { w with delayed := w.delayed.erase ins } :=
        ⟨h.sane, h.queue, h.monitors, fun ins' hmem => h.delayed ins' (List.mem_of_mem_erase hmem),
          h.starting⟩
      refine hdone (c := some (w.svc, w.svc.fireInstruction ins)) hrest rfl
        ⟨_, rfl, .same h.sane (Service.fits_fireInstruction ?_)⟩
      rw [h.delayed ins henabled]
      rintro (hins | hins) <;> cases hins
  | tick =>
      obtain ⟨actions, hactions, hcalls⟩ :=
        Service.onMonitorTick_spec h.sane (h.sane.timer henabled)
      have hcall := hdone (c := some (w.svc, actions)) h rfl ⟨_, rfl, hcalls⟩
      simp only [handle, hactions]
      exact hcall
  | started task ok =>
      have hrest : Wired { w with starting := w.starting.erase task } :=
        ⟨h.sane, h.queue, h.monitors, h.delayed,
          fun task' hmem => h.starting task' (List.mem_of_mem_erase hmem)⟩
      refine hdone hrest rfl (Service.onSubservicesStarted_spec h.sane (h.starting _ henabled)
        w.ids _ ?_)
      intro started heq c hc
      split at heq
      · cases heq
        obtain ⟨_, _, rfl⟩ := List.mem_map.mp hc
        exact ⟨rfl, rfl⟩
      · cases heq
  | subservice ins =>
      refine hdone (c := some (w.svc, [.fire ins])) h rfl ⟨_, rfl, .same h.sane ?_⟩
      intro a ha
      cases List.mem_singleton.mp ha
      rintro (rfl | rfl) <;> exact henabled.elim
  | stop =>
      obtain ⟨r, hr, hcalls, _⟩ := Service.stop_spec h.sane
      exact hdone h rfl ⟨r, hr, hcalls⟩
  | start =>
      have hstate : w.svc.state = .stopped := henabled
      have hstart : ∃ r, w.svc.start w.ids = some r := by
        unfold Service.start
        rw [if_pos hstate]
        exact ⟨_, rfl⟩
      obtain ⟨r, hr⟩ := hstart
      exact hdone h rfl ⟨r, hr, Service.start_spec h.sane hr⟩

theorem Step.enabled (hstep : Step env w e w') : w.Enabled e := by
  cases hstep with
  | done henabled _ => exact henabled
  | panics henabled _ => exact henabled

theorem Wired.step (h : w.Wired) (hstep : Step env w e w') : w'.Wired := by
  cases hstep with
  | done henabled hhandle => exact (handle_spec h henabled).2 w' hhandle
  | panics _ _ =>
      exact ⟨⟨h.sane.channel, h.sane.held, h.sane.timer⟩, h.queue, h.monitors, h.delayed,
        h.starting⟩

/-- What is safe is done. -/
theorem Step.handled (hstep : Step env w e w') (h : w.Wired) (hsafe : w.Safe env e) :
    w.handle env e = some w' := by
  cases hstep with
  | done _ hhandle => exact hhandle
  | panics henabled hnone =>
      have hsome := (handle_spec h henabled).1.mpr hsafe
      rw [hnone] at hsome
      cases hsome

/-- What is safe can be done. -/
theorem Wired.exists_step (h : w.Wired) (env : Env) (e : ServiceEvent) (henabled : w.Enabled e)
    (hsafe : w.Safe env e) : ∃ w', Step env w e w' := by
  obtain ⟨w', hw'⟩ := Option.isSome_iff_exists.mp ((handle_spec h henabled).1.mpr hsafe)
  exact ⟨w', .done henabled hw'⟩

theorem step_of_attempt (h : attempt Enabled (handle env) w e = some w') : Step env w e w' := by
  unfold attempt at h
  split at h
  · rename_i henabled
    exact .done henabled h
  · cases h

theorem run_of_attempts {es : List ServiceEvent}
    (h : es.foldlM (attempt Enabled (handle env)) w = some w') : Run (Step env) w es w' :=
  (Run.of_attempts h).mono fun _ _ _ hstep => .done hstep.1 hstep.2

/-- In every run of the program, what happens next is a panic exactly when it is an answer
to an authentication that has a download begin while there is no configuration. -/
theorem run_handle_isSome_iff {hardcoreDns : String} {es : List ServiceEvent}
    (hrun : Run (Step env) (init hardcoreDns) es w) (henabled : w.Enabled e) :
    (w.handle env e).isSome = true ↔ w.Safe env e := by
  have hwired : w.Wired :=
    hrun.preserves (I := Wired) (fun _ _ _ hv hstep => hv.step hstep) (init_wired hardcoreDns)
  exact (handle_spec hwired henabled).1

/-- A reply that has the program upgraded. -/
def upgradeText : String := "\x7b\"need_upgrade\":true,\"upgrade_url\":\"https://abc.com/b\"\x7d"

/-- A reply with a configuration that has the default in every field. -/
def configText : String := "\x7b\"tuncfg\":\x7b\x7d\x7d"

/-- The two replies, as they are read. -/
def readReply (s : String) : Option Config.Value :=
  if s = upgradeText then
    some (.object [("need_upgrade", .bool true), ("upgrade_url", .string "https://abc.com/b")])
  else if s = configText then some (.object [("tuncfg", .object [])])
  else none

/-- A machine with one processor. -/
def machine : Env := ⟨fun _ => true, rfl, readReply, fun _ => "127.0.0.1", 1⟩

/-- The answer of the server with this text. -/
def answer (text : String) : HTTPResponse := ⟨200, some text.toByteArray.toList⟩

/-- Where a new version goes. -/
def target : String × String := ("/opt/a/lproxy-cv", "/opt/lproxy.sh")

/-- The service has its configuration, and is stopped and started. -/
def restarted : List ServiceEvent :=
  [.start, .instruction, .authReply (some (answer configText)) none, .instruction, .stop, .start,
    .instruction]

/-- With a configuration, an upgrade is no panic. -/
theorem run_handle_isSome_iff_upgrade :
    ∃ w, Run (Step machine) (init "") restarted w ∧
      (w.handle machine (.authReply (some (answer upgradeText)) (some target))).isSome = true := by
  have hexec : (restarted.foldlM (attempt Enabled (handle machine)) (init "")).map
      (fun w => (w.auths, w.svc.tuncfg.isSome)) = some (1, true) := by decide +kernel
  obtain ⟨w, hw, hfacts⟩ := Option.map_eq_some_iff.mp hexec
  obtain ⟨hauths, hcfg⟩ := Prod.mk.inj hfacts
  have hrun : Run (Step machine) (init "") restarted w := run_of_attempts hw
  have henabled : w.Enabled (.authReply (some (answer upgradeText)) (some target)) :=
    Nat.lt_of_lt_of_eq Nat.one_pos hauths.symm
  exact ⟨w, hrun, (run_handle_isSome_iff hrun henabled).mpr fun _ _ _ _ => hcfg⟩

/-- When the very first reply has the program upgraded, it is a panic. -/
theorem first_reply_panics :
    ∃ w, Run (Step machine) (init "") [.start, .instruction] w ∧ w.svc.tuncfg = none ∧
      w.Enabled (.authReply (some (answer upgradeText)) (some target)) ∧
      w.handle machine (.authReply (some (answer upgradeText)) (some target)) = none :=
  ⟨_, .cons (.done rfl rfl) (.cons (.done (by decide +kernel) rfl) (.nil _)), rfl,
    by decide +kernel, by decide +kernel⟩

end ServiceWorld

end LproxyCv.Services
