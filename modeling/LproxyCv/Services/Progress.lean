import LproxyCv.Services.HeldSet

set_option autoImplicit false

/-!
# Services: the way to running

A service that takes instructions and is not running yet has something under way that leads
to a start of its sub-services: an instruction in the channel, a request to the server, an
instruction that is put off, or a start.  Nothing that happens loses it, but the panic of a task
that waits for the configuration; so that such a service can always still come to running
(`run_reaches_running`).

The one thing that holds a request for the configuration back is a download.  The flag
`isUpgrading` is up while there is one, and goes down with it, unless the download ends with a
panic: then it stays up for ever (`run_upgrading_iff`).
-/

namespace LproxyCv.Services

open LproxyCv.Foundation
open LproxyCv.Config (TunCfg AuthResp)

/-- The instruction leads to a start of the sub-services. -/
def Instruction.Leads (ins : Instruction) : Prop := ins = .auth ∨ ins = .startSubServices

namespace Action

/-- The action has a download begin. -/
def isDownload : Action → Bool
  | .download _ _ _ _ => true
  | _ => false

/-- The action neither has a download begin nor empties the channel. -/
def isPlain : Action → Bool
  | .download _ _ _ _ => false
  | .listen => false
  | _ => true

/-- The action leads to a start of the sub-services. -/
def Leads : Action → Prop
  | .fire ins => ins.Leads
  | .delay _ ins => ins = .auth
  | .auth _ => True
  | .startSubservice _ _ => True
  | _ => False

/-- The action leaves the channel as it is. -/
def isSilent : Action → Bool
  | .fire _ => false
  | .listen => false
  | _ => true

/-- The action asks the server what is new, or tells it something. -/
def isTalk : Action → Bool
  | .monitor _ _ => true
  | .report _ _ => true
  | _ => false

/-- The action asks the server for the configuration. -/
def isAsk : Action → Bool
  | .auth _ => true
  | _ => false

theorem isSilent_of_isTalk {a : Action} (h : a.isTalk = true) : a.isSilent = true := by
  cases a with
  | fire _ => cases h
  | listen => cases h
  | _ => rfl

theorem isAsk_of_isTalk {a : Action} (h : a.isTalk = true) : a.isAsk = false := by
  cases a with
  | auth _ => cases h
  | _ => rfl

theorem isDownload_of_isPlain {a : Action} (h : a.isPlain = true) : a.isDownload = false := by
  cases a with
  | download _ _ _ _ => cases h
  | _ => rfl

theorem ne_listen_of_isPlain {a : Action} (h : a.isPlain = true) : a ≠ .listen := by
  rintro rfl
  cases h

end Action

/-- It happens by itself: no one stops or starts the service, no sub-service speaks, and the
client does not panic. -/
def ServiceEvent.isOwn : ServiceEvent → Bool
  | .stop => false
  | .start => false
  | .broken _ => false
  | .subservice _ => false
  | _ => true

/-- The server answers with a configuration. -/
def Env.Serves (env : Env) (response : HTTPResponse) : Prop :=
  ∃ rsp cfg, parseAuthReply env response = some rsp ∧ rsp.error = 0 ∧
    ¬ (rsp.needUpgrade = true ∧ 0 < rsp.upgradeUrl.length) ∧ rsp.tuncfg = some cfg

/-- Every result of a traversal is that of an element. -/
theorem exists_of_mem_mapM {α β : Type} {f : α → Option β} {l : List α} {bs : List β}
    (h : l.mapM f = some bs) {b : β} (hb : b ∈ bs) : ∃ a ∈ l, f a = some b := by
  induction l generalizing bs with
  | nil =>
      cases h
      cases hb
  | cons a l ih =>
      simp only [List.mapM_cons, Option.bind_eq_bind, Option.bind_eq_some_iff, Option.pure_def,
        Option.some.injEq] at h
      obtain ⟨b', hb', bs', hbs', rfl⟩ := h
      rcases List.mem_cons.mp hb with rfl | hrest
      · exact ⟨a, List.mem_cons_self, hb'⟩
      · obtain ⟨a', ha', hfa'⟩ := ih hbs' hrest
        exact ⟨a', List.mem_cons_of_mem a ha', hfa'⟩

/-! ## The calls -/

namespace Service

variable {env : Env} {s s' : Service} {r r' : Service × List Action} {actions : List Action}

/-- The number of downloads that the flag stands for. -/
def upgrades (s : Service) : Nat := if s.isUpgrading then 1 else 0

theorem upgrades_le (s : Service) : s.upgrades ≤ 1 := by
  unfold upgrades
  split <;> omega

theorem upgrades_pos : 0 < s.upgrades ↔ s.isUpgrading = true := by
  unfold upgrades
  split <;> simp [*]

/-- A call changes the flag as it has downloads begin. -/
def Counts (s : Service) (r : Service × List Action) : Prop :=
  r.1.upgrades = s.upgrades + r.2.countP Action.isDownload

/-- A call counts its downloads, and leaves the channel alone. -/
structure Proceeds (s : Service) (r : Service × List Action) : Prop where
  counts : s.Counts r
  listens : ∀ a ∈ r.2, a ≠ .listen

theorem Counts.same (hflag : s'.isUpgrading = s.isUpgrading)
    (hnone : ∀ a ∈ actions, a.isDownload = false) : s.Counts (s', actions) := by
  have hzero : actions.countP Action.isDownload = 0 := by
    rw [List.countP_eq_zero]
    intro a ha
    rw [hnone a ha]
    exact Bool.false_ne_true
  rw [Counts, hzero, upgrades, upgrades, hflag, Nat.add_zero]

theorem Counts.trans (h : s.Counts r) (h' : r.1.Counts r') : s.Counts (r'.1, r.2 ++ r'.2) := by
  unfold Counts at *
  rw [List.countP_append, h', h, Nat.add_assoc]

theorem Proceeds.same (hflag : s'.isUpgrading = s.isUpgrading)
    (hplain : ∀ a ∈ actions, a.isPlain = true) : s.Proceeds (s', actions) :=
  ⟨.same hflag fun a ha => Action.isDownload_of_isPlain (hplain a ha),
    fun a ha => Action.ne_listen_of_isPlain (hplain a ha)⟩

theorem Proceeds.idle (hflag : s'.isUpgrading = s.isUpgrading) : s.Proceeds (s', []) :=
  .same hflag (List.forall_mem_nil _)

theorem Proceeds.trans (h : s.Proceeds r) (h' : r.1.Proceeds r') :
    s.Proceeds (r'.1, r.2 ++ r'.2) := by
  refine ⟨h.counts.trans h'.counts, ?_⟩
  intro a ha
  rcases List.mem_append.mp ha with hfirst | hsecond
  · exact h.listens a hfirst
  · exact h'.listens a hsecond

theorem proceeds_delay (s : Service) (seconds : Nat) : s.Proceeds (s, [.delay seconds .auth]) :=
  .same rfl (by simp [Action.isPlain])

theorem isPlain_fireInstruction (s : Service) (ins : Instruction) :
    ∀ a ∈ s.fireInstruction ins, a.isPlain = true := by
  intro a ha
  unfold fireInstruction at ha
  split at ha
  · cases List.mem_singleton.mp ha
    rfl
  · cases ha

/-- A download begins when none is under way. -/
theorem proceeds_doDownload {dir : String × String} {url : String}
    (hr : s.doDownload env dir url = some r) : s.Proceeds r := by
  unfold doDownload at hr
  split at hr
  · cases hr
    exact .idle rfl
  · rename_i hidle
    have hflag : s.isUpgrading = false := Bool.eq_false_iff.mpr hidle
    split at hr
    · simp only [Option.bind_eq_bind, Option.bind_eq_some_iff, Option.some.injEq] at hr
      obtain ⟨cfg, _, rfl⟩ := hr
      exact ⟨by simp [Counts, upgrades, hflag, Action.isDownload], by simp⟩
    · cases hr
      exact .idle hflag.symm

theorem proceeds_onAuthReply {response : Option HTTPResponse} {dir : Option (String × String)}
    (hr : s.onAuthReply env response dir = some r) : s.Proceeds r := by
  unfold onAuthReply at hr
  split at hr
  · cases hr
    exact proceeds_delay s 15
  · split at hr
    · cases hr
      exact proceeds_delay s 30
    · split at hr
      · cases hr
        exact proceeds_delay s 30
      · split at hr
        · split at hr
          · cases hr
            exact proceeds_delay s 30
          · simp only [Option.bind_eq_bind, Option.bind_eq_some_iff, Option.some.injEq] at hr
            obtain ⟨p, hp, rfl⟩ := hr
            exact (proceeds_doDownload hp).trans (proceeds_delay p.1 30)
        · split at hr
          · cases hr
            exact proceeds_delay s 30
          · simp only [Option.bind_eq_bind, Option.bind_eq_some_iff, Option.some.injEq] at hr
            obtain ⟨domains, _, rfl⟩ := hr
            exact .same rfl (isPlain_fireInstruction _ _)

/-- The answer to a request for the configuration leads to a start, or to another request. -/
theorem leads_onAuthReply {response : Option HTTPResponse} {dir : Option (String × String)}
    (htx : s.insTx.isSome = true) (hr : s.onAuthReply env response dir = some r) :
    ∃ a ∈ r.2, a.Leads := by
  have hdelay : ∀ {seconds : Nat}, ∃ a ∈ [Action.delay seconds .auth], a.Leads :=
    ⟨_, List.mem_singleton_self _, rfl⟩
  unfold onAuthReply at hr
  split at hr
  · cases hr
    exact hdelay
  · split at hr
    · cases hr
      exact hdelay
    · split at hr
      · cases hr
        exact hdelay
      · split at hr
        · split at hr
          · cases hr
            exact hdelay
          · simp only [Option.bind_eq_bind, Option.bind_eq_some_iff, Option.some.injEq] at hr
            obtain ⟨p, _, rfl⟩ := hr
            exact ⟨_, List.mem_concat_self, rfl⟩
        · split at hr
          · cases hr
            exact hdelay
          · simp only [Option.bind_eq_bind, Option.bind_eq_some_iff, Option.some.injEq] at hr
            obtain ⟨domains, _, rfl⟩ := hr
            obtain ⟨tx, htx⟩ := Option.isSome_iff_exists.mp htx
            simp only [fireInstruction, saveCfg, htx]
            exact ⟨_, List.mem_singleton_self _, .inr rfl⟩

theorem proceeds_updateCfg {cfg : Option TunCfg} (hr : s.updateCfg cfg = some r) :
    s.Proceeds r := by
  cases cfg with
  | none =>
      cases hr
      exact .idle rfl
  | some cfg =>
      simp only [updateCfg, notifySubserviceUpdateCfg, Option.bind_eq_bind,
        Option.bind_eq_some_iff, Option.some.injEq] at hr
      obtain ⟨_, ⟨cfg', _, rfl⟩, rfl⟩ := hr
      refine .same rfl ?_
      intro a ha
      rcases List.mem_append.mp ha with htold | hsent
      · split at htold
        · split at htold
          · simp only [notifyForwarderUpdateDomains, Option.mem_toList,
              Option.map_eq_some_iff] at htold
            obtain ⟨_, _, rfl⟩ := htold
            rfl
          · cases htold
        · cases htold
      · obtain ⟨_, _, rfl⟩ := List.mem_map.mp hsent
        rfl

theorem proceeds_onMonitorReply {response : Option HTTPResponse} {dir : Option (String × String)}
    (hr : s.onMonitorReply env response dir = some r) : s.Proceeds r := by
  unfold onMonitorReply at hr
  split at hr
  · cases hr
    exact .idle rfl
  · split at hr
    · cases hr
      exact .idle rfl
    · simp only [Option.bind_eq_bind, Option.bind_eq_some_iff] at hr
      obtain ⟨p, hp, hr⟩ := hr
      have hupdated := proceeds_updateCfg hp
      split at hr
      · split at hr
        · cases hr
          exact hupdated
        · simp only [Option.bind_eq_some_iff, Option.some.injEq] at hr
          obtain ⟨q, hq, rfl⟩ := hr
          exact hupdated.trans (proceeds_doDownload hq)
      · split at hr
        · cases hr
          exact hupdated.trans (.same rfl (isPlain_fireInstruction _ _))
        · cases hr
          exact hupdated

theorem proceeds_doAccessReport (hr : s.doAccessReport env = some r) : s.Proceeds r := by
  unfold doAccessReport at hr
  simp only [Option.bind_eq_bind, Option.bind_eq_some_iff] at hr
  obtain ⟨cfg, _, hr⟩ := hr
  split at hr
  · cases hr
    exact .idle rfl
  · split at hr
    · cases hr
      exact .idle rfl
    · split at hr
      · cases hr
        exact .same rfl (by simp [Action.isPlain])
      · cases hr
        exact .idle rfl

theorem isTalk_doAccessReport (hr : s.doAccessReport env = some r) :
    ∀ a ∈ r.2, a.isTalk = true := by
  unfold doAccessReport at hr
  simp only [Option.bind_eq_bind, Option.bind_eq_some_iff] at hr
  obtain ⟨cfg, _, hr⟩ := hr
  split at hr
  · cases hr
    exact List.forall_mem_nil _
  · split at hr
    · cases hr
      exact List.forall_mem_nil _
    · split at hr
      · cases hr
        exact List.forall_mem_singleton.mpr rfl
      · cases hr
        exact List.forall_mem_nil _

theorem proceeds_doCfgMonitor (hr : s.doCfgMonitor env = some r) : s.Proceeds r := by
  have hmonitor : ∀ {url dnsServer : String}, s.Proceeds (s, [.monitor url dnsServer]) :=
    .same rfl (by simp [Action.isPlain])
  unfold doCfgMonitor at hr
  simp only [Option.bind_eq_bind, Option.bind_eq_some_iff] at hr
  obtain ⟨cfg, _, hr⟩ := hr
  split at hr
  · cases hr
    exact .idle rfl
  · split at hr
    · simp only [Option.bind_eq_some_iff, Option.some.injEq] at hr
      obtain ⟨p, hp, rfl⟩ := hr
      exact hmonitor.trans (proceeds_doAccessReport hp)
    · cases hr
      exact .idle rfl

theorem isTalk_doCfgMonitor (hr : s.doCfgMonitor env = some r) :
    ∀ a ∈ r.2, a.isTalk = true := by
  unfold doCfgMonitor at hr
  simp only [Option.bind_eq_bind, Option.bind_eq_some_iff] at hr
  obtain ⟨cfg, _, hr⟩ := hr
  split at hr
  · cases hr
    exact List.forall_mem_nil _
  · split at hr
    · simp only [Option.bind_eq_some_iff, Option.some.injEq] at hr
      obtain ⟨p, hp, rfl⟩ := hr
      intro a ha
      rcases List.mem_cons.mp ha with rfl | hreported
      · rfl
      · exact isTalk_doAccessReport hp a hreported
    · cases hr
      exact List.forall_mem_nil _

theorem control_of_stop (hr : s.stop = some r) {a : Action} (ha : a ∈ r.2) :
    ∃ call sstype cmd, a = .control call sstype cmd := by
  simp only [stop, cleanupSubservices, Option.bind_eq_bind, Option.bind_eq_some_iff,
    Option.some.injEq] at hr
  obtain ⟨_, ⟨sent, hsent, _, _, rfl⟩, rfl⟩ := hr
  obtain ⟨p, hp, rfl⟩ := List.mem_map.mp ha
  obtain ⟨c, _, hc⟩ := exists_of_mem_mapM hsent hp
  simp only [SubServiceCtl.sendStop, Option.bind_eq_bind, Option.bind_eq_some_iff,
    Option.some.injEq] at hc
  obtain ⟨_, _, rfl⟩ := hc
  exact ⟨_, _, _, rfl⟩

theorem proceeds_stop (hr : s.stop = some r) : s.Proceeds r := by
  have hplain : ∀ a ∈ r.2, a.isPlain = true := by
    intro a ha
    obtain ⟨call, sstype, cmd, rfl⟩ := control_of_stop hr ha
    rfl
  simp only [stop, cleanupSubservices, Option.bind_eq_bind, Option.bind_eq_some_iff,
    Option.some.injEq] at hr
  obtain ⟨_, ⟨sent, _, _, _, rfl⟩, rfl⟩ := hr
  exact .same rfl hplain

/-- A start empties the channel and gives one instruction. -/
theorem start_eq {id : Nat} (hr : s.start id = some r) :
    r = ({ s with state := .starting, instructionTrigger := some id, insTx := some id },
      [.listen, .fire .auth]) := by
  unfold start at hr
  split at hr
  · cases hr
    rfl
  · cases hr

theorem counts_start {id : Nat} (hr : s.start id = some r) : s.Counts r := by
  rw [start_eq hr]
  exact .same rfl (by simp [Action.isDownload])

/-- The request for the configuration is sent, or put off while a download is under way. -/
theorem doAuth_eq (env : Env) (s : Service) :
    ∃ a, s.doAuth env = some [a] ∧ a.isPlain = true ∧ a.Leads ∧
      (s.isUpgrading = true → a = .delay 30 .auth) ∧
      (s.isUpgrading = false → ∃ dnsServer, a = .auth dnsServer) := by
  unfold doAuth
  cases hflag : s.isUpgrading with
  | true => exact ⟨_, rfl, rfl, rfl, fun _ => rfl, nofun⟩
  | false =>
      rw [if_pos env.parses_serverUrl]
      exact ⟨_, rfl, rfl, trivial, nofun, fun _ => ⟨_, rfl⟩⟩

theorem proceeds_onMonitorTick (hr : s.onMonitorTick = some actions) : s.Proceeds (s, actions) := by
  simp only [onMonitorTick, Option.bind_eq_bind, Option.bind_eq_some_iff, Option.some.injEq] at hr
  obtain ⟨cfg, _, rfl⟩ := hr
  split
  · exact .same rfl (isPlain_fireInstruction _ _)
  · exact .idle rfl

theorem proceeds_onSubservicesStarted {id : Nat} {subservices : Option (List SubServiceCtl)}
    (hr : s.onSubservicesStarted id subservices = some r) : s.Proceeds r := by
  cases subservices with
  | none =>
      cases hr
      exact proceeds_delay s 5
  | some started =>
      simp only [onSubservicesStarted, Option.bind_eq_bind, Option.bind_eq_some_iff,
        Option.some.injEq] at hr
      obtain ⟨_, _, rfl⟩ := hr
      exact .idle rfl

theorem sameSet_doStartSubservices (hr : s.doStartSubservices = some r) : s.SameSet r.1 := by
  simp only [doStartSubservices, Option.bind_eq_bind, Option.bind_eq_some_iff,
    Option.some.injEq] at hr
  obtain ⟨cfg, _, tx, _, rfl⟩ := hr
  exact ⟨rfl, rfl, rfl⟩

theorem proceeds_doStartSubservices (hr : s.doStartSubservices = some r) :
    s.Proceeds r ∧ ∃ cfg domains, r.2 = [.startSubservice cfg domains] := by
  simp only [doStartSubservices, Option.bind_eq_bind, Option.bind_eq_some_iff,
    Option.some.injEq] at hr
  obtain ⟨cfg, _, tx, _, rfl⟩ := hr
  exact ⟨.same rfl (by simp [Action.isPlain]), _, _, rfl⟩

/-- No instruction has a download begin. -/
theorem counts_processInstruction {id : Nat} {ins : Instruction}
    (hr : s.processInstruction env id ins = some r) : s.Counts r := by
  cases ins with
  | auth =>
      obtain ⟨a, ha, hplain, _⟩ := doAuth_eq env s
      simp only [processInstruction, ha, Option.bind_eq_bind, Option.bind_some,
        Option.some.injEq] at hr
      subst hr
      exact .same rfl (by simpa using Action.isDownload_of_isPlain hplain)
  | startSubServices => exact (proceeds_doStartSubservices hr).1.counts
  | serverCfgMonitor => exact (proceeds_doCfgMonitor hr).counts
  | restart =>
      simp only [processInstruction, doRestart, Option.bind_eq_bind, Option.bind_eq_some_iff,
        Option.some.injEq] at hr
      obtain ⟨stopped, hstop, started, hstart, rfl⟩ := hr
      exact (proceeds_stop hstop).counts.trans (counts_start hstart)
  | accessLog v =>
      cases hr
      exact (Proceeds.idle rfl).counts
  | dnsAdd da =>
      cases hr
      exact (Proceeds.idle rfl).counts

/-- No instruction but a restart touches the channel. -/
theorem silent_processInstruction {id : Nat} {ins : Instruction} (hins : ins ≠ .restart)
    (hr : s.processInstruction env id ins = some r) :
    (∀ a ∈ r.2, a.isSilent = true) ∧ s.SameSet r.1 := by
  cases ins with
  | auth =>
      obtain ⟨a, ha, _, _, hwait, hask⟩ := doAuth_eq env s
      simp only [processInstruction, ha, Option.bind_eq_bind, Option.bind_some,
        Option.some.injEq] at hr
      subst hr
      refine ⟨List.forall_mem_singleton.mpr ?_, ⟨rfl, rfl, rfl⟩⟩
      cases hflag : s.isUpgrading with
      | true =>
          rw [hwait hflag]
          rfl
      | false =>
          obtain ⟨dnsServer, rfl⟩ := hask hflag
          rfl
  | startSubServices =>
      obtain ⟨_, cfg, domains, hactions⟩ := proceeds_doStartSubservices hr
      rw [hactions]
      exact ⟨List.forall_mem_singleton.mpr rfl, sameSet_doStartSubservices hr⟩
  | serverCfgMonitor =>
      exact ⟨fun a ha => Action.isSilent_of_isTalk (isTalk_doCfgMonitor hr a ha),
        sameSet_doCfgMonitor hr⟩
  | restart => exact absurd rfl hins
  | accessLog v =>
      cases hr
      exact ⟨List.forall_mem_nil _, rfl, rfl, rfl⟩
  | dnsAdd da =>
      cases hr
      exact ⟨List.forall_mem_nil _, rfl, rfl, rfl⟩

/-- While a download goes on, no instruction has the server asked for the configuration. -/
theorem isAsk_processInstruction {id : Nat} {ins : Instruction} (hflag : s.isUpgrading = true)
    (hr : s.processInstruction env id ins = some r) : ∀ a ∈ r.2, a.isAsk = false := by
  cases ins with
  | auth =>
      obtain ⟨a, ha, _, _, hwait, _⟩ := doAuth_eq env s
      simp only [processInstruction, ha, Option.bind_eq_bind, Option.bind_some,
        Option.some.injEq] at hr
      subst hr
      rw [hwait hflag]
      exact List.forall_mem_singleton.mpr rfl
  | startSubServices =>
      obtain ⟨_, cfg, domains, hactions⟩ := proceeds_doStartSubservices hr
      rw [hactions]
      exact List.forall_mem_singleton.mpr rfl
  | serverCfgMonitor =>
      exact fun a ha => Action.isAsk_of_isTalk (isTalk_doCfgMonitor hr a ha)
  | restart =>
      simp only [processInstruction, doRestart, Option.bind_eq_bind, Option.bind_eq_some_iff,
        Option.some.injEq] at hr
      obtain ⟨stopped, hstop, started, hstart, rfl⟩ := hr
      rw [start_eq hstart]
      intro a ha
      rcases List.mem_append.mp ha with hsent | hgiven
      · obtain ⟨call, sstype, cmd, rfl⟩ := control_of_stop hstop hsent
        rfl
      · simp only [List.mem_cons, List.not_mem_nil, or_false] at hgiven
        rcases hgiven with rfl | rfl <;> rfl
  | accessLog v =>
      cases hr
      exact List.forall_mem_nil _
  | dnsAdd da =>
      cases hr
      exact List.forall_mem_nil _

/-- A configuration of the server has the sub-services started. -/
theorem fires_onAuthReply {response : HTTPResponse} (htx : s.insTx.isSome = true)
    (hserves : env.Serves response) (hr : s.onAuthReply env (some response) none = some r) :
    r.2 = [.fire .startSubServices] := by
  obtain ⟨rsp, cfg, hparse, herror, hupgrade, hcfg⟩ := hserves
  obtain ⟨tx, htx⟩ := Option.isSome_iff_exists.mp htx
  simp only [onAuthReply, hparse, herror, ne_eq, not_true_eq_false, if_false, if_neg hupgrade,
    hcfg, Option.bind_eq_bind, Option.bind_eq_some_iff, Option.some.injEq] at hr
  obtain ⟨domains, _, rfl⟩ := hr
  simp only [fireInstruction, saveCfg, htx]

end Service

/-! ## What is under way -/

namespace ServiceWorld

variable {env : Env} {w w' : ServiceWorld} {e : ServiceEvent} {actions : List Action}
  {r : Service × List Action}

/-- Something is under way that leads to a start of the sub-services. -/
inductive Pending (w : ServiceWorld) : Prop where
  | queued {ins : Instruction} : ins ∈ w.queue → ins.Leads → Pending w
  | asked : 0 < w.auths → Pending w
  | delayed : .auth ∈ w.delayed → Pending w
  | starting {task : Starting} : task ∈ w.starting → Pending w

/-- The service is running, or on its way. -/
def Underway (w : ServiceWorld) : Prop :=
  w.svc.state = .running ∨ w.svc.state = .starting ∧ w.Pending

/-- The flag says whether there is a download. -/
def Balanced (w : ServiceWorld) : Prop := w.downloads = w.svc.upgrades

/-- The flag is up, and there is no download that could end. -/
def Stuck (w : ServiceWorld) : Prop := w.svc.isUpgrading = true ∧ w.downloads = 0

/-- No download ends with a panic, at once or later. -/
def Finishes (env : Env) (w : ServiceWorld) : ServiceEvent → Prop
  | .authReply response dir => w.Safe env (.authReply response dir)
  | .broken .download => False
  | _ => True

/-- No request for the configuration ends with a panic. -/
def Answers (env : Env) (w : ServiceWorld) : ServiceEvent → Prop
  | .authReply response dir => w.Safe env (.authReply response dir)
  | .broken .auth => False
  | _ => True

/-- A service that takes instructions is under way, and its flag says whether there is a
download. -/
structure OnTheWay (w : ServiceWorld) : Prop where
  wired : w.Wired
  balanced : w.Balanced
  underway : w.svc.instructionTrigger.isSome = true → w.Underway

theorem act_downloads (w : ServiceWorld) (a : Action) :
    (w.act a).downloads = w.downloads + if a.isDownload then 1 else 0 := by
  cases a with
  | fire ins =>
      show (w.give ins).downloads = w.downloads
      unfold give
      split <;> rfl
  | _ => rfl

theorem acts_downloads (actions : List Action) (w : ServiceWorld) :
    (actions.foldl act w).downloads = w.downloads + actions.countP Action.isDownload := by
  induction actions generalizing w with
  | nil => rfl
  | cons a actions ih =>
      rw [List.foldl_cons, ih, act_downloads, List.countP_cons]
      omega

theorem Pending.mono (h : w.Pending) (hqueue : w.queue ⊆ w'.queue) (hauths : w.auths ≤ w'.auths)
    (hdelayed : w.delayed ⊆ w'.delayed) (hstarting : w.starting ⊆ w'.starting) : w'.Pending := by
  cases h with
  | queued hmem hleads => exact .queued (hqueue hmem) hleads
  | asked hpos => exact .asked (Nat.lt_of_lt_of_le hpos hauths)
  | delayed hmem => exact .delayed (hdelayed hmem)
  | starting hmem => exact .starting (hstarting hmem)

/-- What is set going takes nothing away, unless the channel is emptied. -/
theorem Pending.act (h : w.Pending) {a : Action} (hlisten : a ≠ .listen) : (w.act a).Pending := by
  cases a with
  | listen => exact absurd rfl hlisten
  | fire ins =>
      show (w.give ins).Pending
      unfold give
      split
      · exact h.mono (List.subset_append_left _ _) (Nat.le_refl _) (List.Subset.refl _)
          (List.Subset.refl _)
      · exact h
  | auth dnsServer => exact .asked (Nat.succ_pos _)
  | delay seconds ins =>
      exact h.mono (List.Subset.refl _) (Nat.le_refl _) (List.subset_cons_self ins _)
        (List.Subset.refl _)
  | startSubservice cfg domains => exact .starting List.mem_cons_self
  | _ =>
      exact h.mono (List.Subset.refl _) (Nat.le_refl _) (List.Subset.refl _) (List.Subset.refl _)

theorem pending_act (htrigger : w.svc.instructionTrigger.isSome = true) {a : Action}
    (hleads : a.Leads) : (w.act a).Pending := by
  cases a with
  | fire ins =>
      show (w.give ins).Pending
      rw [give, if_pos htrigger]
      exact .queued List.mem_concat_self hleads
  | delay seconds ins =>
      cases hleads
      exact .delayed List.mem_cons_self
  | auth dnsServer => exact .asked (Nat.succ_pos _)
  | startSubservice cfg domains => exact .starting List.mem_cons_self
  | _ => cases hleads

theorem Pending.acts (h : w.Pending) (hlistens : ∀ a ∈ actions, a ≠ .listen) :
    (actions.foldl ServiceWorld.act w).Pending := by
  induction actions generalizing w with
  | nil => exact h
  | cons a actions ih =>
      obtain ⟨hlisten, hrest⟩ := List.forall_mem_cons.mp hlistens
      exact ih (h.act hlisten) hrest

theorem pending_acts (htrigger : w.svc.instructionTrigger.isSome = true)
    (hlistens : ∀ a ∈ actions, a ≠ .listen) {a : Action} (ha : a ∈ actions) (hleads : a.Leads) :
    (actions.foldl act w).Pending := by
  induction actions generalizing w with
  | nil => cases ha
  | cons b actions ih =>
      obtain ⟨_, hrest⟩ := List.forall_mem_cons.mp hlistens
      rcases List.mem_cons.mp ha with rfl | hlater
      · exact (pending_act htrigger hleads).acts hrest
      · exact ih (by rw [act_svc]; exact htrigger) hrest hlater

/-- After a call, what was under way is. -/
theorem Pending.after (h : w.Pending) (hproceeds : w.svc.Proceeds r) : (w.after r).Pending := by
  have hsame : Pending { w with svc := r.1, ids := w.ids + 1 } :=
    h.mono (List.Subset.refl _) (Nat.le_refl _) (List.Subset.refl _) (List.Subset.refl _)
  exact hsame.acts hproceeds.listens

/-- After a call that sets something going that leads to a start, something is under way. -/
theorem pending_after (htrigger : r.1.instructionTrigger.isSome = true)
    (hproceeds : w.svc.Proceeds r) {a : Action} (ha : a ∈ r.2) (hleads : a.Leads) :
    (w.after r).Pending :=
  pending_acts htrigger hproceeds.listens ha hleads

/-- A call that counts its downloads. -/
theorem after_downloads (hcounts : w.svc.Counts r) :
    ∃ n, (w.after r).svc.upgrades = w.svc.upgrades + n ∧
      (w.after r).downloads = w.downloads + n := by
  refine ⟨r.2.countP Action.isDownload, ?_, acts_downloads r.2 _⟩
  rw [after_svc]
  exact hcounts

/-- A start has the request for the configuration under way. -/
theorem pending_listen (htrigger : w.svc.instructionTrigger.isSome = true) :
    ([Action.listen, .fire .auth].foldl act w).Pending := by
  show (give { w with queue := [] } .auth).Pending
  rw [give, if_pos htrigger]
  exact .queued List.mem_concat_self (.inl rfl)

/-- As long as no download ends, the flag changes as downloads begin. -/
theorem handle_downloads (hhandle : w.handle env e = some w') (hended : e ≠ .downloaded)
    (hbroken : e ≠ .broken .download) :
    ∃ n, w'.svc.upgrades = w.svc.upgrades + n ∧ w'.downloads = w.downloads + n := by
  have hsame : ∃ n, w.svc.upgrades = w.svc.upgrades + n ∧ w.downloads = w.downloads + n :=
    ⟨0, rfl, rfl⟩
  cases e with
  | instruction =>
      unfold handle at hhandle
      cases hqueue : w.queue with
      | nil =>
          rw [hqueue] at hhandle
          cases hhandle
          exact hsame
      | cons ins rest =>
          simp only [hqueue, Option.bind_eq_bind, Option.bind_eq_some_iff,
            Option.some.injEq] at hhandle
          obtain ⟨r, hr, rfl⟩ := hhandle
          exact after_downloads (w := { w with queue := rest })
            (Service.counts_processInstruction hr)
  | authReply response dir =>
      simp only [handle, Option.bind_eq_bind, Option.bind_eq_some_iff, Option.some.injEq] at hhandle
      obtain ⟨r, hr, rfl⟩ := hhandle
      exact after_downloads (w := { w with auths := w.auths - 1 })
        (Service.proceeds_onAuthReply hr).counts
  | monitorReply response dir =>
      simp only [handle, Option.bind_eq_bind, Option.bind_eq_some_iff, Option.some.injEq] at hhandle
      obtain ⟨r, hr, rfl⟩ := hhandle
      exact after_downloads (w := { w with monitors := w.monitors - 1 })
        (Service.proceeds_onMonitorReply hr).counts
  | downloaded => exact absurd rfl hended
  | broken x =>
      cases x with
      | auth =>
          cases hhandle
          exact hsame
      | monitor =>
          cases hhandle
          exact hsame
      | download => exact absurd rfl hbroken
  | delayed ins =>
      cases hhandle
      have hproceeds : w.svc.Proceeds (w.svc, w.svc.fireInstruction ins) :=
        .same rfl (Service.isPlain_fireInstruction _ _)
      exact after_downloads (w := { w with delayed := w.delayed.erase ins }) hproceeds.counts
  | tick =>
      simp only [handle, Option.bind_eq_bind, Option.bind_eq_some_iff, Option.some.injEq] at hhandle
      obtain ⟨actions, hactions, rfl⟩ := hhandle
      exact after_downloads (Service.proceeds_onMonitorTick hactions).counts
  | started task ok =>
      simp only [handle, Option.bind_eq_bind, Option.bind_eq_some_iff, Option.some.injEq] at hhandle
      obtain ⟨r, hr, rfl⟩ := hhandle
      exact after_downloads (w := { w with starting := w.starting.erase task })
        (Service.proceeds_onSubservicesStarted hr).counts
  | subservice ins =>
      cases hhandle
      exact after_downloads (Service.Counts.same rfl (by simp [Action.isDownload]))
  | stop =>
      simp only [handle, Option.bind_eq_bind, Option.bind_eq_some_iff, Option.some.injEq] at hhandle
      obtain ⟨r, hr, rfl⟩ := hhandle
      exact after_downloads (Service.proceeds_stop hr).counts
  | start =>
      simp only [handle, Option.bind_eq_bind, Option.bind_eq_some_iff, Option.some.injEq] at hhandle
      obtain ⟨r, hr, rfl⟩ := hhandle
      exact after_downloads (Service.counts_start hr)

theorem Finishes.safe (h : w.Finishes env e) : w.Safe env e := by
  cases e with
  | authReply response dir => exact h
  | _ => trivial

theorem Answers.safe (h : w.Answers env e) : w.Safe env e := by
  cases e with
  | authReply response dir => exact h
  | _ => trivial

/-- A download that ends takes the flag down. -/
theorem Balanced.step (h : w.Balanced) (hwired : w.Wired) (hfinishes : w.Finishes env e)
    (hstep : Step env w e w') : w'.Balanced := by
  have hhandle := hstep.handled hwired hfinishes.safe
  by_cases hended : e = .downloaded
  · subst hended
    cases hhandle
    have hpos : 0 < w.downloads := hstep.enabled
    have hle := w.svc.upgrades_le
    rw [← h] at hle
    show w.downloads - 1 = 0
    omega
  · have hbroken : e ≠ .broken .download := by
      rintro rfl
      exact hfinishes
    obtain ⟨n, hflag, hcount⟩ := handle_downloads hhandle hended hbroken
    rw [Balanced, hflag, hcount, h]

/-- One that panics does not. -/
theorem Balanced.stuck (h : w.Balanced) (hwired : w.Wired) (hbreaks : ¬ w.Finishes env e)
    (hstep : Step env w e w') : w'.Stuck := by
  have hle := w.svc.upgrades_le
  cases hstep with
  | done henabled hhandle =>
      cases e with
      | authReply response dir =>
          exact absurd ((handle_spec hwired henabled).1.mp (hhandle ▸ rfl)) hbreaks
      | broken x =>
          cases x with
          | download =>
              cases hhandle
              have hpos : 0 < w.downloads := henabled
              rw [← h] at hle
              refine ⟨Service.upgrades_pos.mp (h ▸ hpos), ?_⟩
              show w.downloads - 1 = 0
              omega
          | _ => exact absurd trivial hbreaks
      | _ => exact absurd trivial hbreaks
  | panics henabled hnone =>
      have hunsafe := mt (handle_spec hwired henabled).1.mpr
        (Option.not_isSome_iff_eq_none.mpr hnone)
      simp only [Safe, not_forall] at hunsafe
      obtain ⟨_, _, _, ⟨_, _, _, hidle, _⟩, _⟩ := hunsafe
      refine ⟨rfl, ?_⟩
      show w.downloads = 0
      rw [h, Service.upgrades, if_neg (Bool.eq_false_iff.mp hidle)]

/-- From then on the flag is up, and no download begins. -/
theorem Stuck.step (h : w.Stuck) (hstep : Step env w e w') : w'.Stuck := by
  obtain ⟨hup, hzero⟩ := h
  cases hstep with
  | done henabled hhandle =>
      by_cases hended : e = .downloaded ∨ e = .broken .download
      · have hpos : 0 < w.downloads := by
          rcases hended with rfl | rfl <;> exact henabled
        omega
      · rw [not_or] at hended
        obtain ⟨n, hflag, hcount⟩ := handle_downloads hhandle hended.1 hended.2
        have hle := w'.svc.upgrades_le
        have hpos := Service.upgrades_pos.mpr hup
        obtain rfl : n = 0 := by omega
        exact ⟨Service.upgrades_pos.mp (hflag ▸ hpos), hcount.trans hzero⟩
  | panics _ _ => exact ⟨rfl, hzero⟩

/-- A run of downloads that end, or one that leaves the flag up. -/
theorem run_balanced_or {hardcoreDns : String} {es : List ServiceEvent}
    (hrun : Run (Step env) (init hardcoreDns) es w) :
    Run (Guarded (Finishes env) (Step env)) (init hardcoreDns) es w ∧ w.Balanced ∨ w.Stuck := by
  refine (hrun.guarded_or (I := fun w => w.Wired ∧ w.Balanced) (J := Stuck) ?_ ?_ ?_
    ⟨init_wired hardcoreDns, rfl⟩).imp_left (And.imp_right And.right)
  · rintro v e v' ⟨hwired, hbalanced⟩ hguard hstep
    exact ⟨hwired.step hstep, hbalanced.step hwired hguard hstep⟩
  · rintro v e v' ⟨hwired, hbalanced⟩ hguard hstep
    exact hbalanced.stuck hwired hguard hstep
  · exact fun _ _ _ hstuck hstep => hstuck.step hstep

theorem Underway.after (h : w.Underway) (hsame : w.svc.SameSet r.1)
    (hpending : w.Pending → (w.after r).Pending) : (w.after r).Underway := by
  unfold Underway
  rw [after_svc, hsame.state]
  exact h.imp_right fun ⟨hstate, hw⟩ => ⟨hstate, hpending hw⟩

/-- An instruction that leads to no start can be taken. -/
theorem Pending.rest {ins : Instruction} {rest : List Instruction} (h : w.Pending)
    (hqueue : w.queue = ins :: rest) (hins : ¬ ins.Leads) : Pending { w with queue := rest } := by
  cases h with
  | queued hmem hleads =>
      rw [hqueue] at hmem
      rcases List.mem_cons.mp hmem with rfl | hrest
      · exact absurd hleads hins
      · exact .queued hrest hleads
  | asked hpos => exact .asked hpos
  | delayed hmem => exact .delayed hmem
  | starting hmem => exact .starting hmem

/-- An instruction that is taken leaves the service on its way. -/
theorem Underway.instruction (h : w.Underway) {ins : Instruction} {rest : List Instruction}
    (htrigger : w.svc.instructionTrigger.isSome = true) (hqueue : w.queue = ins :: rest)
    (hr : w.svc.processInstruction env w.ids ins = some r) :
    ({ w with queue := rest }.after r).Underway := by
  have hrest : ¬ ins.Leads → Underway { w with queue := rest } := fun hins =>
    h.imp_right fun ⟨hstate, hw⟩ => ⟨hstate, hw.rest hqueue hins⟩
  -- when it leads to a start, it need not be on its way by anything else
  have hleads : w.svc.Proceeds r → w.svc.SameSet r.1 → (∃ a ∈ r.2, a.Leads) →
      ({ w with queue := rest }.after r).Underway := by
    rintro hproceeds hsame ⟨a, ha, hleads⟩
    have hpending : ({ w with queue := rest }.after r).Pending :=
      pending_after (by rw [hsame.trigger]; exact htrigger) hproceeds ha hleads
    unfold Underway
    rw [after_svc, hsame.state]
    exact h.imp_right fun ⟨hstate, _⟩ => ⟨hstate, hpending⟩
  cases ins with
  | auth =>
      obtain ⟨a, ha, hplain, haLeads, _⟩ := w.svc.doAuth_eq env
      simp only [Service.processInstruction, ha, Option.bind_eq_bind, Option.bind_some,
        Option.some.injEq] at hr
      subst hr
      exact hleads (.same rfl (by simpa using hplain)) ⟨rfl, rfl, rfl⟩
        ⟨a, List.mem_singleton_self a, haLeads⟩
  | startSubServices =>
      obtain ⟨hproceeds, cfg, domains, hactions⟩ := Service.proceeds_doStartSubservices hr
      have hmem : .startSubservice cfg domains ∈ r.2 := by
        rw [hactions]
        exact List.mem_singleton_self _
      exact hleads hproceeds (Service.sameSet_doStartSubservices hr) ⟨_, hmem, trivial⟩
  | serverCfgMonitor =>
      have hunder := hrest (by rintro (hins | hins) <;> cases hins)
      exact hunder.after (Service.sameSet_doCfgMonitor hr)
        fun hw => hw.after (Service.proceeds_doCfgMonitor hr)
  | restart =>
      simp only [Service.processInstruction, Service.doRestart, Option.bind_eq_bind,
        Option.bind_eq_some_iff, Option.some.injEq] at hr
      obtain ⟨stopped, _, started, hstart, rfl⟩ := hr
      rw [Service.start_eq hstart]
      unfold Underway
      rw [after_svc]
      refine .inr ⟨rfl, ?_⟩
      rw [ServiceWorld.after, List.foldl_append]
      exact pending_listen (by rw [acts_svc]; rfl)
  | accessLog v =>
      cases hr
      have hunder := hrest (by rintro (hins | hins) <;> cases hins)
      exact hunder.after ⟨rfl, rfl, rfl⟩ fun hw => hw.after (.idle rfl)
  | dnsAdd da =>
      cases hr
      have hunder := hrest (by rintro (hins | hins) <;> cases hins)
      exact hunder.after ⟨rfl, rfl, rfl⟩ fun hw => hw.after (.idle rfl)

/-- A service that takes instructions stays on its way. -/
theorem step_underway (hwired : w.Wired)
    (h : w.svc.instructionTrigger.isSome = true → w.Underway) (hanswers : w.Answers env e)
    (hstep : Step env w e w') (htrigger : w'.svc.instructionTrigger.isSome = true) :
    w'.Underway := by
  have henabled := hstep.enabled
  have hhandle := hstep.handled hwired hanswers.safe
  cases e with
  | instruction =>
      obtain ⟨htaken, hne⟩ := henabled
      unfold handle at hhandle
      cases hqueue : w.queue with
      | nil => exact absurd hqueue hne
      | cons ins rest =>
          simp only [hqueue, Option.bind_eq_bind, Option.bind_eq_some_iff,
            Option.some.injEq] at hhandle
          obtain ⟨r, hr, rfl⟩ := hhandle
          exact (h htaken).instruction htaken hqueue hr
  | authReply response dir =>
      simp only [handle, Option.bind_eq_bind, Option.bind_eq_some_iff, Option.some.injEq] at hhandle
      obtain ⟨r, hr, rfl⟩ := hhandle
      have hsame := Service.sameSet_onAuthReply hr
      rw [after_svc] at htrigger
      have htaken := hsame.trigger ▸ htrigger
      obtain ⟨a, ha, hleads⟩ := Service.leads_onAuthReply (hwired.sane.channel htaken) hr
      have hpending : ({ w with auths := w.auths - 1 }.after r).Pending :=
        pending_after htrigger (Service.proceeds_onAuthReply hr) ha hleads
      unfold Underway
      rw [after_svc, hsame.state]
      exact (h htaken).imp_right (And.imp_right fun _ => hpending)
  | monitorReply response dir =>
      simp only [handle, Option.bind_eq_bind, Option.bind_eq_some_iff, Option.some.injEq] at hhandle
      obtain ⟨r, hr, rfl⟩ := hhandle
      have hsame := Service.sameSet_onMonitorReply hr
      rw [after_svc] at htrigger
      have hunder := h (hsame.trigger ▸ htrigger)
      refine Underway.after (w := { w with monitors := w.monitors - 1 }) ?_ hsame fun hw =>
        hw.after (Service.proceeds_onMonitorReply hr)
      exact hunder.imp_right (And.imp_right fun hw => hw.mono (List.Subset.refl _)
        (Nat.le_refl _) (List.Subset.refl _) (List.Subset.refl _))
  | downloaded =>
      cases hhandle
      exact (h htrigger).imp_right (And.imp_right fun hw => hw.mono (List.Subset.refl _)
        (Nat.le_refl _) (List.Subset.refl _) (List.Subset.refl _))
  | broken x =>
      cases x with
      | auth => exact hanswers.elim
      | _ =>
          cases hhandle
          exact (h htrigger).imp_right (And.imp_right fun hw => hw.mono (List.Subset.refl _)
            (Nat.le_refl _) (List.Subset.refl _) (List.Subset.refl _))
  | delayed ins =>
      cases hhandle
      rw [after_svc] at htrigger
      obtain ⟨tx, htx⟩ := Option.isSome_iff_exists.mp (hwired.sane.channel htrigger)
      have hpending : ({ w with delayed := w.delayed.erase ins }.after
          (w.svc, w.svc.fireInstruction ins)).Pending := by
        refine pending_after (a := .fire ins) htrigger
          (.same rfl (Service.isPlain_fireInstruction _ _)) ?_ (.inl (hwired.delayed ins henabled))
        simp [Service.fireInstruction, htx]
      unfold Underway
      rw [after_svc]
      exact (h htrigger).imp_right (And.imp_right fun _ => hpending)
  | tick =>
      simp only [handle, Option.bind_eq_bind, Option.bind_eq_some_iff, Option.some.injEq] at hhandle
      obtain ⟨actions, hactions, rfl⟩ := hhandle
      rw [after_svc] at htrigger
      exact (h htrigger).after ⟨rfl, rfl, rfl⟩
        fun hw => hw.after (Service.proceeds_onMonitorTick hactions)
  | started task ok =>
      simp only [handle, Option.bind_eq_bind, Option.bind_eq_some_iff, Option.some.injEq] at hhandle
      obtain ⟨r, hr, rfl⟩ := hhandle
      cases ok with
      | true =>
          simp only [if_true, Service.onSubservicesStarted, Option.bind_eq_bind,
            Option.bind_eq_some_iff, Option.some.injEq] at hr
          obtain ⟨_, _, rfl⟩ := hr
          exact .inl rfl
      | false =>
          cases hr
          rw [after_svc] at htrigger
          have hpending : ({ w with starting := w.starting.erase task }.after
              (w.svc, [.delay 5 .auth])).Pending :=
            pending_after htrigger (w.svc.proceeds_delay 5) (List.mem_singleton_self _) rfl
          unfold Underway
          rw [after_svc]
          exact (h htrigger).imp_right (And.imp_right fun _ => hpending)
  | subservice ins =>
      cases hhandle
      rw [after_svc] at htrigger
      exact (h htrigger).after ⟨rfl, rfl, rfl⟩
        fun hw => hw.after (.same rfl (by simp [Action.isPlain]))
  | stop =>
      simp only [handle, Option.bind_eq_bind, Option.bind_eq_some_iff, Option.some.injEq] at hhandle
      obtain ⟨r, hr, rfl⟩ := hhandle
      simp only [Service.stop, Option.bind_eq_bind, Option.bind_eq_some_iff,
        Option.some.injEq] at hr
      obtain ⟨_, _, rfl⟩ := hr
      rw [after_svc] at htrigger
      cases htrigger
  | start =>
      simp only [handle, Option.bind_eq_bind, Option.bind_eq_some_iff, Option.some.injEq] at hhandle
      obtain ⟨r, hr, rfl⟩ := hhandle
      rw [Service.start_eq hr]
      unfold Underway
      rw [after_svc]
      exact .inr ⟨rfl, pending_listen rfl⟩

theorem OnTheWay.step (h : w.OnTheWay) (hstep : Step env w e w') (hfinishes : w.Finishes env e)
    (hanswers : w.Answers env e) : w'.OnTheWay :=
  ⟨h.wired.step hstep, h.balanced.step h.wired hfinishes hstep,
    step_underway h.wired h.underway hanswers hstep⟩

theorem run_underway {hardcoreDns : String} {es : List ServiceEvent}
    (hrun : Run (Guarded (Answers env) (Step env)) (init hardcoreDns) es w) :
    w.Wired ∧ (w.svc.instructionTrigger.isSome = true → w.Underway) := by
  refine hrun.preserves
    (I := fun w => w.Wired ∧ (w.svc.instructionTrigger.isSome = true → w.Underway)) ?_
    ⟨init_wired hardcoreDns, nofun⟩
  rintro v e v' ⟨hwired, hunderway⟩ ⟨hanswers, hstep⟩
  exact ⟨hwired.step hstep, step_underway hwired hunderway hanswers hstep⟩

/-! ## The way -/

/-- What happens by itself can lead there. -/
def Way (env : Env) (w w' : ServiceWorld) : Prop :=
  ∃ es, Run (Step env) w es w' ∧ ∀ e ∈ es, e.isOwn = true

theorem Way.refl (w : ServiceWorld) : Way env w w := ⟨[], .nil w, List.forall_mem_nil _⟩

theorem Way.step {v : ServiceWorld} (hstep : Step env w e w') (hown : e.isOwn = true)
    (h : Way env w' v) : Way env w v := by
  obtain ⟨es, hrun, hes⟩ := h
  exact ⟨e :: es, .cons hstep hrun, List.forall_mem_cons.mpr ⟨hown, hes⟩⟩

theorem Way.trans {v : ServiceWorld} (h : Way env w w') (h' : Way env w' v) : Way env w v := by
  obtain ⟨es, hrun, hes⟩ := h
  obtain ⟨es', hrun', hes'⟩ := h'
  refine ⟨es ++ es', hrun.append hrun', ?_⟩
  intro e he
  rcases List.mem_append.mp he with hfirst | hsecond
  · exact hes e hfirst
  · exact hes' e hsecond

/-- How many instructions are still to be taken; a restart leaves one more. -/
def backlog (w : ServiceWorld) : Nat :=
  (w.queue.map fun ins => if ins = .restart then 2 else 1).sum

theorem acts_queue (hsilent : ∀ a ∈ actions, a.isSilent = true) (w : ServiceWorld) :
    (actions.foldl act w).queue = w.queue := by
  induction actions generalizing w with
  | nil => rfl
  | cons a actions ih =>
      obtain ⟨ha, hrest⟩ := List.forall_mem_cons.mp hsilent
      rw [List.foldl_cons, ih hrest]
      cases a with
      | listen => cases ha
      | fire ins => cases ha
      | _ => rfl

/-- What waited is lost with the channel when the service starts again. -/
theorem restart_queue (rest : List Instruction)
    (hr : w.svc.processInstruction env w.ids .restart = some r) :
    ({ w with queue := rest }.after r).queue = [.auth] ∧
      ({ w with queue := rest }.after r).svc.instructionTrigger.isSome = true := by
  simp only [Service.processInstruction, Service.doRestart, Option.bind_eq_bind,
    Option.bind_eq_some_iff, Option.some.injEq] at hr
  obtain ⟨stopped, _, started, hstart, rfl⟩ := hr
  rw [Service.start_eq hstart, after_svc, ServiceWorld.after, List.foldl_append]
  simp [act, give, acts_svc]

/-- The oldest instruction can be taken, and fewer are left then. -/
theorem OnTheWay.take (h : w.OnTheWay) (env : Env)
    (htrigger : w.svc.instructionTrigger.isSome = true) (hne : w.queue ≠ []) :
    ∃ w', Step env w .instruction w' ∧
      w'.svc.instructionTrigger.isSome = true ∧ w'.backlog < w.backlog := by
  obtain ⟨w', hstep⟩ := h.wired.exists_step env .instruction ⟨htrigger, hne⟩ trivial
  refine ⟨w', hstep, ?_⟩
  have hw' := hstep.handled h.wired trivial
  unfold handle at hw'
  cases hqueue : w.queue with
  | nil => exact absurd hqueue hne
  | cons ins rest =>
      simp only [hqueue, Option.bind_eq_bind, Option.bind_eq_some_iff, Option.some.injEq] at hw'
      obtain ⟨r, hr, rfl⟩ := hw'
      by_cases hins : ins = .restart
      · subst hins
        obtain ⟨hleft, htrigger'⟩ := restart_queue rest hr
        refine ⟨htrigger', ?_⟩
        rw [backlog, hleft, backlog, hqueue]
        exact Nat.lt_of_lt_of_le Nat.one_lt_two (Nat.le_add_right _ _)
      · obtain ⟨hsilent, hsame⟩ := Service.silent_processInstruction hins hr
        rw [after_svc, hsame.trigger]
        refine ⟨htrigger, ?_⟩
        rw [ServiceWorld.after, backlog, acts_queue hsilent, backlog, hqueue, List.map_cons,
          List.sum_cons, if_neg hins]
        exact Nat.lt_add_of_pos_left Nat.one_pos

/-- All instructions can be taken. -/
theorem OnTheWay.drain (h : w.OnTheWay) (env : Env)
    (htrigger : w.svc.instructionTrigger.isSome = true) : ∃ w', Way env w w' ∧ w'.OnTheWay ∧
      w'.svc.instructionTrigger.isSome = true ∧ w'.queue = [] := by
  induction hn : w.backlog using Nat.strong_induction_on generalizing w with
  | _ n ih =>
      subst hn
      by_cases hempty : w.queue = []
      · exact ⟨w, .refl w, h, htrigger, hempty⟩
      · obtain ⟨w₁, hstep, htrigger₁, hless⟩ := h.take env htrigger hempty
        obtain ⟨w', hway, hw'⟩ := ih w₁.backlog hless (h.step hstep trivial trivial) htrigger₁ rfl
        exact ⟨w', hway.step hstep rfl, hw'⟩

/-- A start can succeed. -/
theorem OnTheWay.of_starting (h : w.OnTheWay) (env : Env) {task : Starting}
    (htask : task ∈ w.starting) : ∃ w', Way env w w' ∧ w'.svc.state = .running := by
  obtain ⟨w', hstep⟩ := h.wired.exists_step env (.started task true) htask trivial
  refine ⟨w', (Way.refl w').step hstep rfl, ?_⟩
  have hw' := hstep.handled h.wired trivial
  simp only [handle, if_true, Service.onSubservicesStarted, Option.bind_eq_bind,
    Option.bind_eq_some_iff, Option.some.injEq] at hw'
  obtain ⟨_, ⟨_, _, rfl⟩, rfl⟩ := hw'
  rfl

/-- A request can be answered, and the answer leads to a start. -/
theorem OnTheWay.of_asked (h : w.OnTheWay) (htrigger : w.svc.instructionTrigger.isSome = true)
    (hqueue : w.queue = []) (hasked : 0 < w.auths) {response : HTTPResponse}
    (hserves : env.Serves response) : ∃ w', Way env w w' ∧ w'.svc.state = .running := by
  have hsafe : w.Safe env (.authReply (some response) none) := by
    rintro rsp _ hdir
    cases hdir
  obtain ⟨w₁, hstep₁⟩ := h.wired.exists_step env (.authReply (some response) none) hasked hsafe
  have h₁ := h.step hstep₁ hsafe hsafe
  have hw₁ := hstep₁.handled h.wired hsafe
  simp only [handle, Option.bind_eq_bind, Option.bind_eq_some_iff, Option.some.injEq] at hw₁
  obtain ⟨r, hr, rfl⟩ := hw₁
  have hsame := Service.sameSet_onAuthReply hr
  have hfired := Service.fires_onAuthReply (h.wired.sane.channel htrigger) hserves hr
  rw [← hsame.trigger] at htrigger
  have hqueue₁ : ({ w with auths := w.auths - 1 }.after r).queue = [.startSubServices] := by
    simp [ServiceWorld.after, hfired, act, give, htrigger, hqueue]
  obtain ⟨w₂, hstep₂, _⟩ := h₁.take env (by rwa [after_svc]) (by simp [hqueue₁])
  have h₂ := h₁.step hstep₂ trivial trivial
  have hstarting : ∃ task, task ∈ w₂.starting := by
    have hw₂ := hstep₂.handled h₁.wired trivial
    simp only [handle, hqueue₁, Service.processInstruction, Option.bind_eq_bind,
      Option.bind_eq_some_iff, Option.some.injEq] at hw₂
    obtain ⟨p, hp, rfl⟩ := hw₂
    obtain ⟨_, cfg, domains, hactions⟩ := Service.proceeds_doStartSubservices hp
    simp [ServiceWorld.after, hactions, act]
  obtain ⟨task, htask⟩ := hstarting
  obtain ⟨w', hway, hrunning⟩ := h₂.of_starting env htask
  exact ⟨w', (hway.step hstep₂ rfl).step hstep₁ rfl, hrunning⟩

/-- A download can end, so that requests are not held back. -/
theorem OnTheWay.idle (h : w.OnTheWay) (env : Env) : ∃ w', Way env w w' ∧ w'.OnTheWay ∧
    w'.svc.instructionTrigger = w.svc.instructionTrigger ∧ w'.svc.isUpgrading = false ∧
      w'.queue = w.queue ∧ w'.delayed = w.delayed := by
  cases hflag : w.svc.isUpgrading with
  | false => exact ⟨w, .refl w, h, rfl, hflag, rfl, rfl⟩
  | true =>
      have henabled : w.Enabled .downloaded := by
        show 0 < w.downloads
        rw [h.balanced]
        exact Service.upgrades_pos.mpr hflag
      have hstep : Step env w .downloaded
          ({ w with downloads := w.downloads - 1 }.after (w.svc.onDownloaded, [])) :=
        .done henabled rfl
      exact ⟨_, (Way.refl _).step hstep rfl, h.step hstep trivial trivial, rfl, rfl, rfl, rfl⟩

/-- An instruction that was put off can be given, and leads to a request. -/
theorem OnTheWay.of_delayed (h : w.OnTheWay) (htrigger : w.svc.instructionTrigger.isSome = true)
    (hqueue : w.queue = []) (hdelayed : .auth ∈ w.delayed) {response : HTTPResponse}
    (hserves : env.Serves response) : ∃ w', Way env w w' ∧ w'.svc.state = .running := by
  obtain ⟨w₁, hway₁, h₁, hsame₁, hflag₁, hqueue₁, hdelayed₁⟩ := h.idle env
  rw [← hsame₁] at htrigger
  rw [← hdelayed₁] at hdelayed
  obtain ⟨tx, htx⟩ := Option.isSome_iff_exists.mp (h₁.wired.sane.channel htrigger)
  have hstep₂ : Step env w₁ (.delayed .auth) ({ w₁ with delayed := w₁.delayed.erase .auth }.after
      (w₁.svc, w₁.svc.fireInstruction .auth)) := .done hdelayed rfl
  have h₂ := h₁.step hstep₂ trivial trivial
  have hqueue₂ : ({ w₁ with delayed := w₁.delayed.erase .auth }.after
      (w₁.svc, w₁.svc.fireInstruction .auth)).queue = [.auth] := by
    simp [ServiceWorld.after, Service.fireInstruction, htx, act, give, htrigger, hqueue₁, hqueue]
  obtain ⟨a, ha, _, _, _, hask⟩ := w₁.svc.doAuth_eq env
  obtain ⟨dnsServer, rfl⟩ := hask hflag₁
  obtain ⟨w₃, hstep₃, htrigger₃, _⟩ := h₂.take env (by rwa [after_svc]) (by simp [hqueue₂])
  have h₃ := h₂.step hstep₃ trivial trivial
  have hasked : w₃.queue = [] ∧ 0 < w₃.auths := by
    have hw₃ := hstep₃.handled h₂.wired trivial
    simp only [handle, hqueue₂, Service.processInstruction, after_svc, ha, Option.bind_eq_bind,
      Option.bind_some, Option.some.injEq] at hw₃
    subst hw₃
    exact ⟨rfl, Nat.succ_pos _⟩
  obtain ⟨w', hway, hrunning⟩ := h₃.of_asked htrigger₃ hasked.1 hasked.2 hserves
  exact ⟨w', hway₁.trans ((hway.step hstep₃ rfl).step hstep₂ rfl), hrunning⟩

/-- A service that takes instructions can come to running by itself. -/
theorem OnTheWay.arrives (h : w.OnTheWay) (htrigger : w.svc.instructionTrigger.isSome = true)
    {response : HTTPResponse} (hserves : env.Serves response) :
    ∃ w', Way env w w' ∧ w'.svc.state = .running := by
  obtain ⟨w₁, hway₁, h₁, htrigger₁, hqueue₁⟩ := h.drain env htrigger
  have hrest : ∃ w', Way env w₁ w' ∧ w'.svc.state = .running := by
    rcases h₁.underway htrigger₁ with hrunning | ⟨_, hpending⟩
    · exact ⟨w₁, .refl w₁, hrunning⟩
    · cases hpending with
      | queued hmem _ =>
          rw [hqueue₁] at hmem
          cases hmem
      | asked hpos => exact h₁.of_asked htrigger₁ hqueue₁ hpos hserves
      | delayed hmem => exact h₁.of_delayed htrigger₁ hqueue₁ hmem hserves
      | starting hmem => exact h₁.of_starting env hmem
  obtain ⟨w', hway, hrunning⟩ := hrest
  exact ⟨w', hway₁.trans hway, hrunning⟩

/-- In every run of the program in which no request for the configuration ends with a panic, a
service that takes instructions is running or has something under way that leads to a start; and
while the flag is not left up by a download that panicked, and the server can answer with a
configuration, it can come to running without being stopped or started again. -/
theorem run_reaches_running {hardcoreDns : String} {es : List ServiceEvent}
    {response : HTTPResponse}
    (hrun : Run (Guarded (Answers env) (Step env)) (init hardcoreDns) es w)
    (htrigger : w.svc.instructionTrigger.isSome = true) (hserves : env.Serves response) :
    w.Underway ∧ ((w.svc.isUpgrading = true → 0 < w.downloads) →
      ∃ es' w', Run (Step env) w es' w' ∧ (∀ e ∈ es', e.isOwn = true) ∧
        w'.svc.state = .running) := by
  obtain ⟨hwired, hunderway⟩ := run_underway hrun
  refine ⟨hunderway htrigger, ?_⟩
  intro hflag
  have hbalanced : w.Balanced := by
    rcases run_balanced_or hrun.unguard with ⟨_, hbalanced⟩ | ⟨hup, hzero⟩
    · exact hbalanced
    · have hpos := hflag hup
      omega
  have honway : w.OnTheWay := ⟨hwired, hbalanced, hunderway⟩
  obtain ⟨w', ⟨es', hrun', hown⟩, hrunning⟩ := honway.arrives htrigger hserves
  exact ⟨es', w', hrun', hown, hrunning⟩

/-- The reply with a configuration that has the default in every field is one. -/
theorem machine_serves : machine.Serves (answer configText) := by
  have hread : (parseAuthReply machine (answer configText)).map
      (fun rsp => (rsp.error, rsp.needUpgrade, rsp.tuncfg.isSome)) = some (0, false, true) := by
    decide +kernel
  obtain ⟨rsp, hparse, hfacts⟩ := Option.map_eq_some_iff.mp hread
  simp only [Prod.mk.injEq] at hfacts
  obtain ⟨herror, hneed, hsome⟩ := hfacts
  obtain ⟨cfg, hcfg⟩ := Option.isSome_iff_exists.mp hsome
  exact ⟨rsp, cfg, hparse, herror, by simp [hneed], hcfg⟩

/-- A service that was stopped and started again. -/
theorem run_reaches_running_restarted :
    ∃ w, Run (Guarded (Answers machine) (Step machine)) (init "") restarted w ∧
      ∃ es' w', Run (Step machine) w es' w' ∧ w'.svc.state = .running := by
  have hexec : (restarted.foldlM (attempt Enabled (handle machine)) (init "")).map
      (fun w => (w.svc.instructionTrigger.isSome, w.svc.isUpgrading)) = some (true, false) := by
    decide +kernel
  obtain ⟨w, hw, hfacts⟩ := Option.map_eq_some_iff.mp hexec
  obtain ⟨htrigger, hflag⟩ := Prod.mk.inj hfacts
  have hanswers : ∀ e ∈ restarted, ∀ v : ServiceWorld, v.Answers machine e := by
    simp [restarted, Answers, Safe]
  have hrun : Run (Guarded (Answers machine) (Step machine)) (init "") restarted w :=
    ((run_of_attempts hw).restrict hanswers).mono fun v _ _ hstep => ⟨hstep.2 v, hstep.1⟩
  obtain ⟨_, hway⟩ := run_reaches_running hrun htrigger machine_serves
  obtain ⟨es', w', hrun', _, hrunning⟩ := hway (by rw [hflag]; exact fun h => absurd h Bool.false_ne_true)
  exact ⟨w, hrun, es', w', hrun', hrunning⟩

theorem acts_auths (hquiet : ∀ a ∈ actions, a.isAsk = false) (w : ServiceWorld) :
    (actions.foldl act w).auths = w.auths := by
  induction actions generalizing w with
  | nil => rfl
  | cons a actions ih =>
      obtain ⟨ha, hrest⟩ := List.forall_mem_cons.mp hquiet
      rw [List.foldl_cons, ih hrest]
      cases a with
      | auth _ => cases ha
      | fire ins =>
          show (w.give ins).auths = w.auths
          unfold give
          split <;> rfl
      | _ => rfl

/-- While the flag is up, no instruction has the server asked for the configuration. -/
theorem Step.auths_instruction (hstep : Step env w .instruction w')
    (hflag : w.svc.isUpgrading = true) : w'.auths = w.auths := by
  cases hstep with
  | done henabled hhandle =>
      unfold handle at hhandle
      cases hqueue : w.queue with
      | nil => exact absurd hqueue henabled.2
      | cons ins rest =>
          simp only [hqueue, Option.bind_eq_bind, Option.bind_eq_some_iff,
            Option.some.injEq] at hhandle
          obtain ⟨r, hr, rfl⟩ := hhandle
          exact acts_auths (Service.isAsk_processInstruction hflag hr) _

/-- In every run of the program, at most one download goes on at a time, and meanwhile the flag is
up; while it is up, no instruction has the server asked for the configuration; and it is up only
while a download goes on exactly as long as no download has ended with a panic. -/
theorem run_upgrading_iff {hardcoreDns : String} {es : List ServiceEvent}
    (hrun : Run (Step env) (init hardcoreDns) es w) :
    w.downloads ≤ 1 ∧ (0 < w.downloads → w.svc.isUpgrading = true) ∧
      (∀ w', w.svc.isUpgrading = true → Step env w .instruction w' → w'.auths = w.auths) ∧
      ((w.svc.isUpgrading = true → 0 < w.downloads) ↔
        Run (Guarded (Finishes env) (Step env)) (init hardcoreDns) es w) := by
  refine ⟨?_, ?_, fun w' hflag hstep => hstep.auths_instruction hflag, ?_⟩
  · rcases run_balanced_or hrun with ⟨_, hbalanced⟩ | ⟨_, hzero⟩
    · rw [hbalanced]
      exact w.svc.upgrades_le
    · omega
  · intro hpos
    rcases run_balanced_or hrun with ⟨_, hbalanced⟩ | ⟨_, hzero⟩
    · exact Service.upgrades_pos.mp (hbalanced ▸ hpos)
    · omega
  · constructor
    · intro hflag
      rcases run_balanced_or hrun with ⟨hguarded, _⟩ | ⟨hstuck, hzero⟩
      · exact hguarded
      · have hpos := hflag hstuck
        omega
    · intro hguarded hflag
      have hkept := hguarded.preserves (I := fun w => w.Wired ∧ w.Balanced)
        (fun _ _ _ h hstep => ⟨h.1.step hstep.2, h.2.step h.1 hstep.1 hstep.2⟩)
        ⟨init_wired hardcoreDns, rfl⟩
      rw [hkept.2]
      exact Service.upgrades_pos.mpr hflag

/-- When the answer to the request of the second start has the program upgraded, a download goes
on; when the very first answer does, the flag is left up. -/
theorem run_upgrading_iff_restarted :
    (∃ es w, Run (Step machine) (init "") es w ∧ 0 < w.downloads ∧ w.svc.isUpgrading = true) ∧
      ∃ es w, Run (Step machine) (init "") es w ∧ w.svc.isUpgrading = true ∧
        ¬ Run (Guarded (Finishes machine) (Step machine)) (init "") es w := by
  constructor
  · let es := restarted ++ [.authReply (some (answer upgradeText)) (some target)]
    have hexec : (es.foldlM (attempt Enabled (handle machine)) (init "")).map
        (fun w => w.downloads) = some 1 := by decide +kernel
    obtain ⟨w, hw, hone⟩ := Option.map_eq_some_iff.mp hexec
    have hrun : Run (Step machine) (init "") es w := run_of_attempts hw
    have hpos : 0 < w.downloads := by omega
    exact ⟨es, w, hrun, hpos, (run_upgrading_iff hrun).2.1 hpos⟩
  · have hrun : Run (Step machine) (init "")
        [.start, .instruction, .authReply (some (answer upgradeText)) (some target)] _ :=
      .cons (.done rfl rfl) (.cons (.done (by decide +kernel) rfl)
        (.cons (.panics (by decide +kernel) (by decide +kernel)) (.nil _)))
    refine ⟨_, _, hrun, rfl, ?_⟩
    intro hguarded
    have hpos := (run_upgrading_iff hrun).2.2.2.mpr hguarded rfl
    revert hpos
    decide +kernel

end ServiceWorld

end LproxyCv.Services
