import LproxyCv.Config
import LproxyCv.Dns.Text
import LproxyCv.Services.AccLog

set_option autoImplicit false

/-!
# Services: the top of the program

The service gets its configuration from the server, starts the sub-services with it and
asks the server again from time to time.  Everything it does is the answer to an
instruction, to a reply of a server or to a timer; each function returns what it sets
going, and `none` is a panic of the source.

What a call does to the system outside (`ipset`, `iptables`, `uci`, the file that is
downloaded) is left out.
-/

namespace LproxyCv.Services

open LproxyCv.Foundation LproxyCv.Net
open LproxyCv.Config (TunCfg AuthResp)
open LproxyCv.Tunnels (Channel Trigger)

/-- The address of the server. -/
def serverUrl : String := "https://abc.com/xyz"

/-- What the service has from elsewhere: which texts are addresses (the `url` crate), what
a text is read as (the `serde_json` crate), the text of an address, and the number of
processors. -/
structure Env where
  parses : String → Bool
  parses_serverUrl : parses serverUrl = true
  json : String → Option Config.Value
  ipText : IpAddr → String
  cpus : Nat

/-- What the service is doing. -/
inductive State where
  | stopped
  | starting
  | running
  | stopping
  deriving DecidableEq, Repr

/-- What the service is told to do. -/
inductive Instruction where
  | auth
  | startSubServices
  | serverCfgMonitor
  | restart
  | accessLog (v : List (IpAddr × IpAddr))
  | dnsAdd (da : DNSAddRecord)
  deriving DecidableEq

/-- The kinds of sub-services. -/
inductive SubServiceType where
  | forwarder
  | regMgr
  | tunMgr
  | xTunnel
  | udpX
  deriving DecidableEq, Repr

/-- A command to a sub-service. -/
inductive SubServiceCtlCmd where
  | stop
  | domainsUpdate (domains : List String)
  | tunCfgUpdate (cfg : TunCfg)
  deriving DecidableEq

/-- A sub-service: its thread and the channel to it, both known by the call of
`start_subservice` that made them. -/
structure SubServiceCtl where
  handler : Option Nat
  ctlTx : Option Nat
  sstype : SubServiceType
  deriving DecidableEq, Repr

/-- What a call sets going: the reading of a new channel, an instruction, one that is put
off for some seconds, a request to a server, the start of the sub-services, a command. -/
inductive Action where
  | listen
  | fire (ins : Instruction)
  | delay (seconds : Nat) (ins : Instruction)
  | auth (dnsServer : String)
  | monitor (url dnsServer : String)
  | report (url dnsServer : String)
  | download (url dnsServer filepath scriptpath : String)
  | startSubservice (cfg : TunCfg) (domains : List String)
  | control (call : Nat) (sstype : SubServiceType) (cmd : SubServiceCtlCmd)
  deriving DecidableEq

/-- The answer of a server. -/
structure HTTPResponse where
  status : Int32
  body : Option Bytes
  deriving DecidableEq

/-! ## The sub-services -/

/-- What a successful call of `start_subservice` returns. -/
def startSubservice (cpus call : Nat) (cfg : TunCfg) : List SubServiceCtl :=
  let xtunnel : List SubServiceType := if 0 < cfg.xportUrl.length then [.xTunnel] else []
  let types : List SubServiceType :=
    List.replicate cpus .tunMgr ++ [.regMgr, .forwarder, .udpX] ++ xtunnel
  types.map fun sstype => ⟨some call, some call, sstype⟩

/-- Tell a sub-service to stop, and give its channel up. -/
def SubServiceCtl.sendStop (s : SubServiceCtl) : Option (SubServiceCtl × Action) := do
  let tx ← s.ctlTx
  some ({ s with ctlTx := none }, .control tx s.sstype .stop)

/-- Wait for the thread of a sub-service. -/
def SubServiceCtl.join (s : SubServiceCtl) : Option SubServiceCtl := do
  let _ ← s.handler
  some { s with handler := none }

/-- Stop the sub-services, and wait for their threads. -/
def cleanupSubservices (subservices : List SubServiceCtl) :
    Option (List SubServiceCtl × List Action) := do
  let sent ← subservices.mapM SubServiceCtl.sendStop
  let joined ← (sent.map Prod.fst).mapM SubServiceCtl.join
  some (joined, sent.map Prod.snd)

/-- The service. -/
structure Service where
  state : State
  subservices : List SubServiceCtl
  insTx : Option Channel
  tuncfg : Option TunCfg
  monitorTrigger : Option Trigger
  instructionTrigger : Option Trigger
  domains : Option (List String)
  isUpgrading : Bool
  defaultDnsServer : String
  userSpecifyDnsServer : Bool
  accLog : AccLog
  deriving DecidableEq

/-- The answer of the server to an authentication, if it is one. -/
def parseAuthReply (env : Env) (response : HTTPResponse) : Option AuthResp :=
  if response.status ≠ 200 then none
  else
    match response.body with
    | some body => AuthResp.fromJsonStr env.json (Dns.fromUtf8Lossy body)
    | none => none

/-- A configuration that comes with an answer has its domains. -/
theorem parseAuthReply_domains {env : Env} {response : HTTPResponse} {rsp : AuthResp}
    {cfg : TunCfg} (h : parseAuthReply env response = some rsp) (hcfg : rsp.tuncfg = some cfg) :
    ∃ domains, cfg.domainArray = some domains := by
  unfold parseAuthReply at h
  split at h
  · cases h
  · split at h
    · exact Config.domainArray_of_fromJsonStr h hcfg
    · cases h

namespace Service

/-- A service that has not started. -/
def new (hardcoreDns : String) : Service :=
  { state := .stopped
    subservices := []
    insTx := none
    tuncfg := none
    monitorTrigger := none
    instructionTrigger := none
    domains := none
    isUpgrading := false
    defaultDnsServer :=
      if 0 < hardcoreDns.length then Config.withoutPort hardcoreDns else Config.defaultDnsServer
    userSpecifyDnsServer := 0 < hardcoreDns.length
    accLog := AccLog.new }

/-- Give an instruction, if there is a channel for it. -/
def fireInstruction (s : Service) (ins : Instruction) : List Action :=
  match s.insTx with
  | some _ => [.fire ins]
  | none => []

/-- Start, with a new channel and a new trigger; `id` is their identity.  To start a
service that is not stopped is a panic. -/
def start (s : Service) (id : Nat) : Option (Service × List Action) :=
  if s.state = .stopped then
    let s : Service :=
      { s with state := .starting, instructionTrigger := some id, insTx := some id }
    some (s, .listen :: s.fireInstruction .auth)
  else none

/-- Stop. -/
def stop (s : Service) : Option (Service × List Action) := do
  let (_, actions) ← cleanupSubservices s.subservices
  some
    ({ s with
        state := .stopped
        monitorTrigger := none
        instructionTrigger := none
        subservices := [] },
      actions)

/-- Stop and start. -/
def doRestart (s : Service) (id : Nat) : Option (Service × List Action) := do
  let (s, stopped) ← s.stop
  let (s, started) ← s.start id
  some (s, stopped ++ started)

/-! ## Asking the server -/

/-- Ask the server for the configuration, unless an upgrade is under way. -/
def doAuth (env : Env) (s : Service) : Option (List Action) :=
  if s.isUpgrading then some [.delay 30 .auth]
  else if env.parses serverUrl then
    some [.auth (if 0 < s.defaultDnsServer.length then s.defaultDnsServer
      else Config.defaultDnsServer)]
  else none

/-- Download a new version of the program. -/
def doDownload (env : Env) (s : Service) (dir : String × String) (url : String) :
    Option (Service × List Action) :=
  if s.isUpgrading then some (s, [])
  else if env.parses url then do
    let cfg ← s.tuncfg
    some ({ s with isUpgrading := true }, [.download url cfg.defaultDnsServer dir.1 dir.2])
  else some ({ s with isUpgrading := false }, [])

/-- The DNS server that the user has named goes before the server's. -/
def replaceUserDefaultDnsServer (s : Service) (cfg : TunCfg) : TunCfg :=
  if s.userSpecifyDnsServer then { cfg with defaultDnsServer := s.defaultDnsServer } else cfg

/-- Keep the configuration. -/
def saveCfg (s : Service) (cfg : TunCfg) : Service := { s with tuncfg := some cfg }

/-- The answer to an authentication; `dir` is where a new version would go. -/
def onAuthReply (env : Env) (s : Service) (response : Option HTTPResponse)
    (dir : Option (String × String)) : Option (Service × List Action) :=
  match response with
  | none => some (s, [.delay 15 .auth])
  | some response =>
      match parseAuthReply env response with
      | none => some (s, [.delay 30 .auth])
      | some rsp =>
          if rsp.error ≠ 0 then some (s, [.delay 30 .auth])
          else if rsp.needUpgrade ∧ 0 < rsp.upgradeUrl.length then
            match dir with
            | none => some (s, [.delay 30 .auth])
            | some dir => do
                let (s, actions) ← s.doDownload env dir rsp.upgradeUrl
                some (s, actions ++ [.delay 30 .auth])
          else
            match rsp.tuncfg with
            | none => some (s, [.delay 30 .auth])
            | some cfg => do
                let domains ← cfg.domainArray
                let s := { s with domains := some domains }
                let s := s.saveCfg (s.replaceUserDefaultDnsServer { cfg with domainArray := none })
                some (s, s.fireInstruction .startSubServices)

/-- Tell the forwarder its domains. -/
def notifyForwarderUpdateDomains (s : Service) (domains : List String) : List Action :=
  let forwarders := s.subservices.filter fun ss => ss.sstype = .forwarder
  ((forwarders.findSome? SubServiceCtl.ctlTx).map fun tx =>
    Action.control tx .forwarder (.domainsUpdate domains)).toList

/-- Tell the tunnel managers the configuration. -/
def notifySubserviceUpdateCfg (s : Service) : Option (List Action) := do
  let cfg ← s.tuncfg
  let tunMgrs := s.subservices.filter fun ss => ss.sstype = .tunMgr
  some ((tunMgrs.filterMap SubServiceCtl.ctlTx).map fun tx =>
    .control tx .tunMgr (.tunCfgUpdate cfg))

/-- Report the accesses, and forget them. -/
def doAccessReport (env : Env) (s : Service) : Option (Service × List Action) := do
  let cfg ← s.tuncfg
  let url := s!"{cfg.cfgAccessReportUrl}?tok={cfg.token}"
  if url.length < 1 ∨ cfg.token.length < 1 then some ({ s with accLog := s.accLog.clearLog }, [])
  else if s.accLog.isEmpty then some (s, [])
  else
    let s := { s with accLog := s.accLog.clearLog }
    if env.parses url then some (s, [.report url cfg.defaultDnsServer]) else some (s, [])

/-- Ask the server what is new, and report the accesses. -/
def doCfgMonitor (env : Env) (s : Service) : Option (Service × List Action) := do
  let cfg ← s.tuncfg
  let url := s!"{cfg.cfgMonitorUrl}?tok={cfg.token}"
  if url.length < 1 ∨ cfg.token.length < 1 then some (s, [])
  else if env.parses url then do
    let (s, actions) ← s.doAccessReport env
    some (s, .monitor url cfg.defaultDnsServer :: actions)
  else some (s, [])

/-- Take a new configuration from the answer to a monitor request. -/
def updateCfg (s : Service) : Option TunCfg → Option (Service × List Action)
  | none => some (s, [])
  | some cfg => do
      let told :=
        match cfg.domainArray with
        | some domains => if 0 < domains.length then s.notifyForwarderUpdateDomains domains else []
        | none => []
      let s := s.saveCfg (s.replaceUserDefaultDnsServer { cfg with domainArray := none })
      let sent ← s.notifySubserviceUpdateCfg
      some (s, told ++ sent)

/-- The answer to a monitor request. -/
def onMonitorReply (env : Env) (s : Service) (response : Option HTTPResponse)
    (dir : Option (String × String)) : Option (Service × List Action) :=
  match response.bind (parseAuthReply env) with
  | none => some (s, [])
  | some rsp =>
      if rsp.error ≠ 0 then some (s, [])
      else do
        let (s, updated) ← s.updateCfg rsp.tuncfg
        if rsp.needUpgrade ∧ 0 < rsp.upgradeUrl.length then
          match dir with
          | none => some (s, updated)
          | some dir => do
              let (s, actions) ← s.doDownload env dir rsp.upgradeUrl
              some (s, updated ++ actions)
        else if rsp.restart then some (s, updated ++ s.fireInstruction .restart)
        else some (s, updated)

/-- A download is over, however it went. -/
def onDownloaded (s : Service) : Service := { s with isUpgrading := false }

/-! ## The sub-services of the service -/

/-- Have the sub-services started. -/
def doStartSubservices (s : Service) : Option (Service × List Action) := do
  let cfg ← s.tuncfg
  let _ ← s.insTx
  some ({ s with domains := none }, [.startSubservice cfg (s.domains.getD [])])

/-- Set the rules of the system; the answer is whether they are those for all traffic. -/
def configSys (s : Service) : Option Bool := do
  let cfg ← s.tuncfg
  some cfg.workAsGlobal

/-- Start the timer that has the server asked; `id` is the identity of its trigger. -/
def startMonitorTimer (s : Service) (id : Nat) : Service := { s with monitorTrigger := some id }

/-- A tick of that timer. -/
def onMonitorTick (s : Service) : Option (List Action) := do
  let cfg ← s.tuncfg
  some (if 0 < cfg.cfgMonitorUrl.length then s.fireInstruction .serverCfgMonitor else [])

/-- The start of the sub-services is over, with what was started if it went well. -/
def onSubservicesStarted (s : Service) (id : Nat) (subservices : Option (List SubServiceCtl)) :
    Option (Service × List Action) :=
  match subservices with
  | some started => do
      let s :=
        { s with subservices := s.subservices ++ started.reverse, state := .running }
      let _ ← s.configSys
      some (s.startMonitorTimer id, [])
  | none => some (s, [.delay 5 .auth])

/-- Do what the instruction says. -/
def processInstruction (env : Env) (s : Service) (id : Nat) :
    Instruction → Option (Service × List Action)
  | .auth => do
      let actions ← s.doAuth env
      some (s, actions)
  | .startSubServices => s.doStartSubservices
  | .serverCfgMonitor => s.doCfgMonitor env
  | .restart => s.doRestart id
  | .accessLog v => some ({ s with accLog := s.accLog.log env.ipText v }, [])
  | .dnsAdd da => some ({ s with accLog := s.accLog.domainAdd da }, [])

end Service

/-! ## What the calls leave and what they set going -/

/-- A traversal that fails at no element, and what its results are like. -/
theorem mapM_some {α β : Type} {f : α → Option β} {P : β → Prop} :
    ∀ {l : List α}, (∀ a ∈ l, ∃ b, f a = some b ∧ P b) →
      ∃ bs, l.mapM f = some bs ∧ ∀ b ∈ bs, P b
  | [], _ => ⟨[], rfl, nofun⟩
  | a :: l, h => by
      obtain ⟨b, hb, hpb⟩ := h a List.mem_cons_self
      obtain ⟨bs, hbs, hall⟩ := mapM_some fun a' ha' => h a' (List.mem_cons_of_mem a ha')
      refine ⟨b :: bs, by simp [List.mapM_cons, hb, hbs], ?_⟩
      rintro b' hb'
      rcases List.mem_cons.mp hb' with rfl | hrest
      · exact hpb
      · exact hall b' hrest

/-- Sub-services that have their thread and their channel can be stopped. -/
theorem cleanupSubservices_some {subservices : List SubServiceCtl}
    (h : ∀ c ∈ subservices, c.handler.isSome = true ∧ c.ctlTx.isSome = true) :
    ∃ r, cleanupSubservices subservices = some r ∧
      ∀ a ∈ r.2, ∃ call sstype, a = .control call sstype .stop := by
  have hsend : ∀ c ∈ subservices, ∃ p, c.sendStop = some p ∧
      (p.1.handler.isSome = true ∧ ∃ call sstype, p.2 = .control call sstype .stop) := by
    intro c hc
    obtain ⟨hhandler, htx⟩ := h c hc
    obtain ⟨tx, htx⟩ := Option.isSome_iff_exists.mp htx
    exact ⟨_, by rw [SubServiceCtl.sendStop, htx]; rfl, hhandler, tx, c.sstype, rfl⟩
  obtain ⟨sent, hsent, hall⟩ := mapM_some hsend
  have hjoin : ∀ c ∈ sent.map Prod.fst, ∃ c', c.join = some c' ∧ True := by
    intro c hc
    obtain ⟨p, hp, rfl⟩ := List.mem_map.mp hc
    obtain ⟨handler, hhandler⟩ := Option.isSome_iff_exists.mp (hall p hp).1
    exact ⟨_, by rw [SubServiceCtl.join, hhandler]; rfl, trivial⟩
  obtain ⟨joined, hjoined, _⟩ := mapM_some hjoin
  refine ⟨(joined, sent.map Prod.snd), ?_, ?_⟩
  · simp only [cleanupSubservices, hsent, hjoined, Option.bind_eq_bind, Option.bind_some]
  · intro a ha
    obtain ⟨p, hp, rfl⟩ := List.mem_map.mp ha
    exact (hall p hp).2

/-- What a call may set going when the configuration is not there: nothing that needs it,
and nothing put off but an authentication. -/
def Action.Fits (s : Service) : Action → Prop
  | .fire ins => ins = .startSubServices ∨ ins = .serverCfgMonitor → s.tuncfg.isSome = true
  | .delay _ ins => ins = .auth
  | .monitor _ _ => s.tuncfg.isSome = true
  | .startSubservice _ _ => s.tuncfg.isSome = true
  | _ => True

namespace Service

/-- The channel is there while instructions are taken, the sub-services have their threads
and their channels, and the timer runs only with the configuration. -/
structure Sane (s : Service) : Prop where
  channel : s.instructionTrigger.isSome = true → s.insTx.isSome = true
  held : ∀ c ∈ s.subservices, c.handler.isSome = true ∧ c.ctlTx.isSome = true
  timer : s.monitorTrigger.isSome = true → s.tuncfg.isSome = true

/-- A call leaves the service sane, does not lose the configuration, and sets nothing going
that needs what is not there. -/
structure Calls (s : Service) (r : Service × List Action) : Prop where
  sane : r.1.Sane
  keeps : s.tuncfg.isSome = true → r.1.tuncfg.isSome = true
  fits : ∀ a ∈ r.2, a.Fits r.1

variable {env : Env} {s : Service} {r : Service × List Action}

/-- A call that changes nothing. -/
theorem Calls.same (h : s.Sane) {actions : List Action} (hfits : ∀ a ∈ actions, a.Fits s) :
    s.Calls (s, actions) :=
  ⟨h, fun hcfg => hcfg, hfits⟩

theorem Sane.delay (h : s.Sane) {seconds : Nat} : s.Calls (s, [.delay seconds .auth]) :=
  .same h (by simp [Action.Fits])

theorem Calls.trans {r' : Service × List Action} (h : s.Calls r) (h' : r.1.Calls r') :
    s.Calls (r'.1, r.2 ++ r'.2) := by
  refine ⟨h'.sane, fun hcfg => h'.keeps (h.keeps hcfg), ?_⟩
  intro a ha
  rcases List.mem_append.mp ha with hfirst | hsecond
  · have hfits := h.fits a hfirst
    cases a with
    | fire ins => exact fun hins => h'.keeps (hfits hins)
    | delay _ ins => exact hfits
    | monitor _ _ => exact h'.keeps hfits
    | startSubservice _ _ => exact h'.keeps hfits
    | _ => trivial
  · exact h'.fits a hsecond

theorem fits_fireInstruction {ins : Instruction}
    (h : ins = .startSubServices ∨ ins = .serverCfgMonitor → s.tuncfg.isSome = true) :
    ∀ a ∈ s.fireInstruction ins, a.Fits s := by
  intro a ha
  unfold fireInstruction at ha
  split at ha
  · cases List.mem_singleton.mp ha
    exact h
  · cases ha

theorem start_spec (h : s.Sane) {id : Nat} (hr : s.start id = some r) : s.Calls r := by
  unfold start at hr
  split at hr
  · cases hr
    refine ⟨⟨fun _ => rfl, h.held, h.timer⟩, fun hcfg => hcfg, ?_⟩
    intro a ha
    rcases List.mem_cons.mp ha with rfl | hfire
    · trivial
    · refine fits_fireInstruction ?_ a hfire
      rintro (hins | hins) <;> cases hins
  · cases hr

/-- A sane service can be stopped. -/
theorem stop_spec (h : s.Sane) : ∃ r, s.stop = some r ∧ s.Calls r ∧ r.1.state = .stopped := by
  obtain ⟨p, hp, hall⟩ := cleanupSubservices_some h.held
  refine ⟨_, by simp only [stop, hp, Option.bind_eq_bind, Option.bind_some]; rfl, ?_, rfl⟩
  refine ⟨⟨nofun, nofun, nofun⟩, fun hcfg => hcfg, ?_⟩
  intro a ha
  obtain ⟨call, sstype, rfl⟩ := hall a ha
  trivial

/-- A sane service can be stopped and started. -/
theorem doRestart_spec (h : s.Sane) (id : Nat) : ∃ r, s.doRestart id = some r ∧ s.Calls r := by
  obtain ⟨stopped, hstop, hcalls, hstate⟩ := stop_spec h
  obtain ⟨started, hstart⟩ : ∃ started, stopped.1.start id = some started := by
    unfold start
    rw [if_pos hstate]
    exact ⟨_, rfl⟩
  refine ⟨(started.1, stopped.2 ++ started.2), ?_, hcalls.trans (start_spec hcalls.sane hstart)⟩
  simp only [doRestart, hstop, hstart, Option.bind_eq_bind, Option.bind_some]

theorem doAuth_spec (env : Env) (h : s.Sane) :
    ∃ actions, s.doAuth env = some actions ∧ s.Calls (s, actions) := by
  unfold doAuth
  rw [if_pos env.parses_serverUrl]
  split
  · exact ⟨_, rfl, h.delay⟩
  · exact ⟨_, rfl, .same h (by simp [Action.Fits])⟩

/-- A download needs the configuration exactly when none is under way and the address is
one. -/
theorem doDownload_spec (env : Env) (h : s.Sane) (dir : String × String) (url : String) :
    ((s.doDownload env dir url).isSome = true ↔
      (s.isUpgrading = false → env.parses url = true → s.tuncfg.isSome = true)) ∧
    ∀ r, s.doDownload env dir url = some r → s.Calls r := by
  unfold doDownload
  cases hupgrading : s.isUpgrading with
  | true =>
      refine ⟨by simp, ?_⟩
      intro r hr
      cases hr
      exact .same h (List.forall_mem_nil _)
  | false =>
      cases hparses : env.parses url with
      | false =>
          refine ⟨by simp, ?_⟩
          intro r hr
          cases hr
          exact ⟨⟨h.channel, h.held, h.timer⟩, fun hcfg => hcfg, List.forall_mem_nil _⟩
      | true =>
          cases hcfg : s.tuncfg with
          | none => simp
          | some cfg =>
              refine ⟨by simp, ?_⟩
              intro r hr
              cases hr
              exact ⟨⟨h.channel, h.held, fun _ => rfl⟩, fun _ => rfl, by simp [Action.Fits]⟩

/-- A reply that has a download begin. -/
def BeginsDownload (env : Env) (s : Service) (rsp : AuthResp) : Prop :=
  rsp.error = 0 ∧ rsp.needUpgrade = true ∧ 0 < rsp.upgradeUrl.length ∧ s.isUpgrading = false ∧
    env.parses rsp.upgradeUrl = true

/-- The answer to an authentication is a panic exactly when it has a download begin
without the configuration. -/
theorem onAuthReply_spec (env : Env) (h : s.Sane) (response : Option HTTPResponse)
    (dir : Option (String × String)) :
    ((s.onAuthReply env response dir).isSome = true ↔
      ∀ rsp, response.bind (parseAuthReply env) = some rsp → dir.isSome = true →
        s.BeginsDownload env rsp → s.tuncfg.isSome = true) ∧
    ∀ r, s.onAuthReply env response dir = some r → s.Calls r := by
  have hdelay : ∀ {seconds : Nat} {P : Prop}, P →
      ((some (s, [Action.delay seconds .auth]) : Option (Service × List Action)).isSome = true ↔ P) ∧
        ∀ r, some (s, [Action.delay seconds .auth]) = some r → s.Calls r := by
    intro seconds P hP
    refine ⟨by simp [hP], ?_⟩
    rintro r hr
    cases hr
    exact h.delay
  unfold onAuthReply
  cases response with
  | none => exact hdelay fun rsp heq => absurd heq.symm (Option.some_ne_none rsp)
  | some response =>
      dsimp only [Option.bind_some]
      cases hparse : parseAuthReply env response with
      | none => exact hdelay fun rsp heq => absurd heq.symm (Option.some_ne_none rsp)
      | some rsp =>
          dsimp only
          split
          · rename_i herror
            refine hdelay ?_
            rintro _ heq _ ⟨hnone, _⟩
            cases heq
            exact absurd hnone herror
          · rename_i herror
            split
            · rename_i hupgrade
              cases dir with
              | none => exact hdelay fun _ _ hdir => absurd hdir Bool.false_ne_true
              | some d =>
                  obtain ⟨hsome, hcalls⟩ := doDownload_spec env h d rsp.upgradeUrl
                  constructor
                  · simp only [Option.bind_eq_bind, Option.isSome_bind, Option.isSome_some,
                      Option.any_true, hsome]
                    constructor
                    · rintro hcfg _ heq _ ⟨_, _, _, hidle, hparses⟩
                      cases heq
                      exact hcfg hidle hparses
                    · intro hcfg hidle hparses
                      exact hcfg rsp rfl trivial
                        ⟨not_not.mp herror, hupgrade.1, hupgrade.2, hidle, hparses⟩
                  · intro r hr
                    simp only [Option.bind_eq_bind, Option.bind_eq_some_iff,
                      Option.some.injEq] at hr
                    obtain ⟨r', hr', rfl⟩ := hr
                    exact (hcalls r' hr').trans (hcalls r' hr').sane.delay
            · rename_i hupgrade
              have hnone : ∀ rsp', some rsp = some rsp' → dir.isSome = true →
                  s.BeginsDownload env rsp' → s.tuncfg.isSome = true := by
                rintro _ heq _ ⟨_, hneed, hlong, _⟩
                cases heq
                exact absurd ⟨hneed, hlong⟩ hupgrade
              cases hcfg : rsp.tuncfg with
              | none => exact hdelay hnone
              | some cfg =>
                  obtain ⟨domains, hdomains⟩ := parseAuthReply_domains hparse hcfg
                  simp only [hdomains, Option.bind_eq_bind, Option.bind_some]
                  refine ⟨by simpa using hnone, ?_⟩
                  intro r hr
                  cases hr
                  exact ⟨⟨h.channel, h.held, fun _ => rfl⟩, fun _ => rfl,
                    fits_fireInstruction fun _ => rfl⟩

theorem doStartSubservices_spec (h : s.Sane) (hcfg : s.tuncfg.isSome = true)
    (htx : s.insTx.isSome = true) : ∃ r, s.doStartSubservices = some r ∧ s.Calls r := by
  obtain ⟨cfg, hcfg⟩ := Option.isSome_iff_exists.mp hcfg
  obtain ⟨tx, htx⟩ := Option.isSome_iff_exists.mp htx
  refine ⟨({ s with domains := none }, [.startSubservice cfg (s.domains.getD [])]), ?_,
    ⟨h.channel, h.held, h.timer⟩, fun hcfg => hcfg, ?_⟩
  · simp only [doStartSubservices, hcfg, htx, Option.bind_eq_bind, Option.bind_some]
  · simp [Action.Fits, hcfg]

theorem doAccessReport_spec (env : Env) (h : s.Sane) (hcfg : s.tuncfg.isSome = true) :
    ∃ r, s.doAccessReport env = some r ∧ s.Calls r := by
  obtain ⟨cfg, hcfg⟩ := Option.isSome_iff_exists.mp hcfg
  unfold doAccessReport
  simp only [hcfg, Option.bind_eq_bind, Option.bind_some]
  split
  · exact ⟨_, rfl, ⟨h.channel, h.held, fun _ => rfl⟩, fun _ => rfl, List.forall_mem_nil _⟩
  · split
    · exact ⟨_, rfl, .same h (List.forall_mem_nil _)⟩
    · split
      · exact ⟨_, rfl, ⟨h.channel, h.held, fun _ => rfl⟩, fun _ => rfl, by simp [Action.Fits]⟩
      · exact ⟨_, rfl, ⟨h.channel, h.held, fun _ => rfl⟩, fun _ => rfl, List.forall_mem_nil _⟩

theorem doCfgMonitor_spec (env : Env) (h : s.Sane) (hcfg : s.tuncfg.isSome = true) :
    ∃ r, s.doCfgMonitor env = some r ∧ s.Calls r := by
  obtain ⟨reported, hreported, hcalls⟩ := doAccessReport_spec env h hcfg
  obtain ⟨cfg, hcfg'⟩ := Option.isSome_iff_exists.mp hcfg
  unfold doCfgMonitor
  simp only [hcfg', Option.bind_eq_bind, Option.bind_some]
  split
  · exact ⟨_, rfl, .same h (List.forall_mem_nil _)⟩
  · split
    · refine ⟨(reported.1, _ :: reported.2), by rw [hreported]; rfl, hcalls.sane, hcalls.keeps, ?_⟩
      intro a ha
      rcases List.mem_cons.mp ha with rfl | hrest
      · exact hcalls.keeps hcfg
      · exact hcalls.fits a hrest
    · exact ⟨_, rfl, .same h (List.forall_mem_nil _)⟩

theorem updateCfg_spec (h : s.Sane) (cfg : Option TunCfg) :
    ∃ r, s.updateCfg cfg = some r ∧ s.Calls r := by
  cases cfg with
  | none => exact ⟨_, rfl, .same h (List.forall_mem_nil _)⟩
  | some cfg =>
      refine ⟨_, rfl, ⟨h.channel, h.held, fun _ => rfl⟩, fun _ => rfl, ?_⟩
      intro a ha
      -- what is sent is commands to sub-services
      rcases List.mem_append.mp ha with htold | hsent
      · split at htold
        · split at htold
          · simp only [notifyForwarderUpdateDomains, Option.mem_toList,
              Option.map_eq_some_iff] at htold
            obtain ⟨_, _, rfl⟩ := htold
            trivial
          · cases htold
        · cases htold
      · obtain ⟨_, _, rfl⟩ := List.mem_map.mp hsent
        trivial

theorem onMonitorReply_spec (env : Env) (h : s.Sane) (hcfg : s.tuncfg.isSome = true)
    (response : Option HTTPResponse) (dir : Option (String × String)) :
    ∃ r, s.onMonitorReply env response dir = some r ∧ s.Calls r := by
  unfold onMonitorReply
  cases response.bind (parseAuthReply env) with
  | none => exact ⟨_, rfl, .same h (List.forall_mem_nil _)⟩
  | some rsp =>
      dsimp only
      split
      · exact ⟨_, rfl, .same h (List.forall_mem_nil _)⟩
      · obtain ⟨updated, hupdated, hcalls⟩ := updateCfg_spec h rsp.tuncfg
        simp only [hupdated, Option.bind_eq_bind, Option.bind_some]
        split
        · cases dir with
          | none => exact ⟨_, rfl, hcalls⟩
          | some d =>
              obtain ⟨hsome, hafter⟩ := doDownload_spec env hcalls.sane d rsp.upgradeUrl
              obtain ⟨r, hr⟩ := Option.isSome_iff_exists.mp
                (hsome.mpr fun _ _ => hcalls.keeps hcfg)
              exact ⟨_, by simp only [hr]; rfl, hcalls.trans (hafter r hr)⟩
        · split
          · refine ⟨_, rfl, hcalls.trans (.same hcalls.sane (fits_fireInstruction ?_))⟩
            rintro (hins | hins) <;> cases hins
          · exact ⟨_, rfl, hcalls⟩

theorem onMonitorTick_spec (h : s.Sane) (hcfg : s.tuncfg.isSome = true) :
    ∃ actions, s.onMonitorTick = some actions ∧ s.Calls (s, actions) := by
  obtain ⟨cfg, hcfg'⟩ := Option.isSome_iff_exists.mp hcfg
  refine ⟨_, by rw [onMonitorTick, hcfg']; rfl, .same h ?_⟩
  intro a ha
  split at ha
  · exact fits_fireInstruction (fun _ => hcfg) a ha
  · cases ha

theorem onSubservicesStarted_spec (h : s.Sane) (hcfg : s.tuncfg.isSome = true) (id : Nat)
    (subservices : Option (List SubServiceCtl))
    (hmade : ∀ started, subservices = some started →
      ∀ c ∈ started, c.handler.isSome = true ∧ c.ctlTx.isSome = true) :
    ∃ r, s.onSubservicesStarted id subservices = some r ∧ s.Calls r := by
  cases subservices with
  | none => exact ⟨_, rfl, h.delay⟩
  | some started =>
      obtain ⟨cfg, hcfg'⟩ := Option.isSome_iff_exists.mp hcfg
      simp only [onSubservicesStarted, configSys, hcfg', Option.bind_eq_bind, Option.bind_some]
      refine ⟨_, rfl, ⟨h.channel, ?_, fun _ => rfl⟩, fun _ => rfl, List.forall_mem_nil _⟩
      intro c hc
      rcases List.mem_append.mp hc with hold | hnew
      · exact h.held c hold
      · exact hmade started rfl c (List.mem_reverse.mp hnew)

/-- An instruction is a panic at most when it needs the configuration. -/
theorem processInstruction_spec (env : Env) (h : s.Sane) (id : Nat) {ins : Instruction}
    (htx : s.insTx.isSome = true)
    (hneeds : ins = .startSubServices ∨ ins = .serverCfgMonitor → s.tuncfg.isSome = true) :
    ∃ r, s.processInstruction env id ins = some r ∧ s.Calls r := by
  cases ins with
  | auth =>
      obtain ⟨actions, hactions, hcalls⟩ := doAuth_spec env h
      exact ⟨_, by simp only [processInstruction, hactions]; rfl, hcalls⟩
  | startSubServices => exact doStartSubservices_spec h (hneeds (.inl rfl)) htx
  | serverCfgMonitor => exact doCfgMonitor_spec env h (hneeds (.inr rfl))
  | restart => exact doRestart_spec h id
  | accessLog v =>
      exact ⟨_, rfl, ⟨h.channel, h.held, h.timer⟩, fun hcfg => hcfg, List.forall_mem_nil _⟩
  | dnsAdd da =>
      exact ⟨_, rfl, ⟨h.channel, h.held, h.timer⟩, fun hcfg => hcfg, List.forall_mem_nil _⟩

end Service

end LproxyCv.Services
