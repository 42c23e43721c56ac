import LproxyCv.Foundation.Spawned
import LproxyCv.Services.Service

set_option autoImplicit false

/-!
# Services: the start of the sub-services

Each sub-service has a thread, in which its manager binds sockets and spawns tasks.  Every
task holds the manager, and the manager keeps the triggers of its tasks.

When a sub-service cannot start, those before it are stopped and waited for.  Of the one
that has failed nobody drops the triggers: what it has spawned runs on
(`nothing_left_iff`).
-/

namespace LproxyCv.Services.Startup

open LproxyCv.Foundation
open LproxyCv.Config (TunCfg)

/-! ## Sockets and tasks -/

/-- What a socket is for. -/
inductive Proto where
  | tcp
  | udp
  deriving DecidableEq, Repr

/-- Where a manager keeps the trigger of a task. -/
inductive Slot where
  | keepalive
  | server
  | server6
  | lresolver
  deriving DecidableEq, Repr

/-- What a task does.  An attempt to connect ends by itself, or when its tunnel is shut down. -/
inductive Work where
  | listen (proto : Proto) (addr : String)
  | timer
  | connect (index : Nat)
  deriving DecidableEq, Repr

/-- Whether the calls succeed that a listener is made with. -/
structure SocketCalls where
  bind : Bool
  fromStd : Bool
  setsockopt : Bool
  deriving DecidableEq, Repr

/-- All of them. -/
def SocketCalls.succeed (c : SocketCalls) : Bool := c.bind && c.fromStd && c.setsockopt

/-- Those of a socket that needs no option. -/
def SocketCalls.succeedPlain (c : SocketCalls) : Bool := c.bind && c.fromStd

/-- Those of a socket that is not handed over. -/
def SocketCalls.succeedRaw (c : SocketCalls) : Bool := c.bind && c.setsockopt

/-- What the system answers to the calls of one start. -/
structure Sockets where
  requests : SocketCalls
  requests6 : SocketCalls
  dns : SocketCalls
  lresolver : SocketCalls
  udpx : SocketCalls
  udpx6 : SocketCalls
  deriving DecidableEq, Repr

/-- A start in a thread: whether it succeeds, and what runs then. -/
abbrev Init : Type := Spawned Slot Work → Bool × Spawned Slot Work

/-- One start, and another if it succeeds. -/
def Init.andThen (a b : Init) : Init := fun t => if (a t).1 then b (a t).2 else a t

/-- Spawn the task of a listener, if all calls have succeeded. -/
def listen (ok : Bool) (proto : Proto) (addr : String) (slot : Slot) : Init := fun t =>
  if ok then (true, t.spawn (.listen proto addr) (some slot)) else (false, t)

/-- Start the attempts to connect. -/
def connects (n : Nat) (t : Spawned Slot Work) : Spawned Slot Work :=
  (List.range n).foldl (fun t index => t.spawn (.connect index) none) t

/-! ## The managers -/

/-- `Server::start` of the requests. -/
def requestsServerStart (c : SocketCalls) (addr : String) (slot : Slot) : Init :=
  listen c.succeed .tcp addr slot

/-- `UdpServer::start` of the messages of UDP. -/
def udpxServerStart (c : SocketCalls) (addr : String) (slot : Slot) : Init :=
  listen c.succeedRaw .udp addr slot

/-- `UdpServer::start` of the forwarder: with its socket the tunnels are connected. -/
def dnsServerStart (c : SocketCalls) (capacity : Nat) : Init := fun t =>
  if c.succeedPlain then
    (true, (connects capacity t).spawn (.listen .udp "127.0.0.1:5001") (some .server))
  else (false, t)

/-- `LocalResolver::start`. -/
def lresolverStart (c : SocketCalls) : Init :=
  listen c.succeedPlain .udp "0.0.0.0:0" .lresolver

/-- `ReqMgr::init`. -/
def reqMgrInit (s : Sockets) : Init :=
  (requestsServerStart s.requests "127.0.0.1:5000" .server).andThen
    (requestsServerStart s.requests6 "[::1]:5000" .server6)

/-- `UdpXMgr::init`. -/
def udpXMgrInit (s : Sockets) : Init :=
  (udpxServerStart s.udpx "127.0.0.1:5000" .server).andThen
    (udpxServerStart s.udpx6 "[::1]:5000" .server6)

/-- `Forwarder::init`. -/
def forwarderInit (s : Sockets) (capacity : Nat) : Init := fun t =>
  (dnsServerStart s.dns capacity).andThen (lresolverStart s.lresolver)
    (t.spawn .timer (some .keepalive))

/-- `TunMgr::init`. -/
def tunMgrInit (capacity : Nat) : Init := fun t =>
  (true, (connects capacity t).spawn .timer (some .keepalive))

/-- `XTunnel::start`. -/
def xTunnelStart : Init := fun t =>
  (true, (t.spawn (.connect 0) none).spawn .timer (some .keepalive))

/-- The triggers that a manager drops when it is told to stop. -/
def stopSlots : SubServiceType → List Slot
  | .forwarder => [.keepalive, .server, .lresolver]
  | .regMgr => [.server, .server6]
  | .tunMgr => [.keepalive]
  | .xTunnel => [.keepalive]
  | .udpX => [.server, .server6]

/-! ## The sub-services -/

/-- The thread of a sub-service. -/
structure SubThread where
  sstype : SubServiceType
  run : Spawned Slot Work
  deriving DecidableEq, Repr

/-- Start the thread of a sub-service: what it reports, and the thread.  Of one that cannot start
the future returns, and it has no manager to stop. -/
def startThread (sstype : SubServiceType) (init : Init) : Bool × SubThread :=
  let r := init .begin
  if r.1 then (true, ⟨sstype, r.2⟩) else (false, ⟨sstype, r.2.leave⟩)

/-- A tunnel manager reports success in either case. -/
def startOneTunmgr (tunnelsCount : Nat) : Bool × SubThread :=
  let r := tunMgrInit tunnelsCount .begin
  if r.1 then (true, ⟨.tunMgr, r.2⟩) else (true, ⟨.tunMgr, r.2.leave⟩)

/-- How many tunnels each manager has. -/
def tunnelsPerMgr (cpus : Nat) (cfg : TunCfg) : Nat :=
  if cfg.tunnelNumber / cpus < 1 then 1 else cfg.tunnelNumber / cpus

/-- The sub-services that have started, or, when one has failed, those before it and itself. -/
abbrev Subs : Type := Except (List SubThread × List SubThread) (List SubThread)

/-- Start the tunnel managers. -/
def startTunmgr (cpus : Nat) (cfg : TunCfg) : Subs :=
  let started := List.replicate cpus (startOneTunmgr (tunnelsPerMgr cpus cfg))
  if started.all Prod.fst then .ok (started.map Prod.snd)
  else .error ((started.filter fun r => r.1).map Prod.snd, (started.filter fun r => !r.1).map Prod.snd)

/-- Put a sub-service to the others, if it has started. -/
def push (subservices : List SubThread) (r : Bool × SubThread) : Subs :=
  if r.1 then .ok (subservices ++ [r.2]) else .error (subservices, [r.2])

/-- The sub-services behind the tunnel managers, in their order. -/
def others (s : Sockets) (cfg : TunCfg) : List (Bool × SubThread) :=
  [startThread .regMgr (reqMgrInit s), startThread .forwarder (forwarderInit s cfg.dnsTunnelNumber),
    startThread .udpX (udpXMgrInit s)] ++
    if 0 < cfg.xportUrl.length then [startThread .xTunnel xTunnelStart] else []

/-- Tell a sub-service to stop: its manager drops its triggers, and its future returns. -/
def SubThread.stop (t : SubThread) : SubThread :=
  { t with run := (t.run.release (stopSlots t.sstype)).leave }

/-- Wait for a thread; `none` is to wait for ever. -/
def SubThread.join (t : SubThread) : Option SubThread := t.run.join.map fun run => { t with run := run }

/-- Stop the sub-services, and wait for their threads. -/
def cleanupSubservices (subservices : List SubThread) : Option (List SubThread) :=
  (subservices.map SubThread.stop).mapM SubThread.join

/-- Start the sub-services, one after the other.  When one fails, those before it are stopped, and
the threads that the call has made are left; `none` is a call that never returns. -/
def startSubservice (s : Sockets) (cpus : Nat) (cfg : TunCfg) :
    Option (Except (List SubThread) (List SubThread)) :=
  match startTunmgr cpus cfg >>= fun subservices => (others s cfg).foldlM push subservices with
  | .ok subservices => some (.ok subservices)
  | .error (subservices, failed) =>
      (cleanupSubservices subservices).map fun stopped => .error (stopped ++ failed)

/-! ## What a start leaves -/

/-- A start spawns only tasks whose triggers it keeps, at certain places. -/
def Init.Tidy (slots : List Slot) (init : Init) : Prop :=
  ∀ t, t.Kept → t.Within slots → (init t).2.Kept ∧ (init t).2.Within slots

variable {slots : List Slot} {a b init : Init}

theorem tidy_listen {slot : Slot} (h : slot ∈ slots) (ok : Bool) (proto : Proto) (addr : String) :
    (listen ok proto addr slot).Tidy slots := by
  intro t hkept hwithin
  unfold listen
  split
  · exact ⟨hkept.spawn _ _, hwithin.spawn _ h⟩
  · exact ⟨hkept, hwithin⟩

theorem Init.Tidy.andThen (ha : a.Tidy slots) (hb : b.Tidy slots) : (a.andThen b).Tidy slots := by
  intro t hkept hwithin
  obtain ⟨hkept', hwithin'⟩ := ha t hkept hwithin
  unfold Init.andThen
  split
  · exact hb _ hkept' hwithin'
  · exact ⟨hkept', hwithin'⟩

theorem tidy_connects (n : Nat) {t : Spawned Slot Work} (hkept : t.Kept) (hwithin : t.Within slots) :
    (connects n t).Kept ∧ (connects n t).Within slots := by
  unfold connects
  generalize List.range n = indices
  induction indices generalizing t with
  | nil => exact ⟨hkept, hwithin⟩
  | cons index indices ih => exact ih (hkept.spawn _ _) (hwithin.spawn_free _)

theorem tidy_reqMgrInit (s : Sockets) : (reqMgrInit s).Tidy (stopSlots .regMgr) :=
  (tidy_listen (by decide) _ _ _).andThen (tidy_listen (by decide) _ _ _)

theorem tidy_udpXMgrInit (s : Sockets) : (udpXMgrInit s).Tidy (stopSlots .udpX) :=
  (tidy_listen (by decide) _ _ _).andThen (tidy_listen (by decide) _ _ _)

theorem tidy_forwarderInit (s : Sockets) (capacity : Nat) :
    (forwarderInit s capacity).Tidy (stopSlots .forwarder) := by
  have hserver : (dnsServerStart s.dns capacity).Tidy (stopSlots .forwarder) := by
    intro t hkept hwithin
    obtain ⟨hkept', hwithin'⟩ := tidy_connects capacity hkept hwithin
    unfold dnsServerStart
    split
    · exact ⟨hkept'.spawn _ _, hwithin'.spawn _ (by decide)⟩
    · exact ⟨hkept, hwithin⟩
  intro t hkept hwithin
  exact hserver.andThen (tidy_listen (by decide) _ _ _) _ (hkept.spawn _ _)
    (hwithin.spawn _ (by decide))

theorem tidy_tunMgrInit (capacity : Nat) : (tunMgrInit capacity).Tidy (stopSlots .tunMgr) := by
  intro t hkept hwithin
  obtain ⟨hkept', hwithin'⟩ := tidy_connects capacity hkept hwithin
  exact ⟨hkept'.spawn _ _, hwithin'.spawn _ (by decide)⟩

theorem tidy_xTunnelStart : xTunnelStart.Tidy (stopSlots .xTunnel) := by
  intro t hkept hwithin
  exact ⟨(hkept.spawn _ _).spawn _ _, (hwithin.spawn_free _).spawn _ (by decide)⟩

/-! ## Stopping -/

/-- A sub-service that can be stopped. -/
def SubThread.Stoppable (t : SubThread) : Prop := t.run.Within (stopSlots t.sstype)

theorem startThread_of_ok {sstype : SubServiceType} (h : (init .begin).1 = true) :
    startThread sstype init = (true, ⟨sstype, (init .begin).2⟩) := if_pos h

theorem startThread_of_failed {sstype : SubServiceType} (h : (init .begin).1 = false) :
    startThread sstype init = (false, ⟨sstype, (init .begin).2.leave⟩) :=
  if_neg (Bool.eq_false_iff.mp h)

theorem fst_startThread (sstype : SubServiceType) (init : Init) :
    (startThread sstype init).1 = (init .begin).1 := by
  cases h : (init .begin).1 with
  | false => rw [startThread_of_failed h]
  | true => rw [startThread_of_ok h]

theorem sstype_startThread (sstype : SubServiceType) (init : Init) :
    (startThread sstype init).2.sstype = sstype := by
  cases h : (init .begin).1 with
  | false => rw [startThread_of_failed h]
  | true => rw [startThread_of_ok h]

theorem stoppable_startThread {sstype : SubServiceType} (h : init.Tidy (stopSlots sstype))
    (hok : (startThread sstype init).1 = true) : (startThread sstype init).2.Stoppable := by
  rw [fst_startThread] at hok
  rw [startThread_of_ok hok]
  exact (h _ Spawned.kept_begin (Spawned.within_begin _)).2

/-- Sub-services that can be stopped are stopped and waited for, and nothing of them runs. -/
theorem cleanupSubservices_over {subservices : List SubThread}
    (h : ∀ t ∈ subservices, t.Stoppable) :
    ∃ stopped, cleanupSubservices subservices = some stopped ∧ ∀ t ∈ stopped, t.run.Over := by
  refine mapM_some fun t ht => ?_
  obtain ⟨t, hmem, rfl⟩ := List.mem_map.mp ht
  obtain ⟨run, hrun, hover⟩ := Spawned.exists_join (h t hmem)
  exact ⟨{ t.stop with run := run }, congrArg _ hrun, hover⟩

/-- Of a sub-service that has failed nothing runs exactly when it has spawned nothing. -/
theorem over_startThread_iff {sstype : SubServiceType} (h : init.Tidy slots)
    (hfailed : (startThread sstype init).1 = false) :
    (startThread sstype init).2.run.Over ↔ (init .begin).2.tasks = [] := by
  rw [fst_startThread] at hfailed
  rw [startThread_of_failed hfailed]
  exact Spawned.leave_over_iff (h _ Spawned.kept_begin (Spawned.within_begin _)).1

/-! ## Which of the starts fail -/

/-- Of two listeners that fail, nothing was spawned exactly when the first has failed. -/
theorem tasks_listen_andThen {ok ok' : Bool} {proto proto' : Proto} {addr addr' : String}
    {slot slot' : Slot} :
    (((listen ok proto addr slot).andThen (listen ok' proto' addr' slot')) .begin).1 =
        (ok && ok') ∧
      ((((listen ok proto addr slot).andThen (listen ok' proto' addr' slot')) .begin).2.tasks = [] ↔
        ok = false) := by
  cases ok <;> cases ok' <;> simp [Init.andThen, listen, Spawned.begin, Spawned.spawn]

/-- The forwarder spawns its timer first. -/
theorem tasks_forwarderInit (s : Sockets) (capacity : Nat) :
    (forwarderInit s capacity .begin).1 = (s.dns.succeedPlain && s.lresolver.succeedPlain) ∧
      (forwarderInit s capacity .begin).2.tasks ≠ [] := by
  have hspawn : ∀ (t : Spawned Slot Work) work slot, (t.spawn work slot).tasks ≠ [] :=
    fun t _ _ => List.append_ne_nil_of_right_ne_nil t.tasks (List.cons_ne_nil _ _)
  unfold forwarderInit Init.andThen dnsServerStart lresolverStart listen
  cases s.dns.succeedPlain with
  | false => exact ⟨rfl, hspawn _ _ _⟩
  | true =>
      cases s.lresolver.succeedPlain with
      | false => exact ⟨rfl, hspawn _ _ _⟩
      | true => exact ⟨rfl, hspawn _ _ _⟩

/-- The listener of a sub-service fails that it starts first: that of IPv4 for the requests, or,
behind all before it, that of IPv4 for the messages of UDP. -/
def Sockets.FirstListenerFails (s : Sockets) : Prop :=
  s.requests.succeed = false ∨
    (s.requests6.succeed = true ∧ s.dns.succeedPlain = true ∧ s.lresolver.succeedPlain = true ∧
      s.udpx.succeedRaw = false)

theorem failed_reqMgr_iff {s : Sockets}
    (h : (startThread .regMgr (reqMgrInit s)).1 = false) :
    (startThread .regMgr (reqMgrInit s)).2.run.Over ↔ s.requests.succeed = false := by
  rw [over_startThread_iff (tidy_reqMgrInit s) h]
  exact tasks_listen_andThen.2

theorem failed_udpXMgr_iff {s : Sockets}
    (h : (startThread .udpX (udpXMgrInit s)).1 = false) :
    (startThread .udpX (udpXMgrInit s)).2.run.Over ↔ s.udpx.succeedRaw = false := by
  rw [over_startThread_iff (tidy_udpXMgrInit s) h]
  exact tasks_listen_andThen.2

theorem started_reqMgr_iff {s : Sockets} : (startThread .regMgr (reqMgrInit s)).1 = true ↔
    s.requests.succeed = true ∧ s.requests6.succeed = true := by
  rw [fst_startThread, ← Bool.and_eq_true]
  exact Eq.congr_left tasks_listen_andThen.1

theorem started_forwarder_iff {s : Sockets} {capacity : Nat} :
    (startThread .forwarder (forwarderInit s capacity)).1 = true ↔
      s.dns.succeedPlain = true ∧ s.lresolver.succeedPlain = true := by
  rw [fst_startThread, ← Bool.and_eq_true, (tasks_forwarderInit s capacity).1]

theorem started_xTunnel : (startThread .xTunnel xTunnelStart).1 = true := rfl

/-! ## The start as a whole -/

/-- All start, or one fails behind some that have started. -/
theorem foldlM_push (steps : List (Bool × SubThread)) (subservices : List SubThread) :
    ((∀ r ∈ steps, r.1 = true) ∧
      steps.foldlM push subservices = .ok (subservices ++ steps.map Prod.snd)) ∨
    ∃ before r after, steps = before ++ r :: after ∧ (∀ r ∈ before, r.1 = true) ∧ r.1 = false ∧
      steps.foldlM push subservices = .error (subservices ++ before.map Prod.snd, [r.2]) := by
  induction steps generalizing subservices with
  | nil => exact .inl ⟨fun _ h => absurd h List.not_mem_nil, by simp [pure, Except.pure]⟩
  | cons r steps ih =>
      cases hr : r.1 with
      | false =>
          refine .inr ⟨[], r, steps, rfl, fun _ h => absurd h List.not_mem_nil, hr, ?_⟩
          rw [List.foldlM_cons, push, hr, List.map_nil, List.append_nil]
          rfl
      | true =>
          have hpush : (r :: steps).foldlM push subservices =
              steps.foldlM push (subservices ++ [r.2]) := by
            rw [List.foldlM_cons, push, hr]
            rfl
          have happend : ∀ ts : List SubThread, subservices ++ [r.2] ++ ts = subservices ++ r.2 :: ts :=
            fun ts => by rw [List.append_assoc, List.singleton_append]
          rcases ih (subservices ++ [r.2]) with ⟨hall, hok⟩ | ⟨before, r', after, rfl, hall, hr', herr⟩
          · refine .inl ⟨List.forall_mem_cons.mpr ⟨hr, hall⟩, ?_⟩
            rw [hpush, hok, happend, List.map_cons]
          · refine .inr ⟨r :: before, r', after, rfl, List.forall_mem_cons.mpr ⟨hr, hall⟩, hr', ?_⟩
            rw [hpush, herr, happend, List.map_cons]

/-- The tunnel managers always start. -/
theorem startTunmgr_eq (cpus : Nat) (cfg : TunCfg) : startTunmgr cpus cfg =
    .ok (List.replicate cpus (startOneTunmgr (tunnelsPerMgr cpus cfg)).2) := by
  have hall : (List.replicate cpus (startOneTunmgr (tunnelsPerMgr cpus cfg))).all Prod.fst = true :=
    List.all_eq_true.mpr fun r hr => (List.mem_replicate.mp hr).2 ▸ rfl
  unfold startTunmgr
  rw [if_pos hall, List.map_replicate]

theorem stoppable_others (s : Sockets) (cfg : TunCfg) :
    ∀ r ∈ others s cfg, r.1 = true → r.2.Stoppable := by
  have hfirst : ∀ r ∈ [startThread .regMgr (reqMgrInit s),
      startThread .forwarder (forwarderInit s cfg.dnsTunnelNumber),
      startThread .udpX (udpXMgrInit s)], r.1 = true → r.2.Stoppable := by
    simp only [List.forall_mem_cons]
    exact ⟨stoppable_startThread (tidy_reqMgrInit s), stoppable_startThread (tidy_forwarderInit s _),
      stoppable_startThread (tidy_udpXMgrInit s), fun _ h => absurd h List.not_mem_nil⟩
  intro r hr
  rcases List.mem_append.mp hr with hr | hr
  · exact hfirst r hr
  · split at hr
    · rw [List.mem_singleton.mp hr]
      exact stoppable_startThread tidy_xTunnelStart
    · exact absurd hr List.not_mem_nil

/-- Of the sub-service that fails nothing runs exactly when its first listener has failed. -/
theorem failed_over_iff {s : Sockets} {cfg : TunCfg} {before after : List (Bool × SubThread)}
    {r : Bool × SubThread} (h : others s cfg = before ++ r :: after)
    (hbefore : ∀ r ∈ before, r.1 = true) (hr : r.1 = false) :
    r.2.run.Over ↔ s.FirstListenerFails := by
  unfold others at h
  rcases before with _ | ⟨x, _ | ⟨y, _ | ⟨z, before⟩⟩⟩
  · obtain ⟨rfl, _⟩ := List.cons.inj h
    rw [failed_reqMgr_iff hr]
    refine ⟨.inl, fun hfirst => hfirst.elim id fun hrest => ?_⟩
    refine Bool.eq_false_iff.mpr fun hserver => ?_
    exact Bool.eq_false_iff.mp hr (started_reqMgr_iff.mpr ⟨hserver, hrest.1⟩)
  · obtain ⟨rfl, htail⟩ := List.cons.inj h
    obtain ⟨rfl, _⟩ := List.cons.inj htail
    obtain ⟨hserver, _⟩ := started_reqMgr_iff.mp (hbefore _ List.mem_cons_self)
    rw [over_startThread_iff (tidy_forwarderInit s _) hr]
    refine iff_of_false (tasks_forwarderInit s _).2 ?_
    rintro (hfailed | ⟨_, hdns, hlresolver, _⟩)
    · exact Bool.eq_false_iff.mp hfailed hserver
    · exact Bool.eq_false_iff.mp hr (started_forwarder_iff.mpr ⟨hdns, hlresolver⟩)
  · obtain ⟨rfl, htail⟩ := List.cons.inj h
    obtain ⟨rfl, htail'⟩ := List.cons.inj htail
    obtain ⟨rfl, _⟩ := List.cons.inj htail'
    obtain ⟨hserver, hserver6⟩ := started_reqMgr_iff.mp (hbefore _ List.mem_cons_self)
    obtain ⟨hdns, hlresolver⟩ :=
      started_forwarder_iff.mp (hbefore _ (List.mem_cons_of_mem _ List.mem_cons_self))
    rw [failed_udpXMgr_iff hr]
    refine ⟨fun hudpx => .inr ⟨hserver6, hdns, hlresolver, hudpx⟩, ?_⟩
    rintro (hfailed | ⟨_, _, _, hudpx⟩)
    · exact absurd hserver (Bool.eq_false_iff.mp hfailed)
    · exact hudpx
  · have htail : (if 0 < cfg.xportUrl.length then [startThread .xTunnel xTunnelStart] else []) =
        before ++ r :: after := (List.cons.inj (List.cons.inj (List.cons.inj h).2).2).2
    have hmem := List.mem_append_right before (List.mem_cons_self (a := r) (l := after))
    rw [← htail] at hmem
    split at hmem
    · rw [List.mem_singleton.mp hmem, started_xTunnel] at hr
      cases hr
    · exact absurd hmem List.not_mem_nil

theorem start_eq (s : Sockets) (cpus : Nat) (cfg : TunCfg) :
    (startTunmgr cpus cfg >>= fun subservices => (others s cfg).foldlM push subservices) =
      (others s cfg).foldlM push
        (List.replicate cpus (startOneTunmgr (tunnelsPerMgr cpus cfg)).2) := by
  rw [startTunmgr_eq]
  rfl

/-- A start that succeeds makes the sub-services of the service. -/
theorem startSubservice_ok {s : Sockets} {cpus : Nat} {cfg : TunCfg} {subservices : List SubThread}
    (call : Nat) (h : startSubservice s cpus cfg = some (.ok subservices)) :
    subservices.map SubThread.sstype =
      (Services.startSubservice cpus call cfg).map SubServiceCtl.sstype := by
  unfold startSubservice at h
  rw [start_eq] at h
  rcases foldlM_push (others s cfg) (List.replicate cpus (startOneTunmgr (tunnelsPerMgr cpus cfg)).2)
    with ⟨_, hok⟩ | ⟨before, r, after, _, _, _, herr⟩
  · rw [hok] at h
    cases h
    have hmgr : (startOneTunmgr (tunnelsPerMgr cpus cfg)).2.sstype = .tunMgr := rfl
    unfold Services.startSubservice others
    split
    · simp [sstype_startThread, hmgr]
    · simp [sstype_startThread, hmgr]
  · rw [herr] at h
    obtain ⟨_, _, h⟩ := Option.map_eq_some_iff.mp h
    cases h

/-- The start always returns.  When it has failed, nothing that it has started runs exactly when
the listener has failed that a sub-service starts first, that of IPv4: in every other case the
sub-service that has failed leaves what it had spawned. -/
theorem nothing_left_iff (s : Sockets) (cpus : Nat) (cfg : TunCfg) :
    ∃ r, startSubservice s cpus cfg = some r ∧
      ∀ left, r = .error left → ((∀ t ∈ left, t.run.Over) ↔ s.FirstListenerFails) := by
  have hmanagers : ∀ t ∈ List.replicate cpus (startOneTunmgr (tunnelsPerMgr cpus cfg)).2,
      t.Stoppable := by
    intro t ht
    rw [(List.mem_replicate.mp ht).2]
    exact (tidy_tunMgrInit _ _ Spawned.kept_begin (Spawned.within_begin _)).2
  unfold startSubservice
  rw [start_eq]
  rcases foldlM_push (others s cfg) (List.replicate cpus (startOneTunmgr (tunnelsPerMgr cpus cfg)).2)
    with ⟨_, hok⟩ | ⟨before, r, after, hsteps, hbefore, hr, herr⟩
  · rw [hok]
    exact ⟨_, rfl, fun left hleft => by cases hleft⟩
  · have hstoppable : ∀ t ∈ List.replicate cpus (startOneTunmgr (tunnelsPerMgr cpus cfg)).2 ++
        before.map Prod.snd, t.Stoppable := by
      intro t ht
      rcases List.mem_append.mp ht with ht | ht
      · exact hmanagers t ht
      · obtain ⟨r', hr', rfl⟩ := List.mem_map.mp ht
        exact stoppable_others s cfg r' (hsteps ▸ List.mem_append_left _ hr') (hbefore r' hr')
    obtain ⟨stopped, hstopped, hover⟩ := cleanupSubservices_over hstoppable
    rw [herr]
    refine ⟨.error (stopped ++ [r.2]), by simp [hstopped], fun left hleft => ?_⟩
    cases hleft
    rw [← failed_over_iff hsteps hbefore hr]
    refine ⟨fun hall => hall r.2 (by simp), fun hlast t ht => ?_⟩
    rcases List.mem_append.mp ht with ht | ht
    · exact hover t ht
    · rw [List.mem_singleton.mp ht]
      exact hlast

/-- A system without IPv6 cannot bind its second listener: the first is left. -/
theorem no_ipv6_left :
    ∃ left, startSubservice ⟨⟨true, true, true⟩, ⟨false, true, true⟩, ⟨true, true, true⟩,
        ⟨true, true, true⟩, ⟨true, true, true⟩, ⟨true, true, true⟩⟩ 1
        (TunCfg.ofValue (.object []) "") = some (.error left) ∧
      ∃ t ∈ left, ∃ task ∈ t.run.tasks, task.work = .listen .tcp "127.0.0.1:5000" := by
  exact ⟨[⟨.tunMgr, ⟨false, [], []⟩⟩,
      ⟨.regMgr, ⟨false, [⟨.listen .tcp "127.0.0.1:5000", some .server⟩], [.server]⟩⟩], rfl, _,
    List.mem_cons_of_mem _ List.mem_cons_self, _, List.mem_cons_self, rfl⟩

end LproxyCv.Services.Startup
