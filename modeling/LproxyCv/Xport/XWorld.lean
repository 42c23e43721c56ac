import LproxyCv.Foundation.Run
import LproxyCv.Xport.XTunnel

set_option autoImplicit false

/-!
# Xport: the reverse tunnel, its connections and the tasks of its requests

The task of a request outlives the connection that the request was opened on: it
may still be connecting, or its socket may be slow.  What it reports finds the
slot by the index and the tag that the peer picked, in a table that the next
connection uses as well.

`XWorld` puts beside the tunnel the attempts to connect, the connection that is
served and the tasks of the requests, and keeps the history that the tunnel does
not: which connection each request was opened on, and whose task has touched
whose request.  A task is touching a request when what it reports takes the
request's slot back, or sends a frame under the request's name.

Two things are left open, so that there are more runs here than of the program:
the tripwire of a task is not consulted, and any task may report at any moment.
-/

namespace LproxyCv.Xport

open LproxyCv.Foundation LproxyCv.Lws LproxyCv.Tunnels

/-- How far the task of a request is.  Once connected, it sends and receives until
both are over. -/
inductive Phase where
  | connecting
  | running (sent received : Bool)
  deriving DecidableEq, Repr

/-- A task, and the connection its request was opened on. -/
structure XTask where
  proxy : ProxyTask
  conn : Nat
  phase : Phase
  deriving DecidableEq, Repr

/-- What a task tells the tunnel. -/
inductive Report where
  | connectError
  | msg (message : TMessage)
  | recvFinished
  | closed
  deriving DecidableEq, Repr

/-- The phases in which a task makes a report, and what it is in afterwards; a
task that is in none is over. -/
inductive Reports : Phase → Report → Option Phase → Prop where
  | connectError : Reports .connecting .connectError none
  | msg (sent : Bool) (message : TMessage) :
      Reports (.running sent false) (.msg message) (some (.running sent false))
  | recvFinished (sent : Bool) :
      Reports (.running sent false) .recvFinished (some (.running sent true))
  | closed : Reports (.running true true) .closed none

/-- The steps of a task that the tunnel does not hear of: a connection that is
refused, one that is made, a read that fails, the end of the sending. -/
inductive Silent : Phase → Option Phase → Prop where
  | refused : Silent .connecting none
  | connected : Silent .connecting (some (.running false false))
  | readError (sent : Bool) : Silent (.running sent false) (some (.running sent false))
  | sent (received : Bool) : Silent (.running false received) (some (.running true received))

/-- The call that a report is. -/
def XTunnel.report (t : XTunnel) (task : ProxyTask) : Report → Option (XTunnel × List Effect)
  | .connectError => some (t.onRequestConnectError task.reqIdx task.reqTag)
  | .msg message =>
      (t.onRequestMsg message task.reqIdx task.reqTag).map fun r => (t, r.2)
  | .recvFinished => some (t, t.onRequestRecvFinished task.reqIdx task.reqTag)
  | .closed => some (t.onRequestClosed task.reqIdx task.reqTag)

/-- The slot of the request that a message sent to the peer names. -/
def XTunnel.named (t : XTunnel) : Effect → Option Nat
  | .send _ msg =>
      match requestFrame msg.buf with
      | some (_, th) =>
          if t.checkReqValid th.reqIdx th.reqTag then some th.reqIdx.toNat else none
      | none => none
  | _ => none

/-- The slots that a call touches, whose answer is `r`: those it takes back, and
those it sends a message about. -/
def XTunnel.touched (t : XTunnel) (r : XTunnel × List Effect) : List Nat :=
  ((List.range t.requests.elements.length).filter fun i =>
    t.requests.inUse i && !r.1.requests.inUse i) ++ r.2.filterMap t.named

/-- A request that the peer opened, and the connection it was opened on. -/
structure Opened where
  header : THeader
  conn : Nat
  deriving DecidableEq, Repr

/-- The tunnel, what runs beside it, and its history. -/
structure XWorld where
  tun : XTunnel
  /-- the attempts to connect under way -/
  attempts : List XConnectTask
  /-- the connections being served -/
  serving : List Nat
  /-- how many connections there have been; the newest has this number -/
  conns : Nat
  tasks : List XTask
  /-- newest first -/
  opened : List Opened
  /-- the connections of a task and of the request it has touched -/
  touches : List (Nat × Nat)
  deriving DecidableEq

/-- What happens. -/
inductive XEvent where
  | connected (task : XConnectTask) (rawfd : Int) (tx : Channel)
  | failed (task : XConnectTask)
  | frame (conn : Nat) (msg : RMessage) (elapsed : UInt64)
  | ended (conn : Nat)
  | keepalive (elapsed : UInt64) (sent : Bool)
  | stop
  | silent (task : XTask) (next : Option Phase)
  | report (task : XTask) (r : Report) (next : Option Phase)

namespace XWorld

/-- The tunnel has started. -/
def start (parse : String → Option (String × UInt16)) (cfg : TunCfg) (trigger : Trigger) :
    Option XWorld := do
  let (tun, task) ← (XTunnel.new cfg).start parse trigger
  some
    { tun := tun
      attempts := [task]
      serving := []
      conns := 0
      tasks := []
      opened := []
      touches := [] }

/-- The connection that the request in a slot was opened on. -/
def owner (s : XWorld) (i : Nat) : Option Nat :=
  (s.opened.find? fun o => o.header.reqIdx.toNat = i).map Opened.conn

/-- An attempt has succeeded. -/
def connected (s : XWorld) (task : XConnectTask) (rawfd : Int) (tx : Channel) : XWorld :=
  let r := s.tun.onTunnelCreated rawfd tx
  let s := { s with tun := r.2, attempts := s.attempts.erase task }
  if r.1 then { s with conns := s.conns + 1, serving := (s.conns + 1) :: s.serving } else s

/-- An attempt has failed. -/
def failed (s : XWorld) (task : XConnectTask) : XWorld :=
  { s with tun := s.tun.onTunnelBuildError, attempts := s.attempts.erase task }

/-- A frame has come over a connection. -/
def frame (s : XWorld) (conn : Nat) (msg : RMessage) (elapsed : UInt64) : Option XWorld := do
  let (tun, _, task) ← s.tun.onTunnelMsg msg elapsed s.opened.length
  let opened :=
    match requestFrame msg.buf with
    | some (.reqCreated, th) => ⟨th, conn⟩ :: s.opened
    | _ => s.opened
  let tasks := (task.map fun proxy => ⟨proxy, conn, .connecting⟩).toList ++ s.tasks
  some { s with tun := tun, opened := opened, tasks := tasks }

/-- A connection is over. -/
def ended (s : XWorld) (conn : Nat) : XWorld :=
  { s with tun := s.tun.onTunnelClosed, serving := s.serving.erase conn }

/-- A tick of the timer. -/
def keepalive (parse : String → Option (String × UInt16)) (s : XWorld) (elapsed : UInt64)
    (sent : Bool) : Option XWorld := do
  let (tun, tasks, _) ← s.tun.keepalive parse elapsed sent
  some { s with tun := tun, attempts := tasks ++ s.attempts }

/-- A task is in another phase. -/
def move (s : XWorld) (task : XTask) (next : Option Phase) : XWorld :=
  { s with
    tasks := (next.map fun phase => { task with phase := phase }).toList ++ s.tasks.erase task }

/-- A task reports. -/
def report (s : XWorld) (task : XTask) (r : Report) (next : Option Phase) : Option XWorld := do
  let res ← s.tun.report task.proxy r
  let touches := (s.tun.touched res).filterMap fun i =>
    (s.owner i).map fun conn => (task.conn, conn)
  some { s.move task next with tun := res.1, touches := touches ++ s.touches }

/-- The steps of the tunnel and of what runs beside it. -/
inductive Step (parse : String → Option (String × UInt16)) : XWorld → XEvent → XWorld → Prop where
  | connected {s : XWorld} {task : XConnectTask} {rawfd : Int} {tx : Channel} :
      task ∈ s.attempts → Step parse s (.connected task rawfd tx) (s.connected task rawfd tx)
  | failed {s : XWorld} {task : XConnectTask} :
      task ∈ s.attempts → Step parse s (.failed task) (s.failed task)
  | frame {s t : XWorld} {conn : Nat} {msg : RMessage} {elapsed : UInt64} :
      conn ∈ s.serving → s.frame conn msg elapsed = some t → Step parse s (.frame conn msg elapsed) t
  | ended {s : XWorld} {conn : Nat} :
      conn ∈ s.serving → Step parse s (.ended conn) (s.ended conn)
  | keepalive {s t : XWorld} {elapsed : UInt64} {sent : Bool} :
      s.keepalive parse elapsed sent = some t → Step parse s (.keepalive elapsed sent) t
  | stop (s : XWorld) : Step parse s .stop { s with tun := s.tun.stop.1 }
  | silent {s : XWorld} {task : XTask} {next : Option Phase} :
      task ∈ s.tasks → Silent task.phase next → Step parse s (.silent task next) (s.move task next)
  | report {s t : XWorld} {task : XTask} {r : Report} {next : Option Phase} :
      task ∈ s.tasks → Reports task.phase r next → s.report task r next = some t →
      Step parse s (.report task r next) t

/-- No task has touched a request opened on a later connection than its own. -/
def Apart (s : XWorld) : Prop := ∀ p ∈ s.touches, p.2 ≤ p.1

/-- While a connection is up, a task of an earlier one that reports finds its
slot out of use, or in use under another tag. -/
def Late (s : XWorld) : XEvent → Prop
  | .report task _ _ => task.conn < s.conns → s.tun.tunTx.isSome = true →
      s.tun.checkReqValid task.proxy.reqIdx task.proxy.reqTag = false
  | _ => True

/-! ## What a report touches -/

/-- A report about a slot that is not the task's, or without a connection, is no
matter. -/
theorem report_void {t : XTunnel} {task : ProxyTask} {r : Report} {res : XTunnel × List Effect}
    (h : t.report task r = some res)
    (hvoid : t.checkReqValid task.reqIdx task.reqTag = false ∨ t.tunTx = none) :
    res = (t, []) := by
  cases r with
  | connectError =>
      cases h
      exact t.onRequestClosed_void hvoid
  | closed =>
      cases h
      exact t.onRequestClosed_void hvoid
  | recvFinished =>
      cases h
      rcases hvoid with hvalid | htx
      · simp [XTunnel.onRequestRecvFinished, hvalid]
      · simp [XTunnel.onRequestRecvFinished, htx]
  | msg message =>
      rw [XTunnel.report, Option.map_eq_some_iff] at h
      obtain ⟨p, hp, rfl⟩ := h
      rcases hvoid with hvalid | htx
      · rw [XTunnel.onRequestMsg, if_pos hvalid] at hp
        cases hp
        rfl
      · cases hvalid : t.checkReqValid task.reqIdx task.reqTag <;>
          (simp only [XTunnel.onRequestMsg, hvalid, htx] at hp; cases hp; rfl)

/-- A slot is touched only while it is in use. -/
theorem touched_inUse {t : XTunnel} {r : XTunnel × List Effect} {i : Nat} (h : i ∈ t.touched r) :
    t.requests.inUse i = true := by
  rcases List.mem_append.mp h with hfreed | hnamed
  · have hboth := (List.mem_filter.mp hfreed).2
    rw [Bool.and_eq_true] at hboth
    exact hboth.1
  · obtain ⟨e, _, hnamed⟩ := List.mem_filterMap.mp hnamed
    unfold XTunnel.named at hnamed
    split at hnamed
    · split at hnamed
      · split at hnamed
        · cases hnamed
          exact XTunnel.checkReqValid_inUse ‹_›
        · cases hnamed
      · cases hnamed
    · cases hnamed

/-- What sends a message about a request that is there touches its slot. -/
theorem mem_touched {t : XTunnel} {r : XTunnel × List Effect} (tx : Channel) (cmd : Cmd)
    (th : THeader) (rest : Bytes) (hvalid : t.checkReqValid th.reqIdx th.reqTag = true)
    (h : r.2 = [.send tx (WMessage.new (Tunnels.frame cmd (th.toBytes ++ rest)) 0)]) :
    th.reqIdx.toNat ∈ t.touched r := by
  have hnamed : t.named (.send tx (WMessage.new (Tunnels.frame cmd (th.toBytes ++ rest)) 0)) =
      some th.reqIdx.toNat := by
    simp [XTunnel.named, WMessage.new, requestFrame_frame, hvalid]
  refine List.mem_append_right _ ?_
  rw [h, List.filterMap_cons_some hnamed]
  exact List.mem_cons_self

/-- Any other report touches the slot. -/
theorem report_live {t : XTunnel} {task : ProxyTask} {r : Report} {res : XTunnel × List Effect}
    (h : t.report task r = some res)
    (hvalid : t.checkReqValid task.reqIdx task.reqTag = true) (htx : t.tunTx.isSome = true) :
    task.reqIdx.toNat ∈ t.touched res := by
  obtain ⟨tx, htx⟩ := Option.isSome_iff_exists.mp htx
  let th : THeader := ⟨task.reqIdx, task.reqTag⟩
  have hclosed : t.onRequestClosed task.reqIdx task.reqTag = res →
      th.reqIdx.toNat ∈ t.touched res := by
    rintro rfl
    obtain ⟨req, _, heq⟩ := XTunnel.onRequestClosed_live hvalid htx
    refine mem_touched tx .reqServerClosed th [] hvalid ?_
    rw [heq, List.append_nil]
  cases r with
  | connectError => exact hclosed (Option.some.inj h)
  | closed => exact hclosed (Option.some.inj h)
  | recvFinished =>
      cases h
      refine mem_touched tx .reqServerFinished th [] hvalid ?_
      simp [XTunnel.onRequestRecvFinished, hvalid, htx, th]
  | msg message =>
      rw [XTunnel.report, Option.map_eq_some_iff] at h
      obtain ⟨p, hp, rfl⟩ := h
      simp only [XTunnel.onRequestMsg, hvalid, htx, Bool.true_eq_false, if_false,
        Option.bind_eq_bind, Option.bind_eq_some_iff, Option.some.injEq] at hp
      obtain ⟨vec, hvec, rfl⟩ := hp
      rw [stampFrame_eq] at hvec
      split at hvec
      · cases hvec
        exact mem_touched tx .reqData th _ hvalid rfl
      · cases hvec

/-- A report leaves the connection as it is and puts no slot to use. -/
theorem report_spec {t : XTunnel} {task : ProxyTask} {r : Report} {res : XTunnel × List Effect}
    (h : t.report task r = some res) :
    t.SameLink res.1 ∧ ∀ j, res.1.requests.inUse j = true → t.requests.inUse j = true := by
  have hclosed := t.onRequestClosed_spec task.reqIdx task.reqTag
  cases r with
  | connectError =>
      cases h
      exact hclosed
  | closed =>
      cases h
      exact hclosed
  | recvFinished =>
      cases h
      exact ⟨.refl t, fun _ hj => hj⟩
  | msg message =>
      rw [XTunnel.report, Option.map_eq_some_iff] at h
      obtain ⟨p, _, rfl⟩ := h
      exact ⟨.refl t, fun _ hj => hj⟩

/-! ## The invariant -/

/-- There is one connection at a time.  While it is up, every slot in use is one
of a request opened on it, and before it is up no slot is in use. -/
structure Sound (s : XWorld) : Prop where
  single : s.attempts.length + s.serving.length + s.tun.needReconnect.toNat ≤ 1
  link : s.tun.tunTx.isSome = true → s.serving = [s.conns]
  down : s.tun.tunTx.isSome = false → s.serving = []
  empty : s.serving = [] → s.tun.discarded = false → ∀ i, s.tun.requests.inUse i = false
  owner : s.serving ≠ [] → ∀ i, s.tun.requests.inUse i = true → s.owner i = some s.conns

theorem start_sound {parse : String → Option (String × UInt16)} {cfg : TunCfg} {trigger : Trigger}
    {s : XWorld} (h : start parse cfg trigger = some s) : s.Sound ∧ s.Apart := by
  unfold start XTunnel.start at h
  simp only [Option.bind_eq_bind, Option.bind_eq_some_iff, Option.some.injEq] at h
  obtain ⟨_, ⟨task, _, rfl⟩, rfl⟩ := h
  refine ⟨⟨by simp [XTunnel.new], by simp [XTunnel.new], fun _ => rfl, ?_, by simp⟩, by simp [Apart]⟩
  intro _ _ i
  simp [XTunnel.new]

namespace Sound

variable {s : XWorld}

/-- The connection that is served is the newest. -/
theorem newest (h : s.Sound) {conn : Nat} (hconn : conn ∈ s.serving) :
    s.tun.tunTx.isSome = true ∧ s.serving = [s.conns] ∧ conn = s.conns := by
  have hup : s.tun.tunTx.isSome = true := by
    cases hup : s.tun.tunTx.isSome with
    | true => rfl
    | false =>
        rw [h.down hup] at hconn
        cases hconn
  have hserving := h.link hup
  rw [hserving] at hconn
  exact ⟨hup, hserving, List.mem_singleton.mp hconn⟩

/-- A call that leaves the connection as it is and opens no request. -/
theorem same (h : s.Sound) {tun : XTunnel} {tasks : List XTask} {touches : List (Nat × Nat)}
    (hlink : s.tun.SameLink tun)
    (huse : ∀ j, tun.requests.inUse j = true → s.tun.requests.inUse j = true) :
    Sound { s with tun := tun, tasks := tasks, touches := touches } where
  single := by rw [hlink.needReconnect]; exact h.single
  link hup := h.link (by rwa [hlink.tunTx] at hup)
  down hdown := h.down (by rwa [hlink.tunTx] at hdown)
  empty hserving hrun i := by
    have hbefore := h.empty hserving (hlink.running hrun) i
    cases hi : tun.requests.inUse i with
    | false => rfl
    | true => rw [huse i hi] at hbefore; cases hbefore
  owner hserving i hi := h.owner hserving i (huse i hi)

theorem connected (h : s.Sound) {task : XConnectTask} (hmem : task ∈ s.attempts) (rawfd : Int)
    (tx : Channel) : (s.connected task rawfd tx).Sound := by
  have hsingle := h.single
  have hlen := List.length_erase_of_mem hmem
  have hpos := List.length_pos_of_mem hmem
  cases hstop : s.tun.discarded with
  | true =>
      have heq : s.connected task rawfd tx = { s with attempts := s.attempts.erase task } := by
        simp [XWorld.connected, XTunnel.onTunnelCreated, hstop]
      rw [heq]
      refine ⟨?_, h.link, h.down, h.empty, h.owner⟩
      show (s.attempts.erase task).length + s.serving.length + s.tun.needReconnect.toNat ≤ 1
      omega
  | false =>
      have hserving : s.serving = [] := List.length_eq_zero_iff.mp (by omega)
      have heq : s.connected task rawfd tx =
          { s with
            tun := { s.tun with rawfd := some rawfd, tunTx := some tx }
            attempts := s.attempts.erase task
            conns := s.conns + 1
            serving := [s.conns + 1] } := by
        simp [XWorld.connected, XTunnel.onTunnelCreated, hstop, hserving]
      rw [heq]
      refine ⟨?_, fun _ => rfl, fun hdown => by simp at hdown, fun hnil => by simp at hnil, ?_⟩
      · show (s.attempts.erase task).length + 1 + s.tun.needReconnect.toNat ≤ 1
        omega
      · -- the table was empty when the connection came up
        intro _ i hi
        have hbefore : s.tun.requests.inUse i = false := h.empty hserving hstop i
        have hi' : s.tun.requests.inUse i = true := hi
        rw [hbefore] at hi'
        cases hi'

theorem failed (h : s.Sound) {task : XConnectTask} (hmem : task ∈ s.attempts) :
    (s.failed task).Sound := by
  have hsingle := h.single
  have hlen := List.length_erase_of_mem hmem
  have hpos := List.length_pos_of_mem hmem
  have hlink : s.tun.onTunnelBuildError.tunTx = s.tun.tunTx ∧
      s.tun.onTunnelBuildError.discarded = s.tun.discarded ∧
      s.tun.onTunnelBuildError.requests = s.tun.requests := by
    unfold XTunnel.onTunnelBuildError
    split <;> exact ⟨rfl, rfl, rfl⟩
  obtain ⟨htx, hdiscarded, hreqs⟩ := hlink
  refine ⟨?_, ?_, ?_, ?_, ?_⟩
  · show (s.attempts.erase task).length + s.serving.length +
      s.tun.onTunnelBuildError.needReconnect.toNat ≤ 1
    have hbool := Bool.toNat_le s.tun.onTunnelBuildError.needReconnect
    omega
  · intro hup
    exact h.link (htx ▸ hup)
  · intro hdown
    exact h.down (htx ▸ hdown)
  · intro hserving hrun i
    rw [show (s.failed task).tun.requests = s.tun.requests from hreqs]
    exact h.empty hserving (hdiscarded ▸ hrun) i
  · intro hserving i hi
    exact h.owner hserving i (hreqs ▸ hi)

theorem ended (h : s.Sound) {conn : Nat} (hmem : conn ∈ s.serving) : (s.ended conn).Sound := by
  obtain ⟨hup, hserving, rfl⟩ := h.newest hmem
  have hsingle := h.single
  have hgone : (s.ended s.conns).serving = [] := by simp [XWorld.ended, hserving]
  have hdown : (s.ended s.conns).tun.tunTx = none := by
    simp only [XWorld.ended, XTunnel.onTunnelClosed, hup, if_true]
    split <;> rfl
  rw [hserving, List.length_singleton] at hsingle
  refine ⟨?_, ?_, fun _ => hgone, ?_, fun hne => absurd hgone hne⟩
  · rw [hgone]
    show s.attempts.length + 0 + _ ≤ 1
    have hbool := Bool.toNat_le (s.ended s.conns).tun.needReconnect
    omega
  · intro hsome
    rw [hdown] at hsome
    cases hsome
  · -- only a stopped tunnel leaves its table as it is
    intro _ hrun i
    cases hstop : s.tun.discarded with
    | true => simp [XWorld.ended, XTunnel.onTunnelClosed, hup, hstop] at hrun
    | false => simp [XWorld.ended, XTunnel.onTunnelClosed, hup, hstop]

theorem frame (h : s.Sound) {t : XWorld} {conn : Nat} {msg : RMessage} {elapsed : UInt64}
    (hmem : conn ∈ s.serving) (hframe : s.frame conn msg elapsed = some t) : t.Sound := by
  obtain ⟨hup, hserving, rfl⟩ := h.newest hmem
  unfold XWorld.frame at hframe
  simp only [Option.bind_eq_bind, Option.bind_eq_some_iff, Option.some.injEq] at hframe
  obtain ⟨⟨tun, effects, task⟩, hmsg, rfl⟩ := hframe
  obtain ⟨⟨htx, hneed, _⟩, huse⟩ := (XTunnel.onTunnelMsg_spec hmsg).link
  dsimp only at htx hneed huse
  refine ⟨?_, fun _ => hserving, ?_, ?_, ?_⟩
  · show s.attempts.length + s.serving.length + tun.needReconnect.toNat ≤ 1
    rw [hneed]
    exact h.single
  · intro hdown
    dsimp only at hdown
    rw [htx, hup] at hdown
    cases hdown
  · intro hnil
    dsimp only at hnil
    rw [hserving] at hnil
    cases hnil
  · -- a slot put to use was opened by this frame, on the newest connection
    intro hne i hi
    have hbefore := fun hold => h.owner hne i hold
    unfold XWorld.owner at hbefore ⊢
    rcases huse i hi with hold | ⟨th, hreq, hidx⟩
    · split
      · rw [List.find?_cons]
        split
        · rfl
        · exact hbefore hold
      · exact hbefore hold
    · simp [hreq, hidx]

theorem keepalive (h : s.Sound) {parse : String → Option (String × UInt16)} {t : XWorld}
    {elapsed : UInt64} {sent : Bool} (htick : s.keepalive parse elapsed sent = some t) :
    t.Sound := by
  unfold XWorld.keepalive at htick
  simp only [Option.bind_eq_bind, Option.bind_eq_some_iff, Option.some.injEq] at htick
  obtain ⟨⟨tun, tasks, effects⟩, hcall, rfl⟩ := htick
  obtain ⟨htx, hrun, hreqs, hdue⟩ := XTunnel.keepalive_spec hcall
  dsimp only at htx hrun hreqs hdue
  refine ⟨?_, ?_, ?_, ?_, ?_⟩
  · show (tasks ++ s.attempts).length + s.serving.length + tun.needReconnect.toNat ≤ 1
    have hsingle := h.single
    rw [List.length_append]
    omega
  · intro hup
    exact h.link (htx ▸ hup)
  · intro hdown
    exact h.down (htx ▸ hdown)
  · intro hserving hstill i
    show tun.requests.inUse i = false
    rw [hreqs]
    exact h.empty hserving (hrun hstill) i
  · intro hserving i hi
    exact h.owner hserving i (hreqs ▸ hi)

/-- Every step keeps the invariant. -/
theorem step (h : s.Sound) {parse : String → Option (String × UInt16)} {t : XWorld} {e : XEvent}
    (hstep : Step parse s e t) : t.Sound := by
  cases hstep with
  | connected hmem => exact h.connected hmem _ _
  | failed hmem => exact h.failed hmem
  | frame hmem hframe => exact h.frame hmem hframe
  | ended hmem => exact h.ended hmem
  | keepalive htick => exact h.keepalive htick
  | stop =>
      obtain ⟨hlink, hreqs⟩ := s.tun.stop_spec
      exact h.same hlink fun j hj => hreqs ▸ hj
  | silent _ _ => exact h.same (.refl s.tun) fun _ hj => hj
  | report _ _ hreport =>
      unfold XWorld.report at hreport
      simp only [Option.bind_eq_bind, Option.bind_eq_some_iff, Option.some.injEq] at hreport
      obtain ⟨res, hres, rfl⟩ := hreport
      obtain ⟨hlink, huse⟩ := report_spec hres
      exact h.same hlink huse

end Sound

/-! ## Runs -/

/-- A report keeps the requests of different connections apart exactly when it
meets `Late`. -/
theorem report_apart_iff {s t : XWorld} {task : XTask} {r : Report} {next : Option Phase}
    (h : s.Sound) (happart : s.Apart) (hreport : s.report task r next = some t) :
    t.Apart ↔ s.Late (.report task r next) := by
  unfold report at hreport
  simp only [Option.bind_eq_bind, Option.bind_eq_some_iff, Option.some.injEq] at hreport
  obtain ⟨res, hres, rfl⟩ := hreport
  constructor
  · intro hafter hold hup
    cases hvalid : s.tun.checkReqValid task.proxy.reqIdx task.proxy.reqTag with
    | false => rfl
    | true =>
        -- the slot holds a request of the newest connection, which the report touches
        have hne : s.serving ≠ [] := by simp [h.link hup]
        have howner := h.owner hne _ (XTunnel.checkReqValid_inUse hvalid)
        have htouch : (task.conn, s.conns) ∈ (s.tun.touched res).filterMap fun i =>
            (s.owner i).map fun conn => (task.conn, conn) :=
          List.mem_filterMap.mpr ⟨_, report_live hres hvalid hup, by rw [howner]; rfl⟩
        have hle : s.conns ≤ task.conn := hafter _ (List.mem_append_left _ htouch)
        omega
  · intro hlate p hp
    rcases List.mem_append.mp hp with hnew | hold
    · obtain ⟨i, hi, hpair⟩ := List.mem_filterMap.mp hnew
      obtain ⟨conn, howner, rfl⟩ := Option.map_eq_some_iff.mp hpair
      have hvoid : ¬ (s.tun.checkReqValid task.proxy.reqIdx task.proxy.reqTag = false ∨
          s.tun.tunTx = none) := by
        intro hvoid
        rw [report_void hres hvoid] at hi
        simp [XTunnel.touched] at hi
      rw [not_or] at hvoid
      have hup : s.tun.tunTx.isSome = true := Option.isSome_iff_ne_none.mpr hvoid.2
      have hne : s.serving ≠ [] := by simp [h.link hup]
      rw [h.owner hne i (touched_inUse hi)] at howner
      cases howner
      by_contra hlt
      exact hvoid.1 (hlate (Nat.lt_of_not_le hlt) hup)
    · exact happart p hold

/-- A step keeps the requests of different connections apart exactly when they were
so before and it meets `Late`. -/
theorem step_apart_iff {parse : String → Option (String × UInt16)} {s t : XWorld} {e : XEvent}
    (h : s.Sound) (hstep : Step parse s e t) : t.Apart ↔ s.Apart ∧ s.Late e := by
  have hquiet : t.touches = s.touches → s.Late e → (t.Apart ↔ s.Apart ∧ s.Late e) := by
    intro htouches hlate
    unfold Apart
    rw [htouches]
    exact ⟨fun happart => ⟨happart, hlate⟩, And.left⟩
  cases hstep with
  | connected _ =>
      refine hquiet ?_ trivial
      unfold connected
      dsimp only
      split <;> rfl
  | failed _ => exact hquiet rfl trivial
  | frame _ hframe =>
      unfold frame at hframe
      simp only [Option.bind_eq_bind, Option.bind_eq_some_iff, Option.some.injEq] at hframe
      obtain ⟨_, _, rfl⟩ := hframe
      exact hquiet rfl trivial
  | ended _ => exact hquiet rfl trivial
  | keepalive htick =>
      unfold keepalive at htick
      simp only [Option.bind_eq_bind, Option.bind_eq_some_iff, Option.some.injEq] at htick
      obtain ⟨_, _, rfl⟩ := htick
      exact hquiet rfl trivial
  | stop => exact hquiet rfl trivial
  | silent _ _ => exact hquiet rfl trivial
  | report _ _ hreport =>
      constructor
      · intro hafter
        have hbefore : s.Apart := by
          have hreport' := hreport
          unfold report at hreport'
          simp only [Option.bind_eq_bind, Option.bind_eq_some_iff, Option.some.injEq] at hreport'
          obtain ⟨_, _, rfl⟩ := hreport'
          exact fun p hp => hafter p (List.mem_append_right _ hp)
        exact ⟨hbefore, (report_apart_iff h hbefore hreport).mp hafter⟩
      · rintro ⟨hbefore, hlate⟩
        exact (report_apart_iff h hbefore hreport).mpr hlate

/-- A run whose steps meet `Late` keeps the requests of different connections
apart. -/
theorem apart_of_run {parse : String → Option (String × UInt16)} {s t : XWorld}
    {es : List XEvent} (hrun : Run (Guarded Late (Step parse)) s es t) (h : s.Sound)
    (happart : s.Apart) : t.Apart := by
  have hboth : t.Sound ∧ t.Apart := by
    refine hrun.preserves (I := fun s => s.Sound ∧ s.Apart) ?_ ⟨h, happart⟩
    rintro s e t ⟨hs, hs'⟩ ⟨hlate, hstep⟩
    exact ⟨hs.step hstep, (step_apart_iff hs hstep).mpr ⟨hs', hlate⟩⟩
  exact hboth.2

/-- A run that keeps them apart met `Late` at each step. -/
theorem guarded_of_apart {parse : String → Option (String × UInt16)} {s t : XWorld}
    {es : List XEvent} (hrun : Run (Step parse) s es t) (h : s.Sound) (happart : t.Apart) :
    s.Apart ∧ Run (Guarded Late (Step parse)) s es t := by
  induction hrun with
  | nil s => exact ⟨happart, .nil s⟩
  | cons hstep _ ih =>
      obtain ⟨hafter, hrest⟩ := ih (h.step hstep) happart
      obtain ⟨hbefore, hlate⟩ := (step_apart_iff h hstep).mp hafter
      exact ⟨hbefore, .cons ⟨hlate, hstep⟩ hrest⟩

/-- A run from the start keeps the requests of different connections apart exactly
when each of its steps meets `Late`. -/
theorem run_apart_iff {parse : String → Option (String × UInt16)} {cfg : TunCfg}
    {trigger : Trigger} {s t : XWorld} {es : List XEvent} (h : start parse cfg trigger = some s) :
    Run (Guarded Late (Step parse)) s es t ↔ Run (Step parse) s es t ∧ t.Apart := by
  obtain ⟨hsound, happart⟩ := start_sound h
  constructor
  · intro hrun
    exact ⟨hrun.unguard, apart_of_run hrun hsound happart⟩
  · rintro ⟨hrun, hafter⟩
    exact (guarded_of_apart hrun hsound hafter).2

/-! ## Two connections -/

/-- A configuration with a reverse tunnel. -/
def xportCfg : TunCfg :=
  { tunnelUrl := "wss://127.0.0.1/tun"
    tunnelReqCap := 100
    relayDomain := "127.0.0.1"
    relayPort := 12345
    dnsTunnelNumber := 1
    defaultDnsServer := "223.5.5.5"
    requestQuota := 100
    xportUrl := "wss://127.0.0.1/xport"
    token := "" }

/-- The attempt that such a tunnel starts. -/
def attempt : XConnectTask := ⟨"127.0.0.1", 443, "wss://127.0.0.1/xport?cap=128&tok=", "223.5.5.5"⟩

/-- The peer opens the request 0 under a tag, to port 80. -/
def opens (reqTag : UInt16) : RMessage :=
  ⟨Tunnels.frame .reqCreated (THeader.toBytes ⟨0, reqTag⟩ ++ leBytes 2 80), 9, none⟩

/-- The task of the request 0, opened on the first connection under the tag 1. -/
def firstTask : XTask := ⟨⟨0, 1, 80, 0, 0⟩, 1, .connecting⟩

/-- The first connection is lost while its request is still connecting; on the
second one, the peer opens the request 0 under a tag, and then the first task's
connection times out. -/
def reopened (reqTag : UInt16) : List XEvent :=
  [.connected attempt 3 7, .frame 1 (opens 1) 0, .ended 1, .keepalive 0 true,
    .connected attempt 4 8, .frame 2 (opens reqTag) 0, .report firstTask .connectError none]

/-- Under another tag, the second request is left alone. -/
theorem run_apart_iff_other_tag :
    ∃ s t, start (fun _ => some ("127.0.0.1", 443)) xportCfg 0 = some s ∧
      Run (Step fun _ => some ("127.0.0.1", 443)) s (reopened 2) t ∧ t.Apart ∧
      t.tun.requests.inUse 0 = true := by
  obtain ⟨s, hs⟩ : ∃ s, start (fun _ => some ("127.0.0.1", 443)) xportCfg 0 = some s := ⟨_, rfl⟩
  have hrun : ∃ t, Run (Guarded Late (Step fun _ => some ("127.0.0.1", 443))) s (reopened 2) t ∧
      t.tun.requests.inUse 0 = true := by
    cases hs
    exact ⟨_, .cons ⟨trivial, .connected (by decide +kernel)⟩
      (.cons ⟨trivial, .frame (by decide +kernel) rfl⟩
        (.cons ⟨trivial, .ended (by decide +kernel)⟩ (.cons ⟨trivial, .keepalive rfl⟩
          (.cons ⟨trivial, .connected (by decide +kernel)⟩
            (.cons ⟨trivial, .frame (by decide +kernel) rfl⟩
              (.cons ⟨fun _ _ => rfl, .report (by decide +kernel) .connectError rfl⟩
                (.nil _))))))), rfl⟩
  obtain ⟨t, hrun, huse⟩ := hrun
  have happart := (run_apart_iff hs).mp hrun
  exact ⟨s, t, hs, happart.1, happart.2, huse⟩

/-- Under the same tag, the second request's slot is taken back and the peer is
told that the request is closed. -/
theorem reused_pair_not_apart :
    ∃ s t, start (fun _ => some ("127.0.0.1", 443)) xportCfg 0 = some s ∧
      Run (Step fun _ => some ("127.0.0.1", 443)) s (reopened 1) t ∧
      t.touches = [(1, 2), (1, 2)] ∧ t.tun.requests.inUse 0 = false ∧ ¬ t.Apart := by
  obtain ⟨s, hs⟩ : ∃ s, start (fun _ => some ("127.0.0.1", 443)) xportCfg 0 = some s := ⟨_, rfl⟩
  have hrun : ∃ t, Run (Step fun _ => some ("127.0.0.1", 443)) s (reopened 1) t ∧
      t.touches = [(1, 2), (1, 2)] ∧ t.tun.requests.inUse 0 = false := by
    cases hs
    exact ⟨_, .cons (.connected (by decide +kernel)) (.cons (.frame (by decide +kernel) rfl)
      (.cons (.ended (by decide +kernel)) (.cons (.keepalive rfl)
        (.cons (.connected (by decide +kernel)) (.cons (.frame (by decide +kernel) rfl)
          (.cons (.report (by decide +kernel) .connectError rfl) (.nil _))))))),
      by decide +kernel, rfl⟩
  obtain ⟨t, hrun, htouches, huse⟩ := hrun
  refine ⟨s, t, hs, hrun, htouches, huse, ?_⟩
  intro happart
  exact absurd (happart (1, 2) (by simp [htouches])) (by decide)

end XWorld

end LproxyCv.Xport
