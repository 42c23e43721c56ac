import LproxyCv.Xport.XAccounts

set_option autoImplicit false

/-!
# Xport: every request is closed on both sides

`Books` puts an account for each accepted request beside the world, and `Settled` is
what is to be true of the accounts of the tasks that have ended while their connection
is up.  There is one way in which it comes not to be: a connection of a request that is
refused is not reported.
-/

namespace LproxyCv.Xport

open LproxyCv.Foundation LproxyCv.Lws LproxyCv.Tunnels

/-- Whether the account is the one of the task's request. -/
structure Account.IsOf (a : Account) (task : XTask) : Prop where
  id : a.id = task.proxy.rx
  tripwire : task.proxy.tripwire = task.proxy.rx
  header : a.header = ⟨task.proxy.reqIdx, task.proxy.reqTag⟩
  conn : a.conn = task.conn

namespace XWorld

/-- A connection of a request that is refused finds that the request does not hold its
slot any more: the slot does not have the trigger of the task, or the connection that
the request was opened on is not served. -/
def Refusing (s : XWorld) : XEvent → Prop
  | .silent task none => task.conn ∈ s.serving → ∀ req,
      s.tun.requests.slot task.proxy.reqIdx.toNat = some req →
        req.trigger ≠ some task.proxy.tripwire
  | _ => True

variable {parse : String → Option (String × UInt16)} {s t : XWorld} {e : XEvent}

/-- Requests and connections are only added. -/
theorem step_grows (hstep : Step parse s e t) :
    s.opened.length ≤ t.opened.length ∧ s.conns ≤ t.conns := by
  cases hstep with
  | connected _ =>
      unfold connected
      dsimp only
      split
      · exact ⟨Nat.le_refl _, Nat.le_succ _⟩
      · exact ⟨Nat.le_refl _, Nat.le_refl _⟩
  | frame _ hframe =>
      unfold frame at hframe
      simp only [Option.bind_eq_bind, Option.bind_eq_some_iff, Option.some.injEq] at hframe
      obtain ⟨_, _, rfl⟩ := hframe
      dsimp only
      split
      · exact ⟨Nat.le_succ _, Nat.le_refl _⟩
      · exact ⟨Nat.le_refl _, Nat.le_refl _⟩
  | keepalive htick =>
      unfold keepalive at htick
      simp only [Option.bind_eq_bind, Option.bind_eq_some_iff, Option.some.injEq] at htick
      obtain ⟨_, _, rfl⟩ := htick
      exact ⟨Nat.le_refl _, Nat.le_refl _⟩
  | report _ _ hreport =>
      unfold report at hreport
      simp only [Option.bind_eq_bind, Option.bind_eq_some_iff, Option.some.injEq] at hreport
      obtain ⟨_, _, rfl⟩ := hreport
      exact ⟨Nat.le_refl _, Nat.le_refl _⟩
  | _ => exact ⟨Nat.le_refl _, Nat.le_refl _⟩

/-- The account of a request that is opened is new, and the request holds its slot. -/
theorem accepted_spec (hsound : s.Sound) (hstep : Step parse s e t) {a : Account}
    (h : s.accepted e = some a) :
    a.id = s.opened.length ∧ a.id < t.opened.length ∧ a.conn ≤ t.conns ∧ a.ended = false ∧
      a.Holds t := by
  cases hstep with
  | @frame _ conn msg elapsed hmem hframe =>
      obtain ⟨_, _, rfl⟩ := hsound.newest hmem
      unfold frame at hframe
      simp only [Option.bind_eq_bind, Option.bind_eq_some_iff, Option.some.injEq] at hframe
      obtain ⟨r, hmsg, ht⟩ := hframe
      simp only [accepted, hmsg, Option.bind_eq_bind, Option.bind_some, Option.bind_eq_some_iff,
        Option.some.injEq] at h
      obtain ⟨proxy, hproxy, rfl⟩ := h
      have htun : t.tun = r.1 := by rw [← ht]
      have hconns : t.conns = s.conns := by rw [← ht]
      obtain ⟨th, port, hcmd, rfl, req, hslot, htag, huse, htrigger⟩ :=
        (XTunnel.onTunnelMsg_spec hmsg).task hproxy
      have hopened : t.opened = ⟨th, s.conns⟩ :: s.opened := by
        subst ht
        simp only [hcmd]
      refine ⟨rfl, ?_, hconns ▸ Nat.le_refl _, rfl, fun hreused => absurd hreused Bool.false_ne_true,
        fun _ _ => ⟨req, htun ▸ hslot, htag, .inl ⟨huse, htrigger, rfl, rfl⟩⟩⟩
      rw [hopened, List.length_cons]
      exact Nat.lt_succ_self _
  | _ => cases h

/-- The tasks after a step are those before it, in whatever phase, and the one of the
request that is opened. -/
theorem step_tasks (hstep : Step parse s e t) {task : XTask}
    (h : task ∈ t.tasks) :
    (∃ before ∈ s.tasks, before.proxy = task.proxy ∧ before.conn = task.conn) ∨
      ∃ a, s.accepted e = some a ∧ a.IsOf task := by
  have hmoved : ∀ {moved : XTask} {next : Option Phase}, moved ∈ s.tasks →
      task ∈ (s.move moved next).tasks →
      ∃ before ∈ s.tasks, before.proxy = task.proxy ∧ before.conn = task.conn := by
    intro moved next hmoved hmem
    unfold move at hmem
    rcases List.mem_append.mp hmem with hnew | hold
    · simp only [Option.mem_toList, Option.map_eq_some_iff] at hnew
      obtain ⟨_, _, rfl⟩ := hnew
      exact ⟨moved, hmoved, rfl, rfl⟩
    · exact ⟨task, List.mem_of_mem_erase hold, rfl, rfl⟩
  cases hstep with
  | connected _ =>
      refine .inl ⟨task, ?_, rfl, rfl⟩
      unfold connected at h
      dsimp only at h
      split at h <;> exact h
  | failed _ => exact .inl ⟨task, h, rfl, rfl⟩
  | @frame _ conn msg elapsed hmem hframe =>
      unfold frame at hframe
      simp only [Option.bind_eq_bind, Option.bind_eq_some_iff, Option.some.injEq] at hframe
      obtain ⟨r, hmsg, rfl⟩ := hframe
      rcases List.mem_append.mp h with hnew | hold
      · simp only [Option.mem_toList, Option.map_eq_some_iff] at hnew
        obtain ⟨proxy, hproxy, rfl⟩ := hnew
        obtain ⟨_, _, _, htask, _⟩ := (XTunnel.onTunnelMsg_spec hmsg).task hproxy
        have haccepted : s.accepted (.frame conn msg elapsed) =
            some ⟨proxy.rx, ⟨proxy.reqIdx, proxy.reqTag⟩, conn, false, false, 0, false⟩ := by
          simp [accepted, hmsg, hproxy]
        exact .inr ⟨_, haccepted, rfl, by rw [htask], rfl, rfl⟩
      · exact .inl ⟨task, hold, rfl, rfl⟩
  | ended _ => exact .inl ⟨task, h, rfl, rfl⟩
  | keepalive htick =>
      unfold keepalive at htick
      simp only [Option.bind_eq_bind, Option.bind_eq_some_iff, Option.some.injEq] at htick
      obtain ⟨_, _, rfl⟩ := htick
      exact .inl ⟨task, h, rfl, rfl⟩
  | stop => exact .inl ⟨task, h, rfl, rfl⟩
  | silent hmem _ => exact .inl (hmoved hmem h)
  | report hmem _ hreport =>
      unfold report at hreport
      simp only [Option.bind_eq_bind, Option.bind_eq_some_iff, Option.some.injEq] at hreport
      obtain ⟨_, _, rfl⟩ := hreport
      exact .inl (hmoved hmem h)

end XWorld

/-! ## The books -/

/-- The world, and an account for each request that was accepted. -/
structure Books where
  world : XWorld
  accounts : List Account

namespace Books

/-- A step, with what the accounts note of it. -/
def Step (parse : String → Option (String × UInt16)) (b : Books) (e : XEvent) (b' : Books) : Prop :=
  XWorld.Step parse b.world e b'.world ∧
    b'.accounts = (b.world.accepted e).toList ++ b.accounts.map fun a => a.after parse b.world e

/-- A request whose task has ended while its connection is up, and whose slot has no other
request, does not hold the slot; and the peer has been told once that it is closed, unless
it was the peer that closed it. -/
def Settled (b : Books) : Prop :=
  ∀ a ∈ b.accounts, a.ended = true → a.conn ∈ b.world.serving → a.reused = false →
    b.world.tun.checkReqValid a.header.reqIdx a.header.reqTag = false ∧
      (a.freed = false → a.closes = 1)

/-- The accounts keep up with the world, and each task has one. -/
structure Balanced (b : Books) : Prop where
  sound : b.world.Sound
  ids : b.accounts.Pairwise fun a a' => a.id ≠ a'.id
  old : ∀ a ∈ b.accounts, a.id < b.world.opened.length ∧ a.conn ≤ b.world.conns
  holds : ∀ a ∈ b.accounts, a.Holds b.world
  tasks : ∀ task ∈ b.world.tasks, ∃ a ∈ b.accounts, a.IsOf task

variable {parse : String → Option (String × UInt16)} {b b' : Books} {e : XEvent}

/-- An account after a step is an earlier one, or the one of the request that is opened. -/
theorem step_accounts (hstep : b.Step parse e b') {a : Account} :
    a ∈ b'.accounts ↔ b.world.accepted e = some a ∨
      ∃ before ∈ b.accounts, a = before.after parse b.world e := by
  rw [hstep.2, List.mem_append, Option.mem_toList, List.mem_map]
  simp only [eq_comm]

theorem Balanced.step (h : b.Balanced) (hstep : b.Step parse e b') : b'.Balanced := by
  obtain ⟨hgrows, hconns⟩ := XWorld.step_grows hstep.1
  refine ⟨h.sound.step hstep.1, ?_, ?_, ?_, ?_⟩
  · rw [hstep.2, List.pairwise_append]
    refine ⟨?_, List.pairwise_map.mpr h.ids, ?_⟩
    · cases b.world.accepted e <;> simp
    · intro a hnew a' hold
      obtain ⟨before, hbefore, rfl⟩ := List.mem_map.mp hold
      have hid := (XWorld.accepted_spec h.sound hstep.1 (Option.mem_toList.mp hnew)).1
      have hlt := (h.old before hbefore).1
      have hsame : (before.after parse b.world e).id = before.id := rfl
      omega
  · intro a ha
    rcases (step_accounts hstep).mp ha with hnew | ⟨before, hbefore, rfl⟩
    · obtain ⟨_, hid, hconn, _, _⟩ := XWorld.accepted_spec h.sound hstep.1 hnew
      exact ⟨hid, hconn⟩
    · obtain ⟨hid, hconn⟩ := h.old before hbefore
      exact ⟨Nat.lt_of_lt_of_le hid hgrows, Nat.le_trans hconn hconns⟩
  · intro a ha
    rcases (step_accounts hstep).mp ha with hnew | ⟨before, hbefore, rfl⟩
    · exact (XWorld.accepted_spec h.sound hstep.1 hnew).2.2.2.2
    · obtain ⟨hid, hconn⟩ := h.old before hbefore
      exact (h.holds before hbefore).step h.sound hid hconn hstep.1
  · intro task htask
    rcases XWorld.step_tasks hstep.1 htask with ⟨before, hbefore, hproxy, hconn⟩ | ⟨a, hnew, hof⟩
    · obtain ⟨a, ha, hid, htripwire, hheader, hconn'⟩ := h.tasks before hbefore
      refine ⟨a.after parse b.world e, (step_accounts hstep).mpr (.inr ⟨a, ha, rfl⟩), ?_⟩
      rw [hproxy] at hid htripwire hheader
      exact ⟨hid, htripwire, hheader, hconn'.trans hconn⟩
    · exact ⟨a, (step_accounts hstep).mpr (.inl hnew), hof⟩

/-- The account of a task is the one with its identity. -/
theorem Balanced.isOf (h : b.Balanced) {task : XTask} (htask : task ∈ b.world.tasks) {a : Account}
    (ha : a ∈ b.accounts) (hid : task.proxy.rx = a.id) : a.IsOf task := by
  obtain ⟨a', ha', hof⟩ := h.tasks task htask
  have hnodup : (b.accounts.map Account.id).Nodup := List.pairwise_map.mpr h.ids
  exact List.inj_on_of_nodup_map hnodup ha' ha (hof.id.trans hid) ▸ hof

/-- The request of a task that has reported its end does not hold its slot. -/
theorem onRequestClosed_invalid {tun : XTunnel} {reqIdx reqTag : UInt16}
    (hup : tun.tunTx.isSome = true) :
    (tun.onRequestClosed reqIdx reqTag).1.checkReqValid reqIdx reqTag = false := by
  obtain ⟨tx, htx⟩ := Option.isSome_iff_exists.mp hup
  cases hvalid : tun.checkReqValid reqIdx reqTag with
  | false => rw [tun.onRequestClosed_void (.inl hvalid), hvalid]
  | true =>
      obtain ⟨req, hslot, heq⟩ := XTunnel.onRequestClosed_live hvalid htx
      rw [heq]
      simp [XTunnel.checkReqValid, XReqq.slot_setSlot hslot, XReqq.cleanReq]

/-- The end of a task leaves the request without its slot, unless it is a refused
connection that finds the request holding it. -/
theorem ended_invalid (h : b.Balanced) (hstep : b.Step parse e b')
    (hrefusing : b.world.Refusing e) {a : Account} (ha : a ∈ b.accounts)
    (hends : XWorld.ends a.id e = true) (hserving : a.conn ∈ b.world.serving)
    (hreused : a.reused = false) :
    b'.world.tun.checkReqValid a.header.reqIdx a.header.reqTag = false := by
  have hup := (h.sound.newest hserving).1
  obtain ⟨hworld, _⟩ := hstep
  generalize b'.world = t at hworld
  cases hworld with
  | @silent task next htask hsilent =>
      cases next with
      | some phase => cases hends
      | none =>
          have hof := h.isOf htask ha (of_decide_eq_true hends)
          obtain ⟨req, hslot, hfits⟩ := (h.holds a ha).fits hserving hreused
          have hslot' := hslot
          rw [hof.header] at hslot'
          have hgone := hrefusing (hof.conn ▸ hserving) req hslot'
          rw [hof.tripwire, ← hof.id] at hgone
          cases huse : req.isInused with
          | true => exact absurd (hfits.inUse_iff.mp huse) hgone
          | false =>
              show b.world.tun.checkReqValid _ _ = false
              simp [XTunnel.checkReqValid, hslot, huse]
  | @report _ task r next htask hreports hreport =>
      cases next with
      | some phase => cases hends
      | none =>
          have hof := h.isOf htask ha (of_decide_eq_true hends)
          unfold XWorld.report at hreport
          simp only [Option.bind_eq_bind, Option.bind_eq_some_iff, Option.some.injEq] at hreport
          obtain ⟨res, hres, rfl⟩ := hreport
          rw [hof.header]
          generalize task.phase = phase at hreports
          cases hreports with
          | connectError =>
              cases hres
              exact onRequestClosed_invalid hup
          | closed =>
              cases hres
              exact onRequestClosed_invalid hup
  | _ => cases hends

/-- A step leaves the accounts settled exactly when it is no refused connection of a
request that holds its slot. -/
theorem step_settled_iff (h : b.Balanced) (hsettled : b.Settled) (hstep : b.Step parse e b') :
    b'.Settled ↔ b.world.Refusing e := by
  have hafter := h.step hstep
  constructor
  · intro hsettled'
    cases e with
    | silent task next =>
        cases next with
        | some phase => trivial
        | none =>
            intro hserving req hslot htrigger
            have htask : task ∈ b.world.tasks ∧ b'.world = b.world.move task none := by
              have hworld := hstep.1
              generalize b'.world = t at hworld
              cases hworld with
              | silent htask _ => exact ⟨htask, rfl⟩
            obtain ⟨htask, hworld⟩ := htask
            obtain ⟨a, ha, hof⟩ := h.tasks task htask
            -- the task's account says that the request holds the slot
            rw [hof.tripwire, ← hof.id] at htrigger
            have hslot' : b.world.tun.requests.slot a.header.reqIdx.toNat = some req := by
              rw [hof.header]
              exact hslot
            have hreused : a.reused = false := by
              cases hreused : a.reused with
              | false => rfl
              | true => exact absurd htrigger ((h.holds a ha).gone hreused req hslot')
            obtain ⟨req', hreq', hfits⟩ := (h.holds a ha).fits (hof.conn ▸ hserving) hreused
            rw [hslot'] at hreq'
            cases hreq'
            have hvalid : b.world.tun.checkReqValid a.header.reqIdx a.header.reqTag = true :=
              XTunnel.checkReqValid_iff.mpr ⟨req, hslot', hfits.inUse_iff.mpr htrigger, hfits.1⟩
            have hover : (a.after parse b.world (.silent task none)).ended = true := by
              simp [Account.after, XWorld.ends, hof.id]
            have hinvalid := (hsettled' _ ((step_accounts hstep).mpr (.inr ⟨a, ha, rfl⟩)) hover
              (by rw [hworld]; exact hof.conn ▸ hserving)
              (by simp [Account.after, hreused, XWorld.reuses])).1
            rw [hworld] at hinvalid
            exact Bool.false_ne_true (hinvalid.symm.trans hvalid)
    | _ => trivial
  · intro hrefusing a' ha' hover hserving hreused
    obtain ⟨req, hslot, hfits⟩ := (hafter.holds a' ha').fits hserving hreused
    have hinvalid : b'.world.tun.checkReqValid a'.header.reqIdx a'.header.reqTag = false := by
      rcases (step_accounts hstep).mp ha' with hnew | ⟨a, ha, rfl⟩
      · rw [(XWorld.accepted_spec h.sound hstep.1 hnew).2.2.2.1] at hover
        cases hover
      · have hserving' := XWorld.step_serving hstep.1 (h.old a ha).2 hserving
        have hreused' : a.reused = false := (Bool.or_eq_false_iff.mp hreused).1
        rcases Bool.or_eq_true_iff.mp hover with hbefore | hends
        · -- it was settled before, and stays so
          have hcloses := (hsettled a ha hbefore hserving' hreused').2
          rcases hfits.2 with ⟨_, _, hfreed, hnone⟩ | ⟨hfree, _⟩
          · have hfreed' : a.freed = false := (Bool.or_eq_false_iff.mp hfreed).1
            have hsum : a.closes + _ = 0 := hnone
            have hone := hcloses hfreed'
            omega
          · simp [XTunnel.checkReqValid, hslot, hfree]
        · have hgone := ended_invalid h hstep hrefusing ha hends hserving' hreused'
          exact hgone
    refine ⟨hinvalid, fun hfreed => ?_⟩
    rcases hfits.2 with ⟨huse, _⟩ | ⟨_, _, hclosed⟩
    · have hvalid := XTunnel.checkReqValid_iff.mpr ⟨req, hslot, huse, hfits.1⟩
      exact absurd (hinvalid.symm.trans hvalid) Bool.false_ne_true
    · rcases hclosed with hfreed' | hone
      · exact absurd (hfreed.symm.trans hfreed') Bool.false_ne_true
      · exact hone

/-- In a run from the start, the accounts are settled after every step exactly when no
connection of a request is refused while the request holds its slot, on the connection
it was opened on. -/
theorem run_settled_iff {cfg : TunCfg} {trigger : Trigger} {s : XWorld} {es : List XEvent}
    (h : XWorld.start parse cfg trigger = some s) :
    Run (Guarded (fun b e => b.world.Refusing e) (Step parse)) ⟨s, []⟩ es b ↔
      Run (fun b e b' => b.Step parse e b' ∧ b'.Settled) ⟨s, []⟩ es b := by
  have hbalanced : Balanced ⟨s, []⟩ := by
    have hnone : s.tasks = [] := by
      have h' := h
      unfold XWorld.start at h'
      simp only [Option.bind_eq_bind, Option.bind_eq_some_iff, Option.some.injEq] at h'
      obtain ⟨_, _, rfl⟩ := h'
      rfl
    refine ⟨(XWorld.start_sound h).1, .nil, nofun, nofun, ?_⟩
    intro task htask
    rw [show s.tasks = [] from hnone] at htask
    cases htask
  refine Run.guarded_iff (I := fun b => b.Balanced ∧ b.Settled) ?_ ?_ ⟨hbalanced, nofun⟩
  · rintro b e b' ⟨hb, hb'⟩ hstep
    exact step_settled_iff hb hb' hstep
  · rintro b e b' ⟨hb, _⟩ hstep hsettled
    exact ⟨hb.step hstep, hsettled⟩

open XWorld (attempt opens firstTask xportCfg)

/-- The peer opens a request, and its task ends. -/
def openedAnd (last : XEvent) : List XEvent :=
  [.connected attempt 3 7, .frame 1 (opens 1) 0, last]

/-- A connection that times out is reported, and the peer is told. -/
theorem run_settled_iff_timeout :
    ∃ (s : XWorld) (b : Books),
      XWorld.start (fun _ => some ("127.0.0.1", 443)) xportCfg 0 = some s ∧
      Run (fun (b : Books) e b' => b.Step (fun _ => some ("127.0.0.1", 443)) e b' ∧ b'.Settled)
        ⟨s, []⟩
        (openedAnd (.report firstTask .connectError none)) b ∧
      b.accounts = [⟨0, ⟨0, 1⟩, 1, false, false, 1, true⟩] := by
  obtain ⟨s, hs⟩ : ∃ s, XWorld.start (fun _ => some ("127.0.0.1", 443)) xportCfg 0 = some s :=
    ⟨_, rfl⟩
  have hrun : ∃ b, Run (Guarded (fun b e => b.world.Refusing e)
      (Step fun _ => some ("127.0.0.1", 443))) ⟨s, []⟩
        (openedAnd (.report firstTask .connectError none)) b ∧
      b.accounts = [⟨0, ⟨0, 1⟩, 1, false, false, 1, true⟩] := by
    cases hs
    exact ⟨⟨_, _⟩, .cons (m := ⟨_, _⟩) ⟨trivial, .connected (by decide +kernel), rfl⟩
      (.cons (m := ⟨_, _⟩) ⟨trivial, .frame (by decide +kernel) rfl, rfl⟩
        (.cons (m := ⟨_, _⟩) ⟨trivial, .report (by decide +kernel) .connectError rfl, rfl⟩
          (.nil _))), by decide +kernel⟩
  obtain ⟨b, hrun, haccounts⟩ := hrun
  exact ⟨s, b, hs, (run_settled_iff hs).mp hrun, haccounts⟩

/-- A connection that is refused is not: the request keeps its slot, and the peer waits. -/
theorem refused_not_settled :
    ∃ (s : XWorld) (b : Books),
      XWorld.start (fun _ => some ("127.0.0.1", 443)) xportCfg 0 = some s ∧
      Run (Step fun _ => some ("127.0.0.1", 443)) ⟨s, []⟩ (openedAnd (.silent firstTask none)) b ∧
      b.world.serving = [1] ∧ b.world.tasks = [] ∧ b.world.tun.checkReqValid 0 1 = true ∧
      b.accounts = [⟨0, ⟨0, 1⟩, 1, false, false, 0, true⟩] ∧ ¬ b.Settled := by
  obtain ⟨s, hs⟩ : ∃ s, XWorld.start (fun _ => some ("127.0.0.1", 443)) xportCfg 0 = some s :=
    ⟨_, rfl⟩
  have hrun : ∃ b, Run (Step fun _ => some ("127.0.0.1", 443)) ⟨s, []⟩
      (openedAnd (.silent firstTask none)) b ∧ b.world.serving = [1] ∧ b.world.tasks = [] ∧
      b.world.tun.checkReqValid 0 1 = true ∧
      b.accounts = [⟨0, ⟨0, 1⟩, 1, false, false, 0, true⟩] := by
    cases hs
    exact ⟨⟨_, _⟩, .cons (m := ⟨_, _⟩) ⟨.connected (by decide +kernel), rfl⟩
      (.cons (m := ⟨_, _⟩) ⟨.frame (by decide +kernel) rfl, rfl⟩
        (.cons (m := ⟨_, _⟩) ⟨.silent (by decide +kernel) .refused, rfl⟩ (.nil _))),
      rfl, rfl, rfl, by decide +kernel⟩
  obtain ⟨b, hrun, hserving, htasks, hvalid, haccounts⟩ := hrun
  refine ⟨s, b, hs, hrun, hserving, htasks, hvalid, haccounts, ?_⟩
  intro hsettled
  have hone := hsettled _ (by rw [haccounts]; exact List.mem_singleton_self _) rfl
    (by rw [hserving]; exact List.mem_singleton_self _) rfl
  exact Bool.false_ne_true (hone.1.symm.trans hvalid)

end Books

end LproxyCv.Xport
