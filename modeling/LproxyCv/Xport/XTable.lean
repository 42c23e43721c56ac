import LproxyCv.Xport.XWorld

set_option autoImplicit false

/-!
# Xport: the table when the connection goes, and its count

Two things about the request table that the tunnel keeps up in several places.
When the connection goes, the slots are to be given back, so that the tasks of the
requests can end; and `reqCount` is to be the number of slots in use.  Neither
holds in every run.  For both, this module has the steps after which they do not.
-/

namespace LproxyCv.Xport

open LproxyCv.Foundation LproxyCv.Lws LproxyCv.Tunnels

/-- No request holds the slot, and its task has no channel and no trigger left. -/
def XRequest.Released (req : XRequest) : Prop :=
  req.isInused = false ∧ req.requestTx = none ∧ req.trigger = none

instance : DecidablePred XRequest.Released := fun _ => inferInstanceAs (Decidable (_ ∧ _ ∧ _))

namespace XReqq

/-- All slots are released. -/
def Cleared (q : XReqq) : Prop := ∀ req ∈ q.elements, req.Released

/-- How many slots are in use. -/
def used (q : XReqq) : Nat := q.elements.countP XRequest.isInused

theorem cleared_new (size : Nat) : (new size).Cleared := by
  intro req hreq
  obtain ⟨n, _, rfl⟩ := List.mem_map.mp hreq
  exact ⟨rfl, rfl, rfl⟩

theorem cleared_clearAll (q : XReqq) : q.clearAll.Cleared := by
  intro req hreq
  obtain ⟨before, _, rfl⟩ := List.mem_map.mp hreq
  exact ⟨rfl, rfl, rfl⟩

theorem Cleared.used {q : XReqq} (h : q.Cleared) : q.used = 0 :=
  List.countP_eq_zero.mpr fun req hreq => by simp [(h req hreq).1]

theorem used_le (q : XReqq) : q.used ≤ q.elements.length := List.countP_le_length

theorem used_setSlot {q : XReqq} {i : Nat} {req : XRequest} (h : q.slot i = some req)
    (req' : XRequest) :
    (q.setSlot i req').used + req.isInused.toNat = q.used + req'.isInused.toNat := by
  obtain ⟨hi, rfl⟩ := List.getElem?_eq_some_iff.mp h
  have hset := List.countP_set (p := XRequest.isInused) (a := req') hi
  have hpos : q.elements[i].isInused = true → 0 < q.used := fun huse =>
    List.countP_pos_iff.mpr ⟨_, List.getElem_mem hi, huse⟩
  have hused : (q.setSlot i req').used = (q.elements.set i req').countP XRequest.isInused := rfl
  have hbefore : q.used = q.elements.countP XRequest.isInused := rfl
  rw [← hused, ← hbefore] at hset
  cases hold : q.elements[i].isInused <;> cases hnew : req'.isInused <;>
    simp only [hold, hnew, Bool.false_eq_true, if_false, if_true, Bool.toNat_false,
      Bool.toNat_true, true_implies, false_implies] at hset hpos ⊢ <;> omega

theorem inUse_slot {q : XReqq} {i : Nat} {req : XRequest} (h : q.slot i = some req) :
    q.inUse i = req.isInused := by simp [inUse, h]

theorem used_pos {q : XReqq} {i : Nat} {req : XRequest} (h : q.slot i = some req)
    (huse : req.isInused = true) : 0 < q.used :=
  List.countP_pos_iff.mpr ⟨req, List.mem_of_getElem? h, huse⟩

end XReqq

namespace XWorld

/-! ## What a step does to the table -/

/-- The events that leave the slots and the count alone: all but the end of a
connection and the frames by which the peer opens and closes requests. -/
def Quiet : XEvent → Prop
  | .ended _ => False
  | .frame _ msg _ => ∀ cmd th, requestFrame msg.buf = some (cmd, th) →
      cmd ≠ .reqClientClosed ∧ cmd ≠ .reqCreated
  | _ => True

/-- What a step does to the table and to its count. -/
inductive TableStep (s : XWorld) : XEvent → XTunnel → Prop where
  /-- nothing -/
  | same {e : XEvent} {tun : XTunnel} : Quiet e → tun.requests = s.tun.requests →
      tun.reqCount = s.tun.reqCount → TableStep s e tun
  /-- the peer has no more data for a request -/
  | finished {conn : Nat} {msg : RMessage} {elapsed : UInt64} {th : THeader} :
      requestFrame msg.buf = some (.reqClientFinished, th) →
      TableStep s (.frame conn msg elapsed) (s.tun.freeRequestTx th.reqIdx th.reqTag)
  /-- the peer has closed a request -/
  | closed {conn : Nat} {msg : RMessage} {elapsed : UInt64} {th : THeader} :
      requestFrame msg.buf = some (.reqClientClosed, th) →
      TableStep s (.frame conn msg elapsed) (s.tun.onReqClientClosed th)
  /-- the peer has opened a request -/
  | created {conn : Nat} {msg : RMessage} {elapsed : UInt64} {th : THeader} {port : UInt16} :
      requestFrame msg.buf = some (.reqCreated, th) →
      TableStep s (.frame conn msg elapsed) (s.tun.onReqCreated s.opened.length th port).1
  /-- the connection is over -/
  | ended (conn : Nat) : TableStep s (.ended conn) s.tun.onTunnelClosed
  /-- a task whose request is there has ended -/
  | released {task : XTask} {r : Report} {next : Option Phase} {req : XRequest} :
      s.tun.requests.slot task.proxy.reqIdx.toNat = some req → req.isInused = true →
      TableStep s (.report task r next) { s.tun with
        requests := s.tun.requests.setSlot task.proxy.reqIdx.toNat (XReqq.cleanReq req)
        reqCount := s.tun.reqCount - 1 }

/-- The end of a task gives the slot of its request back, or does nothing. -/
theorem onRequestClosed_table (s : XWorld) (task : XTask) (r : Report) (next : Option Phase) :
    s.TableStep (.report task r next)
      (s.tun.onRequestClosed task.proxy.reqIdx task.proxy.reqTag).1 := by
  cases hvalid : s.tun.checkReqValid task.proxy.reqIdx task.proxy.reqTag with
  | false =>
      rw [s.tun.onRequestClosed_void (.inl hvalid)]
      exact .same trivial rfl rfl
  | true =>
      cases htx : s.tun.tunTx with
      | none =>
          rw [s.tun.onRequestClosed_void (.inr htx)]
          exact .same trivial rfl rfl
      | some tx =>
          obtain ⟨req, hslot, heq⟩ := XTunnel.onRequestClosed_live hvalid htx
          have huse := XTunnel.checkReqValid_inUse hvalid
          rw [XReqq.inUse_slot hslot] at huse
          rw [heq]
          exact .released hslot huse

theorem report_table {s : XWorld} {task : XTask} {r : Report} {next : Option Phase}
    {res : XTunnel × List Effect} (h : s.tun.report task.proxy r = some res) :
    s.TableStep (.report task r next) res.1 := by
  cases r with
  | connectError =>
      cases h
      exact s.onRequestClosed_table task _ next
  | closed =>
      cases h
      exact s.onRequestClosed_table task _ next
  | recvFinished =>
      cases h
      exact .same trivial rfl rfl
  | msg message =>
      rw [XTunnel.report, Option.map_eq_some_iff] at h
      obtain ⟨p, _, rfl⟩ := h
      exact .same trivial rfl rfl

theorem frame_table {s : XWorld} {conn : Nat} {msg : RMessage} {elapsed : UInt64}
    {r : XTunnel × List Effect × Option ProxyTask}
    (h : s.tun.onTunnelMsg msg elapsed s.opened.length = some r) :
    s.TableStep (.frame conn msg elapsed) r.1 := by
  cases XTunnel.onTunnelMsg_spec h with
  | data hframe =>
      refine .same ?_ rfl rfl
      intro cmd th heq
      rw [hframe] at heq
      cases heq
      exact ⟨by decide, by decide⟩
  | finished hframe => exact .finished hframe
  | closed hframe => exact .closed hframe
  | created hframe => exact .created hframe
  | other hquiet _ => exact .same hquiet rfl rfl

theorem step_table {parse : String → Option (String × UInt16)} {s t : XWorld} {e : XEvent}
    (hstep : Step parse s e t) : s.TableStep e t.tun := by
  cases hstep with
  | connected _ =>
      unfold connected XTunnel.onTunnelCreated
      dsimp only
      split <;> split <;> exact .same trivial rfl rfl
  | failed _ =>
      unfold failed XTunnel.onTunnelBuildError
      dsimp only
      split <;> exact .same trivial rfl rfl
  | frame _ hframe =>
      unfold frame at hframe
      simp only [Option.bind_eq_bind, Option.bind_eq_some_iff, Option.some.injEq] at hframe
      obtain ⟨r, hmsg, rfl⟩ := hframe
      exact frame_table hmsg
  | ended _ => exact .ended _
  | keepalive htick =>
      unfold keepalive at htick
      simp only [Option.bind_eq_bind, Option.bind_eq_some_iff, Option.some.injEq] at htick
      obtain ⟨r, hcall, rfl⟩ := htick
      exact .same trivial (XTunnel.keepalive_spec hcall).2.2.1 (XTunnel.keepalive_reqCount hcall)
  | stop => exact .same trivial s.tun.stop_spec.2 s.tun.stop_reqCount
  | silent _ _ => exact .same trivial rfl rfl
  | report _ _ hreport =>
      unfold report at hreport
      simp only [Option.bind_eq_bind, Option.bind_eq_some_iff, Option.some.injEq] at hreport
      obtain ⟨res, hres, rfl⟩ := hreport
      exact report_table hres

/-! ## When the connection goes -/

/-- While no connection is served, all slots are released. -/
def Released (s : XWorld) : Prop := s.serving = [] → s.tun.requests.Cleared

/-- A connection goes before the tunnel is stopped, or with all slots released. -/
def Closing (s : XWorld) : XEvent → Prop
  | .ended _ => s.tun.discarded = false ∨ s.tun.requests.Cleared
  | _ => True

/-- The end of the connection releases the slots of a tunnel that is not stopped,
and none of one that is. -/
theorem ended_released_iff {s : XWorld} {conn : Nat} (h : s.Sound) (hmem : conn ∈ s.serving) :
    (s.ended conn).Released ↔ s.Closing (.ended conn) := by
  obtain ⟨hup, hserving, rfl⟩ := h.newest hmem
  have hgone : (s.ended s.conns).serving = [] := by simp [ended, hserving]
  unfold Released
  rw [hgone]
  cases hstop : s.tun.discarded with
  | false =>
      have htable : (s.ended s.conns).tun.requests = s.tun.requests.clearAll := by
        simp [ended, XTunnel.onTunnelClosed, hup, hstop]
      rw [htable]
      exact ⟨fun _ => .inl hstop, fun _ _ => s.tun.requests.cleared_clearAll⟩
  | true =>
      have htable : (s.ended s.conns).tun.requests = s.tun.requests := by
        simp [ended, XTunnel.onTunnelClosed, hup, hstop]
      rw [htable]
      constructor
      · intro hcleared
        exact .inr (hcleared rfl)
      · rintro (hrun | hcleared) _
        · rw [hstop] at hrun
          cases hrun
        · exact hcleared

/-- A step leaves the slots released while no connection is served exactly when it
meets `Closing`. -/
theorem step_released_iff {parse : String → Option (String × UInt16)} {s t : XWorld} {e : XEvent}
    (h : s.Sound) (hrel : s.Released) (hstep : Step parse s e t) :
    t.Released ↔ s.Closing e := by
  have hsame : s.Closing e → (t.serving = [] → s.serving = [] ∧
      t.tun.requests = s.tun.requests) → (t.Released ↔ s.Closing e) := by
    intro hclosing hkeep
    refine ⟨fun _ => hclosing, fun _ hnil => ?_⟩
    obtain ⟨hbefore, htable⟩ := hkeep hnil
    rw [htable]
    exact hrel hbefore
  have htable := step_table hstep
  cases hstep with
  | @connected task rawfd tx _ =>
      refine hsame trivial fun hnil => ?_
      unfold connected XTunnel.onTunnelCreated at hnil ⊢
      cases hstop : s.tun.discarded with
      | true => simpa [hstop] using hnil
      | false => simp [hstop] at hnil
  | failed _ =>
      refine hsame trivial fun hnil => ⟨hnil, ?_⟩
      cases htable with
      | same _ heq _ => exact heq
  | frame hmem hframe =>
      -- a frame needs a connection
      unfold frame at hframe
      simp only [Option.bind_eq_bind, Option.bind_eq_some_iff, Option.some.injEq] at hframe
      obtain ⟨_, _, rfl⟩ := hframe
      refine hsame trivial fun hnil => ?_
      rw [show s.serving = [] from hnil] at hmem
      cases hmem
  | ended hmem => exact ended_released_iff h hmem
  | keepalive htick =>
      unfold keepalive at htick
      simp only [Option.bind_eq_bind, Option.bind_eq_some_iff, Option.some.injEq] at htick
      obtain ⟨_, _, rfl⟩ := htick
      refine hsame trivial fun hnil => ⟨hnil, ?_⟩
      cases htable with
      | same _ heq _ => exact heq
  | stop => exact hsame trivial fun hnil => ⟨hnil, s.tun.stop_spec.2⟩
  | silent _ _ => exact hsame trivial fun hnil => ⟨hnil, rfl⟩
  | report _ _ hreport =>
      -- without a connection, a report is no matter
      unfold report at hreport
      simp only [Option.bind_eq_bind, Option.bind_eq_some_iff, Option.some.injEq] at hreport
      obtain ⟨res, hres, rfl⟩ := hreport
      refine hsame trivial fun hnil => ⟨hnil, ?_⟩
      have hdown : s.tun.tunTx = none := by
        cases htx : s.tun.tunTx with
        | none => rfl
        | some tx =>
            have hserving := h.link (by rw [htx]; rfl)
            rw [show s.serving = [] from hnil] at hserving
            cases hserving
      rw [report_void hres (.inr hdown)]

/-- In a run from the start, the slots are released whenever no connection is served,
exactly when each connection goes before the tunnel is stopped, or with all slots
released. -/
theorem run_released_iff {parse : String → Option (String × UInt16)} {cfg : TunCfg}
    {trigger : Trigger} {s t : XWorld} {es : List XEvent} (h : start parse cfg trigger = some s) :
    Run (Guarded Closing (Step parse)) s es t ↔
      Run (fun s e t => Step parse s e t ∧ t.Released) s es t := by
  have hrel : s.Released := by
    unfold start XTunnel.start at h
    simp only [Option.bind_eq_bind, Option.bind_eq_some_iff, Option.some.injEq] at h
    obtain ⟨_, ⟨_, _, rfl⟩, rfl⟩ := h
    exact fun _ => XReqq.cleared_new 128
  refine Run.guarded_iff (I := fun s => s.Sound ∧ s.Released) ?_ ?_ ⟨(start_sound h).1, hrel⟩
  · rintro s e t ⟨hs, hs'⟩ hstep
    exact step_released_iff hs hs' hstep
  · rintro s e t ⟨hs, _⟩ hstep ht
    exact ⟨hs.step hstep, ht⟩

/-- The first connection is lost while its request is connecting. -/
def lost : List XEvent := [.connected attempt 3 7, .frame 1 (opens 1) 0, .ended 1]

/-- The tunnel is stopped before that. -/
def stoppedFirst : List XEvent :=
  [.connected attempt 3 7, .frame 1 (opens 1) 0, .stop, .ended 1]

/-- Unless the tunnel is stopped, the request is released. -/
theorem run_released_iff_lost :
    ∃ s t, start (fun _ => some ("127.0.0.1", 443)) xportCfg 0 = some s ∧
      Run (fun s e t => Step (fun _ => some ("127.0.0.1", 443)) s e t ∧ t.Released) s lost t ∧
      t.serving = [] ∧ t.tasks = [firstTask] := by
  obtain ⟨s, hs⟩ : ∃ s, start (fun _ => some ("127.0.0.1", 443)) xportCfg 0 = some s := ⟨_, rfl⟩
  have hrun : ∃ t, Run (Guarded Closing (Step fun _ => some ("127.0.0.1", 443))) s lost t ∧
      t.serving = [] ∧ t.tasks = [firstTask] := by
    cases hs
    exact ⟨_, .cons ⟨trivial, .connected (by decide +kernel)⟩
      (.cons ⟨trivial, .frame (by decide +kernel) rfl⟩
        (.cons ⟨.inl rfl, .ended (by decide +kernel)⟩ (.nil _))), rfl, rfl⟩
  obtain ⟨t, hrun, hserving, htasks⟩ := hrun
  exact ⟨s, t, hs, (run_released_iff hs).mp hrun, hserving, htasks⟩

/-- A tunnel that is stopped keeps the request, its channel and its trigger. -/
theorem stopped_not_released :
    ∃ s t, start (fun _ => some ("127.0.0.1", 443)) xportCfg 0 = some s ∧
      Run (Step fun _ => some ("127.0.0.1", 443)) s stoppedFirst t ∧
      t.tun.requests.slot 0 = some ⟨0, 1, true, some 0, some 0⟩ ∧ ¬ t.Released := by
  obtain ⟨s, hs⟩ : ∃ s, start (fun _ => some ("127.0.0.1", 443)) xportCfg 0 = some s := ⟨_, rfl⟩
  have hrun : ∃ t, Run (Step fun _ => some ("127.0.0.1", 443)) s stoppedFirst t ∧
      t.serving = [] ∧ t.tun.requests.slot 0 = some ⟨0, 1, true, some 0, some 0⟩ := by
    cases hs
    exact ⟨_, .cons (.connected (by decide +kernel)) (.cons (.frame (by decide +kernel) rfl)
      (.cons (.stop _) (.cons (.ended (by decide +kernel)) (.nil _)))), rfl, rfl⟩
  obtain ⟨t, hrun, hserving, hslot⟩ := hrun
  refine ⟨s, t, hs, hrun, hslot, ?_⟩
  intro hrel
  have hfree := (hrel hserving _ (List.mem_of_getElem? hslot)).1
  cases hfree

/-! ## The count -/

/-- `reqCount` is the number of slots in use. -/
def Counted (s : XWorld) : Prop := s.tun.reqCount.toNat = s.tun.requests.used

/-- The step leaves the count right, and moves it by one at most, without wrapping
around. -/
structure Tallied (s t : XWorld) : Prop where
  counted : t.Counted
  up : t.tun.reqCount.toNat ≤ s.tun.reqCount.toNat + 1
  down : s.tun.reqCount.toNat ≤ t.tun.reqCount.toNat + 1

/-- The connection goes while no slot is in use, or after the tunnel is stopped; and
the peer opens a request in a slot that is free, or after the tunnel is stopped in
one that is not. -/
def Tallying (s : XWorld) : XEvent → Prop
  | .ended _ => s.tun.discarded = true ∨ s.tun.requests.used = 0
  | .frame _ msg _ => ∀ th, requestFrame msg.buf = some (.reqCreated, th) →
      th.reqIdx.toNat < s.tun.requests.elements.length →
      s.tun.requests.inUse th.reqIdx.toNat = s.tun.discarded
  | _ => True

/-- A step after which both are as they were. -/
theorem tallied_same {s t : XWorld} (h : s.Counted) (hreqs : t.tun.requests.used = s.tun.requests.used)
    (hcount : t.tun.reqCount = s.tun.reqCount) : s.Tallied t := by
  refine ⟨?_, by rw [hcount]; omega, by rw [hcount]; omega⟩
  unfold Counted
  rw [hcount, hreqs]
  exact h

/-- A step that gives a slot back and counts it. -/
theorem tallied_freed {s t : XWorld} {i : Nat} {req : XRequest} (h : s.Counted)
    (hslot : s.tun.requests.slot i = some req) (huse : req.isInused = true)
    (hreqs : t.tun.requests = s.tun.requests.setSlot i (XReqq.cleanReq req))
    (hcount : t.tun.reqCount = s.tun.reqCount - 1) : s.Tallied t := by
  have hpos := XReqq.used_pos hslot huse
  have hset := XReqq.used_setSlot hslot (XReqq.cleanReq req)
  rw [← hreqs, huse] at hset
  have hfree : (XReqq.cleanReq req).isInused = false := rfl
  rw [hfree, Bool.toNat_true, Bool.toNat_false] at hset
  have hone : (s.tun.reqCount - 1).toNat = s.tun.reqCount.toNat - 1 := by
    unfold Counted at h
    exact UInt16.toNat_sub_of_le _ _ (UInt16.le_iff_toNat_le.mpr (by rw [h]; exact hpos))
  unfold Counted at h
  refine ⟨?_, by rw [hcount, hone]; omega, by rw [hcount, hone]; omega⟩
  unfold Counted
  rw [hcount, hone]
  omega

/-- Opening a request takes its slot up, if there is one, and counts it unless the
tunnel is stopped. -/
theorem onReqCreated_used {tun : XTunnel} {th : THeader} {req : XRequest} (id : Nat) (port : UInt16)
    (hslot : tun.requests.slot th.reqIdx.toNat = some req) :
    (tun.onReqCreated id th port).1.requests.used + req.isInused.toNat = tun.requests.used + 1 ∧
      (tun.onReqCreated id th port).1.reqCount =
        if tun.discarded then tun.reqCount else tun.reqCount + 1 := by
  cases hstop : tun.discarded with
  | true =>
      rw [XTunnel.onReqCreated_stopped id port hslot hstop]
      exact ⟨XReqq.used_setSlot hslot _, rfl⟩
  | false =>
      rw [XTunnel.onReqCreated_running id port hslot hstop]
      exact ⟨XReqq.used_setSlot hslot _, rfl⟩

/-- The frames by which the peer opens a request leave the count right exactly when the
slot is free, or the tunnel is stopped and the slot is not. -/
theorem created_tallied_iff {s t : XWorld} {th : THeader} {port : UInt16} {id : Nat}
    (h : s.Counted) (hlen : s.tun.requests.elements.length = 128)
    (ht : t.tun = (s.tun.onReqCreated id th port).1) :
    s.Tallied t ↔ (th.reqIdx.toNat < s.tun.requests.elements.length →
      s.tun.requests.inUse th.reqIdx.toNat = s.tun.discarded) := by
  cases hslot : s.tun.requests.slot th.reqIdx.toNat with
  | none =>
      have hout : s.tun.requests.elements.length ≤ th.reqIdx.toNat :=
        List.getElem?_eq_none_iff.mp hslot
      rw [XTunnel.onReqCreated_none id port hslot] at ht
      constructor
      · intro _ hlt
        omega
      · intro _
        exact tallied_same h (by rw [ht]) (by rw [ht])
  | some req =>
      have hin : th.reqIdx.toNat < s.tun.requests.elements.length :=
        (List.getElem?_eq_some_iff.mp hslot).1
      obtain ⟨hused, hcount⟩ := onReqCreated_used id port hslot
      rw [← ht] at hused hcount
      have hle := s.tun.requests.used_le
      rw [XReqq.inUse_slot hslot]
      unfold Counted at h
      have hone : (s.tun.reqCount + 1).toNat = s.tun.reqCount.toNat + 1 := by
        rw [UInt16.toNat_add]
        simp
        omega
      cases hstop : s.tun.discarded with
      | true =>
          rw [hstop, if_pos rfl] at hcount
          constructor
          · rintro ⟨hafter, _, _⟩ _
            unfold Counted at hafter
            rw [hcount] at hafter
            cases huse : req.isInused with
            | true => rfl
            | false =>
                rw [huse, Bool.toNat_false] at hused
                omega
          · intro huse
            rw [huse hin, Bool.toNat_true] at hused
            exact tallied_same h (by omega) hcount
      | false =>
          rw [hstop, if_neg Bool.false_ne_true] at hcount
          constructor
          · rintro ⟨hafter, _, _⟩ _
            unfold Counted at hafter
            rw [hcount, hone] at hafter
            cases huse : req.isInused with
            | false => rfl
            | true =>
                rw [huse, Bool.toNat_true] at hused
                omega
          · intro huse
            rw [huse hin, Bool.toNat_false] at hused
            refine ⟨?_, by rw [hcount, hone], by rw [hcount, hone]; omega⟩
            unfold Counted
            rw [hcount, hone]
            omega

/-- The peer closes a request: a slot given back is counted. -/
theorem closed_tallied {s t : XWorld} {th : THeader} (h : s.Counted)
    (ht : t.tun = s.tun.onReqClientClosed th) : s.Tallied t := by
  rcases s.tun.requests.free_cases th.reqIdx th.reqTag with ⟨req, hslot, _, huse, heq⟩ | ⟨heq, _⟩
  · have hpos : 0 < s.tun.reqCount := by
      have hused := XReqq.used_pos hslot huse
      unfold Counted at h
      exact UInt16.lt_iff_toNat_lt.mpr (by rw [h]; exact hused)
    refine tallied_freed h hslot huse ?_ ?_
    · simp [ht, XTunnel.onReqClientClosed, heq]
    · simp [ht, XTunnel.onReqClientClosed, heq, hpos]
  · refine tallied_same h ?_ ?_ <;> simp [ht, XTunnel.onReqClientClosed, heq]

/-- The end of the connection of a tunnel that runs leaves the count as it is, and no
slot in use. -/
theorem ended_tallied_iff {s t : XWorld} (h : s.Counted) (hup : s.tun.tunTx.isSome = true)
    (ht : t.tun = s.tun.onTunnelClosed) :
    s.Tallied t ↔ s.tun.discarded = true ∨ s.tun.requests.used = 0 := by
  have hcount : t.tun.reqCount = s.tun.reqCount := by
    rw [ht]
    unfold XTunnel.onTunnelClosed
    rw [if_pos hup]
    split <;> rfl
  cases hstop : s.tun.discarded with
  | true =>
      refine ⟨fun _ => .inl rfl, fun _ => tallied_same h ?_ hcount⟩
      simp [ht, XTunnel.onTunnelClosed, hup, hstop]
  | false =>
      have hused : t.tun.requests.used = 0 := by
        have htable : t.tun.requests = s.tun.requests.clearAll := by
          simp [ht, XTunnel.onTunnelClosed, hup, hstop]
        rw [htable]
        exact s.tun.requests.cleared_clearAll.used
      constructor
      · rintro ⟨hafter, _, _⟩
        unfold Counted at hafter h
        rw [hcount, hused] at hafter
        exact .inr (h.symm.trans hafter)
      · rintro (hrun | hnone)
        · cases hrun
        · exact tallied_same h (hused.trans hnone.symm) hcount

/-- A step keeps the count right exactly when it meets `Tallying`. -/
theorem step_tallied_iff {parse : String → Option (String × UInt16)} {s t : XWorld} {e : XEvent}
    (hsound : s.Sound) (hlen : s.tun.requests.elements.length = 128) (h : s.Counted)
    (hstep : Step parse s e t) : s.Tallied t ↔ s.Tallying e := by
  have hquiet : ∀ {conn msg elapsed cmd th}, requestFrame msg.buf = some (cmd, th) →
      cmd ≠ .reqCreated → s.Tallying (.frame conn msg elapsed) := by
    intro conn msg elapsed cmd th hframe hcmd th' heq
    rw [hframe] at heq
    cases heq
    exact absurd rfl hcmd
  have hup : ∀ {conn}, e = .ended conn → s.tun.tunTx.isSome = true := by
    rintro conn rfl
    cases hstep with
    | ended hmem => exact (hsound.newest hmem).1
  have htable := step_table hstep
  generalize htun : t.tun = tun at htable
  cases htable with
  | same hkeep hreqs hcount =>
      refine ⟨fun _ => ?_, fun _ => tallied_same h (by rw [htun, hreqs]) (by rw [htun, hcount])⟩
      cases e with
      | frame conn msg elapsed =>
          intro th hframe
          exact absurd rfl (hkeep _ _ hframe).2
      | ended _ => cases hkeep
      | _ => trivial
  | @finished _ _ _ th hframe =>
      refine ⟨fun _ => hquiet hframe (by decide), fun _ => ?_⟩
      unfold XTunnel.freeRequestTx at htun
      split at htun
      · exact tallied_same h (by rw [htun]) (by rw [htun])
      · rename_i req hslot
        split at htun
        · refine tallied_same h ?_ (by rw [htun])
          have hset := XReqq.used_setSlot hslot { req with requestTx := none }
          rw [htun]
          dsimp only at hset ⊢
          omega
        · exact tallied_same h (by rw [htun]) (by rw [htun])
  | closed hframe =>
      exact ⟨fun _ => hquiet hframe (by decide), fun _ => closed_tallied h htun⟩
  | @created _ _ _ th _ hframe =>
      rw [created_tallied_iff h hlen htun]
      constructor
      · intro hfits th' heq
        rw [hframe] at heq
        cases heq
        exact hfits
      · intro htally
        exact htally th hframe
  | ended conn => exact ended_tallied_iff h (hup rfl) htun
  | released hslot huse =>
      exact ⟨fun _ => trivial, fun _ => tallied_freed h hslot huse (by rw [htun]) (by rw [htun])⟩

/-- The table keeps its size. -/
theorem step_length {parse : String → Option (String × UInt16)} {s t : XWorld} {e : XEvent}
    (hstep : Step parse s e t) :
    t.tun.requests.elements.length = s.tun.requests.elements.length := by
  have htable := step_table hstep
  generalize t.tun = tun at htable
  cases htable with
  | same _ hreqs _ => rw [hreqs]
  | finished _ =>
      unfold XTunnel.freeRequestTx
      split
      · rfl
      · split
        · exact List.length_set
        · rfl
  | @closed _ _ _ th _ =>
      rcases s.tun.requests.free_cases th.reqIdx th.reqTag with ⟨req, _, _, _, heq⟩ | ⟨heq, _⟩ <;>
        simp [XTunnel.onReqClientClosed, heq, XReqq.setSlot]
  | @created _ _ _ th port _ =>
      cases hslot : s.tun.requests.slot th.reqIdx.toNat with
      | none => rw [XTunnel.onReqCreated_none _ port hslot]
      | some req =>
          cases hstop : s.tun.discarded with
          | true =>
              rw [XTunnel.onReqCreated_stopped _ port hslot hstop]
              exact List.length_set
          | false =>
              rw [XTunnel.onReqCreated_running _ port hslot hstop]
              exact List.length_set
  | ended conn =>
      unfold XTunnel.onTunnelClosed
      split
      · split
        · rfl
        · exact List.length_map ..
      · exact List.length_map ..
  | released _ _ => exact List.length_set

/-- The count starts right; and in a run from the start every step leaves it right, and
moves it by one at most, exactly when every step meets `Tallying`. -/
theorem run_tallied_iff {parse : String → Option (String × UInt16)} {cfg : TunCfg}
    {trigger : Trigger} {s t : XWorld} {es : List XEvent} (h : start parse cfg trigger = some s) :
    s.Counted ∧ (Run (Guarded Tallying (Step parse)) s es t ↔
      Run (fun s e t => Step parse s e t ∧ s.Tallied t) s es t) := by
  have hstart : s.tun.requests.elements.length = 128 ∧ s.Counted := by
    have h' := h
    unfold start XTunnel.start at h'
    simp only [Option.bind_eq_bind, Option.bind_eq_some_iff, Option.some.injEq] at h'
    obtain ⟨_, ⟨_, _, rfl⟩, rfl⟩ := h'
    exact ⟨by simp [XTunnel.new, XReqq.new], (XReqq.cleared_new 128).used.symm⟩
  obtain ⟨hlen, hcounted⟩ := hstart
  refine ⟨hcounted, Run.guarded_iff
    (I := fun s => s.Sound ∧ s.tun.requests.elements.length = 128 ∧ s.Counted) ?_ ?_
    ⟨(start_sound h).1, hlen, hcounted⟩⟩
  · rintro s e t ⟨hs, hs', hs''⟩ hstep
    exact step_tallied_iff hs hs' hs'' hstep
  · rintro s e t ⟨hs, hs', _⟩ hstep ht
    exact ⟨hs.step hstep, (step_length hstep).trans hs', ht.counted⟩

/-- The peer closes the request 0 with the tag 1. -/
def closes : RMessage := ⟨Tunnels.frame .reqClientClosed (THeader.toBytes ⟨0, 1⟩), 7, none⟩

/-- The peer closes its request before the connection is lost. -/
def closedFirst : List XEvent :=
  [.connected attempt 3 7, .frame 1 (opens 1) 0, .frame 1 closes 0, .ended 1]

/-- The peer opens the request again once the tunnel is stopped, and then the first task's
connection times out. -/
def openedLate : List XEvent :=
  [.connected attempt 3 7, .frame 1 (opens 1) 0, .frame 1 closes 0, .stop, .frame 1 (opens 1) 0,
    .report firstTask .connectError none]

/-- With the request closed before the connection is lost, the count is right. -/
theorem run_tallied_iff_closed :
    ∃ s t, start (fun _ => some ("127.0.0.1", 443)) xportCfg 0 = some s ∧ s.Counted ∧
      Run (fun s e t => Step (fun _ => some ("127.0.0.1", 443)) s e t ∧ s.Tallied t) s
        closedFirst t := by
  obtain ⟨s, hs⟩ : ∃ s, start (fun _ => some ("127.0.0.1", 443)) xportCfg 0 = some s := ⟨_, rfl⟩
  have hrun : ∃ t, Run (Guarded Tallying (Step fun _ => some ("127.0.0.1", 443))) s
      closedFirst t := by
    cases hs
    have hopens : requestFrame (opens 1).buf = some (.reqCreated, ⟨0, 1⟩) := by decide +kernel
    have hcloses : requestFrame closes.buf = some (.reqClientClosed, ⟨0, 1⟩) := by decide +kernel
    refine ⟨_, .cons ⟨trivial, .connected (by decide +kernel)⟩
      (.cons ⟨?_, .frame (by decide +kernel) rfl⟩ (.cons ⟨?_, .frame (by decide +kernel) rfl⟩
        (.cons ⟨.inr rfl, .ended (by decide +kernel)⟩ (.nil _))))⟩
    · intro th heq _
      rw [hopens] at heq
      cases heq
      rfl
    · intro th heq _
      rw [hcloses] at heq
      cases heq
  obtain ⟨t, hrun⟩ := hrun
  obtain ⟨hcounted, htallied⟩ := @run_tallied_iff _ _ _ _ t closedFirst hs
  exact ⟨s, t, hs, hcounted, htallied.mp hrun⟩

/-- A request that is open when its connection is lost stays counted, without a slot in
use; and one that is opened in a stopped tunnel is not counted, so that its end takes
the count below zero. -/
theorem lost_not_counted :
    ∃ s t t', start (fun _ => some ("127.0.0.1", 443)) xportCfg 0 = some s ∧
      (Run (Step fun _ => some ("127.0.0.1", 443)) s lost t ∧
        t.tun.reqCount = 1 ∧ t.tun.requests.used = 0 ∧ ¬ t.Counted) ∧
      Run (Step fun _ => some ("127.0.0.1", 443)) s openedLate t' ∧
        t'.tun.reqCount = 65535 ∧ t'.tun.requests.used = 0 ∧ ¬ t'.Counted := by
  obtain ⟨s, hs⟩ : ∃ s, start (fun _ => some ("127.0.0.1", 443)) xportCfg 0 = some s := ⟨_, rfl⟩
  have hlost : ∃ t, Run (Step fun _ => some ("127.0.0.1", 443)) s lost t ∧
      t.tun.reqCount = 1 ∧ t.tun.requests.used = 0 := by
    cases hs
    exact ⟨_, .cons (.connected (by decide +kernel)) (.cons (.frame (by decide +kernel) rfl)
      (.cons (.ended (by decide +kernel)) (.nil _))), rfl, rfl⟩
  have hlate : ∃ t, Run (Step fun _ => some ("127.0.0.1", 443)) s openedLate t ∧
      t.tun.reqCount = 65535 ∧ t.tun.requests.used = 0 := by
    cases hs
    exact ⟨_, .cons (.connected (by decide +kernel)) (.cons (.frame (by decide +kernel) rfl)
      (.cons (.frame (by decide +kernel) rfl) (.cons (.stop _)
        (.cons (.frame (by decide +kernel) rfl)
          (.cons (.report (by decide +kernel) .connectError rfl) (.nil _)))))), rfl, rfl⟩
  obtain ⟨t, hrun, hcount, hused⟩ := hlost
  obtain ⟨t', hrun', hcount', hused'⟩ := hlate
  refine ⟨s, t, t', hs, ⟨hrun, hcount, hused, ?_⟩, hrun', hcount', hused', ?_⟩
  · intro hcounted
    rw [Counted, hcount, hused] at hcounted
    cases hcounted
  · intro hcounted
    rw [Counted, hcount', hused'] at hcounted
    cases hcounted

end XWorld

end LproxyCv.Xport
