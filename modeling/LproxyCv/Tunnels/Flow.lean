import LproxyCv.Foundation.Credit
import LproxyCv.Tunnels.Conversations

set_option autoImplicit false

/-!
# Tunnels: the quota of a request

The server may send so many data frames for a request as the quota that the connection
announced, and as many more as it was told are written out.  The client does not check this:
what comes for a request waits in the channel of its task, which has no bound of its own.

When the server keeps to that, the flow of each request is that of a window (`Metered.Step.flow`):
no more than the quota waits in its channel, and a server that may send nothing more is told of
more before the channel is empty (`run_flows`).
-/

namespace LproxyCv.Tunnels

open LproxyCv.Foundation LproxyCv.Lws LproxyCv.Net

/-! ## Reports -/

/-- How much a message says is written out for a request. -/
def creditIn (th : THeader) (msg : WMessage) : Nat :=
  match readCmd msg.buf with
  | some (.reqClientQuota, body) =>
      if THeader.readFrom body = some th then (readLE 2 body theaderSize).getD 0 else 0
  | _ => 0

/-- Only a report says that something was written out. -/
theorem creditIn_eq_zero {msg : WMessage} {th : THeader}
    (h : said msg ≠ some (th, .reqClientQuota)) : creditIn th msg = 0 := by
  unfold creditIn
  split
  · rename_i body hread
    refine if_neg ?_
    intro hth
    exact h (by simp [said, requestFrame_of_readCmd hread hth, Cmd.isRequest])
  · rfl

/-- The request that a frame of the server has data for. -/
def ConnEvent.gives : ConnEvent → Option THeader
  | .frame msg _ =>
      match requestFrame msg.buf with
      | some (.reqData, th) => some th
      | _ => none
  | _ => none

theorem ConnEvent.gives_frame {msg : RMessage} {elapsed : UInt64} {th : THeader} :
    (ConnEvent.frame msg elapsed).gives = some th ↔
      requestFrame msg.buf = some (.reqData, th) := by
  show (match requestFrame msg.buf with | some (.reqData, th) => some th | _ => none) = _ ↔ _
  split
  · rename_i hframe
    simp [hframe]
  · rename_i hother
    exact ⟨nofun, fun hframe => (hother th hframe).elim⟩

/-- The end of a task is reported, or nothing is. -/
theorem Tunnel.onRequestClosed_sends (t : Tunnel) (ts : TunStub) :
    (t.onRequestClosed ts).2 = [sendRequestClosedToServer ts] ∨ (t.onRequestClosed ts).2 = [] :=
  ite_eq_or_eq _ _ _

namespace Conn

variable {c c' : Conn} {e : ConnEvent}

/-- How much the server was told is written out for a request. -/
def returned (c : Conn) (th : THeader) : Nat := (c.sent.map (creditIn th)).sum

/-- What is reported when something is done, if it is reported on this connection. -/
def creditTo (tx : Channel) (th : THeader) : Effect → Nat
  | .send tx' msg => if tx' = tx then creditIn th msg else 0
  | _ => 0

theorem creditTo_sendRequestQuota (ts : TunStub) (quota : UInt16) (th : THeader) :
    creditTo ts.tunnelTx th (ReqServ.sendRequestQuota ts quota) =
      if ts.header = th then quota.toNat else 0 := by
  have hblock := readLE_block ts.header.toBytes (leBytes 2 quota.toNat) []
  rw [leBytes_length, leNat_leBytes_of_lt quota.toNat_lt, THeader.toBytes_length,
    List.append_nil] at hblock
  show (if ts.tunnelTx = ts.tunnelTx then creditIn th _ else 0) = _
  rw [if_pos rfl, creditIn, WMessage.new, readCmd_frame]
  simp only [THeader.readFrom_toBytes, Option.some.injEq, hblock, Option.getD_some]

theorem effect_returned (c : Conn) (a : Effect) (th : THeader) :
    (c.effect a).returned th = c.returned th + creditTo c.tunnel.tx th a := by
  cases a with
  | send tx msg =>
      rw [effect_send, creditTo]
      split
      · simp [returned]
      · rfl
  | _ => rfl

theorem perform_returned (effects : List Effect) (c : Conn) (th : THeader) :
    (c.perform effects).returned th =
      c.returned th + (effects.map (creditTo c.tunnel.tx th)).sum := by
  induction effects generalizing c with
  | nil => rfl
  | cons a effects ih =>
      have hstep := ih (c.effect a)
      rw [effect_returned, effect_tunnel, Nat.add_assoc] at hstep
      exact hstep

/-- What is not said to be written out is not reported. -/
theorem perform_returned_of_saidTo {effects : List Effect} {th : THeader}
    (h : (th, .reqClientQuota) ∉ effects.filterMap (saidTo c.tunnel.tx)) :
    (c.perform effects).returned th = c.returned th := by
  have hzero : effects.map (creditTo c.tunnel.tx th) = effects.map fun _ => 0 := by
    refine List.map_congr_left ?_
    intro a ha
    cases a with
    | send tx msg =>
        rw [creditTo]
        split
        · rename_i htx
          apply creditIn_eq_zero
          intro hsaid
          exact h (List.mem_filterMap.mpr ⟨_, ha, (if_pos htx).trans hsaid⟩)
        · rfl
    | _ => rfl
  rw [perform_returned, hzero]
  simp

/-! ## The tasks -/

/-- What goes to no task leaves the tasks as they are. -/
theorem perform_tasks {effects : List Effect} (h : ∀ tx msg, .send tx msg ∈ effects →
    ∀ t ∈ c.tasks, t.requestTx ≠ tx) : (c.perform effects).tasks = c.tasks := by
  induction effects generalizing c with
  | nil => rfl
  | cons a effects ih =>
      have hfirst : (c.effect a).tasks = c.tasks := by
        cases a with
        | send tx msg =>
            rw [effect_send]
            split
            · rfl
            · refine (List.map_congr_left ?_).trans (List.map_id _)
              intro t ht
              exact if_neg fun heq => h tx msg List.mem_cons_self t ht heq.1
        | _ => rfl
      have hrest := ih (c := c.effect a) fun tx msg hsend => by
        rw [hfirst]
        exact h tx msg (List.mem_cons_of_mem _ hsend)
      exact hrest.trans hfirst

/-- The channel of a task is in no slot but its own. -/
structure Wired (c : Conn) : Prop where
  above : ∀ s ∈ c.seats, c.tunnel.tx < s.requestTx
  known : ∀ i req ch, c.tunnel.requests.slot i = some req → req.requestTx = some ch → ch < c.next
  header : ∀ i req s, c.tunnel.requests.slot i = some req → s ∈ c.seats →
    req.requestTx = some s.requestTx → s.stub.header = ⟨UInt16.ofNat i, req.tag⟩

theorem wired_new (tx : Channel) (rawfd : Int) (idx cap : Nat) (requestQuota : UInt16) :
    (new tx rawfd idx cap requestQuota).Wired where
  above := nofun
  known := by
    intro i req ch hslot htx
    rw [(Reqq.new_slot hslot).2] at htx
    cases htx
  header := nofun

theorem Wired.step (h : c.Wired) (hc : c.Routed) (hstep : Step c e c') : c'.Wired := by
  have hmove := hstep.move hc
  have hwas := hmove.kept.2
  have habove : ∀ s' ∈ c'.seats, c'.tunnel.tx < s'.requestTx := by
    intro s' hs'
    rw [hwas]
    rcases hmove.origin hs' with ⟨s, hs, _, hid⟩ | ⟨_, hid, _⟩
    · rw [hid]
      exact h.above s hs
    · rw [hid]
      exact hc.next
  rcases hstep.loses with hloses | ⟨ip, port, rfl, rfl⟩
  · refine ⟨habove, ?_, ?_⟩
    · intro i req' ch hslot htx
      obtain ⟨req, hold, _, hold_tx⟩ := hloses i req' ch hslot htx
      exact Nat.lt_of_lt_of_le (h.known i req ch hold hold_tx) hstep.next_le
    · intro i req' s' hslot hs' htx
      obtain ⟨req, hold, htag, hold_tx⟩ := hloses i req' _ hslot htx
      rcases hmove.origin hs' with ⟨s, hs, hstub, hid⟩ | ⟨_, hid, _⟩
      · rw [hid] at hold_tx
        rw [hstub, h.header i req s hold hs hold_tx, htag]
      · have hlt := h.known i req _ hold hold_tx
        rw [hid] at hlt
        exact absurd hlt (Nat.lt_irrefl _)
  · refine ⟨habove, ?_, ?_⟩
    · intro i req' ch hslot htx
      rw [serveSock, perform_tunnel] at hslot
      rw [serveSock, perform_next]
      rcases Tunnel.slot_onRequestCreated hslot htx with ⟨req, hold, _, hold_tx⟩ | ⟨rfl, _⟩
      · exact Nat.lt_succ_of_lt (h.known i req ch hold hold_tx)
      · exact Nat.lt_succ_self c.next
    · intro i req' s' hslot hs' htx
      rw [serveSock, perform_tunnel] at hslot
      rw [serveSock, perform_seats, seats, List.map_append, List.mem_append] at hs'
      rcases Tunnel.slot_onRequestCreated hslot htx with
        ⟨req, hold, htag, hold_tx⟩ | ⟨hnew, hmade⟩
      · rcases hs' with hstarted | hs
        · obtain ⟨t, ht, rfl⟩ := List.mem_map.mp hstarted
          obtain ⟨ts, _, rfl⟩ := List.mem_map.mp ht
          exact absurd (h.known i req _ hold hold_tx) (Nat.lt_irrefl _)
        · rw [h.header i req s' hold hs hold_tx, htag]
      · rcases hs' with hstarted | hs
        · obtain ⟨t, ht, rfl⟩ := List.mem_map.mp hstarted
          obtain ⟨ts, hts, rfl⟩ := List.mem_map.mp ht
          exact hmade ts (Option.mem_toList.mp hts)
        · exact absurd hnew (Nat.ne_of_lt (hc.old s' hs))

/-- The slot of a task still has its channel. -/
def HasChannel (c : Conn) (t : ReqTask) : Prop :=
  c.tunnel.getRequestTx t.stub.reqIdx t.stub.reqTag = some t.requestTx

theorem HasChannel.before {t : ReqTask} (h : c'.HasChannel t) (hstep : Step c e c')
    (hold : t.requestTx < c.next) : c.HasChannel t := by
  obtain ⟨req', hslot, htag, htx⟩ := Tunnel.getRequestTx_eq_some.mp h
  refine Tunnel.getRequestTx_eq_some.mpr ?_
  rcases hstep.loses with hloses | ⟨ip, port, rfl, rfl⟩
  · obtain ⟨req, hreq, hsame, hreq_tx⟩ := hloses _ req' _ hslot htx
    exact ⟨req, hreq, hsame.trans htag, hreq_tx⟩
  · rw [serveSock, perform_tunnel] at hslot
    rcases Tunnel.slot_onRequestCreated hslot htx with
      ⟨req, hreq, hsame, hreq_tx⟩ | ⟨hnew, _⟩
    · exact ⟨req, hreq, hsame.trans htag, hreq_tx⟩
    · exact absurd hnew (Nat.ne_of_lt hold)

/-! ## What each step does to the flows -/

/-- The task is the same, as far as its flow goes. -/
structure SameFlow (t t' : ReqTask) : Prop where
  stub : t'.stub = t.stub
  requestTx : t'.requestTx = t.requestTx
  flow : t'.sending = true → t.sending = true ∧ t'.inbox = t.inbox ∧ t'.writeOut = t.writeOut

/-- The steps, as far as data comes or is written out. -/
inductive Turn (c : Conn) (e : ConnEvent) (c' : Conn) : Prop where
  /-- nothing -/
  | idle : e.gives = none → (∀ t' ∈ c'.tasks, ∃ t ∈ c.tasks, SameFlow t t') →
      (∀ th, c'.returned th = c.returned th) → Turn c e c'
  | started (ts : TunStub) {tag : UInt16} : e.gives = none →
      c.tunnel.Bumps c'.tunnel ts.reqIdx.toNat tag → ts.reqTag = tag + 1 →
      ts.requestQuota = c.tunnel.requestQuota → c'.tasks = ReqTask.new ts c.next :: c.tasks →
      (∀ th, c'.returned th = c.returned th) → Turn c e c'
  | wrote {t : ReqTask} {msg : WMessage} {rest : List WMessage} {writeOut : UInt16}
      {effects : List Effect} : e.gives = none → t ∈ c.tasks → t.sending = true →
      t.inbox = msg :: rest → ReqServ.countWriteOut t.stub t.writeOut = (writeOut, effects) →
      c'.tasks = (c.replace { t with inbox := rest, writeOut := writeOut }).tasks →
      (∀ th, c'.returned th =
        c.returned th + (effects.map (creditTo t.stub.tunnelTx th)).sum) → Turn c e c'
  | gave {th : THeader} : e.gives = some th →
      (c.tunnel.getRequestTx th.reqIdx th.reqTag = none ∧ c'.tasks = c.tasks ∨
        ∃ tx msg, c.tunnel.getRequestTx th.reqIdx th.reqTag = some tx ∧
          c'.tasks = c.tasks.map fun t => t.push tx msg) →
      (∀ th, c'.returned th = c.returned th) → Turn c e c'

theorem SameFlow.refl (t : ReqTask) : SameFlow t t := ⟨rfl, rfl, fun h => ⟨h, rfl, rfl⟩⟩

/-- A task is replaced by one that is the same as far as its flow goes. -/
theorem sameFlow_replace {t u : ReqTask} (ht : t ∈ c.tasks) (hsame : SameFlow t u) :
    ∀ t' ∈ (c.replace u).tasks, ∃ t ∈ c.tasks, SameFlow t t' := by
  intro t' ht'
  obtain ⟨v, hv, rfl⟩ := List.mem_map.mp ht'
  split
  · exact ⟨t, ht, hsame⟩
  · exact ⟨v, hv, .refl v⟩

theorem Wired.replace_above (hw : c.Wired) {t u : ReqTask} (ht : t ∈ c.tasks)
    (htx : u.requestTx = t.requestTx) : ∀ t' ∈ (c.replace u).tasks, c.tunnel.tx < t'.requestTx := by
  intro t' ht'
  obtain ⟨v, hv, rfl⟩ := List.mem_map.mp ht'
  split
  · rw [htx]
    exact hw.above t.seat (List.mem_map_of_mem ht)
  · exact hw.above v.seat (List.mem_map_of_mem hv)

/-- Something is done that goes to no task and reports nothing. -/
theorem idle_of_perform {b : Conn} {effects : List Effect} (hgives : e.gives = none)
    (hw : c.Wired) (htx : b.tunnel.tx = c.tunnel.tx) (hsent : b.sent = c.sent)
    (hsame : ∀ t' ∈ b.tasks, ∃ t ∈ c.tasks, SameFlow t t')
    (hsends : ∀ tx msg, .send tx msg ∈ effects → tx ≤ c.tunnel.tx)
    (hquota : ∀ th, (th, .reqClientQuota) ∉ effects.filterMap (saidTo c.tunnel.tx)) :
    Turn c e (b.perform effects) := by
  have htasks : (b.perform effects).tasks = b.tasks := by
    apply perform_tasks
    intro tx msg hsend t' ht'
    obtain ⟨t, ht, hlike⟩ := hsame t' ht'
    have habove := hw.above t.seat (List.mem_map_of_mem ht)
    have hle := hsends tx msg hsend
    rw [hlike.requestTx]
    exact Nat.ne_of_gt (Nat.lt_of_le_of_lt hle habove)
  refine .idle hgives ?_ ?_
  · rw [htasks]
    exact hsame
  · intro th
    rw [perform_returned_of_saidTo (by rw [htx]; exact hquota th)]
    unfold returned
    rw [hsent]

/-- What a task says goes to the connection. -/
theorem le_of_send {tx tx' : Channel} {msg msg' : WMessage}
    (h : .send tx' msg' ∈ [Effect.send tx msg]) : tx' ≤ tx :=
  Nat.le_of_eq (Effect.send.inj (List.mem_singleton.mp h)).1

/-- A socket is accepted. -/
theorem turn_serve (c : Conn) (hc : c.Routed) (hw : c.Wired) (ip : IpAddr) (port : UInt16) :
    Turn c (.serve ip port) (c.serveSock ip port) := by
  have hrefl : ∀ t' ∈ c.tasks, ∃ t ∈ c.tasks, SameFlow t t' := fun t ht => ⟨t, ht, .refl t⟩
  rcases c.tunnel.onRequestCreated_bumps hc.size (Request.withTx c.next c.next) ip port with
    hrefused | ⟨i, tag, hbumps, hfree, hfull | ⟨ts, hmade, htx, rfl, htag⟩⟩
  · rw [serveSock, hrefused]
    exact .idle rfl hrefl fun _ => rfl
  · rw [serveSock, hfull]
    exact .idle rfl hrefl fun _ => rfl
  · have hquota := (c.tunnel.sameSetup_onRequestCreated (Request.withTx c.next c.next) ip port).2
      ts (by rw [hmade])
    have hkept := hbumps.tx.trans htx.symm
    refine .started ts rfl ?_ htag hquota ?_ ?_
    · rw [serveSock, perform_tunnel]
      exact hbumps
    · rw [serveSock, hmade]
      apply perform_tasks
      intro tx msg hsend t ht
      have hle : tx ≤ c.tunnel.tx := htx ▸ le_of_send hsend
      rcases List.mem_append.mp ht with hnew | hold
      · rw [List.mem_singleton.mp hnew]
        exact Nat.ne_of_gt (Nat.lt_of_le_of_lt hle hc.next)
      · exact Nat.ne_of_gt
          (Nat.lt_of_le_of_lt hle (hw.above t.seat (List.mem_map_of_mem hold)))
    · intro th
      rw [serveSock, hmade, perform_returned_of_saidTo]
      · rfl
      · rw [hkept, List.filterMap_cons_some (saidTo_created ts ip port)]
        simp

/-- A frame of the server. -/
theorem turn_frame {msg : RMessage} {elapsed : UInt64} {tunnel : Tunnel} {effects : List Effect}
    (hc : c.Routed) (hw : c.Wired)
    (hmsg : c.tunnel.onTunnelMsg msg elapsed = some (tunnel, effects)) :
    Turn c (.frame msg elapsed) (Conn.perform { c with tunnel := tunnel } effects) := by
  have htx : tunnel.tx = c.tunnel.tx := (Tunnel.sameSetup_onTunnelMsg hmsg).tx
  cases hgives : (ConnEvent.frame msg elapsed).gives with
  | none =>
      have hnotdata : ∀ th, requestFrame msg.buf ≠ some (.reqData, th) := by
        intro th hframe
        rw [ConnEvent.gives_frame.mpr hframe] at hgives
        cases hgives
      have hsends : ∀ tx wmsg, .send tx wmsg ∈ effects → tx = c.tunnel.tx ∧ said wmsg = none := by
        intro tx wmsg hsend
        rcases Tunnel.onTunnelMsg_sends hmsg hsend with hpong | ⟨th, hframe, _⟩
        · exact hpong
        · exact absurd hframe (hnotdata th)
      refine idle_of_perform hgives hw htx rfl (fun t ht => ⟨t, ht, .refl t⟩) ?_ ?_
      · exact fun tx wmsg hsend => Nat.le_of_eq (hsends tx wmsg hsend).1
      · intro th hmem
        obtain ⟨a, ha, hsaid⟩ := List.mem_filterMap.mp hmem
        cases a with
        | send tx wmsg =>
            rw [saidTo_eq_none (hsends tx wmsg ha).2] at hsaid
            cases hsaid
        | _ => cases hsaid
  | some th =>
      have hframe := ConnEvent.gives_frame.mp hgives
      cases Tunnel.onTunnelMsg_spec hmsg with
      | @data th' _ b hframe' heffects =>
          obtain ⟨_, rfl⟩ := Prod.mk.inj (Option.some.inj (hframe'.symm.trans hframe))
          cases hget : c.tunnel.getRequestTx th'.reqIdx th'.reqTag with
          | none =>
              rw [heffects, hget]
              exact .gave hgives (.inl ⟨hget, rfl⟩) fun _ => rfl
          | some tx =>
              have hne : tx ≠ c.tunnel.tx := Nat.ne_of_gt (hc.newer.getRequestTx hget)
              have hpush : ∀ wmsg, Conn.perform { c with tunnel := { c.tunnel with busy := b } }
                  [.send tx wmsg] = { c with
                    tunnel := { c.tunnel with busy := b }
                    tasks := c.tasks.map fun t => t.push tx wmsg } :=
                fun wmsg => (effect_send _ tx wmsg).trans (if_neg hne)
              rw [heffects, hget, Option.map_some, Option.toList_some, hpush]
              exact .gave hgives (.inr ⟨tx, _, hget, rfl⟩) fun _ => rfl
      | finished b hframe' => simp [hframe] at hframe'
      | closed b hframe' => simp [hframe] at hframe'
      | other hother _ _ _ _ => exact absurd rfl (hother _ _ hframe).1

theorem Step.turn (h : Step c e c') (hc : c.Routed) (hw : c.Wired) : Turn c e c' := by
  have hstub : ∀ {t : ReqTask}, t ∈ c.tasks → t.stub.tunnelTx = c.tunnel.tx := fun ht =>
    hc.stubs _ (List.mem_map_of_mem ht)
  have hrefl : ∀ t' ∈ c.tasks, ∃ t ∈ c.tasks, SameFlow t t' := fun t ht => ⟨t, ht, .refl t⟩
  cases h with
  | serve ip port => exact turn_serve c hc hw ip port
  | @read t message effects ht hreceiving hmsg =>
      refine idle_of_perform rfl hw rfl rfl hrefl ?_ ?_
      · intro tx msg hsend
        simp only [ReqServ.onRequestMsg, Option.bind_eq_bind, Option.bind_eq_some_iff,
          Option.some.injEq] at hmsg
        obtain ⟨_, _, rfl⟩ := hmsg
        rw [← hstub ht]
        exact le_of_send hsend
      · intro th
        rw [← hstub ht, saidTo_data hmsg]
        simp
  | @recvEnd t ht hreceiving =>
      refine idle_of_perform rfl hw rfl rfl
        (sameFlow_replace (t := t) ht ⟨rfl, rfl, fun h => ⟨h, rfl, rfl⟩⟩) ?_ ?_
      · intro tx msg hsend
        rw [← hstub ht]
        exact le_of_send hsend
      · intro th
        rw [← hstub ht, List.filterMap_cons_some (saidTo_finished t.stub)]
        simp
  | @deliver t msg rest ht hsending hinbox =>
      refine .wrote rfl ht hsending hinbox rfl ?_ ?_
      · apply perform_tasks
        intro tx wmsg hsend t' ht'
        have habove := hw.replace_above (u := { t with inbox := rest, writeOut := _ }) ht rfl t' ht'
        obtain ⟨left, hcount | hcount⟩ := ReqServ.countWriteOut_cases t.stub t.writeOut
        · rw [hcount] at hsend
          cases hsend
        · rw [hcount] at hsend
          have hle : tx ≤ t.stub.tunnelTx := le_of_send hsend
          rw [hstub ht] at hle
          exact Nat.ne_of_gt (Nat.lt_of_le_of_lt hle habove)
      · intro th
        rw [writeOne, perform_returned, hstub ht]
        rfl
  | @sendEnd t ht hsending =>
      have hsame : SameFlow t { t with inbox := [], sending := false } :=
        ⟨rfl, rfl, fun hfalse => absurd hfalse Bool.false_ne_true⟩
      exact .idle rfl (sameFlow_replace ht hsame) fun _ => rfl
  | @joined t ht hreceiving hsending =>
      refine idle_of_perform rfl hw ?_ rfl ?_ ?_ ?_
      · rfl
      · intro t' ht'
        exact ⟨t', List.mem_of_mem_filter ht', .refl t'⟩
      · intro tx msg hsend
        rcases c.tunnel.onRequestClosed_sends t.stub with htold | hquiet
        · rw [htold] at hsend
          rw [← hstub ht]
          exact le_of_send hsend
        · rw [hquiet] at hsend
          cases hsend
      · intro th
        rcases c.tunnel.onRequestClosed_sends t.stub with htold | hquiet
        · rw [htold, ← hstub ht, List.filterMap_cons_some (saidTo_closed t.stub)]
          simp
        · rw [hquiet]
          exact List.not_mem_nil
  | @frame msg elapsed tunnel effects hmsg => exact turn_frame hc hw hmsg
  | @foreign ts hold =>
      refine idle_of_perform rfl hw ?_ rfl hrefl ?_ ?_
      · rfl
      · intro tx msg hsend
        rcases c.tunnel.onRequestClosed_sends ts with htold | hquiet
        · rw [htold] at hsend
          exact Nat.le_trans (le_of_send hsend) (Nat.le_of_lt hold)
        · rw [hquiet] at hsend
          cases hsend
      · intro th
        have hother : saidTo c.tunnel.tx (sendRequestClosedToServer ts) = none :=
          if_neg (Nat.ne_of_lt hold)
        rcases c.tunnel.onRequestClosed_sends ts with htold | hquiet
        · rw [htold, List.filterMap_cons_none hother]
          exact List.not_mem_nil
        · rw [hquiet]
          exact List.not_mem_nil
  | ping elapsed accepted =>
      refine idle_of_perform rfl hw ?_ rfl hrefl ?_ ?_
      · exact (c.tunnel.alike_sendPing elapsed accepted).tx
      · intro tx msg hsend
        unfold Tunnel.sendPing at hsend
        split at hsend
        · cases hsend
        · split at hsend
          · exact le_of_send hsend
          · cases hsend
      · intro th
        rw [saidTo_ping]
        simp
  | udp payload srcAddr dstAddr =>
      refine idle_of_perform rfl hw rfl rfl hrefl (fun tx msg hsend => le_of_send hsend) ?_
      intro th
      rw [List.filterMap_cons_none (saidTo_udp _ _ _ _ _)]
      simp

/-- The stub of a task stays, and that of a new one has the quota of the tunnel. -/
theorem Turn.stub (h : Turn c e c') {t' : ReqTask} (ht' : t' ∈ c'.tasks) :
    t'.stub.requestQuota = c.tunnel.requestQuota ∨ ∃ t ∈ c.tasks, t'.stub = t.stub := by
  cases h with
  | idle _ htasks _ =>
      obtain ⟨t, ht, hsame⟩ := htasks t' ht'
      exact .inr ⟨t, ht, hsame.stub⟩
  | started ts _ _ _ hquota htasks _ =>
      rw [htasks] at ht'
      rcases List.mem_cons.mp ht' with rfl | hold
      · exact .inl hquota
      · exact .inr ⟨t', hold, rfl⟩
  | @wrote t _ _ _ _ _ ht _ _ _ htasks _ =>
      rw [htasks] at ht'
      obtain ⟨u, hu, rfl⟩ := List.mem_map.mp ht'
      right
      split
      · exact ⟨t, ht, rfl⟩
      · exact ⟨u, hu, rfl⟩
  | gave _ htasks _ =>
      right
      rcases htasks with ⟨_, htasks⟩ | ⟨tx, msg, _, htasks⟩
      · exact ⟨t', htasks ▸ ht', rfl⟩
      · rw [htasks] at ht'
        obtain ⟨t, ht, rfl⟩ := List.mem_map.mp ht'
        exact ⟨t, ht, congrArg Seat.stub (t.seat_push tx msg)⟩

theorem Step.sameSetup (h : Step c e c') : c.tunnel.SameSetup c'.tunnel := by
  cases h with
  | serve ip port =>
      rw [serveSock, perform_tunnel]
      exact (c.tunnel.sameSetup_onRequestCreated _ ip port).1
  | joined ht hreceiving hsending =>
      rw [onRequestClosed, perform_tunnel]
      exact ⟨rfl, rfl, rfl, rfl⟩
  | frame hmsg =>
      rw [perform_tunnel]
      exact Tunnel.sameSetup_onTunnelMsg hmsg
  | foreign hold =>
      rw [perform_tunnel]
      exact ⟨rfl, rfl, rfl, rfl⟩
  | ping elapsed accepted =>
      rw [perform_tunnel]
      exact (c.tunnel.alike_sendPing elapsed accepted).toSameSetup
  | read ht hreceiving hmsg =>
      rw [perform_tunnel]
      exact .refl _
  | recvEnd ht hreceiving =>
      rw [onRequestRecvFinished, perform_tunnel]
      exact .refl _
  | deliver ht hsending hinbox =>
      rw [writeOne, perform_tunnel]
      exact .refl _
  | sendEnd ht hsending => exact .refl _
  | udp payload srcAddr dstAddr =>
      rw [perform_tunnel]
      exact .refl _

/-! ## The server and its quota -/

theorem Step.stands_silent (h : Step c e c') (hc : c.Routed) {th : THeader}
    (hsilent : c'.stands th = some .silent) : c.stands th = some .silent := by
  have happend : ∀ said, c'.log = c.log ++ said → c.stands th = some .silent := by
    intro said hlog
    unfold stands at hsilent ⊢
    rw [hlog] at hsilent
    exact Protocol.status_start_of_append talk_ne_silent hsilent
  cases h.move hc with
  | quiet _ _ hlog => exact happend [] (hlog.trans (List.append_nil _).symm)
  | refused _ _ _ hlog => exact happend [] (hlog.trans (List.append_nil _).symm)
  | left _ _ _ _ _ hlog => exact happend [] (hlog.trans (List.append_nil _).symm)
  | dropped _ _ _ _ _ hlog => exact happend [] (hlog.trans (List.append_nil _).symm)
  | served _ _ _ _ _ _ _ hlog => exact happend _ hlog
  | spoke _ _ _ _ hlog => exact happend _ hlog
  | finished _ _ _ _ hlog => exact happend _ hlog
  | closed _ _ _ _ _ hlog => exact happend _ hlog

/-- Nothing is written out for a request that the server was not told about. -/
theorem returned_of_silent {th : THeader} (h : c.stands th = some .silent) : c.returned th = 0 := by
  have hnot := Protocol.not_mem_of_status_start talk_ne_silent h .reqClientQuota
  refine List.sum_eq_zero_iff_forall_eq_nat.mpr ?_
  intro n hn
  obtain ⟨msg, hmsg, rfl⟩ := List.mem_map.mp hn
  apply creditIn_eq_zero
  intro hsaid
  exact hnot (List.mem_filterMap.mpr ⟨msg, hmsg, hsaid⟩)

end Conn

/-- A connection, and how many data frames have come for each request. -/
structure Metered where
  conn : Conn
  given : THeader → Nat

namespace Metered

variable {m m' : Metered} {e : ConnEvent} {quota : UInt16}

/-- What has come for each request after an event. -/
def give (m : Metered) (e : ConnEvent) (th : THeader) : Nat :=
  if e.gives = some th then m.given th + 1 else m.given th

/-- The steps with a server that keeps to the quota: it has data for requests that it was told
about, and no more of it than the quota and what it was told is written out. -/
structure Step (quota : UInt16) (m : Metered) (e : ConnEvent) (m' : Metered) : Prop where
  plain : Conn.Plain m.conn e m'.conn
  within : ∀ th, e.gives = some th → m.conn.stands th ≠ some .silent ∧
    m.given th < quota.toNat + m.conn.returned th
  given : m'.given = m.give e

/-- The flow of a request. -/
def flow (m : Metered) (t : ReqTask) : Flow :=
  ⟨m.given t.stub.header, t.inbox.length, t.writeOut.toNat, m.conn.returned t.stub.header⟩

/-- The window of a request. -/
def window (quota : UInt16) (hquota : 2 ≤ quota.toNat) : Window where
  size := quota.toNat
  batch := (quota / 2).toNat
  batch_pos := by
    rw [UInt16.toNat_div]
    exact Nat.div_pos hquota (by decide)
  batch_le := by
    rw [UInt16.toNat_div]
    exact Nat.div_le_self _ _

/-- Every request has the flow of a window. -/
structure Flows (quota : UInt16) (hquota : 2 ≤ quota.toNat) (m : Metered) : Prop where
  base : m.conn.Conversing
  wired : m.conn.Wired
  tunnelQuota : m.conn.tunnel.requestQuota = quota
  stubQuota : ∀ t ∈ m.conn.tasks, t.stub.requestQuota = quota
  fresh : ∀ th, m.conn.stands th = some .silent → m.given th = 0
  bounded : ∀ t ∈ m.conn.tasks, t.sending = true → (m.flow t).Bounded (window quota hquota)
  exact : ∀ t ∈ m.conn.tasks, t.sending = true → m.conn.HasChannel t → (m.flow t).Exact

variable {hquota : 2 ≤ quota.toNat}

theorem flows_new {cap : Nat} (hcap : cap ≤ 65536) (tx : Channel) (rawfd : Int) (idx : Nat)
    (hquota : 2 ≤ quota.toNat) :
    Flows quota hquota ⟨Conn.new tx rawfd idx cap quota, fun _ => 0⟩ where
  base := Conn.conversing_new hcap tx rawfd idx quota
  wired := Conn.wired_new tx rawfd idx cap quota
  tunnelQuota := rfl
  stubQuota := nofun
  fresh := fun _ _ => rfl
  bounded := nofun
  exact := nofun

/-- A step moves the flow of a request that is there before and after it along its window; while
its slot still has its channel nothing is lost. -/
structure Follows (w : Window) (m : Metered) (t : ReqTask) (m' : Metered) (t' : ReqTask) :
    Prop where
  step : (m.flow t).Step w (m'.flow t')
  kept : m'.conn.HasChannel t' →
    (m'.flow t').given - (m.flow t).given ≤ (m'.flow t').held - (m.flow t).held

theorem Follows.of_eq {w : Window} {t t' : ReqTask} (h : m'.flow t' = m.flow t) :
    Follows w m t m' t' := by
  refine ⟨?_, ?_⟩
  · rw [h]
    exact .rest
  · intro _
    rw [h, Nat.sub_self]
    exact Nat.zero_le _

/-- Nothing comes for a request, and nothing of it is reported. -/
theorem flow_eq {t t' : ReqTask} (hstub : t'.stub = t.stub) (hinbox : t'.inbox = t.inbox)
    (hwriteOut : t'.writeOut = t.writeOut)
    (hgiven : m'.given t.stub.header = m.given t.stub.header)
    (hreturned : m'.conn.returned t.stub.header = m.conn.returned t.stub.header) :
    m'.flow t' = m.flow t := by
  unfold flow
  rw [hstub, hinbox, hwriteOut, hgiven, hreturned]

/-- A message is written to the socket of a task. -/
theorem Flows.follows_wrote (h : Flows quota hquota m) {t : ReqTask} {msg : WMessage}
    {rest : List WMessage} {writeOut : UInt16} {effects : List Effect} (ht : t ∈ m.conn.tasks)
    (hsending : t.sending = true) (hinbox : t.inbox = msg :: rest)
    (hcount : ReqServ.countWriteOut t.stub t.writeOut = (writeOut, effects))
    (hgiven : ∀ th, m'.given th = m.given th)
    (hreturned : ∀ th, m'.conn.returned th =
      m.conn.returned th + (effects.map (Conn.creditTo t.stub.tunnelTx th)).sum) :
    Follows (window quota hquota) m t m' { t with inbox := rest, writeOut := writeOut } := by
  have hcounted : t.writeOut.toNat < (quota / 2).toNat := (h.bounded t ht hsending).counted
  have hsize := (quota / 2).toNat_lt
  have hnext : (t.writeOut + 1).toNat = t.writeOut.toNat + 1 := by
    rw [UInt16.toNat_add, UInt16.toNat_one]
    omega
  have hheld : (m.flow t).held = rest.length + 1 := by
    show t.inbox.length = _
    rw [hinbox, List.length_cons]
  have hpos : 0 < (m.flow t).held := by omega
  rw [ReqServ.countWriteOut, h.stubQuota t ht] at hcount
  split at hcount
  · rename_i hmeets
    obtain ⟨rfl, rfl⟩ := Prod.mk.inj hcount
    have hbatch : (m.flow t).counted + 1 = (quota / 2).toNat := hnext ▸ congrArg UInt16.toNat hmeets
    have hflow : m'.flow { t with inbox := rest, writeOut := 0 } =
        ⟨(m.flow t).given, (m.flow t).held - 1, 0,
          (m.flow t).returned + (quota / 2).toNat⟩ := by
      rw [hheld]
      unfold flow
      simp only [hgiven, hreturned, List.map_cons, List.map_nil, List.sum_cons, List.sum_nil]
      rw [Conn.creditTo_sendRequestQuota, if_pos rfl, hmeets]
      rfl
    refine ⟨?_, ?_⟩
    · rw [hflow]
      exact .report hpos hbatch
    · intro _
      rw [hflow]
      simp
  · rename_i hmisses
    obtain ⟨rfl, rfl⟩ := Prod.mk.inj hcount
    have hbatch : (m.flow t).counted + 1 ≠ (quota / 2).toNat := by
      intro heq
      exact hmisses (UInt16.toNat_inj.mp (hnext.trans heq))
    have hflow : m'.flow { t with inbox := rest, writeOut := t.writeOut + 1 } =
        ⟨(m.flow t).given, (m.flow t).held - 1, (m.flow t).counted + 1,
          (m.flow t).returned⟩ := by
      rw [hheld]
      unfold flow
      simp only [hgiven, hreturned, List.map_nil, List.sum_nil, hnext]
      rfl
    refine ⟨?_, ?_⟩
    · rw [hflow]
      exact .take hpos hbatch
    · intro _
      rw [hflow]
      simp

/-- Data of the server comes that is not for the channel of a task. -/
theorem Flows.follows_lost (hconn : Conn.Step m.conn e m'.conn) {th : THeader}
    (hgiven : ∀ th', m'.given th' = if th = th' then m.given th' + 1 else m.given th')
    (hwithin : m.given th < quota.toNat + m.conn.returned th)
    (hreturned : ∀ th, m'.conn.returned th = m.conn.returned th) {t : ReqTask}
    (hold : t.requestTx < m.conn.next)
    (hget : m.conn.tunnel.getRequestTx th.reqIdx th.reqTag ≠ some t.requestTx) :
    Follows (window quota hquota) m t m' t := by
  by_cases hheader : th = t.stub.header
  · subst hheader
    have hflow : m'.flow t = { m.flow t with given := (m.flow t).given + 1 } := by
      unfold flow
      simp only [hgiven, hreturned, if_pos]
    refine ⟨?_, ?_⟩
    · rw [hflow]
      exact .lose hwithin
    · exact fun hchannel => absurd (hchannel.before hconn hold) hget
  · refine .of_eq (flow_eq rfl rfl rfl ?_ (hreturned _))
    rw [hgiven, if_neg hheader]

/-- Data of the server comes into the channel of a task. -/
theorem Flows.follows_gave (h : Flows quota hquota m) {th : THeader}
    (hgiven : ∀ th', m'.given th' = if th = th' then m.given th' + 1 else m.given th')
    (hwithin : m.given th < quota.toNat + m.conn.returned th)
    (hreturned : ∀ th, m'.conn.returned th = m.conn.returned th) {t : ReqTask}
    (ht : t ∈ m.conn.tasks)
    (hget : m.conn.tunnel.getRequestTx th.reqIdx th.reqTag = some t.requestTx) (msg : WMessage) :
    Follows (window quota hquota) m t m' { t with inbox := t.inbox ++ [msg] } := by
  have hheader : th = t.stub.header := by
    obtain ⟨req, hslot, htag, htx⟩ := Tunnel.getRequestTx_eq_some.mp hget
    have hnamed := h.wired.header _ req t.seat hslot (List.mem_map_of_mem ht) htx
    rw [UInt16.ofNat_toNat, htag] at hnamed
    exact hnamed.symm
  subst hheader
  have hflow : m'.flow { t with inbox := t.inbox ++ [msg] } =
      { m.flow t with given := (m.flow t).given + 1, held := (m.flow t).held + 1 } := by
    unfold flow
    simp only [hgiven, hreturned, if_pos, List.length_append, List.length_singleton]
  refine ⟨?_, ?_⟩
  · rw [hflow]
    exact .give hwithin
  · intro _
    rw [hflow]
    simp

/-- The flow of a task after a step is that of the task before it, one step on; or the task has
just started. -/
theorem Flows.follows (h : Flows quota hquota m) (hstep : Step quota m e m') :
    ∀ t' ∈ m'.conn.tasks, t'.sending = true → m'.flow t' = ⟨0, 0, 0, 0⟩ ∨
      ∃ t ∈ m.conn.tasks, t.sending = true ∧ t'.stub = t.stub ∧ t'.requestTx = t.requestTx ∧
        Follows (window quota hquota) m t m' t' := by
  obtain ⟨⟨hconn, hascends⟩, hwithin, hgiven⟩ := hstep
  have hrouted := h.base.routed
  have hstill : e.gives = none → ∀ th, m'.given th = m.given th := by
    intro hgives th
    rw [hgiven, give, hgives]
    rfl
  intro t' ht' hsending'
  cases hconn.turn hrouted h.wired with
  | idle hgives htasks hreturned =>
      obtain ⟨t, ht, hsame⟩ := htasks t' ht'
      obtain ⟨hsending, hinbox, hwriteOut⟩ := hsame.flow hsending'
      exact .inr ⟨t, ht, hsending, hsame.stub, hsame.requestTx,
        .of_eq (flow_eq hsame.stub hinbox hwriteOut (hstill hgives _) (hreturned _))⟩
  | started ts hgives hbumps htag hts htasks hreturned =>
      rw [htasks] at ht'
      rcases List.mem_cons.mp ht' with rfl | hold
      · have hsilent := h.base.fresh hascends hbumps htag
        left
        unfold flow ReqTask.new
        simp only [hstill hgives, hreturned, h.fresh _ hsilent, Conn.returned_of_silent hsilent]
        rfl
      · exact .inr ⟨t', hold, hsending', rfl, rfl,
          .of_eq (flow_eq rfl rfl rfl (hstill hgives _) (hreturned _))⟩
  | @wrote t msg rest writeOut effects hgives ht hsending hinbox hcount htasks hreturned =>
      rw [htasks] at ht'
      obtain ⟨u, hu, rfl⟩ := List.mem_map.mp ht'
      right
      split at hsending'
      · rename_i heq
        rw [if_pos heq]
        exact ⟨t, ht, hsending, rfl, rfl,
          h.follows_wrote ht hsending hinbox hcount (hstill hgives) hreturned⟩
      · rename_i hne
        rw [if_neg hne]
        have hheader : t.stub.header ≠ u.stub.header := by
          intro heq
          exact hne (congrArg Seat.requestTx (h.base.header_inj (List.mem_map_of_mem ht)
            (List.mem_map_of_mem hu) heq.symm))
        have hnone : (effects.map (Conn.creditTo t.stub.tunnelTx u.stub.header)).sum = 0 := by
          obtain ⟨left, heffects | heffects⟩ := ReqServ.countWriteOut_cases t.stub t.writeOut
          · rw [← (Prod.mk.inj (heffects.symm.trans hcount)).2]
            rfl
          · rw [← (Prod.mk.inj (heffects.symm.trans hcount)).2, List.map_singleton,
              Conn.creditTo_sendRequestQuota, if_neg hheader]
            rfl
        refine ⟨u, hu, hsending', rfl, rfl, .of_eq (flow_eq rfl rfl rfl (hstill hgives _) ?_)⟩
        rw [hreturned, hnone, Nat.add_zero]
  | @gave th hgives htasks hreturned =>
      have hmore : ∀ th', m'.given th' = if th = th' then m.given th' + 1 else m.given th' := by
        intro th'
        rw [hgiven, give, hgives]
        simp only [Option.some.injEq]
      have hroom := (hwithin th hgives).2
      have hold : ∀ t ∈ m.conn.tasks, t.requestTx < m.conn.next :=
        fun t ht => hrouted.old t.seat (List.mem_map_of_mem ht)
      right
      rcases htasks with ⟨hnone, htasks⟩ | ⟨tx, msg, hget, htasks⟩
      · rw [htasks] at ht'
        refine ⟨t', ht', hsending', rfl, rfl,
          follows_lost hconn hmore hroom hreturned (hold t' ht') ?_⟩
        rw [hnone]
        nofun
      · rw [htasks] at ht'
        obtain ⟨t, ht, rfl⟩ := List.mem_map.mp ht'
        unfold ReqTask.push at hsending' ⊢
        split at hsending'
        · rename_i hpushed
          rw [if_pos hpushed]
          exact ⟨t, ht, hsending', rfl, rfl,
            h.follows_gave hmore hroom hreturned ht (hpushed.1 ▸ hget) msg⟩
        · rename_i hpassed
          rw [if_neg hpassed]
          refine ⟨t, ht, hsending', rfl, rfl,
            follows_lost hconn hmore hroom hreturned (hold t ht) ?_⟩
          rw [hget]
          intro heq
          exact hpassed ⟨(Option.some.inj heq).symm, hsending'⟩

theorem Flows.step (h : Flows quota hquota m) (hstep : Step quota m e m') :
    Flows quota hquota m' := by
  have hfollows := h.follows hstep
  obtain ⟨⟨hconn, hascends⟩, hwithin, hgiven⟩ := hstep
  have hrouted := h.base.routed
  refine ⟨h.base.step hconn hascends, h.wired.step hrouted hconn,
    hconn.sameSetup.requestQuota.trans h.tunnelQuota, ?_, ?_, ?_, ?_⟩
  · intro t' ht'
    rcases (hconn.turn hrouted h.wired).stub ht' with hnew | ⟨t, ht, hstub⟩
    · exact hnew.trans h.tunnelQuota
    · rw [hstub]
      exact h.stubQuota t ht
  · intro th hsilent
    have hbefore := hconn.stands_silent hrouted hsilent
    rw [hgiven, give, if_neg fun hgives => (hwithin th hgives).1 hbefore]
    exact h.fresh th hbefore
  · intro t' ht' hsending'
    rcases hfollows t' ht' hsending' with hzero | ⟨t, ht, hsending, _, _, hfollow⟩
    · rw [hzero]
      exact Flow.bounded_zero _
    · exact (h.bounded t ht hsending).step hfollow.step
  · intro t' ht' hsending' hchannel
    rcases hfollows t' ht' hsending' with hzero | ⟨t, ht, hsending, hstub, htx, hfollow⟩
    · rw [hzero]
      rfl
    · have hbefore : m.conn.HasChannel t := by
        have hold := hchannel.before hconn (htx ▸ hrouted.old t.seat (List.mem_map_of_mem ht))
        unfold Conn.HasChannel at hold ⊢
        rwa [hstub, htx] at hold
      exact (h.exact t ht hsending hbefore).step hfollow.step (hfollow.kept hchannel)

/-- In every run that increases no tag past its largest value, with a server that sends data only
for requests that it was told about and keeps to a quota of at least two, no more than the quota
waits for a request, whatever the order in which the frames come and the tasks read and write.
While the slot of a request still has its channel, which the server takes away when it finishes
the request, nothing that the server sent is lost: it waits, or is written out and reported but
for less than half the quota.  So when nothing waits the server may send more. -/
theorem run_flows {cap : Nat} (hcap : cap ≤ 65536) {tx : Channel} {rawfd : Int} {idx : Nat}
    (hquota : 2 ≤ quota.toNat) {es : List ConnEvent}
    (hrun : Run (Step quota) ⟨Conn.new tx rawfd idx cap quota, fun _ => 0⟩ es m) {t : ReqTask}
    (ht : t ∈ m.conn.tasks) (hsending : t.sending = true) :
    t.inbox.length + t.writeOut.toNat ≤ quota.toNat ∧ t.writeOut.toNat < quota.toNat / 2 ∧
      (m.conn.HasChannel t →
        m.given t.stub.header =
          m.conn.returned t.stub.header + t.writeOut.toNat + t.inbox.length ∧
        (t.inbox = [] → m.given t.stub.header < quota.toNat + m.conn.returned t.stub.header)) := by
  have h : Flows quota hquota m :=
    hrun.preserves (I := Flows quota hquota) (fun _ _ _ hm hstep => hm.step hstep)
      (flows_new hcap tx rawfd idx hquota)
  have hbounded := h.bounded t ht hsending
  refine ⟨hbounded.held_le, ?_, ?_⟩
  · have hcounted : t.writeOut.toNat < (quota / 2).toNat := hbounded.counted
    rwa [UInt16.toNat_div] at hcounted
  · intro hchannel
    have hexact := h.exact t ht hsending hchannel
    refine ⟨hexact, ?_⟩
    intro hempty
    exact Nat.lt_of_sub_pos (hexact.room_pos hbounded (congrArg List.length hempty))

/-- A byte for the first request. -/
def dataMsg : RMessage := ⟨frame .reqData ((⟨0, 1⟩ : THeader).toBytes ++ [7]), 8, none⟩

theorem dataMsg_taken : (Conn.served.tunnel.onTunnelMsg dataMsg 0).isSome = true := by
  decide +kernel

/-- The first request has the byte. -/
def fed : Metered where
  conn :=
    let r := (Conn.served.tunnel.onTunnelMsg dataMsg 0).get dataMsg_taken
    Conn.perform { Conn.served with tunnel := r.1 } r.2
  given := fun th => if th = ⟨0, 1⟩ then 1 else 0

/-- Its task. -/
def fedTask : ReqTask := { Conn.servedTask with inbox := [WMessage.new dataMsg.buf 7] }

/-- The byte waits, and is all that was sent. -/
theorem run_flows_fed : fedTask.inbox.length + fedTask.writeOut.toNat ≤ 8 ∧
    fed.given ⟨0, 1⟩ = fed.conn.returned ⟨0, 1⟩ + 0 + 1 := by
  have hserve : Step 8 ⟨Conn.new 0 3 0 1 8, fun _ => 0⟩ (.serve (.v4 ⟨10, 0, 0, 1⟩) 80)
      ⟨Conn.served, fun _ => 0⟩ :=
    ⟨⟨.serve _ _ _, Conn.ascends_of_lt (by decide +kernel)⟩, nofun, rfl⟩
  have hgives : (ConnEvent.frame dataMsg 0).gives = some ⟨0, 1⟩ := by decide +kernel
  have hframe : Step 8 ⟨Conn.served, fun _ => 0⟩ (.frame dataMsg 0) fed := by
    refine ⟨⟨.frame (Option.some_get dataMsg_taken).symm,
      Conn.ascends_of_lt (by decide +kernel)⟩, ?_, ?_⟩
    · intro th hth
      obtain rfl := Option.some.inj (hgives.symm.trans hth)
      decide +kernel
    · funext th
      rw [give, hgives]
      simp [fed, eq_comm]
  have hflows := run_flows (by decide) (by decide) (.cons hserve (.cons hframe (.nil _)))
    (t := fedTask) (by decide +kernel) rfl
  have hchannel : fed.conn.HasChannel fedTask := by
    unfold Conn.HasChannel
    decide +kernel
  exact ⟨hflows.1, (hflows.2.2 hchannel).1⟩

end Metered

end LproxyCv.Tunnels
