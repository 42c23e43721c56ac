import LproxyCv.Xport.XTable

set_option autoImplicit false

/-!
# Xport: an account for each request

A request that was accepted is over on both sides once its slot is given back and the
peer knows.  Either end may begin: the peer with a frame, or the task of the request
with its report.  An account notes which of this has happened to a request, and
`Account.Holds` ties it to what the table has in the slot of the request.
-/

namespace LproxyCv.Xport

open LproxyCv.Foundation LproxyCv.Lws LproxyCv.Tunnels

/-- What has become of a request that was accepted.  Its channel and its trigger have
the same identity. -/
structure Account where
  id : Nat
  header : THeader
  conn : Nat
  /-- the peer has closed the request while it held its slot -/
  freed : Bool
  /-- the peer has opened another request in its slot -/
  reused : Bool
  /-- how often the peer has been told that the request is closed -/
  closes : Nat
  /-- its task has ended -/
  ended : Bool
  deriving DecidableEq, Repr

/-- Whether an effect tells the peer that a request is closed. -/
def XTunnel.closing (t : XTunnel) (th : THeader) : Effect → Bool
  | .send tx msg => t.tunTx = some tx ∧ requestFrame msg.buf = some (.reqServerClosed, th)
  | _ => false

namespace XWorld

/-- What an event sends. -/
def effects (parse : String → Option (String × UInt16)) (s : XWorld) : XEvent → List Effect
  | .frame _ msg elapsed =>
      match s.tun.onTunnelMsg msg elapsed s.opened.length with
      | some r => r.2.1
      | none => []
  | .keepalive elapsed sent =>
      match s.tun.keepalive parse elapsed sent with
      | some r => r.2.2
      | none => []
  | .stop => s.tun.stop.2
  | .report task r _ =>
      match s.tun.report task.proxy r with
      | some res => res.2
      | none => []
  | _ => []

/-- Whether the event is the peer's closing of the request that holds the slot. -/
def frees (s : XWorld) (th : THeader) : XEvent → Bool
  | .frame _ msg _ => requestFrame msg.buf = some (.reqClientClosed, th) ∧
      (s.tun.requests.free th.reqIdx th.reqTag).1 = true
  | _ => false

/-- Whether the event is the peer's opening of a request in the slot. -/
def reuses (reqIdx : UInt16) : XEvent → Bool
  | .frame _ msg _ =>
      match requestFrame msg.buf with
      | some (.reqCreated, th) => th.reqIdx = reqIdx
      | _ => false
  | _ => false

/-- Whether the event is the end of the task. -/
def ends (id : Nat) : XEvent → Bool
  | .silent task none => task.proxy.rx = id
  | .report task _ none => task.proxy.rx = id
  | _ => false

/-- The account of the request that the event opens, if it is accepted. -/
def accepted (s : XWorld) : XEvent → Option Account
  | .frame conn msg elapsed => do
      let r ← s.tun.onTunnelMsg msg elapsed s.opened.length
      let proxy ← r.2.2
      some
        { id := proxy.rx
          header := ⟨proxy.reqIdx, proxy.reqTag⟩
          conn := conn
          freed := false
          reused := false
          closes := 0
          ended := false }
  | _ => none

/-- A connection that is served after a step, and is not a new one, was served before. -/
theorem step_serving {parse : String → Option (String × UInt16)} {s t : XWorld} {e : XEvent}
    {conn : Nat} (hstep : Step parse s e t) (hold : conn ≤ s.conns) (h : conn ∈ t.serving) :
    conn ∈ s.serving := by
  cases hstep with
  | connected _ =>
      unfold connected XTunnel.onTunnelCreated at h
      cases hstop : s.tun.discarded with
      | true => simpa [hstop] using h
      | false =>
          simp only [hstop, Bool.false_eq_true, if_false, if_true, List.mem_cons] at h
          rcases h with hnew | hbefore
          · omega
          · exact hbefore
  | failed _ => exact h
  | frame _ hframe =>
      unfold frame at hframe
      simp only [Option.bind_eq_bind, Option.bind_eq_some_iff, Option.some.injEq] at hframe
      obtain ⟨_, _, rfl⟩ := hframe
      exact h
  | ended _ => exact List.mem_of_mem_erase h
  | keepalive htick =>
      unfold keepalive at htick
      simp only [Option.bind_eq_bind, Option.bind_eq_some_iff, Option.some.injEq] at htick
      obtain ⟨_, _, rfl⟩ := htick
      exact h
  | stop => exact h
  | silent _ _ => exact h
  | report _ _ hreport =>
      unfold report at hreport
      simp only [Option.bind_eq_bind, Option.bind_eq_some_iff, Option.some.injEq] at hreport
      obtain ⟨_, _, rfl⟩ := hreport
      exact h

end XWorld

namespace Account

/-- The account after an event. -/
def after (parse : String → Option (String × UInt16)) (a : Account) (s : XWorld) (e : XEvent) :
    Account :=
  { a with
    freed := a.freed || s.frees a.header e
    reused := a.reused || XWorld.reuses a.header.reqIdx e
    closes := a.closes + (s.effects parse e).countP (s.tun.closing a.header)
    ended := a.ended || XWorld.ends a.id e }

/-- The slot of a request that was not reused: it has the request's tag, and either the
request holds it, or it was given back by one side. -/
def Fits (a : Account) (req : XRequest) : Prop :=
  req.tag = a.header.reqTag ∧
    (req.isInused = true ∧ req.trigger = some a.id ∧ a.freed = false ∧ a.closes = 0 ∨
      req.isInused = false ∧ req.trigger = none ∧ (a.freed = true ∨ a.closes = 1))

/-- What the slot of the request has to do with the account. -/
structure Holds (a : Account) (s : XWorld) : Prop where
  gone : a.reused = true → ∀ req, s.tun.requests.slot a.header.reqIdx.toNat = some req →
    req.trigger ≠ some a.id
  fits : a.conn ∈ s.serving → a.reused = false →
    ∃ req, s.tun.requests.slot a.header.reqIdx.toNat = some req ∧ a.Fits req

/-- The slot of an account whose request holds it or has been given back is in use
exactly in the first case. -/
theorem Fits.inUse_iff {a : Account} {req : XRequest} (h : a.Fits req) :
    req.isInused = true ↔ req.trigger = some a.id := by
  rcases h.2 with ⟨huse, htrigger, _⟩ | ⟨huse, htrigger, _⟩ <;> simp [huse, htrigger]

/-! ## What a step does to an account -/

section Step

variable {parse : String → Option (String × UInt16)} {a : Account} {s t : XWorld} {e : XEvent}

/-- A step that leaves the slot as it is for the account, and that the account does not
note. -/
theorem Holds.kept (h : a.Holds s)
    (hslot : ∀ req', t.tun.requests.slot a.header.reqIdx.toNat = some req' →
      ∃ req, s.tun.requests.slot a.header.reqIdx.toNat = some req ∧ req'.tag = req.tag ∧
        req'.isInused = req.isInused ∧ req'.trigger = req.trigger)
    (hthere : ∀ req, s.tun.requests.slot a.header.reqIdx.toNat = some req →
      ∃ req', t.tun.requests.slot a.header.reqIdx.toNat = some req')
    (hserving : a.conn ∈ t.serving → a.conn ∈ s.serving) (hfrees : s.frees a.header e = false)
    (hreuses : XWorld.reuses a.header.reqIdx e = false)
    (hcloses : (s.effects parse e).countP (s.tun.closing a.header) = 0) :
    (a.after parse s e).Holds t := by
  constructor
  · intro hreused req' hreq'
    simp only [after, hreuses, Bool.or_false] at hreused hreq' ⊢
    obtain ⟨req, hreq, _, _, htrigger⟩ := hslot req' hreq'
    rw [htrigger]
    exact h.gone hreused req hreq
  · intro hconn hreused
    simp only [after, hreuses, Bool.or_false] at hconn hreused
    obtain ⟨req, hreq, hfits⟩ := h.fits (hserving hconn) hreused
    obtain ⟨req', hreq'⟩ := hthere req hreq
    obtain ⟨req₀, hreq₀, htag, huse, htrigger⟩ := hslot req' hreq'
    rw [hreq] at hreq₀
    cases hreq₀
    refine ⟨req', hreq', ?_⟩
    simpa only [Fits, after, hfrees, hcloses, Bool.or_false, Nat.add_zero, htag, huse,
      htrigger] using hfits

/-- A step that leaves the table as it is, and that the account does not note. -/
theorem Holds.same (h : a.Holds s) (htable : t.tun.requests = s.tun.requests)
    (hserving : a.conn ∈ t.serving → a.conn ∈ s.serving) (hfrees : s.frees a.header e = false)
    (hreuses : XWorld.reuses a.header.reqIdx e = false)
    (hcloses : (s.effects parse e).countP (s.tun.closing a.header) = 0) :
    (a.after parse s e).Holds t := by
  refine h.kept ?_ ?_ hserving hfrees hreuses hcloses
  · intro req' hreq'
    exact ⟨req', htable ▸ hreq', rfl, rfl, rfl⟩
  · intro req hreq
    exact ⟨req, htable ▸ hreq⟩

/-- A step that gives a slot back: the account of the request in it notes who did, and the
others note nothing. -/
theorem Holds.given_back (h : a.Holds s) {i : Nat} {req : XRequest}
    (hslot : s.tun.requests.slot i = some req) (huse : req.isInused = true)
    (htable : t.tun.requests = s.tun.requests.setSlot i (XReqq.cleanReq req))
    (hserving : t.serving = s.serving) (hreuses : XWorld.reuses a.header.reqIdx e = false)
    (hself : a.header.reqIdx.toNat = i → req.tag = a.header.reqTag →
      s.frees a.header e = true ∨ (s.effects parse e).countP (s.tun.closing a.header) = 1)
    (hother : a.header.reqIdx.toNat ≠ i → s.frees a.header e = false ∧
      (s.effects parse e).countP (s.tun.closing a.header) = 0) :
    (a.after parse s e).Holds t := by
  by_cases hidx : a.header.reqIdx.toNat = i
  · subst hidx
    have hafter : t.tun.requests.slot a.header.reqIdx.toNat = some (XReqq.cleanReq req) := by
      rw [htable, XReqq.slot_setSlot hslot, if_pos rfl]
    constructor
    · intro _ req' hreq'
      rw [show (a.after parse s e).header = a.header from rfl, hafter] at hreq'
      cases hreq'
      exact nofun
    · intro hconn hreused
      simp only [after, hreuses, Bool.or_false] at hreused
      obtain ⟨req', hreq', htag, hfits⟩ := h.fits (hserving ▸ hconn) hreused
      rw [hslot] at hreq'
      cases hreq'
      refine ⟨XReqq.cleanReq req, hafter, htag, .inr ⟨rfl, rfl, ?_⟩⟩
      -- the request held the slot, so neither side has closed it before
      have hopen : a.closes = 0 := by
        rcases hfits with ⟨_, _, _, hcloses⟩ | ⟨hfree, _⟩
        · exact hcloses
        · rw [huse] at hfree
          cases hfree
      rcases hself rfl htag with hfrees | hclosed
      · exact .inl (by simp [after, hfrees])
      · exact .inr (by simp [after, hopen, hclosed])
  · obtain ⟨hfrees, hcloses⟩ := hother hidx
    have hafter : t.tun.requests.slot a.header.reqIdx.toNat =
        s.tun.requests.slot a.header.reqIdx.toNat := by
      rw [htable, XReqq.slot_setSlot hslot, if_neg fun heq => hidx heq.symm]
    refine h.kept ?_ ?_ (fun hconn => hserving ▸ hconn) hfrees hreuses hcloses
    · intro req' hreq'
      exact ⟨req', hafter ▸ hreq', rfl, rfl, rfl⟩
    · intro req' hreq'
      exact ⟨req', hafter.trans hreq'⟩

/-- Effects that tell the peer of no request that it is closed. -/
theorem closing_none {tun : XTunnel} {th : THeader} {effects : List Effect}
    (h : ∀ tx msg, .send tx msg ∈ effects →
      ∀ th', requestFrame msg.buf ≠ some (.reqServerClosed, th')) :
    effects.countP (tun.closing th) = 0 := by
  refine List.countP_eq_zero.mpr ?_
  intro effect hmem
  cases effect with
  | send tx msg => simpa [XTunnel.closing] using fun _ => h tx msg hmem th
  | _ => exact Bool.false_ne_true

theorem frees_iff {th : THeader} {conn : Nat} {msg : RMessage} {elapsed : UInt64} :
    s.frees th (.frame conn msg elapsed) = true ↔
      requestFrame msg.buf = some (.reqClientClosed, th) ∧
        (s.tun.requests.free th.reqIdx th.reqTag).1 = true := by
  simp [XWorld.frees]

theorem reuses_iff {reqIdx : UInt16} {conn : Nat} {msg : RMessage} {elapsed : UInt64} :
    XWorld.reuses reqIdx (.frame conn msg elapsed) = true ↔
      ∃ th, requestFrame msg.buf = some (.reqCreated, th) ∧ th.reqIdx = reqIdx := by
  unfold XWorld.reuses
  split
  · rename_i heq
    cases heq
    split
    · rename_i th hcmd
      simp [hcmd]
    · rename_i hcmd
      simp only [Bool.false_eq_true, false_iff, not_exists, not_and]
      intro th heq
      exact absurd heq (hcmd th)
  · rename_i hno
    exact absurd rfl (hno conn msg elapsed)

/-- Only a frame that closes the request frees its slot. -/
theorem frees_eq_false {th : THeader} {conn : Nat} {msg : RMessage} {elapsed : UInt64}
    (h : requestFrame msg.buf ≠ some (.reqClientClosed, th)) :
    s.frees th (.frame conn msg elapsed) = false :=
  Bool.eq_false_iff.mpr fun hfrees => h (frees_iff.mp hfrees).1

/-- Only a frame that opens a request there reuses a slot. -/
theorem reuses_eq_false {reqIdx : UInt16} {conn : Nat} {msg : RMessage} {elapsed : UInt64}
    (h : ∀ th, requestFrame msg.buf = some (.reqCreated, th) → th.reqIdx ≠ reqIdx) :
    XWorld.reuses reqIdx (.frame conn msg elapsed) = false := by
  refine Bool.eq_false_iff.mpr fun hreuses => ?_
  obtain ⟨th, hcmd, hidx⟩ := reuses_iff.mp hreuses
  exact h th hcmd hidx

/-- The account does not note a frame that neither closes nor opens a request. -/
theorem Holds.frame_kept (h : a.Holds s) {conn : Nat} {msg : RMessage} {elapsed : UInt64}
    (hquiet : XWorld.Quiet (.frame conn msg elapsed))
    (hslot : ∀ req', t.tun.requests.slot a.header.reqIdx.toNat = some req' →
      ∃ req, s.tun.requests.slot a.header.reqIdx.toNat = some req ∧ req'.tag = req.tag ∧
        req'.isInused = req.isInused ∧ req'.trigger = req.trigger)
    (hthere : ∀ req, s.tun.requests.slot a.header.reqIdx.toNat = some req →
      ∃ req', t.tun.requests.slot a.header.reqIdx.toNat = some req')
    (hserving : t.serving = s.serving)
    (hcloses : (s.effects parse (.frame conn msg elapsed)).countP (s.tun.closing a.header) = 0) :
    (a.after parse s (.frame conn msg elapsed)).Holds t := by
  refine h.kept hslot hthere (fun hconn => hserving ▸ hconn) ?_ ?_ hcloses
  · exact frees_eq_false fun hcmd => (hquiet _ _ hcmd).1 rfl
  · exact reuses_eq_false fun th hcmd => absurd rfl (hquiet _ _ hcmd).2

theorem header_eq {th th' : THeader} (hidx : th.reqIdx.toNat = th'.reqIdx.toNat)
    (htag : th.reqTag = th'.reqTag) : th = th' := by
  cases th
  cases th'
  simp_all [UInt16.toNat_inj]

/-- The peer closes a request. -/
theorem Holds.closed (h : a.Holds s) {conn : Nat} {msg : RMessage} {elapsed : UInt64} {th : THeader}
    (hcmd : requestFrame msg.buf = some (.reqClientClosed, th))
    (htun : t.tun = s.tun.onReqClientClosed th) (hserving : t.serving = s.serving)
    (hcloses : (s.effects parse (.frame conn msg elapsed)).countP (s.tun.closing a.header) = 0) :
    (a.after parse s (.frame conn msg elapsed)).Holds t := by
  have hreuses : XWorld.reuses a.header.reqIdx (.frame conn msg elapsed) = false := by
    refine reuses_eq_false fun th' hcmd' => ?_
    rw [hcmd] at hcmd'
    cases hcmd'
  have hkept : t.tun.requests = s.tun.requests →
      s.frees a.header (.frame conn msg elapsed) = false →
      (a.after parse s (.frame conn msg elapsed)).Holds t := fun htable hfrees =>
    h.same htable (fun hconn => hserving ▸ hconn) hfrees hreuses hcloses
  rcases s.tun.requests.free_cases th.reqIdx th.reqTag with ⟨req, hslot, htag, huse, heq⟩ | ⟨heq, _⟩
  · have htable : t.tun.requests = s.tun.requests.setSlot th.reqIdx.toNat (XReqq.cleanReq req) := by
      simp [htun, XTunnel.onReqClientClosed, heq]
    refine h.given_back hslot huse htable hserving hreuses ?_ ?_
    · intro hidx htag'
      have hth : th = a.header := header_eq hidx.symm (htag.symm.trans htag')
      exact .inl (frees_iff.mpr ⟨hth ▸ hcmd, by rw [← hth, heq]⟩)
    · intro hidx
      refine ⟨frees_eq_false fun hcmd' => ?_, hcloses⟩
      rw [hcmd] at hcmd'
      cases hcmd'
      exact hidx rfl
  · refine hkept (by simp [htun, XTunnel.onReqClientClosed, heq]) ?_
    cases hfrees : s.frees a.header (.frame conn msg elapsed) with
    | false => rfl
    | true =>
        obtain ⟨hcmd', hfree⟩ := frees_iff.mp hfrees
        rw [hcmd] at hcmd'
        cases hcmd'
        rw [heq] at hfree
        cases hfree

/-- The peer opens a request. -/
theorem Holds.created (h : a.Holds s) (hid : a.id < s.opened.length) {conn : Nat} {msg : RMessage}
    {elapsed : UInt64} {th : THeader} {port : UInt16}
    (hcmd : requestFrame msg.buf = some (.reqCreated, th))
    (htun : t.tun = (s.tun.onReqCreated s.opened.length th port).1)
    (hserving : t.serving = s.serving)
    (hcloses : (s.effects parse (.frame conn msg elapsed)).countP (s.tun.closing a.header) = 0) :
    (a.after parse s (.frame conn msg elapsed)).Holds t := by
  have hslots : (∀ req, t.tun.requests.slot th.reqIdx.toNat = some req →
      req.trigger ≠ some a.id) ∧
      ∀ j, th.reqIdx.toNat ≠ j → t.tun.requests.slot j = s.tun.requests.slot j := by
    cases hslot : s.tun.requests.slot th.reqIdx.toNat with
    | none =>
        rw [htun, XTunnel.onReqCreated_none _ port hslot, hslot]
        exact ⟨nofun, fun _ _ => rfl⟩
    | some req =>
        cases hstop : s.tun.discarded with
        | true =>
            rw [htun, XTunnel.onReqCreated_stopped _ port hslot hstop, XReqq.slot_setSlot hslot,
              if_pos rfl]
            refine ⟨?_, fun j hj => by rw [XReqq.slot_setSlot hslot, if_neg hj]⟩
            rintro _ heq
            cases heq
            exact nofun
        | false =>
            rw [htun, XTunnel.onReqCreated_running _ port hslot hstop, XReqq.slot_setSlot hslot,
              if_pos rfl]
            refine ⟨?_, fun j hj => by rw [XReqq.slot_setSlot hslot, if_neg hj]⟩
            rintro _ heq htrigger
            cases heq
            have hnew : s.opened.length = a.id := Option.some.inj htrigger
            omega
  obtain ⟨hnew, hothers⟩ := hslots
  by_cases hidx : th.reqIdx = a.header.reqIdx
  · -- the account's slot goes to another request
    have hreuses : XWorld.reuses a.header.reqIdx (.frame conn msg elapsed) = true :=
      reuses_iff.mpr ⟨th, hcmd, hidx⟩
    constructor
    · intro _ req hreq
      exact hnew req (hidx ▸ hreq)
    · intro _ hreused
      simp [after, hreuses] at hreused
  · have hsame : t.tun.requests.slot a.header.reqIdx.toNat =
        s.tun.requests.slot a.header.reqIdx.toNat :=
      hothers _ fun heq => hidx (UInt16.toNat_inj.mp heq)
    refine h.kept ?_ ?_ (fun hconn => hserving ▸ hconn) ?_ ?_ hcloses
    · intro req' hreq'
      exact ⟨req', hsame ▸ hreq', rfl, rfl, rfl⟩
    · intro req' hreq'
      exact ⟨req', hsame.trans hreq'⟩
    · refine frees_eq_false fun hcmd' => ?_
      rw [hcmd] at hcmd'
      cases hcmd'
    · refine reuses_eq_false fun th' hcmd' heq => ?_
      rw [hcmd] at hcmd'
      cases hcmd'
      exact hidx heq

/-- A frame of the peer. -/
theorem Holds.frame (h : a.Holds s) (hid : a.id < s.opened.length) {conn : Nat} {msg : RMessage}
    {elapsed : UInt64} (hframe : s.frame conn msg elapsed = some t) :
    (a.after parse s (.frame conn msg elapsed)).Holds t := by
  unfold XWorld.frame at hframe
  simp only [Option.bind_eq_bind, Option.bind_eq_some_iff, Option.some.injEq] at hframe
  obtain ⟨r, hmsg, ht⟩ := hframe
  have heffects : s.effects parse (.frame conn msg elapsed) = r.2.1 := by
    simp [XWorld.effects, hmsg]
  have hserving : t.serving = s.serving := by rw [← ht]
  have htun : t.tun = r.1 := by rw [← ht]
  have hquietOf : ∀ {cmd th}, requestFrame msg.buf = some (cmd, th) → cmd ≠ .reqClientClosed →
      cmd ≠ .reqCreated → XWorld.Quiet (.frame conn msg elapsed) := by
    intro cmd th hcmd hclosed hcreated cmd' th' heq
    rw [hcmd] at heq
    cases heq
    exact ⟨hclosed, hcreated⟩
  have hsame : ∀ {tun : XTunnel}, t.tun = tun → tun.requests = s.tun.requests →
      XWorld.Quiet (.frame conn msg elapsed) →
      (s.effects parse (.frame conn msg elapsed)).countP (s.tun.closing a.header) = 0 →
      (a.after parse s (.frame conn msg elapsed)).Holds t := by
    rintro tun rfl htable hquiet hcloses
    refine h.frame_kept hquiet ?_ ?_ hserving hcloses
    · intro req' hreq'
      exact ⟨req', htable ▸ hreq', rfl, rfl, rfl⟩
    · intro req hreq
      exact ⟨req, htable ▸ hreq⟩
  cases XTunnel.onTunnelMsg_spec hmsg with
  | @data th hcmd =>
      refine hsame htun rfl (hquietOf hcmd (by decide) (by decide)) ?_
      rw [heffects]
      refine closing_none ?_
      intro tx wmsg hmem th' hclosed
      simp only [Option.mem_toList, Option.map_eq_some_iff, Effect.send.injEq] at hmem
      obtain ⟨_, _, _, rfl⟩ := hmem
      simp [WMessage.new, hcmd] at hclosed
  | @finished th hcmd =>
      have hcloses : (s.effects parse (.frame conn msg elapsed)).countP
          (s.tun.closing a.header) = 0 := by rw [heffects]; rfl
      unfold XTunnel.freeRequestTx at htun
      split at htun
      · exact hsame htun rfl (hquietOf hcmd (by decide) (by decide)) hcloses
      · rename_i req hslot
        split at htun
        · -- the slot loses its channel only
          refine h.frame_kept (hquietOf hcmd (by decide) (by decide)) ?_ ?_ hserving hcloses
          · intro req' hreq'
            rw [htun, XReqq.slot_setSlot hslot] at hreq'
            split at hreq'
            · rename_i hidx
              cases hreq'
              exact ⟨req, hidx ▸ hslot, rfl, rfl, rfl⟩
            · exact ⟨req', hreq', rfl, rfl, rfl⟩
          · intro req' hreq'
            rw [htun, XReqq.slot_setSlot hslot]
            split
            · exact ⟨_, rfl⟩
            · exact ⟨req', hreq'⟩
        · exact hsame htun rfl (hquietOf hcmd (by decide) (by decide)) hcloses
  | closed hcmd => exact h.closed hcmd htun hserving (by rw [heffects]; rfl)
  | created hcmd => exact h.created hid hcmd htun hserving (by rw [heffects]; rfl)
  | @other n effects hquiet hpong =>
      refine hsame htun rfl hquiet ?_
      rw [heffects]
      refine closing_none ?_
      intro tx wmsg hmem th' hclosed
      obtain ⟨_, vec, hvec, heq⟩ := hpong _ hmem
      cases heq
      exact absurd (cmd_of_pongOf hvec hclosed) (by decide)

/-- No message is sent where nothing is done. -/
theorem sends_nothing {effects : List Effect} (h : effects = []) (tx : Channel) (msg : WMessage)
    (hmem : .send tx msg ∈ effects) (th : THeader) :
    requestFrame msg.buf ≠ some (.reqServerClosed, th) := by
  rw [h] at hmem
  exact absurd hmem List.not_mem_nil

/-- What is sent when a socket has no more data is not that the request is closed. -/
theorem recvFinished_sends {tun : XTunnel} {reqIdx reqTag : UInt16} {tx : Channel}
    {msg : WMessage} (hmem : .send tx msg ∈ tun.onRequestRecvFinished reqIdx reqTag)
    (th : THeader) : requestFrame msg.buf ≠ some (.reqServerClosed, th) := by
  unfold XTunnel.onRequestRecvFinished at hmem
  split at hmem
  · cases hmem
  · split at hmem
    · cases hmem
    · cases List.mem_singleton.mp hmem
      have hread := requestFrame_frame .reqServerFinished ⟨reqIdx, reqTag⟩ []
      rw [List.append_nil] at hread
      simp [WMessage.new, hread]

/-- What is sent when a socket has data is not that the request is closed. -/
theorem requestMsg_sends {tun : XTunnel} {message : TMessage} {reqIdx reqTag : UInt16}
    {p : Bool × List Effect} (hp : tun.onRequestMsg message reqIdx reqTag = some p)
    {tx : Channel} {msg : WMessage} (hmem : .send tx msg ∈ p.2) (th : THeader) :
    requestFrame msg.buf ≠ some (.reqServerClosed, th) := by
  unfold XTunnel.onRequestMsg at hp
  split at hp
  · cases hp
    cases hmem
  · split at hp
    · cases hp
      cases hmem
    · simp only [Option.bind_eq_bind, Option.bind_eq_some_iff, Option.some.injEq] at hp
      obtain ⟨vec, hvec, rfl⟩ := hp
      rw [stampFrame_eq] at hvec
      split at hvec
      · cases hvec
        cases List.mem_singleton.mp hmem
        simp [WMessage.new, requestFrame_frame]
      · cases hvec

/-- What the report of a task changes. -/
structure Reported (parse : String → Option (String × UInt16)) (s t : XWorld) (e : XEvent)
    (res : XTunnel × List Effect) : Prop where
  effects : s.effects parse e = res.2
  serving : t.serving = s.serving
  tun : t.tun = res.1

theorem reported {task : XTask} {r : Report} {next : Option Phase}
    (hreport : s.report task r next = some t) :
    ∃ res, s.tun.report task.proxy r = some res ∧
      Reported parse s t (.report task r next) res := by
  unfold XWorld.report at hreport
  simp only [Option.bind_eq_bind, Option.bind_eq_some_iff, Option.some.injEq] at hreport
  obtain ⟨res, hres, ht⟩ := hreport
  refine ⟨res, hres, ?_, by rw [← ht]; rfl, by rw [← ht]⟩
  simp [XWorld.effects, hres]

/-- A report that leaves the tunnel as it is. -/
theorem Holds.report_same (h : a.Holds s) {task : XTask} {r : Report} {next : Option Phase}
    {res : XTunnel × List Effect} (hres : Reported parse s t (.report task r next) res)
    (hsame : res.1 = s.tun) (hsends : ∀ tx msg, .send tx msg ∈ res.2 →
      ∀ th, requestFrame msg.buf ≠ some (.reqServerClosed, th)) :
    (a.after parse s (.report task r next)).Holds t := by
  refine h.same (by rw [hres.tun, hsame]) (fun hconn => hres.serving ▸ hconn) rfl rfl ?_
  rw [hres.effects]
  exact closing_none hsends

/-- A report that the task has ended. -/
theorem Holds.report_closed (h : a.Holds s) {task : XTask} {r : Report} {next : Option Phase}
    (hres : Reported parse s t (.report task r next)
      (s.tun.onRequestClosed task.proxy.reqIdx task.proxy.reqTag)) :
    (a.after parse s (.report task r next)).Holds t := by
  have hvoid : s.tun.checkReqValid task.proxy.reqIdx task.proxy.reqTag = false ∨
      s.tun.tunTx = none → (a.after parse s (.report task r next)).Holds t := by
    intro hvoid
    rw [s.tun.onRequestClosed_void hvoid] at hres
    exact h.report_same hres rfl (sends_nothing rfl)
  cases hvalid : s.tun.checkReqValid task.proxy.reqIdx task.proxy.reqTag with
  | false => exact hvoid (.inl hvalid)
  | true =>
      cases htx : s.tun.tunTx with
      | none => exact hvoid (.inr htx)
      | some tx =>
          obtain ⟨req, hslot, hlive⟩ := XTunnel.onRequestClosed_live hvalid htx
          obtain ⟨req', hslot', huse, htag⟩ := XTunnel.checkReqValid_iff.mp hvalid
          rw [hslot] at hslot'
          cases hslot'
          rw [hlive] at hres
          have hframe : requestFrame (Tunnels.frame .reqServerClosed
              (THeader.toBytes ⟨task.proxy.reqIdx, task.proxy.reqTag⟩)) =
              some (.reqServerClosed, ⟨task.proxy.reqIdx, task.proxy.reqTag⟩) := by
            simpa using requestFrame_frame .reqServerClosed
              ⟨task.proxy.reqIdx, task.proxy.reqTag⟩ []
          refine h.given_back hslot huse (by rw [hres.tun]) hres.serving rfl ?_ ?_
          · intro hidx htag'
            have hth : (⟨task.proxy.reqIdx, task.proxy.reqTag⟩ : THeader) = a.header :=
              header_eq hidx.symm (htag.symm.trans htag')
            right
            rw [hres.effects, ← hth]
            simp [XTunnel.closing, htx, WMessage.new, hframe]
          · intro hidx
            refine ⟨rfl, ?_⟩
            rw [hres.effects]
            simp only [List.countP_singleton, XTunnel.closing, htx, WMessage.new, hframe,
              Option.some.injEq, Prod.mk.injEq, true_and, decide_eq_true_eq]
            refine if_neg fun hth => hidx ?_
            rw [← hth]

/-- The report of a task. -/
theorem Holds.report (h : a.Holds s) {task : XTask} {r : Report} {next : Option Phase}
    (hreport : s.report task r next = some t) :
    (a.after parse s (.report task r next)).Holds t := by
  obtain ⟨res, hres, hfacts⟩ := reported hreport
  cases r with
  | connectError =>
      cases hres
      exact h.report_closed hfacts
  | closed =>
      cases hres
      exact h.report_closed hfacts
  | recvFinished =>
      cases hres
      exact h.report_same hfacts rfl fun _ _ => recvFinished_sends
  | msg message =>
      rw [XTunnel.report, Option.map_eq_some_iff] at hres
      obtain ⟨p, hp, rfl⟩ := hres
      exact h.report_same hfacts rfl fun _ _ => requestMsg_sends hp

/-- A step that is neither a frame nor a report. -/
theorem Holds.quiet (h : a.Holds s) (htable : t.tun.requests = s.tun.requests)
    (hserving : a.conn ∈ t.serving → a.conn ∈ s.serving) (hfrees : s.frees a.header e = false)
    (hreuses : XWorld.reuses a.header.reqIdx e = false)
    (hsends : ∀ tx msg, .send tx msg ∈ s.effects parse e →
      ∀ th, requestFrame msg.buf ≠ some (.reqServerClosed, th)) :
    (a.after parse s e).Holds t :=
  h.same htable hserving hfrees hreuses (closing_none hsends)

/-- The account keeps up with every step. -/
theorem Holds.step (h : a.Holds s) (hsound : s.Sound) (hid : a.id < s.opened.length)
    (hconn : a.conn ≤ s.conns) (hstep : XWorld.Step parse s e t) : (a.after parse s e).Holds t := by
  have htable := XWorld.step_table hstep
  have hserving := fun hafter => XWorld.step_serving hstep hconn hafter
  cases hstep with
  | @connected task rawfd tx hmem =>
      refine h.quiet ?_ hserving rfl rfl (sends_nothing rfl)
      cases htable with
      | same _ heq _ => exact heq
  | failed hmem =>
      refine h.quiet ?_ hserving rfl rfl (sends_nothing rfl)
      cases htable with
      | same _ heq _ => exact heq
  | frame hmem hframe => exact h.frame hid hframe
  | ended hmem =>
      obtain ⟨hup, hnewest, rfl⟩ := hsound.newest hmem
      constructor
      · intro hreused req hreq
        rw [show (a.after parse s (.ended s.conns)).reused = a.reused from Bool.or_false _] at hreused
        cases hstop : s.tun.discarded with
        | true =>
            have hsame : (s.ended s.conns).tun.requests = s.tun.requests := by
              simp [XWorld.ended, XTunnel.onTunnelClosed, hup, hstop]
            rw [hsame] at hreq
            exact h.gone hreused req hreq
        | false =>
            have hclear : (s.ended s.conns).tun.requests = s.tun.requests.clearAll := by
              simp [XWorld.ended, XTunnel.onTunnelClosed, hup, hstop]
            rw [hclear] at hreq
            rw [(s.tun.requests.cleared_clearAll _ (List.mem_of_getElem? hreq)).2.2]
            exact (Option.some_ne_none _).symm
      · intro hafter
        have hnone : a.conn ∈ (s.ended s.conns).serving := hafter
        simp [XWorld.ended, hnewest] at hnone
  | @keepalive _ elapsed sent htick =>
      unfold XWorld.keepalive at htick
      simp only [Option.bind_eq_bind, Option.bind_eq_some_iff, Option.some.injEq] at htick
      obtain ⟨r, hcall, rfl⟩ := htick
      refine h.quiet (XTunnel.keepalive_spec hcall).2.2.1 hserving rfl rfl ?_
      intro tx msg hmem th
      have heffects : s.effects parse (.keepalive elapsed sent) = r.2.2 := by
        simp [XWorld.effects, hcall]
      rw [heffects] at hmem
      exact XTunnel.keepalive_sends hcall hmem th
  | stop =>
      refine h.quiet s.tun.stop_spec.2 hserving rfl rfl ?_
      intro tx msg hmem
      exact absurd hmem (s.tun.stop_sends tx msg)
  | silent _ _ => exact h.quiet rfl hserving rfl rfl (sends_nothing rfl)
  | report _ _ hreport => exact h.report hreport

end Step

end Account

end LproxyCv.Xport
