import LproxyCv.Tunnels.TunMgr
import LproxyCv.Xport.XRequest

set_option autoImplicit false

/-!
# Xport: the reverse tunnel

`XTunnel` keeps one connection to its peer, over which the peer has requests
opened to ports of this machine.  It builds the connection again when it is lost;
its request table is the same one for all connections.

As in `Tunnel`, each function returns what it sends, `none` is a panic of the
source, and a send into a channel whose receiver is gone is only logged.  `parse`
is the `url` crate: the host and the port of an address.
-/

namespace LproxyCv.Xport

open LproxyCv.Foundation LproxyCv.Lws LproxyCv.Tunnels

/-- The reverse tunnel. -/
structure XTunnel where
  urlString : String
  token : String
  dnsServer : String
  discarded : Bool
  needReconnect : Bool
  tunTx : Option Channel
  keepaliveTrigger : Option Trigger
  pingCount : Nat
  rawfd : Option Int
  reqCount : UInt16
  requests : XReqq
  reqCap : UInt16
  deriving DecidableEq

/-- What an attempt to connect takes along. -/
structure XConnectTask where
  relayDomain : String
  relayPort : UInt16
  wsUrl : String
  dnsServer : String
  deriving DecidableEq

/-- What the task of a request takes along: the request, the port it connects to,
and the other ends of the slot's channel and trigger. -/
structure ProxyTask where
  reqIdx : UInt16
  reqTag : UInt16
  port : UInt16
  rx : Channel
  tripwire : Trigger
  deriving DecidableEq, Repr

namespace XTunnel

/-- A tunnel that has not started. -/
def new (cfg : TunCfg) : XTunnel :=
  { urlString := cfg.xportUrl
    token := cfg.token
    dnsServer := cfg.defaultDnsServer
    discarded := false
    needReconnect := false
    tunTx := none
    keepaliveTrigger := none
    pingCount := 0
    rawfd := none
    reqCount := 0
    requests := XReqq.new 128
    reqCap := 128 }

/-! ## The connection -/

/-- The address the tunnel connects to. -/
def wsUrl (t : XTunnel) : String := s!"{t.urlString}?cap={t.reqCap}&tok={t.token}"

/-- Start an attempt to connect. -/
def connect (parse : String → Option (String × UInt16)) (t : XTunnel) : Option XConnectTask := do
  let (relayDomain, relayPort) ← parse t.wsUrl
  some
    { relayDomain := relayDomain
      relayPort := relayPort
      wsUrl := t.wsUrl
      dnsServer := t.dnsServer }

/-- Start the first attempt, and the timer. -/
def start (parse : String → Option (String × UInt16)) (t : XTunnel) (trigger : Trigger) :
    Option (XTunnel × XConnectTask) := do
  let task ← t.connect parse
  some ({ t with keepaliveTrigger := some trigger }, task)

/-- Shut the connection down. -/
def closeRawfd (t : XTunnel) : XTunnel × List Effect :=
  match t.rawfd with
  | none => (t, [])
  | some rawfd => ({ t with rawfd := none }, [.shutdown rawfd])

/-- Stop for good. -/
def stop (t : XTunnel) : XTunnel × List Effect :=
  if t.discarded then (t, [])
  else
    let r := { t with discarded := true }.closeRawfd
    ({ r.1 with keepaliveTrigger := none }, r.2)

/-- A connection is there; a stopped tunnel refuses it. -/
def onTunnelCreated (t : XTunnel) (rawfd : Int) (tx : Channel) : Bool × XTunnel :=
  if t.discarded then (false, t)
  else (true, { t with rawfd := some rawfd, tunTx := some tx })

/-- The connection is gone.  A stopped tunnel leaves its requests as they are. -/
def onTunnelClosed (t : XTunnel) : XTunnel :=
  let closed := { t with rawfd := none, tunTx := none }
  if t.tunTx.isSome then
    if t.discarded then closed
    else { closed with needReconnect := true, requests := t.requests.clearAll }
  else { closed with requests := t.requests.clearAll }

/-- An attempt to connect has failed. -/
def onTunnelBuildError (t : XTunnel) : XTunnel :=
  if t.discarded then t else { t with needReconnect := true }

/-- Send a ping, or shut the connection down when too many are unanswered.
`sent` tells whether the channel still has a receiver. -/
def sendPing (t : XTunnel) (elapsed : UInt64) (sent : Bool) : XTunnel × List Effect :=
  if 5 < t.pingCount then t.closeRawfd
  else
    match t.tunTx with
    | none => (t, [])
    | some tx =>
        if sent then
          ({ t with pingCount := t.pingCount + 1 },
            [.send tx (WMessage.new (pingFrame elapsed) 0)])
        else (t, [])

/-- Connect again, if that was put off. -/
def processReconnect (parse : String → Option (String × UInt16)) (t : XTunnel) :
    Option (XTunnel × List XConnectTask) :=
  if t.needReconnect then do
    let task ← t.connect parse
    some ({ t with pingCount := 0, needReconnect := false }, [task])
  else some (t, [])

/-- A tick of the timer. -/
def keepalive (parse : String → Option (String × UInt16)) (t : XTunnel) (elapsed : UInt64)
    (sent : Bool) : Option (XTunnel × List XConnectTask × List Effect) :=
  if t.discarded then some (t, [], [])
  else do
    let (t, effects) := t.sendPing elapsed sent
    let (t, tasks) ← t.processReconnect parse
    some (t, tasks, effects)

/-! ## What the requests' tasks report -/

/-- Whether the slot is in use under the tag. -/
def checkReqValid (t : XTunnel) (reqIdx reqTag : UInt16) : Bool :=
  match t.requests.slot reqIdx.toNat with
  | none => false
  | some req =>
      if req.isInused = false then false
      else if req.tag ≠ reqTag then false
      else true

/-- The task of a request has ended. -/
def onRequestClosed (t : XTunnel) (reqIdx reqTag : UInt16) : XTunnel × List Effect :=
  if t.checkReqValid reqIdx reqTag = false then (t, [])
  else
    match t.tunTx with
    | none => (t, [])
    | some tx =>
        let r := t.requests.free reqIdx reqTag
        if r.1 then
          let th : THeader := ⟨reqIdx, reqTag⟩
          ({ t with requests := r.2, reqCount := t.reqCount - 1 },
            [.send tx (WMessage.new (frame .reqServerClosed th.toBytes) 0)])
        else ({ t with requests := r.2 }, [])

/-- The task of a request could not connect in time. -/
def onRequestConnectError (t : XTunnel) (reqIdx reqTag : UInt16) : XTunnel × List Effect :=
  t.onRequestClosed reqIdx reqTag

/-- The socket of a request has no more data. -/
def onRequestRecvFinished (t : XTunnel) (reqIdx reqTag : UInt16) : List Effect :=
  if t.checkReqValid reqIdx reqTag = false then []
  else
    match t.tunTx with
    | none => []
    | some tx =>
        let th : THeader := ⟨reqIdx, reqTag⟩
        [.send tx (WMessage.new (frame .reqServerFinished th.toBytes) 0)]

/-- The socket of a request has data. -/
def onRequestMsg (t : XTunnel) (message : TMessage) (reqIdx reqTag : UInt16) :
    Option (Bool × List Effect) :=
  if t.checkReqValid reqIdx reqTag = false then some (false, [])
  else
    match t.tunTx with
    | none => some (false, [])
    | some tx => do
        let vec ← stampFrame message.buf .reqData ⟨reqIdx, reqTag⟩
        some (true, [.send tx (WMessage.new vec 0)])

/-! ## Frames of the peer -/

/-- The channel of the request with this index and tag. -/
def getRequestTx (t : XTunnel) (reqIdx reqTag : UInt16) : Option Channel :=
  match t.requests.slot reqIdx.toNat with
  | none => none
  | some req => if req.tag = reqTag then req.requestTx else none

/-- Close the channel of the request with this index and tag. -/
def freeRequestTx (t : XTunnel) (reqIdx reqTag : UInt16) : XTunnel :=
  match t.requests.slot reqIdx.toNat with
  | none => t
  | some req =>
      if req.tag = reqTag ∧ req.requestTx.isSome then
        { t with requests := t.requests.setSlot reqIdx.toNat { req with requestTx := none } }
      else t

/-- Keep the channel and the trigger of a request in its slot. -/
def saveRequestTx (t : XTunnel) (tx : Channel) (trigger : Trigger) (reqIdx reqTag : UInt16) :
    Option XTunnel :=
  if t.discarded then none
  else
    match t.requests.slot reqIdx.toNat with
    | none => none
    | some req =>
        if req.tag ≠ reqTag then none
        else
          some { t with
            requests := t.requests.setSlot reqIdx.toNat
              { req with trigger := some trigger, requestTx := some tx } }

/-- Start the task of a request, unless its slot cannot be had.  `id` is the
identity of the new channel and of the new trigger. -/
def proxyRequest (t : XTunnel) (id : Nat) (reqIdx reqTag port : UInt16) :
    XTunnel × Option ProxyTask :=
  match t.saveRequestTx id id reqIdx reqTag with
  | none => (t, none)
  | some t => (t, some ⟨reqIdx, reqTag, port, id, id⟩)

/-- The peer opens a request. -/
def onReqCreated (t : XTunnel) (id : Nat) (th : THeader) (port : UInt16) :
    XTunnel × Option ProxyTask :=
  let r := { t with requests := t.requests.alloc th.reqIdx th.reqTag }.proxyRequest id
    th.reqIdx th.reqTag port
  (if r.2.isSome then { r.1 with reqCount := r.1.reqCount + 1 } else r.1, r.2)

/-- The peer closes a request. -/
def onReqClientClosed (t : XTunnel) (th : THeader) : XTunnel :=
  let r := t.requests.free th.reqIdx th.reqTag
  { t with
    requests := r.2
    reqCount := if r.1 ∧ 0 < t.reqCount then t.reqCount - 1 else t.reqCount }

/-- A frame about a request; `bs` is what follows its command. -/
def onTunnelProxyMsg (t : XTunnel) (cmd : Cmd) (msg : RMessage) (bs : Bytes) (id : Nat) :
    Option (XTunnel × List Effect × Option ProxyTask) := do
  let th ← THeader.readFrom bs
  match cmd with
  | .reqData =>
      match t.getRequestTx th.reqIdx th.reqTag with
      | none => some (t, [], none)
      | some tx =>
          some (t, [.send tx (WMessage.new msg.buf (UInt16.ofNat (3 + theaderSize)))], none)
  | .reqClientFinished => some (t.freeRequestTx th.reqIdx th.reqTag, [], none)
  | .reqClientClosed => some (t.onReqClientClosed th, [], none)
  | .reqCreated => do
      let port ← readLE 2 (bs.drop theaderSize) 0
      let r := t.onReqCreated id th (UInt16.ofNat port)
      some (r.1, [], r.2)
  | _ => some (t, [], none)

/-- Answer a ping. -/
def replyPing (t : XTunnel) (msg : RMessage) : Option (List Effect) :=
  match t.tunTx with
  | none => some []
  | some tx => do
      let vec ← pongOf msg.buf
      some [.send tx (WMessage.new vec 0)]

/-- The answer to a ping has come. -/
def onPong (t : XTunnel) (bs : Bytes) (elapsed : UInt64) : Option XTunnel := do
  match ← pongRtt bs elapsed with
  | none => some t
  | some _ => some { t with pingCount := 0 }

/-- A frame of the peer. -/
def onTunnelMsg (t : XTunnel) (msg : RMessage) (elapsed : UInt64) (id : Nat) :
    Option (XTunnel × List Effect × Option ProxyTask) := do
  let (cmd, bs) ← readCmd msg.buf
  match cmd with
  | .ping => do
      let effects ← t.replyPing msg
      some (t, effects, none)
  | .pong => do
      let t ← t.onPong bs elapsed
      some (t, [], none)
  | _ => t.onTunnelProxyMsg cmd msg bs id

/-! ## What each function does to the connection and to the slots -/

/-- The connection and what is to become of it are the same, and a tunnel that is
stopped stays so. -/
structure SameLink (t t' : XTunnel) : Prop where
  tunTx : t'.tunTx = t.tunTx
  needReconnect : t'.needReconnect = t.needReconnect
  running : t'.discarded = false → t.discarded = false

theorem SameLink.refl (t : XTunnel) : SameLink t t := ⟨rfl, rfl, fun h => h⟩

theorem closeRawfd_spec (t : XTunnel) :
    SameLink t t.closeRawfd.1 ∧ t.closeRawfd.1.requests = t.requests := by
  unfold closeRawfd
  split <;> exact ⟨⟨rfl, rfl, fun h => h⟩, rfl⟩

theorem stop_spec (t : XTunnel) : SameLink t t.stop.1 ∧ t.stop.1.requests = t.requests := by
  unfold stop
  split
  · exact ⟨.refl t, rfl⟩
  · obtain ⟨⟨htx, hneed, hrun⟩, hreqs⟩ := { t with discarded := true }.closeRawfd_spec
    exact ⟨⟨htx, hneed, fun h => by cases hrun h⟩, hreqs⟩

theorem sendPing_spec (t : XTunnel) (elapsed : UInt64) (sent : Bool) :
    SameLink t (t.sendPing elapsed sent).1 ∧
      (t.sendPing elapsed sent).1.requests = t.requests := by
  unfold sendPing
  split
  · exact t.closeRawfd_spec
  · split
    · exact ⟨.refl t, rfl⟩
    · split <;> exact ⟨⟨rfl, rfl, fun h => h⟩, rfl⟩

/-- A tick leaves the connection and the table alone, and starts an attempt only
in place of a reconnection put off. -/
theorem keepalive_spec {parse : String → Option (String × UInt16)} {t : XTunnel}
    {elapsed : UInt64} {sent : Bool} {r : XTunnel × List XConnectTask × List Effect}
    (h : t.keepalive parse elapsed sent = some r) :
    r.1.tunTx = t.tunTx ∧ (r.1.discarded = false → t.discarded = false) ∧
      r.1.requests = t.requests ∧
      r.1.needReconnect.toNat + r.2.1.length = t.needReconnect.toNat := by
  unfold keepalive at h
  split at h
  · cases h
    exact ⟨rfl, fun h => h, rfl, rfl⟩
  · obtain ⟨⟨htx, hneed, hrun⟩, hreqs⟩ := t.sendPing_spec elapsed sent
    simp only [Option.bind_eq_bind, Option.bind_eq_some_iff, Option.some.injEq] at h
    obtain ⟨⟨t', tasks⟩, hre, rfl⟩ := h
    unfold processReconnect at hre
    split at hre
    · rename_i hdue
      simp only [Option.bind_eq_bind, Option.bind_eq_some_iff, Option.some.injEq] at hre
      obtain ⟨task, _, hre⟩ := hre
      cases hre
      rw [hneed] at hdue
      exact ⟨htx, hrun, hreqs, by simp [hdue]⟩
    · cases hre
      exact ⟨htx, hrun, hreqs, by rw [hneed]; rfl⟩

theorem closeRawfd_reqCount (t : XTunnel) : t.closeRawfd.1.reqCount = t.reqCount := by
  unfold closeRawfd
  split <;> rfl

theorem stop_reqCount (t : XTunnel) : t.stop.1.reqCount = t.reqCount := by
  unfold stop
  split
  · rfl
  · exact { t with discarded := true }.closeRawfd_reqCount

theorem keepalive_reqCount {parse : String → Option (String × UInt16)} {t : XTunnel}
    {elapsed : UInt64} {sent : Bool} {r : XTunnel × List XConnectTask × List Effect}
    (h : t.keepalive parse elapsed sent = some r) : r.1.reqCount = t.reqCount := by
  unfold keepalive at h
  split at h
  · cases h
    rfl
  · have hping : (t.sendPing elapsed sent).1.reqCount = t.reqCount := by
      unfold sendPing
      split
      · exact t.closeRawfd_reqCount
      · split
        · rfl
        · split <;> rfl
    simp only [Option.bind_eq_bind, Option.bind_eq_some_iff, Option.some.injEq] at h
    obtain ⟨⟨t', tasks⟩, hre, rfl⟩ := h
    unfold processReconnect at hre
    split at hre
    · simp only [Option.bind_eq_bind, Option.bind_eq_some_iff, Option.some.injEq] at hre
      obtain ⟨_, _, hre⟩ := hre
      cases hre
      exact hping
    · cases hre
      exact hping

theorem closeRawfd_sends (t : XTunnel) (tx : Channel) (msg : WMessage) :
    .send tx msg ∉ t.closeRawfd.2 := by
  unfold closeRawfd
  split <;> simp

theorem stop_sends (t : XTunnel) (tx : Channel) (msg : WMessage) : .send tx msg ∉ t.stop.2 := by
  unfold stop
  split
  · exact List.not_mem_nil
  · exact closeRawfd_sends _ tx msg

/-- What a tick sends is no frame about a request that is closed. -/
theorem keepalive_sends {parse : String → Option (String × UInt16)} {t : XTunnel}
    {elapsed : UInt64} {sent : Bool} {r : XTunnel × List XConnectTask × List Effect}
    (h : t.keepalive parse elapsed sent = some r) {tx : Channel} {msg : WMessage}
    (hmem : .send tx msg ∈ r.2.2) (th : THeader) :
    requestFrame msg.buf ≠ some (.reqServerClosed, th) := by
  unfold keepalive at h
  split at h
  · cases h
    cases hmem
  · simp only [Option.bind_eq_bind, Option.bind_eq_some_iff, Option.some.injEq] at h
    obtain ⟨_, _, rfl⟩ := h
    dsimp only at hmem
    unfold sendPing at hmem
    split at hmem
    · exact absurd hmem (t.closeRawfd_sends tx msg)
    · split at hmem
      · cases hmem
      · split at hmem
        · cases List.mem_singleton.mp hmem
          intro hclosed
          exact absurd (cmd_of_requestFrame (readCmd_frame .ping _) hclosed) (by decide)
        · cases hmem

theorem checkReqValid_iff {t : XTunnel} {reqIdx reqTag : UInt16} :
    t.checkReqValid reqIdx reqTag = true ↔
      ∃ req, t.requests.slot reqIdx.toNat = some req ∧ req.isInused = true ∧ req.tag = reqTag := by
  unfold checkReqValid
  cases t.requests.slot reqIdx.toNat with
  | none => simp
  | some req => by_cases htag : req.tag = reqTag <;> simp [htag]

theorem checkReqValid_inUse {t : XTunnel} {reqIdx reqTag : UInt16}
    (h : t.checkReqValid reqIdx reqTag = true) : t.requests.inUse reqIdx.toNat = true := by
  obtain ⟨req, hslot, huse, _⟩ := checkReqValid_iff.mp h
  simp [XReqq.inUse, hslot, huse]

/-- The end of a task whose request is there takes the slot back and tells the
peer. -/
theorem onRequestClosed_live {t : XTunnel} {reqIdx reqTag : UInt16} {tx : Channel}
    (hvalid : t.checkReqValid reqIdx reqTag = true) (htx : t.tunTx = some tx) :
    ∃ req, t.requests.slot reqIdx.toNat = some req ∧
      t.onRequestClosed reqIdx reqTag =
        ({ t with
            requests := t.requests.setSlot reqIdx.toNat (XReqq.cleanReq req)
            reqCount := t.reqCount - 1 },
          [.send tx (WMessage.new (frame .reqServerClosed (THeader.toBytes ⟨reqIdx, reqTag⟩)) 0)]) := by
  obtain ⟨req, hslot, huse, htag⟩ := checkReqValid_iff.mp hvalid
  have hfree : t.requests.free reqIdx reqTag =
      (true, t.requests.setSlot reqIdx.toNat (XReqq.cleanReq req)) := by
    rcases t.requests.free_cases reqIdx reqTag with ⟨req', hslot', _, _, heq⟩ | ⟨_, hno⟩
    · rw [hslot] at hslot'
      cases hslot'
      exact heq
    · rw [hno req hslot htag] at huse
      cases huse
  refine ⟨req, hslot, ?_⟩
  simp [onRequestClosed, hvalid, htx, hfree]

/-- The end of any other task is no matter. -/
theorem onRequestClosed_void {t : XTunnel} {reqIdx reqTag : UInt16}
    (h : t.checkReqValid reqIdx reqTag = false ∨ t.tunTx = none) :
    t.onRequestClosed reqIdx reqTag = (t, []) := by
  unfold onRequestClosed
  rcases h with hvalid | htx
  · rw [if_pos hvalid]
  · split
    · rfl
    · rw [htx]

theorem onRequestClosed_spec (t : XTunnel) (reqIdx reqTag : UInt16) :
    SameLink t (t.onRequestClosed reqIdx reqTag).1 ∧
      ∀ j, (t.onRequestClosed reqIdx reqTag).1.requests.inUse j = true →
        t.requests.inUse j = true := by
  unfold onRequestClosed
  split
  · exact ⟨.refl t, fun _ hj => hj⟩
  · split
    · exact ⟨.refl t, fun _ hj => hj⟩
    · dsimp only
      split <;> exact ⟨⟨rfl, rfl, fun h => h⟩, fun _ hj => XReqq.inUse_free hj⟩

theorem freeRequestTx_spec (t : XTunnel) (reqIdx reqTag : UInt16) :
    SameLink t (t.freeRequestTx reqIdx reqTag) ∧
      ∀ j, (t.freeRequestTx reqIdx reqTag).requests.inUse j = t.requests.inUse j := by
  unfold freeRequestTx
  split
  · exact ⟨.refl t, fun _ => rfl⟩
  · rename_i req hslot
    split
    · refine ⟨⟨rfl, rfl, fun h => h⟩, ?_⟩
      intro j
      rw [XReqq.inUse_setSlot hslot]
      split
      · rename_i hij
        simp [XReqq.inUse, ← hij, hslot]
      · rfl
    · exact ⟨.refl t, fun _ => rfl⟩

theorem saveRequestTx_spec {t t' : XTunnel} {tx : Channel} {trigger : Trigger}
    {reqIdx reqTag : UInt16} (h : t.saveRequestTx tx trigger reqIdx reqTag = some t') :
    SameLink t t' ∧ ∀ j, t'.requests.inUse j = t.requests.inUse j := by
  unfold saveRequestTx at h
  split at h
  · cases h
  · split at h
    · cases h
    · rename_i req hslot
      split at h
      · cases h
      · cases h
        refine ⟨⟨rfl, rfl, fun h => h⟩, ?_⟩
        intro j
        rw [XReqq.inUse_setSlot hslot]
        split
        · rename_i hij
          simp [XReqq.inUse, ← hij, hslot]
        · rfl

/-- A request that is opened puts no other slot to use. -/
theorem onReqCreated_spec (t : XTunnel) (id : Nat) (th : THeader) (port : UInt16) :
    SameLink t (t.onReqCreated id th port).1 ∧
      ∀ j, (t.onReqCreated id th port).1.requests.inUse j = true →
        th.reqIdx.toNat = j ∨ t.requests.inUse j = true := by
  unfold onReqCreated proxyRequest
  split
  · exact ⟨⟨rfl, rfl, fun h => h⟩, fun j hj => XReqq.inUse_alloc hj⟩
  · rename_i t' hsave
    obtain ⟨⟨htx, hneed, hrun⟩, huse⟩ := saveRequestTx_spec hsave
    refine ⟨⟨htx, hneed, hrun⟩, ?_⟩
    intro j hj
    have hj' : t'.requests.inUse j = true := hj
    rw [huse] at hj'
    exact XReqq.inUse_alloc hj'

/-- A tunnel that runs keeps the channel and the trigger in the slot of the request. -/
theorem saveRequestTx_some {t : XTunnel} {reqIdx reqTag : UInt16} {req : XRequest} (tx : Channel)
    (trigger : Trigger) (hrun : t.discarded = false)
    (hslot : t.requests.slot reqIdx.toNat = some req) (htag : req.tag = reqTag) :
    t.saveRequestTx tx trigger reqIdx reqTag =
      some { t with
        requests := t.requests.setSlot reqIdx.toNat
          { req with trigger := some trigger, requestTx := some tx } } := by
  simp [saveRequestTx, hrun, hslot, htag]

/-- A request without a slot is not opened. -/
theorem onReqCreated_none {t : XTunnel} {th : THeader} (id : Nat) (port : UInt16)
    (hslot : t.requests.slot th.reqIdx.toNat = none) : t.onReqCreated id th port = (t, none) := by
  have halloc : t.requests.alloc th.reqIdx th.reqTag = t.requests := by
    simp [XReqq.alloc, hslot]
  have hproxy : t.proxyRequest id th.reqIdx th.reqTag port = (t, none) := by
    unfold proxyRequest saveRequestTx
    cases t.discarded <;> simp [hslot]
  unfold onReqCreated
  rw [halloc, hproxy]
  rfl

/-- A tunnel that is stopped puts the slot to use without starting a task. -/
theorem onReqCreated_stopped {t : XTunnel} {th : THeader} {req : XRequest} (id : Nat)
    (port : UInt16) (hslot : t.requests.slot th.reqIdx.toNat = some req)
    (hstop : t.discarded = true) :
    t.onReqCreated id th port =
      ({ t with
          requests := t.requests.setSlot th.reqIdx.toNat
            { req with tag := th.reqTag, isInused := true, requestTx := none, trigger := none } },
        none) := by
  simp [onReqCreated, proxyRequest, saveRequestTx, XReqq.alloc, XReqq.cleanReq, hslot, hstop]

/-- Otherwise the task of the request is started, and counted. -/
theorem onReqCreated_running {t : XTunnel} {th : THeader} {req : XRequest} (id : Nat)
    (port : UInt16) (hslot : t.requests.slot th.reqIdx.toNat = some req)
    (hrun : t.discarded = false) :
    t.onReqCreated id th port =
      ({ t with
          requests := t.requests.setSlot th.reqIdx.toNat
            { req with tag := th.reqTag, isInused := true, requestTx := some id, trigger := some id }
          reqCount := t.reqCount + 1 },
        some ⟨th.reqIdx, th.reqTag, port, id, id⟩) := by
  let fresh : XRequest :=
    { req with tag := th.reqTag, isInused := true, requestTx := none, trigger := none }
  have halloc : t.requests.alloc th.reqIdx th.reqTag =
      t.requests.setSlot th.reqIdx.toNat fresh := by
    simp [XReqq.alloc, XReqq.cleanReq, hslot, fresh]
  have hagain : (t.requests.setSlot th.reqIdx.toNat fresh).slot th.reqIdx.toNat = some fresh := by
    rw [XReqq.slot_setSlot hslot, if_pos rfl]
  have hsave := saveRequestTx_some (t := { t with requests := t.requests.setSlot _ fresh })
    id id hrun hagain rfl
  unfold onReqCreated proxyRequest
  dsimp only at hsave ⊢
  rw [halloc, hsave, XReqq.setSlot_setSlot]
  rfl

/-- What a frame does. -/
inductive MsgSpec (t : XTunnel) (msg : RMessage) (id : Nat) :
    XTunnel × List Effect × Option ProxyTask → Prop where
  /-- the payload goes to the request that holds the slot -/
  | data {th : THeader} : requestFrame msg.buf = some (.reqData, th) →
      MsgSpec t msg id (t, ((t.getRequestTx th.reqIdx th.reqTag).map fun tx =>
        Effect.send tx (WMessage.new msg.buf (UInt16.ofNat (3 + theaderSize)))).toList, none)
  /-- the peer has no more data for a request -/
  | finished {th : THeader} : requestFrame msg.buf = some (.reqClientFinished, th) →
      MsgSpec t msg id (t.freeRequestTx th.reqIdx th.reqTag, [], none)
  /-- the peer has closed a request -/
  | closed {th : THeader} : requestFrame msg.buf = some (.reqClientClosed, th) →
      MsgSpec t msg id (t.onReqClientClosed th, [], none)
  /-- the peer has opened a request -/
  | created {th : THeader} {port : UInt16} : requestFrame msg.buf = some (.reqCreated, th) →
      MsgSpec t msg id ((t.onReqCreated id th port).1, [], (t.onReqCreated id th port).2)
  /-- the frame is not about a request; a ping is answered -/
  | other {n : Nat} {effects : List Effect} :
      (∀ cmd th, requestFrame msg.buf = some (cmd, th) →
        cmd ≠ .reqClientClosed ∧ cmd ≠ .reqCreated) →
      (∀ e ∈ effects, ∃ tx vec, pongOf msg.buf = some vec ∧ e = .send tx (WMessage.new vec 0)) →
      MsgSpec t msg id ({ t with pingCount := n }, effects, none)

theorem onTunnelProxyMsg_spec {t : XTunnel} {cmd : Cmd} {msg : RMessage} {bs : Bytes} {id : Nat}
    {r : XTunnel × List Effect × Option ProxyTask} (hcmd : readCmd msg.buf = some (cmd, bs))
    (h : t.onTunnelProxyMsg cmd msg bs id = some r) : MsgSpec t msg id r := by
  unfold onTunnelProxyMsg at h
  simp only [Option.bind_eq_bind, Option.bind_eq_some_iff] at h
  obtain ⟨th, hth, h⟩ := h
  have hframe := requestFrame_of_readCmd hcmd hth
  have hself : cmd ≠ .reqClientClosed → cmd ≠ .reqCreated → MsgSpec t msg id (t, [], none) := by
    intro hclosed hcreated
    refine .other (n := t.pingCount) ?_ (by simp)
    intro cmd' th' heq
    rw [hframe] at heq
    cases heq
    exact ⟨hclosed, hcreated⟩
  cases cmd with
  | reqData =>
      have hdata : MsgSpec t msg id _ := .data hframe
      dsimp only at h
      split at h
      · rename_i hnone
        cases h
        simpa [hnone] using hdata
      · rename_i tx hsome
        cases h
        simpa [hsome] using hdata
  | reqClientFinished =>
      cases h
      exact .finished hframe
  | reqClientClosed =>
      cases h
      exact .closed hframe
  | reqCreated =>
      simp only [Option.bind_eq_some_iff, Option.some.injEq] at h
      obtain ⟨port, _, rfl⟩ := h
      exact .created hframe
  | _ =>
      cases h
      exact hself (by decide) (by decide)

theorem onTunnelMsg_spec {t : XTunnel} {msg : RMessage} {elapsed : UInt64} {id : Nat}
    {r : XTunnel × List Effect × Option ProxyTask} (h : t.onTunnelMsg msg elapsed id = some r) :
    MsgSpec t msg id r := by
  unfold onTunnelMsg at h
  simp only [Option.bind_eq_bind, Option.bind_eq_some_iff] at h
  obtain ⟨⟨cmd, bs⟩, hcmd, h⟩ := h
  have hother : cmd ≠ .reqClientClosed → cmd ≠ .reqCreated → ∀ cmd' th,
      requestFrame msg.buf = some (cmd', th) → cmd' ≠ .reqClientClosed ∧ cmd' ≠ .reqCreated := by
    intro hclosed hcreated cmd' th heq
    rw [cmd_of_requestFrame hcmd heq]
    exact ⟨hclosed, hcreated⟩
  cases cmd with
  | ping =>
      simp only [Option.bind_eq_some_iff, Option.some.injEq] at h
      obtain ⟨effects, hreply, rfl⟩ := h
      refine .other (n := t.pingCount) (hother (by decide) (by decide)) ?_
      unfold replyPing at hreply
      split at hreply
      · cases hreply
        simp
      · rename_i tx _
        simp only [Option.bind_eq_bind, Option.bind_eq_some_iff, Option.some.injEq] at hreply
        obtain ⟨vec, hvec, rfl⟩ := hreply
        intro e he
        exact ⟨tx, vec, hvec, List.mem_singleton.mp he⟩
  | pong =>
      simp only [Option.bind_eq_some_iff, Option.some.injEq] at h
      obtain ⟨t', hpong, rfl⟩ := h
      have hcount : ∃ n, t' = { t with pingCount := n } := by
        unfold onPong at hpong
        simp only [Option.bind_eq_bind, Option.bind_eq_some_iff] at hpong
        obtain ⟨sample, _, hpong⟩ := hpong
        cases sample with
        | none =>
            cases hpong
            exact ⟨t.pingCount, rfl⟩
        | some sample =>
            cases hpong
            exact ⟨0, rfl⟩
      obtain ⟨n, rfl⟩ := hcount
      exact .other (hother (by decide) (by decide)) (by simp)
  | _ => exact onTunnelProxyMsg_spec hcmd h

/-- A frame leaves the connection as it is, and puts a slot to use only when it
opens a request there. -/
theorem MsgSpec.link {t : XTunnel} {msg : RMessage} {id : Nat}
    {r : XTunnel × List Effect × Option ProxyTask} (h : MsgSpec t msg id r) :
    SameLink t r.1 ∧ ∀ j, r.1.requests.inUse j = true → t.requests.inUse j = true ∨
      ∃ th, requestFrame msg.buf = some (.reqCreated, th) ∧ th.reqIdx.toNat = j := by
  cases h with
  | data _ => exact ⟨.refl t, fun _ hj => .inl hj⟩
  | @finished th _ =>
      obtain ⟨hlink, huse⟩ := t.freeRequestTx_spec th.reqIdx th.reqTag
      exact ⟨hlink, fun j hj => .inl ((huse j).symm.trans hj)⟩
  | closed _ => exact ⟨⟨rfl, rfl, fun h => h⟩, fun j hj => .inl (XReqq.inUse_free hj)⟩
  | @created th port hframe =>
      obtain ⟨hlink, huse⟩ := t.onReqCreated_spec id th port
      refine ⟨hlink, fun j hj => ?_⟩
      rcases huse j hj with hidx | hbefore
      · exact .inr ⟨th, hframe, hidx⟩
      · exact .inl hbefore
  | other _ _ => exact ⟨⟨rfl, rfl, fun h => h⟩, fun _ hj => .inl hj⟩

/-- A task is started by a frame that opens a request in a slot of a tunnel that runs,
and the request holds the slot. -/
theorem MsgSpec.task {t : XTunnel} {msg : RMessage} {id : Nat}
    {r : XTunnel × List Effect × Option ProxyTask} (h : MsgSpec t msg id r) {proxy : ProxyTask}
    (hproxy : r.2.2 = some proxy) :
    ∃ th port, requestFrame msg.buf = some (.reqCreated, th) ∧
      proxy = ⟨th.reqIdx, th.reqTag, port, id, id⟩ ∧
      ∃ req, r.1.requests.slot th.reqIdx.toNat = some req ∧ req.tag = th.reqTag ∧
        req.isInused = true ∧ req.trigger = some id := by
  cases h with
  | @created th port hcmd =>
      refine ⟨th, port, hcmd, ?_⟩
      cases hslot : t.requests.slot th.reqIdx.toNat with
      | none =>
          rw [onReqCreated_none _ port hslot] at hproxy
          cases hproxy
      | some req =>
          cases hstop : t.discarded with
          | true =>
              rw [onReqCreated_stopped _ port hslot hstop] at hproxy
              cases hproxy
          | false =>
              rw [onReqCreated_running _ port hslot hstop] at hproxy
              refine ⟨(Option.some.inj hproxy).symm, ?_⟩
              rw [onReqCreated_running _ port hslot hstop, XReqq.slot_setSlot hslot, if_pos rfl]
              exact ⟨_, rfl, rfl, rfl, rfl⟩
  | data _ => cases hproxy
  | finished _ => cases hproxy
  | closed _ => cases hproxy
  | other _ _ => cases hproxy

end XTunnel

end LproxyCv.Xport
