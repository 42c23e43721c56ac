import LproxyCv.Foundation.Conversation
import LproxyCv.Tunnels.Handles
import LproxyCv.Tunnels.ReqServ
import LproxyCv.Tunnels.TunSteps

set_option autoImplicit false

/-!
# Tunnels: what the server is told about a request

A connection of a tunnel carries what the tunnel and the tasks of its requests say, each when
it likes: the task reads its socket and writes to it at the same time, and is over when both
have ended; meanwhile the server can close the request.  What the server is told about one
request is a conversation all the same (`talk`): that it is created, its data and what was
written out, that there is no more data, and that it is closed (`run_converses`).

A server that names requests it was told about hears of the end of every one of them that it
has not closed itself (`run_settles`).
-/

namespace LproxyCv.Tunnels

open LproxyCv.Foundation LproxyCv.Lws LproxyCv.Net

/-- A message that is written is only counted, or reported with those before it. -/
theorem ReqServ.countWriteOut_cases (tun : TunStub) (writeOut : UInt16) :
    ∃ left, ReqServ.countWriteOut tun writeOut = (left, []) ∨
      ReqServ.countWriteOut tun writeOut =
        (left, [ReqServ.sendRequestQuota tun (writeOut + 1)]) := by
  unfold ReqServ.countWriteOut
  split
  · exact ⟨_, .inr rfl⟩
  · exact ⟨_, .inl rfl⟩

/-! ## What is said -/

/-- What the server knows of a request. -/
inductive Talk where
  | silent
  | created
  | finished
  | closed
  deriving DecidableEq, Repr

/-- What the server may be told about a request. -/
def talk : Protocol Talk Cmd where
  start := .silent
  hear
    | .silent, .reqCreated => some .created
    | .created, .reqData => some .created
    | .created, .reqClientQuota => some .created
    | .created, .reqClientFinished => some .finished
    | .finished, .reqClientQuota => some .finished
    | .finished, .reqClientClosed => some .closed
    | _, _ => none

/-- The command is about one request. -/
def Cmd.isRequest : Cmd → Bool
  | .ping => false
  | .pong => false
  | .udpX => false
  | _ => true

/-- The request that a message is about, and what it says. -/
def said (msg : WMessage) : Option (THeader × Cmd) :=
  match requestFrame msg.buf with
  | some (cmd, th) => if cmd.isRequest then some (th, cmd) else none
  | none => none

theorem said_frame {cmd : Cmd} (hcmd : cmd.isRequest = true) (th : THeader) (rest : Bytes) :
    said (WMessage.new (frame cmd (th.toBytes ++ rest)) 0) = some (th, cmd) := by
  simp [said, WMessage.new, requestFrame_frame, hcmd]

theorem said_of_readCmd {buf body : Bytes} {cmd : Cmd} (hread : readCmd buf = some (cmd, body))
    (hcmd : cmd.isRequest = false) : said (WMessage.new buf 0) = none := by
  unfold said WMessage.new
  cases hframe : requestFrame buf with
  | none => rfl
  | some r =>
      obtain ⟨cmd', th⟩ := r
      have hsame := cmd_of_requestFrame hread hframe
      simp [hsame, hcmd]

/-! ## A connection and its tasks -/

/-- The task of a request. -/
structure ReqTask where
  stub : TunStub
  /-- the channel with what the server has sent -/
  requestTx : Channel
  inbox : List WMessage
  writeOut : UInt16
  /-- it reads its socket -/
  receiving : Bool
  /-- it writes to its socket -/
  sending : Bool
  deriving DecidableEq

/-- A task that has just started. -/
def ReqTask.new (stub : TunStub) (requestTx : Channel) : ReqTask :=
  ⟨stub, requestTx, [], 0, true, true⟩

/-- A message comes into the channel of a task, if the task still takes any. -/
def ReqTask.push (t : ReqTask) (tx : Channel) (msg : WMessage) : ReqTask :=
  if t.requestTx = tx ∧ t.sending then { t with inbox := t.inbox ++ [msg] } else t

/-- A connection of a tunnel. -/
structure Conn where
  tunnel : Tunnel
  /-- the identity of the next channel -/
  next : Nat
  tasks : List ReqTask
  /-- what went into the channel of the connection, the oldest first -/
  sent : List WMessage
  deriving DecidableEq

/-- What happens to a connection. -/
inductive ConnEvent where
  /-- a socket is accepted -/
  | serve (ip : IpAddr) (port : UInt16)
  /-- the socket of a task has data -/
  | read (tx : Channel) (message : TMessage)
  /-- it has no more data, or has failed, or the task was told to stop -/
  | recvEnd (tx : Channel)
  /-- a message is written to it -/
  | deliver (tx : Channel)
  /-- there is nothing more to be written, or writing has failed -/
  | sendEnd (tx : Channel)
  /-- a task is over -/
  | joined (tx : Channel)
  /-- a frame of the server -/
  | frame (msg : RMessage) (elapsed : UInt64)
  /-- the task of a request of an earlier connection is over -/
  | foreign (ts : TunStub)
  | ping (elapsed : UInt64) (accepted : Bool)
  | udp (payload : Bytes) (srcAddr dstAddr : SocketAddr)

namespace Conn

/-- A connection just made; `tx` is the identity of its channel. -/
def new (tx : Channel) (rawfd : Int) (idx cap : Nat) (requestQuota : UInt16) : Conn :=
  ⟨Tunnel.new tx rawfd idx cap requestQuota, tx + 1, [], []⟩

/-- Do one thing. -/
def effect (c : Conn) : Effect → Conn
  | .send tx msg =>
      if tx = c.tunnel.tx then { c with sent := c.sent ++ [msg] }
      else { c with tasks := c.tasks.map fun t => t.push tx msg }
  | .udpRecv _ _ _ _ => c
  | .shutdown _ => c

def perform (c : Conn) (effects : List Effect) : Conn := effects.foldl effect c

/-- A socket is accepted, and has a task if there is a slot for it. -/
def serveSock (c : Conn) (ip : IpAddr) (port : UInt16) : Conn :=
  let r := c.tunnel.onRequestCreated (Request.withTx c.next c.next) ip port
  let started := r.2.1.toList.map fun ts => ReqTask.new ts c.next
  Conn.perform { c with tunnel := r.1, next := c.next + 1, tasks := started ++ c.tasks } r.2.2

/-- Put another task in the place of one. -/
def replace (c : Conn) (t : ReqTask) : Conn :=
  { c with tasks := c.tasks.map fun u => if u.requestTx = t.requestTx then t else u }

/-- A message is written to the socket, and counted. -/
def writeOne (c : Conn) (t : ReqTask) (rest : List WMessage) : Conn :=
  let r := ReqServ.countWriteOut t.stub t.writeOut
  (c.replace { t with inbox := rest, writeOut := r.1 }).perform r.2

/-- The socket has no more data. -/
def onRequestRecvFinished (c : Conn) (t : ReqTask) : Conn :=
  (c.replace { t with receiving := false }).perform [ReqServ.onRequestRecvFinished t.stub]

/-- The task is over. -/
def onRequestClosed (c : Conn) (t : ReqTask) : Conn :=
  let r := c.tunnel.onRequestClosed t.stub
  let rest := c.tasks.filter (·.requestTx ≠ t.requestTx)
  Conn.perform { c with tunnel := r.1, tasks := rest } r.2

/-- The steps of a connection. -/
inductive Step : Conn → ConnEvent → Conn → Prop where
  | serve (c : Conn) (ip : IpAddr) (port : UInt16) : Step c (.serve ip port) (c.serveSock ip port)
  | read {c : Conn} {t : ReqTask} {message : TMessage} {effects : List Effect} : t ∈ c.tasks →
      t.receiving = true → ReqServ.onRequestMsg message t.stub = some effects →
      Step c (.read t.requestTx message) (c.perform effects)
  | recvEnd {c : Conn} {t : ReqTask} : t ∈ c.tasks → t.receiving = true →
      Step c (.recvEnd t.requestTx) (c.onRequestRecvFinished t)
  | deliver {c : Conn} {t : ReqTask} {msg : WMessage} {rest : List WMessage} : t ∈ c.tasks →
      t.sending = true → t.inbox = msg :: rest →
      Step c (.deliver t.requestTx) (c.writeOne t rest)
  | sendEnd {c : Conn} {t : ReqTask} : t ∈ c.tasks → t.sending = true →
      Step c (.sendEnd t.requestTx) (c.replace { t with inbox := [], sending := false })
  | joined {c : Conn} {t : ReqTask} : t ∈ c.tasks → t.receiving = false → t.sending = false →
      Step c (.joined t.requestTx) (c.onRequestClosed t)
  | frame {c : Conn} {msg : RMessage} {elapsed : UInt64} {tunnel : Tunnel}
      {effects : List Effect} :
      c.tunnel.onTunnelMsg msg elapsed = some (tunnel, effects) →
      Step c (.frame msg elapsed) (Conn.perform { c with tunnel := tunnel } effects)
  | foreign {c : Conn} {ts : TunStub} : ts.tunnelTx < c.tunnel.tx →
      Step c (.foreign ts) (Conn.perform { c with tunnel := (c.tunnel.onRequestClosed ts).1 }
        (c.tunnel.onRequestClosed ts).2)
  | ping (c : Conn) (elapsed : UInt64) (accepted : Bool) :
      Step c (.ping elapsed accepted) (Conn.perform
        { c with tunnel := (c.tunnel.sendPing elapsed accepted).2.1 }
        (c.tunnel.sendPing elapsed accepted).2.2)
  | udp (c : Conn) (payload : Bytes) (srcAddr dstAddr : SocketAddr) :
      Step c (.udp payload srcAddr dstAddr)
        (c.perform [c.tunnel.udpProxyNorth payload srcAddr dstAddr])

end Conn

/-! ## What happens to the table -/

namespace Tunnel

/-- The tag of a slot. -/
def tag (t : Tunnel) (i : Nat) : Option UInt16 := (t.requests.slot i).map Request.tag

/-- No slot changes hands. -/
structure Keeps (t t' : Tunnel) : Prop where
  freeList : t'.requests.freeList = t.requests.freeList
  tag : ∀ i, t'.tag i = t.tag i
  tx : t'.tx = t.tx

/-- The tag of a slot is increased. -/
structure Bumps (t t' : Tunnel) (i : Nat) (tag : UInt16) : Prop where
  old : t.tag i = some tag
  tag : ∀ j, t'.tag j = if i = j then some (tag + 1) else t.tag j
  tx : t'.tx = t.tx

variable {t t' : Tunnel} {i : Nat} {tag : UInt16}

theorem Keeps.refl (t : Tunnel) : t.Keeps t := ⟨rfl, fun _ => rfl, rfl⟩

theorem bumps_of_set {req req' : Request} (hslot : t.requests.slot i = some req)
    (helems : t'.requests.elements = t.requests.elements.set i req')
    (htag : req'.tag = req.tag + 1) (htx : t'.tx = t.tx) : t.Bumps t' i req.tag := by
  refine ⟨by rw [Tunnel.tag, hslot]; rfl, ?_, htx⟩
  intro j
  rw [Tunnel.tag, Reqq.slot_set helems]
  by_cases hj : i = j
  · subst hj
    rw [if_pos rfl, if_pos rfl, hslot, Option.map_some, Option.map_some, htag]
  · rw [if_neg hj, if_neg hj]
    rfl

/-- A new request is refused, or given the slot on top of the stack. -/
theorem onRequestCreated_bumps (hsize : t.requests.elements.length ≤ 65536) (req2 : Request)
    (ip : IpAddr) (port : UInt16) : t.onRequestCreated req2 ip port = (t, none, []) ∨
      ∃ i tag, t.Bumps (t.onRequestCreated req2 ip port).1 i tag ∧
        t.requests.freeList = i :: (t.onRequestCreated req2 ip port).1.requests.freeList ∧
        ((t.onRequestCreated req2 ip port).2 = (none, []) ∨
          ∃ ts, (t.onRequestCreated req2 ip port).2 =
              (some ts, [sendRequestCreatedToServer ts ip port]) ∧
            ts.tunnelTx = t.tx ∧ ts.reqIdx.toNat = i ∧ ts.reqTag = tag + 1) := by
  cases hfree : t.requests.freeList with
  | nil => exact .inl (onRequestCreated_nil hfree req2 ip port)
  | cons i rest =>
      obtain ⟨req, hslot, hhandle, hrest, helems⟩ := Reqq.alloc_cons hfree req2
      have hi : i < 65536 :=
        Nat.lt_of_lt_of_le (t.requests.freeList_lt i (by simp [hfree])) hsize
      have hnat : (UInt16.ofNat i).toNat = i := by
        rw [UInt16.toNat_ofNat']
        omega
      refine .inr ⟨i, req.tag, ?_⟩
      unfold onRequestCreated onRequestCreatedInternal
      by_cases hmax : (t.requests.alloc req2).1.1 ≠ 65535
      · rw [if_pos hmax]
        refine ⟨bumps_of_set hslot helems rfl rfl, by rw [hrest], .inr ⟨_, rfl, rfl, ?_, ?_⟩⟩
        · rw [hhandle]
          exact hnat
        · rw [hhandle]
      · rw [if_neg hmax]
        exact ⟨bumps_of_set hslot helems rfl rfl, by rw [hrest], .inl rfl⟩

/-- A slot is taken back when the tag is that of the slot; else nothing happens. -/
theorem release_bumps (t : Tunnel) (reqIdx reqTag : UInt16) :
    (t.release reqIdx reqTag = (false, t) ∧ t.tag reqIdx.toNat ≠ some reqTag) ∨
      ((t.release reqIdx reqTag).1 = true ∧
        t.Bumps (t.release reqIdx reqTag).2 reqIdx.toNat reqTag ∧
        (t.release reqIdx reqTag).2.requests.freeList = reqIdx.toNat :: t.requests.freeList) := by
  rcases t.release_cases reqIdx reqTag with
    ⟨req, hslot, rfl, _, hok, hfree, helems, _⟩ | ⟨_, hsame, htag⟩
  · exact .inr ⟨hok, bumps_of_set hslot helems rfl rfl, hfree⟩
  · refine .inl ⟨hsame, ?_⟩
    intro heq
    obtain ⟨req, hslot, hreq⟩ := Option.map_eq_some_iff.mp heq
    exact htag req hslot hreq

theorem keeps_freeRequestTx (t : Tunnel) (reqIdx reqTag : UInt16) :
    t.Keeps (t.freeRequestTx reqIdx reqTag) := by
  unfold freeRequestTx
  split
  · exact .refl t
  · rename_i req hslot
    split
    · refine ⟨rfl, ?_, rfl⟩
      intro i
      unfold Tunnel.tag
      rw [Reqq.slot_set (q := t.requests) rfl]
      split
      · rename_i hi
        rw [← hi, hslot]
        rfl
      · rfl
    · exact .refl t

/-- A frame takes a slot back only when the server says so. -/
theorem onTunnelMsg_moves {msg : RMessage} {elapsed : UInt64} {effects : List Effect}
    (h : t.onTunnelMsg msg elapsed = some (t', effects)) :
    t.Keeps t' ∨ ∃ th, requestFrame msg.buf = some (.reqServerClosed, th) ∧
      t.Bumps t' th.reqIdx.toNat th.reqTag ∧
      t'.requests.freeList = th.reqIdx.toNat :: t.requests.freeList := by
  cases onTunnelMsg_spec h with
  | data b hframe heffects => exact .inl ⟨rfl, fun _ => rfl, rfl⟩
  | @finished th b hframe =>
      have hkeeps := t.keeps_freeRequestTx th.reqIdx th.reqTag
      exact .inl ⟨hkeeps.freeList, hkeeps.tag, hkeeps.tx⟩
  | @closed th b hframe =>
      rcases t.release_bumps th.reqIdx th.reqTag with ⟨hsame, _⟩ | ⟨_, hbumps, hfree⟩
      · rw [hsame]
        exact .inl ⟨rfl, fun _ => rfl, rfl⟩
      · exact .inr ⟨th, hframe, ⟨hbumps.old, hbumps.tag, hbumps.tx⟩, hfree⟩
  | other _ hreqs _ htx _ =>
      refine .inl ⟨by rw [hreqs], ?_, htx⟩
      intro i
      rw [Tunnel.tag, hreqs]
      rfl

/-- What a frame sends is its data for a request, or the answer to a ping. -/
theorem onTunnelMsg_sends {msg : RMessage} {elapsed : UInt64} {effects : List Effect}
    (h : t.onTunnelMsg msg elapsed = some (t', effects)) {tx : Channel} {wmsg : WMessage}
    (hsend : .send tx wmsg ∈ effects) : tx = t.tx ∧ said wmsg = none ∨
      ∃ th : THeader, requestFrame msg.buf = some (.reqData, th) ∧
        t.getRequestTx th.reqIdx th.reqTag = some tx := by
  unfold onTunnelMsg at h
  simp only [Option.bind_eq_bind, Option.bind_eq_some_iff] at h
  obtain ⟨⟨cmd, bs⟩, hread, h⟩ := h
  cases cmd with
  | ping =>
      simp only [replyPing, Option.bind_eq_bind, Option.bind_eq_some_iff, Option.some.injEq,
        Prod.mk.injEq] at h
      obtain ⟨vec, hvec, _, rfl⟩ := h
      obtain ⟨rfl, rfl⟩ := Effect.send.inj (List.mem_singleton.mp hsend)
      refine .inl ⟨rfl, ?_⟩
      unfold said WMessage.new
      cases hframe : requestFrame vec with
      | none => rfl
      | some r =>
          obtain ⟨cmd', th⟩ := r
          rw [cmd_of_pongOf hvec hframe]
          rfl
  | pong =>
      simp only [Option.bind_eq_some_iff, Option.some.injEq, Prod.mk.injEq] at h
      obtain ⟨_, _, _, rfl⟩ := h
      cases hsend
  | udpX =>
      simp only [Option.bind_eq_some_iff, Option.some.injEq, Prod.mk.injEq] at h
      obtain ⟨udp, hudp, _, rfl⟩ := h
      unfold onUdpxSouth at hudp
      split at hudp
      · cases hudp
        cases hsend
      · simp only [Option.bind_eq_bind, Option.bind_eq_some_iff, Option.some.injEq] at hudp
        obtain ⟨_, _, _, _, rfl⟩ := hudp
        cases List.mem_singleton.mp hsend
  | reqData =>
      simp only [Option.bind_eq_some_iff] at h
      obtain ⟨th, hth, h⟩ := h
      split at h
      · cases h
        cases hsend
      · rename_i tx' hget
        cases h
        cases List.mem_singleton.mp hsend
        exact .inr ⟨th, requestFrame_of_readCmd hread hth, hget⟩
  | reqServerFinished =>
      simp only [Option.bind_eq_some_iff, Option.some.injEq, Prod.mk.injEq] at h
      obtain ⟨_, _, _, rfl⟩ := h
      cases hsend
  | reqServerClosed =>
      simp only [Option.bind_eq_some_iff, Option.some.injEq, Prod.mk.injEq] at h
      obtain ⟨_, _, _, rfl⟩ := h
      cases hsend
  | _ =>
      cases h
      cases hsend

/-- The channels that `t'` has are in `t`, in the same slots. -/
def Loses (t t' : Tunnel) : Prop :=
  ∀ i req' ch, t'.requests.slot i = some req' → req'.requestTx = some ch →
    ∃ req, t.requests.slot i = some req ∧ req.tag = req'.tag ∧ req.requestTx = some ch

theorem loses_of_requests (h : t'.requests = t.requests) : t.Loses t' := by
  intro i req' ch hslot htx
  rw [h] at hslot
  exact ⟨req', hslot, rfl, htx⟩

theorem loses_release (t : Tunnel) (reqIdx reqTag : UInt16) :
    t.Loses (t.release reqIdx reqTag).2 := by
  rcases t.release_cases reqIdx reqTag with ⟨req, _, _, _, _, _, helems, _⟩ | ⟨_, hsame, _⟩
  · intro i req' ch hslot htx
    rw [Reqq.slot_set helems] at hslot
    split at hslot
    · obtain ⟨_, _, rfl⟩ := Option.map_eq_some_iff.mp hslot
      cases htx
    · exact ⟨req', hslot, rfl, htx⟩
  · rw [hsame]
    exact loses_of_requests rfl

/-- A frame puts no channel into a slot. -/
theorem loses_onTunnelMsg {msg : RMessage} {elapsed : UInt64} {effects : List Effect}
    (hmsg : t.onTunnelMsg msg elapsed = some (t', effects)) : t.Loses t' := by
  cases onTunnelMsg_spec hmsg with
  | data b hframe heffects => exact loses_of_requests rfl
  | @finished th b hframe =>
      intro i req' ch hslot' htx
      obtain ⟨req, hslot, htag, _, hsame | hnone⟩ :=
        (t.freeRequestTx_slot th.reqIdx th.reqTag).2.2 i req' hslot'
      · exact ⟨req, hslot, htag.symm, hsame ▸ htx⟩
      · rw [hnone] at htx
        cases htx
  | @closed th b hframe => exact t.loses_release th.reqIdx th.reqTag
  | other _ hreqs _ _ _ => exact loses_of_requests hreqs

/-- A new request puts its channel into the slot that its stub names. -/
theorem slot_onRequestCreated {i : Nat} {req' : Request} {ch new : Channel} {ip : IpAddr}
    {port : UInt16}
    (hslot : (t.onRequestCreated (Request.withTx new new) ip port).1.requests.slot i = some req')
    (htx : req'.requestTx = some ch) :
    (∃ req, t.requests.slot i = some req ∧ req.tag = req'.tag ∧ req.requestTx = some ch) ∨
      ch = new ∧ ∀ ts, (t.onRequestCreated (Request.withTx new new) ip port).2.1 = some ts →
        ts.header = ⟨UInt16.ofNat i, req'.tag⟩ := by
  cases hfree : t.requests.freeList with
  | nil =>
      rw [onRequestCreated_nil hfree] at hslot
      exact .inl ⟨req', hslot, rfl, htx⟩
  | cons idx rest =>
      obtain ⟨req, hreq, hhandle, _, helems⟩ :=
        Reqq.alloc_cons hfree (Request.withTx new new)
      have hcases : (∃ req, t.requests.slot i = some req ∧ req.tag = req'.tag ∧
            req.requestTx = some ch) ∨
          idx = i ∧ ch = new ∧ req'.tag = req.tag + 1 := by
        have hslot' : (t.requests.alloc (Request.withTx new new)).2.slot i = some req' := by
          unfold onRequestCreated onRequestCreatedInternal at hslot
          by_cases hmax : (t.requests.alloc (Request.withTx new new)).1.1 ≠ 65535
          · rwa [if_pos hmax] at hslot
          · rwa [if_neg hmax] at hslot
        rw [Reqq.slot_set helems] at hslot'
        split at hslot'
        · rename_i heq
          obtain ⟨_, _, rfl⟩ := Option.map_eq_some_iff.mp hslot'
          cases htx
          exact .inr ⟨heq, rfl, rfl⟩
        · exact .inl ⟨req', hslot', rfl, htx⟩
      refine hcases.imp_right ?_
      rintro ⟨rfl, rfl, htag⟩
      refine ⟨rfl, ?_⟩
      intro ts hmade
      unfold onRequestCreated onRequestCreatedInternal at hmade
      by_cases hmax : (t.requests.alloc (Request.withTx ch ch)).1.1 ≠ 65535
      · rw [if_pos hmax] at hmade
        cases hmade
        rw [TunStub.header, hhandle, htag]
      · rw [if_neg hmax] at hmade
        cases hmade

/-- The channels of the requests are newer than `tx`. -/
def Newer (t : Tunnel) (tx : Channel) : Prop :=
  ∀ i req ch, t.requests.slot i = some req → req.requestTx = some ch → tx < ch

theorem getRequestTx_eq_some {reqIdx reqTag : UInt16} {ch : Channel} :
    t.getRequestTx reqIdx reqTag = some ch ↔ ∃ req, t.requests.slot reqIdx.toNat = some req ∧
      req.tag = reqTag ∧ req.requestTx = some ch := by
  unfold Tunnel.getRequestTx
  split
  · rename_i hslot
    simp [hslot]
  · rename_i req hslot
    simp [hslot]

theorem Newer.getRequestTx {tx ch : Channel} (h : t.Newer tx) {reqIdx reqTag : UInt16}
    (hget : t.getRequestTx reqIdx reqTag = some ch) : tx < ch := by
  obtain ⟨req, hslot, _, htx⟩ := getRequestTx_eq_some.mp hget
  exact h _ req ch hslot htx

theorem Newer.of_loses {tx : Channel} (h : t.Newer tx) (hloses : t.Loses t') : t'.Newer tx := by
  intro i req' ch hslot htx
  obtain ⟨req, hold, _, hold_tx⟩ := hloses i req' ch hslot htx
  exact h i req ch hold hold_tx

theorem Newer.onRequestCreated {tx ch : Channel} (h : t.Newer tx) (hch : tx < ch) (ip : IpAddr)
    (port : UInt16) : (t.onRequestCreated (Request.withTx ch ch) ip port).1.Newer tx := by
  intro i req' ch' hslot htx
  rcases slot_onRequestCreated hslot htx with ⟨req, hold, _, hold_tx⟩ | ⟨rfl, _⟩
  · exact h i req ch' hold hold_tx
  · exact hch

end Tunnel

/-! ## What each step does -/

/-- What stays of a task. -/
structure Seat where
  stub : TunStub
  requestTx : Channel
  receiving : Bool
  deriving DecidableEq

def ReqTask.seat (t : ReqTask) : Seat := ⟨t.stub, t.requestTx, t.receiving⟩

@[simp] theorem ReqTask.seat_push (t : ReqTask) (tx : Channel) (msg : WMessage) :
    (t.push tx msg).seat = t.seat := by
  unfold push
  split <;> rfl

/-- The event takes back the slot of a request of which the task is not over. -/
def ConnEvent.Closes : ConnEvent → THeader → Prop
  | .frame msg _, th => requestFrame msg.buf = some (.reqServerClosed, th)
  | .foreign ts, th => ts.header = th
  | _, _ => False

namespace Conn

def seats (c : Conn) : List Seat := c.tasks.map ReqTask.seat

/-- What was said about the requests. -/
def log (c : Conn) : List (THeader × Cmd) := c.sent.filterMap said

/-- What is said when something is done, if it is said on this connection. -/
def saidTo (tx : Channel) : Effect → Option (THeader × Cmd)
  | .send tx' msg => if tx' = tx then said msg else none
  | _ => none

theorem saidTo_frame {cmd : Cmd} (hcmd : cmd.isRequest = true) (tx : Channel) (th : THeader)
    (rest : Bytes) :
    saidTo tx (.send tx (WMessage.new (frame cmd (th.toBytes ++ rest)) 0)) = some (th, cmd) :=
  (if_pos rfl).trans (said_frame hcmd th rest)

theorem saidTo_frame_nil {cmd : Cmd} (hcmd : cmd.isRequest = true) (tx : Channel) (th : THeader) :
    saidTo tx (.send tx (WMessage.new (frame cmd th.toBytes) 0)) = some (th, cmd) := by
  have hframe := saidTo_frame hcmd tx th []
  rwa [List.append_nil] at hframe

/-- A message that is not about a request says nothing. -/
theorem saidTo_eq_none {tx tx' : Channel} {msg : WMessage} (h : said msg = none) :
    saidTo tx (.send tx' msg) = none := by
  show (if tx' = tx then said msg else none) = none
  rw [h, ite_self]

theorem saidTo_created (ts : TunStub) (ip : IpAddr) (port : UInt16) :
    saidTo ts.tunnelTx (sendRequestCreatedToServer ts ip port) = some (ts.header, .reqCreated) := by
  simp only [sendRequestCreatedToServer, List.append_assoc]
  exact saidTo_frame rfl _ _ _

theorem saidTo_closed (ts : TunStub) :
    saidTo ts.tunnelTx (sendRequestClosedToServer ts) = some (ts.header, .reqClientClosed) :=
  saidTo_frame_nil rfl _ _

theorem saidTo_finished (ts : TunStub) :
    saidTo ts.tunnelTx (ReqServ.onRequestRecvFinished ts) =
      some (ts.header, .reqClientFinished) :=
  saidTo_frame_nil rfl _ _

theorem saidTo_quota (ts : TunStub) (quota : UInt16) :
    saidTo ts.tunnelTx (ReqServ.sendRequestQuota ts quota) = some (ts.header, .reqClientQuota) :=
  saidTo_frame rfl _ _ _

theorem saidTo_data {ts : TunStub} {message : TMessage} {effects : List Effect}
    (h : ReqServ.onRequestMsg message ts = some effects) :
    effects.filterMap (saidTo ts.tunnelTx) = [(ts.header, .reqData)] := by
  simp only [ReqServ.onRequestMsg, stampFrame_eq, Option.bind_eq_bind, Option.bind_eq_some_iff,
    Option.some.injEq] at h
  obtain ⟨vec, hvec, rfl⟩ := h
  split at hvec
  · cases hvec
    exact List.filterMap_cons_some (saidTo_frame rfl _ _ _)
  · cases hvec

theorem saidTo_ping (t : Tunnel) (elapsed : UInt64) (accepted : Bool) (tx : Channel) :
    (t.sendPing elapsed accepted).2.2.filterMap (saidTo tx) = [] := by
  have hping : said (WMessage.new (pingFrame elapsed) 0) = none :=
    said_of_readCmd (readCmd_frame .ping _) rfl
  unfold Tunnel.sendPing
  split
  · rfl
  · split
    · exact List.filterMap_cons_none (saidTo_eq_none hping)
    · rfl

theorem saidTo_udp (t : Tunnel) (payload : Bytes) (srcAddr dstAddr : SocketAddr) (tx : Channel) :
    saidTo tx (t.udpProxyNorth payload srcAddr dstAddr) = none :=
  saidTo_eq_none (said_of_readCmd (readCmd_frame .udpX _) rfl)

variable {c c' : Conn} {e : ConnEvent}

theorem effect_send (c : Conn) (tx : Channel) (msg : WMessage) : c.effect (.send tx msg) =
    if tx = c.tunnel.tx then { c with sent := c.sent ++ [msg] }
    else { c with tasks := c.tasks.map fun t => t.push tx msg } := rfl

@[simp] theorem effect_tunnel (c : Conn) (a : Effect) : (c.effect a).tunnel = c.tunnel := by
  cases a with
  | send tx msg =>
      rw [effect_send]
      split <;> rfl
  | _ => rfl

@[simp] theorem effect_next (c : Conn) (a : Effect) : (c.effect a).next = c.next := by
  cases a with
  | send tx msg =>
      rw [effect_send]
      split <;> rfl
  | _ => rfl

@[simp] theorem effect_seats (c : Conn) (a : Effect) : (c.effect a).seats = c.seats := by
  cases a with
  | send tx msg =>
      rw [effect_send]
      split
      · rfl
      · simp [seats, Function.comp_def]
  | _ => rfl

theorem effect_log (c : Conn) (a : Effect) :
    (c.effect a).log = c.log ++ (saidTo c.tunnel.tx a).toList := by
  cases a with
  | send tx msg =>
      rw [effect_send, saidTo]
      split
      · rw [log, List.filterMap_append]
        cases hsaid : said msg <;> simp [log, hsaid]
      · exact (List.append_nil _).symm
  | _ => simp [effect, saidTo]

theorem perform_tunnel (effects : List Effect) (c : Conn) :
    (c.perform effects).tunnel = c.tunnel := by
  induction effects generalizing c with
  | nil => rfl
  | cons a effects ih => exact (ih (c.effect a)).trans (effect_tunnel c a)

theorem perform_next (effects : List Effect) (c : Conn) : (c.perform effects).next = c.next := by
  induction effects generalizing c with
  | nil => rfl
  | cons a effects ih => exact (ih (c.effect a)).trans (effect_next c a)

theorem perform_seats (effects : List Effect) (c : Conn) :
    (c.perform effects).seats = c.seats := by
  induction effects generalizing c with
  | nil => rfl
  | cons a effects ih => exact (ih (c.effect a)).trans (effect_seats c a)

theorem perform_log (effects : List Effect) (c : Conn) :
    (c.perform effects).log = c.log ++ effects.filterMap (saidTo c.tunnel.tx) := by
  induction effects generalizing c with
  | nil => exact (List.append_nil _).symm
  | cons a effects ih =>
      have hstep := ih (c.effect a)
      rw [effect_log, effect_tunnel, List.append_assoc] at hstep
      refine hstep.trans (congrArg (c.log ++ ·) ?_)
      cases hsaid : saidTo c.tunnel.tx a <;> simp [hsaid]

/-- The channels are those of the connection and of its tasks. -/
structure Routed (c : Conn) : Prop where
  size : c.tunnel.requests.elements.length ≤ 65536
  newer : c.tunnel.Newer c.tunnel.tx
  next : c.tunnel.tx < c.next
  stubs : ∀ s ∈ c.seats, s.stub.tunnelTx = c.tunnel.tx
  ids : (c.seats.map Seat.requestTx).Nodup
  old : ∀ s ∈ c.seats, s.requestTx < c.next

/-- The steps, as far as the server hears of them. -/
inductive Move (c : Conn) (e : ConnEvent) (c' : Conn) : Prop where
  /-- nothing -/
  | quiet : c.tunnel.Keeps c'.tunnel → c'.seats = c.seats → c'.log = c.log → Move c e c'
  /-- a slot is handed out whose index stands for a failure -/
  | refused {i : Nat} {tag : UInt16} : c.tunnel.Bumps c'.tunnel i tag →
      c.tunnel.requests.freeList = i :: c'.tunnel.requests.freeList →
      c'.seats = c.seats → c'.log = c.log → Move c e c'
  | served (ts : TunStub) {tag : UInt16} : c.tunnel.Bumps c'.tunnel ts.reqIdx.toNat tag →
      c.tunnel.requests.freeList = ts.reqIdx.toNat :: c'.tunnel.requests.freeList →
      ts.reqTag = tag + 1 → ts.tunnelTx = c.tunnel.tx → c'.seats = ⟨ts, c.next, true⟩ :: c.seats →
      c.next < c'.next → c'.log = c.log ++ [(ts.header, .reqCreated)] → Move c e c'
  | spoke {s : Seat} {cmd : Cmd} : s ∈ c.seats →
      cmd = .reqData ∧ s.receiving = true ∨ cmd = .reqClientQuota →
      c.tunnel.Keeps c'.tunnel → c'.seats = c.seats →
      c'.log = c.log ++ [(s.stub.header, cmd)] → Move c e c'
  | finished {s : Seat} : s ∈ c.seats → s.receiving = true → c.tunnel.Keeps c'.tunnel →
      c'.seats = c.seats.map (fun u =>
        if u.requestTx = s.requestTx then { s with receiving := false } else u) →
      c'.log = c.log ++ [(s.stub.header, .reqClientFinished)] → Move c e c'
  /-- a task is over, and the server is told -/
  | closed {s : Seat} : s ∈ c.seats → s.receiving = false →
      c.tunnel.Bumps c'.tunnel s.stub.reqIdx.toNat s.stub.reqTag →
      c'.tunnel.requests.freeList = s.stub.reqIdx.toNat :: c.tunnel.requests.freeList →
      c'.seats = c.seats.filter (·.requestTx ≠ s.requestTx) →
      c'.log = c.log ++ [(s.stub.header, .reqClientClosed)] → Move c e c'
  /-- a task is over whose slot is not its own any more -/
  | left {s : Seat} : s ∈ c.seats → s.receiving = false →
      c.tunnel.tag s.stub.reqIdx.toNat ≠ some s.stub.reqTag → c.tunnel.Keeps c'.tunnel →
      c'.seats = c.seats.filter (·.requestTx ≠ s.requestTx) → c'.log = c.log → Move c e c'
  | dropped (th : THeader) : e.Closes th → c.tunnel.Bumps c'.tunnel th.reqIdx.toNat th.reqTag →
      c'.tunnel.requests.freeList = th.reqIdx.toNat :: c.tunnel.requests.freeList →
      c'.seats = c.seats → c'.log = c.log → Move c e c'

theorem seats_replace {t u : ReqTask} (hseat : u.seat = t.seat)
    (hids : (c.seats.map Seat.requestTx).Nodup) (ht : t ∈ c.tasks) :
    (c.replace u).seats = c.seats := by
  have htx : u.requestTx = t.requestTx := congrArg Seat.requestTx hseat
  unfold seats replace
  rw [List.map_map]
  refine List.map_congr_left ?_
  intro v hv
  rw [Function.comp_apply]
  split
  · rename_i heq
    have hsame : v.seat = t.seat :=
      List.inj_on_of_nodup_map hids (List.mem_map_of_mem hv) (List.mem_map_of_mem ht)
        (heq.trans htx)
    rw [hsame, hseat]
  · rfl

theorem seats_replace_map (c : Conn) (u : ReqTask) : (c.replace u).seats =
    c.seats.map fun v => if v.requestTx = u.requestTx then u.seat else v := by
  unfold seats replace
  rw [List.map_map, List.map_map]
  refine List.map_congr_left ?_
  intro v _
  rw [Function.comp_apply, Function.comp_apply]
  by_cases hv : v.requestTx = u.requestTx
  · rw [if_pos hv]
    exact (if_pos hv).symm
  · rw [if_neg hv]
    exact (if_neg hv).symm

theorem Step.next_le (h : Step c e c') : c.next ≤ c'.next := by
  cases h with
  | serve ip port =>
      rw [serveSock, perform_next]
      exact Nat.le_succ c.next
  | _ => simp [perform_next, replace, onRequestRecvFinished, writeOne, onRequestClosed]

theorem Step.move (h : Step c e c') (hc : c.Routed) : Move c e c' := by
  have hstub : ∀ {t : ReqTask}, t ∈ c.tasks → t.stub.tunnelTx = c.tunnel.tx := fun ht =>
    hc.stubs _ (List.mem_map_of_mem ht)
  cases h with
  | serve ip port =>
      rcases c.tunnel.onRequestCreated_bumps hc.size (Request.withTx c.next c.next) ip port with
        hrefused | ⟨i, tag, hbumps, hfree, hfull | ⟨ts, hmade, htx, rfl, htag⟩⟩
      · rw [serveSock, hrefused]
        exact .quiet (.refl _) rfl rfl
      · rw [serveSock, hfull]
        exact .refused hbumps hfree rfl rfl
      · rw [serveSock, hmade]
        refine .served ts ?_ ?_ htag htx ?_ ?_ ?_
        · rw [perform_tunnel]
          exact hbumps
        · rw [perform_tunnel]
          exact hfree
        · rw [perform_seats]
          rfl
        · rw [perform_next]
          exact Nat.lt_succ_self c.next
        · have hkept : (c.tunnel.onRequestCreated (Request.withTx c.next c.next) ip port).1.tx =
              ts.tunnelTx := hbumps.tx.trans htx.symm
          rw [perform_log, hkept, List.filterMap_cons_some (saidTo_created ts ip port)]
          rfl
  | @read t message effects ht hreceiving hmsg =>
      refine .spoke (s := t.seat) (List.mem_map_of_mem ht) (.inl ⟨rfl, hreceiving⟩) ?_ ?_ ?_
      · rw [perform_tunnel]
        exact .refl _
      · rw [perform_seats]
      · rw [perform_log, ← hstub ht, saidTo_data hmsg]
        rfl
  | @recvEnd t ht hreceiving =>
      refine .finished (s := t.seat) (List.mem_map_of_mem ht) hreceiving ?_ ?_ ?_
      · rw [onRequestRecvFinished, perform_tunnel]
        exact .refl _
      · rw [onRequestRecvFinished, perform_seats]
        exact seats_replace_map c { t with receiving := false }
      · have hkept : (c.replace { t with receiving := false }).tunnel.tx = t.stub.tunnelTx :=
          (hstub ht).symm
        rw [onRequestRecvFinished, perform_log, hkept,
          List.filterMap_cons_some (saidTo_finished t.stub)]
        rfl
  | @deliver t msg rest ht hsending hinbox =>
      obtain ⟨writeOut, hcount | hcount⟩ := ReqServ.countWriteOut_cases t.stub t.writeOut
      · refine .quiet ?_ ?_ ?_
        · rw [writeOne, perform_tunnel]
          exact .refl _
        · rw [writeOne, perform_seats]
          exact seats_replace (t := t) rfl hc.ids ht
        · rw [writeOne, perform_log, hcount]
          exact List.append_nil _
      · refine .spoke (s := t.seat) (List.mem_map_of_mem ht) (.inr rfl) ?_ ?_ ?_
        · rw [writeOne, perform_tunnel]
          exact .refl _
        · rw [writeOne, perform_seats]
          exact seats_replace (t := t) rfl hc.ids ht
        · have hkept : (c.replace { t with inbox := rest, writeOut := writeOut }).tunnel.tx =
              t.stub.tunnelTx := (hstub ht).symm
          rw [writeOne, perform_log, hcount]
          dsimp only
          rw [hkept, List.filterMap_cons_some (saidTo_quota t.stub _)]
          rfl
  | @sendEnd t ht hsending =>
      exact .quiet (.refl _) (seats_replace (t := t) rfl hc.ids ht) rfl
  | @joined t ht hreceiving hsending =>
      have hseats : (c.tasks.filter (·.requestTx ≠ t.requestTx)).map ReqTask.seat =
          c.seats.filter (·.requestTx ≠ t.seat.requestTx) := by
        unfold seats
        rw [List.filter_map]
        rfl
      rcases c.tunnel.release_bumps t.stub.reqIdx t.stub.reqTag with
        ⟨hsame, htag⟩ | ⟨hok, hbumps, hfree⟩
      · have hclosed : c.tunnel.onRequestClosed t.stub = (c.tunnel, []) := by
          rw [Tunnel.onRequestClosed, hsame]
          rfl
        refine .left (s := t.seat) (List.mem_map_of_mem ht) hreceiving htag ?_ ?_ ?_
        · rw [onRequestClosed, perform_tunnel, hclosed]
          exact .refl _
        · rw [onRequestClosed, perform_seats]
          exact hseats
        · rw [onRequestClosed, perform_log, hclosed]
          exact List.append_nil _
      · have hclosed : (c.tunnel.onRequestClosed t.stub).2 =
            [sendRequestClosedToServer t.stub] := if_pos hok
        refine .closed (s := t.seat) (List.mem_map_of_mem ht) hreceiving ?_ ?_ ?_ ?_
        · rw [onRequestClosed, perform_tunnel]
          exact hbumps
        · rw [onRequestClosed, perform_tunnel]
          exact hfree
        · rw [onRequestClosed, perform_seats]
          exact hseats
        · have hkept : (c.tunnel.onRequestClosed t.stub).1.tx = t.stub.tunnelTx :=
            hbumps.tx.trans (hstub ht).symm
          rw [onRequestClosed, perform_log, hclosed]
          dsimp only
          rw [hkept, List.filterMap_cons_some (saidTo_closed t.stub)]
          rfl
  | @frame msg elapsed tunnel effects hmsg =>
      have hquiet : effects.filterMap (saidTo c.tunnel.tx) = [] := by
        rw [List.filterMap_eq_nil_iff]
        intro a ha
        cases a with
        | send tx wmsg =>
            rcases Tunnel.onTunnelMsg_sends hmsg ha with ⟨_, hnone⟩ | ⟨th, _, hget⟩
            · exact saidTo_eq_none hnone
            · exact if_neg (Nat.ne_of_gt (hc.newer.getRequestTx hget))
        | _ => rfl
      have hlog : tunnel.tx = c.tunnel.tx →
          (Conn.perform { c with tunnel := tunnel } effects).log = c.log := by
        intro htx
        rw [perform_log]
        dsimp only
        rw [htx, hquiet]
        exact List.append_nil _
      rcases Tunnel.onTunnelMsg_moves hmsg with hkeeps | ⟨th, hframe, hbumps, hfree⟩
      · refine .quiet ?_ ?_ (hlog hkeeps.tx)
        · rw [perform_tunnel]
          exact hkeeps
        · rw [perform_seats]
          rfl
      · refine .dropped th hframe ?_ ?_ ?_ (hlog hbumps.tx)
        · rw [perform_tunnel]
          exact hbumps
        · rw [perform_tunnel]
          exact hfree
        · rw [perform_seats]
          rfl
  | @foreign ts hold =>
      rcases c.tunnel.release_bumps ts.reqIdx ts.reqTag with ⟨hsame, _⟩ | ⟨hok, hbumps, hfree⟩
      · have hclosed : c.tunnel.onRequestClosed ts = (c.tunnel, []) := by
          rw [Tunnel.onRequestClosed, hsame]
          rfl
        rw [hclosed]
        exact .quiet (.refl _) rfl rfl
      · have hclosed : (c.tunnel.onRequestClosed ts).2 = [sendRequestClosedToServer ts] :=
          if_pos hok
        refine .dropped ts.header rfl ?_ ?_ ?_ ?_
        · rw [perform_tunnel]
          exact hbumps
        · rw [perform_tunnel]
          exact hfree
        · rw [perform_seats]
          rfl
        · have hkept : (c.tunnel.onRequestClosed ts).1.tx = c.tunnel.tx := hbumps.tx
          have hother : saidTo c.tunnel.tx (sendRequestClosedToServer ts) = none :=
            if_neg (Nat.ne_of_lt hold)
          rw [perform_log, hclosed]
          dsimp only
          rw [hkept, List.filterMap_cons_none hother]
          exact List.append_nil _
  | ping elapsed accepted =>
      refine .quiet ?_ ?_ ?_
      · rw [perform_tunnel]
        unfold Tunnel.sendPing
        split
        · exact .refl _
        · split
          · exact ⟨rfl, fun _ => rfl, rfl⟩
          · exact .refl _
      · rw [perform_seats]
        rfl
      · rw [perform_log, saidTo_ping]
        exact List.append_nil _
  | udp payload srcAddr dstAddr =>
      refine .quiet ?_ ?_ ?_
      · rw [perform_tunnel]
        exact .refl _
      · rw [perform_seats]
      · rw [perform_log, List.filterMap_cons_none (saidTo_udp _ _ _ _ _)]
        exact List.append_nil _

/-! ## The channels -/

theorem routed_new {cap : Nat} (hcap : cap ≤ 65536) (tx : Channel) (rawfd : Int) (idx : Nat)
    (requestQuota : UInt16) : (new tx rawfd idx cap requestQuota).Routed where
  size := by
    show (Reqq.new cap).elements.length ≤ 65536
    rw [Reqq.new_length]
    exact hcap
  newer := by
    intro i req ch hslot htx
    rw [(Reqq.new_slot hslot).2] at htx
    cases htx
  next := Nat.lt_succ_self tx
  stubs := nofun
  ids := List.nodup_nil
  old := nofun

/-- Only a new request puts a channel into a slot. -/
theorem Step.loses (h : Step c e c') :
    c.tunnel.Loses c'.tunnel ∨ ∃ ip port, e = .serve ip port ∧ c' = c.serveSock ip port := by
  cases h with
  | serve ip port => exact .inr ⟨ip, port, rfl, rfl⟩
  | @joined t ht hreceiving hsending =>
      left
      rw [onRequestClosed, perform_tunnel]
      exact c.tunnel.loses_release t.stub.reqIdx t.stub.reqTag
  | frame hmsg =>
      left
      rw [perform_tunnel]
      exact Tunnel.loses_onTunnelMsg hmsg
  | @foreign ts hold =>
      left
      rw [perform_tunnel]
      exact c.tunnel.loses_release ts.reqIdx ts.reqTag
  | ping elapsed accepted =>
      left
      rw [perform_tunnel]
      exact Tunnel.loses_of_requests (c.tunnel.alike_sendPing elapsed accepted).requests
  | read ht hreceiving hmsg => exact .inl (Tunnel.loses_of_requests (by rw [perform_tunnel]))
  | recvEnd ht hreceiving =>
      exact .inl (Tunnel.loses_of_requests (by rw [onRequestRecvFinished, perform_tunnel]; rfl))
  | deliver ht hsending hinbox =>
      exact .inl (Tunnel.loses_of_requests (by rw [writeOne, perform_tunnel]; rfl))
  | sendEnd ht hsending => exact .inl (Tunnel.loses_of_requests rfl)
  | udp payload srcAddr dstAddr =>
      exact .inl (Tunnel.loses_of_requests (by rw [perform_tunnel]))

theorem Step.newer (h : Step c e c') (hc : c.Routed) : c'.tunnel.Newer c.tunnel.tx := by
  rcases h.loses with hloses | ⟨ip, port, rfl, rfl⟩
  · exact hc.newer.of_loses hloses
  · rw [serveSock, perform_tunnel]
    exact hc.newer.onRequestCreated hc.next ip port

end Conn

theorem Tunnel.tag_isSome (t : Tunnel) (i : Nat) :
    (t.tag i).isSome = true ↔ i < t.requests.elements.length := by
  simp [Tunnel.tag, Reqq.slot]

/-- The table is as long as it was. -/
theorem Tunnel.length_eq {t t' : Tunnel} (h : ∀ i, (t'.tag i).isSome = (t.tag i).isSome) :
    t'.requests.elements.length = t.requests.elements.length := by
  have hlt := tag_isSome
  have hiff : ∀ i, i < t'.requests.elements.length ↔ i < t.requests.elements.length := by
    intro i
    rw [← hlt, ← hlt, h]
  have hle := (hiff t.requests.elements.length).mp
  have hge := (hiff t'.requests.elements.length).mpr
  omega

theorem Tunnel.Keeps.length {t t' : Tunnel} (h : t.Keeps t') :
    t'.requests.elements.length = t.requests.elements.length :=
  Tunnel.length_eq fun i => by rw [h.tag]

theorem Tunnel.Bumps.length {t t' : Tunnel} {i : Nat} {tag : UInt16} (h : t.Bumps t' i tag) :
    t'.requests.elements.length = t.requests.elements.length := by
  refine Tunnel.length_eq fun j => ?_
  rw [h.tag]
  split
  · rename_i hj
    rw [← hj, h.old]
    rfl
  · rfl

namespace Conn

variable {c c' : Conn} {e : ConnEvent}

/-- The table is as long as it was, and the channel the same. -/
theorem Move.kept (h : Move c e c') :
    c'.tunnel.requests.elements.length = c.tunnel.requests.elements.length ∧
      c'.tunnel.tx = c.tunnel.tx := by
  cases h with
  | quiet hkeeps _ _ => exact ⟨hkeeps.length, hkeeps.tx⟩
  | refused hbumps _ _ _ => exact ⟨hbumps.length, hbumps.tx⟩
  | served _ hbumps _ _ _ _ _ _ => exact ⟨hbumps.length, hbumps.tx⟩
  | spoke _ _ hkeeps _ _ => exact ⟨hkeeps.length, hkeeps.tx⟩
  | finished _ _ hkeeps _ _ => exact ⟨hkeeps.length, hkeeps.tx⟩
  | closed _ _ hbumps _ _ _ => exact ⟨hbumps.length, hbumps.tx⟩
  | left _ _ _ hkeeps _ _ => exact ⟨hkeeps.length, hkeeps.tx⟩
  | dropped _ _ hbumps _ _ _ => exact ⟨hbumps.length, hbumps.tx⟩

/-- A task is the one before, or has just started. -/
theorem Move.origin (h : Move c e c') {s' : Seat} (hs' : s' ∈ c'.seats) :
    (∃ s ∈ c.seats, s'.stub = s.stub ∧ s'.requestTx = s.requestTx) ∨
      s'.stub.tunnelTx = c.tunnel.tx ∧ s'.requestTx = c.next ∧ c.next < c'.next := by
  have hsame : c'.seats = c.seats → ∃ s ∈ c.seats, s'.stub = s.stub ∧ s'.requestTx = s.requestTx :=
    fun hseats => ⟨s', hseats ▸ hs', rfl, rfl⟩
  have hfilter : ∀ tx, c'.seats = c.seats.filter (·.requestTx ≠ tx) →
      ∃ s ∈ c.seats, s'.stub = s.stub ∧ s'.requestTx = s.requestTx := by
    intro tx hseats
    rw [hseats] at hs'
    exact ⟨s', List.mem_of_mem_filter hs', rfl, rfl⟩
  cases h with
  | quiet _ hseats _ => exact .inl (hsame hseats)
  | refused _ _ hseats _ => exact .inl (hsame hseats)
  | served _ _ _ _ htx hseats hnext _ =>
      rw [hseats] at hs'
      rcases List.mem_cons.mp hs' with rfl | hold
      · exact .inr ⟨htx, rfl, hnext⟩
      · exact .inl ⟨s', hold, rfl, rfl⟩
  | spoke _ _ _ hseats _ => exact .inl (hsame hseats)
  | @finished s hs _ _ hseats _ =>
      rw [hseats] at hs'
      obtain ⟨u, hu, rfl⟩ := List.mem_map.mp hs'
      split
      · exact .inl ⟨s, hs, rfl, rfl⟩
      · exact .inl ⟨u, hu, rfl, rfl⟩
  | closed _ _ _ _ hseats _ => exact .inl (hfilter _ hseats)
  | left _ _ _ _ hseats _ => exact .inl (hfilter _ hseats)
  | dropped _ _ _ _ hseats _ => exact .inl (hsame hseats)

theorem Move.ids (h : Move c e c') (hc : c.Routed) : (c'.seats.map Seat.requestTx).Nodup := by
  cases h with
  | quiet _ hseats _ => rw [hseats]; exact hc.ids
  | refused _ _ hseats _ => rw [hseats]; exact hc.ids
  | served _ _ _ _ _ hseats _ _ =>
      rw [hseats, List.map_cons, List.nodup_cons]
      refine ⟨?_, hc.ids⟩
      intro hmem
      obtain ⟨s, hs, hid⟩ := List.mem_map.mp hmem
      exact Nat.ne_of_lt (hc.old s hs) hid
  | spoke _ _ _ hseats _ => rw [hseats]; exact hc.ids
  | @finished s hs _ _ hseats _ =>
      have hmap : c'.seats.map Seat.requestTx = c.seats.map Seat.requestTx := by
        rw [hseats, List.map_map]
        refine List.map_congr_left ?_
        intro u _
        rw [Function.comp_apply]
        split
        · rename_i hu
          exact hu.symm
        · rfl
      rw [hmap]
      exact hc.ids
  | closed _ _ _ _ hseats _ => rw [hseats]; exact hc.ids.sublist (List.filter_sublist.map _)
  | left _ _ _ _ hseats _ => rw [hseats]; exact hc.ids.sublist (List.filter_sublist.map _)
  | dropped _ _ _ _ hseats _ => rw [hseats]; exact hc.ids

theorem Routed.step (hc : c.Routed) (h : Step c e c') : c'.Routed := by
  have hmove := h.move hc
  obtain ⟨hlength, htx⟩ := hmove.kept
  refine ⟨hlength ▸ hc.size, htx ▸ h.newer hc, ?_, ?_, hmove.ids hc, ?_⟩
  · rw [htx]
    exact Nat.lt_of_lt_of_le hc.next h.next_le
  · intro s' hs'
    rw [htx]
    rcases hmove.origin hs' with ⟨s, hs, hstub, _⟩ | ⟨hstub, _⟩
    · rw [hstub]
      exact hc.stubs s hs
    · exact hstub
  · intro s' hs'
    rcases hmove.origin hs' with ⟨s, hs, _, hid⟩ | ⟨_, hid, hnext⟩
    · rw [hid]
      exact Nat.lt_of_lt_of_le (hc.old s hs) h.next_le
    · rw [hid]
      exact hnext

end Conn

end LproxyCv.Tunnels
