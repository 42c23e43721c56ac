import LproxyCv.Dns.Query
import LproxyCv.Dns.Ranges

set_option autoImplicit false

/-!
# Dns: the address of a name

`MyDns` sends its question to a server and takes the first datagram that comes to its socket for
the answer, whoever has sent it.  The number of the question and the name in it are written, and
not looked at again.  An answer is one to the question exactly if that first datagram is
(`answersOwn_iff`); the ones behind it do not matter.
-/

namespace LproxyCv.Dns

open LproxyCv.Foundation LproxyCv.Net BytePacketBuffer

/-! ## The future -/

inductive MyDnsState where
  | init
  | send
  | recv
  | done
  deriving DecidableEq, Repr

/-- A query that is polled. -/
structure MyDnsFuture extends MyDns where
  dnsServerAddress : String
  state : MyDnsState
  result : Option IpAddr
  deriving DecidableEq, Repr

/-- What becomes of a datagram that is sent. -/
inductive SendEvent where
  | pending
  | sent (len : Nat)
  | error (error : IoError)
  deriving DecidableEq, Repr

/-- What comes to a socket. -/
inductive RecvEvent where
  | pending
  | datagram (bytes : Bytes)
  | error (error : IoError)
  deriving DecidableEq, Repr

/-- The socket of a query: of what binding it comes, and what it will send and receive.  When it
has come to an end, nothing is ready. -/
structure DnsSocket where
  bound : Outcome Nat
  sends : List SendEvent
  recvs : List RecvEvent
  deriving DecidableEq

/-- What one pass of the loop of `poll` comes to; with a datagram, if one was received. -/
inductive DnsPass where
  | again (received : Option Bytes)
  | pending
  | ready (ip : IpAddr)
  | err (error : IoError)
  | panic
  | hang
  deriving DecidableEq, Repr

/-- The first address among records. -/
def firstAddr : List DnsRecord → Option Ipv4Addr
  | [] => none
  | .a _ addr _ :: _ => some addr
  | _ :: rest => firstAddr rest

namespace MyDnsFuture

/-- A query for a domain. -/
def new (domain dnsServer : String) : MyDnsFuture where
  domain := domain
  udp := none
  sendBuf := none
  sendLen := 0
  dnsServerAddress := if dnsServer.toList.contains ':' then dnsServer else dnsServer ++ ":53"
  state := .init
  result := none

/-- A domain that is an address is its own result. -/
def procRawip (m : MyDnsFuture) : Bool × MyDnsFuture :=
  match parseIpv4 m.domain.toList with
  | some ip => (true, { m with result := some (.v4 ip) })
  | none => (false, m)

/-- The result is the first address of an answer. -/
def parseResult (unicode : UnicodeLower) (fuel : Nat) (m : MyDnsFuture) (rspbuf : Bytes) :
    Outcome MyDnsFuture :=
  (DnsPacket.fromBuffer unicode fuel ⟨rspbuf, 0⟩).bind fun r =>
    match firstAddr r.1.answers with
    | some addr => .ok { m with result := some (.v4 addr) }
    | none => .err (.custom .other "DnsPacket has no A record")

section Pass

variable (unicode : UnicodeLower) (fuel : Nat) (parse : String → Option SocketAddr)

/-- One pass of the loop of `poll`. -/
def pass (m : MyDnsFuture) (io : DnsSocket) : MyDnsFuture × DnsSocket × DnsPass :=
  match m.state with
  | .init =>
      let r := m.procRawip
      if r.1 then ({ r.2 with state := .done }, io, .again none)
      else
        match r.2.toMyDns.prepareQuery io.bound with
        | .ok q => ({ r.2 with toMyDns := q, state := .send }, io, .again none)
        | .err e => (r.2, io, .err e)
        | .panic => (r.2, io, .panic)
        | .hang => (r.2, io, .hang)
  | .send =>
      match parse m.dnsServerAddress with
      | none => (m, io, .err (.custom .other "target addr parse error"))
      | some _ =>
          if m.udp.isNone || m.sendBuf.isNone then (m, io, .panic)
          else
            match io.sends with
            | [] => (m, io, .pending)
            | .pending :: rest => (m, { io with sends := rest }, .pending)
            | .error e :: rest => (m, { io with sends := rest }, .err e)
            | .sent _ :: rest =>
                ({ m with state := .recv }, { io with sends := rest }, .again none)
  | .recv =>
      if m.udp.isNone then (m, io, .panic)
      else
        match io.recvs with
        | [] => (m, io, .pending)
        | .pending :: rest => (m, { io with recvs := rest }, .pending)
        | .error e :: rest => (m, { io with recvs := rest }, .err e)
        | .datagram bytes :: rest =>
            -- what does not fit into the buffer is cut off
            let rspbuf := bytes.take 512
            match m.parseResult unicode fuel rspbuf with
            | .ok m' =>
                ({ m' with state := .done }, { io with recvs := rest }, .again (some rspbuf))
            | .err e => (m, { io with recvs := rest }, .err e)
            | .panic => (m, { io with recvs := rest }, .panic)
            | .hang => (m, { io with recvs := rest }, .hang)
  | .done =>
      match m.result with
      | some ip => ({ m with sendBuf := none, udp := none, result := none }, io, .ready ip)
      | none => ({ m with sendBuf := none, udp := none }, io, .panic)

/-- `Resolves m io received ip`: the future, polled on whenever it is not ready, completes with an
address, and has received some datagrams by then. -/
inductive Resolves : MyDnsFuture → DnsSocket → List Bytes → IpAddr → Prop where
  | ready {m m' : MyDnsFuture} {io io' : DnsSocket} {ip : IpAddr} :
      m.pass unicode fuel parse io = (m', io', .ready ip) → Resolves m io [] ip
  | again {m m' : MyDnsFuture} {io io' : DnsSocket} {got : Option Bytes} {received : List Bytes}
      {ip : IpAddr} :
      m.pass unicode fuel parse io = (m', io', .again got) → Resolves m' io' received ip →
      Resolves m io (got.toList ++ received) ip
  | pending {m m' : MyDnsFuture} {io io' : DnsSocket} {received : List Bytes} {ip : IpAddr} :
      m.pass unicode fuel parse io = (m', io', .pending) → Resolves m' io' received ip →
      Resolves m io received ip

end Pass

/-! ## What is resolved -/

/-- Whether a datagram is sent, once something becomes of it. -/
def isSent : List SendEvent → Bool
  | [] => false
  | .pending :: rest => isSent rest
  | .sent _ :: _ => true
  | .error _ :: _ => false

/-- The first datagram that is received, unless there is an error before. -/
def firstDatagram : List RecvEvent → Option Bytes
  | [] => none
  | .pending :: rest => firstDatagram rest
  | .datagram bytes :: _ => some bytes
  | .error _ :: _ => none

/-- The query is sent. -/
structure Queried (parse : String → Option SocketAddr) (m : MyDnsFuture) (io : DnsSocket) :
    Prop where
  prepared : ∃ q, m.toMyDns.prepareQuery io.bound = .ok q
  server : (parse m.dnsServerAddress).isSome
  sent : isSent io.sends = true

/-- A message that answers the question for a domain: a response, with the number of the question,
that repeats it. -/
structure OwnAnswer (unicode : UnicodeLower) (domain : String) (p : DnsPacket) : Prop where
  response : p.header.response = true
  id : p.header.id = 6666
  question : ∃ q ∈ p.questions, q.name = lowerName unicode domain

section Runs

variable {unicode : UnicodeLower} {fuel : Nat} {parse : String → Option SocketAddr}
  {m m' : MyDnsFuture} {io io' : DnsSocket} {received : List Bytes} {ip : IpAddr}

theorem resolves_ready {ip' : IpAddr}
    (hpass : m.pass unicode fuel parse io = (m', io', .ready ip')) :
    Resolves unicode fuel parse m io received ip ↔ received = [] ∧ ip = ip' := by
  constructor
  · intro h
    cases h with
    | ready hready =>
        cases hpass.symm.trans hready
        exact ⟨rfl, rfl⟩
    | again hagain _ => cases hpass.symm.trans hagain
    | pending hpending _ => cases hpass.symm.trans hpending
  · rintro ⟨rfl, rfl⟩
    exact .ready hpass

theorem resolves_again {got : Option Bytes}
    (hpass : m.pass unicode fuel parse io = (m', io', .again got)) :
    Resolves unicode fuel parse m io received ip ↔
      ∃ rest, received = got.toList ++ rest ∧ Resolves unicode fuel parse m' io' rest ip := by
  constructor
  · intro h
    cases h with
    | ready hready => cases hpass.symm.trans hready
    | again hagain hrest =>
        cases hpass.symm.trans hagain
        exact ⟨_, rfl, hrest⟩
    | pending hpending _ => cases hpass.symm.trans hpending
  · rintro ⟨rest, rfl, hrest⟩
    exact .again hpass hrest

theorem resolves_pending (hpass : m.pass unicode fuel parse io = (m', io', .pending)) :
    Resolves unicode fuel parse m io received ip ↔
      Resolves unicode fuel parse m' io' received ip := by
  constructor
  · intro h
    cases h with
    | ready hready => cases hpass.symm.trans hready
    | again hagain _ => cases hpass.symm.trans hagain
    | pending hpending hrest =>
        cases hpass.symm.trans hpending
        exact hrest
  · exact .pending hpass

/-- A pass that ends in any other way is the last one. -/
theorem not_resolves {out : DnsPass} (hpass : m.pass unicode fuel parse io = (m', io', out))
    (hout : (∃ e, out = .err e) ∨ out = .panic ∨ out = .hang) :
    ¬ Resolves unicode fuel parse m io received ip := by
  intro h
  cases h with
  | ready hready =>
      cases hpass.symm.trans hready
      simp at hout
  | again hagain _ =>
      cases hpass.symm.trans hagain
      simp at hout
  | pending hpending _ =>
      cases hpass.symm.trans hpending
      simp at hout

/-- At the end of a script, nothing more is resolved. -/
theorem not_resolves_of_stuck (hpass : m.pass unicode fuel parse io = (m, io, .pending)) :
    ¬ Resolves unicode fuel parse m io received ip := by
  intro h
  generalize hm : m = m₀ at h
  generalize hio : io = io₀ at h
  induction h with
  | ready hready =>
      subst hm hio
      cases hpass.symm.trans hready
  | again hagain _ _ =>
      subst hm hio
      cases hpass.symm.trans hagain
  | pending hpending _ ih =>
      subst hm hio
      cases hpass.symm.trans hpending
      exact ih rfl rfl

/-- The result is the first address in the first datagram. -/
def FromFirst (unicode : UnicodeLower) (fuel : Nat) (recvs : List RecvEvent)
    (received : List Bytes) (ip : IpAddr) : Prop :=
  ∃ d p c addr, firstDatagram recvs = some d ∧
    DnsPacket.fromBuffer unicode fuel ⟨d.take 512, 0⟩ = .ok (p, c) ∧
    firstAddr p.answers = some addr ∧ received = [d.take 512] ∧ ip = .v4 addr

theorem resolves_done {ip' : IpAddr} (hstate : m.state = .done) (hresult : m.result = some ip') :
    Resolves unicode fuel parse m io received ip ↔ received = [] ∧ ip = ip' := by
  have hpass : m.pass unicode fuel parse io =
      ({ m with sendBuf := none, udp := none, result := none }, io, .ready ip') := by
    unfold pass
    simp only [hstate, hresult]
  exact resolves_ready hpass

theorem parseResult_eq_ok_iff {rspbuf : Bytes} :
    m.parseResult unicode fuel rspbuf = .ok m' ↔ ∃ p c addr,
      DnsPacket.fromBuffer unicode fuel ⟨rspbuf, 0⟩ = .ok (p, c) ∧
      firstAddr p.answers = some addr ∧ m' = { m with result := some (.v4 addr) } := by
  rw [parseResult, Outcome.bind_eq_ok_iff]
  constructor
  · rintro ⟨⟨p, c⟩, hread, h⟩
    dsimp only at h
    split at h
    · rename_i addr haddr
      cases h
      exact ⟨p, c, addr, hread, haddr, rfl⟩
    · cases h
  · rintro ⟨p, c, addr, hread, haddr, rfl⟩
    refine ⟨(p, c), hread, ?_⟩
    dsimp only
    rw [haddr]

/-- A datagram with an address is the result, and every other one is the end. -/
theorem resolves_recv (hstate : m.state = .recv) (hudp : m.udp ≠ none) :
    Resolves unicode fuel parse m io received ip ↔
      FromFirst unicode fuel io.recvs received ip := by
  have hbound : ¬ m.udp.isNone = true := fun h => hudp (Option.isNone_iff_eq_none.mp h)
  obtain ⟨bound, sends, recvs⟩ := io
  dsimp only
  induction recvs with
  | nil =>
      refine iff_of_false (not_resolves_of_stuck ?_) ?_
      · unfold pass
        simp only [hstate, if_neg hbound]
      · rintro ⟨d, p, c, addr, hfirst, _⟩
        cases hfirst
  | cons event rest ih =>
      cases event with
      | pending =>
          have hpass : m.pass unicode fuel parse ⟨bound, sends, .pending :: rest⟩ =
              (m, ⟨bound, sends, rest⟩, .pending) := by
            unfold pass
            simp only [hstate, if_neg hbound]
          exact (resolves_pending hpass).trans ih
      | error e =>
          have hpass : m.pass unicode fuel parse ⟨bound, sends, .error e :: rest⟩ =
              (m, ⟨bound, sends, rest⟩, .err e) := by
            unfold pass
            simp only [hstate, if_neg hbound]
          refine iff_of_false (not_resolves hpass (.inl ⟨e, rfl⟩)) ?_
          rintro ⟨d, p, c, addr, hfirst, _⟩
          cases hfirst
      | datagram bytes =>
          have hpass : m.pass unicode fuel parse ⟨bound, sends, .datagram bytes :: rest⟩ =
              match m.parseResult unicode fuel (bytes.take 512) with
              | .ok m' =>
                  ({ m' with state := .done }, ⟨bound, sends, rest⟩, .again (some (bytes.take 512)))
              | .err e => (m, ⟨bound, sends, rest⟩, .err e)
              | .panic => (m, ⟨bound, sends, rest⟩, .panic)
              | .hang => (m, ⟨bound, sends, rest⟩, .hang) := by
            unfold pass
            simp only [hstate, if_neg hbound]
          -- what is read of the datagram decides
          have hfirst : FromFirst unicode fuel (.datagram bytes :: rest) received ip ↔
              ∃ m', m.parseResult unicode fuel (bytes.take 512) = .ok m' ∧
                received = [bytes.take 512] ∧ m'.result = some ip := by
            constructor
            · rintro ⟨d, p, c, addr, hd, hread, haddr, hreceived, rfl⟩
              cases hd
              exact ⟨_, parseResult_eq_ok_iff.mpr ⟨p, c, addr, hread, haddr, rfl⟩, hreceived, rfl⟩
            · rintro ⟨m', hparse, hreceived, hresult⟩
              obtain ⟨p, c, addr, hread, haddr, rfl⟩ := parseResult_eq_ok_iff.mp hparse
              cases hresult
              exact ⟨bytes, p, c, addr, rfl, hread, haddr, hreceived, rfl⟩
          rw [hfirst]
          cases hparse : m.parseResult unicode fuel (bytes.take 512) with
          | ok m' =>
              rw [hparse] at hpass
              obtain ⟨p, c, addr, _, _, rfl⟩ := parseResult_eq_ok_iff.mp hparse
              rw [resolves_again hpass]
              constructor
              · rintro ⟨rest', rfl, hrest⟩
                obtain ⟨rfl, rfl⟩ := (resolves_done rfl rfl).mp hrest
                exact ⟨_, rfl, rfl, rfl⟩
              · rintro ⟨m', hm', rfl, hresult⟩
                cases hm'
                cases hresult
                exact ⟨[], rfl, (resolves_done rfl rfl).mpr ⟨rfl, rfl⟩⟩
          | err e =>
              rw [hparse] at hpass
              exact iff_of_false (not_resolves hpass (.inl ⟨e, rfl⟩)) (by simp)
          | panic =>
              rw [hparse] at hpass
              exact iff_of_false (not_resolves hpass (.inr (.inl rfl))) (by simp)
          | hang =>
              rw [hparse] at hpass
              exact iff_of_false (not_resolves hpass (.inr (.inr rfl))) (by simp)

/-- A query that is prepared is sent, if its socket does. -/
theorem resolves_send (hstate : m.state = .send) (hudp : m.udp ≠ none) (hbuf : m.sendBuf ≠ none) :
    Resolves unicode fuel parse m io received ip ↔
      (parse m.dnsServerAddress).isSome ∧ isSent io.sends = true ∧
        FromFirst unicode fuel io.recvs received ip := by
  have hready : ¬ (m.udp.isNone || m.sendBuf.isNone) = true := by
    simpa using ⟨hudp, hbuf⟩
  cases hserver : parse m.dnsServerAddress with
  | none =>
      have hpass : m.pass unicode fuel parse io =
          (m, io, .err (.custom .other "target addr parse error")) := by
        unfold pass
        simp only [hstate, hserver]
      refine iff_of_false (not_resolves hpass (.inl ⟨_, rfl⟩)) ?_
      rintro ⟨hsome, _⟩
      cases hsome
  | some target =>
      obtain ⟨bound, sends, recvs⟩ := io
      dsimp only
      induction sends with
      | nil =>
          refine iff_of_false (not_resolves_of_stuck ?_) ?_
          · unfold pass
            simp only [hstate, hserver, if_neg hready]
          · rintro ⟨_, hsent, _⟩
            cases hsent
      | cons event rest ih =>
          cases event with
          | pending =>
              have hpass : m.pass unicode fuel parse ⟨bound, .pending :: rest, recvs⟩ =
                  (m, ⟨bound, rest, recvs⟩, .pending) := by
                unfold pass
                simp only [hstate, hserver, if_neg hready]
              exact (resolves_pending hpass).trans ih
          | error e =>
              have hpass : m.pass unicode fuel parse ⟨bound, .error e :: rest, recvs⟩ =
                  (m, ⟨bound, rest, recvs⟩, .err e) := by
                unfold pass
                simp only [hstate, hserver, if_neg hready]
              refine iff_of_false (not_resolves hpass (.inl ⟨e, rfl⟩)) ?_
              rintro ⟨_, hsent, _⟩
              cases hsent
          | sent len =>
              have hpass : m.pass unicode fuel parse ⟨bound, .sent len :: rest, recvs⟩ =
                  ({ m with state := .recv }, ⟨bound, rest, recvs⟩, .again none) := by
                unfold pass
                simp only [hstate, hserver, if_neg hready]
              have hrecv : Resolves unicode fuel parse { m with state := .recv }
                  ⟨bound, rest, recvs⟩ received ip ↔ FromFirst unicode fuel recvs received ip :=
                resolves_recv rfl hudp
              rw [resolves_again hpass]
              constructor
              · rintro ⟨received', rfl, hrest⟩
                exact ⟨rfl, rfl, hrecv.mp hrest⟩
              · rintro ⟨_, _, hfirst⟩
                exact ⟨received, rfl, hrecv.mpr hfirst⟩

/-- A query that is prepared has a socket and something to send. -/
theorem prepareQuery_bound {bound : Outcome Nat} {query q : MyDns}
    (h : query.prepareQuery bound = .ok q) : q.udp ≠ none ∧ q.sendBuf ≠ none := by
  unfold MyDns.prepareQuery at h
  obtain ⟨written, _, h⟩ := Outcome.bind_eq_ok_iff.mp h
  obtain ⟨udp, _, h⟩ := Outcome.bind_eq_ok_iff.mp h
  cases h
  exact ⟨nofun, nofun⟩

/-- What a query for a name that is no address comes to. -/
theorem resolves_iff {domain dnsServer : String} (hname : parseIpv4 domain.toList = none) :
    Resolves unicode fuel parse (new domain dnsServer) io received ip ↔
      Queried parse (new domain dnsServer) io ∧ FromFirst unicode fuel io.recvs received ip := by
  have hraw : (new domain dnsServer).procRawip = (false, new domain dnsServer) := by
    unfold procRawip
    rw [show (new domain dnsServer).domain = domain from rfl, hname]
  have hpass : (new domain dnsServer).pass unicode fuel parse io =
      match (new domain dnsServer).toMyDns.prepareQuery io.bound with
      | .ok q => ({ new domain dnsServer with toMyDns := q, state := .send }, io, .again none)
      | .err e => (new domain dnsServer, io, .err e)
      | .panic => (new domain dnsServer, io, .panic)
      | .hang => (new domain dnsServer, io, .hang) := by
    have hstate : (new domain dnsServer).state = .init := rfl
    unfold pass
    simp only [hstate, hraw, Bool.false_eq_true, if_false]
  have hnot : ∀ {out : Outcome MyDns}, (new domain dnsServer).toMyDns.prepareQuery io.bound = out →
      (∀ q, out ≠ .ok q) → ¬ Queried parse (new domain dnsServer) io := by
    rintro out rfl hne ⟨⟨q, hq⟩, _, _⟩
    exact hne q hq
  cases hprepared : (new domain dnsServer).toMyDns.prepareQuery io.bound with
  | ok q =>
      rw [hprepared] at hpass
      obtain ⟨hudp, hbuf⟩ := prepareQuery_bound hprepared
      have hsend : ∀ received, Resolves unicode fuel parse
          { new domain dnsServer with toMyDns := q, state := .send } io received ip ↔
            (parse (new domain dnsServer).dnsServerAddress).isSome ∧ isSent io.sends = true ∧
              FromFirst unicode fuel io.recvs received ip :=
        fun received => resolves_send rfl hudp hbuf
      rw [resolves_again hpass]
      constructor
      · rintro ⟨rest, rfl, hrest⟩
        obtain ⟨hserver, hsent, hfirst⟩ := (hsend _).mp hrest
        exact ⟨⟨⟨q, hprepared⟩, hserver, hsent⟩, hfirst⟩
      · rintro ⟨⟨_, hserver, hsent⟩, hfirst⟩
        exact ⟨received, rfl, (hsend received).mpr ⟨hserver, hsent, hfirst⟩⟩
  | err e =>
      rw [hprepared] at hpass
      exact iff_of_false (not_resolves hpass (.inl ⟨e, rfl⟩)) fun h => hnot hprepared nofun h.1
  | panic =>
      rw [hprepared] at hpass
      exact iff_of_false (not_resolves hpass (.inr (.inl rfl))) fun h => hnot hprepared nofun h.1
  | hang =>
      rw [hprepared] at hpass
      exact iff_of_false (not_resolves hpass (.inr (.inr rfl))) fun h => hnot hprepared nofun h.1

end Runs

/-! ## Answers to the question -/

/-- Whatever a query completes with is an address of a message that it has received, and that
answers its question. -/
def AnswersOwn (unicode : UnicodeLower) (fuel : Nat) (parse : String → Option SocketAddr)
    (m : MyDnsFuture) (io : DnsSocket) : Prop :=
  ∀ received ip, Resolves unicode fuel parse m io received ip → ∃ bs ∈ received, ∃ p c,
    DnsPacket.fromBuffer unicode fuel ⟨bs, 0⟩ = .ok (p, c) ∧ OwnAnswer unicode m.domain p ∧
      ∃ domain addr ttl, .a domain addr ttl ∈ p.answers ∧ ip = .v4 addr

theorem mem_of_firstAddr {records : List DnsRecord} {addr : Ipv4Addr}
    (h : firstAddr records = some addr) : ∃ domain ttl, .a domain addr ttl ∈ records := by
  induction records with
  | nil => cases h
  | cons record rest ih =>
      have hbehind : firstAddr rest = some addr →
          ∃ domain ttl, .a domain addr ttl ∈ record :: rest := by
        intro hrest
        obtain ⟨d, t, hmem⟩ := ih hrest
        exact ⟨d, t, List.mem_cons_of_mem _ hmem⟩
      cases record with
      | a domain addr' ttl =>
          cases h
          exact ⟨domain, ttl, List.mem_cons_self⟩
      | unknown _ _ _ _ => exact hbehind h
      | ns _ _ _ => exact hbehind h
      | cname _ _ _ => exact hbehind h
      | mx _ _ _ _ => exact hbehind h
      | aaaa _ _ _ => exact hbehind h

/-- A query resolves to an answer to its own question exactly if, when it is sent, the first
datagram that comes is one, or has no address. -/
theorem answersOwn_iff (unicode : UnicodeLower) (fuel : Nat) (parse : String → Option SocketAddr)
    (domain dnsServer : String) (io : DnsSocket) (hname : parseIpv4 domain.toList = none) :
    AnswersOwn unicode fuel parse (new domain dnsServer) io ↔
      (Queried parse (new domain dnsServer) io → ∀ d p c addr,
        firstDatagram io.recvs = some d →
        DnsPacket.fromBuffer unicode fuel ⟨d.take 512, 0⟩ = .ok (p, c) →
        firstAddr p.answers = some addr → OwnAnswer unicode domain p) := by
  constructor
  · intro hown hqueried d p c addr hd hread haddr
    have hresolves : Resolves unicode fuel parse (new domain dnsServer) io [d.take 512]
        (.v4 addr) :=
      (resolves_iff hname).mpr ⟨hqueried, d, p, c, addr, hd, hread, haddr, rfl, rfl⟩
    obtain ⟨bs, hmem, p', c', hread', hanswer, _⟩ := hown _ _ hresolves
    obtain rfl := List.mem_singleton.mp hmem
    cases hread.symm.trans hread'
    exact hanswer
  · intro h received ip hresolves
    obtain ⟨hqueried, d, p, c, addr, hd, hread, haddr, rfl, rfl⟩ := (resolves_iff hname).mp hresolves
    obtain ⟨name, ttl, hmem⟩ := mem_of_firstAddr haddr
    exact ⟨d.take 512, List.mem_singleton_self _, p, c, hread,
      h hqueried d p c addr hd hread haddr, name, addr, ttl, hmem, rfl⟩

/-! ## A forged datagram -/

/-- A query that can be written is sent, if its socket is bound and its server is an address. -/
theorem queried_of_short {parse : String → Option SocketAddr} {m : MyDnsFuture} {io : DnsSocket}
    (hlength : (utf8 m.domain).length ≤ 253) (hshort : ∀ l ∈ splitLabels m.domain, ShortLabel l)
    {udp : Nat} (hbound : io.bound = .ok udp) (hserver : (parse m.dnsServerAddress).isSome)
    (hsent : isSent io.sends = true) : Queried parse m io := by
  obtain ⟨p, c, hwrite⟩ :=
    (MyDns.asks_of_short (fun _ c _ => [c]) (m := m.toMyDns) le_rfl hlength hshort).written
  have hprepared := MyDns.prepareQuery_of_write (m := m.toMyDns) hwrite (.ok udp)
  rw [← hbound] at hprepared
  refine ⟨⟨{ m.toMyDns with udp := some udp, sendLen := c.pos, sendBuf := some c.buf }, ?_⟩,
    hserver, hsent⟩
  rw [hprepared, hbound]
  rfl

/-- A server, whose address is parsed as one. -/
def someServer : String → Option SocketAddr := fun _ => some ⟨.v4 ⟨8, 8, 8, 8⟩, 53⟩

/-- The socket of a query that is sent, and to which one datagram comes. -/
def socketOf (datagram : Bytes) : DnsSocket :=
  ⟨.ok 3, [.pending, .sent 32], [.pending, .datagram datagram]⟩

theorem queried_example (datagram : Bytes) :
    Queried someServer (new "example.com" "8.8.8.8") (socketOf datagram) :=
  queried_of_short (m := new "example.com" "8.8.8.8") (by decide +kernel)
    (show ∀ l ∈ splitLabels "example.com", 0 < (utf8 l).length ∧ (utf8 l).length ≤ 52 by
      decide +kernel) rfl rfl rfl

/-- The answer to the question for `example.com`. -/
def genuineAnswer : Bytes :=
  [0x1A, 0x0A, 0x81, 0x80, 0, 1, 0, 1, 0, 0, 0, 0, 7, 0x65, 0x78, 0x61, 0x6D, 0x70, 0x6C, 0x65, 3,
    0x63, 0x6F, 0x6D, 0, 0, 1, 0, 1, 0xC0, 12, 0, 1, 0, 1, 0, 0, 0, 60, 0, 4, 93, 184, 216, 34]

/-- What it says. -/
def genuineAnswered : DnsPacket :=
  { DnsPacket.new with
    header := { DnsHeader.new with
      id := 6666
      recursionDesired := true
      response := true
      recursionAvailable := true
      questions := 1
      answers := 1 }
    questions := [⟨"example.com", .a⟩]
    answers := [.a "example.com" ⟨93, 184, 216, 34⟩ 60] }

theorem answersOwn_genuineAnswer :
    AnswersOwn (fun _ c _ => [c]) 512 someServer (new "example.com" "8.8.8.8")
      (socketOf genuineAnswer) := by
  refine (answersOwn_iff (fun _ c _ => [c]) 512 someServer "example.com" "8.8.8.8"
    (socketOf genuineAnswer) (by decide +kernel)).mpr ?_
  intro _ d p c addr hd hread _
  cases hd
  have hgenuine : DnsPacket.fromBuffer (fun _ c _ => [c]) 512 ⟨genuineAnswer.take 512, 0⟩ =
      .ok (genuineAnswered, ⟨genuineAnswer, 45⟩) := by
    decide +kernel
  cases hgenuine.symm.trans hread
  exact ⟨rfl, rfl, ⟨"example.com", .a⟩, List.mem_singleton_self _, by decide +kernel⟩

/-- A datagram that is no response, has another number and repeats no question; it has an
address. -/
def forgedAnswer : Bytes :=
  [0, 1, 0, 0, 0, 0, 0, 1, 0, 0, 0, 0, 0, 0, 1, 0, 1, 0, 0, 0, 60, 0, 4, 6, 6, 6, 6]

/-- The query completes with that address. -/
theorem forgedAnswer_not_own :
    Resolves (fun _ c _ => [c]) 512 someServer (new "example.com" "8.8.8.8")
      (socketOf forgedAnswer) [forgedAnswer] (.v4 ⟨6, 6, 6, 6⟩) ∧
    ¬ AnswersOwn (fun _ c _ => [c]) 512 someServer (new "example.com" "8.8.8.8")
      (socketOf forgedAnswer) := by
  have hforged : DnsPacket.fromBuffer (fun _ c _ => [c]) 512 ⟨forgedAnswer, 0⟩ =
      .ok (⟨{ DnsHeader.new with id := 1, answers := 1 }, [], [.a "" ⟨6, 6, 6, 6⟩ 60], [], []⟩,
        ⟨forgedAnswer, 27⟩) := by
    decide +kernel
  have hresolves : Resolves (fun _ c _ => [c]) 512 someServer (new "example.com" "8.8.8.8")
      (socketOf forgedAnswer) [forgedAnswer] (.v4 ⟨6, 6, 6, 6⟩) :=
    (resolves_iff (by decide +kernel)).mpr
      ⟨queried_example forgedAnswer, forgedAnswer, _, _, _, rfl, hforged, rfl, rfl, rfl⟩
  refine ⟨hresolves, fun hown => ?_⟩
  obtain ⟨bs, hmem, p, c, hread, hanswer, _⟩ := hown _ _ hresolves
  obtain rfl := List.mem_singleton.mp hmem
  cases hforged.symm.trans hread
  exact absurd hanswer.id (by decide)

end MyDnsFuture

end LproxyCv.Dns
