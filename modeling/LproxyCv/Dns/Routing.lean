import LproxyCv.Config
import LproxyCv.Dns.DnsFrames
import LproxyCv.Dns.Names
import LproxyCv.Dns.Ranges
import LproxyCv.Dns.Resolver

set_option autoImplicit false

/-!
# Dns: where a question goes

The forwarder gives a question to the server, through one of its tunnels, or to the local
DNS server, as the configured domains say.  The answers of the local DNS server go to
whoever has asked.

A call that the forwarder answers with `false` because it is stopped is `discarded`.
-/

namespace LproxyCv.Dns

open LproxyCv.Foundation LproxyCv.Lws LproxyCv.Net LproxyCv.Tunnels

/-- What is put into the tables of the kernel. -/
inductive IpsetEntry where
  | nethash (addr : Ipv4Addr) (mask : UInt8)
  | iphash (addr : Ipv4Addr)
  deriving DecidableEq, Repr

/-- The forwarder with what it routes questions by. -/
structure Router extends Forwarder where
  domap : DomainMap
  dnsServerAddr : SocketAddr
  workAsGlobal : Bool

/-- What becomes of a question. -/
inductive Handling where
  | discarded
  | failed (error : IoError)
  | noQuestion
  /-- it goes to the server, if there is a tunnel -/
  | remote (effect : Option Effect)
  /-- it goes to the local DNS server, if there is a socket -/
  | locally (sent : Option (Channel × Bytes × SocketAddr))
  deriving DecidableEq, Repr

/-- What becomes of an answer of the local DNS server. -/
inductive Answered where
  | discarded
  | failed (error : IoError)
  | noTarget
  /-- it goes to whoever has asked, if there is a socket -/
  | reply (addr : SocketAddr) (sent : Option (Channel × Bytes × SocketAddr))
  deriving DecidableEq, Repr

/-- The mean of the last round trip times. -/
def DnsTunnel.getRtt (t : DnsTunnel) : Int64 :=
  t.rtt.rttSum / Int64.ofNat t.rtt.rttQueue.length

/-- Give an answer to the socket, if there is one. -/
def UdpServer.reply (s : UdpServer) (bm : Bytes) (sa : SocketAddr) :
    Option (Channel × Bytes × SocketAddr) :=
  s.getTx.map fun tx => (tx, bm, sa)

namespace Router

/-- What a range of addresses puts into the tables. -/
def ipsetEntries (ir : IPV4range) : List IpsetEntry :=
  if ir.addr.a = 127 ∨ (224 ≤ ir.addr.a ∧ ir.addr.a ≤ 239) then []
  else if ir.mask < 32 then [.nethash ir.addr ir.mask]
  else [.iphash ir.addr]

/-- The domains of a configuration, and what its ranges put into the tables. -/
def newDomap (domainArray : List String) : DomainMap × List IpsetEntry :=
  domainArray.foldl (fun r it =>
    match ipv4rangeParse it with
    | some ir => (r.1, r.2 ++ ipsetEntries ir)
    | none => (r.1.insert it, r.2)) (DomainMap.new, [])

/-- The address of the local DNS server, with a port. -/
def dnsServerAddress (cfg : Config.TunCfg) : String :=
  if cfg.defaultDnsServer.toList.contains ':' then cfg.defaultDnsServer
  else cfg.defaultDnsServer ++ ":53"

/-- A forwarder with the domains of a configuration.  An address of the local DNS server that is
none is a panic. -/
def new (parse : String → Option SocketAddr) (cfg : Config.TunCfg) (domainArray : List String) :
    Option (Router × List IpsetEntry) :=
  (parse (dnsServerAddress cfg)).map fun addr =>
    let r := newDomap domainArray
    ({ toForwarder := Forwarder.new cfg.toTunCfg
       domap := r.1
       dnsServerAddr := addr
       workAsGlobal := cfg.workAsGlobal }, r.2)

/-- Other domains are configured. -/
def updateDomains (f : Router) (domainArray : List String) : Router × List IpsetEntry :=
  ({ f with domap := (newDomap domainArray).1 }, (newDomap domainArray).2)

/-- The tunnel with the shortest round trip time, of several the first. -/
def allocTunnelForReq (f : Router) : Option DnsTunnel :=
  (f.liveTunnels.foldl (fun r tun => if tun.getRtt < r.2 then (some tun, tun.getRtt) else r)
    (none, Int64.maxValue)).1

/-- A message of a client.  `socket` is what the resolver can start again on, if it has to. -/
def onDnsUdpMsg (unicode : UnicodeLower) (fuel : Nat) (f : Router)
    (socket : Option (Channel × Trigger)) (message : Bytes) (srcAddr : SocketAddr) :
    Outcome (Router × Handling) :=
  if f.discarded then .ok (f, .discarded)
  else
    match DnsPacket.fromBuffer unicode fuel ⟨message, 0⟩ with
    | .ok (p, _) =>
        match p.questions with
        | [] => .ok (f, .noQuestion)
        | q :: _ =>
            if f.workAsGlobal || f.domap.has q.name then
              match f.allocTunnelForReq with
              | none => .ok (f, .remote none)
              | some tun =>
                  match tun.onDnsUdpMsg message srcAddr with
                  | none => .panic
                  | some effect => .ok (f, .remote (some effect))
            else
              let r := f.lresolver.request f.dnsServerAddr socket q.name p.header.id message srcAddr
              .ok ({ f with lresolver := r.1 }, .locally r.2)
    | .err e => .ok (f, .failed e)
    | .panic => .panic
    | .hang => .hang

/-- A message of the local DNS server.  One without a question is a panic. -/
def onResolverUdpMsg (unicode : UnicodeLower) (fuel : Nat) (f : Router) (message : Bytes) :
    Outcome (Router × Answered) :=
  if f.discarded then .ok (f, .discarded)
  else
    match DnsPacket.fromBuffer unicode fuel ⟨message, 0⟩ with
    | .ok (p, _) =>
        match p.questions with
        | [] => .panic
        | q :: _ =>
            let r := f.lresolver.take q.name p.header.id
            let f := { f with lresolver := r.2 }
            match r.1 with
            | some sa => .ok (f, .reply sa (f.server.reply message sa))
            | none => .ok (f, .noTarget)
    | .err e => .ok (f, .failed e)
    | .panic => .panic
    | .hang => .hang

/-- A forwarder starts with the domains it is given. -/
theorem new_updateDomains {parse : String → Option SocketAddr} {cfg : Config.TunCfg}
    {domainArray : List String} {r : Router × List IpsetEntry}
    (h : new parse cfg domainArray = some r) : r.1.updateDomains domainArray = r := by
  obtain ⟨addr, _, rfl⟩ := Option.map_eq_some_iff.mp h
  rfl

end Router

/-- A forwarder without tunnels. -/
def idleRouter : Router :=
  { toForwarder := Forwarder.new (Config.TunCfg.ofValue (.object []) "").toTunCfg
    domap := DomainMap.new
    dnsServerAddr := ⟨.v4 ⟨223, 5, 5, 5⟩, 53⟩
    workAsGlobal := false }

/-! ## What a message says -/

/-- The parser accepts the message, and this is what it says. -/
def Parses (unicode : UnicodeLower) (message : Bytes) (p : DnsPacket) : Prop :=
  ∃ fuel rest, DnsPacket.fromBuffer unicode fuel ⟨message, 0⟩ = .ok (p, rest)

/-- A message says one thing, in however many iterations. -/
theorem fromBuffer_of_parses {unicode : UnicodeLower} {message : Bytes} {p : DnsPacket}
    (h : Parses unicode message p) (fuel : Nat) :
    DnsPacket.fromBuffer unicode fuel ⟨message, 0⟩ = .hang ∨
      ∃ rest, DnsPacket.fromBuffer unicode fuel ⟨message, 0⟩ = .ok (p, rest) := by
  obtain ⟨enough, rest, hok⟩ := h
  have hmono := (DnsPacket.follows_fromBuffer unicode message).mono
  by_cases hhang : DnsPacket.fromBuffer unicode fuel ⟨message, 0⟩ = .hang
  · exact .inl hhang
  · have hmore := hmono fuel enough 0 hhang
    have hless := hmono enough fuel 0 (by rw [hok]; simp)
    rw [Nat.add_comm, hless, hok] at hmore
    exact .inr ⟨rest, hmore.symm⟩

theorem Parses.unique {unicode : UnicodeLower} {message : Bytes} {p p' : DnsPacket}
    (h : Parses unicode message p) (h' : Parses unicode message p') : p = p' := by
  obtain ⟨fuel, rest, hok⟩ := h'
  rcases fromBuffer_of_parses h fuel with hhang | ⟨rest', hok'⟩
  · rw [hhang] at hok
    cases hok
  · rw [hok] at hok'
    cases hok'
    rfl

/-- The header takes twelve bytes. -/
theorem header_ends {b : Bytes} {p q : Nat} {v : Nat × Nat × Nat × Nat}
    (h : (header b).ends p v q) : q = p + 12 := by
  obtain ⟨_, _, ⟨rfl, _⟩, _, _, ⟨rfl, _⟩, _, _, ⟨rfl, _⟩, _, _, ⟨rfl, _⟩, _, _, ⟨rfl, _⟩,
    _, ⟨rfl, _⟩, _⟩ := h
  rfl

/-- The first of several values that are read stands first. -/
theorem head_of_times {α : Type} {x : Reader α} {n : Nat} {c c' : Cursor} {a : α} {as : List α}
    (h : x.times n c = .ok (a :: as, c')) : ∃ c'', x c = .ok (a, c'') := by
  cases n with
  | zero => cases h
  | succ n =>
      rw [Reader.times] at h
      obtain ⟨first, c₁, hfirst, h⟩ := Reader.bind_eq_ok_iff.mp h
      obtain ⟨rest, c₂, _, h⟩ := Reader.bind_eq_ok_iff.mp h
      cases h
      exact ⟨c₁, hfirst⟩

/-- The first question of a message stands behind its header. -/
theorem nameAt_of_parses {unicode : UnicodeLower} {message : Bytes} {p : DnsPacket}
    {question : DnsQuestion} {questions : List DnsQuestion} (h : Parses unicode message p)
    (hquestions : p.questions = question :: questions) :
    ∃ labels last, NameAt message 12 labels last ∧
      question.name = ".".intercalate (labels.map (labelText unicode)) := by
  obtain ⟨fuel, rest, h⟩ := h
  rw [DnsPacket.fromBuffer] at h
  obtain ⟨first, q, _, hends, h⟩ := (DnsHeader.follows_read message).bind_ok fuel h
  obtain rfl : q = 12 := header_ends hends
  obtain ⟨asked, c₁, hasked, h⟩ := Reader.bind_eq_ok_iff.mp h
  have hp : p.questions = asked := by
    simp only [Reader.bind_eq_ok_iff] at h
    obtain ⟨_, _, _, _, _, _, _, _, _, h⟩ := h
    cases h
    rfl
  rw [← hp, hquestions] at hasked
  obtain ⟨c₂, hquestion⟩ := head_of_times hasked
  rw [DnsQuestion.read] at hquestion
  obtain ⟨text, c₃, hname, hquestion⟩ := Reader.bind_eq_ok_iff.mp hquestion
  simp only [Reader.bind_eq_ok_iff] at hquestion
  obtain ⟨_, _, _, _, _, _, hquestion⟩ := hquestion
  cases hquestion
  obtain ⟨labels, last, hnameAt, _, htext⟩ := BytePacketBuffer.nameAt_of_readQname hname
  exact ⟨labels, last, hnameAt, htext⟩

/-- A message that asks for `example.com`. -/
def exampleQuery : Bytes :=
  [0, 7, 1, 0, 0, 1, 0, 0, 0, 0, 0, 0, 7, 0x65, 0x78, 0x61, 0x6D, 0x70, 0x6C, 0x65, 3, 0x63, 0x6F,
    0x6D, 0, 0, 1, 0, 1]

/-- What the parser makes of it. -/
def examplePacket : DnsPacket :=
  { header := ⟨7, true, false, false, 0, false, .noerror, false, false, false, false, 1, 0, 0, 0⟩
    questions := [⟨"example.com", .a⟩]
    answers := []
    authorities := []
    resources := [] }

theorem read_exampleQuery : DnsPacket.fromBuffer (fun _ c _ => [c]) 3 ⟨exampleQuery, 0⟩ =
    .ok (examplePacket, ⟨exampleQuery, 29⟩) := by
  decide +kernel

/-! ## What the forwarder does with a question -/

namespace Router

variable {unicode : UnicodeLower} {f : Router} {fuel : Nat} {message : Bytes} {p : DnsPacket}
  {rest : Cursor} {question : DnsQuestion} {questions : List DnsQuestion}

/-- It gives one that is found to the server, and is as before. -/
theorem onDnsUdpMsg_remote (hrun : f.discarded = false)
    (hread : DnsPacket.fromBuffer unicode fuel ⟨message, 0⟩ = .ok (p, rest))
    (hquestions : p.questions = question :: questions)
    (hfound : (f.workAsGlobal || f.domap.has question.name) = true)
    (socket : Option (Channel × Trigger)) (srcAddr : SocketAddr) :
    ∃ effect, f.onDnsUdpMsg unicode fuel socket message srcAddr = .ok (f, .remote effect) := by
  rw [onDnsUdpMsg, if_neg (Bool.eq_false_iff.mp hrun), hread]
  simp only [hquestions, hfound, if_true]
  cases f.allocTunnelForReq with
  | none => exact ⟨_, rfl⟩
  | some tun =>
      obtain ⟨buf, hbuf⟩ : ∃ buf, DnsTunnel.dnsBuf message srcAddr = some buf :=
        ⟨_, DnsTunnel.dnsBuf_eq message srcAddr⟩
      simp only [DnsTunnel.onDnsUdpMsg, hbuf]
      exact ⟨_, rfl⟩

/-- It gives another to the resolver. -/
theorem onDnsUdpMsg_locally (hrun : f.discarded = false)
    (hread : DnsPacket.fromBuffer unicode fuel ⟨message, 0⟩ = .ok (p, rest))
    (hquestions : p.questions = question :: questions)
    (hfound : (f.workAsGlobal || f.domap.has question.name) = false)
    (socket : Option (Channel × Trigger)) (srcAddr : SocketAddr) :
    f.onDnsUdpMsg unicode fuel socket message srcAddr =
      let r := f.lresolver.request f.dnsServerAddr socket question.name p.header.id message srcAddr
      .ok ({ f with lresolver := r.1 }, .locally r.2) := by
  rw [onDnsUdpMsg, if_neg (Bool.eq_false_iff.mp hrun), hread]
  simp only [hquestions, hfound, Bool.false_eq_true, if_false]

/-- What is no question it leaves. -/
theorem onDnsUdpMsg_left (hrun : f.discarded = false)
    (hnone : ∀ p rest, DnsPacket.fromBuffer unicode fuel ⟨message, 0⟩ = .ok (p, rest) →
      p.questions = [])
    {socket : Option (Channel × Trigger)} {srcAddr : SocketAddr} {r : Router × Handling}
    (h : f.onDnsUdpMsg unicode fuel socket message srcAddr = .ok r) :
    r.1 = f ∧ ∀ sent, r.2 ≠ .locally sent := by
  rw [onDnsUdpMsg, if_neg (Bool.eq_false_iff.mp hrun)] at h
  cases hread : DnsPacket.fromBuffer unicode fuel ⟨message, 0⟩ with
  | ok r =>
      rw [hread] at h
      simp only [hnone r.1 r.2 hread] at h
      cases h
      exact ⟨rfl, by simp⟩
  | err e =>
      rw [hread] at h
      cases h
      exact ⟨rfl, by simp⟩
  | panic => simp [hread] at h
  | hang => simp [hread] at h

end Router

end LproxyCv.Dns
