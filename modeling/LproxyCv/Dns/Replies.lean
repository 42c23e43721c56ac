import LproxyCv.Dns.FwdTasks
import LproxyCv.Dns.Routing
import LproxyCv.Foundation.Desk
import LproxyCv.Foundation.Run

set_option autoImplicit false

/-!
# Dns: the answers of the local DNS server

A question that goes to the local DNS server is passed on with the number its client gave
it, and its client is noted under the name and the number.  So two clients that ask for one
name with one number cannot be told apart, when one asks before the other is answered.

The local DNS server answers each question once, in any order, with the number and the
first question it was asked.  `replies_fair_iff` says in which runs each client gets the
answers to its own questions.
-/

namespace LproxyCv.Dns

open LproxyCv.Foundation LproxyCv.Lws LproxyCv.Net LproxyCv.Tunnels

/-! ## The resolver -/

namespace LocalResolver

/-- A question can be passed on: there is a channel, or the resolver can start again. -/
def CanPass (r : LocalResolver) (socket : Option (Channel × Trigger)) : Prop :=
  r.getTx.isSome ∨ (r.fw = true ∧ socket.isSome)

variable {r : LocalResolver} {socket : Option (Channel × Trigger)}

/-- A question that is passed on is noted. -/
theorem request_of_canPass (h : r.CanPass socket) (dnsServerAddr : SocketAddr) (qname : String)
    (identify : UInt16) (bm : Bytes) (srcAddr : SocketAddr) :
    ∃ sent, (r.request dnsServerAddr socket qname identify bm srcAddr).2 = some sent ∧
      (r.request dnsServerAddr socket qname identify bm srcAddr).1.notes =
        r.notes.put (qname, identify) srcAddr := by
  cases htx : r.getTx with
  | some tx =>
      rw [request_of_getTx htx]
      exact ⟨_, rfl, notes_insert srcAddr⟩
  | none =>
      obtain ⟨hfw, hsocket⟩ := h.resolve_left (by simp [htx])
      obtain ⟨⟨tx, trigger⟩, rfl⟩ := Option.isSome_iff_exists.mp hsocket
      have hrequest : r.request dnsServerAddr (some (tx, trigger)) qname identify bm srcAddr =
          (start r (some (tx, trigger))).2.ask dnsServerAddr qname identify bm srcAddr := by
        rw [request, htx]
        exact if_pos hfw
      rw [hrequest]
      exact ⟨_, rfl, notes_insert srcAddr⟩

/-- A question that is not passed on leaves no note. -/
theorem request_of_not_canPass (h : ¬ r.CanPass socket) (dnsServerAddr : SocketAddr)
    (qname : String) (identify : UInt16) (bm : Bytes) (srcAddr : SocketAddr) :
    (r.request dnsServerAddr socket qname identify bm srcAddr).2 = none ∧
      (r.request dnsServerAddr socket qname identify bm srcAddr).1.notes = r.notes := by
  have htx : r.getTx = none := by
    cases htx : r.getTx with
    | none => rfl
    | some tx => exact absurd (.inl (by simp [htx])) h
  unfold request
  rw [htx]
  dsimp only
  split
  · rename_i hfw
    cases socket with
    | none => exact ⟨rfl, rfl⟩
    | some s => exact absurd (.inr ⟨hfw, rfl⟩) h
  · exact ⟨rfl, rfl⟩

end LocalResolver

/-! ## The forwarder -/

namespace Router

/-- A keepalive tick. -/
def keepalive (parses : String → Bool) (f : Router) (elapsed : Channel → UInt64)
    (sent : Channel → Bool) : Option (Router × List DnsConnectTask × List Effect) :=
  (f.toForwarder.keepalive parses elapsed sent).map fun r => ({ f with toForwarder := r.1 }, r.2)

/-- The forwarder is not stopped, and can answer its clients. -/
def Live (f : Router) : Prop := f.discarded = false ∧ f.server.getTx.isSome

/-- The notes of a forwarder, and what it answers its clients through, are those of another. -/
structure Alike (f f' : Router) : Prop where
  notes : f'.lresolver.notes = f.lresolver.notes
  server : f'.server = f.server
  discarded : f'.discarded = f.discarded

theorem Alike.live {f f' : Router} (h : Alike f f') (hlive : f.Live) : f'.Live := by
  obtain ⟨hrun, htx⟩ := hlive
  exact ⟨h.discarded.trans hrun, h.server ▸ htx⟩

/-- A tick ages the notes. -/
theorem keepalive_alike {parses : String → Bool} {f : Router} {elapsed : Channel → UInt64}
    {sent : Channel → Bool} {r : Router × List DnsConnectTask × List Effect} (hlive : f.Live)
    (h : f.keepalive parses elapsed sent = some r) :
    Alike { f with lresolver := f.lresolver.keepalive } r.1 := by
  obtain ⟨r, hr, rfl⟩ := Option.map_eq_some_iff.mp h
  unfold Forwarder.keepalive at hr
  simp only [hlive.1, Bool.false_eq_true, if_false, Option.bind_eq_bind,
    Option.bind_eq_some_iff] at hr
  obtain ⟨⟨f', tasks⟩, hreconnect, hr⟩ := hr
  cases hr
  rw [Forwarder.processReconnect_eq] at hreconnect
  split at hreconnect
  · cases hreconnect
    exact ⟨rfl, rfl, hlive.1.symm⟩
  · split at hreconnect
    · cases hreconnect
      exact ⟨rfl, rfl, hlive.1.symm⟩
    · cases hreconnect

end Router

/-! ## Questions and answers -/

/-- A message whose first question has this name, and which has this number. -/
def Says (unicode : UnicodeLower) (message : Bytes) (key : String × UInt16) : Prop :=
  ∃ p question questions, Parses unicode message p ∧ p.questions = question :: questions ∧
    key = (question.name, p.header.id)

/-- An answer goes to a client. -/
def Delivers (unicode : UnicodeLower) (f : Router) (message : Bytes) (client : SocketAddr) : Prop :=
  ∃ enough, ∀ fuel, enough ≤ fuel → ∃ f' tx,
    f.onResolverUdpMsg unicode fuel message = .ok (f', .reply client (some (tx, message, client)))

/-- The question of a message is one for the local DNS server. -/
def Router.AsksLocally (f : Router) (socket : Option (Channel × Trigger))
    (key : String × UInt16) : Prop :=
  f.workAsGlobal = false ∧ f.domap.has key.1 = false ∧ f.lresolver.CanPass socket

theorem Says.unique {unicode : UnicodeLower} {message : Bytes} {key key' : String × UInt16}
    (h : Says unicode message key) (h' : Says unicode message key') : key = key' := by
  obtain ⟨p, question, questions, hp, hquestions, rfl⟩ := h
  obtain ⟨p', question', questions', hp', hquestions', rfl⟩ := h'
  cases hp.unique hp'
  cases hquestions.symm.trans hquestions'
  rfl

section Handlers

variable {unicode : UnicodeLower} {f f' : Router} {fuel : Nat} {message : Bytes}
  {key : String × UInt16}

theorem says_of_fromBuffer {p : DnsPacket} {rest : Cursor} {question : DnsQuestion}
    {questions : List DnsQuestion}
    (h : DnsPacket.fromBuffer unicode fuel ⟨message, 0⟩ = .ok (p, rest))
    (hquestions : p.questions = question :: questions) :
    Says unicode message (question.name, p.header.id) :=
  ⟨p, question, questions, ⟨fuel, rest, h⟩, hquestions, rfl⟩

/-- What a message says is read, in however many iterations. -/
theorem Says.read (h : Says unicode message key) (fuel : Nat) :
    DnsPacket.fromBuffer unicode fuel ⟨message, 0⟩ = .hang ∨ ∃ p rest question questions,
      DnsPacket.fromBuffer unicode fuel ⟨message, 0⟩ = .ok (p, rest) ∧
        p.questions = question :: questions ∧ key = (question.name, p.header.id) := by
  obtain ⟨p, question, questions, hp, hquestions, hkey⟩ := h
  refine (fromBuffer_of_parses hp fuel).imp_right ?_
  rintro ⟨rest, hread⟩
  exact ⟨p, rest, question, questions, hread, hquestions, hkey⟩

/-- What the forwarder does with a message of a client: it passes a question on to the local DNS
server and notes it, or changes no note. -/
theorem onDnsUdpMsg_cases (hlive : f.Live) {socket : Option (Channel × Trigger)}
    {client : SocketAddr} {handling : Handling}
    (h : f.onDnsUdpMsg unicode fuel socket message client = .ok (f', handling)) :
    (∃ key sent, Says unicode message key ∧ f.AsksLocally socket key ∧
      handling = .locally (some sent) ∧
        Router.Alike { f with lresolver := f'.lresolver } f' ∧
          f'.lresolver.notes = f.lresolver.notes.put key client) ∨
    ((∀ sent, handling ≠ .locally (some sent)) ∧ Router.Alike f f' ∧
      ∀ key, Says unicode message key → ¬ f.AsksLocally socket key) := by
  by_cases hask : ∃ p rest question questions,
      DnsPacket.fromBuffer unicode fuel ⟨message, 0⟩ = .ok (p, rest) ∧
        p.questions = question :: questions
  · obtain ⟨p, rest, question, questions, hread, hquestions⟩ := hask
    have hmsg := says_of_fromBuffer hread hquestions
    cases hfound : f.workAsGlobal || f.domap.has question.name with
    | true =>
        obtain ⟨effect, heffect⟩ :=
          Router.onDnsUdpMsg_remote hlive.1 hread hquestions hfound socket client
        cases h.symm.trans heffect
        refine .inr ⟨by simp, ⟨rfl, rfl, rfl⟩, ?_⟩
        rintro key hkey ⟨hglobal, hhas, _⟩
        cases hkey.unique hmsg
        rw [hglobal, hhas] at hfound
        cases hfound
    | false =>
        obtain ⟨hglobal, hhas⟩ := Bool.or_eq_false_iff.mp hfound
        cases h.symm.trans (Router.onDnsUdpMsg_locally hlive.1 hread hquestions hfound socket client)
        by_cases hpass : f.lresolver.CanPass socket
        · obtain ⟨sent, hsent, hnotes⟩ := LocalResolver.request_of_canPass hpass f.dnsServerAddr
            question.name p.header.id message client
          exact .inl ⟨_, sent, hmsg, ⟨hglobal, hhas, hpass⟩, congrArg _ hsent, ⟨rfl, rfl, rfl⟩,
            hnotes⟩
        · obtain ⟨hsent, hnotes⟩ := LocalResolver.request_of_not_canPass hpass f.dnsServerAddr
            question.name p.header.id message client
          exact .inr ⟨fun sent heq => by simp [hsent] at heq, ⟨hnotes, rfl, rfl⟩,
            fun _ _ hasks => hpass hasks.2.2⟩
  · obtain ⟨hsame, hhandling⟩ := Router.onDnsUdpMsg_left hlive.1 (fun p rest hread => by
      by_contra hne
      obtain ⟨question, questions, hquestions⟩ := List.exists_cons_of_ne_nil hne
      exact hask ⟨p, rest, question, questions, hread, hquestions⟩) h
    have hsilent : ∀ key, ¬ Says unicode message key := by
      intro key hmsg
      rcases hmsg.read fuel with hhang | ⟨p, rest, question, questions, hread, hquestions, _⟩
      · rw [Router.onDnsUdpMsg, if_neg (Bool.eq_false_iff.mp hlive.1), hhang] at h
        cases h
      · exact hask ⟨p, rest, question, questions, hread, hquestions⟩
    cases hsame
    exact .inr ⟨fun sent => hhandling _, ⟨rfl, rfl, rfl⟩,
      fun key hmsg _ => hsilent key hmsg⟩

/-- What becomes of an answer whose note says this. -/
def answeredBy (message : Bytes) (tx : Channel) : Option SocketAddr → Answered
  | some sa => .reply sa (some (tx, message, sa))
  | none => .noTarget

/-- What the forwarder does with an answer: it takes the note, and gives the answer to its
client if there is one. -/
theorem onResolverUdpMsg_of_says (hlive : f.Live) (hmsg : Says unicode message key) :
    ∃ f' tx, Router.Alike { f with lresolver := f'.lresolver } f' ∧
      f'.lresolver.notes = (f.lresolver.notes.take key).2 ∧ ∀ fuel,
        f.onResolverUdpMsg unicode fuel message = .hang ∨
          f.onResolverUdpMsg unicode fuel message =
            .ok (f', answeredBy message tx (f.lresolver.notes.take key).1) := by
  obtain ⟨p, question, questions, hp, hquestions, rfl⟩ := hmsg
  obtain ⟨tx, htx⟩ := Option.isSome_iff_exists.mp hlive.2
  have htake := LocalResolver.notes_take f.lresolver question.name p.header.id
  refine ⟨{ f with lresolver := (f.lresolver.take question.name p.header.id).2 }, tx,
    ⟨rfl, rfl, rfl⟩, (congrArg Prod.snd htake).symm, fun fuel => ?_⟩
  rw [htake, Router.onResolverUdpMsg, if_neg (Bool.eq_false_iff.mp hlive.1)]
  rcases fromBuffer_of_parses hp fuel with hhang | ⟨rest, hread⟩
  · rw [hhang]
    exact .inl rfl
  · rw [hread]
    refine .inr ?_
    simp only [hquestions]
    cases (f.lresolver.take question.name p.header.id).1 with
    | none => rfl
    | some sa => simp only [UdpServer.reply, htx, Option.map_some, answeredBy]

/-- An answer goes to the client that is noted. -/
theorem delivers_iff (hlive : f.Live) (hmsg : Says unicode message key) {client : SocketAddr} :
    Delivers unicode f message client ↔ (f.lresolver.notes.take key).1 = some client := by
  obtain ⟨f', tx, _, _, hanswer⟩ := onResolverUdpMsg_of_says hlive hmsg
  obtain ⟨p, question, questions, ⟨enough, rest, hread⟩, hquestions, _⟩ := hmsg
  have hmore : ∀ fuel, enough ≤ fuel → f.onResolverUdpMsg unicode fuel message ≠ .hang := by
    intro fuel hle
    obtain ⟨more, rfl⟩ := Nat.exists_eq_add_of_le hle
    rw [Router.onResolverUdpMsg, if_neg (Bool.eq_false_iff.mp hlive.1),
      (DnsPacket.follows_fromBuffer unicode message).ok_more hread more]
    simp only [hquestions]
    cases (f.lresolver.take question.name p.header.id).1 <;> simp
  constructor
  · rintro ⟨enough', h⟩
    obtain ⟨f'', tx', hok⟩ := h (max enough enough') (Nat.le_max_right _ _)
    have heq := (hanswer _).resolve_left (hmore _ (Nat.le_max_left enough enough'))
    rw [hok] at heq
    cases htake : (f.lresolver.notes.take key).1 with
    | none => simp [htake, answeredBy] at heq
    | some sa =>
        simp only [htake, answeredBy, Outcome.ok.injEq, Prod.mk.injEq, Answered.reply.injEq] at heq
        rw [heq.2.1]
  · intro htake
    refine ⟨enough, fun fuel hle => ⟨f', tx, ?_⟩⟩
    rw [(hanswer fuel).resolve_left (hmore fuel hle), htake, answeredBy]

end Handlers

/-! ## Runs -/

/-- The forwarder, and the questions that the local DNS server has not answered. -/
structure ResolverWorld where
  fwd : Router
  requests : List (Request (String × UInt16) SocketAddr)

/-- What happens. -/
inductive ResolverEvent where
  /-- a message of a client -/
  | query (fuel : Nat) (socket : Option (Channel × Trigger)) (message : Bytes) (client : SocketAddr)
  /-- the answer to a question -/
  | reply (fuel i : Nat) (message : Bytes)
  | keepalive (elapsed : Channel → UInt64) (sent : Channel → Bool)
  /-- something that changes no note: a tunnel, other domains, the socket of the resolver -/
  | other

namespace ResolverWorld

/-- The questions, and the notes of who has asked them. -/
def desk (w : ResolverWorld) : Desk (String × UInt16) SocketAddr :=
  ⟨w.fwd.lresolver.notes, w.requests⟩

/-- What a world can do.  Of the answers it is assumed that they have the number and the first
question of their question. -/
inductive Step (unicode : UnicodeLower) (parses : String → Bool) :
    ResolverWorld → ResolverEvent → ResolverWorld → Prop where
  | asked {w : ResolverWorld} {f : Router} {fuel : Nat} {socket : Option (Channel × Trigger)}
      {message : Bytes} {client : SocketAddr} {sent : Channel × Bytes × SocketAddr}
      {key : String × UInt16} :
      w.fwd.onDnsUdpMsg unicode fuel socket message client = .ok (f, .locally (some sent)) →
      Says unicode message key →
      Step unicode parses w (.query fuel socket message client)
        ⟨f, w.requests ++ [⟨key, client, 0⟩]⟩
  | handled {w : ResolverWorld} {f : Router} {fuel : Nat} {socket : Option (Channel × Trigger)}
      {message : Bytes} {client : SocketAddr} {handling : Handling} :
      w.fwd.onDnsUdpMsg unicode fuel socket message client = .ok (f, handling) →
      (∀ sent, handling ≠ .locally (some sent)) →
      Step unicode parses w (.query fuel socket message client) ⟨f, w.requests⟩
  | replied {w : ResolverWorld} {f : Router} {fuel i : Nat} {message : Bytes}
      {a : Request (String × UInt16) SocketAddr} {answered : Answered} :
      w.requests[i]? = some a → Says unicode message a.key →
      w.fwd.onResolverUdpMsg unicode fuel message = .ok (f, answered) →
      Step unicode parses w (.reply fuel i message) ⟨f, w.requests.eraseIdx i⟩
  | kept {w : ResolverWorld} {elapsed : Channel → UInt64} {sent : Channel → Bool}
      {r : Router × List DnsConnectTask × List Effect} :
      w.fwd.keepalive parses elapsed sent = some r →
      Step unicode parses w (.keepalive elapsed sent) ⟨r.1, w.requests.map Request.tick⟩
  | other {w : ResolverWorld} {f : Router} : Router.Alike w.fwd f →
      Step unicode parses w .other ⟨f, w.requests⟩

/-- The forwarder has just started, and nobody has asked. -/
structure Started (w : ResolverWorld) : Prop where
  live : w.fwd.Live
  memo : w.fwd.lresolver.requestMemo = []
  history : w.fwd.lresolver.requestMemoHistory = []
  requests : w.requests = []

/-- A forwarder that has bound its sockets has just started. -/
theorem started_of_init {parse : String → Option SocketAddr} {parses : String → Bool}
    {cfg : Config.TunCfg} {domainArray : List String} {r : Router × List IpsetEntry}
    {trigger : Trigger} {udp resolver : Channel × Trigger} {f : Forwarder}
    {tasks : List DnsConnectTask} (hnew : Router.new parse cfg domainArray = some r)
    (hinit : r.1.toForwarder.init parses trigger (some udp) (some resolver) =
      some (true, f, tasks)) : Started ⟨{ r.1 with toForwarder := f }, []⟩ := by
  obtain ⟨addr, _, rfl⟩ := Option.map_eq_some_iff.mp hnew
  simp only [Forwarder.init, Option.bind_eq_bind, Option.bind_eq_some_iff] at hinit
  obtain ⟨_, _, hinit⟩ := hinit
  cases hinit
  exact ⟨⟨rfl, rfl⟩, rfl, rfl, rfl⟩

/-- An answer that came now would go to the client that has asked; one that comes after the
second tick may go to nobody, but not to another. -/
def RepliesFair (unicode : UnicodeLower) (w : ResolverWorld) : Prop :=
  ∀ a ∈ w.requests, ∀ message, Says unicode message a.key →
    (a.ticks < 2 → Delivers unicode w.fwd message a.owner) ∧
      ∀ client, Delivers unicode w.fwd message client → client = a.owner

/-- No question for the local DNS server comes with the name and number of one that another
client has asked and that is not answered.  And a question is answered only when there are two
notes of its name and number, or no other question with them waits for an answer. -/
def Apart (unicode : UnicodeLower) (w : ResolverWorld) : ResolverEvent → Prop
  | .query _ socket message client => ∀ key, Says unicode message key →
      w.fwd.AsksLocally socket key → w.desk.Alone key client
  | .reply _ i _ => ∀ a, w.requests[i]? = some a → w.desk.Enough i a.key
  | _ => True

/-- What is kept. -/
structure Orderly (unicode : UnicodeLower) (w : ResolverWorld) : Prop where
  live : w.fwd.Live
  books : w.desk.Books
  known : ∀ a ∈ w.requests, ∃ message, Says unicode message a.key

variable {unicode : UnicodeLower} {parses : String → Bool} {w w' : ResolverWorld}
  {e : ResolverEvent}

/-- The answers go where the notes say. -/
theorem repliesFair_iff (hlive : w.fwd.Live)
    (hknown : ∀ a ∈ w.requests, ∃ message, Says unicode message a.key) :
    w.RepliesFair unicode ↔ w.desk.Fair := by
  constructor
  · intro h a ha
    obtain ⟨message, hmessage⟩ := hknown a ha
    obtain ⟨hown, hother⟩ := h a ha message hmessage
    exact ⟨fun hticks => (delivers_iff hlive hmessage).mp (hown hticks),
      fun v hv => hother v ((delivers_iff hlive hmessage).mpr hv)⟩
  · intro h a ha message hmessage
    obtain ⟨hown, hother⟩ := h a ha
    exact ⟨fun hticks => (delivers_iff hlive hmessage).mpr (hown hticks),
      fun client hclient => hother client ((delivers_iff hlive hmessage).mp hclient)⟩

theorem Started.orderly (h : w.Started) : w.Orderly unicode := by
  have hnotes : w.fwd.lresolver.notes = Generations.empty := by
    unfold LocalResolver.notes
    rw [h.memo, h.history]
    rfl
  have hnone : ∀ a, a ∉ w.requests := fun a => h.requests ▸ List.not_mem_nil
  refine ⟨h.live, ⟨fun a ha => absurd ha (hnone a), fun a ha => absurd ha (hnone a),
    fun a ha => absurd ha (hnone a), fun k => ?_⟩, fun a ha => absurd ha (hnone a)⟩
  rw [desk, hnotes]
  exact Nat.zero_le _

/-- What an event does to the questions and the notes. -/
inductive Moves (unicode : UnicodeLower) (w : ResolverWorld) :
    ResolverEvent → Desk (String × UInt16) SocketAddr → Prop where
  | ask {fuel : Nat} {socket : Option (Channel × Trigger)} {message : Bytes} {client : SocketAddr}
      {key : String × UInt16} : Says unicode message key → w.fwd.AsksLocally socket key →
      Moves unicode w (.query fuel socket message client) (w.desk.ask key client)
  | leave {fuel : Nat} {socket : Option (Channel × Trigger)} {message : Bytes}
      {client : SocketAddr} : (∀ key, Says unicode message key → ¬ w.fwd.AsksLocally socket key) →
      Moves unicode w (.query fuel socket message client) w.desk
  | answer {fuel i : Nat} {message : Bytes} {a : Request (String × UInt16) SocketAddr} :
      w.requests[i]? = some a → Moves unicode w (.reply fuel i message) (w.desk.answer i a.key)
  | age {elapsed : Channel → UInt64} {sent : Channel → Bool} :
      Moves unicode w (.keepalive elapsed sent) w.desk.age
  | other : Moves unicode w .other w.desk

theorem desk_eq {f : Router} {requests : List (Request (String × UInt16) SocketAddr)}
    {notes : Generations (String × UInt16) SocketAddr} (h : f.lresolver.notes = notes) :
    (⟨f, requests⟩ : ResolverWorld).desk = ⟨notes, requests⟩ := by
  rw [desk, h]

/-- What a step does: the forwarder stays live, the questions are those of messages, and of the
questions and the notes it does one of these. -/
theorem Step.moves (hstep : Step unicode parses w e w') (h : w.Orderly unicode) :
    w'.fwd.Live ∧ (∀ a ∈ w'.requests, ∃ message, Says unicode message a.key) ∧
      Moves unicode w e w'.desk := by
  cases hstep with
  | asked hok hmsg =>
      rcases onDnsUdpMsg_cases h.live hok with ⟨key', _, hmsg', hlocal, _, halike, hnotes⟩ | ⟨hno, _⟩
      · cases hmsg.unique hmsg'
        refine ⟨halike.live h.live, fun a ha => ?_, ?_⟩
        · rcases List.mem_append.mp ha with ha | ha
          · exact h.known a ha
          · rw [List.mem_singleton.mp ha]
            exact ⟨_, hmsg⟩
        · rw [desk_eq hnotes]
          exact .ask hmsg hlocal
      · exact absurd rfl (hno _)
  | handled hok hno =>
      rcases onDnsUdpMsg_cases h.live hok with ⟨_, _, _, _, hlocal, _⟩ | ⟨_, halike, hleave⟩
      · exact absurd hlocal (hno _)
      · refine ⟨halike.live h.live, h.known, ?_⟩
        rw [desk_eq halike.notes]
        exact .leave hleave
  | replied hi hmsg hok =>
      obtain ⟨f', tx, halike, hnotes, hanswer⟩ := onResolverUdpMsg_of_says h.live hmsg
      rcases hanswer _ with hhang | hanswer
      · cases hhang.symm.trans hok
      · cases hanswer.symm.trans hok
        refine ⟨halike.live h.live, fun a ha => h.known a (List.mem_of_mem_eraseIdx ha), ?_⟩
        rw [desk_eq hnotes]
        exact .answer hi
  | kept hok =>
      have halike := Router.keepalive_alike h.live hok
      refine ⟨halike.live h.live, fun a ha => ?_, ?_⟩
      · obtain ⟨b, hb, rfl⟩ := List.mem_map.mp ha
        exact h.known b hb
      · rw [desk_eq halike.notes]
        exact .age
  | other halike =>
      refine ⟨halike.live h.live, h.known, ?_⟩
      rw [desk_eq halike.notes]
      exact .other

/-- A step leads to a fair state exactly when the questions are kept apart. -/
theorem Moves.fair_iff {d : Desk (String × UInt16) SocketAddr} (hmoves : Moves unicode w e d)
    (hbooks : w.desk.Books) : d.Fair ↔ w.Apart unicode e := by
  cases hmoves with
  | ask hmsg hlocal =>
      rw [hbooks.ask_fair_iff]
      refine ⟨fun halone key hkey _ => ?_, fun hapart => hapart _ hmsg hlocal⟩
      rwa [hkey.unique hmsg]
  | leave hleave =>
      exact iff_of_true hbooks.fair fun key hkey hlocal => absurd hlocal (hleave key hkey)
  | answer hi =>
      rw [hbooks.answer_fair_iff hi]
      refine ⟨fun henough a ha => ?_, fun hapart => hapart _ hi⟩
      cases hi.symm.trans ha
      exact henough
  | age => exact iff_of_true hbooks.age.fair trivial
  | other => exact iff_of_true hbooks.fair trivial

/-- Questions that are kept apart keep the notes in order. -/
theorem Moves.books {d : Desk (String × UInt16) SocketAddr} (hmoves : Moves unicode w e d)
    (hbooks : w.desk.Books) (hapart : w.Apart unicode e) : d.Books := by
  cases hmoves with
  | ask hmsg hlocal => exact hbooks.ask (hapart _ hmsg hlocal)
  | leave _ => exact hbooks
  | answer hi => exact hbooks.answer hi (hapart _ hi)
  | age => exact hbooks.age
  | other => exact hbooks

theorem step_fair_iff (h : w.Orderly unicode) (hstep : Step unicode parses w e w') :
    w'.RepliesFair unicode ↔ w.Apart unicode e := by
  obtain ⟨hlive, hknown, hmoves⟩ := hstep.moves h
  rw [repliesFair_iff hlive hknown, hmoves.fair_iff h.books]

/-- A forwarder with its two sockets. -/
def busyRouter : Router :=
  { idleRouter with
    server := idleRouter.server.setTx 1 1
    lresolver := (LocalResolver.new.start (some (2, 2))).2 }

theorem started_busyRouter : Started ⟨busyRouter, []⟩ := ⟨⟨rfl, rfl⟩, rfl, rfl, rfl⟩

theorem says_exampleQuery : Says (fun _ c _ => [c]) exampleQuery ("example.com", 7) :=
  says_of_fromBuffer read_exampleQuery rfl

/-- The example is passed on to the local DNS server. -/
theorem step_exampleQuery {r : LocalResolver} (htx : r.getTx = some 2)
    (requests : List (Request (String × UInt16) SocketAddr)) (client : SocketAddr) :
    let memo := LocalResolver.insert r.requestMemo (LocalResolver.memoKey "example.com" 7) client
    Step (fun _ c _ => [c]) (fun _ => true) ⟨{ busyRouter with lresolver := r }, requests⟩
      (.query 3 none exampleQuery client)
      ⟨{ busyRouter with lresolver := { r with requestMemo := memo } },
        requests ++ [⟨("example.com", 7), client, 0⟩]⟩ := by
  intro memo
  have hlocal : (busyRouter.workAsGlobal || busyRouter.domap.has "example.com") = false := by
    decide +kernel
  have hhandled := Router.onDnsUdpMsg_locally (f := { busyRouter with lresolver := r }) rfl
    read_exampleQuery rfl hlocal none client
  have hsent : r.request busyRouter.dnsServerAddr none "example.com" 7 exampleQuery client = _ :=
    LocalResolver.request_of_getTx htx busyRouter.dnsServerAddr none exampleQuery client
  dsimp only [examplePacket] at hhandled
  rw [hsent] at hhandled
  exact .asked hhandled says_exampleQuery

end ResolverWorld

end LproxyCv.Dns
