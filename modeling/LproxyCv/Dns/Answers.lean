import LproxyCv.Dns.Replies

set_option autoImplicit false

/-!
# Dns: a message of the local DNS server

The parser accepts more than the forwarder expects: a message need not have a question.  And
what the forwarder gives to its UDP server may be lost there.  `answers_cleanly_iff` says for
which messages, and in which states, the answer is either queued for the client that is noted
or leaves everything as it is.
-/

namespace LproxyCv.Dns

open LproxyCv.Foundation LproxyCv.Net LproxyCv.Tunnels

/-! ## Taking a note -/

namespace LocalResolver

theorem remove_of_lookup {memo : List (String × SocketAddr)} {key : String}
    (h : memo.lookup key = none) : remove memo key = memo := by
  apply List.filter_eq_self.mpr
  intro p hp
  have hne := List.lookup_eq_none_iff.mp h p hp
  exact decide_eq_true (Ne.symm (bne_iff_ne.mp hne))

theorem remove_ne {memo : List (String × SocketAddr)} {key : String} {srcAddr : SocketAddr}
    (h : memo.lookup key = some srcAddr) : remove memo key ≠ memo := by
  intro hsame
  have hnone := lookup_remove memo key key
  rw [hsame, h, if_pos rfl] at hnone
  cases hnone

variable {r : LocalResolver} {qname : String} {identify : UInt16}

/-- Where nothing is noted, nothing is taken. -/
theorem take_of_none (h : (r.take qname identify).1 = none) : (r.take qname identify).2 = r := by
  cases hold : r.requestMemoHistory.lookup (memoKey qname identify) with
  | some srcAddr =>
      rw [take_of_history hold] at h
      cases h
  | none =>
      rw [take_of_memo hold] at h ⊢
      dsimp only at h ⊢
      rw [remove_of_lookup h]

/-- A note that is taken is gone from one of the memos, and nothing else is. -/
theorem take_of_some {srcAddr : SocketAddr} (h : (r.take qname identify).1 = some srcAddr) :
    ¬ ((r.take qname identify).2.requestMemo = r.requestMemo ∧
      (r.take qname identify).2.requestMemoHistory = r.requestMemoHistory) := by
  cases hold : r.requestMemoHistory.lookup (memoKey qname identify) with
  | some srcAddr =>
      rw [take_of_history hold]
      exact fun hsame => remove_ne hold hsame.2
  | none =>
      rw [take_of_memo hold] at h ⊢
      exact fun hsame => remove_ne h hsame.1

/-- A take gets a note where there is one. -/
theorem take_eq_none_iff :
    (r.take qname identify).1 = none ↔ ∀ srcAddr, ¬ r.notes.Has (qname, identify) srcAddr := by
  have htake := congrArg Prod.fst (r.notes_take qname identify)
  rw [← not_exists, Generations.exists_has_iff, ← Generations.take_isSome_iff, htake,
    Option.eq_none_iff_forall_ne_some, not_exists]

end LocalResolver

/-! ## The answer -/

/-- What the UDP server queues of what it is given: without a receiver the channel is lost. -/
def Answered.queued (alive : Channel → Bool) : Answered → Option (Bytes × SocketAddr)
  | .reply _ (some (tx, bm, sa)) => if alive tx then some (bm, sa) else none
  | _ => none

/-- An answer is queued for the client that is noted, whose note is taken, or it is not queued and
no note is. -/
inductive CleanAnswer (alive : Channel → Bool) (f f' : Router) (message : Bytes) (p : DnsPacket)
    (answered : Answered) : Prop where
  | queued {question : DnsQuestion} {questions : List DnsQuestion} {sa : SocketAddr} :
      p.questions = question :: questions →
      f.lresolver.take question.name p.header.id = (some sa, f'.lresolver) →
      answered.queued alive = some (message, sa) →
      CleanAnswer alive f f' message p answered
  | left : f'.lresolver.requestMemo = f.lresolver.requestMemo →
      f'.lresolver.requestMemoHistory = f.lresolver.requestMemoHistory →
      answered.queued alive = none → CleanAnswer alive f f' message p answered

namespace Router

/-- The UDP server has a channel with a receiver. -/
def Listens (f : Router) (alive : Channel → Bool) : Prop :=
  ∃ tx, f.server.getTx = some tx ∧ alive tx = true

/-- The forwarder does not panic on a message, and answers it cleanly. -/
def AnswersCleanly (unicode : UnicodeLower) (fuel : Nat) (alive : Channel → Bool) (f : Router)
    (message : Bytes) (p : DnsPacket) : Prop :=
  ∃ f' answered, f.onResolverUdpMsg unicode fuel message = .ok (f', answered) ∧
    CleanAnswer alive f f' message p answered

variable {unicode : UnicodeLower} {fuel : Nat} {alive : Channel → Bool} {f : Router}
  {message : Bytes} {p : DnsPacket} {rest : Cursor}

theorem queued_reply_iff {sa : SocketAddr} :
    (Answered.reply sa (f.server.reply message sa)).queued alive = some (message, sa) ↔
      f.Listens alive := by
  unfold UdpServer.reply Listens
  cases f.server.getTx with
  | none => simp [Answered.queued]
  | some tx => cases htx : alive tx <;> simp [Answered.queued, htx]

/-- A message without a question is a panic. -/
theorem onResolverUdpMsg_nil (hrun : f.discarded = false)
    (hread : DnsPacket.fromBuffer unicode fuel ⟨message, 0⟩ = .ok (p, rest))
    (hnone : p.questions = []) : f.onResolverUdpMsg unicode fuel message = .panic := by
  rw [onResolverUdpMsg, if_neg (Bool.eq_false_iff.mp hrun), hread]
  simp only [hnone]

/-- The note of the first question of another is taken. -/
theorem onResolverUdpMsg_cons (hrun : f.discarded = false)
    (hread : DnsPacket.fromBuffer unicode fuel ⟨message, 0⟩ = .ok (p, rest))
    {question : DnsQuestion} {questions : List DnsQuestion}
    (hquestions : p.questions = question :: questions) :
    let r := f.lresolver.take question.name p.header.id
    f.onResolverUdpMsg unicode fuel message = .ok ({ f with lresolver := r.2 },
      match r.1 with
      | some sa => .reply sa (f.server.reply message sa)
      | none => .noTarget) := by
  rw [onResolverUdpMsg, if_neg (Bool.eq_false_iff.mp hrun), hread]
  simp only [hquestions]
  cases (f.lresolver.take question.name p.header.id).1 with
  | none => rfl
  | some sa => rfl

/-- A message that the parser accepts is answered cleanly exactly when it has a question, and its
note, if there is one, finds the UDP server with a receiver. -/
theorem answers_cleanly_iff (alive : Channel → Bool) (hrun : f.discarded = false)
    (hread : DnsPacket.fromBuffer unicode fuel ⟨message, 0⟩ = .ok (p, rest)) :
    f.AnswersCleanly unicode fuel alive message p ↔
      ∃ question questions, p.questions = question :: questions ∧
        ((∀ sa, ¬ f.lresolver.notes.Has (question.name, p.header.id) sa) ∨ f.Listens alive) := by
  cases hquestions : p.questions with
  | nil =>
      have hpanic := onResolverUdpMsg_nil hrun hread hquestions
      refine iff_of_false ?_ (by simp)
      rintro ⟨f', answered, hok, _⟩
      cases hpanic.symm.trans hok
  | cons question questions =>
      have hanswer := onResolverUdpMsg_cons hrun hread hquestions
      cases htake : (f.lresolver.take question.name p.header.id).1 with
      | none =>
          simp only [htake, LocalResolver.take_of_none htake] at hanswer
          refine iff_of_true ⟨_, _, hanswer, .left rfl rfl rfl⟩ ?_
          exact ⟨question, questions, rfl, .inl (LocalResolver.take_eq_none_iff.mp htake)⟩
      | some sa =>
          simp only [htake] at hanswer
          have hnoted : ¬ ∀ sa, ¬ f.lresolver.notes.Has (question.name, p.header.id) sa := by
            rw [← LocalResolver.take_eq_none_iff, htake]
            exact Option.some_ne_none sa
          constructor
          · rintro ⟨f', answered, hok, hclean⟩
            cases hanswer.symm.trans hok
            refine ⟨question, questions, rfl, .inr ?_⟩
            cases hclean with
            | @queued _ _ sa' hfirst htaken hqueued =>
                cases hquestions.symm.trans hfirst
                rw [htaken] at htake
                cases htake
                exact queued_reply_iff.mp hqueued
            | left hmemo hhistory _ =>
                exact absurd ⟨hmemo, hhistory⟩ (LocalResolver.take_of_some htake)
          · rintro ⟨question', questions', heq, hready⟩
            cases heq
            have hlistens := hready.resolve_left hnoted
            refine ⟨_, _, hanswer, .queued hquestions ?_ (queued_reply_iff.mpr hlistens)⟩
            rw [← htake]

/-- An answer for a client that has asked for `example.com`. -/
theorem answers_cleanly_exampleQuery :
    let f : Router := { ResolverWorld.busyRouter with
      lresolver := (ResolverWorld.busyRouter.lresolver.request ⟨.v4 ⟨223, 5, 5, 5⟩, 53⟩ none
        "example.com" 7 exampleQuery ⟨.v4 ⟨192, 168, 1, 2⟩, 4000⟩).1 }
    f.AnswersCleanly (fun _ c _ => [c]) 3 (fun _ => true) exampleQuery examplePacket :=
  (answers_cleanly_iff (fun _ => true) rfl read_exampleQuery).mpr
    ⟨_, _, rfl, .inr ⟨1, rfl, rfl⟩⟩

/-- A message that is a header alone is accepted, and is a panic. -/
theorem no_question_panics :
    (∃ r, DnsPacket.fromBuffer (fun _ c _ => [c]) 1 ⟨List.replicate 12 0, 0⟩ = .ok r) ∧
      ResolverWorld.busyRouter.onResolverUdpMsg (fun _ c _ => [c]) 1 (List.replicate 12 0) =
        .panic := by
  have hread : DnsPacket.fromBuffer (fun _ c _ => [c]) 1 ⟨List.replicate 12 0, 0⟩ =
      .ok (⟨⟨0, false, false, false, 0, false, .noerror, false, false, false, false, 0, 0, 0, 0⟩,
        [], [], [], []⟩, ⟨List.replicate 12 0, 12⟩) := by
    decide +kernel
  exact ⟨⟨_, hread⟩, onResolverUdpMsg_nil rfl hread rfl⟩

end Router

end LproxyCv.Dns
