import LproxyCv.Dns.Replies
import LproxyCv.Foundation.Run

set_option autoImplicit false

/-!
# Dns: starting the local resolver again

A resolver whose socket is gone starts again at the next question.  It lets the forwarder go
before it tries, and only a start that succeeds gives the forwarder back.
`run_retries_iff` says in which runs the resolver can start again after every step, and
`lost_for_good` that it never does after a start that has failed.
-/

namespace LproxyCv.Dns.LocalResolver

open LproxyCv.Foundation LproxyCv.Net LproxyCv.Tunnels

/-! ## The steps -/

/-- What happens to a resolver before it is stopped. -/
inductive Event where
  | op (op : Op)
  /-- the task of the socket has ended -/
  | closed
  deriving DecidableEq, Repr

/-- The resolver after it. -/
def react (dnsServerAddr : SocketAddr) (r : LocalResolver) : Event → LocalResolver
  | .op op => r.step dnsServerAddr op
  | .closed => r.invalidTx

/-- The steps of a resolver. -/
def Reacts (dnsServerAddr : SocketAddr) (r : LocalResolver) (e : Event) (r' : LocalResolver) :
    Prop :=
  r' = r.react dnsServerAddr e

/-- The resolver has the forwarder, and passes a question on whenever a socket can be bound. -/
def Retries (dnsServerAddr : SocketAddr) (r : LocalResolver) : Prop :=
  r.fw = true ∧ ∀ tx trigger qname identify bm srcAddr, ∃ sent,
    (r.request dnsServerAddr (some (tx, trigger)) qname identify bm srcAddr).2 = some sent

/-- A question that finds no channel finds a socket that can be bound. -/
def Binds (r : LocalResolver) : Event → Prop
  | .op (.request socket _ _ _ _) => r.getTx.isSome ∨ socket.isSome
  | _ => True

/-! ## The forwarder of a resolver -/

variable {dnsServerAddr : SocketAddr} {r r' : LocalResolver}
  {socket : Option (Channel × Trigger)} {qname : String} {identify : UInt16} {bm : Bytes}
  {srcAddr : SocketAddr}

theorem retries_iff : r.Retries dnsServerAddr ↔ r.fw = true := by
  constructor
  · exact And.left
  · intro hfw
    refine ⟨hfw, ?_⟩
    intro tx trigger qname identify bm srcAddr
    have hpass : r.CanPass (some (tx, trigger)) := .inr ⟨hfw, rfl⟩
    obtain ⟨sent, hsent, _⟩ :=
      request_of_canPass hpass dnsServerAddr qname identify bm srcAddr
    exact ⟨sent, hsent⟩

theorem fw_ask : (r.ask dnsServerAddr qname identify bm srcAddr).1.fw = r.fw := by
  unfold ask
  cases r.getTx with
  | none => rfl
  | some tx => rfl

theorem fw_take : (r.take qname identify).2.fw = r.fw := by
  unfold take
  dsimp only
  split
  · rfl
  · rfl

/-- A question leaves the forwarder where it is if it finds a channel or a socket, and loses it
if it finds neither. -/
theorem fw_request (hfw : r.fw = true) :
    (r.request dnsServerAddr socket qname identify bm srcAddr).1.fw = true ↔
      r.getTx.isSome ∨ socket.isSome := by
  unfold request
  cases htx : r.getTx with
  | some tx =>
      dsimp only
      rw [fw_ask]
      exact iff_of_true hfw (.inl rfl)
  | none =>
      dsimp only
      rw [if_pos hfw]
      cases socket with
      | none => simp [tryRebuild, start]
      | some s =>
          dsimp only [tryRebuild, start]
          rw [fw_ask]
          exact iff_of_true rfl (.inr rfl)

/-- One step of a resolver that has the forwarder. -/
theorem fw_react (hfw : r.fw = true) (e : Event) :
    (r.react dnsServerAddr e).fw = true ↔ r.Binds e := by
  cases e with
  | closed => exact iff_of_true hfw trivial
  | op op =>
      cases op with
      | request socket qname identify bm srcAddr => exact fw_request hfw
      | take qname identify => exact iff_of_true (fw_take.trans hfw) trivial
      | keepalive => exact iff_of_true hfw trivial

/-! ## Runs -/

/-- The runs in which every question finds a channel, or a socket that can be bound, are those
after each of whose steps the resolver can start again. -/
theorem run_retries_iff (dnsServerAddr : SocketAddr) (tx : Channel) (trigger : Trigger)
    (es : List Event) (r : LocalResolver) :
    Run (Guarded Binds (Reacts dnsServerAddr)) (started tx trigger) es r ↔
      Run (fun r e r' => Reacts dnsServerAddr r e r' ∧ r'.Retries dnsServerAddr)
        (started tx trigger) es r := by
  refine Run.guarded_iff (I := fun r => r.fw = true) ?_ ?_ rfl
  · rintro r e r' hfw rfl
    rw [retries_iff]
    exact fw_react hfw e
  · rintro r e r' _ _ hretries
    exact retries_iff.mp hretries

/-- A resolver without the forwarder and without a channel. -/
def Lost (r : LocalResolver) : Prop := r.fw = false ∧ r.getTx = none

/-- A question to it is not passed on, and changes nothing. -/
theorem request_of_lost (h : r.Lost) :
    r.request dnsServerAddr socket qname identify bm srcAddr = (r, none) := by
  obtain ⟨hfw, htx⟩ := h
  unfold request
  rw [htx]
  exact if_neg (Bool.eq_false_iff.mp hfw)

theorem lost_react (h : r.Lost) (e : Event) : (r.react dnsServerAddr e).Lost := by
  cases e with
  | closed => exact ⟨h.1, rfl⟩
  | op op =>
      cases op with
      | request socket qname identify bm srcAddr =>
          rw [react, step, request_of_lost h]
          exact h
      | take qname identify => exact ⟨fw_take.trans h.1, getTx_take.trans h.2⟩
      | keepalive => exact h

/-- Whatever happens to it, it passes no question on. -/
theorem lost_for_good (h : r.Lost) {es : List Event}
    (hrun : Run (Reacts dnsServerAddr) r es r') (socket : Option (Channel × Trigger))
    (qname : String) (identify : UInt16) (bm : Bytes) (srcAddr : SocketAddr) :
    (r'.request dnsServerAddr socket qname identify bm srcAddr).2 = none := by
  have hlost : r'.Lost := by
    refine hrun.preserves (I := Lost) ?_ h
    rintro r e r' hr rfl
    exact lost_react hr e
  rw [request_of_lost hlost]

/-- The socket goes, a question finds none to bind, and no later question is passed on. -/
theorem rebuild_fails_once :
    let dns : SocketAddr := ⟨.v4 ⟨223, 5, 5, 5⟩, 53⟩
    ∃ r, Run (Reacts dns) (started 1 2)
        [.closed, .op (.request none "example.com" 7 [] ⟨.v4 ⟨192, 168, 1, 2⟩, 4000⟩)] r ∧
      r.fw = false ∧ ¬ ∃ es r' socket qname identify bm srcAddr sent,
        Run (Reacts dns) r es r' ∧
          (r'.request dns socket qname identify bm srcAddr).2 = some sent := by
  refine ⟨_, .cons rfl (.cons rfl (.nil _)), rfl, ?_⟩
  rintro ⟨es, r', socket, qname, identify, bm, srcAddr, sent, hrun, hsent⟩
  have hnone := lost_for_good ⟨rfl, rfl⟩ hrun socket qname identify bm srcAddr
  cases hsent.symm.trans hnone

end LproxyCv.Dns.LocalResolver
