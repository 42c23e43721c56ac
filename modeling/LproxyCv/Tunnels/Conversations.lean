import LproxyCv.Tunnels.Requests

set_option autoImplicit false

/-!
# Tunnels: the conversations of a connection

Where each conversation with the server stands can be read off the tasks: it is open as long as
the task reads its socket, and after that the server is at most told that the request is
closed (`run_converses`).  For this the server need not be trusted, as handles are not used
twice: the handle of a new request has a tag that its slot has not had before.

When the server closes only requests that it was told about, a slot that it takes back was
held.  Then no slot is handed out while a request holds it, and the task of a request finds its
slot again unless the server took it (`run_settles`).
-/

namespace LproxyCv.Tunnels

open LproxyCv.Foundation LproxyCv.Lws LproxyCv.Net

namespace Conn

variable {c c' : Conn} {e : ConnEvent}

/-- What the server knows of a request. -/
def stands (c : Conn) (th : THeader) : Option Talk := talk.status c.log th

/-- No tag is increased past its largest value. -/
def Ascends (c c' : Conn) : Prop :=
  ∀ i tag tag', c.tunnel.tag i = some tag → c'.tunnel.tag i = some tag' → tag ≤ tag'

/-- What is under way about a request whose task is there. -/
def Seat.stands (s : Seat) : Talk := if s.receiving then .created else .finished

/-- Every conversation is where the tasks say. -/
structure Conversing (c : Conn) : Prop where
  routed : c.Routed
  headers : (c.seats.map fun s => s.stub.header).Nodup
  /-- what the server was told about is of some time before -/
  past : ∀ th, c.stands th ≠ some .silent →
    ∃ tag, c.tunnel.tag th.reqIdx.toNat = some tag ∧ th.reqTag ≤ tag
  here : ∀ s ∈ c.seats, c.stands s.stub.header = some (Seat.stands s)
  gone : ∀ th, (∀ s ∈ c.seats, s.stub.header ≠ th) →
    c.stands th = some .silent ∨ c.stands th = some .finished ∨ c.stands th = some .closed

/-- No one forgets that a request was created. -/
theorem talk_ne_silent (known : Talk) (cmd : Cmd) : talk.hear known cmd ≠ some talk.start := by
  cases known <;> cases cmd <;> decide

theorem Seat.stands_ne (s : Seat) : some (Seat.stands s) ≠ some Talk.silent := by
  unfold Seat.stands
  split <;> decide

/-- A handle that the server was told about has a tag that the slot still has or had. -/
theorem Conversing.past_step (h : c.Conversing) (hmove : Move c e c') (hascends : c.Ascends c')
    {th : THeader} (hth : c.stands th ≠ some .silent) :
    ∃ tag, c'.tunnel.tag th.reqIdx.toNat = some tag ∧ th.reqTag ≤ tag := by
  obtain ⟨tag, htag, hle⟩ := h.past th hth
  have hsome : (c'.tunnel.tag th.reqIdx.toNat).isSome = true := by
    rw [Tunnel.tag_isSome, hmove.kept.1, ← Tunnel.tag_isSome, htag]
    rfl
  obtain ⟨tag', htag'⟩ := Option.isSome_iff_exists.mp hsome
  exact ⟨tag', htag', UInt16.le_trans hle (hascends _ tag tag' htag htag')⟩

/-- While nothing is said, and no task starts or ends, nothing changes. -/
theorem Conversing.same (h : c.Conversing) (hrouted : c'.Routed) (hmove : Move c e c')
    (hascends : c.Ascends c') (hseats : c'.seats = c.seats) (hlog : c'.log = c.log) :
    c'.Conversing := by
  have hstands : ∀ th, c'.stands th = c.stands th := fun th => by rw [stands, hlog, stands]
  refine ⟨hrouted, by rw [hseats]; exact h.headers, ?_, ?_, ?_⟩
  · intro th hth
    rw [hstands] at hth
    exact h.past_step hmove hascends hth
  · rw [hseats]
    intro s hs
    rw [hstands]
    exact h.here s hs
  · rw [hseats]
    intro th hth
    rw [hstands]
    exact h.gone th hth

/-- A new request has a handle that the server was not told about. -/
theorem Conversing.fresh (h : c.Conversing) (hascends : c.Ascends c') {ts : TunStub}
    {tag : UInt16} (hbumps : c.tunnel.Bumps c'.tunnel ts.reqIdx.toNat tag)
    (htag : ts.reqTag = tag + 1) : c.stands ts.header = some .silent := by
  by_contra hne
  obtain ⟨tag₀, hold, hle⟩ := h.past ts.header hne
  have hsame : tag₀ = tag := Option.some.inj (hold.symm.trans hbumps.old)
  have hup : tag ≤ tag + 1 :=
    hascends _ tag (tag + 1) hbumps.old ((hbumps.tag _).trans (if_pos rfl))
  have hlt := Uses.tag_le_succ_iff.mp hup
  have hsucc := Uses.tag_succ_toNat hlt
  have hle' : ts.reqTag.toNat ≤ tag.toNat := hsame ▸ UInt16.le_iff_toNat_le.mp hle
  rw [htag] at hle'
  omega

theorem Conversing.served (h : c.Conversing) (hrouted : c'.Routed) (hmove : Move c e c')
    (hascends : c.Ascends c') {ts : TunStub} {tag : UInt16}
    (hbumps : c.tunnel.Bumps c'.tunnel ts.reqIdx.toNat tag) (htag : ts.reqTag = tag + 1)
    (hseats : c'.seats = ⟨ts, c.next, true⟩ :: c.seats)
    (hlog : c'.log = c.log ++ [(ts.header, .reqCreated)]) : c'.Conversing := by
  have hfresh := h.fresh hascends hbumps htag
  have hself : c'.stands ts.header = some .created := by
    unfold stands at hfresh ⊢
    rw [hlog, Protocol.status_concat_self, hfresh]
    rfl
  have hother : ∀ th, ts.header ≠ th → c'.stands th = c.stands th := fun th hne => by
    rw [stands, hlog, Protocol.status_concat_of_ne hne, stands]
  have hne : ∀ s ∈ c.seats, ts.header ≠ s.stub.header := by
    intro s hs heq
    have hstands := h.here s hs
    rw [← heq, hfresh] at hstands
    exact Seat.stands_ne s hstands.symm
  refine ⟨hrouted, ?_, ?_, ?_, ?_⟩
  · rw [hseats, List.map_cons, List.nodup_cons]
    refine ⟨?_, h.headers⟩
    intro hmem
    obtain ⟨s, hs, heq⟩ := List.mem_map.mp hmem
    exact hne s hs heq.symm
  · intro th hth
    by_cases heq : ts.header = th
    · subst heq
      exact ⟨tag + 1, (hbumps.tag _).trans (if_pos rfl), UInt16.le_of_eq htag⟩
    · rw [hother th heq] at hth
      exact h.past_step hmove hascends hth
  · rw [hseats]
    intro s hs
    rcases List.mem_cons.mp hs with rfl | hold
    · exact hself
    · rw [hother _ (hne s hold)]
      exact h.here s hold
  · rw [hseats]
    intro th hth
    obtain ⟨hnew, hold⟩ := List.forall_mem_cons.mp hth
    rw [hother th hnew]
    exact h.gone th hold

/-- What the task of a request says moves the conversation about it. -/
theorem Conversing.heard (h : c.Conversing) {s : Seat} (hs : s ∈ c.seats) {cmd : Cmd} {known : Talk}
    (hhear : talk.hear (Seat.stands s) cmd = some known)
    (hlog : c'.log = c.log ++ [(s.stub.header, cmd)]) :
    c'.stands s.stub.header = some known ∧
      ∀ th, s.stub.header ≠ th → c'.stands th = c.stands th := by
  have hhere := h.here s hs
  constructor
  · unfold stands at hhere ⊢
    rw [hlog, Protocol.status_concat_self, hhere]
    exact hhear
  · intro th hne
    rw [stands, hlog, Protocol.status_concat_of_ne hne, stands]

/-- What was known of a request before one of its tasks spoke. -/
theorem Conversing.past_heard (h : c.Conversing) (hmove : Move c e c') (hascends : c.Ascends c')
    {s : Seat} (hs : s ∈ c.seats)
    (hother : ∀ th, s.stub.header ≠ th → c'.stands th = c.stands th) {th : THeader}
    (hth : c'.stands th ≠ some .silent) :
    ∃ tag, c'.tunnel.tag th.reqIdx.toNat = some tag ∧ th.reqTag ≤ tag := by
  refine h.past_step hmove hascends ?_
  by_cases heq : s.stub.header = th
  · rw [← heq, h.here s hs]
    exact Seat.stands_ne s
  · rwa [hother th heq] at hth

/-- The handle of a task is that of no other. -/
theorem Conversing.header_inj (h : c.Conversing) {s u : Seat} (hs : s ∈ c.seats)
    (hu : u ∈ c.seats) (heq : u.stub.header = s.stub.header) : u = s :=
  List.inj_on_of_nodup_map h.headers hu hs heq

theorem Conversing.spoke (h : c.Conversing) (hrouted : c'.Routed) (hmove : Move c e c')
    (hascends : c.Ascends c') {s : Seat} (hs : s ∈ c.seats) {cmd : Cmd}
    (hcmd : cmd = .reqData ∧ s.receiving = true ∨ cmd = .reqClientQuota)
    (hseats : c'.seats = c.seats) (hlog : c'.log = c.log ++ [(s.stub.header, cmd)]) :
    c'.Conversing := by
  have hhear : talk.hear (Seat.stands s) cmd = some (Seat.stands s) := by
    rcases hcmd with ⟨rfl, hreceiving⟩ | rfl
    · rw [Seat.stands, if_pos hreceiving]
      rfl
    · unfold Seat.stands
      split <;> rfl
  obtain ⟨hself, hother⟩ := h.heard hs hhear hlog
  have hstands : ∀ th, c'.stands th = c.stands th := by
    intro th
    by_cases heq : s.stub.header = th
    · rw [← heq, hself, h.here s hs]
    · exact hother th heq
  refine ⟨hrouted, by rw [hseats]; exact h.headers, ?_, ?_, ?_⟩
  · intro th hth
    exact h.past_heard hmove hascends hs hother hth
  · rw [hseats]
    intro u hu
    rw [hstands]
    exact h.here u hu
  · rw [hseats]
    intro th hth
    rw [hstands]
    exact h.gone th hth

theorem Conversing.finished (h : c.Conversing) (hrouted : c'.Routed) (hmove : Move c e c')
    (hascends : c.Ascends c') {s : Seat} (hs : s ∈ c.seats) (hreceiving : s.receiving = true)
    (hseats : c'.seats = c.seats.map (fun u =>
      if u.requestTx = s.requestTx then { s with receiving := false } else u))
    (hlog : c'.log = c.log ++ [(s.stub.header, .reqClientFinished)]) : c'.Conversing := by
  have hhear : talk.hear (Seat.stands s) .reqClientFinished = some .finished := by
    rw [Seat.stands, if_pos hreceiving]
    rfl
  obtain ⟨hself, hother⟩ := h.heard hs hhear hlog
  have hsame : ∀ u ∈ c.seats, u.requestTx = s.requestTx → u = s := fun u hu heq =>
    List.inj_on_of_nodup_map h.routed.ids hu hs heq
  have hheaders : c'.seats.map (fun u => u.stub.header) = c.seats.map fun u => u.stub.header := by
    rw [hseats, List.map_map]
    refine List.map_congr_left ?_
    intro u hu
    rw [Function.comp_apply]
    split
    · rename_i heq
      rw [hsame u hu heq]
    · rfl
  refine ⟨hrouted, by rw [hheaders]; exact h.headers, ?_, ?_, ?_⟩
  · intro th hth
    exact h.past_heard hmove hascends hs hother hth
  · rw [hseats]
    intro v hv
    obtain ⟨u, hu, rfl⟩ := List.mem_map.mp hv
    split
    · exact hself
    · rename_i hne
      have hheader : s.stub.header ≠ u.stub.header := by
        intro heq
        exact hne (congrArg Seat.requestTx (h.header_inj hs hu heq.symm))
      rw [hother _ hheader]
      exact h.here u hu
  · intro th hth
    have hnone : ∀ u ∈ c.seats, u.stub.header ≠ th := by
      intro u hu heq
      have hmem : th ∈ c'.seats.map fun u => u.stub.header := by
        rw [hheaders]
        exact List.mem_map.mpr ⟨u, hu, heq⟩
      obtain ⟨v, hv, hvth⟩ := List.mem_map.mp hmem
      exact hth v hv hvth
    rw [hother th (hnone s hs)]
    exact h.gone th hnone

/-- When a task is over, those of other requests go on. -/
theorem Conversing.mem_rest (h : c.Conversing) {s u : Seat} (hs : s ∈ c.seats) (hu : u ∈ c.seats)
    (hne : s.stub.header ≠ u.stub.header) : u ∈ c.seats.filter (·.requestTx ≠ s.requestTx) := by
  refine List.mem_filter.mpr ⟨hu, ?_⟩
  have htx : u.requestTx ≠ s.requestTx := by
    intro heq
    rw [List.inj_on_of_nodup_map h.routed.ids hu hs heq] at hne
    exact hne rfl
  simpa using htx

/-- A task is over; `known` is what the server knows of its request then. -/
theorem Conversing.over (h : c.Conversing) (hrouted : c'.Routed) (hmove : Move c e c')
    (hascends : c.Ascends c') {s : Seat} (hs : s ∈ c.seats) {known : Talk}
    (hknown : known = .finished ∨ known = .closed)
    (hself : c'.stands s.stub.header = some known)
    (hother : ∀ th, s.stub.header ≠ th → c'.stands th = c.stands th)
    (hseats : c'.seats = c.seats.filter (·.requestTx ≠ s.requestTx)) : c'.Conversing := by
  refine ⟨hrouted, ?_, ?_, ?_, ?_⟩
  · rw [hseats]
    exact h.headers.sublist (List.filter_sublist.map _)
  · intro th hth
    exact h.past_heard hmove hascends hs hother hth
  · rw [hseats]
    intro u hu
    obtain ⟨hu, hne⟩ := List.mem_filter.mp hu
    have hheader : s.stub.header ≠ u.stub.header := by
      intro heq
      rw [h.header_inj hs hu heq.symm] at hne
      simp at hne
    rw [hother _ hheader]
    exact h.here u hu
  · intro th hth
    by_cases heq : s.stub.header = th
    · rw [← heq, hself]
      rcases hknown with rfl | rfl
      · exact .inr (.inl rfl)
      · exact .inr (.inr rfl)
    · rw [hother th heq]
      refine h.gone th ?_
      intro u hu huth
      refine hth u ?_ huth
      rw [hseats]
      exact h.mem_rest hs hu (huth ▸ heq)

/-- Every step leaves every conversation where the tasks say. -/
theorem Conversing.step (h : c.Conversing) (hstep : Step c e c') (hascends : c.Ascends c') :
    c'.Conversing := by
  have hmove := hstep.move h.routed
  have hrouted := h.routed.step hstep
  have hsame := h.same hrouted hmove hascends
  cases hmove with
  | quiet _ hseats hlog => exact hsame hseats hlog
  | refused _ _ hseats hlog => exact hsame hseats hlog
  | served ts hbumps _ htag _ hseats _ hlog =>
      exact h.served hrouted (hstep.move h.routed) hascends hbumps htag hseats hlog
  | spoke hs hcmd _ hseats hlog =>
      exact h.spoke hrouted (hstep.move h.routed) hascends hs hcmd hseats hlog
  | finished hs hreceiving _ hseats hlog =>
      exact h.finished hrouted (hstep.move h.routed) hascends hs hreceiving hseats hlog
  | @closed s hs hreceiving _ _ hseats hlog =>
      have hhear : talk.hear (Seat.stands s) .reqClientClosed = some .closed := by
        rw [Seat.stands, hreceiving]
        rfl
      obtain ⟨hself, hother⟩ := h.heard hs hhear hlog
      exact h.over hrouted (hstep.move h.routed) hascends hs (.inr rfl) hself hother hseats
  | @left s hs hreceiving _ _ hseats hlog =>
      have hstands : ∀ th, c'.stands th = c.stands th := fun th => by rw [stands, hlog, stands]
      have hself : c'.stands s.stub.header = some .finished := by
        rw [hstands, h.here s hs, Seat.stands, hreceiving]
        rfl
      exact h.over hrouted (hstep.move h.routed) hascends hs (.inl rfl) hself
        (fun th _ => hstands th) hseats
  | dropped _ _ _ _ hseats hlog => exact hsame hseats hlog

theorem conversing_new {cap : Nat} (hcap : cap ≤ 65536) (tx : Channel) (rawfd : Int) (idx : Nat)
    (requestQuota : UInt16) : (new tx rawfd idx cap requestQuota).Conversing :=
  ⟨routed_new hcap tx rawfd idx requestQuota, List.nodup_nil, fun _ hne => absurd rfl hne, nofun,
    fun _ _ => .inl rfl⟩

/-- Steps that increase no tag past its largest value. -/
def Plain (c : Conn) (e : ConnEvent) (c' : Conn) : Prop := Step c e c' ∧ c.Ascends c'

/-- In every run that increases no tag past its largest value, whatever the server sends, what
the server is told about each handle is a conversation.  While the task of the request is there
the conversation is open, or finished when the task has read all of its socket; when there
is none, it has not begun, is finished, or is closed. -/
theorem run_converses {cap : Nat} (hcap : cap ≤ 65536) {tx : Channel} {rawfd : Int} {idx : Nat}
    {requestQuota : UInt16} {es : List ConnEvent}
    (hrun : Run Plain (new tx rawfd idx cap requestQuota) es c) (th : THeader) :
    (∃ t ∈ c.tasks, t.stub.header = th ∧
      talk.status c.log th = some (if t.receiving then .created else .finished)) ∨
    (∀ t ∈ c.tasks, t.stub.header ≠ th) ∧ (talk.status c.log th = some .silent ∨
      talk.status c.log th = some .finished ∨ talk.status c.log th = some .closed) := by
  have h : c.Conversing := by
    refine hrun.preserves (I := Conversing) ?_ (conversing_new hcap tx rawfd idx requestQuota)
    rintro c e c' hc ⟨hstep, hascends⟩
    exact hc.step hstep hascends
  by_cases htask : ∃ t ∈ c.tasks, t.stub.header = th
  · obtain ⟨t, ht, rfl⟩ := htask
    exact .inl ⟨t, ht, rfl, h.here t.seat (List.mem_map_of_mem ht)⟩
  · right
    have hnone : ∀ t ∈ c.tasks, t.stub.header ≠ th := fun t ht heq => htask ⟨t, ht, heq⟩
    refine ⟨hnone, h.gone th ?_⟩
    intro s hs
    obtain ⟨t, ht, rfl⟩ := List.mem_map.mp hs
    exact hnone t ht

/-- A connection with one slot, and a request that has it. -/
def served : Conn := (new 0 3 0 1 8).serveSock (.v4 ⟨10, 0, 0, 1⟩) 80

/-- Tags are those of the slots. -/
theorem ascends_of_lt (h : ∀ i < c.tunnel.requests.elements.length,
    (c.tunnel.tag i).getD 0 ≤ (c'.tunnel.tag i).getD 0) : c.Ascends c' := by
  intro i tag tag' htag htag'
  obtain ⟨req, hslot, _⟩ := Option.map_eq_some_iff.mp htag
  have hle := h i (Reqq.slot_lt hslot)
  rwa [htag, htag'] at hle

/-- The task of that request. -/
def servedTask : ReqTask := ReqTask.new ⟨0, 0, 0, 1, 8⟩ 1

/-- Its socket is read to the end, and then written. -/
def drained : Conn :=
  (served.onRequestRecvFinished servedTask).replace
    { servedTask with receiving := false, sending := false }

/-- The task ends. -/
def ended : Conn := drained.onRequestClosed { servedTask with receiving := false, sending := false }

/-- A request is served; its socket is read to the end, and then written; and its task ends. -/
def servedEvents : List ConnEvent :=
  [.serve (.v4 ⟨10, 0, 0, 1⟩) 80, .recvEnd 1, .sendEnd 1, .joined 1]

theorem step_served : Step (new 0 3 0 1 8) (.serve (.v4 ⟨10, 0, 0, 1⟩) 80) served := .serve _ _ _

theorem step_recvFinished :
    Step served (.recvEnd 1) (served.onRequestRecvFinished servedTask) :=
  .recvEnd (t := servedTask) (by decide +kernel) rfl

theorem step_drained :
    Step (served.onRequestRecvFinished servedTask) (.sendEnd 1) drained :=
  .sendEnd (t := { servedTask with receiving := false }) (by decide +kernel) rfl

theorem step_ended : Step drained (.joined 1) ended :=
  .joined (t := { servedTask with receiving := false, sending := false }) (by decide +kernel)
    rfl rfl

theorem ascends_served : Ascends (new 0 3 0 1 8) served := ascends_of_lt (by decide +kernel)

theorem ascends_recvFinished : Ascends served (served.onRequestRecvFinished servedTask) :=
  ascends_of_lt (by decide +kernel)

theorem ascends_drained : Ascends (served.onRequestRecvFinished servedTask) drained :=
  ascends_of_lt (by decide +kernel)

theorem ascends_ended : Ascends drained ended := ascends_of_lt (by decide +kernel)

/-- What the server is told about the first request, from its start to its end, is a
conversation. -/
theorem run_converses_served : talk.status ended.log ⟨0, 1⟩ ≠ none := by
  have hrun : Run Plain (new 0 3 0 1 8) servedEvents ended :=
    .cons ⟨step_served, ascends_served⟩ (.cons ⟨step_recvFinished, ascends_recvFinished⟩
      (.cons ⟨step_drained, ascends_drained⟩ (.cons ⟨step_ended, ascends_ended⟩ (.nil _))))
  rcases run_converses (by decide) hrun ⟨0, 1⟩ with
    ⟨_, _, _, htalk⟩ | ⟨_, htalk | htalk | htalk⟩ <;> simp [htalk]

/-! ## Nothing is forgotten -/

/-- The server closes only requests that it was told about; a task of an earlier connection has
a handle as `run_settles` finds them, with an odd tag. -/
def Echoes (c : Conn) : ConnEvent → Prop
  | .frame msg _ => ∀ th, requestFrame msg.buf = some (.reqServerClosed, th) →
      c.stands th ≠ some .silent
  | .foreign ts => ts.reqTag.toNat % 2 = 1
  | _ => True

/-- A request that is held is found; `others` are the handles that others have closed.  A slot
has an even tag when it is free, and an odd one when it is held. -/
structure Accounted (others : THeader → Prop) (c : Conn) : Prop where
  base : c.Conversing
  nodup : c.tunnel.requests.freeList.Nodup
  even : ∀ i ∈ c.tunnel.requests.freeList, ∀ tag, c.tunnel.tag i = some tag → tag.toNat % 2 = 0
  odd : ∀ th, c.stands th ≠ some .silent → th.reqTag.toNat % 2 = 1
  own : ∀ s ∈ c.seats, c.tunnel.tag s.stub.reqIdx.toNat = some s.stub.reqTag ∨
    others s.stub.header
  told : ∀ th, (∀ s ∈ c.seats, s.stub.header ≠ th) → c.stands th = some .finished → others th

theorem accounted_new {cap : Nat} (hcap : cap ≤ 65536) (tx : Channel) (rawfd : Int) (idx : Nat)
    (requestQuota : UInt16) :
    Accounted (fun _ => False) (new tx rawfd idx cap requestQuota) where
  base := conversing_new hcap tx rawfd idx requestQuota
  nodup := List.nodup_range
  even := by
    intro i _ tag htag
    obtain ⟨req, hslot, rfl⟩ := Option.map_eq_some_iff.mp htag
    rw [(Reqq.new_slot hslot).2]
    rfl
  odd := fun _ hne => absurd rfl hne
  own := nofun
  told := by
    intro th _ hstands
    cases hstands

variable {others : THeader → Prop}

/-- The next tag is odd when this one is even, at the end of the range too. -/
theorem tag_succ_mod_two (tag : UInt16) : (tag + 1).toNat % 2 = 1 - tag.toNat % 2 := by
  have hnat : (tag + 1).toNat = (tag.toNat + 1) % 65536 := UInt16.toNat_add tag 1
  omega

/-- A slot with an odd tag is held. -/
theorem Accounted.held (h : Accounted others c) {i : Nat} {tag : UInt16}
    (hodd : tag.toNat % 2 = 1) (htag : c.tunnel.tag i = some tag) :
    i ∉ c.tunnel.requests.freeList := by
  intro hmem
  have heven := h.even i hmem tag htag
  omega

/-- What closes a request names one that was held. -/
theorem Accounted.odd_of_closes (h : Accounted others c) {th : THeader} (hechoes : c.Echoes e)
    (hcloses : e.Closes th) : th.reqTag.toNat % 2 = 1 := by
  cases e with
  | frame msg elapsed => exact h.odd th (hechoes th hcloses)
  | foreign ts =>
      obtain rfl : ts.header = th := hcloses
      exact hechoes
  | _ => exact hcloses.elim

/-- The slots that are still free have the tags they had. -/
theorem Accounted.even_given (h : Accounted others c) {i : Nat} {tag : UInt16}
    (hbumps : c.tunnel.Bumps c'.tunnel i tag)
    (hfree : c.tunnel.requests.freeList = i :: c'.tunnel.requests.freeList) :
    ∀ j ∈ c'.tunnel.requests.freeList, ∀ tag, c'.tunnel.tag j = some tag → tag.toNat % 2 = 0 := by
  intro j hj tag' htag
  have hnodup := h.nodup
  rw [hfree, List.nodup_cons] at hnodup
  have hne : i ≠ j := fun heq => hnodup.1 (heq ▸ hj)
  rw [hbumps.tag, if_neg hne] at htag
  refine h.even j ?_ tag' htag
  rw [hfree]
  exact List.mem_cons_of_mem i hj

/-- A slot that was held is taken back. -/
theorem Accounted.even_taken (h : Accounted others c) {i : Nat} {tag : UInt16}
    (hodd : tag.toNat % 2 = 1) (hbumps : c.tunnel.Bumps c'.tunnel i tag)
    (hfree : c'.tunnel.requests.freeList = i :: c.tunnel.requests.freeList) :
    ∀ j ∈ c'.tunnel.requests.freeList, ∀ tag, c'.tunnel.tag j = some tag → tag.toNat % 2 = 0 := by
  intro j hj tag' htag
  rw [hbumps.tag] at htag
  by_cases hij : i = j
  · rw [if_pos hij] at htag
    rw [← Option.some.inj htag, tag_succ_mod_two, hodd]
  · rw [if_neg hij] at htag
    rw [hfree] at hj
    exact h.even j ((List.mem_cons.mp hj).resolve_left (Ne.symm hij)) tag' htag

theorem Accounted.nodup_taken (h : Accounted others c) {i : Nat} {tag : UInt16}
    (hodd : tag.toNat % 2 = 1) (hbumps : c.tunnel.Bumps c'.tunnel i tag)
    (hfree : c'.tunnel.requests.freeList = i :: c.tunnel.requests.freeList) :
    c'.tunnel.requests.freeList.Nodup := by
  rw [hfree, List.nodup_cons]
  exact ⟨h.held hodd hbumps.old, h.nodup⟩

/-- The tag of a request whose task is there is odd. -/
theorem Accounted.odd_of_mem (h : Accounted others c) {s : Seat} (hs : s ∈ c.seats) :
    s.stub.reqTag.toNat % 2 = 1 := by
  refine h.odd s.stub.header ?_
  rw [h.base.here s hs]
  exact Seat.stands_ne s

/-- A request whose task is there holds no slot that is handed out. -/
theorem Accounted.own_given (h : Accounted others c) {i : Nat} {tag : UInt16}
    (hbumps : c.tunnel.Bumps c'.tunnel i tag)
    (hfree : c.tunnel.requests.freeList = i :: c'.tunnel.requests.freeList) {s : Seat}
    (hs : s ∈ c.seats) :
    c'.tunnel.tag s.stub.reqIdx.toNat = some s.stub.reqTag ∨ others s.stub.header := by
  refine (h.own s hs).imp_left ?_
  intro htag
  rw [hbumps.tag, if_neg]
  · exact htag
  · intro heq
    refine h.held (h.odd_of_mem hs) htag ?_
    rw [hfree, heq]
    exact List.mem_cons_self

/-- A request whose task is there holds no slot that is taken back, but its own. -/
theorem Accounted.own_taken (h : Accounted others c) (th : THeader)
    (hbumps : c.tunnel.Bumps c'.tunnel th.reqIdx.toNat th.reqTag) {s : Seat} (hs : s ∈ c.seats)
    (hne : s.stub.header ≠ th) :
    c'.tunnel.tag s.stub.reqIdx.toNat = some s.stub.reqTag ∨ others s.stub.header := by
  refine (h.own s hs).imp_left ?_
  intro htag
  rw [hbumps.tag, if_neg]
  · exact htag
  · intro heq
    refine hne ?_
    rw [← heq, hbumps.old] at htag
    have hidx : s.stub.reqIdx = th.reqIdx := UInt16.toNat.inj heq.symm
    have hreqTag : s.stub.reqTag = th.reqTag := (Option.some.inj htag).symm
    rw [TunStub.header, hidx, hreqTag]

/-- No slot changes hands, and no task starts. -/
theorem Accounted.keeps {others' : THeader → Prop} (h : Accounted others c)
    (hbase : c'.Conversing) (hkeeps : c.tunnel.Keeps c'.tunnel)
    (hothers : ∀ th, others th → others' th)
    (hbegun : ∀ th, c'.stands th ≠ some .silent → c.stands th ≠ some .silent)
    (hseats : ∀ s' ∈ c'.seats, ∃ s ∈ c.seats, s'.stub = s.stub)
    (htold : ∀ th, (∀ s ∈ c'.seats, s.stub.header ≠ th) → c'.stands th = some .finished →
      others' th) : Accounted others' c' := by
  refine ⟨hbase, ?_, ?_, fun th hth => h.odd th (hbegun th hth), ?_, htold⟩
  · rw [hkeeps.freeList]
    exact h.nodup
  · intro i hi tag htag
    rw [hkeeps.freeList] at hi
    rw [hkeeps.tag] at htag
    exact h.even i hi tag htag
  · intro s' hs'
    obtain ⟨s, hs, hstub⟩ := hseats s' hs'
    rw [hstub, hkeeps.tag]
    exact (h.own s hs).imp_right (hothers _)

/-- Every step leaves every request accounted for. -/
theorem Accounted.step (h : Accounted others c) (hstep : Step c e c') (hascends : c.Ascends c')
    (hechoes : c.Echoes e) : Accounted (fun th => others th ∨ e.Closes th) c' := by
  have hbase := h.base.step hstep hascends
  have hothers : ∀ th, others th → others th ∨ e.Closes th := fun _ => .inl
  cases hstep.move h.base.routed with
  | quiet hkeeps hseats hlog =>
      have hstands : ∀ th, c'.stands th = c.stands th := fun th => by rw [stands, hlog, stands]
      refine h.keeps hbase hkeeps hothers (fun th hth => hstands th ▸ hth) ?_ ?_
      · rw [hseats]
        exact fun s hs => ⟨s, hs, rfl⟩
      · rw [hseats]
        exact fun th hnone hth => .inl (h.told th hnone (hstands th ▸ hth))
  | refused hbumps hfree hseats hlog =>
      have hstands : ∀ th, c'.stands th = c.stands th := fun th => by rw [stands, hlog, stands]
      refine ⟨hbase, ?_, h.even_given hbumps hfree, fun th hth => h.odd th (hstands th ▸ hth),
        ?_, ?_⟩
      · have hnodup := h.nodup
        rw [hfree] at hnodup
        exact (List.nodup_cons.mp hnodup).2
      · rw [hseats]
        exact fun s hs => (h.own_given hbumps hfree hs).imp_right (hothers _)
      · rw [hseats]
        exact fun th hnone hth => .inl (h.told th hnone (hstands th ▸ hth))
  | served ts hbumps hfree htag _ hseats _ hlog =>
      have hnodup := h.nodup
      rw [hfree, List.nodup_cons] at hnodup
      have hother : ∀ th, ts.header ≠ th → c'.stands th = c.stands th := fun th hne => by
        rw [stands, hlog, Protocol.status_concat_of_ne hne, stands]
      refine ⟨hbase, hnodup.2, h.even_given hbumps hfree, ?_, ?_, ?_⟩
      · intro th hth
        by_cases heq : ts.header = th
        · have hmem : ts.reqIdx.toNat ∈ c.tunnel.requests.freeList := by
            rw [hfree]
            exact List.mem_cons_self
          have heven := h.even _ hmem _ hbumps.old
          have htagTh : th.reqTag = ts.reqTag := by rw [← heq]; rfl
          rw [htagTh, htag, tag_succ_mod_two, heven]
        · exact h.odd th (hother th heq ▸ hth)
      · rw [hseats]
        intro s hs
        rcases List.mem_cons.mp hs with rfl | hold
        · left
          rw [hbumps.tag, if_pos rfl, htag]
        · exact (h.own_given hbumps hfree hold).imp_right (hothers _)
      · rw [hseats]
        intro th hnone hth
        obtain ⟨hnew, hold⟩ := List.forall_mem_cons.mp hnone
        exact .inl (h.told th hold (hother th hnew ▸ hth))
  | @spoke s cmd hs hcmd hkeeps hseats hlog =>
      have hself : c'.stands s.stub.header = c.stands s.stub.header := by
        rw [hbase.here s (hseats ▸ hs), h.base.here s hs]
      have hstands : ∀ th, c'.stands th = c.stands th := by
        intro th
        by_cases heq : s.stub.header = th
        · rw [← heq, hself]
        · rw [stands, hlog, Protocol.status_concat_of_ne heq, stands]
      refine h.keeps hbase hkeeps hothers (fun th hth => hstands th ▸ hth) ?_ ?_
      · rw [hseats]
        exact fun s hs => ⟨s, hs, rfl⟩
      · rw [hseats]
        exact fun th hnone hth => .inl (h.told th hnone (hstands th ▸ hth))
  | @finished s hs hreceiving hkeeps hseats hlog =>
      have hother : ∀ th, s.stub.header ≠ th → c'.stands th = c.stands th := fun th hne => by
        rw [stands, hlog, Protocol.status_concat_of_ne hne, stands]
      have hheaders : ∀ th, (∀ u ∈ c'.seats, u.stub.header ≠ th) →
          ∀ u ∈ c.seats, u.stub.header ≠ th := by
        intro th hnone u hu
        by_cases htx : u.requestTx = s.requestTx
        · rw [List.inj_on_of_nodup_map h.base.routed.ids hu hs htx]
          refine hnone { s with receiving := false } ?_
          rw [hseats]
          exact List.mem_map.mpr ⟨s, hs, if_pos rfl⟩
        · refine hnone u ?_
          rw [hseats]
          exact List.mem_map.mpr ⟨u, hu, if_neg htx⟩
      refine h.keeps hbase hkeeps hothers ?_ ?_ ?_
      · intro th hth
        by_cases heq : s.stub.header = th
        · rw [← heq, h.base.here s hs]
          exact Seat.stands_ne s
        · exact hother th heq ▸ hth
      · rw [hseats]
        intro v hv
        obtain ⟨u, hu, rfl⟩ := List.mem_map.mp hv
        split
        · exact ⟨s, hs, rfl⟩
        · exact ⟨u, hu, rfl⟩
      · intro th hnone hth
        have hold := hheaders th hnone
        exact .inl (h.told th hold (hother th (hold s hs) ▸ hth))
  | @closed s hs hreceiving hbumps hfree hseats hlog =>
      have hother : ∀ th, s.stub.header ≠ th → c'.stands th = c.stands th := fun th hne => by
        rw [stands, hlog, Protocol.status_concat_of_ne hne, stands]
      have hclosed : c'.stands s.stub.header = some .closed := by
        have hhear : talk.hear (Seat.stands s) .reqClientClosed = some .closed := by
          rw [Seat.stands, hreceiving]
          rfl
        exact (h.base.heard hs hhear hlog).1
      have hodd := h.odd_of_mem hs
      refine ⟨hbase, h.nodup_taken hodd hbumps hfree, h.even_taken hodd hbumps hfree, ?_, ?_, ?_⟩
      · intro th hth
        by_cases heq : s.stub.header = th
        · exact heq ▸ hodd
        · exact h.odd th (hother th heq ▸ hth)
      · rw [hseats]
        intro u hu
        obtain ⟨hu, hne⟩ := List.mem_filter.mp hu
        refine (h.own_taken s.stub.header hbumps hu ?_).imp_right (hothers _)
        intro heq
        rw [h.base.header_inj hs hu heq] at hne
        simp at hne
      · intro th hnone hth
        have hneq : s.stub.header ≠ th := by
          rintro rfl
          rw [hclosed] at hth
          cases hth
        refine .inl (h.told th ?_ (hother th hneq ▸ hth))
        intro u hu huth
        refine hnone u ?_ huth
        rw [hseats]
        exact h.base.mem_rest hs hu (huth ▸ hneq)
  | @left s hs hreceiving hlost hkeeps hseats hlog =>
      have hstands : ∀ th, c'.stands th = c.stands th := fun th => by rw [stands, hlog, stands]
      refine h.keeps hbase hkeeps hothers (fun th hth => hstands th ▸ hth) ?_ ?_
      · rw [hseats]
        exact fun u hu => ⟨u, List.mem_of_mem_filter hu, rfl⟩
      · intro th hnone hth
        by_cases heq : s.stub.header = th
        · subst heq
          exact .inl ((h.own s hs).resolve_left hlost)
        · refine .inl (h.told th ?_ (hstands th ▸ hth))
          intro u hu huth
          refine hnone u ?_ huth
          rw [hseats]
          exact h.base.mem_rest hs hu (huth ▸ heq)
  | dropped th hcloses hbumps hfree hseats hlog =>
      have hstands : ∀ th, c'.stands th = c.stands th := fun th => by rw [stands, hlog, stands]
      have hodd := h.odd_of_closes hechoes hcloses
      refine ⟨hbase, h.nodup_taken hodd hbumps hfree, h.even_taken hodd hbumps hfree,
        fun th hth => h.odd th (hstands th ▸ hth), ?_, ?_⟩
      · rw [hseats]
        intro s hs
        by_cases heq : s.stub.header = th
        · exact .inr (.inr (heq ▸ hcloses))
        · exact (h.own_taken th hbumps hs heq).imp_right (hothers _)
      · rw [hseats]
        exact fun th' hnone hth => .inl (h.told th' hnone (hstands th' ▸ hth))

/-- Steps that increase no tag past its largest value, with a server that closes only requests
that it was told about, whatever the tasks of earlier connections do. -/
def Faithful (c : Conn) (e : ConnEvent) (c' : Conn) : Prop :=
  Step c e c' ∧ c.Ascends c' ∧ c.Echoes e

theorem Accounted.run {es : List ConnEvent} (h : Accounted others c)
    (hrun : Run Faithful c es c') :
    Accounted (fun th => others th ∨ ∃ e ∈ es, e.Closes th) c' := by
  induction hrun generalizing others with
  | nil c =>
      have hsame : (fun th => others th ∨ ∃ e ∈ ([] : List ConnEvent), e.Closes th) = others := by
        funext th
        simp
      rw [hsame]
      exact h
  | @cons c m c' e es hfirst _ ih =>
      obtain ⟨hstep, hascends, hechoes⟩ := hfirst
      have hlast := ih (h.step hstep hascends hechoes)
      have hsame : (fun th => (others th ∨ e.Closes th) ∨ ∃ e ∈ es, e.Closes th) =
          fun th => others th ∨ ∃ e' ∈ e :: es, e'.Closes th := by
        funext th
        simp [or_assoc]
      rw [hsame] at hlast
      exact hlast

/-- In every such run no slot is free twice, or free while a request holds it; every request has
an odd tag; and a request whose task is over is one that the server was told is closed, or was
closed by a frame of the server or in the name of an earlier connection. -/
theorem run_settles {cap : Nat} (hcap : cap ≤ 65536) {tx : Channel} {rawfd : Int} {idx : Nat}
    {requestQuota : UInt16} {es : List ConnEvent}
    (hrun : Run Faithful (new tx rawfd idx cap requestQuota) es c) :
    c.tunnel.requests.freeList.Nodup ∧
      (∀ t ∈ c.tasks, t.stub.reqTag.toNat % 2 = 1 ∧
        (c.tunnel.tag t.stub.reqIdx.toNat = some t.stub.reqTag →
          t.stub.reqIdx.toNat ∉ c.tunnel.requests.freeList)) ∧
      ∀ th, (th, .reqCreated) ∈ c.log → (∀ t ∈ c.tasks, t.stub.header ≠ th) →
        talk.status c.log th = some .closed ∨ ∃ e ∈ es, e.Closes th := by
  have h := (accounted_new hcap tx rawfd idx requestQuota).run hrun
  refine ⟨h.nodup, ?_, ?_⟩
  · intro t ht
    have hodd : t.stub.reqTag.toNat % 2 = 1 :=
      h.odd_of_mem (s := t.seat) (List.mem_map_of_mem ht)
    exact ⟨hodd, fun htag => h.held hodd htag⟩
  · intro th hmem hnone
    have hseats : ∀ s ∈ c.seats, s.stub.header ≠ th := by
      intro s hs
      obtain ⟨t, ht, rfl⟩ := List.mem_map.mp hs
      exact hnone t ht
    rcases h.base.gone th hseats with hsilent | hfinished | hclosed
    · exact absurd hmem (Protocol.not_mem_of_status_start talk_ne_silent hsilent _)
    · exact .inr ((h.told th hseats hfinished).resolve_left id)
    · exact .inl hclosed

/-- When its task has ended, the server is told that the first request is closed. -/
theorem run_settles_ended : talk.status ended.log ⟨0, 1⟩ = some .closed ∨
    ∃ e ∈ servedEvents, e.Closes ⟨0, 1⟩ := by
  have hrun : Run Faithful (new 0 3 0 1 8) servedEvents ended :=
    .cons ⟨step_served, ascends_served, trivial⟩
      (.cons ⟨step_recvFinished, ascends_recvFinished, trivial⟩
        (.cons ⟨step_drained, ascends_drained, trivial⟩
          (.cons ⟨step_ended, ascends_ended, trivial⟩ (.nil _))))
  exact (run_settles (by decide) hrun).2.2 ⟨0, 1⟩ (by decide +kernel) (by decide +kernel)

end Conn

end LproxyCv.Tunnels
