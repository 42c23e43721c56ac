import LproxyCv.Dns.Forwarder
import LproxyCv.Foundation.Generations

set_option autoImplicit false

/-!
# Dns: the questions that are open at the local resolver

A question that is passed on to the local DNS server leaves a note of who has asked it,
under its name and its number.  The note is taken when the answer comes, or forgotten at
the second tick.  `run_takes` says of every run which question a take answers.
-/

namespace LproxyCv.Dns.LocalResolver

open LproxyCv.Foundation LproxyCv.Net LproxyCv.Tunnels

/-! ## The memo -/

/-- The key of a question. -/
def memoKey (qname : String) (identify : UInt16) : String := s!"{qname}:{identify}"

/-- Put an address in a memo, over the one with its key. -/
def insert (memo : List (String × SocketAddr)) (key : String) (srcAddr : SocketAddr) :
    List (String × SocketAddr) :=
  (key, srcAddr) :: memo.filter fun p => p.1 ≠ key

/-- The memo without a key. -/
def remove (memo : List (String × SocketAddr)) (key : String) : List (String × SocketAddr) :=
  memo.filter fun p => p.1 ≠ key

/-- The channel to the socket, while there is one. -/
def getTx (r : LocalResolver) : Option Channel := r.tx.1

/-- Who has asked a question, from before the last tick or since. -/
def take (r : LocalResolver) (qname : String) (identify : UInt16) :
    Option SocketAddr × LocalResolver :=
  let key := memoKey qname identify
  if (r.requestMemoHistory.lookup key).isSome then
    (r.requestMemoHistory.lookup key,
      { r with requestMemoHistory := remove r.requestMemoHistory key })
  else (r.requestMemo.lookup key, { r with requestMemo := remove r.requestMemo key })

/-- Start again, on a socket if one can be bound.  The forwarder is let go first. -/
def tryRebuild (r : LocalResolver) (socket : Option (Channel × Trigger)) : Bool × LocalResolver :=
  start { r with fw := false } socket

/-- Note who has asked a question, and pass it on, if there is a channel. -/
def ask (r : LocalResolver) (dnsServerAddr : SocketAddr) (qname : String) (identify : UInt16)
    (bm : Bytes) (srcAddr : SocketAddr) :
    LocalResolver × Option (Channel × Bytes × SocketAddr) :=
  match r.getTx with
  | some tx =>
      ({ r with requestMemo := insert r.requestMemo (memoKey qname identify) srcAddr },
        some (tx, bm, dnsServerAddr))
  | none => (r, none)

/-- A question for the local DNS server, whose address is `dnsServerAddr`.  Without a channel
the resolver starts again, on `socket` if one can be bound.  What is passed on is given to a
channel, which may be closed. -/
def request (r : LocalResolver) (dnsServerAddr : SocketAddr)
    (socket : Option (Channel × Trigger)) (qname : String) (identify : UInt16) (bm : Bytes)
    (srcAddr : SocketAddr) : LocalResolver × Option (Channel × Bytes × SocketAddr) :=
  match r.getTx with
  | some _ => r.ask dnsServerAddr qname identify bm srcAddr
  | none =>
      if r.fw then
        match r.tryRebuild socket with
        | (true, r) => r.ask dnsServerAddr qname identify bm srcAddr
        | (false, r) => (r, none)
      else (r, none)

/-! ## Keys -/

theorem toList_memoKey (qname : String) (identify : UInt16) :
    (memoKey qname identify).toList =
      qname.toList ++ ':' :: Nat.toDigits 10 identify.toNat := by
  have hnumber : (toString identify).toList = Nat.toDigits 10 identify.toNat := Nat.toList_repr
  have hkey : memoKey qname identify = qname ++ ":" ++ toString identify := by
    simp [memoKey, toString]
  rw [hkey, String.toList_append, String.toList_append, hnumber, List.append_assoc]
  rfl

theorem colon_not_mem_toDigits (n : Nat) : ':' ∉ Nat.toDigits 10 n := by
  intro hmem
  exact absurd (Nat.isDigit_of_mem_toDigits (by decide) (by decide) hmem) (by decide)

/-- Texts that agree, with a colon that is the last in both, agree in front of it and behind. -/
theorem split_at_last_colon {a b d e : List Char} (hd : ':' ∉ d) (he : ':' ∉ e)
    (h : a ++ ':' :: d = b ++ ':' :: e) : a = b ∧ d = e := by
  rcases List.append_eq_append_iff.mp h with ⟨t, rfl, ht⟩ | ⟨t, rfl, ht⟩
  · cases t with
    | nil => exact ⟨(List.append_nil a).symm, (List.cons.inj ht).2⟩
    | cons c t =>
        obtain ⟨-, rfl⟩ := List.cons.inj ht
        exact absurd (List.mem_append_right t List.mem_cons_self) hd
  · cases t with
    | nil => exact ⟨List.append_nil b, (List.cons.inj ht).2.symm⟩
    | cons c t =>
        obtain ⟨-, rfl⟩ := List.cons.inj ht
        exact absurd (List.mem_append_right t List.mem_cons_self) he

/-- No two questions have one key: the last colon ends the name. -/
theorem memoKey_injective :
    Function.Injective fun q : String × UInt16 => memoKey q.1 q.2 := by
  rintro ⟨qname, identify⟩ ⟨qname', identify'⟩ h
  have hlist := congrArg String.toList h
  rw [toList_memoKey, toList_memoKey] at hlist
  obtain ⟨hname, hdigits⟩ := split_at_last_colon (colon_not_mem_toDigits identify.toNat)
    (colon_not_mem_toDigits identify'.toNat) hlist
  have hnumber := congrArg (fun l => Nat.ofDigitChars 10 l 0) hdigits
  simp only [Nat.ofDigitChars_ten_toDigits] at hnumber
  exact Prod.ext (String.toList_inj.mp hname) (UInt16.toNat_inj.mp hnumber)

/-! ## Notes -/

theorem lookup_remove (memo : List (String × SocketAddr)) (key key' : String) :
    (remove memo key).lookup key' = if key' = key then none else memo.lookup key' := by
  unfold remove
  induction memo with
  | nil => exact (ite_self none).symm
  | cons p memo ih =>
      by_cases hp : p.1 = key
      · rw [List.filter_cons_of_neg (by simpa using hp), ih, List.lookup_cons]
        split
        · rfl
        · rename_i hne
          rw [show (key' == p.1) = false from beq_eq_false_iff_ne.mpr (hp ▸ hne)]
      · rw [List.filter_cons_of_pos (by simpa using hp), List.lookup_cons, List.lookup_cons, ih]
        split
        · rename_i heq
          rw [if_neg (fun h => hp ((beq_iff_eq.mp heq).symm.trans h))]
        · rfl

theorem lookup_insert (memo : List (String × SocketAddr)) (key key' : String)
    (srcAddr : SocketAddr) : (insert memo key srcAddr).lookup key' =
      if key' = key then some srcAddr else memo.lookup key' := by
  have hremove := lookup_remove memo key key'
  rw [insert, List.lookup_cons]
  by_cases h : key' = key
  · rw [if_pos h, show (key' == key) = true from beq_iff_eq.mpr h]
  · rw [if_neg h, show (key' == key) = false from beq_eq_false_iff_ne.mpr h]
    exact hremove.trans (if_neg h)

/-! ## Two generations of notes -/

/-- The notes of a resolver under their questions. -/
def notes (r : LocalResolver) : Generations (String × UInt16) SocketAddr where
  older q := r.requestMemoHistory.lookup (memoKey q.1 q.2)
  newer q := r.requestMemo.lookup (memoKey q.1 q.2)

/-- What is written under the key of a question is written under that question alone. -/
theorem update_key (m : String → Option SocketAddr) (q : String × UInt16)
    (v : Option SocketAddr) :
    (fun q' : String × UInt16 => if memoKey q'.1 q'.2 = memoKey q.1 q.2 then v
      else m (memoKey q'.1 q'.2)) =
    Function.update (fun q' : String × UInt16 => m (memoKey q'.1 q'.2)) q v := by
  funext q'
  by_cases h : q' = q
  · subst h
    rw [if_pos rfl, Function.update_self]
  · rw [if_neg fun heq => h (memoKey_injective heq), Function.update_of_ne h]

variable {r : LocalResolver} {tx : Channel} {qname : String} {identify : UInt16}

theorem request_of_getTx (htx : r.getTx = some tx) (dnsServerAddr : SocketAddr)
    (socket : Option (Channel × Trigger)) (bm : Bytes) (srcAddr : SocketAddr) :
    r.request dnsServerAddr socket qname identify bm srcAddr =
      ({ r with requestMemo := insert r.requestMemo (memoKey qname identify) srcAddr },
        some (tx, bm, dnsServerAddr)) := by
  simp only [request, ask, htx]

theorem notes_insert (srcAddr : SocketAddr) :
    notes { r with requestMemo := insert r.requestMemo (memoKey qname identify) srcAddr } =
      r.notes.put (qname, identify) srcAddr := by
  refine Generations.ext rfl ?_
  simp only [notes, lookup_insert]
  exact update_key (r.requestMemo.lookup ·) (qname, identify) (some srcAddr)

theorem take_of_history {srcAddr : SocketAddr}
    (h : r.requestMemoHistory.lookup (memoKey qname identify) = some srcAddr) :
    r.take qname identify = (some srcAddr,
      { r with requestMemoHistory := remove r.requestMemoHistory (memoKey qname identify) }) := by
  simp only [take, h, Option.isSome_some, if_true]

theorem take_of_memo (h : r.requestMemoHistory.lookup (memoKey qname identify) = none) :
    r.take qname identify = (r.requestMemo.lookup (memoKey qname identify),
      { r with requestMemo := remove r.requestMemo (memoKey qname identify) }) := by
  simp only [take, h, Option.isSome_none, Bool.false_eq_true, if_false]

theorem notes_take (r : LocalResolver) (qname : String) (identify : UInt16) :
    r.notes.take (qname, identify) =
      ((r.take qname identify).1, (r.take qname identify).2.notes) := by
  cases h : r.requestMemoHistory.lookup (memoKey qname identify) with
  | some srcAddr =>
      have hold : r.notes.older (qname, identify) = some srcAddr := h
      rw [take_of_history h, Generations.take_older hold]
      refine Prod.ext rfl (Generations.ext ?_ rfl)
      simp only [notes, lookup_remove]
      exact (update_key (r.requestMemoHistory.lookup ·) (qname, identify) none).symm
  | none =>
      have hold : r.notes.older (qname, identify) = none := h
      rw [take_of_memo h, Generations.take_newer hold]
      refine Prod.ext rfl (Generations.ext rfl ?_)
      simp only [notes, lookup_remove]
      exact (update_key (r.requestMemo.lookup ·) (qname, identify) none).symm

theorem getTx_take : (r.take qname identify).2.getTx = r.getTx := by
  unfold take
  dsimp only
  split
  · rfl
  · rfl

theorem notes_keepalive : r.keepalive.notes = r.notes.age := rfl

/-! ## Runs -/

/-- What is done to a resolver. -/
inductive Op where
  | request (socket : Option (Channel × Trigger)) (qname : String) (identify : UInt16)
      (bm : Bytes) (srcAddr : SocketAddr)
  | take (qname : String) (identify : UInt16)
  | keepalive
  deriving DecidableEq, Repr

/-- The resolver after it. -/
def step (dnsServerAddr : SocketAddr) (r : LocalResolver) : Op → LocalResolver
  | .request socket qname identify bm srcAddr =>
      (r.request dnsServerAddr socket qname identify bm srcAddr).1
  | .take qname identify => (r.take qname identify).2
  | .keepalive => r.keepalive

/-- The resolver after the first `n` of them. -/
def after (dnsServerAddr : SocketAddr) (r : LocalResolver) (ops : List Op) (n : Nat) :
    LocalResolver :=
  (ops.take n).foldl (step dnsServerAddr) r

/-- What a take returns. -/
def answer (dnsServerAddr : SocketAddr) (r : LocalResolver) (ops : List Op) (n : Nat) :
    Option SocketAddr :=
  match ops[n]? with
  | some (.take qname identify) => ((after dnsServerAddr r ops n).take qname identify).1
  | _ => none

/-- What it does to the notes. -/
def Op.act : Op → Generations.Act (String × UInt16) SocketAddr
  | .request _ qname identify _ srcAddr => .put (qname, identify) srcAddr
  | .take qname identify => .take (qname, identify)
  | .keepalive => .age

/-- Who has made a request. -/
def requester (ops : List Op) (i : Nat) : Option SocketAddr :=
  match ops[i]? with
  | some (.request _ _ _ _ srcAddr) => some srcAddr
  | _ => none

/-- A resolver that has just started on a socket. -/
def started (tx : Channel) (trigger : Trigger) : LocalResolver :=
  (new.start (some (tx, trigger))).2

theorem after_succ {dnsServerAddr : SocketAddr} {ops : List Op} {n : Nat} {op : Op}
    (h : ops[n]? = some op) : after dnsServerAddr r ops (n + 1) =
      step dnsServerAddr (after dnsServerAddr r ops n) op := by
  rw [after, List.take_add_one, h, Option.toList_some, List.foldl_append]
  rfl

theorem after_succ_none {dnsServerAddr : SocketAddr} {ops : List Op} {n : Nat}
    (h : ops[n]? = none) :
    after dnsServerAddr r ops (n + 1) = after dnsServerAddr r ops n := by
  rw [after, List.take_add_one, h, Option.toList_none, List.append_nil, after]

/-- The notes of a resolver are the store of the requests that are pending, and its channel
stays. -/
theorem notes_after (dnsServerAddr : SocketAddr) (tx : Channel) (trigger : Trigger)
    (ops : List Op) (n : Nat) :
    (after dnsServerAddr (started tx trigger) ops n).notes =
        (Generations.holders (ops.map Op.act) n).map Prod.snd ∧
      (after dnsServerAddr (started tx trigger) ops n).getTx = some tx := by
  induction n with
  | zero => exact ⟨rfl, rfl⟩
  | succ n ih =>
      obtain ⟨hnotes, htx⟩ := ih
      cases hop : ops[n]? with
      | none =>
          have hact : (ops.map Op.act)[n]? = none := by rw [List.getElem?_map, hop, Option.map_none]
          rw [after_succ_none hop]
          simp only [Generations.holders, hact]
          exact ⟨hnotes, htx⟩
      | some op =>
          have hact : (ops.map Op.act)[n]? = some op.act := by
            rw [List.getElem?_map, hop, Option.map_some]
          rw [after_succ hop]
          cases op with
          | request socket qname identify bm srcAddr =>
              rw [step, request_of_getTx htx, notes_insert, hnotes]
              simp only [Generations.holders, hact, Op.act]
              exact ⟨(Generations.map_put Prod.snd _ _ (n, srcAddr)).symm, htx⟩
          | take qname identify =>
              have htake := notes_take (after dnsServerAddr (started tx trigger) ops n) qname identify
              rw [hnotes, Generations.map_take] at htake
              simp only [Generations.holders, hact, Op.act]
              exact ⟨(congrArg Prod.snd htake).symm, getTx_take.trans htx⟩
          | keepalive =>
              rw [step, notes_keepalive, hnotes]
              simp only [Generations.holders, hact, Op.act]
              exact ⟨rfl, htx⟩

/-- What is answered is what the take is served. -/
theorem answer_eq (dnsServerAddr : SocketAddr) (tx : Channel) (trigger : Trigger)
    (ops : List Op) (n : Nat) : answer dnsServerAddr (started tx trigger) ops n =
      (Generations.served (ops.map Op.act) n).map Prod.snd := by
  have hnotes := (notes_after dnsServerAddr tx trigger ops n).1
  unfold answer Generations.served
  rw [List.getElem?_map]
  cases hop : ops[n]? with
  | none => rfl
  | some op =>
      cases op with
      | request socket qname identify bm srcAddr => rfl
      | take qname identify =>
          have htake := notes_take (after dnsServerAddr (started tx trigger) ops n) qname identify
          rw [hnotes, Generations.map_take] at htake
          exact (congrArg Prod.fst htake).symm
      | keepalive => rfl

theorem act_eq_take {ops : List Op} {n : Nat} {q : String × UInt16} :
    (ops.map Op.act)[n]? = some (.take q) ↔ ops[n]? = some (.take q.1 q.2) := by
  rw [List.getElem?_map, Option.map_eq_some_iff]
  constructor
  · rintro ⟨op, hop, hact⟩
    cases op with
    | request socket qname identify bm srcAddr => cases hact
    | take qname identify =>
        cases hact
        exact hop
    | keepalive => cases hact
  · intro hop
    exact ⟨_, hop, rfl⟩

theorem requester_of_put {ops : List Op} {i : Nat} {q : String × UInt16} {srcAddr : SocketAddr}
    (h : (ops.map Op.act)[i]? = some (.put q srcAddr)) : requester ops i = some srcAddr := by
  rw [List.getElem?_map, Option.map_eq_some_iff] at h
  obtain ⟨op, hop, hact⟩ := h
  cases op with
  | request socket qname identify bm srcAddr =>
      cases hact
      rw [requester, hop]
  | take qname identify => cases hact
  | keepalive => cases hact

open Generations in
/-- In every run of requests, takes and ticks on a socket, the requests that are taken can be
told (`got`): a take gets the pending request for its question that was made in the earlier
interval, and nothing else gets any.  It returns the address of that request, and it returns
one exactly when a request for its question is pending.  No request is got twice.  No two
questions have one key. -/
theorem run_takes (dnsServerAddr : SocketAddr) (tx : Channel) (trigger : Trigger)
    (ops : List Op) :
    (Function.Injective fun q : String × UInt16 => memoKey q.1 q.2) ∧
    ∃ got : Nat → Option Nat,
      (∀ n i, got n = some i ↔ ∃ qname identify, ops[n]? = some (.take qname identify) ∧
        Pending (ops.map Op.act) got (qname, identify) n i ∧
        ∀ j, Pending (ops.map Op.act) got (qname, identify) n j →
          interval (ops.map Op.act) i ≤ interval (ops.map Op.act) j) ∧
      (∀ n, answer dnsServerAddr (started tx trigger) ops n = (got n).bind (requester ops)) ∧
      (∀ n qname identify, ops[n]? = some (.take qname identify) →
        ((answer dnsServerAddr (started tx trigger) ops n).isSome ↔
          ∃ i, Pending (ops.map Op.act) got (qname, identify) n i)) ∧
      ∀ m n i, got m = some i → got n = some i → m = n := by
  refine ⟨memoKey_injective, Generations.got (ops.map Op.act), ?_, ?_, ?_, fun m n i => got_injective⟩
  · intro n i
    constructor
    · intro hgot
      obtain ⟨v, hserved⟩ := got_eq_some_iff.mp hgot
      obtain ⟨⟨qname, identify⟩, hact⟩ := take_of_served hserved
      exact ⟨qname, identify, act_eq_take.mp hact, (got_iff hact).mp hgot⟩
    · rintro ⟨qname, identify, hop, hpending⟩
      exact (got_iff (act_eq_take.mpr hop)).mpr hpending
  · intro n
    rw [answer_eq, Generations.got]
    cases hserved : served (ops.map Op.act) n with
    | none => rfl
    | some p =>
        obtain ⟨q, hput⟩ := put_of_served (i := p.1) (v := p.2) hserved
        exact (requester_of_put hput).symm
  · intro n qname identify hop
    rw [answer_eq, Option.isSome_map, ← got_isSome_iff (act_eq_take.mpr hop), Generations.got,
      Option.isSome_map]

end LproxyCv.Dns.LocalResolver
