import LproxyCv.Dns.DnsFrames
import LproxyCv.Lws.LwsFramed
import LproxyCv.Xport.XTunnel

set_option autoImplicit false

/-!
# Frames as the other side chose them

The three kinds of tunnels take a frame apart by its command.  Some branches look at the
length of what they read and some do not; this module says, for each kind, which frames are
read without a panic (`frames_survived_iff`).
-/

namespace LproxyCv

open Foundation Lws Net Tunnels Dns Xport

/-! ## Commands -/

/-- The third byte of a frame is a command, and what is behind it is as `P` says. -/
def HasCommand (buf : Bytes) (P : Cmd → Bytes → Prop) : Prop :=
  ∃ cmd : Cmd, buf[2]? = some cmd.toUInt8 ∧ P cmd (buf.drop 3)

theorem Cmd.ofUInt8_eq_some_iff {v : UInt8} {cmd : Cmd} :
    Cmd.ofUInt8 v = some cmd ↔ v = cmd.toUInt8 := by
  constructor
  · intro h
    unfold Cmd.ofUInt8 at h
    split at h <;> simp only [Option.some.injEq, reduceCtorEq] at h
    all_goals
      subst h
      rw [← UInt8.toNat_inj]
      assumption
  · rintro rfl
    exact Cmd.ofUInt8_toUInt8 cmd

theorem readCmd_eq_some_iff {buf body : Bytes} {cmd : Cmd} :
    readCmd buf = some (cmd, body) ↔ buf[2]? = some cmd.toUInt8 ∧ buf.drop 3 = body := by
  have hhead : buf[2]? = (buf.drop 2).head? := by simp
  have htail : buf.drop 3 = (buf.drop 2).tail := by simp
  rw [hhead, htail]
  unfold readCmd
  cases buf.drop 2 with
  | nil => simp
  | cons v rest => simp [Option.map_eq_some_iff, Cmd.ofUInt8_eq_some_iff]

theorem hasCommand_of_readCmd {buf body : Bytes} {cmd : Cmd} (h : readCmd buf = some (cmd, body))
    (P : Cmd → Bytes → Prop) : HasCommand buf P ↔ P cmd body := by
  obtain ⟨hcmd, hbody⟩ := readCmd_eq_some_iff.mp h
  constructor
  · rintro ⟨cmd', hcmd', hP⟩
    rw [hcmd, Option.some.injEq] at hcmd'
    have heq : some cmd = some cmd' := by
      rw [← Cmd.ofUInt8_toUInt8 cmd, hcmd', Cmd.ofUInt8_toUInt8]
    cases heq
    exact hbody ▸ hP
  · intro hP
    exact ⟨cmd, hcmd, hbody ▸ hP⟩

theorem not_hasCommand {buf : Bytes} (h : readCmd buf = none) (P : Cmd → Bytes → Prop) :
    ¬ HasCommand buf P := by
  rintro ⟨cmd, hcmd, _⟩
  rw [readCmd_eq_some_iff.mpr ⟨hcmd, rfl⟩] at h
  cases h

/-! ## What the branches read -/

/-- The address at an offset ends at another one, by its family. -/
def AddressTo (bs : Bytes) (offset last : Nat) : Prop :=
  ∃ tag, bs[offset + 2]? = some tag ∧ last = offset + (if tag = 0 then 7 else 19) ∧
    last ≤ bs.length

/-- Two addresses, one behind the other. -/
def TwoAddresses (bs : Bytes) : Prop := ∃ m n, AddressTo bs 0 m ∧ AddressTo bs m n

theorem readIpv4_isSome_iff (bs : Bytes) (offset : Nat) :
    (∃ v4, readIpv4 bs offset = some v4) ↔ offset + 4 ≤ bs.length := by
  constructor
  · rintro ⟨v4, h⟩
    simp only [readIpv4, Option.bind_eq_bind, Option.bind_eq_some_iff] at h
    obtain ⟨_, _, _, _, _, _, _, hlast, _⟩ := h
    have hfits := readLE_fits hlast
    omega
  · intro h
    unfold readIpv4
    rw [readLE_some (by omega), readLE_some (by omega), readLE_some (by omega),
      readLE_some (by omega)]
    exact ⟨_, rfl⟩

theorem readIpv6_isSome_iff (bs : Bytes) (offset : Nat) :
    (∃ v6, readIpv6 bs offset = some v6) ↔ offset + 16 ≤ bs.length := by
  constructor
  · rintro ⟨v6, h⟩
    simp only [readIpv6, Option.bind_eq_bind, Option.bind_eq_some_iff] at h
    obtain ⟨_, _, _, _, _, _, _, _, _, _, _, _, _, _, _, hlast, _⟩ := h
    have hfits := readLE_fits hlast
    omega
  · intro h
    unfold readIpv6
    rw [readLE_some (by omega), readLE_some (by omega), readLE_some (by omega),
      readLE_some (by omega), readLE_some (by omega), readLE_some (by omega),
      readLE_some (by omega), readLE_some (by omega)]
    exact ⟨_, rfl⟩

/-- What is read ends at `last`, if it fits. -/
theorem readTo_iff {α : Type} {x : Option α} {g : α → SocketAddr} {stop last size : Nat}
    (h : (∃ a, x = some a) ↔ stop ≤ size) :
    (∃ addr, (x.bind fun a => some (g a, stop)) = some (addr, last)) ↔
      last = stop ∧ last ≤ size := by
  constructor
  · rintro ⟨addr, heq⟩
    obtain ⟨a, ha, heq⟩ := Option.bind_eq_some_iff.mp heq
    cases heq
    exact ⟨rfl, h.mp ⟨a, ha⟩⟩
  · rintro ⟨rfl, hle⟩
    obtain ⟨a, ha⟩ := h.mpr hle
    exact ⟨g a, by rw [ha, Option.bind_some]⟩

/-- An address is read exactly where one ends. -/
theorem readSocketaddr_iff (bs : Bytes) (offset last : Nat) :
    (∃ addr, readSocketaddr bs offset = some (addr, last)) ↔ AddressTo bs offset last := by
  have htag : ∀ tag, bs[offset + 2]? = some tag →
      readLE 2 bs offset = some (leNat ((bs.drop offset).take 2)) ∧
        readLE 1 bs (offset + 2) = some tag.toNat := by
    intro tag h
    obtain ⟨hlt, hget⟩ := List.getElem?_eq_some_iff.mp h
    refine ⟨readLE_some (by omega), ?_⟩
    rw [readLE_some (by omega), List.take_one_drop_eq_of_lt_length hlt]
    simp [leNat, hget]
  cases hget : bs[offset + 2]? with
  | none =>
      have hnone : readLE 1 bs (offset + 2) = none := by
        unfold readLE
        rw [if_neg]
        have := List.getElem?_eq_none_iff.mp hget
        omega
      have hread : readSocketaddr bs offset = none := by
        simp [readSocketaddr, hnone]
      simp [AddressTo, hget, hread]
  | some tag =>
      obtain ⟨hport, hread⟩ := htag tag hget
      have hzero : tag.toNat = 0 ↔ tag = 0 := by
        rw [← UInt8.toNat_inj]
        rfl
      have haddr : ∀ last, AddressTo bs offset last ↔
          last = offset + (if tag = 0 then 7 else 19) ∧ last ≤ bs.length := by
        intro last
        simp [AddressTo, hget]
      rw [haddr]
      simp only [readSocketaddr, hport, hread, Option.bind_eq_bind, Option.bind_some, hzero]
      split
      · exact readTo_iff (readIpv4_isSome_iff bs (offset + 3))
      · exact readTo_iff (readIpv6_isSome_iff bs (offset + 3))

theorem readFrom_iff (bs : Bytes) :
    (∃ th, THeader.readFrom bs = some th) ↔ theaderSize ≤ bs.length := by
  constructor
  · rintro ⟨th, h⟩
    simp only [THeader.readFrom, Option.bind_eq_bind, Option.bind_eq_some_iff] at h
    obtain ⟨_, _, _, hlast, _⟩ := h
    exact readLE_fits hlast
  · intro h
    unfold theaderSize at h
    unfold THeader.readFrom
    rw [readLE_some (by omega), readLE_some (by omega)]
    exact ⟨_, rfl⟩

/-- A pong of another length is dropped, and one from the future is a panic. -/
theorem pongRtt_cases (bs : Bytes) (elapsed : UInt64) :
    (bs.length ≠ 8 ∧ pongRtt bs elapsed = some none) ∨
    (bs.length = 8 ∧ leNat bs ≤ elapsed.toNat ∧ ∃ rtt, pongRtt bs elapsed = some (some rtt)) ∨
    (bs.length = 8 ∧ elapsed.toNat < leNat bs ∧ pongRtt bs elapsed = none) := by
  by_cases hlen : bs.length = 8
  · have hrtt := pongRtt_of_length hlen elapsed
    by_cases hfuture : elapsed.toNat < leNat bs
    · rw [if_pos hfuture] at hrtt
      exact .inr (.inr ⟨hlen, hfuture, hrtt⟩)
    · rw [if_neg hfuture] at hrtt
      exact .inr (.inl ⟨hlen, Nat.le_of_not_lt hfuture, _, hrtt⟩)
  · exact .inl ⟨hlen, pongRtt_of_ne hlen elapsed⟩

theorem pongOf_readCmd {buf body : Bytes} {cmd : Cmd} (h : readCmd buf = some (cmd, body)) :
    ∃ out, pongOf buf = some out := by
  obtain ⟨hcmd, _⟩ := readCmd_eq_some_iff.mp h
  obtain ⟨hlt, _⟩ := List.getElem?_eq_some_iff.mp hcmd
  exact ⟨_, if_pos hlt⟩

/-- A step that succeeds exactly where `takes` holds, and is harmless where `wf` does not. -/
theorem survives_iff_of {α : Type} {x : Option α} {takes wf : Prop} {Harmless : α → Prop}
    (htakes : (∃ r, x = some r) ↔ takes) (hharmless : ∀ r, x = some r → ¬ wf → Harmless r) :
    (∃ r, x = some r ∧ (¬ wf → Harmless r)) ↔ takes := by
  rw [← htakes]
  constructor
  · rintro ⟨r, hr, _⟩
    exact ⟨r, hr⟩
  · rintro ⟨r, hr⟩
    exact ⟨r, hr, hharmless r hr⟩

/-- What follows a value that is read does not panic. -/
theorem exists_bind_iff {α β : Type} {x : Option α} {f : α → Option β}
    (h : ∀ a, ∃ b, f a = some b) : (∃ b, x.bind f = some b) ↔ ∃ a, x = some a := by
  constructor
  · rintro ⟨b, hb⟩
    obtain ⟨a, ha, _⟩ := Option.bind_eq_some_iff.mp hb
    exact ⟨a, ha⟩
  · rintro ⟨a, rfl⟩
    exact h a

/-! ## The client's tunnels -/

namespace Tunnels.Tunnel

/-- What the branch of a command takes. -/
def Takes (t : Tunnel) (elapsed : UInt64) : Cmd → Bytes → Prop
  | .pong, bs => bs.length = 8 → leNat bs ≤ elapsed.toNat
  | .udpX, bs => t.udpxTx.isSome → TwoAddresses bs
  | .reqData, bs => theaderSize ≤ bs.length
  | .reqServerFinished, bs => theaderSize ≤ bs.length
  | .reqServerClosed, bs => theaderSize ≤ bs.length
  | _, _ => True

/-- What the body of a command is when it is well formed. -/
def WellFormed (elapsed : UInt64) : Cmd → Bytes → Prop
  | .ping, _ => True
  | .pong, bs => bs.length = 8 ∧ leNat bs ≤ elapsed.toNat
  | .udpX, bs => TwoAddresses bs
  | .reqData, bs => theaderSize ≤ bs.length
  | .reqServerFinished, bs => theaderSize ≤ bs.length
  | .reqServerClosed, bs => theaderSize ≤ bs.length
  | _, _ => False

/-- Nothing is sent, and nothing but the load of the tunnel changes. -/
def Discarded (t : Tunnel) (r : Tunnel × List Effect) : Prop :=
  r.2 = [] ∧ ∃ b, r.1 = { t with busy := b }

/-- The frame is read without a panic, and discarded when it is malformed. -/
def Survives (t : Tunnel) (msg : RMessage) (elapsed : UInt64) : Prop :=
  ∃ r, t.onTunnelMsg msg elapsed = some r ∧
    (¬ HasCommand msg.buf (WellFormed elapsed) → t.Discarded r)

theorem onUdpxSouth_isSome_iff (t : Tunnel) {msg : RMessage} {bs : Bytes}
    (hbs : msg.buf.drop 3 = bs) :
    (∃ effects, t.onUdpxSouth msg = some effects) ↔ (t.udpxTx.isSome → TwoAddresses bs) := by
  unfold onUdpxSouth
  cases t.udpxTx with
  | none => simp
  | some udpx =>
      simp only [hbs, Option.bind_eq_bind, Option.isSome_some, true_imp_iff, TwoAddresses,
        ← readSocketaddr_iff]
      constructor
      · rintro ⟨effects, h⟩
        simp only [Option.bind_eq_some_iff] at h
        obtain ⟨⟨src, m⟩, hsrc, ⟨dst, n⟩, hdst, _⟩ := h
        exact ⟨m, n, ⟨src, hsrc⟩, ⟨dst, hdst⟩⟩
      · rintro ⟨m, n, ⟨src, hsrc⟩, ⟨dst, hdst⟩⟩
        exact ⟨_, by rw [hsrc, Option.bind_some, hdst, Option.bind_some]⟩

section Branches

variable {t : Tunnel} {msg : RMessage} {elapsed : UInt64} {cmd : Cmd} {bs : Bytes}

theorem onTunnelMsg_isSome_iff (hread : readCmd msg.buf = some (cmd, bs)) :
    (∃ r, t.onTunnelMsg msg elapsed = some r) ↔ t.Takes elapsed cmd bs := by
  obtain ⟨t', ht'⟩ : ∃ t' : Tunnel, t' = { t with busy := t.busy + (bs.length + 1) } := ⟨_, rfl⟩
  have hudpx : t'.udpxTx = t.udpxTx := by rw [ht']
  simp only [onTunnelMsg, hread, Option.bind_eq_bind, Option.bind_some]
  rw [← ht']
  cases cmd with
  | ping =>
      obtain ⟨out, hout⟩ := pongOf_readCmd hread
      simp [replyPing, hout, Takes]
  | pong =>
      rcases pongRtt_cases bs elapsed with ⟨hlen, hpong⟩ | ⟨hlen, hle, rtt, hpong⟩ |
        ⟨hlen, hlt, hpong⟩
      · simp [onPong, hpong, Takes, hlen]
      · simp [onPong, hpong, Takes, hle]
      · simp [onPong, hpong, Takes, hlen, hlt]
  | udpX =>
      have hsouth := t'.onUdpxSouth_isSome_iff (readCmd_eq_some_iff.mp hread).2
      rw [hudpx] at hsouth
      rw [Takes, ← hsouth]
      exact exists_bind_iff fun effects => ⟨_, rfl⟩
  | reqData =>
      rw [Takes, ← readFrom_iff]
      refine exists_bind_iff fun th => ?_
      cases t'.getRequestTx th.reqIdx th.reqTag <;> exact ⟨_, rfl⟩
  | reqServerFinished =>
      rw [Takes, ← readFrom_iff]
      exact exists_bind_iff fun th => ⟨_, rfl⟩
  | reqServerClosed =>
      rw [Takes, ← readFrom_iff]
      exact exists_bind_iff fun th => ⟨_, rfl⟩
  | _ => simp [Takes]

theorem onTunnelMsg_discarded (hread : readCmd msg.buf = some (cmd, bs))
    {r : Tunnel × List Effect} (h : t.onTunnelMsg msg elapsed = some r)
    (hwf : ¬ WellFormed elapsed cmd bs) : t.Discarded r := by
  have htakes := (onTunnelMsg_isSome_iff hread).mp ⟨r, h⟩
  simp only [onTunnelMsg, hread, Option.bind_eq_bind, Option.bind_some] at h
  cases cmd with
  | ping => exact absurd trivial hwf
  | pong =>
      have hlen : bs.length ≠ 8 := fun hlen => hwf ⟨hlen, htakes hlen⟩
      simp only [onPong, pongRtt, hlen, ne_eq, not_false_eq_true, if_true, Option.bind_eq_bind,
        Option.bind_some, Option.some.injEq] at h
      rw [← h]
      exact ⟨rfl, _, rfl⟩
  | udpX =>
      have hnone : t.udpxTx = none := by
        cases hudpx : t.udpxTx with
        | none => rfl
        | some udpx => exact absurd (htakes (by rw [hudpx]; rfl)) hwf
      have hsouth : Tunnel.onUdpxSouth { t with busy := t.busy + (bs.length + 1) } msg =
          some [] := by
        rw [onUdpxSouth, hnone]
      simp only [hsouth, Option.bind_some, Option.some.injEq] at h
      rw [← h]
      exact ⟨rfl, _, rfl⟩
  | reqData => exact absurd htakes hwf
  | reqServerFinished => exact absurd htakes hwf
  | reqServerClosed => exact absurd htakes hwf
  | _ =>
      cases h
      exact ⟨rfl, _, rfl⟩

end Branches

/-- A frame is survived exactly when its command is one and the branch takes its body. -/
theorem survives_iff (t : Tunnel) (msg : RMessage) (elapsed : UInt64) :
    t.Survives msg elapsed ↔ HasCommand msg.buf (t.Takes elapsed) := by
  cases hread : readCmd msg.buf with
  | none => simp [Survives, onTunnelMsg, hread, not_hasCommand hread]
  | some r =>
      rw [Survives, hasCommand_of_readCmd hread, hasCommand_of_readCmd hread]
      exact survives_iff_of (onTunnelMsg_isSome_iff hread)
        fun r hr => onTunnelMsg_discarded hread hr

end Tunnels.Tunnel

/-! ## The reverse tunnel -/

namespace Xport.XTunnel

/-- What the branch of a command takes. -/
def Takes (elapsed : UInt64) : Cmd → Bytes → Prop
  | .ping, _ => True
  | .pong, bs => bs.length = 8 → leNat bs ≤ elapsed.toNat
  | .reqCreated, bs => theaderSize + 2 ≤ bs.length
  | _, bs => theaderSize ≤ bs.length

/-- What the body of a command is when it is well formed. -/
def WellFormed (elapsed : UInt64) : Cmd → Bytes → Prop
  | .ping, _ => True
  | .pong, bs => bs.length = 8 ∧ leNat bs ≤ elapsed.toNat
  | .reqCreated, bs => theaderSize + 2 ≤ bs.length
  | .reqData, bs => theaderSize ≤ bs.length
  | .reqClientFinished, bs => theaderSize ≤ bs.length
  | .reqClientClosed, bs => theaderSize ≤ bs.length
  | _, _ => False

/-- The frame is read without a panic; when it is malformed, the tunnel stays as it is,
nothing is sent and no request is opened. -/
def Survives (t : XTunnel) (msg : RMessage) (elapsed : UInt64) (id : Nat) : Prop :=
  ∃ r, t.onTunnelMsg msg elapsed id = some r ∧
    (¬ HasCommand msg.buf (WellFormed elapsed) → r = (t, [], none))

section Branches

variable {t : XTunnel} {msg : RMessage} {elapsed : UInt64} {id : Nat} {cmd : Cmd} {bs : Bytes}

theorem onTunnelMsg_isSome_iff (hread : readCmd msg.buf = some (cmd, bs)) :
    (∃ r, t.onTunnelMsg msg elapsed id = some r) ↔ Takes elapsed cmd bs := by
  simp only [onTunnelMsg, hread, Option.bind_eq_bind, Option.bind_some]
  cases cmd with
  | ping =>
      obtain ⟨out, hout⟩ := pongOf_readCmd hread
      cases htx : t.tunTx <;> simp [replyPing, htx, hout, Takes]
  | pong =>
      rcases pongRtt_cases bs elapsed with ⟨hlen, hpong⟩ | ⟨hlen, hle, rtt, hpong⟩ |
        ⟨hlen, hlt, hpong⟩
      · simp [onPong, hpong, Takes, hlen]
      · simp [onPong, hpong, Takes, hle]
      · simp [onPong, hpong, Takes, hlen, hlt]
  | reqCreated =>
      have hport : ∀ th : THeader, (∃ r, ((readLE 2 (bs.drop theaderSize) 0).bind fun port =>
          let r := t.onReqCreated id th (UInt16.ofNat port)
          some (r.1, ([] : List Effect), r.2)) = some r) ↔ theaderSize + 2 ≤ bs.length := by
        intro th
        rw [exists_bind_iff fun port => ⟨_, rfl⟩]
        constructor
        · rintro ⟨port, h⟩
          have hfits := readLE_fits h
          rw [List.length_drop] at hfits
          omega
        · intro h
          refine ⟨_, readLE_some ?_⟩
          rw [List.length_drop]
          omega
      constructor
      · rintro ⟨r, h⟩
        obtain ⟨th, _, h⟩ := Option.bind_eq_some_iff.mp h
        exact (hport th).mp ⟨r, h⟩
      · intro h
        obtain ⟨th, hth⟩ := (readFrom_iff bs).mpr (Nat.le_of_add_right_le h)
        obtain ⟨r, hr⟩ := (hport th).mpr h
        exact ⟨r, Option.bind_eq_some_iff.mpr ⟨th, hth, hr⟩⟩
  | reqData =>
      refine (exists_bind_iff fun th => ?_).trans (readFrom_iff bs)
      cases t.getRequestTx th.reqIdx th.reqTag <;> exact ⟨_, rfl⟩
  | _ => exact (exists_bind_iff fun th => ⟨_, rfl⟩).trans (readFrom_iff bs)

theorem onTunnelMsg_discarded (hread : readCmd msg.buf = some (cmd, bs))
    {r : XTunnel × List Effect × Option ProxyTask} (h : t.onTunnelMsg msg elapsed id = some r)
    (hwf : ¬ WellFormed elapsed cmd bs) : r = (t, [], none) := by
  have htakes := (onTunnelMsg_isSome_iff hread).mp ⟨r, h⟩
  simp only [onTunnelMsg, hread, Option.bind_eq_bind, Option.bind_some] at h
  cases cmd with
  | ping => exact absurd trivial hwf
  | pong =>
      have hlen : bs.length ≠ 8 := fun hlen => hwf ⟨hlen, htakes hlen⟩
      simp only [onPong, pongRtt, hlen, ne_eq, not_false_eq_true, if_true, Option.bind_eq_bind,
        Option.bind_some, Option.some.injEq] at h
      exact h.symm
  | reqCreated => exact absurd htakes hwf
  | reqData => exact absurd htakes hwf
  | reqClientFinished => exact absurd htakes hwf
  | reqClientClosed => exact absurd htakes hwf
  | _ =>
      obtain ⟨th, _, h⟩ := Option.bind_eq_some_iff.mp h
      cases h
      rfl

end Branches

/-- A frame is survived exactly when its command is one and the branch takes its body. -/
theorem survives_iff (t : XTunnel) (msg : RMessage) (elapsed : UInt64) (id : Nat) :
    t.Survives msg elapsed id ↔ HasCommand msg.buf (Takes elapsed) := by
  cases hread : readCmd msg.buf with
  | none => simp [Survives, onTunnelMsg, hread, not_hasCommand hread]
  | some r =>
      rw [Survives, hasCommand_of_readCmd hread, hasCommand_of_readCmd hread]
      exact survives_iff_of (onTunnelMsg_isSome_iff hread)
        fun r hr => onTunnelMsg_discarded hread hr

end Xport.XTunnel

/-! ## The forwarder's tunnels -/

namespace Dns.DnsTunnel

/-- What the branch of a command takes.  An answer that is parsed must not be cut short, and
there must be a receiver for it, if the parser gets to its end. -/
def Takes (t : DnsTunnel) (elapsed : UInt64) (sent : Bool) : Cmd → Bytes → Prop
  | .pong, bs => bs.length = 8 → leNat bs ≤ elapsed.toNat
  | .reqData, bs => 6 ≤ bs.length → t.udpTx.isSome →
      ¬ CutShort (bs.drop 6) ∧ (sent = true ∨ GoesRound (bs.drop 6))
  | _, _ => True

/-- What the body of a command is when it is well formed. -/
def WellFormed (elapsed : UInt64) : Cmd → Bytes → Prop
  | .ping, _ => True
  | .pong, bs => bs.length = 8 ∧ leNat bs ≤ elapsed.toNat
  | .reqData, bs => 6 ≤ bs.length
  | _, _ => False

/-- The frame is read without a panic; when it is malformed, the tunnel stays as it is and
nothing is sent. -/
def Survives (unicode : UnicodeLower) (t : DnsTunnel) (msg : RMessage) (elapsed : UInt64)
    (sent : Bool) : Prop :=
  (∀ fuel, t.onTunnelMsg unicode fuel msg elapsed sent ≠ .panic) ∧
    (¬ HasCommand msg.buf (WellFormed elapsed) →
      ∀ fuel, t.onTunnelMsg unicode fuel msg elapsed sent = .ok (t, []))

/-- An answer is a panic exactly when it is cut short, or is parsed to its end for a
receiver that is gone. -/
theorem onReqData_panics_iff (unicode : UnicodeLower) (t : DnsTunnel) (bs : Bytes) (sent : Bool) :
    (∀ fuel, t.onReqData unicode fuel bs sent ≠ .panic) ↔
      (6 ≤ bs.length → t.udpTx.isSome →
        ¬ CutShort (bs.drop 6) ∧ (sent = true ∨ GoesRound (bs.drop 6))) := by
  by_cases hlong : 6 ≤ bs.length
  · cases hudp : t.udpTx with
    | none => simp [onReqData, hudp]
    | some udp =>
        have hfollows := DnsPacket.follows_fromBuffer unicode (bs.drop 6)
        have hhangs := DnsPacket.hangs_fromBuffer unicode (bs.drop 6)
        have hport : readLE 2 bs 0 = some (leNat ((bs.drop 0).take 2)) := readLE_some (by omega)
        have hip : readLE 4 bs 2 = some (leNat ((bs.drop 2).take 4)) := readLE_some (by omega)
        have hshort : ¬ bs.length < 6 := by omega
        have hpanic : ∀ fuel, t.onReqData unicode fuel bs sent = .panic ↔
            DnsPacket.fromBuffer unicode fuel ⟨bs.drop 6, 0⟩ = .panic ∨
              (sent = false ∧ ((∃ r, DnsPacket.fromBuffer unicode fuel ⟨bs.drop 6, 0⟩ = .ok r) ∨
                ∃ e, DnsPacket.fromBuffer unicode fuel ⟨bs.drop 6, 0⟩ = .err e)) := by
          intro fuel
          simp only [onReqData, if_neg hshort, hudp, hport, hip]
          cases DnsPacket.fromBuffer unicode fuel ⟨bs.drop 6, 0⟩ <;> cases sent <;> simp
        have hcut : (∃ fuel, DnsPacket.fromBuffer unicode fuel ⟨bs.drop 6, 0⟩ = .panic) ↔
            CutShort (bs.drop 6) := by
          refine ⟨?_, fun h => hfollows.cut 0 h⟩
          rintro ⟨fuel, h⟩
          exact hfollows.panic fuel 0 h
        have hsettles := hhangs.settles_iff hfollows (p := 0)
        have hany : (∃ fuel, t.onReqData unicode fuel bs sent = .panic) ↔
            CutShort (bs.drop 6) ∨ (sent = false ∧ ¬ GoesRound (bs.drop 6) ∧
              ¬ CutShort (bs.drop 6)) := by
          simp only [hpanic]
          rw [exists_or, hcut, exists_and_left]
          exact or_congr_right (and_congr_right fun _ => hsettles)
        have hnot := not_congr hany
        rw [not_exists] at hnot
        rw [hnot]
        by_cases hcutShort : CutShort (bs.drop 6) <;> by_cases hround : GoesRound (bs.drop 6) <;>
          simp [hlong, hcutShort, hround]
  · have hshort : bs.length < 6 := by omega
    simp [onReqData, hshort, hlong]

/-- A frame is survived exactly when its command is one and the branch takes its body. -/
theorem survives_iff (unicode : UnicodeLower) (t : DnsTunnel) (msg : RMessage) (elapsed : UInt64)
    (sent : Bool) : t.Survives unicode msg elapsed sent ↔
      HasCommand msg.buf (t.Takes elapsed sent) := by
  cases hread : readCmd msg.buf with
  | none => simp [Survives, onTunnelMsg, hread, not_hasCommand hread]
  | some r =>
      obtain ⟨cmd, bs⟩ := r
      rw [Survives, hasCommand_of_readCmd hread, hasCommand_of_readCmd hread]
      simp only [onTunnelMsg, hread]
      cases cmd with
      | ping =>
          obtain ⟨out, hout⟩ := pongOf_readCmd hread
          simp [replyPing, hout, Takes, WellFormed]
      | pong =>
          rcases pongRtt_cases bs elapsed with ⟨hlen, hpong⟩ | ⟨hlen, hle, rtt, hpong⟩ |
            ⟨hlen, hlt, hpong⟩
          · simp [onPong, hpong, Takes, hlen]
          · simp [onPong, hpong, Takes, WellFormed, hlen, hle]
          · simp [onPong, hpong, Takes, hlen, hlt]
      | reqData =>
          have hpanics : (∀ fuel, ((t.onReqData unicode fuel bs sent).bind fun effects =>
              .ok (t, effects)) ≠ .panic) ↔ ∀ fuel, t.onReqData unicode fuel bs sent ≠ .panic := by
            refine forall_congr' fun fuel => not_congr ?_
            rw [Outcome.bind_eq_panic_iff]
            simp
          rw [hpanics, onReqData_panics_iff, Takes]
          refine and_iff_left fun hwf fuel => ?_
          have hshort : bs.length < 6 := Nat.lt_of_not_le hwf
          simp [onReqData, hshort, Outcome.bind]
      | _ => simp [Takes]

end Dns.DnsTunnel

/-- For each kind of tunnel, in every state: a frame is read without a panic, and discarded
when it is malformed, exactly when its third byte is a command and what is behind it is
something the branch of the command takes. -/
theorem frames_survived_iff (msg : RMessage) (elapsed : UInt64) :
    (∀ t : Tunnel, t.Survives msg elapsed ↔ HasCommand msg.buf (t.Takes elapsed)) ∧
    (∀ (t : XTunnel) (id : Nat),
      t.Survives msg elapsed id ↔ HasCommand msg.buf (XTunnel.Takes elapsed)) ∧
    (∀ (unicode : UnicodeLower) (t : DnsTunnel) (sent : Bool),
      t.Survives unicode msg elapsed sent ↔ HasCommand msg.buf (t.Takes elapsed sent)) :=
  ⟨fun t => t.survives_iff msg elapsed, fun t => t.survives_iff msg elapsed,
    fun unicode t => DnsTunnel.survives_iff unicode t msg elapsed⟩

/-- The peer can send a frame that is a length and nothing else, and each tunnel panics on
it, whatever its state. -/
theorem bare_length_not_survived : ∃ f msg,
    (LwsFramed.new ⟨[.data [2, 0]], [], []⟩ none).pollNext = (f, .item msg) ∧
      (∀ (t : Tunnel) (elapsed : UInt64), t.onTunnelMsg msg elapsed = none) ∧
      (∀ (t : XTunnel) (elapsed : UInt64) (id : Nat), t.onTunnelMsg msg elapsed id = none) ∧
      (∀ (unicode : UnicodeLower) (fuel : Nat) (t : DnsTunnel) (elapsed : UInt64) (sent : Bool),
        t.onTunnelMsg unicode fuel msg elapsed sent = .panic) := by
  have hread : readCmd [2, 0] = none := rfl
  refine ⟨_, ⟨[2, 0], 2, none⟩, rfl, fun t elapsed => ?_, fun t elapsed id => ?_,
    fun unicode fuel t elapsed sent => ?_⟩
  · simp [Tunnel.onTunnelMsg, hread]
  · simp [XTunnel.onTunnelMsg, hread]
  · simp [DnsTunnel.onTunnelMsg, hread]

end LproxyCv
