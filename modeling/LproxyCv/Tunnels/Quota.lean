import LproxyCv.Tunnels.ReqServ
import LproxyCv.Tunnels.TunSteps
import Mathlib.Logic.Relation

set_option autoImplicit false

/-!
# Tunnels: what the client owes the server

A tunnel tells the server its quota when it connects, and the task of a request reports what it
has written out as soon as that is half the quota.  Half a quota of one is nothing, which the
count never meets before it overflows.  `credits_conserved_iff` says for which quotas nothing is
lost and less than a quota is held back.
-/

namespace LproxyCv.Tunnels

open LproxyCv.Foundation LproxyCv.Lws LproxyCv.Net

/-! ## Counting -/

/-- What a report says. -/
def reportedQuota : Effect → Option Nat
  | .send _ msg =>
      match readCmd msg.buf with
      | some (.reqClientQuota, body) => readLE 2 body theaderSize
      | _ => none
  | _ => none

namespace ReqServ

/-- The count after `n` messages, and the reports so far. -/
def countMessages (tun : TunStub) : Nat → UInt16 × List Effect
  | 0 => (0, [])
  | n + 1 =>
      let r := countWriteOut tun (countMessages tun n).1
      (r.1, (countMessages tun n).2 ++ r.2)

/-- After `n` messages, what was reported and what is counted are all of them, another message
does not make the count overflow, and less than `quota` is not reported. -/
structure Conserves (tun : TunStub) (quota : UInt16) (n : Nat) : Prop where
  sum : ((countMessages tun n).2.filterMap reportedQuota).sum + (countMessages tun n).1.toNat = n
  noOverflow : (countMessages tun n).1.toNat + 1 < 2 ^ 16
  held : (countMessages tun n).1 < quota

/-- A report is read as what it was made of. -/
theorem reportedQuota_sendRequestQuota (tun : TunStub) (quota : UInt16) :
    reportedQuota (sendRequestQuota tun quota) = some quota.toNat := by
  have hblock := readLE_block tun.header.toBytes (leBytes 2 quota.toNat) []
  rw [leBytes_length, leNat_leBytes_of_lt quota.toNat_lt, THeader.toBytes_length,
    List.append_nil] at hblock
  simpa only [reportedQuota, sendRequestQuota, WMessage.new, readCmd_frame] using hblock

/-- While the count is below a threshold that is not zero, it is what was not reported. -/
theorem countMessages_cases (tun : TunStub) (hpos : 0 < (tun.requestQuota / 2).toNat) (n : Nat) :
    ∃ reports, (countMessages tun n).2 =
        List.replicate reports (sendRequestQuota tun (tun.requestQuota / 2)) ∧
      reports * (tun.requestQuota / 2).toNat + (countMessages tun n).1.toNat = n ∧
      (countMessages tun n).1.toNat < (tun.requestQuota / 2).toNat := by
  have hbound := (tun.requestQuota / 2).toNat_lt
  induction n with
  | zero => exact ⟨0, rfl, by simp [countMessages], hpos⟩
  | succ n ih =>
      obtain ⟨reports, heffects, hsum, hlt⟩ := ih
      have hnext : ((countMessages tun n).1 + 1).toNat = (countMessages tun n).1.toNat + 1 := by
        rw [UInt16.toNat_add, UInt16.toNat_one]
        omega
      simp only [countMessages, countWriteOut]
      split
      · rename_i hmeets
        have hval := congrArg UInt16.toNat hmeets
        rw [hnext] at hval
        refine ⟨reports + 1, ?_, ?_, hpos⟩
        · rw [heffects, hmeets, List.replicate_succ']
        · rw [Nat.succ_mul, ← hval]
          show reports * _ + _ + 0 = n + 1
          rw [hval]
          omega
      · rename_i hmisses
        have hne : (countMessages tun n).1.toNat + 1 ≠ (tun.requestQuota / 2).toNat := by
          intro heq
          exact hmisses (UInt16.toNat_inj.mp (hnext.trans heq))
        refine ⟨reports, by rw [heffects, List.append_nil], ?_, ?_⟩
        · rw [hnext]
          omega
        · rw [hnext]
          omega

/-- A request conserves the credits of its quota exactly when half the quota is not nothing. -/
theorem conserves_iff (tun : TunStub) :
    (∀ n, Conserves tun tun.requestQuota n) ↔ 2 ≤ tun.requestQuota.toNat := by
  have hhalf : (tun.requestQuota / 2).toNat = tun.requestQuota.toNat / 2 := by
    rw [UInt16.toNat_div]
    rfl
  constructor
  · intro hall
    by_contra hsmall
    -- the threshold is zero, so the first message is held back
    have hzero : tun.requestQuota / 2 = 0 := by
      apply UInt16.toNat_inj.mp
      rw [hhalf, UInt16.toNat_zero]
      omega
    have hone : countMessages tun 1 = (1, []) := by
      simp only [countMessages, countWriteOut, hzero]
      rfl
    have hheld := (hall 1).held
    rw [hone, UInt16.lt_iff_toNat_lt] at hheld
    exact hsmall hheld
  · intro hquota n
    have hbound := tun.requestQuota.toNat_lt
    obtain ⟨reports, heffects, hsum, hlt⟩ := countMessages_cases tun (by omega) n
    refine ⟨?_, by omega, ?_⟩
    · rw [heffects, List.filterMap_replicate_of_some (reportedQuota_sendRequestQuota tun _),
        List.sum_replicate_nat, hsum]
    · rw [UInt16.lt_iff_toNat_lt]
      omega

end ReqServ

/-! ## From the configuration to the stub -/

namespace Tunnel

/-- What the manager does to a tunnel in its table. -/
inductive Moves : Tunnel → Tunnel → Prop where
  | created (t : Tunnel) (req : Request) (ip : IpAddr) (port : UInt16) :
      Moves t (t.onRequestCreated req ip port).1
  | closed (t : Tunnel) (tunstub : TunStub) : Moves t (t.onRequestClosed tunstub).1
  | message {t t' : Tunnel} {msg : RMessage} {elapsed : UInt64} {effects : List Effect} :
      t.onTunnelMsg msg elapsed = some (t', effects) → Moves t t'
  | pinged (t : Tunnel) (elapsed : UInt64) (sent : Bool) : Moves t (t.sendPing elapsed sent).2.1
  | sorted (t : Tunnel) : Moves t t.resetBusy
  | udpx (t : Tunnel) (tx : Channel) : Moves t (t.setUdpxTx tx)

/-- A tunnel stays what it was when it connected. -/
theorem Moves.sameSetup {t t' : Tunnel} (h : t.Moves t') : t.SameSetup t' := by
  cases h with
  | created req ip port => exact (t.sameSetup_onRequestCreated req ip port).1
  | closed tunstub => exact ⟨rfl, rfl, rfl, rfl⟩
  | message hmsg => exact sameSetup_onTunnelMsg hmsg
  | pinged elapsed sent => exact (t.alike_sendPing elapsed sent).toSameSetup
  | sorted => exact t.alike_resetBusy.toSameSetup
  | udpx tx => exact (t.alike_setUdpxTx tx).toSameSetup

theorem sameSetup_of_moves {t t' : Tunnel} (h : Relation.ReflTransGen Moves t t') :
    t.SameSetup t' := by
  induction h with
  | refl => exact .refl t
  | tail _ hmove ih => exact ih.trans hmove.sameSetup

end Tunnel

namespace TunMgr

/-- The quota of a manager is the one of its configuration, in sixteen bits. -/
def Configured (m : TunMgr) (cfg : TunCfg) : Prop :=
  m.requestQuota = UInt16.ofNat cfg.requestQuota

theorem configured_new (tunnelCount : Nat) (cfg : TunCfg) : (new tunnelCount cfg).Configured cfg :=
  rfl

open Relation ReqServ in
/-- The quota that a tunnel announces, and what the requests of the tunnel do with it: the
credits are conserved exactly when the configured quota is at least two in sixteen bits. -/
theorem credits_conserved_iff {m : TunMgr} {cfg : TunCfg} (hcfg : m.Configured cfg) (index : Nat)
    (tx : Channel) (rawfd : Int) {t : Tunnel}
    (hrun : ReflTransGen Tunnel.Moves ((m.connectTask index).tunnel tx rawfd) t) {req : Request}
    {ip : IpAddr} {port : UInt16} {tun : TunStub}
    (hstub : (t.onRequestCreated req ip port).2.1 = some tun) :
    ∃ quota, (m.connectTask index).wsUrl =
        s!"{m.url}?tok={m.token}&cap={m.tunnelReqCap}&quota={quota}" ∧
      ((∀ n, Conserves tun quota n) ↔ 2 ≤ cfg.requestQuota % 2 ^ 16) := by
  have hquota : tun.requestQuota = m.requestQuota :=
    ((t.sameSetup_onRequestCreated req ip port).2 tun hstub).trans
      (Tunnel.sameSetup_of_moves hrun).requestQuota
  have hbits : m.requestQuota.toNat = cfg.requestQuota % 2 ^ 16 := by
    rw [hcfg, UInt16.toNat_ofNat']
  refine ⟨m.requestQuota, rfl, ?_⟩
  rw [← hbits, ← hquota]
  exact conserves_iff tun

/-- A configuration with a quota. -/
def quotaCfg (requestQuota : Nat) : TunCfg :=
  { tunnelUrl := "wss://127.0.0.1/tun"
    tunnelReqCap := 4
    relayDomain := "127.0.0.1"
    relayPort := 12345
    dnsTunnelNumber := 1
    defaultDnsServer := "223.5.5.5"
    requestQuota := requestQuota
    xportUrl := ""
    token := "" }

/-- The first request of a tunnel with a quota of a hundred. -/
theorem credits_conserved_hundred :
    let m := new 1 (quotaCfg 100)
    ∃ quota, (m.connectTask 0).wsUrl =
        s!"{m.url}?tok={m.token}&cap={m.tunnelReqCap}&quota={quota}" ∧
      ((∀ n, ReqServ.Conserves ⟨5, 0, 0, 1, 100⟩ quota n) ↔
        2 ≤ (quotaCfg 100).requestQuota % 2 ^ 16) := by
  have hstub : ((((new 1 (quotaCfg 100)).connectTask 0).tunnel 5 6).onRequestCreated
      (Request.withTx 7 8) (.v4 ⟨10, 0, 0, 1⟩) 80).2.1 = some ⟨5, 0, 0, 1, 100⟩ := rfl
  exact credits_conserved_iff (configured_new 1 (quotaCfg 100)) 0 5 6 .refl hstub

/-- With a quota of one, the first message is all of it, and no report is made. -/
theorem credits_held_back :
    let t := ((new 1 (quotaCfg 1)).connectTask 0).tunnel 5 6
    (t.onRequestCreated (Request.withTx 7 8) (.v4 ⟨10, 0, 0, 1⟩) 80).2.1 =
        some ⟨5, 0, 0, 1, 1⟩ ∧
      (ReqServ.countMessages ⟨5, 0, 0, 1, 1⟩ 1) = (1, []) ∧
      ¬ ReqServ.Conserves ⟨5, 0, 0, 1, 1⟩ 1 1 := by
  refine ⟨rfl, rfl, ?_⟩
  intro hconserves
  exact absurd hconserves.held (by decide)

end TunMgr

end LproxyCv.Tunnels
