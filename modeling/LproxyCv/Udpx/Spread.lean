import LproxyCv.Tunnels.TunMgr
import LproxyCv.Udpx.Cache
import Mathlib.Data.Nat.ModEq
import Mathlib.Data.Fintype.Card
import Mathlib.Data.Fintype.Prod

set_option autoImplicit false

/-!
# Udpx: how UDP packets are spread over the tunnels

A packet is given to the tunnel manager that its hash selects, and the manager gives it to
the tunnel that the same hash selects.
-/

namespace LproxyCv.Udpx

open LproxyCv.Foundation LproxyCv.Net LproxyCv.Tunnels

/-! ## One number and two remainders -/

/-- Every pair of remainders is that of a number below `size` exactly when the moduli have
no common factor and `size` leaves room for all pairs. -/
theorem remainders_iff {m n : Nat} (hm : 0 < m) (hn : 0 < n) (size : Nat) :
    (∀ i < m, ∀ j < n, ∃ h < size, h % m = i ∧ h % n = j) ↔
      Nat.Coprime m n ∧ m * n ≤ size := by
  constructor
  · intro hall
    constructor
    · -- a common factor would divide a number and the next one
      obtain ⟨h, _, hi, hj⟩ := hall 0 hm (1 % n) (Nat.mod_lt 1 hn)
      have hzero : h ≡ 0 [MOD Nat.gcd m n] := Nat.ModEq.of_dvd (Nat.gcd_dvd_left m n) hi
      have hone : h ≡ 1 [MOD Nat.gcd m n] := Nat.ModEq.of_dvd (Nat.gcd_dvd_right m n) hj
      exact Nat.dvd_one.mp (Nat.modEq_zero_iff_dvd.mp (hone.symm.trans hzero))
    · have hsurj : Function.Surjective fun h : Fin size =>
          ((⟨h % m, Nat.mod_lt _ hm⟩, ⟨h % n, Nat.mod_lt _ hn⟩) : Fin m × Fin n) := by
        rintro ⟨⟨i, hi⟩, ⟨j, hj⟩⟩
        obtain ⟨h, hsize, hmod⟩ := hall i hi j hj
        exact ⟨⟨h, hsize⟩, by simp [hmod.1, hmod.2]⟩
      have hcard := Fintype.card_le_of_surjective _ hsurj
      rwa [Fintype.card_prod, Fintype.card_fin, Fintype.card_fin, Fintype.card_fin] at hcard
  · rintro ⟨hco, hsize⟩ i hi j hj
    obtain ⟨hmodm, hmodn⟩ := (Nat.chineseRemainder hco i j).2
    have hlt := Nat.chineseRemainder_lt_mul hco i j hm.ne' hn.ne'
    refine ⟨Nat.chineseRemainder hco i j, Nat.lt_of_lt_of_le hlt hsize, ?_, ?_⟩
    · exact Eq.trans hmodm (Nat.mod_eq_of_lt hi)
    · exact Eq.trans hmodn (Nat.mod_eq_of_lt hj)

/-! ## The two levels -/

namespace UdpXMgr

/-- What a tunnel manager is told about a packet. -/
structure UdpProxy where
  msg : Bytes
  srcAddr : SocketAddr
  dstAddr : SocketAddr
  hashCode : Nat
  deriving DecidableEq, Repr

/-- Give a packet to the tunnel manager that its hash selects, if there is one. -/
def onUdpMsgForward (calcHashCode : SocketAddr → SocketAddr → Nat) (tmstubs : List Channel)
    (msg : Bytes) (srcAddr dstAddr : SocketAddr) : Option (Channel × UdpProxy) :=
  if tmstubs.length < 1 then none
  else
    let hashCode := calcHashCode srcAddr dstAddr
    let tmIndex := hashCode % tmstubs.length
    tmstubs[tmIndex]?.map fun tx => (tx, ⟨msg, srcAddr, dstAddr, hashCode⟩)

/-- Among `m` managers, packets with this hash are given to manager `i`. -/
def SelectsManager (m i hashCode : Nat) : Prop :=
  ∀ (calcHashCode : SocketAddr → SocketAddr → Nat) (tmstubs : List Channel) (tx : Channel)
    (msg : Bytes) (srcAddr dstAddr : SocketAddr), tmstubs.length = m → tmstubs[i]? = some tx →
      calcHashCode srcAddr dstAddr = hashCode →
        onUdpMsgForward calcHashCode tmstubs msg srcAddr dstAddr =
          some (tx, ⟨msg, srcAddr, dstAddr, hashCode⟩)

end UdpXMgr

/-- Among `n` tunnels, packets with this hash go through tunnel `j`. -/
def SelectsTunnel (n j hashCode : Nat) : Prop :=
  ∀ (mgr : TunMgr) (tun : Tunnel) (msg : Bytes) (srcAddr dstAddr : SocketAddr),
    mgr.tunnels.length = n → mgr.getTunnel j = some tun →
      mgr.udpProxyNorth msg srcAddr dstAddr hashCode =
        some (mgr.logAccess srcAddr.ip dstAddr.ip, [tun.udpProxyNorth msg srcAddr dstAddr])

theorem selectsManager_iff {m i : Nat} (hi : i < m) (hashCode : Nat) :
    UdpXMgr.SelectsManager m i hashCode ↔ hashCode % m = i := by
  constructor
  · intro h
    -- managers whose channels are their numbers
    have hget : (List.range m)[i]? = some i := by simp [hi]
    have hforward := h (fun _ _ => hashCode) (List.range m) i [] ⟨.v4 ⟨0, 0, 0, 0⟩, 0⟩
      ⟨.v4 ⟨0, 0, 0, 0⟩, 0⟩ List.length_range hget rfl
    have hlt : hashCode % m < m := Nat.mod_lt _ (Nat.zero_lt_of_lt hi)
    simpa [UdpXMgr.onUdpMsgForward, Nat.ne_of_gt (Nat.zero_lt_of_lt hi), hlt] using hforward
  · rintro hmod calcHashCode tmstubs tx msg srcAddr dstAddr rfl hget hhash
    have hne : ¬ tmstubs.length < 1 := by omega
    simp [UdpXMgr.onUdpMsgForward, hne, hhash, hmod, hget]

/-- A manager of `n` tunnels, of which only tunnel `j` is connected. -/
def onlyTunnel (n j : Nat) : TunMgr :=
  (TunMgr.new n ⟨"", 0, "", 0, 0, "", 0, "", ""⟩).setTunnel j (some (Tunnel.new 0 0 j 0 0))

theorem onlyTunnel_length (n j : Nat) : (onlyTunnel n j).tunnels.length = n := by
  simp [onlyTunnel, TunMgr.setTunnel, TunMgr.withTunnels, TunMgr.new]

theorem onlyTunnel_getTunnel {n j : Nat} (hj : j < n) (k : Nat) :
    (onlyTunnel n j).getTunnel k = if k = j then some (Tunnel.new 0 0 j 0 0) else none := by
  simp only [onlyTunnel, TunMgr.getTunnel, TunMgr.setTunnel, TunMgr.withTunnels, TunMgr.new,
    List.getElem?_set, List.length_replicate, List.getElem?_replicate]
  split
  · rename_i heq
    subst heq
    simp
  · rename_i hne
    rw [if_neg (Ne.symm hne)]
    split <;> rfl

theorem selectsTunnel_iff {n j : Nat} (hj : j < n) (hashCode : Nat) :
    SelectsTunnel n j hashCode ↔ hashCode % n = j := by
  constructor
  · intro h
    by_contra hne
    have hnorth := h (onlyTunnel n j) _ [] ⟨.v4 ⟨0, 0, 0, 0⟩, 0⟩ ⟨.v4 ⟨0, 0, 0, 0⟩, 0⟩
      (onlyTunnel_length n j) (by rw [onlyTunnel_getTunnel hj, if_pos rfl])
    have hzero : n ≠ 0 := by omega
    simp [TunMgr.udpProxyNorth, onlyTunnel_length, onlyTunnel_getTunnel hj, hne, hzero] at hnorth
  · rintro hmod mgr tun msg srcAddr dstAddr rfl hget
    have hne : mgr.tunnels.length ≠ 0 := by omega
    simp [TunMgr.udpProxyNorth, hne, hmod, hget]

/-- With `m` managers of `n` tunnels each, every tunnel of every manager is selected by some
hash of `w` bits exactly when `m` and `n` have no common factor, and there are hashes
enough. -/
theorem every_tunnel_selected_iff {m n : Nat} (hm : 0 < m) (hn : 0 < n) (w : Nat) :
    (∀ i < m, ∀ j < n, ∃ hashCode < 2 ^ w,
      UdpXMgr.SelectsManager m i hashCode ∧ SelectsTunnel n j hashCode) ↔
        Nat.Coprime m n ∧ m * n ≤ 2 ^ w := by
  rw [← remainders_iff hm hn]
  refine forall_congr' fun i => forall_congr' fun hi => forall_congr' fun j =>
    forall_congr' fun hj => ?_
  simp only [selectsManager_iff hi, selectsTunnel_iff hj]

/-- The last tunnel of the last of four managers with three tunnels each. -/
theorem every_tunnel_selected_four_three : ∃ hashCode < 2 ^ 64,
    UdpXMgr.SelectsManager 4 3 hashCode ∧ SelectsTunnel 3 2 hashCode :=
  (every_tunnel_selected_iff (by decide) (by decide) 64).mpr ⟨by decide, by decide⟩
    3 (by decide) 2 (by decide)

/-- With two managers of two tunnels each, no hash gets a packet to the second tunnel of the
first manager. -/
theorem two_two_not_selected : ¬ ∃ hashCode,
    UdpXMgr.SelectsManager 2 0 hashCode ∧ SelectsTunnel 2 1 hashCode := by
  rintro ⟨hashCode, hmanager, htunnel⟩
  rw [selectsManager_iff (by decide)] at hmanager
  rw [selectsTunnel_iff (by decide), hmanager] at htunnel
  cases htunnel

end LproxyCv.Udpx
