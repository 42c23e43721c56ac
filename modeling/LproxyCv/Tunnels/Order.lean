import LproxyCv.Foundation.Sorting
import LproxyCv.Tunnels.Quota

set_option autoImplicit false

/-!
# Tunnels: the order of the tunnels

At a keepalive tick the manager orders its tunnels by what they have carried.  It takes a tunnel
that is missing to be equal to every other, so its comparison is no order when a missing
tunnel stands between two that have not carried the same.  `sorts_by_busy_iff` says for which
tables the comparison is an order, and the tunnels come out in order.
-/

namespace LproxyCv.Tunnels

open LproxyCv.Foundation

namespace TunMgr

/-- How much the tunnel with an index has carried, if it is there. -/
def busyOf (m : TunMgr) (i : UInt16) : Option Nat := (m.getTunnel i.toNat).map Tunnel.busy

/-- The indices of all tunnels, each in sixteen bits. -/
def tunIndies (m : TunMgr) : List UInt16 := (List.range m.tunnels.length).map UInt16.ofNat

/-- The order has every tunnel once. -/
def Complete (m : TunMgr) : Prop :=
  (m.sortedTunIndies.map UInt16.toNat).Perm (List.range m.tunnels.length)

/-- The tunnels that are there come in the order of what they carried in `m`. -/
def Ordered (m m' : TunMgr) : Prop := (m'.sortedTunIndies.filterMap m.busyOf).Pairwise (· ≤ ·)

/-- All tunnels are there. -/
def Gapless (m : TunMgr) : Prop := ∀ i ∈ m.sortedTunIndies, (m.busyOf i).isSome

/-- The tunnels that are there have carried the same. -/
def Level (m : TunMgr) : Prop :=
  ∀ i ∈ m.sortedTunIndies, ∀ j ∈ m.sortedTunIndies, ∀ x y,
    m.busyOf i = some x → m.busyOf j = some y → x = y

variable {m : TunMgr}

theorem compareBusy_eq (m : TunMgr) : m.compareBusy = compareKeys m.busyOf := by
  funext i j
  unfold compareBusy compareKeys busyOf
  cases m.getTunnel i.toNat with
  | none => rfl
  | some tun1 =>
      cases m.getTunnel j.toNat with
      | none => rfl
      | some tun2 => rfl

/-- The comparison is an order when no tunnel is missing, or all have carried the same. -/
theorem weakOrder_compareBusy :
    WeakOrder m.compareBusy m.sortedTunIndies ↔ m.Gapless ∨ m.Level := by
  rw [compareBusy_eq]
  exact weakOrder_compareKeys

/-- Sixteen bits are enough for the indices of the table. -/
theorem map_toNat_ofNat {n : Nat} (h : n ≤ 2 ^ 16) :
    ((List.range n).map UInt16.ofNat).map UInt16.toNat = List.range n := by
  rw [List.map_map]
  refine (List.map_congr_left ?_).trans (List.map_id _)
  intro i hi
  have hlt := List.mem_range.mp hi
  rw [Function.comp_apply, UInt16.toNat_ofNat', id]
  exact Nat.mod_eq_of_lt (by omega)

/-- An order has every tunnel once if there are no more of them than sixteen bits can tell. -/
theorem complete_iff (h : m.sortedTunIndies.Perm m.tunIndies) :
    m.Complete ↔ m.tunnels.length ≤ 2 ^ 16 := by
  constructor
  · intro hcomplete
    by_contra hmany
    have hmem : 2 ^ 16 ∈ m.sortedTunIndies.map UInt16.toNat :=
      hcomplete.mem_iff.mpr (List.mem_range.mpr (by omega))
    obtain ⟨i, _, hi⟩ := List.mem_map.mp hmem
    have hlt := i.toNat_lt
    omega
  · intro hfew
    have hall := h.map UInt16.toNat
    rwa [tunIndies, map_toNat_ofNat hfew] at hall

/-- At the start every index has its place. -/
theorem tunIndies_new (tunnelCount : Nat) (cfg : TunCfg) :
    (new tunnelCount cfg).sortedTunIndies = (new tunnelCount cfg).tunIndies := by
  unfold tunIndies
  rw [show (new tunnelCount cfg).tunnels.length = tunnelCount from List.length_replicate]
  rfl

/-- Sorting keeps the indices that there are. -/
theorem tunIndies_sort (h : m.sortedTunIndies.Perm m.tunIndies) (sorter : Sorter) :
    (m.sortTunnelsByBusy sorter).sortedTunIndies.Perm (m.sortTunnelsByBusy sorter).tunIndies := by
  have hlength : (m.sortTunnelsByBusy sorter).tunnels.length = m.tunnels.length :=
    List.length_map _
  rw [tunIndies, hlength]
  exact (sorter.perm m.compareBusy m.sortedTunIndies).trans h

/-- A stable sort puts the tunnels in order where the comparison is one. -/
theorem ordered_of_weakOrder {sorter : Sorter} (hstable : SortsStably sorter.sortBy)
    (h : WeakOrder m.compareBusy m.sortedTunIndies) :
    m.Ordered (m.sortTunnelsByBusy sorter) := by
  have hsorted := hstable.sorted m.compareBusy m.sortedTunIndies h
  rw [compareBusy_eq] at hsorted
  have hkeys := keys_of_sorted hsorted
  rw [← compareBusy_eq] at hkeys
  exact hkeys

theorem sortsStably_insertion : SortsStably Sorter.insertion.sortBy := sortsStably_insertionSort

/-- The comparison is an order, and every stable sort leaves an order of all tunnels in which
those that are there come by what they have carried: exactly when there are at most 65536 of
them, and none is missing or all have carried the same. -/
theorem sorts_by_busy_iff (h : m.sortedTunIndies.Perm m.tunIndies) :
    (WeakOrder m.compareBusy m.sortedTunIndies ∧
      ∀ sorter : Sorter, SortsStably sorter.sortBy →
        (m.sortTunnelsByBusy sorter).Complete ∧ m.Ordered (m.sortTunnelsByBusy sorter)) ↔
    m.tunnels.length ≤ 2 ^ 16 ∧ (m.Gapless ∨ m.Level) := by
  have hcomplete : ∀ sorter : Sorter,
      (m.sortTunnelsByBusy sorter).Complete ↔ m.tunnels.length ≤ 2 ^ 16 := by
    intro sorter
    have hlength : (m.sortTunnelsByBusy sorter).tunnels.length = m.tunnels.length :=
      List.length_map _
    rw [complete_iff (tunIndies_sort h sorter), hlength]
  rw [weakOrder_compareBusy]
  constructor
  · rintro ⟨horder, hsorts⟩
    exact ⟨(hcomplete _).mp (hsorts Sorter.insertion sortsStably_insertion).1, horder⟩
  · rintro ⟨hfew, horder⟩
    refine ⟨horder, ?_⟩
    intro sorter hstable
    exact ⟨(hcomplete sorter).mpr hfew,
      ordered_of_weakOrder hstable (weakOrder_compareBusy.mpr horder)⟩

/-- A manager of three tunnels. -/
def threeTunnels : TunMgr := new 3 (quotaCfg 100)

/-- A table of three tunnels, of which the second may be missing. -/
def busyTunnels (second : Option Nat) : TunMgr :=
  threeTunnels.withTunnels
    [some { Tunnel.new 0 3 0 4 100 with busy := 5 },
      second.map fun busy => { Tunnel.new 1 4 1 4 100 with busy := busy },
      some { Tunnel.new 2 5 2 4 100 with busy := 3 }] rfl

/-- Three tunnels that are all there. -/
theorem sorts_by_busy_three :
    (WeakOrder (busyTunnels (some 4)).compareBusy (busyTunnels (some 4)).sortedTunIndies ∧
      ∀ sorter : Sorter, SortsStably sorter.sortBy →
        ((busyTunnels (some 4)).sortTunnelsByBusy sorter).Complete ∧
          (busyTunnels (some 4)).Ordered ((busyTunnels (some 4)).sortTunnelsByBusy sorter)) ↔
    (busyTunnels (some 4)).tunnels.length ≤ 2 ^ 16 ∧
      ((busyTunnels (some 4)).Gapless ∨ (busyTunnels (some 4)).Level) :=
  sorts_by_busy_iff (.refl _)

/-- A missing tunnel between two: the first has carried more than the last and stays in front of
it. -/
theorem missing_between :
    ¬ WeakOrder (busyTunnels none).compareBusy (busyTunnels none).sortedTunIndies ∧
      SortsStably Sorter.insertion.sortBy ∧
      ((busyTunnels none).sortTunnelsByBusy Sorter.insertion).sortedTunIndies = [0, 1, 2] ∧
      ¬ (busyTunnels none).Ordered ((busyTunnels none).sortTunnelsByBusy Sorter.insertion) := by
  have hstays : ((busyTunnels none).sortTunnelsByBusy Sorter.insertion).sortedTunIndies =
      [0, 1, 2] := by decide
  refine ⟨?_, sortsStably_insertion, hstays, ?_⟩
  · intro horder
    exact absurd (horder.trans 0 (by decide) 1 (by decide) 2 (by decide)) (by decide)
  · unfold Ordered
    rw [hstays]
    decide

end TunMgr

end LproxyCv.Tunnels
