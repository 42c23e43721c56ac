import LproxyCv.Foundation.DelayQueue
import LproxyCv.Net
import LproxyCv.Tunnels.Reqq

set_option autoImplicit false

/-!
# Udpx: the stubs of the clients and their cache

A stub sends the datagrams of one client, from the client's own address.  The cache has
the stubs by that address, each for as long as nothing is heard of it for a minute.  What
a call does beside the cache (open and close descriptors, start a task, give a datagram
to one) is returned as its actions; `none` is a panic.
-/

namespace LproxyCv.Udpx

open LproxyCv.Foundation LproxyCv.Net
open LproxyCv.Tunnels (Channel Trigger)

/-- A stub; `id` says which one it is. -/
structure UStub where
  id : Nat
  rawfd : Nat
  tx : Option Channel
  trigger : Option Trigger
  srcAddr : SocketAddr
  deriving DecidableEq

/-- What the system does when a stub is built: the descriptor it opens, if it opens one,
whether a socket can be made of it, and the key that the delay queue chooses. -/
structure Opening where
  socket : Option Nat
  fromStd : Bool
  delay : Nat
  deriving DecidableEq

/-- What a call does beside the cache. -/
inductive Action where
  /-- a descriptor is opened for a stub -/
  | opened (id fd : Nat)
  /-- the socket of a stub is dropped, which closes its descriptor -/
  | dropSocket (id fd : Nat)
  /-- a stub closes its descriptor itself -/
  | closeRawfd (id fd : Nat)
  /-- the task of a stub starts, which has the socket -/
  | spawn (id fd : Nat) (srcAddr : SocketAddr)
  /-- the task of a stub is given a datagram -/
  | send (tx : Channel) (msg : Bytes) (dstAddr : SocketAddr)
  deriving DecidableEq

namespace UStub

/-- Build the stub `id` of a client. -/
def new (id : Nat) (srcAddr : SocketAddr) (opening : Opening) : Option UStub × List Action :=
  match opening.socket with
  | none => (none, [])
  | some rawfd =>
      if opening.fromStd then
        (some ⟨id, rawfd, some id, some id, srcAddr⟩, [.opened id rawfd, .spawn id rawfd srcAddr])
      else (none, [.opened id rawfd, .dropSocket id rawfd])

/-- Give the task of the stub a datagram. -/
def onUdpProxySouth (s : UStub) (msg : Bytes) (dstAddr : SocketAddr) : List Action :=
  match s.tx with
  | some tx => [.send tx msg dstAddr]
  | none => []

/-- Close the descriptor, and give the channel and the trigger up. -/
def cleanup (s : UStub) : UStub × List Action :=
  ({ s with tx := none, trigger := none }, [.closeRawfd s.id s.rawfd])

end UStub

/-- The stubs by the addresses of their clients, with their keys in the delay queue. -/
structure Cache where
  entries : AList fun _ : SocketAddr => UStub × Nat
  expirations : DelayQueue SocketAddr
  /-- whether the task runs that takes the stubs out which are due -/
  isInKeepalive : Bool

namespace Cache

/-- An empty cache. -/
def new : Cache := ⟨∅, .new, false⟩

/-- Add a stub; `delay` is its key in the delay queue. -/
def insert (c : Cache) (key : SocketAddr) (value : UStub) (delay : Nat) : Cache :=
  { entries := c.entries.insert key (value, delay)
    expirations := c.expirations.insert delay key
    isInKeepalive := true }

/-- The stub of a client, which is put off again. -/
def get (c : Cache) (key : SocketAddr) : Option (Cache × Option UStub) :=
  match c.entries.lookup key with
  | some (v, k) => do
      let expirations ← c.expirations.reset k
      some ({ c with expirations := expirations }, some v)
  | none => some (c, none)

/-- The stubs of the cache. -/
def stubs (c : Cache) : List UStub := c.entries.entries.map fun p => p.2.1

/-- Take all stubs out and clean them up, in an order that the hash map chooses. -/
def cleanup (c : Cache) (order : List UStub) : Cache × List Action :=
  ({ c with entries := ∅, expirations := c.expirations.clear },
    order.flatMap fun stub => stub.cleanup.2)

/-- Take the stub of a client out. -/
def remove (c : Cache) (key : SocketAddr) : Option Cache :=
  match c.entries.lookup key with
  | some (_, k) => do
      let r ← c.expirations.remove k
      some { c with entries := c.entries.erase key, expirations := r.2 }
  | none => some c

/-- Take out and clean up the stubs that are due, one after the other; `expired` are their
keys. -/
def pollPurge (c : Cache) : List Nat → Option (Cache × List Action)
  | [] => some (c, [])
  | k :: expired => do
      let (addr, expirations) ← c.expirations.remove k
      match c.entries.lookup addr with
      | some (stub, _) =>
          let c := { c with entries := c.entries.erase addr, expirations := expirations }
          let (c, actions) ← c.pollPurge expired
          some (c, stub.cleanup.2 ++ actions)
      | none => pollPurge { c with expirations := expirations } expired

/-- The task that does this has been polled; it ends when nothing is left, or by a failure
of the timer. -/
def keepalive (c : Cache) (expired : List Nat) (done : Bool) : Option (Cache × List Action) := do
  let (c, actions) ← c.pollPurge expired
  some ({ c with isInKeepalive := !done }, actions)

end Cache

namespace UdpXMgr

/-- Build a stub and add it. -/
def buildUstub (c : Cache) (id : Nat) (srcAddr : SocketAddr) (opening : Opening) :
    Cache × List Action :=
  match UStub.new id srcAddr opening with
  | (some ustub, actions) => (c.insert srcAddr ustub opening.delay, actions)
  | (none, actions) => (c, actions)

/-- A datagram for a client has come; `id` is for the stub, should one be built. -/
def onUdpProxySouth (c : Cache) (id : Nat) (opening : Opening) (msg : Bytes)
    (srcAddr dstAddr : SocketAddr) : Option (Cache × List Action) := do
  let (c, stub) ← c.get srcAddr
  match stub with
  | some stub => some (c, stub.onUdpProxySouth msg dstAddr)
  | none => do
      let (c, built) := buildUstub c id srcAddr opening
      let (c, stub) ← c.get srcAddr
      match stub with
      | some stub => some (c, built ++ stub.onUdpProxySouth msg dstAddr)
      | none => some (c, built)

/-- The task of a stub of this client has ended. -/
def onUstubClosed (c : Cache) (srcAddr : SocketAddr) : Option Cache := c.remove srcAddr

end UdpXMgr

/-! ## What the calls do -/

namespace Cache

/-- The entries and the delay queue belong to each other, and each stub stands under the
address of its client. -/
structure Good (c : Cache) : Prop where
  paired : Paired c.entries c.expirations
  named : ∀ {a : SocketAddr} {stub : UStub} {k : Nat},
    c.entries.lookup a = some (stub, k) → stub.srcAddr = a

/-- From the first cache to the second the stubs of `gone` are taken out, each once. -/
structure Drops (c c' : Cache) (gone : List UStub) : Prop where
  kept : ∀ {a : SocketAddr} {v : UStub × Nat},
    c'.entries.lookup a = some v → c.entries.lookup a = some v
  taken : ∀ stub ∈ gone, (∃ k, c.entries.lookup stub.srcAddr = some (stub, k)) ∧
    c'.entries.lookup stub.srcAddr = none
  once : (gone.map UStub.srcAddr).Nodup

variable {c : Cache} {addr : SocketAddr} {stub : UStub} {k : Nat}

theorem good_new : new.Good := ⟨.empty, by simp [new]⟩

/-- Take a stub out together with its delay. -/
theorem Good.erase (h : c.Good) (hlookup : c.entries.lookup addr = some (stub, k)) :
    Good { c with entries := c.entries.erase addr, expirations := ⟨c.expirations.items.erase k⟩ } := by
  refine ⟨h.paired.erase hlookup, ?_⟩
  intro a stub' k' hlookup'
  exact h.named (lookup_erase_eq_some hlookup').2

theorem Good.insert (h : c.Good) (haddr : stub.srcAddr = addr) (hnone : addr ∉ c.entries)
    (hk : k ∉ c.expirations.items) : (c.insert addr stub k).Good := by
  refine ⟨h.paired.insert hnone hk, ?_⟩
  intro a stub' k' hlookup
  by_cases ha : a = addr
  · subst ha
    rw [Cache.insert, AList.lookup_insert] at hlookup
    cases hlookup
    exact haddr
  · rw [Cache.insert, AList.lookup_insert_ne ha] at hlookup
    exact h.named hlookup

theorem get_some (h : c.Good) (hlookup : c.entries.lookup addr = some (stub, k)) :
    c.get addr = some (c, some stub) := by
  simp only [get, hlookup, h.paired.reset hlookup, Option.bind_eq_bind, Option.bind_some]

theorem get_none (hlookup : c.entries.lookup addr = none) : c.get addr = some (c, none) := by
  simp only [get, hlookup]

/-- In a good cache a stub can be taken out. -/
theorem remove_spec (h : c.Good) (addr : SocketAddr) : ∃ c', c.remove addr = some c' ∧ c'.Good ∧
    c'.entries = c.entries.erase addr := by
  unfold remove
  cases hlookup : c.entries.lookup addr with
  | none =>
      refine ⟨c, rfl, h, ?_⟩
      have hnone : addr ∉ c.entries.entries.keys := AList.lookup_eq_none.mp hlookup
      exact AList.ext (List.kerase_of_notMem_keys hnone).symm
  | some v =>
      exact ⟨_, by simp only [h.paired.remove hlookup, Option.bind_eq_bind, Option.bind_some],
        h.erase hlookup, rfl⟩

/-- In a good cache the stubs that are due can be taken out. -/
theorem pollPurge_spec (h : c.Good) {expired : List Nat} (hnodup : expired.Nodup)
    (hmem : ∀ k ∈ expired, k ∈ c.expirations.items) :
    ∃ c' gone, c.pollPurge expired = some (c', gone.flatMap fun stub => stub.cleanup.2) ∧
      c'.Good ∧ c.Drops c' gone := by
  induction expired generalizing c with
  | nil => exact ⟨c, [], rfl, h, fun hlookup => hlookup, nofun, List.nodup_nil⟩
  | cons k expired ih =>
      obtain ⟨addr, hk⟩ := Option.isSome_iff_exists.mp
        (AList.lookup_isSome.mpr (hmem k List.mem_cons_self))
      obtain ⟨stub, hlookup⟩ := h.paired.entry hk
      have hrest : ∀ k' ∈ expired, k' ∈ c.expirations.items.erase k := by
        intro k' hk'
        refine AList.mem_erase.mpr ⟨?_, hmem k' (List.mem_cons_of_mem k hk')⟩
        rintro rfl
        exact (List.nodup_cons.mp hnodup).1 hk'
      obtain ⟨c', gone, hpurge, hgood, hdrops⟩ :=
        ih (h.erase hlookup) (List.nodup_cons.mp hnodup).2 hrest
      have haddr := h.named hlookup
      have hgone : c'.entries.lookup addr = none := by
        refine Option.eq_none_iff_forall_ne_some.mpr ?_
        intro v hv
        have hv' := hdrops.kept hv
        rw [AList.lookup_erase] at hv'
        cases hv'
      refine ⟨c', stub :: gone, ?_, hgood, ?_, ?_, ?_⟩
      · simp only [pollPurge, h.paired.remove hlookup, hlookup, hpurge, Option.bind_eq_bind,
          Option.bind_some, List.flatMap_cons]
      · intro a v hv
        have hv' := hdrops.kept hv
        exact (lookup_erase_eq_some hv').2
      · intro stub' hstub'
        rcases List.mem_cons.mp hstub' with rfl | hold
        · exact ⟨⟨k, haddr ▸ hlookup⟩, haddr ▸ hgone⟩
        · obtain ⟨⟨k', hk'⟩, hnone⟩ := hdrops.taken stub' hold
          exact ⟨⟨k', (lookup_erase_eq_some hk').2⟩, hnone⟩
      · refine List.nodup_cons.mpr ⟨?_, hdrops.once⟩
        intro hin
        obtain ⟨stub', hstub', heq⟩ := List.mem_map.mp hin
        obtain ⟨⟨k', hk'⟩, _⟩ := hdrops.taken stub' hstub'
        exact (lookup_erase_eq_some hk').1 (heq.trans haddr)

/-- All stubs of a good cache can be taken out. -/
theorem cleanup_spec (h : c.Good) {order : List UStub} (horder : order.Perm c.stubs) :
    (c.cleanup order).1.Good ∧ c.Drops (c.cleanup order).1 order := by
  have hin : ∀ {stub : UStub}, stub ∈ c.stubs → ∃ k, c.entries.lookup stub.srcAddr = some (stub, k) := by
    intro stub hstub
    obtain ⟨⟨a, stub', k⟩, hp, rfl⟩ := List.mem_map.mp hstub
    have hlookup : c.entries.lookup a = some (stub', k) :=
      (List.mem_dlookup_iff c.entries.nodupKeys).mpr hp
    exact ⟨k, (h.named hlookup).symm ▸ hlookup⟩
  refine ⟨⟨.empty, by simp [cleanup]⟩, by simp [cleanup], ?_, ?_⟩
  · intro stub hstub
    exact ⟨hin (horder.mem_iff.mp hstub), by simp [cleanup]⟩
  · have hkeys : c.stubs.map UStub.srcAddr = c.entries.keys := by
      rw [stubs, List.map_map]
      refine List.map_congr_left ?_
      rintro ⟨a, stub, k⟩ hp
      exact h.named ((List.mem_dlookup_iff c.entries.nodupKeys).mpr hp)
    rw [(horder.map _).nodup_iff, hkeys]
    exact c.entries.keys_nodup

end Cache

/-- A datagram for a client goes to its stub; if there is none, one is built when the
system allows it. -/
theorem UdpXMgr.onUdpProxySouth_spec {c : Cache} (h : c.Good) (id : Nat) {opening : Opening}
    (hdelay : opening.delay ∉ c.expirations.items) (msg : Bytes) (srcAddr dstAddr : SocketAddr) :
    ∃ r, onUdpProxySouth c id opening msg srcAddr dstAddr = some r ∧
      ((∃ stub k, c.entries.lookup srcAddr = some (stub, k) ∧
          r = (c, stub.onUdpProxySouth msg dstAddr)) ∨
        c.entries.lookup srcAddr = none ∧
          match opening.socket with
          | none => r = (c, [])
          | some fd =>
              if opening.fromStd then
                r = (c.insert srcAddr ⟨id, fd, some id, some id, srcAddr⟩ opening.delay,
                  [.opened id fd, .spawn id fd srcAddr, .send id msg dstAddr])
              else r = (c, [.opened id fd, .dropSocket id fd])) := by
  cases hlookup : c.entries.lookup srcAddr with
  | some v =>
      refine ⟨_, ?_, .inl ⟨v.1, v.2, rfl, rfl⟩⟩
      simp only [onUdpProxySouth, Cache.get_some h hlookup, Option.bind_eq_bind, Option.bind_some]
  | none =>
      simp only [onUdpProxySouth, Cache.get_none hlookup, Option.bind_eq_bind, Option.bind_some,
        buildUstub, UStub.new]
      cases hsocket : opening.socket with
      | none =>
          simp only [Cache.get_none hlookup, Option.bind_some]
          exact ⟨_, rfl, .inr ⟨trivial, rfl⟩⟩
      | some fd =>
          by_cases hstd : opening.fromStd = true
          · simp only [hstd, if_true]
            have hgood : (c.insert srcAddr ⟨id, fd, some id, some id, srcAddr⟩ opening.delay).Good :=
              h.insert rfl (AList.lookup_eq_none.mp hlookup) hdelay
            rw [Cache.get_some hgood (AList.lookup_insert c.entries)]
            exact ⟨_, rfl, .inr ⟨trivial, rfl⟩⟩
          · simp only [hstd, Bool.false_eq_true, if_false, Cache.get_none hlookup, Option.bind_some]
            exact ⟨_, rfl, .inr ⟨trivial, rfl⟩⟩

end LproxyCv.Udpx
