import LproxyCv.Foundation.Descriptors
import LproxyCv.Foundation.Run
import LproxyCv.Udpx.Cache

set_option autoImplicit false

/-!
# Udpx: the cache, the tasks of the stubs and their descriptors

`UdpxWorld` puts beside the cache the tasks of the stubs, each with the socket of its
stub, and the descriptors of the stubs.  A task ends when its stub has given its channel
and its trigger up, or when its socket fails or gets an empty datagram, which can be at
any time: it drops the socket, and then tells the manager the address of its client.
-/

namespace LproxyCv.Udpx

open LproxyCv.Foundation LproxyCv.Net

/-- The task of a stub, which has its socket. -/
structure StubTask where
  id : Nat
  fd : Nat
  srcAddr : SocketAddr
  deriving DecidableEq

/-- The cache, the tasks of the stubs, their descriptors. -/
structure UdpxWorld where
  cache : Cache
  tasks : List StubTask
  fds : Descriptors
  /-- the stubs that were cleaned up -/
  cleaned : List Nat
  /-- how many stubs have opened a descriptor -/
  ids : Nat

/-- What happens. -/
inductive UdpxEvent where
  /-- a datagram for a client comes from the server -/
  | south (opening : Opening) (msg : Bytes) (srcAddr dstAddr : SocketAddr)
  /-- the task of a stub ends -/
  | ended (task : StubTask)
  /-- the task that takes the stubs out which are due is polled -/
  | purge (expired : List Nat) (done : Bool)
  /-- the manager is stopped -/
  | cleanup (order : List UStub)

/-- The events that have stubs cleaned up. -/
def UdpxEvent.Cleans : UdpxEvent → Prop
  | .purge _ _ => True
  | .cleanup _ => True
  | _ => False

namespace UdpxWorld

/-- Do one thing beside the cache.  What a task does with its datagrams is left out. -/
def act (w : UdpxWorld) : Action → UdpxWorld
  | .opened id fd => { w with fds := w.fds.openAt fd id, ids := w.ids + 1 }
  | .dropSocket id fd => { w with fds := w.fds.close fd id }
  | .closeRawfd id fd => { w with fds := w.fds.close fd id, cleaned := id :: w.cleaned }
  | .spawn id fd srcAddr => { w with tasks := ⟨id, fd, srcAddr⟩ :: w.tasks }
  | .send _ _ _ => w

/-- The cache after a call, and what the call does beside it. -/
def after (w : UdpxWorld) (r : Cache × List Action) : UdpxWorld :=
  r.2.foldl act { w with cache := r.1 }

/-- What can happen.  The system opens a number that is not in use, and the delay queue
chooses a key that is not in use. -/
def Enabled (w : UdpxWorld) : UdpxEvent → Prop
  | .south opening _ _ _ =>
      (∀ fd ∈ opening.socket, fd ∉ w.fds.opened) ∧
        opening.delay ∉ w.cache.expirations.items
  | .ended task => task ∈ w.tasks
  | .purge expired _ =>
      w.cache.isInKeepalive = true ∧ expired.Nodup ∧ ∀ k ∈ expired, k ∈ w.cache.expirations.items
  | .cleanup order => order.Perm w.cache.stubs

instance (w : UdpxWorld) (e : UdpxEvent) : Decidable (w.Enabled e) :=
  match e with
  | .south _ _ _ _ => inferInstanceAs (Decidable (_ ∧ _))
  | .ended _ => inferInstanceAs (Decidable (_ ∈ _))
  | .purge _ _ => inferInstanceAs (Decidable (_ ∧ _))
  | .cleanup _ => inferInstanceAs (Decidable (List.Perm _ _))

/-- What happens then; none is a panic. -/
def handle (w : UdpxWorld) : UdpxEvent → Option UdpxWorld
  | .south opening msg srcAddr dstAddr => do
      let r ← UdpXMgr.onUdpProxySouth w.cache w.ids opening msg srcAddr dstAddr
      some (w.after r)
  | .ended task => do
      let w := { w with tasks := w.tasks.erase task }.act (.dropSocket task.id task.fd)
      let cache ← UdpXMgr.onUstubClosed w.cache task.srcAddr
      some { w with cache := cache }
  | .purge expired done => do
      let r ← w.cache.keepalive expired done
      some (w.after r)
  | .cleanup order => some (w.after (w.cache.cleanup order))

/-- No datagram has come yet. -/
def init : UdpxWorld := ⟨.new, [], .new, [], 0⟩

/-- Something happens, without a panic. -/
def Step (w : UdpxWorld) (e : UdpxEvent) (w' : UdpxWorld) : Prop :=
  w.Enabled e ∧ w.handle e = some w'

/-! ## What a step does -/

/-- The descriptors of stubs, and whose they are. -/
def descriptors (stubs : List UStub) : List (Nat × Nat) :=
  stubs.map fun stub => (stub.rawfd, stub.id)

/-- A stub is built for a client. -/
def Builds (w : UdpxWorld) (opening : Opening) (srcAddr : SocketAddr) : Prop :=
  w.cache.entries.lookup srcAddr = none ∧ opening.socket.isSome = true ∧ opening.fromStd = true

/-- What a step can do. -/
inductive Change (w : UdpxWorld) : UdpxEvent → UdpxWorld → Prop where
  /-- a datagram goes to its stub, or gets none -/
  | same {opening : Opening} {msg : Bytes} {srcAddr dstAddr : SocketAddr} :
      ¬ w.Builds opening srcAddr → Change w (.south opening msg srcAddr dstAddr) w
  /-- a descriptor is opened and closed again -/
  | refused {opening : Opening} {msg : Bytes} {srcAddr dstAddr : SocketAddr} {fd : Nat} :
      ¬ w.Builds opening srcAddr → fd ∉ w.fds.opened →
      Change w (.south opening msg srcAddr dstAddr)
        { w with fds := (w.fds.openAt fd w.ids).close fd w.ids, ids := w.ids + 1 }
  /-- a stub is built -/
  | built {opening : Opening} {msg : Bytes} {srcAddr dstAddr : SocketAddr} {fd : Nat} :
      w.Builds opening srcAddr → fd ∉ w.fds.opened →
      opening.delay ∉ w.cache.expirations.items →
      Change w (.south opening msg srcAddr dstAddr)
        { w with
          cache := w.cache.insert srcAddr ⟨w.ids, fd, some w.ids, some w.ids, srcAddr⟩ opening.delay
          tasks := ⟨w.ids, fd, srcAddr⟩ :: w.tasks
          fds := w.fds.openAt fd w.ids
          ids := w.ids + 1 }
  /-- a task has ended -/
  | ended {task : StubTask} {c : Cache} :
      task ∈ w.tasks → c.Good → c.entries = w.cache.entries.erase task.srcAddr →
      Change w (.ended task)
        { w with
          cache := c
          tasks := w.tasks.erase task
          fds := w.fds.close task.fd task.id }
  /-- stubs are taken out and cleaned up -/
  | dropped {e : UdpxEvent} {c : Cache} {gone : List UStub} :
      e.Cleans → c.Good → w.cache.Drops c gone →
      Change w e
        { w with
          cache := c
          fds := w.fds.closeAll (descriptors gone)
          cleaned := (gone.map UStub.id).reverse ++ w.cleaned }

variable {w w' : UdpxWorld} {e : UdpxEvent}

theorem after_cleanup (w : UdpxWorld) (cache : Cache) (gone : List UStub) :
    w.after (cache, gone.flatMap fun stub => stub.cleanup.2) =
      { w with
        cache := cache
        fds := w.fds.closeAll (descriptors gone)
        cleaned := (gone.map UStub.id).reverse ++ w.cleaned } := by
  induction gone generalizing w with
  | nil => rfl
  | cons stub gone ih =>
      have hrest := ih (w.act (.closeRawfd stub.id stub.rawfd))
      simpa [after, UStub.cleanup, act, descriptors, Descriptors.closeAll] using hrest

/-- In a good cache whatever can happen is no panic, and does one of these. -/
theorem handle_spec (h : w.cache.Good) (henabled : w.Enabled e) :
    ∃ w', w.handle e = some w' ∧ w.Change e w' := by
  cases e with
  | south opening msg srcAddr dstAddr =>
      obtain ⟨hfresh, hdelay⟩ := henabled
      obtain ⟨r, hr, hcases⟩ :=
        UdpXMgr.onUdpProxySouth_spec h w.ids hdelay msg srcAddr dstAddr
      refine ⟨w.after r, by simp only [handle, hr, Option.bind_eq_bind, Option.bind_some], ?_⟩
      rcases hcases with ⟨stub, k, hlookup, rfl⟩ | ⟨hnone, hbuild⟩
      · have hbuilds : ¬ w.Builds opening srcAddr := by
          rintro ⟨hnone, _⟩
          rw [hlookup] at hnone
          cases hnone
        have hsame : w.after (w.cache, stub.onUdpProxySouth msg dstAddr) = w := by
          unfold UStub.onUdpProxySouth
          split <;> rfl
        rw [hsame]
        exact .same hbuilds
      · split at hbuild
        · rename_i hsocket
          rw [hbuild]
          refine .same ?_
          rintro ⟨_, hsome, _⟩
          rw [hsocket] at hsome
          cases hsome
        · rename_i fd hsocket
          split at hbuild
          · rename_i hstd
            rw [hbuild]
            exact .built ⟨hnone, Option.isSome_of_mem hsocket, hstd⟩ (hfresh fd hsocket) hdelay
          · rename_i hstd
            rw [hbuild]
            exact .refused (fun hbuilds => hstd hbuilds.2.2) (hfresh fd hsocket)
  | ended task =>
      obtain ⟨cache, hremove, hgood, hentries⟩ := Cache.remove_spec h task.srcAddr
      refine ⟨_, ?_, .ended henabled hgood hentries⟩
      simp only [handle, act, UdpXMgr.onUstubClosed, hremove, Option.bind_eq_bind, Option.bind_some]
  | purge expired done =>
      obtain ⟨_, hnodup, hmem⟩ := henabled
      obtain ⟨cache, gone, hpurge, hgood, hdrops⟩ := Cache.pollPurge_spec h hnodup hmem
      refine ⟨_, ?_, .dropped (c := { cache with isInKeepalive := !done }) trivial
        ⟨hgood.paired, hgood.named⟩ ⟨hdrops.kept, hdrops.taken, hdrops.once⟩⟩
      rw [← after_cleanup]
      simp only [handle, Cache.keepalive, hpurge, Option.bind_eq_bind, Option.bind_some]
  | cleanup order =>
      obtain ⟨hgood, hdrops⟩ := Cache.cleanup_spec h henabled
      refine ⟨_, ?_, .dropped trivial hgood hdrops⟩
      rw [← after_cleanup]
      rfl

theorem Step.change (h : w.cache.Good) (hstep : Step w e w') : w.Change e w' := by
  obtain ⟨w₁, hhandle, hchange⟩ := handle_spec h hstep.1
  rw [hstep.2] at hhandle
  cases hhandle
  exact hchange

theorem Change.good (h : w.cache.Good) (hchange : w.Change e w') : w'.cache.Good := by
  cases hchange with
  | same _ => exact h
  | refused _ _ => exact h
  | built hbuilds _ hdelay => exact h.insert rfl (AList.lookup_eq_none.mp hbuilds.1) hdelay
  | ended _ hgood _ => exact hgood
  | dropped _ hgood _ => exact hgood

/-- In every run the entries and the delay queue belong to each other, one to one; and so
nothing that can happen next is a panic. -/
theorem run_paired {es : List UdpxEvent} (hrun : Run Step init es w) :
    Paired w.cache.entries w.cache.expirations ∧
      (∀ addr, (w.cache.get addr).isSome = true ∧ (w.cache.remove addr).isSome = true) ∧
      ∀ e, w.Enabled e → (w.handle e).isSome = true := by
  have hgood : w.cache.Good := by
    refine hrun.preserves (I := fun w => w.cache.Good) ?_ Cache.good_new
    intro v e v' hv hstep
    exact (hstep.change hv).good hv
  refine ⟨hgood.paired, ?_, ?_⟩
  · intro addr
    constructor
    · cases hlookup : w.cache.entries.lookup addr with
      | none => rw [Cache.get_none hlookup, Option.isSome_some]
      | some v => rw [Cache.get_some hgood hlookup, Option.isSome_some]
    · obtain ⟨c', hremove, _⟩ := Cache.remove_spec hgood addr
      rw [hremove, Option.isSome_some]
  · intro e henabled
    obtain ⟨w', hhandle, _⟩ := handle_spec hgood henabled
    rw [hhandle, Option.isSome_some]

/-- A client and a server. -/
def client : SocketAddr := ⟨.v4 ⟨192, 168, 1, 2⟩, 4000⟩

def server : SocketAddr := ⟨.v4 ⟨8, 8, 8, 8⟩, 443⟩

/-- The stub of a client is due, and a datagram for the client comes before its task ends. -/
def revisited : List UdpxEvent :=
  [.south ⟨some 10, true, 0⟩ [1] client server, .purge [0] true,
    .south ⟨some 10, true, 0⟩ [2] client server]

/-- After this run all is well with the cache. -/
theorem run_paired_revisited : ∃ w, Run Step init revisited w ∧
    Paired w.cache.entries w.cache.expirations ∧
      (∀ addr, (w.cache.get addr).isSome = true ∧ (w.cache.remove addr).isSome = true) ∧
      ∀ e, w.Enabled e → (w.handle e).isSome = true := by
  have hexec : (revisited.foldlM (attempt Enabled handle) init).isSome = true := by
    decide +kernel
  obtain ⟨w, hw⟩ := Option.isSome_iff_exists.mp hexec
  have hrun : Run Step init revisited w := .of_attempts hw
  exact ⟨w, hrun, run_paired hrun⟩

end UdpxWorld

end LproxyCv.Udpx
