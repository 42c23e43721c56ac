import LproxyCv.Udpx.UdpxWorld

set_option autoImplicit false

/-!
# Udpx: what a stub takes with it

The task of a stub outlives its stub: a stub that is due is taken out at once, and its
task ends later.  When it ends, it has the cache forget the client, by the address alone,
and drops the socket, which closes a descriptor that the stub may have closed before.
-/

namespace LproxyCv.Udpx

open LproxyCv.Foundation LproxyCv.Net

namespace UdpxWorld

variable {w w' : UdpxWorld} {e : UdpxEvent}

/-- Each stub of the cache has its task, and no two tasks are of one stub. -/
structure Sound (w : UdpxWorld) : Prop where
  good : w.cache.Good
  running : ∀ {a : SocketAddr} {stub : UStub} {k : Nat},
    w.cache.entries.lookup a = some (stub, k) → (⟨stub.id, stub.rawfd, a⟩ : StubTask) ∈ w.tasks
  apart : (w.tasks.map StubTask.id).Nodup
  fresh : ∀ task ∈ w.tasks, task.id < w.ids

theorem sound_init : init.Sound := ⟨Cache.good_new, by simp [init, Cache.new], List.nodup_nil, nofun⟩

/-- The tasks that are left when one ends. -/
theorem Sound.mem_erase (h : w.Sound) {task task' : StubTask} (htask : task ∈ w.tasks)
    (hmem : task' ∈ w.tasks) : task' ∈ w.tasks.erase task ↔ task'.id ≠ task.id := by
  rw [(List.Nodup.of_map _ h.apart).mem_erase_iff]
  constructor
  · rintro ⟨hne, _⟩ heq
    exact hne (List.inj_on_of_nodup_map h.apart hmem htask heq)
  · intro hne
    exact ⟨fun heq => hne (heq ▸ rfl), hmem⟩

theorem Change.sound (h : w.Sound) (hchange : w.Change e w') : w'.Sound := by
  have hgood := hchange.good h.good
  cases hchange with
  | same _ => exact h
  | refused _ _ =>
      exact ⟨hgood, h.running, h.apart, fun task htask => Nat.lt_succ_of_lt (h.fresh task htask)⟩
  | @built opening msg srcAddr dstAddr fd hbuilds _ _ =>
      refine ⟨hgood, ?_, ?_, ?_⟩
      · intro a stub k hlookup
        by_cases ha : a = srcAddr
        · subst ha
          rw [Cache.insert, AList.lookup_insert] at hlookup
          cases hlookup
          exact List.mem_cons_self
        · rw [Cache.insert, AList.lookup_insert_ne ha] at hlookup
          exact List.mem_cons_of_mem _ (h.running hlookup)
      · refine List.nodup_cons.mpr ⟨?_, h.apart⟩
        intro hin
        obtain ⟨task, htask, heq⟩ := List.mem_map.mp hin
        exact absurd (h.fresh task htask) (heq ▸ Nat.lt_irrefl w.ids)
      · intro task htask
        rcases List.mem_cons.mp htask with rfl | hold
        · exact Nat.lt_succ_self w.ids
        · exact Nat.lt_succ_of_lt (h.fresh task hold)
  | @ended task c _ _ hentries =>
      refine ⟨hgood, ?_, ?_, fun task' htask' => h.fresh task' (List.mem_of_mem_erase htask')⟩
      · intro a stub k hlookup
        rw [hentries] at hlookup
        obtain ⟨hne, hbefore⟩ := lookup_erase_eq_some hlookup
        refine (List.mem_erase_of_ne ?_).mpr (h.running hbefore)
        rintro rfl
        exact hne rfl
      · exact (List.Sublist.map _ List.erase_sublist).nodup h.apart
  | dropped _ _ hdrops =>
      exact ⟨hgood, fun hlookup => h.running (hdrops.kept hlookup), h.apart, h.fresh⟩

/-! ## The cache -/

/-- Whichever task ends next, it has no other stub taken out of the cache. -/
def Spares (w : UdpxWorld) : Prop :=
  ∀ task w', Step w (.ended task) w' → ∀ {a : SocketAddr} {stub : UStub} {k : Nat},
    w.cache.entries.lookup a = some (stub, k) → stub.id ≠ task.id →
      w'.cache.entries.lookup a = some (stub, k)

/-- A stub is built for a client only when no task of an earlier stub of this client is
left. -/
def Vacant (w : UdpxWorld) : UdpxEvent → Prop
  | .south opening _ srcAddr _ =>
      w.Builds opening srcAddr → ∀ task ∈ w.tasks, task.srcAddr ≠ srcAddr
  | _ => True

theorem Sound.spares_iff (h : w.Sound) : w.Spares ↔
    ∀ task ∈ w.tasks, ∀ {stub : UStub} {k : Nat},
      w.cache.entries.lookup task.srcAddr = some (stub, k) → stub.id = task.id := by
  constructor
  · intro hspares task htask stub k hlookup
    obtain ⟨w', hhandle, hchange⟩ := handle_spec (e := .ended task) h.good htask
    by_contra hne
    have hkept := hspares task w' ⟨htask, hhandle⟩ hlookup hne
    cases hchange with
    | ended _ _ hentries =>
        rw [hentries, AList.lookup_erase] at hkept
        cases hkept
    | dropped hcleans _ _ => exact hcleans.elim
  · intro hown task w' hstep a stub k hlookup hne
    cases hstep.change h.good with
    | ended htask _ hentries =>
        have ha : a ≠ task.srcAddr := by
          rintro rfl
          exact hne (hown task htask hlookup)
        rw [hentries, AList.lookup_erase_ne ha]
        exact hlookup
    | dropped hcleans _ _ => exact hcleans.elim

/-- A step spares the stubs of others exactly when a stub that it builds finds no task of
an earlier one. -/
theorem step_spares_iff (h : w.Sound) (hspares : w.Spares) (hstep : Step w e w') :
    w'.Spares ↔ w.Vacant e := by
  have hchange := hstep.change h.good
  have hown := h.spares_iff.mp hspares
  rw [(hchange.sound h).spares_iff]
  cases hchange with
  | same hbuilds => exact iff_of_true hown fun hb => absurd hb hbuilds
  | refused hbuilds _ => exact iff_of_true hown fun hb => absurd hb hbuilds
  | @built opening msg srcAddr dstAddr fd hbuilds _ _ =>
      constructor
      · rintro hown' _ task htask rfl
        have hid : w.ids = task.id :=
          hown' task (List.mem_cons_of_mem _ htask) (AList.lookup_insert w.cache.entries)
        exact absurd (h.fresh task htask) (hid ▸ Nat.lt_irrefl w.ids)
      · intro hvacant task htask stub k hlookup
        rcases List.mem_cons.mp htask with rfl | hold
        · rw [Cache.insert, AList.lookup_insert] at hlookup
          cases hlookup
          rfl
        · rw [Cache.insert, AList.lookup_insert_ne (hvacant hbuilds task hold)] at hlookup
          exact hown task hold hlookup
  | @ended task c _ _ hentries =>
      refine iff_of_true ?_ trivial
      intro task' htask' stub k hlookup
      rw [hentries] at hlookup
      exact hown task' (List.mem_of_mem_erase htask') (lookup_erase_eq_some hlookup).2
  | dropped hcleans _ hdrops =>
      refine iff_of_true (fun task htask _ _ hlookup => hown task htask (hdrops.kept hlookup)) ?_
      cases e with
      | south _ _ _ _ => exact hcleans.elim
      | _ => trivial

/-- In a run, the end of a task never has another stub taken out of the cache exactly when
no stub is built for a client while the task of an earlier stub of this client is left. -/
theorem run_spares_iff (es : List UdpxEvent) (w : UdpxWorld) :
    init.Spares ∧ (Run (Guarded Vacant Step) init es w ↔
      Run (fun w e w' => Step w e w' ∧ w'.Spares) init es w) := by
  have hinit : init.Spares := sound_init.spares_iff.mpr nofun
  refine ⟨hinit, Run.guarded_iff (I := fun w => w.Sound ∧ w.Spares) ?_ ?_ ⟨sound_init, hinit⟩⟩
  · rintro v e v' ⟨hsound, hspares⟩ hstep
    exact step_spares_iff hsound hspares hstep
  · rintro v e v' ⟨hsound, _⟩ hstep hspares'
    exact ⟨(hstep.change hsound.good).sound hsound, hspares'⟩

/-- The task of the first stub. -/
def firstTask : StubTask := ⟨0, 10, client⟩

/-- The second stub of the client. -/
def secondStub : UStub := ⟨1, 10, some 1, some 1, client⟩

/-- The end of the first stub's task has the second stub taken out of the cache. -/
theorem newer_removed : ∃ w w', Run Step init revisited w ∧
    w.cache.entries.lookup client = some (secondStub, 0) ∧ Step w (.ended firstTask) w' ∧
      w'.cache.entries.lookup client = none ∧ ¬ w.Spares := by
  have hexec : (revisited.foldlM (attempt Enabled handle) init).map (fun w =>
      (w.cache.entries.lookup client, (attempt Enabled handle w (.ended firstTask)).map
        fun w' => w'.cache.entries.lookup client)) = some (some (secondStub, 0), some none) := by
    decide +kernel
  obtain ⟨w, hw, hfacts⟩ := Option.map_eq_some_iff.mp hexec
  obtain ⟨hlookup, hended⟩ := Prod.mk.inj hfacts
  obtain ⟨w', hw', hnone⟩ := Option.map_eq_some_iff.mp hended
  have hstep : Step w (.ended firstTask) w' := by
    unfold attempt at hw'
    split at hw'
    · rename_i henabled
      exact ⟨henabled, hw'⟩
    · cases hw'
  refine ⟨w, w', .of_attempts hw, hlookup, hstep, hnone, ?_⟩
  intro hspares
  rw [hspares firstTask w' hstep hlookup (by decide)] at hnone
  cases hnone

/-! ## The descriptors -/

/-- Every descriptor that a stub opened is closed once when the stub's task is over, and
not more often before; and every close is of the stub's own. -/
structure ClosedOnce (w : UdpxWorld) : Prop where
  own : ∀ c ∈ w.fds.closes, c.owner = some c.behalf
  once : ∀ id, w.fds.closesOf id ≤ 1
  finished : ∀ id < w.ids, (∀ task ∈ w.tasks, task.id ≠ id) → w.fds.closesOf id = 1

/-- A task ends whose stub was not cleaned up. -/
def Uncleaned (w : UdpxWorld) : UdpxEvent → Prop
  | .ended task => task.id ∉ w.cleaned
  | _ => True

/-- The descriptor of a stub is open until the stub is cleaned up, and what is closed is
closed. -/
structure Booked (w : UdpxWorld) : Prop where
  sound : w.Sound
  tidy : w.fds.Tidy
  held : ∀ task ∈ w.tasks, task.id ∉ w.cleaned → w.fds.opened.lookup task.fd = some task.id
  wiped : ∀ task ∈ w.tasks, task.id ∈ w.cleaned → w.fds.closesOf task.id = 1
  cached : ∀ {a : SocketAddr} {stub : UStub} {k : Nat},
    w.cache.entries.lookup a = some (stub, k) → stub.id ∉ w.cleaned
  known : ∀ {fd id : Nat}, w.fds.opened.lookup fd = some id → id < w.ids
  unborn : ∀ id, w.ids ≤ id → id ∉ w.cleaned ∧ w.fds.closesOf id = 0
  finished : ∀ id < w.ids, (∀ task ∈ w.tasks, task.id ≠ id) → w.fds.closesOf id = 1

theorem Booked.closedOnce (h : w.Booked) : w.ClosedOnce := ⟨h.tidy.own, h.tidy.once, h.finished⟩

theorem booked_init : init.Booked :=
  ⟨sound_init, Descriptors.tidy_new, nofun, nofun, by simp [init, Cache.new],
    by simp [init, Descriptors.new], fun _ _ => ⟨nofun, rfl⟩, nofun⟩

/-- A stub that opens a descriptor. -/
theorem Booked.opens (h : w.Booked) (fd : Nat) : (w.fds.openAt fd w.ids).Tidy := by
  refine h.tidy.openAt (h.unborn w.ids (Nat.le_refl _)).2 ?_
  intro fd' hlookup
  exact Nat.lt_irrefl _ (h.known hlookup)

/-- What is held is not a number that is not in use. -/
theorem Booked.held_openAt (h : w.Booked) {fd : Nat} (hfresh : fd ∉ w.fds.opened)
    {task : StubTask} (htask : task ∈ w.tasks) (hclean : task.id ∉ w.cleaned) :
    task.fd ≠ fd ∧ (w.fds.openAt fd w.ids).opened.lookup task.fd = some task.id := by
  have hheld := h.held task htask hclean
  have hne : task.fd ≠ fd := by
    rintro rfl
    exact hfresh (AList.lookup_isSome.mp (Option.isSome_of_mem hheld))
  exact ⟨hne, (AList.lookup_insert_ne hne).trans hheld⟩

/-- What is open after an opening was open before, or is what was opened. -/
theorem Booked.known_openAt (h : w.Booked) {fd fd' id : Nat}
    (hlookup : (w.fds.openAt fd w.ids).opened.lookup fd' = some id) : id < w.ids + 1 := by
  by_cases hfd : fd' = fd
  · subst hfd
    rw [Descriptors.openAt, AList.lookup_insert] at hlookup
    cases hlookup
    exact Nat.lt_succ_self w.ids
  · rw [Descriptors.openAt, AList.lookup_insert_ne hfd] at hlookup
    exact Nat.lt_succ_of_lt (h.known hlookup)

theorem Booked.refused (h : w.Booked) {fd : Nat} (hfresh : fd ∉ w.fds.opened)
    (hsound : Sound { w with
      fds := (w.fds.openAt fd w.ids).close fd w.ids, ids := w.ids + 1 }) :
    Booked { w with fds := (w.fds.openAt fd w.ids).close fd w.ids, ids := w.ids + 1 } := by
  refine ⟨hsound, (h.opens fd).close (AList.lookup_insert _), ?_, ?_, h.cached, ?_, ?_, ?_⟩
  · intro task htask hclean
    obtain ⟨hne, hlookup⟩ := h.held_openAt hfresh htask hclean
    exact (AList.lookup_erase_ne hne).trans hlookup
  · intro task htask hcleaned
    rw [Descriptors.closesOf_close_ne (Nat.ne_of_lt (h.sound.fresh task htask))]
    exact h.wiped task htask hcleaned
  · intro fd' id hlookup
    exact h.known_openAt (Descriptors.lookup_close hlookup).2
  · intro id hid
    obtain ⟨hclean, hzero⟩ := h.unborn id (Nat.le_of_succ_le hid)
    rw [Descriptors.closesOf_close_ne (Nat.ne_of_gt hid)]
    exact ⟨hclean, hzero⟩
  · intro id hid hover
    by_cases hlast : id = w.ids
    · subst hlast
      rw [Descriptors.closesOf_close_self, Descriptors.closesOf_openAt,
        (h.unborn w.ids (Nat.le_refl _)).2]
    · rw [Descriptors.closesOf_close_ne hlast]
      exact h.finished id (Nat.lt_of_le_of_ne (Nat.le_of_lt_succ hid) hlast) hover

theorem Booked.built (h : w.Booked) {opening : Opening} {srcAddr : SocketAddr} {fd : Nat}
    (hfresh : fd ∉ w.fds.opened) (hsound : Sound { w with
      cache := w.cache.insert srcAddr ⟨w.ids, fd, some w.ids, some w.ids, srcAddr⟩ opening.delay
      tasks := ⟨w.ids, fd, srcAddr⟩ :: w.tasks
      fds := w.fds.openAt fd w.ids
      ids := w.ids + 1 }) : Booked { w with
        cache := w.cache.insert srcAddr ⟨w.ids, fd, some w.ids, some w.ids, srcAddr⟩ opening.delay
        tasks := ⟨w.ids, fd, srcAddr⟩ :: w.tasks
        fds := w.fds.openAt fd w.ids
        ids := w.ids + 1 } := by
  obtain ⟨hnew, hzero⟩ := h.unborn w.ids (Nat.le_refl _)
  refine ⟨hsound, h.opens fd, ?_, ?_, ?_, h.known_openAt, ?_, ?_⟩
  · intro task htask hclean
    rcases List.mem_cons.mp htask with rfl | hold
    · exact AList.lookup_insert _
    · exact (h.held_openAt hfresh hold hclean).2
  · intro task htask hcleaned
    rcases List.mem_cons.mp htask with rfl | hold
    · exact absurd hcleaned hnew
    · exact h.wiped task hold hcleaned
  · intro a stub k hlookup
    by_cases ha : a = srcAddr
    · subst ha
      rw [Cache.insert, AList.lookup_insert] at hlookup
      cases hlookup
      exact hnew
    · rw [Cache.insert, AList.lookup_insert_ne ha] at hlookup
      exact h.cached hlookup
  · intro id hid
    exact h.unborn id (Nat.le_of_succ_le hid)
  · intro id hid hover
    have hlast : id ≠ w.ids := (hover _ List.mem_cons_self).symm
    exact h.finished id (Nat.lt_of_le_of_ne (Nat.le_of_lt_succ hid) hlast)
      fun task htask => hover task (List.mem_cons_of_mem _ htask)

theorem Booked.ended (h : w.Booked) {task : StubTask} {c : Cache} (htask : task ∈ w.tasks)
    (hclean : task.id ∉ w.cleaned) (hentries : c.entries = w.cache.entries.erase task.srcAddr)
    (hsound : Sound { w with
      cache := c, tasks := w.tasks.erase task, fds := w.fds.close task.fd task.id }) :
    Booked { w with
      cache := c, tasks := w.tasks.erase task, fds := w.fds.close task.fd task.id } := by
  have hheld := h.held task htask hclean
  refine ⟨hsound, h.tidy.close hheld, ?_, ?_, ?_, ?_, ?_, ?_⟩
  · intro task' htask' hclean'
    have hmem := List.mem_of_mem_erase htask'
    have hid := (h.sound.mem_erase htask hmem).mp htask'
    have hlookup := h.held task' hmem hclean'
    have hne : task'.fd ≠ task.fd := by
      intro heq
      rw [heq, hheld] at hlookup
      exact hid (Option.some.inj hlookup).symm
    exact (AList.lookup_erase_ne hne).trans hlookup
  · intro task' htask' hcleaned
    have hmem := List.mem_of_mem_erase htask'
    rw [Descriptors.closesOf_close_ne ((h.sound.mem_erase htask hmem).mp htask')]
    exact h.wiped task' hmem hcleaned
  · intro a stub k hlookup
    rw [hentries] at hlookup
    exact h.cached (lookup_erase_eq_some hlookup).2
  · intro fd id hlookup
    exact h.known (Descriptors.lookup_close hlookup).2
  · intro id hid
    have hne : id ≠ task.id := Nat.ne_of_gt (Nat.lt_of_lt_of_le (h.sound.fresh task htask) hid)
    rw [Descriptors.closesOf_close_ne hne]
    exact h.unborn id hid
  · intro id hid hover
    by_cases heq : id = task.id
    · subst heq
      rw [Descriptors.closesOf_close_self, h.tidy.left hheld]
    · rw [Descriptors.closesOf_close_ne heq]
      refine h.finished id hid ?_
      rintro task' hmem rfl
      exact hover task' ((h.sound.mem_erase htask hmem).mpr heq) rfl

/-- The stubs that are taken out have their tasks, and none of them was cleaned up. -/
theorem Booked.gone (h : w.Booked) {c : Cache} {gone : List UStub}
    (hdrops : w.cache.Drops c gone) :
    (∀ stub ∈ gone, (⟨stub.id, stub.rawfd, stub.srcAddr⟩ : StubTask) ∈ w.tasks ∧
      stub.id ∉ w.cleaned ∧ w.fds.opened.lookup stub.rawfd = some stub.id) ∧
    (gone.map UStub.id).Nodup := by
  have htasks : ∀ stub ∈ gone, (⟨stub.id, stub.rawfd, stub.srcAddr⟩ : StubTask) ∈ w.tasks ∧
      stub.id ∉ w.cleaned ∧ w.fds.opened.lookup stub.rawfd = some stub.id := by
    intro stub hstub
    obtain ⟨⟨k, hlookup⟩, _⟩ := hdrops.taken stub hstub
    have htask := h.sound.running hlookup
    have hclean := h.cached hlookup
    exact ⟨htask, hclean, h.held _ htask hclean⟩
  refine ⟨htasks, List.Nodup.map_on ?_ (List.Nodup.of_map _ hdrops.once)⟩
  intro stub hstub stub' hstub' hid
  have htask := List.inj_on_of_nodup_map h.sound.apart (htasks stub hstub).1
    (htasks stub' hstub').1 hid
  exact List.inj_on_of_nodup_map hdrops.once hstub hstub' (congrArg StubTask.srcAddr htask)

theorem map_snd_descriptors (gone : List UStub) :
    (descriptors gone).map Prod.snd = gone.map UStub.id := by
  rw [descriptors, List.map_map]
  rfl

theorem Booked.dropped (h : w.Booked) {c : Cache} {gone : List UStub}
    (hdrops : w.cache.Drops c gone) (hsound : Sound { w with
      cache := c
      fds := w.fds.closeAll (descriptors gone)
      cleaned := (gone.map UStub.id).reverse ++ w.cleaned }) : Booked { w with
        cache := c
        fds := w.fds.closeAll (descriptors gone)
        cleaned := (gone.map UStub.id).reverse ++ w.cleaned } := by
  obtain ⟨htasks, hnodup⟩ := h.gone hdrops
  have hcount : ∀ id, (w.fds.closeAll (descriptors gone)).closesOf id =
      w.fds.closesOf id + (gone.map UStub.id).count id := by
    intro id
    rw [Descriptors.closesOf_closeAll, map_snd_descriptors]
  have hcleaned : ∀ {id : Nat}, id ∈ (gone.map UStub.id).reverse ++ w.cleaned ↔
      id ∈ gone.map UStub.id ∨ id ∈ w.cleaned := by
    intro id
    rw [List.mem_append, List.mem_reverse]
  refine ⟨hsound, ?_, ?_, ?_, ?_, ?_, ?_, ?_⟩
  · refine h.tidy.closeAll ?_ (map_snd_descriptors gone ▸ hnodup)
    intro p hp
    obtain ⟨stub, hstub, rfl⟩ := List.mem_map.mp hp
    exact (htasks stub hstub).2.2
  · intro task htask hclean
    obtain ⟨hout, hclean⟩ := not_or.mp (hcleaned.not.mp hclean)
    have hheld := h.held task htask hclean
    refine (Descriptors.lookup_closeAll ?_).trans hheld
    intro hin
    obtain ⟨p, hp, hfd⟩ := List.mem_map.mp hin
    obtain ⟨stub, hstub, rfl⟩ := List.mem_map.mp hp
    have hfd : stub.rawfd = task.fd := hfd
    rw [← hfd, (htasks stub hstub).2.2] at hheld
    exact hout (Option.some.inj hheld ▸ List.mem_map_of_mem hstub)
  · intro task htask hin
    rw [hcount]
    by_cases hgone : task.id ∈ gone.map UStub.id
    · obtain ⟨stub, hstub, hid⟩ := List.mem_map.mp hgone
      have hzero := h.tidy.left (htasks stub hstub).2.2
      rw [List.count_eq_one_of_mem hnodup hgone, ← hid, hzero]
    · rw [List.count_eq_zero_of_not_mem hgone]
      exact h.wiped task htask ((hcleaned.mp hin).resolve_left hgone)
  · intro a stub k hlookup hin
    have hold := hdrops.kept hlookup
    rcases hcleaned.mp hin with hgone | hwiped
    · obtain ⟨stub', hstub', hid⟩ := List.mem_map.mp hgone
      have htask := List.inj_on_of_nodup_map h.sound.apart (htasks stub' hstub').1
        (h.sound.running hold) hid
      have hnone := (hdrops.taken stub' hstub').2
      rw [show stub'.srcAddr = a from congrArg StubTask.srcAddr htask, hlookup] at hnone
      cases hnone
    · exact h.cached hold hwiped
  · intro fd id hlookup
    exact h.known (Descriptors.lookup_of_closeAll hlookup)
  · intro id hid
    obtain ⟨hclean, hzero⟩ := h.unborn id hid
    have hout : id ∉ gone.map UStub.id := by
      intro hgone
      obtain ⟨stub, hstub, rfl⟩ := List.mem_map.mp hgone
      exact Nat.not_lt_of_le hid (h.sound.fresh _ (htasks stub hstub).1)
    refine ⟨hcleaned.not.mpr (not_or.mpr ⟨hout, hclean⟩), ?_⟩
    rw [hcount, hzero, List.count_eq_zero_of_not_mem hout]
  · intro id hid hover
    have hout : id ∉ gone.map UStub.id := by
      intro hgone
      obtain ⟨stub, hstub, rfl⟩ := List.mem_map.mp hgone
      exact hover _ (htasks stub hstub).1 rfl
    rw [hcount, List.count_eq_zero_of_not_mem hout]
    exact h.finished id hid hover

theorem Booked.change (h : w.Booked) (hchange : w.Change e w') (hclean : w.Uncleaned e) :
    w'.Booked := by
  have hsound := hchange.sound h.sound
  cases hchange with
  | same _ => exact h
  | refused _ hfresh => exact h.refused hfresh hsound
  | built _ hfresh _ => exact h.built hfresh hsound
  | ended htask _ hentries => exact h.ended htask hclean hentries hsound
  | dropped _ _ hdrops => exact h.dropped hdrops hsound

/-- After a step all is closed once exactly when a task that ends is of a stub that was not
cleaned up. -/
theorem step_closedOnce_iff (h : w.Booked) (hstep : Step w e w') :
    w'.ClosedOnce ↔ w.Uncleaned e := by
  have hchange := hstep.change h.sound.good
  constructor
  · intro hclosed
    cases hchange with
    | @ended task c htask _ _ =>
        -- the socket's own close is the second one of a stub that was cleaned up
        intro hcleaned
        have htwo := hclosed.once task.id
        rw [Descriptors.closesOf_close_self, h.wiped task htask hcleaned] at htwo
        omega
    | dropped hcleans _ _ =>
        cases e with
        | ended _ => exact hcleans.elim
        | _ => trivial
    | _ => trivial
  · intro hclean
    exact (h.change hchange hclean).closedOnce

/-- In a run, every descriptor that a stub opened is closed exactly once, and no close is of
another's, exactly when no task ends whose stub was cleaned up. -/
theorem run_closedOnce_iff (es : List UdpxEvent) (w : UdpxWorld) :
    init.ClosedOnce ∧ (Run (Guarded Uncleaned Step) init es w ↔
      Run (fun w e w' => Step w e w' ∧ w'.ClosedOnce) init es w) := by
  refine ⟨booked_init.closedOnce, Run.guarded_iff (I := Booked) ?_ ?_ booked_init⟩
  · intro v e v' hv hstep
    exact step_closedOnce_iff hv hstep
  · intro v e v' hv hstep hclosed
    exact hv.change (hstep.change hv.sound.good) ((step_closedOnce_iff hv hstep).mp hclosed)

/-- And then the task of the first stub ends. -/
def reissued : List UdpxEvent := revisited ++ [.ended firstTask]

/-- The task of a stub that was cleaned up closes the stub's descriptor once more, which by
then is the one of another stub. -/
theorem other_closed : ∃ w, Run Step init reissued w ∧
    w.fds.closes = [⟨0, some 1⟩, ⟨0, some 0⟩] ∧ w.fds.closesOf 0 = 2 ∧
      w.cleaned = [0] ∧ ¬ w.ClosedOnce := by
  have hexec : (reissued.foldlM (attempt Enabled handle) init).map
      (fun w => (w.fds.closes, w.fds.closesOf 0, w.cleaned)) =
        some ([⟨0, some 1⟩, ⟨0, some 0⟩], 2, [0]) := by decide +kernel
  obtain ⟨w, hw, hfacts⟩ := Option.map_eq_some_iff.mp hexec
  simp only [Prod.mk.injEq] at hfacts
  obtain ⟨hcloses, htwo, hcleaned⟩ := hfacts
  refine ⟨w, .of_attempts hw, hcloses, htwo, hcleaned, ?_⟩
  intro hclosed
  have hone := hclosed.once 0
  rw [htwo] at hone
  cases Nat.not_succ_le_self 1 hone

end UdpxWorld

end LproxyCv.Udpx
