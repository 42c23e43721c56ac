import Mathlib.Data.List.Basic
import Mathlib.Logic.Function.Basic

set_option autoImplicit false

/-!
# Foundation: values that are kept for two intervals

A store keeps values under keys, in two generations.  A value is put among the newer ones,
where it takes the place of the one under its key.  When the store ages, the older values
are dropped, and the newer ones become the older ones.  To take a key gets the older value,
if there is one, or the newer, and removes it.

What is said of a run is said of its list of acts.  `Pending` says, with no store in sight,
which puts can still be taken; `served_iff` that a take gets the pending put of the older
interval.
-/

namespace LproxyCv.Foundation

/-- The values of two generations. -/
@[ext] structure Generations (κ ν : Type) where
  older : κ → Option ν
  newer : κ → Option ν

namespace Generations

variable {κ ν ω : Type}

/-- The store without values. -/
def empty : Generations κ ν := ⟨fun _ => none, fun _ => none⟩

/-- Drop the older values, and let the newer ones become older. -/
def age (g : Generations κ ν) : Generations κ ν := ⟨g.newer, fun _ => none⟩

/-- The store of what is made of the values. -/
def map (f : ν → ω) (g : Generations κ ν) : Generations κ ω :=
  ⟨fun k => (g.older k).map f, fun k => (g.newer k).map f⟩

/-! ## Runs -/

/-- What is done to a store. -/
inductive Act (κ ν : Type) where
  | put (k : κ) (v : ν)
  | take (k : κ)
  | age
  deriving DecidableEq, Repr

/-- Whether the store ages. -/
def Act.isAge : Act κ ν → Bool
  | .age => true
  | _ => false

/-- The interval that an act falls into: how often the store has aged before it. -/
def interval (acts : List (Act κ ν)) (n : Nat) : Nat := (acts.take n).countP Act.isAge

/-- A put that can still be taken when the acts before `n` are done, where `got` tells which
puts they got: the store has aged less than twice since, no later put of the key fell into
the same interval, and no act has got it. -/
structure Pending (acts : List (Act κ ν)) (got : Nat → Option Nat) (k : κ) (n i : Nat) :
    Prop where
  before : i < n
  put : ∃ v, acts[i]? = some (.put k v)
  recent : interval acts n < interval acts i + 2
  last : ∀ m, i < m → m < n → interval acts m = interval acts i → ∀ v, acts[m]? ≠ some (.put k v)
  left : ∀ m < n, got m ≠ some i

theorem interval_succ {acts : List (Act κ ν)} {n : Nat} {a : Act κ ν} (h : acts[n]? = some a) :
    interval acts (n + 1) = interval acts n + if a.isAge then 1 else 0 := by
  rw [interval, List.take_add_one, h, List.countP_append, Option.toList_some,
    List.countP_singleton, interval]

theorem interval_succ_none {acts : List (Act κ ν)} {n : Nat} (h : acts[n]? = none) :
    interval acts (n + 1) = interval acts n := by
  rw [interval, List.take_add_one, h, Option.toList_none, List.append_nil, interval]

theorem interval_mono {acts : List (Act κ ν)} {m n : Nat} (h : m ≤ n) :
    interval acts m ≤ interval acts n :=
  (List.take_sublist_take_left h).countP_le

/-! ## Putting and taking -/

variable [DecidableEq κ]

/-- Put a value among the newer ones. -/
def put (g : Generations κ ν) (k : κ) (v : ν) : Generations κ ν :=
  { g with newer := Function.update g.newer k (some v) }

/-- Take the value of a key, the older one first. -/
def take (g : Generations κ ν) (k : κ) : Option ν × Generations κ ν :=
  match g.older k with
  | some v => (some v, { g with older := Function.update g.older k none })
  | none => (g.newer k, { g with newer := Function.update g.newer k none })

theorem take_older {g : Generations κ ν} {k : κ} {v : ν} (h : g.older k = some v) :
    g.take k = (some v, { g with older := Function.update g.older k none }) := by
  rw [take, h]

theorem take_newer {g : Generations κ ν} {k : κ} (h : g.older k = none) :
    g.take k = (g.newer k, { g with newer := Function.update g.newer k none }) := by
  rw [take, h]

theorem map_put (f : ν → ω) (g : Generations κ ν) (k : κ) (v : ν) :
    (g.put k v).map f = (g.map f).put k (f v) := by
  refine Generations.ext rfl (funext fun k' => ?_)
  by_cases h : k' = k
  · subst h
    simp [map, put]
  · simp [map, put, h]

/-- To remove a key and to make something of the values. -/
theorem map_update_none (f : ν → ω) (m : κ → Option ν) (k : κ) :
    (fun k' => (Function.update m k none k').map f) =
      Function.update (fun k' => (m k').map f) k none := by
  funext k'
  by_cases h : k' = k
  · subst h
    simp
  · simp [h]

theorem map_take (f : ν → ω) (g : Generations κ ν) (k : κ) :
    (g.map f).take k = ((g.take k).1.map f, (g.take k).2.map f) := by
  cases h : g.older k with
  | some v =>
      have hmap : (g.map f).older k = some (f v) := congrArg (Option.map f) h
      rw [take_older h, take_older hmap]
      exact Prod.ext rfl (Generations.ext (map_update_none f g.older k).symm rfl)
  | none =>
      have hmap : (g.map f).older k = none := congrArg (Option.map f) h
      rw [take_newer h, take_newer hmap]
      exact Prod.ext rfl (Generations.ext rfl (map_update_none f g.newer k).symm)

variable (acts : List (Act κ ν))

/-- The store after `n` acts, where each value has the number of its put. -/
def holders : Nat → Generations κ (Nat × ν)
  | 0 => empty
  | n + 1 =>
      match acts[n]? with
      | some (.put k v) => (holders n).put k (n, v)
      | some (.take k) => ((holders n).take k).2
      | some .age => (holders n).age
      | none => holders n

/-- The value that an act gets, and its put. -/
def served (n : Nat) : Option (Nat × ν) :=
  match acts[n]? with
  | some (.take k) => ((holders acts n).take k).1
  | _ => none

/-- The put that an act gets. -/
def got (n : Nat) : Option Nat := (served acts n).map Prod.fst

/-! ## What the store holds -/

/-- A put is held since `c` intervals. -/
structure Held (k : κ) (n c i : Nat) (v : ν) : Prop where
  before : i < n
  put : acts[i]? = some (.put k v)
  age : interval acts n = interval acts i + c
  last : ∀ m, i < m → m < n → interval acts m = interval acts i → ∀ w, acts[m]? ≠ some (.put k w)
  left : ∀ m < n, got acts m ≠ some i

/-- The store holds the puts of this interval and of the last one. -/
def Tracks (n : Nat) : Prop :=
  (∀ k i v, (holders acts n).newer k = some (i, v) ↔ Held acts k n 0 i v) ∧
    ∀ k i v, (holders acts n).older k = some (i, v) ↔ Held acts k n 1 i v

variable {acts} {k k' : κ} {n c c' i : Nat} {v w : ν}

theorem Held.unique (h : Held acts k n c i v) (h' : Held acts k' n c' i w) : k = k' ∧ c = c' := by
  have hput := h.put.symm.trans h'.put
  have hage := h.age.symm.trans h'.age
  cases hput
  exact ⟨rfl, Nat.add_left_cancel hage⟩

/-- A put that is held was held before the last act, unless it is that act. -/
theorem Held.of_succ (h : Held acts k (n + 1) c i v) (hi : i ≠ n)
    (hage : interval acts n = interval acts i + c') : Held acts k n c' i v where
  before := Nat.lt_of_le_of_ne (Nat.le_of_lt_succ h.before) hi
  put := h.put
  age := hage
  last m hm hm' := h.last m hm (Nat.lt_succ_of_lt hm')
  left m hm := h.left m (Nat.lt_succ_of_lt hm)

/-- A put that is held stays held, unless the next act puts it over or gets it. -/
theorem Held.succ (h : Held acts k n c i v) (hage : interval acts (n + 1) = interval acts i + c')
    (hlast : interval acts n = interval acts i → ∀ w, acts[n]? ≠ some (.put k w))
    (hleft : got acts n ≠ some i) : Held acts k (n + 1) c' i v where
  before := Nat.lt_succ_of_lt h.before
  put := h.put
  age := hage
  last m hm hm' heq := by
    rcases Nat.lt_succ_iff_lt_or_eq.mp hm' with hlt | rfl
    · exact h.last m hm hlt heq
    · exact hlast heq
  left m hm := by
    rcases Nat.lt_succ_iff_lt_or_eq.mp hm with hlt | rfl
    · exact h.left m hlt
    · exact hleft

/-! ## One act -/

theorem got_eq_none (h : ∀ k, acts[n]? ≠ some (.take k)) : got acts n = none := by
  unfold got served
  split
  · rename_i k hk
    exact absurd hk (h k)
  · rfl

theorem held_put_iff (hact : acts[n]? = some (.put k' w)) (hnew : ∀ m < n, got acts m ≠ some n) :
    Held acts k (n + 1) c i v ↔
      (k = k' ∧ c = 0) ∧ i = n ∧ v = w ∨ ¬ (k = k' ∧ c = 0) ∧ Held acts k n c i v := by
  have hsame : interval acts (n + 1) = interval acts n := interval_succ hact
  have hgot : got acts n = none := got_eq_none (by simp [hact])
  constructor
  · intro h
    by_cases hi : i = n
    · subst hi
      have hput := h.put.symm.trans hact
      have hage := h.age
      cases hput
      exact .inl ⟨⟨rfl, by omega⟩, rfl, rfl⟩
    · have hage : interval acts n = interval acts i + c := hsame.symm.trans h.age
      refine .inr ⟨?_, h.of_succ hi hage⟩
      rintro ⟨rfl, rfl⟩
      have hbefore := h.before
      exact h.last n (by omega) (Nat.lt_succ_self n) hage w hact
  · rintro (⟨⟨rfl, rfl⟩, rfl, rfl⟩ | ⟨hne, h⟩)
    · refine ⟨Nat.lt_succ_self i, hact, hsame, fun m hm hm' => by omega, fun m hm => ?_⟩
      rcases Nat.lt_succ_iff_lt_or_eq.mp hm with hlt | rfl
      · exact hnew m hlt
      · rw [hgot]
        exact nofun
    · refine h.succ (hsame.trans h.age) ?_ (by rw [hgot]; exact nofun)
      intro heq w' hput
      have hage := h.age
      rw [hact] at hput
      cases hput
      exact hne ⟨rfl, by omega⟩

theorem held_take_iff (hact : acts[n]? = some (.take k')) :
    Held acts k (n + 1) c i v ↔ Held acts k n c i v ∧ got acts n ≠ some i := by
  have hsame : interval acts (n + 1) = interval acts n := interval_succ hact
  constructor
  · intro h
    have hi : i ≠ n := by
      rintro rfl
      cases h.put.symm.trans hact
    exact ⟨h.of_succ hi (hsame.symm.trans h.age), h.left n (Nat.lt_succ_self n)⟩
  · rintro ⟨h, hleft⟩
    exact h.succ (hsame.trans h.age) (fun _ w => by simp [hact]) hleft

theorem held_age_iff (hact : acts[n]? = some .age) :
    Held acts k (n + 1) c i v ↔ ∃ c', c = c' + 1 ∧ Held acts k n c' i v := by
  have hnext : interval acts (n + 1) = interval acts n + 1 := interval_succ hact
  constructor
  · intro h
    have hi : i ≠ n := by
      rintro rfl
      cases h.put.symm.trans hact
    have hle : interval acts i ≤ interval acts n :=
      interval_mono (Nat.le_of_lt_succ h.before)
    have hage := h.age
    exact ⟨interval acts n - interval acts i, by omega, h.of_succ hi (by omega)⟩
  · rintro ⟨c', rfl, h⟩
    refine h.succ ?_ (fun _ w => by simp [hact]) ?_
    · rw [hnext, h.age]
      rfl
    · rw [got_eq_none (by simp [hact])]
      exact nofun

theorem held_none_iff (hact : acts[n]? = none) :
    Held acts k (n + 1) c i v ↔ Held acts k n c i v := by
  have hsame : interval acts (n + 1) = interval acts n := interval_succ_none hact
  constructor
  · intro h
    have hi : i ≠ n := by
      rintro rfl
      cases h.put.symm.trans hact
    exact h.of_succ hi (hsame.symm.trans h.age)
  · intro h
    refine h.succ (hsame.trans h.age) (fun _ w => by simp [hact]) ?_
    rw [got_eq_none (by simp [hact])]
    exact nofun

/-! ## Every act -/

theorem served_of_older {p : Nat × ν} (hact : acts[n]? = some (.take k))
    (h : (holders acts n).older k = some p) : served acts n = some p := by
  simp only [served, hact, take_older h]

theorem served_of_newer (hact : acts[n]? = some (.take k)) (h : (holders acts n).older k = none) :
    served acts n = (holders acts n).newer k := by
  simp only [served, hact, take_newer h]

/-- What is served is held. -/
theorem Tracks.held (h : Tracks acts n) (hact : acts[n]? = some (.take k))
    (hserved : served acts n = some (i, v)) :
    Held acts k n 1 i v ∨ (holders acts n).older k = none ∧ Held acts k n 0 i v := by
  cases hold : (holders acts n).older k with
  | some p =>
      rw [served_of_older hact hold] at hserved
      cases hserved
      exact .inl ((h.2 k i v).mp hold)
  | none =>
      rw [served_of_newer hact hold] at hserved
      exact .inr ⟨rfl, (h.1 k i v).mp hserved⟩

/-- Only a take is served. -/
theorem take_of_served (h : served acts n = some (i, v)) : ∃ k, acts[n]? = some (.take k) := by
  unfold served at h
  split at h
  · rename_i k hact
    exact ⟨k, hact⟩
  · cases h

theorem Tracks.held_of_served (h : Tracks acts n) (hserved : served acts n = some (i, v)) :
    ∃ k c, Held acts k n c i v := by
  obtain ⟨k, hact⟩ := take_of_served hserved
  obtain hheld | ⟨_, hheld⟩ := h.held hact hserved
  · exact ⟨k, 1, hheld⟩
  · exact ⟨k, 0, hheld⟩

theorem got_eq_some_iff : got acts n = some i ↔ ∃ v, served acts n = some (i, v) := by
  simp [got]

theorem tracks_zero : Tracks acts 0 := by
  constructor
  · intro k i v
    exact ⟨nofun, fun h => absurd h.before (Nat.not_lt_zero i)⟩
  · intro k i v
    exact ⟨nofun, fun h => absurd h.before (Nat.not_lt_zero i)⟩

theorem Tracks.put (h : Tracks acts n) (hact : acts[n]? = some (.put k' w))
    (hnew : ∀ m < n, got acts m ≠ some n) : Tracks acts (n + 1) := by
  have hstore : holders acts (n + 1) = (holders acts n).put k' (n, w) := by
    simp only [holders, hact]
  constructor
  · intro k i v
    rw [hstore, held_put_iff hact hnew, ← h.1 k i v]
    by_cases hk : k = k'
    · subst hk
      simp [Generations.put, eq_comm]
    · simp [Generations.put, hk]
  · intro k i v
    rw [hstore, held_put_iff hact hnew, ← h.2 k i v]
    simp [Generations.put]

/-- What is got is of the key, and of one generation. -/
theorem Tracks.of_got (h : Tracks acts n) (hact : acts[n]? = some (.take k'))
    (hgot : got acts n = some i) (hheld : Held acts k n c i v) :
    k = k' ∧ (c = 1 ∨ (holders acts n).older k' = none ∧ c = 0) := by
  obtain ⟨v, hserved⟩ := got_eq_some_iff.mp hgot
  obtain hgotten | ⟨hnone, hgotten⟩ := h.held hact hserved
  · obtain ⟨rfl, rfl⟩ := hheld.unique hgotten
    exact ⟨rfl, .inl rfl⟩
  · obtain ⟨rfl, rfl⟩ := hheld.unique hgotten
    exact ⟨rfl, .inr ⟨hnone, rfl⟩⟩

/-- The generation that a key is taken from. -/
theorem Tracks.taken (h : Tracks acts n) (hact : acts[n]? = some (.take k'))
    {m : κ → Option (Nat × ν)} (hm : ∀ k i v, m k = some (i, v) ↔ Held acts k n c i v)
    (hserved : served acts n = m k') (k : κ) (i : Nat) (v : ν) :
    Function.update m k' none k = some (i, v) ↔ Held acts k (n + 1) c i v := by
  rw [held_take_iff hact]
  by_cases hk : k = k'
  · subst hk
    rw [Function.update_self]
    refine ⟨nofun, fun ⟨hheld, hleft⟩ => absurd ?_ hleft⟩
    exact got_eq_some_iff.mpr ⟨v, hserved.trans ((hm k i v).mpr hheld)⟩
  · rw [Function.update_of_ne hk, hm]
    refine ⟨fun hheld => ⟨hheld, fun hi => hk (h.of_got hact hi hheld).1⟩, And.left⟩

theorem Tracks.take (h : Tracks acts n) (hact : acts[n]? = some (.take k')) :
    Tracks acts (n + 1) := by
  have hstore : holders acts (n + 1) = ((holders acts n).take k').2 := by
    simp only [holders, hact]
  cases hold : (holders acts n).older k' with
  | some p =>
      rw [take_older hold] at hstore
      have hserved : served acts n = (holders acts n).older k' :=
        (served_of_older hact hold).trans hold.symm
      rw [Tracks, hstore]
      refine ⟨fun k i v => ?_, h.taken hact h.2 hserved⟩
      rw [held_take_iff hact, h.1 k i v]
      refine ⟨fun hheld => ⟨hheld, fun hi => ?_⟩, And.left⟩
      rcases (h.of_got hact hi hheld).2 with hc | ⟨hnone, _⟩
      · cases hc
      · cases hold.symm.trans hnone
  | none =>
      rw [take_newer hold] at hstore
      rw [Tracks, hstore]
      refine ⟨h.taken hact h.1 (served_of_newer hact hold), fun k i v => ?_⟩
      rw [held_take_iff hact, h.2 k i v]
      refine ⟨fun hheld => ⟨hheld, fun hi => ?_⟩, And.left⟩
      -- the key has no older value, and this one would be
      obtain ⟨rfl, _⟩ := h.of_got hact hi hheld
      cases hold.symm.trans ((h.2 k i v).mpr hheld)

theorem Tracks.age (h : Tracks acts n) (hact : acts[n]? = some .age) :
    Tracks acts (n + 1) := by
  have hstore : holders acts (n + 1) = (holders acts n).age := by
    simp only [holders, hact]
  constructor
  · intro k i v
    rw [hstore, held_age_iff hact]
    simp [Generations.age]
  · intro k i v
    rw [hstore, held_age_iff hact]
    simp [Generations.age, h.1 k i v]

theorem Tracks.stay (h : Tracks acts n) (hact : acts[n]? = none) : Tracks acts (n + 1) := by
  have hstore : holders acts (n + 1) = holders acts n := by
    simp only [holders, hact]
  constructor
  · intro k i v
    rw [hstore, held_none_iff hact, h.1 k i v]
  · intro k i v
    rw [hstore, held_none_iff hact, h.2 k i v]

theorem tracks (n : Nat) : ∀ m ≤ n, Tracks acts m := by
  induction n with
  | zero =>
      intro m hm
      rw [Nat.le_zero.mp hm]
      exact tracks_zero
  | succ n ih =>
      intro m hm
      rcases Nat.le_succ_iff.mp hm with hle | rfl
      · exact ih m hle
      · have h := ih n (Nat.le_refl n)
        cases hact : acts[n]? with
        | none => exact h.stay hact
        | some a =>
            cases a with
            | put k v =>
                refine h.put hact fun m hm hgot => ?_
                obtain ⟨_, hserved⟩ := got_eq_some_iff.mp hgot
                obtain ⟨_, _, hheld⟩ := (ih m (Nat.le_of_lt hm)).held_of_served hserved
                exact Nat.lt_asymm hm hheld.before
            | take k => exact h.take hact
            | age => exact h.age hact

/-! ## Every run -/

theorem pending_iff : Pending acts (got acts) k n i ↔ ∃ c < 2, ∃ v, Held acts k n c i v := by
  constructor
  · intro h
    obtain ⟨v, hput⟩ := h.put
    have hle : interval acts i ≤ interval acts n := interval_mono (Nat.le_of_lt h.before)
    have hrecent := h.recent
    exact ⟨interval acts n - interval acts i, by omega, v, h.before, hput, by omega, h.last,
      h.left⟩
  · rintro ⟨c, hc, v, h⟩
    have hage := h.age
    exact ⟨h.before, ⟨v, h.put⟩, by omega, h.last, h.left⟩

/-- A take gets the pending put of its key that fell into the older interval. -/
theorem got_iff (hact : acts[n]? = some (.take k)) :
    got acts n = some i ↔ Pending acts (got acts) k n i ∧
      ∀ j, Pending acts (got acts) k n j → interval acts i ≤ interval acts j := by
  have htracks : Tracks acts n := tracks n n (Nat.le_refl n)
  constructor
  · intro hgot
    obtain ⟨v, hserved⟩ := got_eq_some_iff.mp hgot
    obtain hheld | ⟨hnone, hheld⟩ := htracks.held hact hserved
    · have hage := hheld.age
      refine ⟨pending_iff.mpr ⟨1, by decide, v, hheld⟩, fun j hj => ?_⟩
      obtain ⟨c, hc, w, hj⟩ := pending_iff.mp hj
      have hage' := hj.age
      omega
    · have hage := hheld.age
      refine ⟨pending_iff.mpr ⟨0, by decide, v, hheld⟩, fun j hj => ?_⟩
      obtain ⟨c, hc, w, hj⟩ := pending_iff.mp hj
      have hage' := hj.age
      have hne : c ≠ 1 := by
        rintro rfl
        cases hnone.symm.trans ((htracks.2 k j w).mpr hj)
      omega
  · rintro ⟨hpending, holdest⟩
    obtain ⟨c, hc, v, hheld⟩ := pending_iff.mp hpending
    obtain rfl | rfl : c = 1 ∨ c = 0 := by omega
    · exact got_eq_some_iff.mpr ⟨v, served_of_older hact ((htracks.2 k i v).mpr hheld)⟩
    · cases hold : (holders acts n).older k with
      | some p =>
          -- the older value would come first
          have hp := (htracks.2 k p.1 p.2).mp hold
          have hle := holdest p.1 (pending_iff.mpr ⟨1, by decide, p.2, hp⟩)
          have hage := hheld.age
          have hage' := hp.age
          omega
      | none =>
          have hserved := (served_of_newer hact hold).trans ((htracks.1 k i v).mpr hheld)
          exact got_eq_some_iff.mpr ⟨v, hserved⟩

theorem got_isSome_iff (hact : acts[n]? = some (.take k)) :
    (got acts n).isSome ↔ ∃ i, Pending acts (got acts) k n i := by
  have htracks : Tracks acts n := tracks n n (Nat.le_refl n)
  constructor
  · intro hsome
    obtain ⟨i, hgot⟩ := Option.isSome_iff_exists.mp hsome
    exact ⟨i, ((got_iff hact).mp hgot).1⟩
  · rintro ⟨i, hpending⟩
    obtain ⟨c, hc, v, hheld⟩ := pending_iff.mp hpending
    cases hold : (holders acts n).older k with
    | some p => rw [got, served_of_older hact hold, Option.map_some, Option.isSome_some]
    | none =>
        have hne : c ≠ 1 := by
          rintro rfl
          cases hold.symm.trans ((htracks.2 k i v).mpr hheld)
        obtain rfl : c = 0 := by omega
        rw [got, served_of_newer hact hold, (htracks.1 k i v).mpr hheld, Option.map_some,
          Option.isSome_some]

/-- A put is got by one act at most. -/
theorem got_injective {m n i : Nat} (hm : got acts m = some i) (hn : got acts n = some i) :
    m = n := by
  have hlate : ∀ {m n}, got acts m = some i → got acts n = some i → ¬ m < n := by
    intro m n hm hn hlt
    obtain ⟨_, hserved⟩ := got_eq_some_iff.mp hn
    obtain ⟨_, _, hheld⟩ := (tracks n n (Nat.le_refl n)).held_of_served hserved
    exact hheld.left m hlt hm
  exact Nat.le_antisymm (Nat.le_of_not_lt (hlate hn hm)) (Nat.le_of_not_lt (hlate hm hn))

/-- What is served is what was put. -/
theorem put_of_served (h : served acts n = some (i, v)) : ∃ k, acts[i]? = some (.put k v) := by
  obtain ⟨k, _, hheld⟩ := (tracks n n (Nat.le_refl n)).held_of_served h
  exact ⟨k, hheld.put⟩

end Generations

end LproxyCv.Foundation
