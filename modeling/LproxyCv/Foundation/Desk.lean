import LproxyCv.Foundation.Generations
import Mathlib.Data.List.Count
import Mathlib.Data.List.Perm.Basic

set_option autoImplicit false

/-!
# Foundation: answers that are told apart by a key

Requests are passed on to somebody who answers each of them once, in any order.  An answer
names the key of its request, not its owner; the owner is noted under the key, in a store of
two generations.

`Fair` says that an answer that came now would go to the owner of its request.  For each of
the three operations it is told, of the state before, exactly when it leads to a fair state
(`Books.ask_fair_iff`, `Books.answer_fair_iff`, `Books.age`).
-/

namespace LproxyCv.Foundation

/-- A request that is not answered yet, and how often the store has aged since. -/
structure Request (κ ν : Type) where
  key : κ
  owner : ν
  ticks : Nat
  deriving DecidableEq, Repr

/-- The store ages. -/
def Request.tick {κ ν : Type} (a : Request κ ν) : Request κ ν := { a with ticks := a.ticks + 1 }

namespace Generations

variable {κ ν : Type}

/-- How many values there are under a key. -/
def held (g : Generations κ ν) (k : κ) : Nat :=
  (g.older k).toList.length + (g.newer k).toList.length

/-- A value is there under a key, in one of the generations. -/
def Has (g : Generations κ ν) (k : κ) (v : ν) : Prop := g.older k = some v ∨ g.newer k = some v

theorem exists_has_iff {g : Generations κ ν} {k : κ} : (∃ v, g.Has k v) ↔ 0 < g.held k := by
  unfold Has held
  cases g.older k <;> cases g.newer k <;> simp

theorem held_age_le (g : Generations κ ν) (k : κ) : g.age.held k ≤ g.held k := by
  simp [held, age]

theorem Has.of_age {g : Generations κ ν} {k : κ} {v : ν} (h : g.age.Has k v) : g.Has k v :=
  h.elim .inr fun hnone => absurd hnone (by simp [age])

variable [DecidableEq κ]

theorem held_put_self (g : Generations κ ν) (k : κ) (v : ν) : (g.put k v).held k ≤ g.held k + 1 := by
  simp [held, put]

theorem held_put_pos (g : Generations κ ν) (k : κ) (v : ν) : 0 < (g.put k v).held k := by
  simp [held, put]

theorem Has.of_put_self {g : Generations κ ν} {k : κ} {u v : ν} (h : (g.put k v).Has k u) :
    g.older k = some u ∨ u = v := by
  refine h.imp_right fun hnew => ?_
  have hself : (g.put k v).newer k = some v := Function.update_self _ _ _
  exact Option.some.inj (hnew.symm.trans hself)

theorem put_of_ne (g : Generations κ ν) {k k' : κ} (v : ν) (h : k' ≠ k) :
    (g.put k v).older k' = g.older k' ∧ (g.put k v).newer k' = g.newer k' :=
  ⟨rfl, Function.update_of_ne h _ _⟩

theorem held_put_of_ne (g : Generations κ ν) {k k' : κ} (v : ν) (h : k' ≠ k) :
    (g.put k v).held k' = g.held k' := by
  simp [held, put, h]

theorem held_take_self (g : Generations κ ν) (k : κ) : (g.take k).2.held k = g.held k - 1 := by
  cases h : g.older k with
  | some v => simp [take_older h, held, h]
  | none =>
      rw [take_newer h]
      cases h' : g.newer k <;> simp [held, h, h']

theorem take_of_ne (g : Generations κ ν) {k k' : κ} (h : k' ≠ k) :
    (g.take k).2.older k' = g.older k' ∧ (g.take k).2.newer k' = g.newer k' := by
  cases hold : g.older k with
  | some v => simp [take_older hold, h]
  | none => simp [take_newer hold, h]

theorem held_take_of_ne (g : Generations κ ν) {k k' : κ} (h : k' ≠ k) :
    (g.take k).2.held k' = g.held k' := by
  obtain ⟨holder, hnewer⟩ := g.take_of_ne h
  rw [held, holder, hnewer, held]

/-- Of two values the newer is left. -/
theorem newer_take_of_two {g : Generations κ ν} {k : κ} (h : 2 ≤ g.held k) :
    (g.take k).2.newer k = g.newer k := by
  cases hold : g.older k with
  | some u => rw [take_older hold]
  | none =>
      rw [held, hold] at h
      cases hnew : g.newer k <;> simp [hnew] at h

theorem Has.of_take {g : Generations κ ν} {k k' : κ} {v : ν} (h : (g.take k).2.Has k' v) :
    g.Has k' v := by
  by_cases hk : k' = k
  · subst hk
    cases hold : g.older k' with
    | some u =>
        rw [take_older hold] at h
        rcases h with h | h
        · simp at h
        · exact .inr h
    | none =>
        rw [take_newer hold] at h
        rcases h with h | h
        · exact .inl h
        · simp at h
  · obtain ⟨holder, hnewer⟩ := g.take_of_ne hk
    unfold Has at h ⊢
    rwa [holder, hnewer] at h

/-- What a take gets is there. -/
theorem has_of_take {g : Generations κ ν} {k : κ} {v : ν} (h : (g.take k).1 = some v) :
    g.Has k v := by
  cases hold : g.older k with
  | some u =>
      rw [take_older hold] at h
      exact .inl (hold.trans h)
  | none =>
      rw [take_newer hold] at h
      exact .inr h

theorem take_isSome_iff {g : Generations κ ν} {k : κ} : (∃ v, (g.take k).1 = some v) ↔
    0 < g.held k := by
  cases hold : g.older k with
  | some u =>
      rw [take_older hold, held, hold]
      exact iff_of_true ⟨u, rfl⟩ (Nat.add_pos_left Nat.one_pos _)
  | none =>
      rw [take_newer hold]
      cases hnew : g.newer k <;> simp [held, hold, hnew]

end Generations

/-! ## The desk -/

/-- The requests that are not answered yet, and the notes of their owners. -/
structure Desk (κ ν : Type) where
  notes : Generations κ ν
  requests : List (Request κ ν)

namespace Desk

variable {κ ν : Type} [DecidableEq κ]

/-- A request is passed on, and its owner is noted. -/
def ask (d : Desk κ ν) (k : κ) (v : ν) : Desk κ ν := ⟨d.notes.put k v, d.requests ++ [⟨k, v, 0⟩]⟩

/-- The `i`-th request is answered, under its key. -/
def answer (d : Desk κ ν) (i : Nat) (k : κ) : Desk κ ν :=
  ⟨(d.notes.take k).2, d.requests.eraseIdx i⟩

/-- The store ages. -/
def age (d : Desk κ ν) : Desk κ ν := ⟨d.notes.age, d.requests.map Request.tick⟩

/-- How many requests there are under a key. -/
def asked (d : Desk κ ν) (k : κ) : Nat := d.requests.countP fun a => a.key = k

/-- An answer that came now would go to the owner of its request; only one that comes late
may go to nobody. -/
def Fair (d : Desk κ ν) : Prop := ∀ a ∈ d.requests,
  (a.ticks < 2 → (d.notes.take a.key).1 = some a.owner) ∧
    ∀ v, (d.notes.take a.key).1 = some v → v = a.owner

/-- The notes are those of the requests: they name no other owner, there is one for each request
that is not late, among the newer for a new one, and there are no more than requests. -/
structure Books (d : Desk κ ν) : Prop where
  own : ∀ a ∈ d.requests, ∀ v, d.notes.Has a.key v → v = a.owner
  kept : ∀ a ∈ d.requests, a.ticks < 2 → 0 < d.notes.held a.key
  fresh : ∀ a ∈ d.requests, a.ticks = 0 → (d.notes.newer a.key).isSome
  counted : ∀ k, d.notes.held k ≤ d.asked k

/-- All requests under a key have one owner. -/
def Alone (d : Desk κ ν) (k : κ) (v : ν) : Prop := ∀ a ∈ d.requests, a.key = k → a.owner = v

/-- There are two notes under a key, or no other request waits for one. -/
def Enough (d : Desk κ ν) (i : Nat) (k : κ) : Prop :=
  2 ≤ d.notes.held k ∨ ∀ a ∈ d.requests.eraseIdx i, a.key = k → 2 ≤ a.ticks

variable {d : Desk κ ν} {k : κ} {v : ν} {i : Nat} {a : Request κ ν}

theorem Books.fair (h : d.Books) : d.Fair := by
  intro a ha
  have hown : ∀ v, (d.notes.take a.key).1 = some v → v = a.owner :=
    fun v hv => h.own a ha v (Generations.has_of_take hv)
  refine ⟨fun hticks => ?_, hown⟩
  obtain ⟨v, hv⟩ := Generations.take_isSome_iff.mpr (h.kept a ha hticks)
  rw [hv, hown v hv]

/-! ## Asking -/

theorem asked_ask : (d.ask k v).asked k = d.asked k + 1 := by
  simp [asked, ask, List.countP_append]

theorem asked_ask_of_ne {k' : κ} (h : k' ≠ k) : (d.ask k v).asked k' = d.asked k' := by
  simp [asked, ask, List.countP_append, Ne.symm h]

/-- A note under a key is that of a request. -/
theorem Books.exists_request (h : d.Books) (hheld : 0 < d.notes.held k) :
    ∃ a ∈ d.requests, a.key = k := by
  have hcount : 0 < d.asked k := Nat.lt_of_lt_of_le hheld (h.counted k)
  obtain ⟨a, ha, hkey⟩ := List.countP_pos_iff.mp hcount
  exact ⟨a, ha, of_decide_eq_true hkey⟩

theorem Books.ask (h : d.Books) (halone : d.Alone k v) : (d.ask k v).Books := by
  have hown : ∀ u, (d.notes.put k v).Has k u → u = v := by
    intro u hu
    rcases hu.of_put_self with hold | hsame
    · obtain ⟨a, ha, rfl⟩ := h.exists_request (Generations.exists_has_iff.mp ⟨u, .inl hold⟩)
      rw [h.own a ha u (.inl hold), halone a ha rfl]
    · exact hsame
  have hcases : ∀ a ∈ (d.ask k v).requests, (a.key = k ∧ a.owner = v) ∨
      (a.key ≠ k ∧ a ∈ d.requests) := by
    intro a ha
    rcases List.mem_append.mp ha with ha | ha
    · by_cases hk : a.key = k
      · exact .inl ⟨hk, halone a ha hk⟩
      · exact .inr ⟨hk, ha⟩
    · rw [List.mem_singleton.mp ha]
      exact .inl ⟨rfl, rfl⟩
  refine ⟨fun a ha u hu => ?_, fun a ha hticks => ?_, fun a ha hticks => ?_, fun k' => ?_⟩
  · rcases hcases a ha with ⟨rfl, rfl⟩ | ⟨hk, ha⟩
    · exact hown u hu
    · obtain ⟨holder, hnewer⟩ := d.notes.put_of_ne v hk
      refine h.own a ha u ?_
      exact hu.imp (fun hu => holder ▸ hu) fun hu => hnewer ▸ hu
  · rcases hcases a ha with ⟨rfl, rfl⟩ | ⟨hk, ha⟩
    · exact Generations.held_put_pos _ _ _
    · exact (d.notes.held_put_of_ne v hk).symm ▸ h.kept a ha hticks
  · rcases hcases a ha with ⟨rfl, rfl⟩ | ⟨hk, ha⟩
    · simp [Desk.ask, Generations.put]
    · have hfresh := h.fresh a ha hticks
      rwa [← (d.notes.put_of_ne v hk).2] at hfresh
  · have hcount := h.counted k'
    by_cases hk : k' = k
    · subst hk
      have hheld := d.notes.held_put_self k' v
      rw [asked_ask]
      exact Nat.le_trans hheld (Nat.succ_le_succ hcount)
    · rw [asked_ask_of_ne hk]
      exact (d.notes.held_put_of_ne v hk).symm ▸ hcount

/-- To note a request leads to a fair state exactly when no other owner has one under its key. -/
theorem Books.ask_fair_iff (h : d.Books) : (d.ask k v).Fair ↔ d.Alone k v := by
  refine ⟨fun hfair a ha hk => ?_, fun halone => (h.ask halone).fair⟩
  have hmem : (⟨k, v, 0⟩ : Request κ ν) ∈ (d.ask k v).requests := by simp [Desk.ask]
  have hnew : ((d.ask k v).notes.take k).1 = some v := (hfair _ hmem).1 Nat.zero_lt_two
  have hold : a ∈ (d.ask k v).requests := List.mem_append_left _ ha
  exact ((hfair a hold).2 v (hk ▸ hnew)).symm

/-! ## Answering -/

theorem asked_answer (hi : d.requests[i]? = some a) (k' : κ) :
    (d.answer i k).asked k' + (if a.key = k' then 1 else 0) = d.asked k' := by
  obtain ⟨hlt, rfl⟩ := List.getElem?_eq_some_iff.mp hi
  have hperm := List.getElem_cons_eraseIdx_perm hlt
  have hcount := hperm.countP_eq fun b : Request κ ν => b.key = k'
  rw [List.countP_cons] at hcount
  simpa [asked, answer] using hcount

theorem mem_of_mem_answer {b : Request κ ν} (hb : b ∈ (d.answer i k).requests) : b ∈ d.requests :=
  List.mem_of_mem_eraseIdx hb

theorem Books.answer (h : d.Books) (hi : d.requests[i]? = some a) (henough : d.Enough i a.key) :
    (d.answer i a.key).Books := by
  have htwo : ∀ b ∈ (d.answer i a.key).requests, b.key = a.key → b.ticks < 2 →
      2 ≤ d.notes.held a.key := fun b hb hk hticks =>
    henough.resolve_right fun hlate => absurd (hlate b hb hk) (Nat.not_le_of_lt hticks)
  refine ⟨fun b hb v hv => ?_, fun b hb hticks => ?_, fun b hb hticks => ?_, fun k' => ?_⟩
  · exact h.own b (mem_of_mem_answer hb) v hv.of_take
  · by_cases hk : b.key = a.key
    · have hheld := htwo b hb hk hticks
      have hleft := d.notes.held_take_self a.key
      rw [Desk.answer, hk, hleft]
      omega
    · have hheld := h.kept b (mem_of_mem_answer hb) hticks
      rwa [Desk.answer, d.notes.held_take_of_ne hk]
  · have hfresh := h.fresh b (mem_of_mem_answer hb) hticks
    by_cases hk : b.key = a.key
    · have hheld := htwo b hb hk (by omega)
      rw [hk] at hfresh
      rwa [hk, Desk.answer, Generations.newer_take_of_two hheld]
    · rwa [← (d.notes.take_of_ne hk).2] at hfresh
  · have hcount := asked_answer (k := a.key) hi k'
    have hbefore := h.counted k'
    by_cases hk : k' = a.key
    · have hleft := d.notes.held_take_self a.key
      rw [if_pos hk.symm] at hcount
      rw [← hk] at hleft
      rw [← hk, Desk.answer, hleft]
      rw [← hk, Desk.answer] at hcount
      omega
    · rw [if_neg (Ne.symm hk), Nat.add_zero] at hcount
      rw [hcount, Desk.answer, d.notes.held_take_of_ne hk]
      exact hbefore

/-- To answer a request leads to a fair state exactly when a note is left for those that wait for
one. -/
theorem Books.answer_fair_iff (h : d.Books) (hi : d.requests[i]? = some a) :
    (d.answer i a.key).Fair ↔ d.Enough i a.key := by
  refine ⟨fun hfair => ?_, fun henough => (h.answer hi henough).fair⟩
  by_cases htwo : 2 ≤ d.notes.held a.key
  · exact .inl htwo
  · refine .inr fun b hb hk => Nat.le_of_not_lt fun hticks => ?_
    have hserved := (hfair b hb).1 hticks
    have hheld := Generations.take_isSome_iff.mp ⟨b.owner, hserved⟩
    rw [hk, Desk.answer, d.notes.held_take_self a.key] at hheld
    omega

/-! ## Aging -/

/-- When the store ages nobody loses an answer. -/
theorem Books.age (h : d.Books) : d.age.Books := by
  have hmem : ∀ b ∈ d.age.requests, ∃ a ∈ d.requests, a.tick = b := fun b hb => List.mem_map.mp hb
  refine ⟨fun b hb v hv => ?_, fun b hb hticks => ?_, fun b hb hticks => ?_, fun k => ?_⟩
  · obtain ⟨a, ha, rfl⟩ := hmem b hb
    exact h.own a ha v hv.of_age
  · obtain ⟨a, ha, rfl⟩ := hmem b hb
    have hnew : a.ticks = 0 := by
      have hnow : a.ticks + 1 < 2 := hticks
      omega
    obtain ⟨v, hv⟩ := Option.isSome_iff_exists.mp (h.fresh a ha hnew)
    exact Generations.exists_has_iff.mp ⟨v, .inl hv⟩
  · obtain ⟨a, ha, rfl⟩ := hmem b hb
    exact absurd hticks (Nat.succ_ne_zero a.ticks)
  · have hcount : d.age.asked k = d.asked k := by
      rw [asked, asked, Desk.age, List.countP_map]
      rfl
    rw [hcount]
    exact Nat.le_trans (d.notes.held_age_le k) (h.counted k)

end Desk

end LproxyCv.Foundation
