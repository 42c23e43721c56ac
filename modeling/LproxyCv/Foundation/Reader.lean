import LproxyCv.Foundation.Bytes
import LproxyCv.Foundation.Outcome
import LproxyCv.Foundation.Run

set_option autoImplicit false

/-!
# Foundation: readers of a buffer and the layouts they follow

A reader moves a cursor over a buffer, and may return, fail, panic or hang.  A
`Layout` says, with no reader in sight, what lies where in the buffer: where a
part that starts at an offset ends and what it says, and whether it is cut short.

`Follows` connects the two, for a family of readers indexed by how many iterations
they may take: the reader panics exactly where the part is cut short, and returns
exactly where it ends.  The rules for returning, sequencing and repeating build
this up for a whole message.
-/

namespace LproxyCv.Foundation

/-- A buffer and a place in it. -/
structure Cursor where
  buf : Bytes
  pos : Nat
  deriving DecidableEq, Repr

/-- A reader. -/
def Reader (α : Type) : Type := Cursor → Outcome (α × Cursor)

namespace Reader

variable {α β : Type}

instance : Monad Reader where
  pure a := fun c => .ok (a, c)
  bind x f := fun c => (x c).bind fun r => f r.1 r.2

theorem pure_apply (a : α) (c : Cursor) : (pure a : Reader α) c = .ok (a, c) := rfl

theorem bind_apply (x : Reader α) (f : α → Reader β) (c : Cursor) :
    (x >>= f) c = (x c).bind fun r => f r.1 r.2 := rfl

/-- A reader that returns has returned from its first part, and then from the rest. -/
theorem bind_eq_ok_iff {x : Reader α} {f : α → Reader β} {c : Cursor} {r : β × Cursor} :
    (x >>= f) c = .ok r ↔ ∃ a m, x c = .ok (a, m) ∧ f a m = .ok r := by
  rw [bind_apply, Outcome.bind_eq_ok_iff, Prod.exists]

/-- Read `n` times. -/
def times (x : Reader α) : Nat → Reader (List α)
  | 0 => pure []
  | n + 1 => do
      let a ← x
      let as ← times x n
      pure (a :: as)

end Reader

/-- What a part of a buffer says and where it ends, and whether it is cut short. -/
structure Layout (β : Type) where
  cut : Nat → Prop
  ends : Nat → β → Nat → Prop

namespace Layout

variable {β γ : Type}

/-- The part that is nothing. -/
def nothing (v : β) : Layout β where
  cut _ := False
  ends p w q := w = v ∧ q = p

/-- A part, and another behind it that depends on what the first says. -/
def andThen (l : Layout β) (k : β → Layout γ) : Layout γ where
  cut p := l.cut p ∨ ∃ v q, l.ends p v q ∧ (k v).cut q
  ends p w r := ∃ v q, l.ends p v q ∧ (k v).ends q w r

/-- Say something else of what a part says. -/
def value (l : Layout β) (g : β → γ) : Layout γ where
  cut := l.cut
  ends p w q := ∃ v, l.ends p v q ∧ g v = w

/-- A part, of which only the end matters. -/
def forget (l : Layout β) : Layout Unit := l.value fun _ => ()

/-- A part `n` times. -/
def times (l : Layout Unit) : Nat → Layout Unit
  | 0 => nothing ()
  | n + 1 => l.andThen fun _ => times l n

/-- Two layouts that agree everywhere. -/
structure Same (l l' : Layout β) : Prop where
  cut : ∀ p, l.cut p ↔ l'.cut p
  ends : ∀ p v q, l.ends p v q ↔ l'.ends p v q

/-- No part is ever cut short. -/
def Whole (l : Layout β) : Prop := ∀ p, ¬ l.cut p

theorem whole_nothing (v : β) : (nothing v).Whole := fun _ h => h

theorem Whole.andThen {l : Layout β} {k : β → Layout γ} (hl : l.Whole) (hk : ∀ v, (k v).Whole) :
    (l.andThen k).Whole := by
  rintro p (h | ⟨v, q, _, h⟩)
  · exact hl p h
  · exact hk v q h

theorem Whole.value {l : Layout β} (hl : l.Whole) (g : β → γ) : (l.value g).Whole := hl

theorem Whole.times {l : Layout Unit} (hl : l.Whole) : ∀ n, (l.times n).Whole
  | 0 => whole_nothing ()
  | n + 1 => hl.andThen fun _ => times hl n

/-- No part ends before it starts. -/
def Forward (l : Layout β) : Prop := ∀ p v q, l.ends p v q → p ≤ q

theorem Forward.andThen {l : Layout β} {k : β → Layout γ} (hl : l.Forward)
    (hk : ∀ v, (k v).Forward) : (l.andThen k).Forward := by
  rintro p w r ⟨v, q, hfirst, hsecond⟩
  exact (hl p v q hfirst).trans (hk v q w r hsecond)

theorem Forward.value {l : Layout β} (hl : l.Forward) (g : β → γ) : (l.value g).Forward := by
  rintro p w q ⟨v, hends, _⟩
  exact hl p v q hends

/-- Every part starts before `limit`, and takes something. -/
def Advances (l : Layout β) (limit : Nat) : Prop :=
  ∀ p v q, l.ends p v q → p < limit ∧ p < q

theorem Advances.andThen {l : Layout β} {k : β → Layout γ} {limit : Nat} (hl : l.Advances limit)
    (hk : ∀ v, (k v).Forward) : (l.andThen k).Advances limit := by
  rintro p w r ⟨v, q, hfirst, hsecond⟩
  obtain ⟨hlt, hadvance⟩ := hl p v q hfirst
  exact ⟨hlt, Nat.lt_of_lt_of_le hadvance (hk v q w r hsecond)⟩

/-- Some parts, and some more behind them. -/
theorem times_add_ends {l : Layout Unit} {m n p r : Nat} {v : Unit} :
    (l.times (m + n)).ends p v r ↔ ∃ q, (l.times m).ends p () q ∧ (l.times n).ends q v r := by
  induction m generalizing p with
  | zero =>
      rw [Nat.zero_add]
      constructor
      · exact fun h => ⟨p, ⟨rfl, rfl⟩, h⟩
      · rintro ⟨q, ⟨_, rfl⟩, h⟩
        exact h
  | succ m ih =>
      rw [Nat.add_right_comm]
      constructor
      · rintro ⟨_, s, hfirst, hrest⟩
        obtain ⟨q, hmore, hlast⟩ := ih.mp hrest
        exact ⟨q, ⟨(), s, hfirst, hmore⟩, hlast⟩
      · rintro ⟨q, ⟨_, s, hfirst, hmore⟩, hlast⟩
        exact ⟨(), s, hfirst, ih.mpr ⟨q, hmore, hlast⟩⟩

/-- There is only room for so many parts that take something. -/
theorem Advances.times {l : Layout Unit} {limit : Nat} (h : l.Advances limit) {n p q : Nat}
    {v : Unit} (hends : (l.times n).ends p v q) : n = 0 ∨ p + n ≤ limit := by
  induction n generalizing p with
  | zero => exact .inl rfl
  | succ n ih =>
      obtain ⟨_, m, hfirst, hrest⟩ := hends
      obtain ⟨hlt, hadvance⟩ := h _ _ _ hfirst
      have hmore := ih hrest
      right
      omega

end Layout

/-! ## Iterations -/

/-- More iterations change nothing but a hang. -/
def Grows {α : Type} (b : Bytes) (x : Nat → Reader α) : Prop :=
  ∀ fuel more p, x fuel ⟨b, p⟩ ≠ .hang → x (fuel + more) ⟨b, p⟩ = x fuel ⟨b, p⟩

/-- The readers leave the buffer as it is. -/
def Keeps {α : Type} (b : Bytes) (x : Nat → Reader α) : Prop :=
  ∀ fuel p a c, x fuel ⟨b, p⟩ = .ok (a, c) → c = ⟨b, c.pos⟩

theorem Grows.bind {α γ : Type} {b : Bytes} {x : Nat → Reader α} {f : Nat → α → Reader γ}
    (hx : Grows b x) (hkeeps : Keeps b x) (hf : ∀ a, Grows b fun fuel => f fuel a) :
    Grows b fun fuel => x fuel >>= f fuel := by
  intro fuel more p hne
  dsimp only at hne ⊢
  rw [Reader.bind_apply] at hne ⊢
  rw [Reader.bind_apply]
  cases hr : x fuel ⟨b, p⟩ with
  | ok r =>
      rw [hr] at hne
      rw [hx fuel more p (by rw [hr]; simp), hr]
      have hcursor := hkeeps fuel p r.1 r.2 hr
      rw [Outcome.bind] at hne
      rw [Outcome.bind, Outcome.bind]
      rw [hcursor] at hne ⊢
      exact hf r.1 fuel more _ hne
  | err e => rw [hx fuel more p (by rw [hr]; simp), hr]; rfl
  | panic => rw [hx fuel more p (by rw [hr]; simp), hr]; rfl
  | hang => rw [hr] at hne; exact absurd rfl hne

/-! ## Enough iterations -/

/-- With enough iterations the readers return a value. -/
def Gives {α : Type} (x : Nat → Reader α) (c : Cursor) (a : α) (c' : Cursor) : Prop :=
  ∃ enough, ∀ fuel, enough ≤ fuel → x fuel c = .ok (a, c')

namespace Gives

variable {α β : Type} {c c' c'' : Cursor}

theorem of_steady {x : Reader α} {a : α} (h : x c = .ok (a, c')) : Gives (fun _ => x) c a c' :=
  ⟨0, fun _ _ => h⟩

theorem bind {x : Nat → Reader α} {f : Nat → α → Reader β} {a : α} {b : β}
    (hx : Gives x c a c') (hf : Gives (fun fuel => f fuel a) c' b c'') :
    Gives (fun fuel => x fuel >>= f fuel) c b c'' := by
  obtain ⟨enough, hx⟩ := hx
  obtain ⟨enough', hf⟩ := hf
  refine ⟨enough + enough', ?_⟩
  intro fuel hfuel
  have hfirst := hx fuel (by omega)
  have hsecond := hf fuel (by omega)
  change (x fuel c).bind (fun r => f fuel r.1 r.2) = .ok (b, c'')
  rw [hfirst]
  exact hsecond

theorem map {x : Nat → Reader α} {a : α} (hx : Gives x c a c') (g : α → β) :
    Gives (fun fuel => x fuel >>= fun a => Pure.pure (g a)) c (g a) c' :=
  hx.bind (of_steady rfl)

/-- Values that are read one after the other. -/
theorem times {x : Nat → Reader α} {b : Bytes} {p q : Nat} {as : List α}
    (hrun : Run (fun p a q => Gives x ⟨b, p⟩ a ⟨b, q⟩) p as q) :
    Gives (fun fuel => (x fuel).times as.length) ⟨b, p⟩ as ⟨b, q⟩ := by
  induction hrun with
  | nil p => exact of_steady rfl
  | cons hfirst _ ih => exact hfirst.bind (ih.map _)

end Gives

/-! ## Following a layout -/

/-- The readers `x`, one for each number of iterations, follow a layout of the
buffer `b`.  `π` is what the layout says of the value a reader returns. -/
structure Follows {α β : Type} (b : Bytes) (x : Nat → Reader α) (l : Layout β) (π : α → β) :
    Prop where
  /-- more iterations change nothing but a hang -/
  mono : ∀ fuel more p, x fuel ⟨b, p⟩ ≠ .hang → x (fuel + more) ⟨b, p⟩ = x fuel ⟨b, p⟩
  panic : ∀ fuel p, x fuel ⟨b, p⟩ = .panic → l.cut p
  cut : ∀ p, l.cut p → ∃ fuel, x fuel ⟨b, p⟩ = .panic
  ok : ∀ fuel p a c, x fuel ⟨b, p⟩ = .ok (a, c) → c.buf = b ∧ l.ends p (π a) c.pos
  ends : ∀ p v q, l.ends p v q → ∃ fuel a, x fuel ⟨b, p⟩ = .ok (a, ⟨b, q⟩) ∧ π a = v

namespace Follows

variable {α β γ δ : Type} {b : Bytes}

/-- A reader without a loop takes any number of iterations. -/
theorem of_steady {x : Reader α} {l : Layout β} {π : α → β}
    (panic : ∀ p, x ⟨b, p⟩ = .panic ↔ l.cut p)
    (ok : ∀ p a c, x ⟨b, p⟩ = .ok (a, c) → c.buf = b ∧ l.ends p (π a) c.pos)
    (ends : ∀ p v q, l.ends p v q → ∃ a, x ⟨b, p⟩ = .ok (a, ⟨b, q⟩) ∧ π a = v) :
    Follows b (fun _ => x) l π where
  mono _ _ _ _ := rfl
  panic _ p := (panic p).mp
  cut p h := ⟨0, (panic p).mpr h⟩
  ok _ := ok
  ends p v q h := ⟨0, ends p v q h⟩

theorem pure (a : α) (π : α → β) : Follows b (fun _ => Pure.pure a) (.nothing (π a)) π :=
  of_steady (fun p => by simp [Reader.pure_apply, Layout.nothing])
    (fun p a' c h => by
      rw [Reader.pure_apply] at h
      cases h
      exact ⟨rfl, rfl, rfl⟩)
    (fun p v q h => by
      obtain ⟨rfl, rfl⟩ := h
      exact ⟨a, rfl, rfl⟩)

/-- Enough iterations for both. -/
theorem ok_more {x : Nat → Reader α} {l : Layout β} {π : α → β} (h : Follows b x l π)
    {fuel : Nat} {p : Nat} {r : α × Cursor} (hr : x fuel ⟨b, p⟩ = .ok r) (more : Nat) :
    x (fuel + more) ⟨b, p⟩ = .ok r := by
  rw [h.mono fuel more p (by rw [hr]; simp), hr]

theorem panic_more {x : Nat → Reader α} {l : Layout β} {π : α → β} (h : Follows b x l π)
    {fuel : Nat} {p : Nat} (hr : x fuel ⟨b, p⟩ = .panic) (more : Nat) :
    x (fuel + more) ⟨b, p⟩ = .panic := by
  rw [h.mono fuel more p (by rw [hr]; simp), hr]

theorem keeps {x : Nat → Reader α} {l : Layout β} {π : α → β} (h : Follows b x l π) :
    Keeps b x := by
  intro fuel p a c hr
  rw [← (h.ok fuel p a c hr).1]

/-- What is read first, and from where the rest is read. -/
theorem bind_ok {x : Nat → Reader α} {l : Layout β} {π : α → β} (h : Follows b x l π)
    (fuel : Nat) {f : α → Reader γ} {p : Nat} {r : γ × Cursor}
    (hr : (x fuel >>= f) ⟨b, p⟩ = .ok r) :
    ∃ a q, x fuel ⟨b, p⟩ = .ok (a, ⟨b, q⟩) ∧ l.ends p (π a) q ∧ f a ⟨b, q⟩ = .ok r := by
  obtain ⟨a, c, hfirst, hrest⟩ := Reader.bind_eq_ok_iff.mp hr
  have hc := h.keeps fuel p a c hfirst
  rw [hc] at hfirst hrest
  exact ⟨a, c.pos, hfirst, (h.ok fuel p a _ hfirst).2, hrest⟩

/-- A part that is followed ends in one place, and says one thing. -/
theorem unique {x : Nat → Reader α} {l : Layout β} {π : α → β} (h : Follows b x l π)
    {p q q' : Nat} {v v' : β} (hends : l.ends p v q) (hends' : l.ends p v' q') :
    v = v' ∧ q = q' := by
  obtain ⟨fuel, a, hr, rfl⟩ := h.ends p v q hends
  obtain ⟨fuel', a', hr', rfl⟩ := h.ends p v' q' hends'
  have hmore := h.ok_more hr fuel'
  rw [Nat.add_comm, h.ok_more hr' fuel] at hmore
  cases hmore
  exact ⟨rfl, rfl⟩

/-- A reader behind another follows a part behind another. -/
theorem bind {x : Nat → Reader α} {f : Nat → α → Reader γ} {l : Layout β} {k : β → Layout δ}
    {π : α → β} {ρ : γ → δ} (hx : Follows b x l π)
    (hf : ∀ a, Follows b (fun fuel => f fuel a) (k (π a)) ρ) :
    Follows b (fun fuel => x fuel >>= f fuel) (l.andThen k) ρ where
  mono := Grows.bind hx.mono hx.keeps fun a => (hf a).mono
  panic := by
    intro fuel p h
    rw [Reader.bind_apply, Outcome.bind_eq_panic_iff] at h
    rcases h with h | ⟨r, hr, h⟩
    · exact .inl (hx.panic fuel p h)
    · obtain ⟨hbuf, hends⟩ := hx.ok fuel p r.1 r.2 hr
      have hcursor : r.2 = ⟨b, r.2.pos⟩ := by rw [← hbuf]
      rw [hcursor] at h
      exact .inr ⟨π r.1, r.2.pos, hends, (hf r.1).panic fuel _ h⟩
  cut := by
    rintro p (h | ⟨v, q, hends, h⟩)
    · obtain ⟨fuel, hr⟩ := hx.cut p h
      refine ⟨fuel, ?_⟩
      rw [Reader.bind_apply, hr]
      rfl
    · obtain ⟨fuel, a, hr, rfl⟩ := hx.ends p v q hends
      obtain ⟨fuel', hr'⟩ := (hf a).cut q h
      refine ⟨fuel + fuel', ?_⟩
      rw [Reader.bind_apply, hx.ok_more hr fuel', Outcome.bind]
      dsimp only
      rw [Nat.add_comm]
      exact (hf a).panic_more hr' fuel
  ok := by
    intro fuel p c cur h
    obtain ⟨a, m, hr, h⟩ := Reader.bind_eq_ok_iff.mp h
    obtain ⟨hbuf, hends⟩ := hx.ok fuel p a m hr
    have hcursor : m = ⟨b, m.pos⟩ := by rw [← hbuf]
    rw [hcursor] at h
    obtain ⟨hbuf', hends'⟩ := (hf a).ok fuel _ c cur h
    exact ⟨hbuf', π a, m.pos, hends, hends'⟩
  ends := by
    rintro p w r ⟨v, q, hends, hends'⟩
    obtain ⟨fuel, a, hr, rfl⟩ := hx.ends p v q hends
    obtain ⟨fuel', c, hr', hw⟩ := (hf a).ends q w r hends'
    refine ⟨fuel + fuel', c, ?_, hw⟩
    rw [Reader.bind_apply, hx.ok_more hr fuel', Outcome.bind]
    dsimp only
    rw [Nat.add_comm]
    exact (hf a).ok_more hr' fuel

/-- The same, when what comes second does not depend on what the first says. -/
theorem seq {x : Nat → Reader α} {f : Nat → α → Reader γ} {l : Layout β} {l' : Layout δ}
    {π : α → β} {ρ : γ → δ} (hx : Follows b x l π)
    (hf : ∀ a, Follows b (fun fuel => f fuel a) l' ρ) :
    Follows b (fun fuel => x fuel >>= f fuel) (l.andThen fun _ => l') ρ :=
  hx.bind (k := fun _ => l') hf

/-- A layout that agrees is followed as well. -/
theorem congr {x : Nat → Reader α} {l l' : Layout β} {π : α → β} (h : Follows b x l π)
    (hsame : l.Same l') : Follows b x l' π where
  mono := h.mono
  panic fuel p hr := (hsame.cut p).mp (h.panic fuel p hr)
  cut p hp := h.cut p ((hsame.cut p).mpr hp)
  ok fuel p a c hr := by
    obtain ⟨hbuf, hends⟩ := h.ok fuel p a c hr
    exact ⟨hbuf, (hsame.ends _ _ _).mp hends⟩
  ends p v q hp := h.ends p v q ((hsame.ends p v q).mpr hp)

/-- Say something else of the value. -/
theorem value {x : Nat → Reader α} {l : Layout β} {π : α → β} (h : Follows b x l π) (g : β → γ) :
    Follows b x (l.value g) fun a => g (π a) where
  mono := h.mono
  panic := h.panic
  cut := h.cut
  ok fuel p a c hr := by
    obtain ⟨hbuf, hends⟩ := h.ok fuel p a c hr
    exact ⟨hbuf, π a, hends, rfl⟩
  ends p w q hp := by
    obtain ⟨v, hv, rfl⟩ := hp
    obtain ⟨fuel, a, hr, rfl⟩ := h.ends p v q hv
    exact ⟨fuel, a, hr, rfl⟩

/-- Only where the part ends matters. -/
theorem forget {x : Nat → Reader α} {l : Layout β} {π : α → β} (h : Follows b x l π) :
    Follows b x l.forget fun _ => () := h.value fun _ => ()

/-- What is made of the value moves no cursor. -/
theorem map {x : Nat → Reader α} {l : Layout β} {π : α → β} (h : Follows b x l π) {g : α → γ}
    {r : γ → β} (hr : ∀ a, r (g a) = π a) :
    Follows b (fun fuel => x fuel >>= fun a => Pure.pure (g a)) l r := by
  have hbind := h.bind (f := fun _ a => Pure.pure (g a)) (k := fun v => Layout.nothing v)
    fun a => hr a ▸ pure (g a) r
  refine hbind.congr ⟨?_, ?_⟩
  · intro p
    simp [Layout.andThen, Layout.nothing]
  · intro p v q
    simp only [Layout.andThen, Layout.nothing]
    constructor
    · rintro ⟨_, _, hends, rfl, rfl⟩
      exact hends
    · intro hends
      exact ⟨v, q, hends, rfl, rfl⟩

/-- What is read `n` times is read one after the other. -/
theorem run_of_times {x : Nat → Reader α} {l : Layout β} {π : α → β} (h : Follows b x l π)
    {fuel n p : Nat} {as : List α} {c : Cursor} (hr : (x fuel).times n ⟨b, p⟩ = .ok (as, c)) :
    as.length = n ∧ c.buf = b ∧
      Run (fun p a q => x fuel ⟨b, p⟩ = .ok (a, ⟨b, q⟩)) p as c.pos := by
  induction n generalizing p as with
  | zero =>
      cases hr
      exact ⟨rfl, rfl, .nil p⟩
  | succ n ih =>
      rw [Reader.times] at hr
      obtain ⟨a, m, hfirst, _, hr⟩ := h.bind_ok fuel hr
      obtain ⟨as', c', hrest, hr⟩ := Reader.bind_eq_ok_iff.mp hr
      cases hr
      obtain ⟨hlength, hbuf, hrun⟩ := ih hrest
      exact ⟨congrArg (· + 1) hlength, hbuf, .cons hfirst hrun⟩

/-- A reader `n` times follows a part `n` times. -/
theorem times {x : Nat → Reader α} {l : Layout Unit} (h : Follows b x l fun _ => ()) :
    ∀ n, Follows b (fun fuel => (x fuel).times n) (l.times n) fun _ => ()
  | 0 => pure [] fun _ => ()
  | n + 1 => h.bind fun a => (times h n).map (g := fun as => a :: as) fun _ => rfl

end Follows

end LproxyCv.Foundation
