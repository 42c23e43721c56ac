import LproxyCv.Foundation.Reader

set_option autoImplicit false

/-!
# Foundation: what is written is read again

A writer moves a cursor over a buffer as a reader does, and sets the bytes that it passes.
`Inverts` connects the two: wherever the writer returns, the reader gets the value back
from the bytes that the writer has passed, whatever stands before and behind them.
`Takes` says that a writer returns where there is room for what it writes, and `Returns` and
`Fails` that in a buffer that is large enough it does not panic, or always fails.  The rules
for sequencing and repeating build these up for a whole message.
-/

namespace LproxyCv.Foundation

/-- Write the values of a list, one after the other. -/
def Reader.each {α β : Type} (w : α → Reader β) : List α → Reader Unit
  | [] => pure ()
  | a :: as => do
      let _ ← w a
      each w as

theorem Reader.bind_assoc {α β γ : Type} (x : Reader α) (f : α → Reader β) (g : β → Reader γ) :
    x >>= f >>= g = x >>= fun a => f a >>= g := by
  funext c
  simp only [Reader.bind_apply]
  cases x c <;> rfl

theorem Reader.bind_pure {α : Type} (x : Reader α) : x >>= Pure.pure = x := by
  funext c
  rw [Reader.bind_apply]
  cases x c <;> rfl

/-- The two buffers have the same bytes from `p` on, before `q`. -/
def Agree (p q : Nat) (b b' : Bytes) : Prop := ∀ i, p ≤ i → i < q → b'[i]? = b[i]?

/-- From the first cursor to the second nothing has changed but bytes that were passed. -/
structure Written (c c' : Cursor) : Prop where
  le : c.pos ≤ c'.pos
  length : c'.buf.length = c.buf.length
  before : Agree 0 c.pos c.buf c'.buf

/-- Wherever the writer returns, the reader reads the value from what was written. -/
structure Inverts {α β : Type} (w : Reader β) (x : Reader α) (v : α) : Prop where
  written : ∀ {c c' : Cursor} {r : β}, w c = .ok (r, c') → Written c c'
  read : ∀ {c c' : Cursor} {r : β}, w c = .ok (r, c') → ∀ {b : Bytes},
    Agree c.pos c'.pos c'.buf b → x ⟨b, c.pos⟩ = .ok (v, ⟨b, c'.pos⟩)

theorem Agree.mono {p p' q q' : Nat} {b c : Bytes} (h : Agree p q b c) (hp : p ≤ p')
    (hq : q' ≤ q) : Agree p' q' b c :=
  fun i hi hi' => h i (hp.trans hi) (Nat.lt_of_lt_of_le hi' hq)

theorem Agree.refl (p q : Nat) (b : Bytes) : Agree p q b b := fun _ _ _ => rfl

theorem Agree.trans {p q : Nat} {b c d : Bytes} (h : Agree p q b c) (h' : Agree p q c d) :
    Agree p q b d :=
  fun i hi hi' => (h' i hi hi').trans (h i hi hi')

theorem Written.refl (c : Cursor) : Written c c := ⟨le_rfl, rfl, .refl _ _ _⟩

theorem Written.trans {c c' c'' : Cursor} (h : Written c c') (h' : Written c' c'') :
    Written c c'' :=
  ⟨h.le.trans h'.le, h'.length.trans h.length, h.before.trans (h'.before.mono le_rfl h.le)⟩

namespace Inverts

variable {α β γ δ : Type}

theorem pure (r : β) (v : α) : Inverts (Pure.pure r) (Pure.pure v) v := by
  constructor
  · intro c c' r' h
    cases h
    exact .refl c
  · intro c c' r' h b _
    cases h
    rfl

/-- One value behind another. -/
theorem bind {w : Reader β} {g : β → Reader γ} {x : Reader α} {f : α → Reader δ} {v : α} {u : δ}
    (hw : Inverts w x v) (hg : ∀ r, Inverts (g r) (f v) u) : Inverts (w >>= g) (x >>= f) u := by
  constructor
  · intro c c' r h
    obtain ⟨r', m, hfirst, hsecond⟩ := Reader.bind_eq_ok_iff.mp h
    exact (hw.written hfirst).trans ((hg r').written hsecond)
  · intro c c' r h b hagree
    obtain ⟨r', m, hfirst, hsecond⟩ := Reader.bind_eq_ok_iff.mp h
    have hw' := (hg r').written hsecond
    -- what the second writer leaves alone is what the first one wrote
    have hbefore : Agree c.pos m.pos m.buf b :=
      (hw'.before.mono (Nat.zero_le _) le_rfl).trans (hagree.mono le_rfl hw'.le)
    rw [Reader.bind_apply, hw.read hfirst hbefore, Outcome.bind]
    exact (hg r').read hsecond (hagree.mono (hw.written hfirst).le le_rfl)

/-- A writer behind that writes nothing. -/
theorem behind {w : Reader β} {g : β → Reader γ} {x : Reader α} {v : α} (hw : Inverts w x v)
    (hg : ∀ r, Inverts (g r) (Pure.pure v) v) : Inverts (w >>= g) x v := by
  have hboth := hw.bind hg
  rwa [Reader.bind_pure] at hboth

/-- What the writer returns does not matter. -/
theorem ret {w : Reader β} {x : Reader α} {v : α} (h : Inverts w x v) (g : β → γ) :
    Inverts (w >>= fun r => Pure.pure (g r)) x v :=
  h.behind fun r => .pure (g r) v

/-- The reader makes something of the value. -/
theorem map {w : Reader β} {x : Reader α} {v : α} (h : Inverts w x v) {g : α → γ} {u : γ}
    (hu : g v = u) : Inverts w (x >>= fun a => Pure.pure (g a)) u := by
  refine ⟨h.written, ?_⟩
  intro c c' r hr b hagree
  rw [Reader.bind_apply, h.read hr hagree, Outcome.bind]
  exact hu ▸ rfl

/-- Values one after the other.  `g` says what is read for each of them, and of which nothing
is written. -/
theorem each_filterMap {w : β → Reader γ} {x : Reader α} {g : β → Option α} {l : List β}
    (hsome : ∀ a ∈ l, ∀ v, g a = some v → Inverts (w a) x v)
    (hnone : ∀ a ∈ l, g a = none → Inverts (w a) (Pure.pure ()) ()) :
    Inverts (Reader.each w l) (x.times (l.filterMap g).length) (l.filterMap g) := by
  induction l with
  | nil => exact pure () []
  | cons a l ih =>
      have hrest := ih (fun a' ha' => hsome a' (List.mem_cons_of_mem a ha'))
        fun a' ha' => hnone a' (List.mem_cons_of_mem a ha')
      cases hg : g a with
      | some v =>
          rw [List.filterMap_cons_some hg]
          exact (hsome a List.mem_cons_self v hg).bind fun r => hrest.map rfl
      | none =>
          rw [List.filterMap_cons_none hg]
          exact (hnone a List.mem_cons_self hg).bind (f := fun _ => x.times _) fun r => hrest

/-- Values one after the other, each of which is written. -/
theorem each {w : α → Reader β} {x : Reader α} {l : List α} (h : ∀ a ∈ l, Inverts (w a) x a) :
    Inverts (Reader.each w l) (x.times l.length) l := by
  have hsome : ∀ a ∈ l, ∀ v, some a = some v → Inverts (w a) x v := by
    rintro a ha v ⟨⟩
    exact h a ha
  have hnone : ∀ a ∈ l, some a = none → Inverts (w a) (Pure.pure ()) () := by
    rintro a _ ⟨⟩
  have hall := each_filterMap (g := some) hsome hnone
  rwa [List.filterMap_some] at hall

/-- Two values that are read as one, and one behind them. -/
theorem pair {ε : Type} {w : Reader β} {w' : Reader γ} {g : Reader ε} {x : Reader α}
    {f : α → Reader δ} {v : α} {u : δ} (hpair : Inverts (w >>= fun _ => w') x v)
    (hg : Inverts g (f v) u) : Inverts (w >>= fun _ => w' >>= fun _ => g) (x >>= f) u := by
  have hboth := hpair.bind fun _ => hg
  rw [Reader.bind_assoc] at hboth
  exact hboth

end Inverts

theorem Agree.take (p q : Nat) (b : Bytes) : Agree p q b (b.take q) :=
  fun _ _ hi => List.getElem?_take_of_lt hi

/-! ## Room -/

section Room

variable {α β γ : Type} {limit : Nat}

/-- Where there is room for them before `limit`, the writer takes `n` bytes. -/
def Takes (limit : Nat) (w : Reader β) (n : Nat) : Prop :=
  ∀ c : Cursor, c.pos + n ≤ limit → limit ≤ c.buf.length →
    ∃ r b, w c = .ok (r, ⟨b, c.pos + n⟩) ∧ b.length = c.buf.length

/-- In a buffer of `limit` bytes the writer returns a value or an error. -/
def Returns (limit : Nat) (w : Reader β) : Prop :=
  ∀ c : Cursor, limit ≤ c.buf.length →
    (∃ e, w c = .err e) ∨ ∃ r c', w c = .ok (r, c') ∧ limit ≤ c'.buf.length

/-- In a buffer of `limit` bytes the writer returns an error. -/
def Fails (limit : Nat) (w : Reader β) : Prop :=
  ∀ c : Cursor, limit ≤ c.buf.length → ∃ e, w c = .err e

theorem Takes.pure (r : β) : Takes limit (Pure.pure r) 0 :=
  fun c _ _ => ⟨r, c.buf, rfl, rfl⟩

theorem Takes.bind {w : Reader β} {g : β → Reader γ} {m n : Nat} (hw : Takes limit w m)
    (hg : ∀ r, Takes limit (g r) n) : Takes limit (w >>= g) (m + n) := by
  intro c hroom hlimit
  obtain ⟨r, b, hfirst, hb⟩ := hw c (by omega) hlimit
  obtain ⟨r', b', hsecond, hb'⟩ := hg r ⟨b, c.pos + m⟩ (by dsimp only; omega)
    (by dsimp only; omega)
  refine ⟨r', b', ?_, hb'.trans hb⟩
  rw [Reader.bind_apply, hfirst, Outcome.bind, hsecond, Nat.add_assoc]

theorem Takes.each {w : α → Reader β} {size : α → Nat} {l : List α}
    (h : ∀ a ∈ l, Takes limit (w a) (size a)) :
    Takes limit (Reader.each w l) ((l.map size).sum) := by
  induction l with
  | nil => exact Takes.pure ()
  | cons a l ih =>
      rw [List.map_cons, List.sum_cons]
      exact (h a List.mem_cons_self).bind fun _ =>
        ih fun a' ha' => h a' (List.mem_cons_of_mem a ha')

theorem Returns.bind {w : Reader β} {g : β → Reader γ} (hw : Returns limit w)
    (hg : ∀ r, Returns limit (g r)) : Returns limit (w >>= g) := by
  intro c hlimit
  rw [Reader.bind_apply]
  rcases hw c hlimit with ⟨e, hfirst⟩ | ⟨r, c', hfirst, hlimit'⟩
  · exact .inl ⟨e, by rw [hfirst]; rfl⟩
  · rw [hfirst]
    exact hg r c' hlimit'

theorem Returns.each {w : α → Reader β} {l : List α} (h : ∀ a ∈ l, Returns limit (w a)) :
    Returns limit (Reader.each w l) := by
  induction l with
  | nil => exact fun c hlimit => .inr ⟨(), c, rfl, hlimit⟩
  | cons a l ih =>
      exact (h a List.mem_cons_self).bind fun _ =>
        ih fun a' ha' => h a' (List.mem_cons_of_mem a ha')

theorem Fails.returns {w : Reader β} (h : Fails limit w) : Returns limit w :=
  fun c hlimit => .inl (h c hlimit)

theorem Fails.bind {w : Reader β} (h : Fails limit w) (g : β → Reader γ) :
    Fails limit (w >>= g) := by
  intro c hlimit
  obtain ⟨e, hfirst⟩ := h c hlimit
  exact ⟨e, by rw [Reader.bind_apply, hfirst]; rfl⟩

/-- What comes behind fails, if it comes to it. -/
theorem Returns.fails {w : Reader β} {g : β → Reader γ} (hw : Returns limit w)
    (hg : ∀ r, Fails limit (g r)) : Fails limit (w >>= g) := by
  intro c hlimit
  rw [Reader.bind_apply]
  rcases hw c hlimit with ⟨e, hfirst⟩ | ⟨r, c', hfirst, hlimit'⟩
  · exact ⟨e, by rw [hfirst]; rfl⟩
  · rw [hfirst]
    exact hg r c' hlimit'

/-- One value that cannot be written. -/
theorem Fails.each {w : α → Reader β} {l : List α} {a : α} (ha : a ∈ l)
    (hreturns : ∀ a ∈ l, Returns limit (w a)) (hfails : Fails limit (w a)) :
    Fails limit (Reader.each w l) := by
  induction l with
  | nil => cases ha
  | cons a' l ih =>
      rcases List.mem_cons.mp ha with rfl | hrest
      · exact hfails.bind _
      · exact (hreturns a' List.mem_cons_self).fails fun _ =>
          ih hrest fun a'' ha'' => hreturns a'' (List.mem_cons_of_mem a' ha'')

end Room

end LproxyCv.Foundation
