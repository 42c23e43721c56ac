import LproxyCv.Foundation.Tables

set_option autoImplicit false

/-!
# Foundation: the way through a table

The rules of a chain are tried one after the other.  A rule has the next one tried, sends to
another chain and goes on behind that, ends its chain, or ends everything (`Traverses`).

What becomes of a thing does not depend on chains that nothing it meets sends to
(`Traverses.iff_of_agree`); and where the rules of a chain all do the same, it does not depend on
how many of them there are (`traverses_stopped`).
-/

namespace LproxyCv.Foundation

/-- What a rule has happen next. -/
inductive Move (κ σ ω : Type) where
  | on (s : σ)
  | jump (c : κ)
  | ret
  | stop (v : ω)

/-- How the rules of a chain leave a thing. -/
inductive Fate (σ ω : Type) where
  | passed (s : σ)
  | stopped (v : ω)

variable {κ ρ σ ω : Type}

/-- The way through the rules, in a table. -/
inductive Traverses (f : Chains κ ρ) (act : ρ → σ → Move κ σ ω) :
    List ρ → σ → Fate σ ω → Prop where
  | nil (s : σ) : Traverses f act [] s (.passed s)
  | on {r : ρ} {rs : List ρ} {s s' : σ} {o : Fate σ ω} : act r s = .on s' →
      Traverses f act rs s' o → Traverses f act (r :: rs) s o
  | ret {r : ρ} {rs : List ρ} {s : σ} : act r s = .ret → Traverses f act (r :: rs) s (.passed s)
  | stop {r : ρ} {rs : List ρ} {s : σ} {v : ω} : act r s = .stop v →
      Traverses f act (r :: rs) s (.stopped v)
  | jumpPassed {r : ρ} {rs body : List ρ} {s s' : σ} {c : κ} {o : Fate σ ω} :
      act r s = .jump c → f c = some body → Traverses f act body s (.passed s') →
      Traverses f act rs s' o → Traverses f act (r :: rs) s o
  | jumpStopped {r : ρ} {rs body : List ρ} {s : σ} {c : κ} {v : ω} :
      act r s = .jump c → f c = some body → Traverses f act body s (.stopped v) →
      Traverses f act (r :: rs) s (.stopped v)

section

variable {f f' : Chains κ ρ} {act : ρ → σ → Move κ σ ω} {r : ρ} {rs body : List ρ} {s s' : σ}
  {v : ω} {c : κ} {o o' : Fate σ ω}

/-! ## One rule -/

theorem traverses_nil : Traverses f act [] s o ↔ o = .passed s := by
  refine ⟨?_, ?_⟩
  · intro h
    cases h
    rfl
  · rintro rfl
    exact .nil s

theorem traverses_on (hact : act r s = .on s') :
    Traverses f act (r :: rs) s o ↔ Traverses f act rs s' o := by
  refine ⟨?_, .on hact⟩
  intro h
  cases h with
  | on hr hrest =>
      cases hact.symm.trans hr
      exact hrest
  | ret hr => cases hact.symm.trans hr
  | stop hr => cases hact.symm.trans hr
  | jumpPassed hr _ _ _ => cases hact.symm.trans hr
  | jumpStopped hr _ _ => cases hact.symm.trans hr

theorem traverses_ret (hact : act r s = .ret) :
    Traverses f act (r :: rs) s o ↔ o = .passed s := by
  refine ⟨?_, ?_⟩
  · intro h
    cases h with
    | on hr _ => cases hact.symm.trans hr
    | ret _ => rfl
    | stop hr => cases hact.symm.trans hr
    | jumpPassed hr _ _ _ => cases hact.symm.trans hr
    | jumpStopped hr _ _ => cases hact.symm.trans hr
  · rintro rfl
    exact .ret hact

theorem traverses_stop (hact : act r s = .stop v) :
    Traverses f act (r :: rs) s o ↔ o = .stopped v := by
  refine ⟨?_, ?_⟩
  · intro h
    cases h with
    | on hr _ => cases hact.symm.trans hr
    | ret hr => cases hact.symm.trans hr
    | stop hr =>
        cases hact.symm.trans hr
        rfl
    | jumpPassed hr _ _ _ => cases hact.symm.trans hr
    | jumpStopped hr _ _ => cases hact.symm.trans hr
  · rintro rfl
    exact .stop hact

theorem traverses_jump (hact : act r s = .jump c) (hbody : f c = some body) :
    Traverses f act (r :: rs) s o ↔
      (∃ s', Traverses f act body s (.passed s') ∧ Traverses f act rs s' o) ∨
        ∃ v, Traverses f act body s (.stopped v) ∧ o = .stopped v := by
  refine ⟨?_, ?_⟩
  · intro h
    cases h with
    | on hr _ => cases hact.symm.trans hr
    | ret hr => cases hact.symm.trans hr
    | stop hr => cases hact.symm.trans hr
    | jumpPassed hr hf hin hrest =>
        cases hact.symm.trans hr
        cases hbody.symm.trans hf
        exact .inl ⟨_, hin, hrest⟩
    | jumpStopped hr hf hin =>
        cases hact.symm.trans hr
        cases hbody.symm.trans hf
        exact .inr ⟨_, hin, rfl⟩
  · rintro (⟨s', hin, hrest⟩ | ⟨v, hin, rfl⟩)
    · exact .jumpPassed hact hbody hin hrest
    · exact .jumpStopped hact hbody hin

/-- There is one way. -/
theorem Traverses.unique (h : Traverses f act rs s o) (h' : Traverses f act rs s o') : o' = o := by
  induction h generalizing o' with
  | nil s => exact traverses_nil.mp h'
  | on hact _ ih => exact ih ((traverses_on hact).mp h')
  | ret hact => exact (traverses_ret hact).mp h'
  | stop hact => exact (traverses_stop hact).mp h'
  | jumpPassed hact hbody _ _ ihin ihrest =>
      rcases (traverses_jump hact hbody).mp h' with ⟨s', hin, hrest⟩ | ⟨v, hin, _⟩
      · cases ihin hin
        exact ihrest hrest
      · cases ihin hin
  | jumpStopped hact hbody _ ih =>
      rcases (traverses_jump hact hbody).mp h' with ⟨s', hin, _⟩ | ⟨v, hin, rfl⟩
      · cases ih hin
      · exact ih hin

/-- A chain that a thing passes. -/
theorem traverses_through (hact : act r s = .jump c) (hbody : f c = some body)
    (hin : Traverses f act body s (.passed s')) :
    Traverses f act (r :: rs) s o ↔ Traverses f act rs s' o := by
  rw [traverses_jump hact hbody]
  refine ⟨?_, fun hrest => .inl ⟨s', hin, hrest⟩⟩
  rintro (⟨t, ht, hrest⟩ | ⟨v, hv, _⟩)
  · cases hin.unique ht
    exact hrest
  · cases hin.unique hv

/-- A chain that a thing does not pass. -/
theorem traverses_into (hact : act r s = .jump c) (hbody : f c = some body)
    (hin : Traverses f act body s (.stopped v)) :
    Traverses f act (r :: rs) s o ↔ o = .stopped v := by
  rw [traverses_jump hact hbody]
  refine ⟨?_, fun ho => .inr ⟨v, hin, ho⟩⟩
  rintro (⟨t, ht, _⟩ | ⟨w, hw, rfl⟩)
  · cases hin.unique ht
  · exact hin.unique hw

/-! ## Many rules -/

/-- Rules that leave a thing alone. -/
theorem traverses_skip {front : List ρ} (h : ∀ r ∈ front, act r s = .on s) :
    Traverses f act (front ++ rs) s o ↔ Traverses f act rs s o := by
  induction front with
  | nil => rfl
  | cons r front ih =>
      obtain ⟨hr, hfront⟩ := List.forall_mem_cons.mp h
      rw [List.cons_append, traverses_on hr, ih hfront]

/-- Rules that stop a thing in one way, if they do not leave it alone. -/
theorem traverses_stopped (h : ∀ r ∈ rs, act r s = .on s ∨ act r s = .stop v)
    (hstop : ∃ r ∈ rs, act r s = .stop v) : Traverses f act rs s (.stopped v) := by
  induction rs with
  | nil =>
      obtain ⟨r, hr, _⟩ := hstop
      cases hr
  | cons r rs ih =>
      obtain ⟨hr, hrs⟩ := List.forall_mem_cons.mp h
      rcases hr with hon | hfirst
      · refine .on hon (ih hrs ?_)
        obtain ⟨r', hr', hstop⟩ := hstop
        rcases List.mem_cons.mp hr' with rfl | hmem
        · cases hon.symm.trans hstop
        · exact ⟨r', hmem, hstop⟩
      · exact .stop hfirst

/-- Rules of which one ends the chain. -/
theorem traverses_returned {front : List ρ} (h : ∀ r ∈ front, act r s = .on s ∨ act r s = .ret)
    (hret : ∃ r ∈ front, act r s = .ret) : Traverses f act (front ++ rs) s (.passed s) := by
  induction front with
  | nil =>
      obtain ⟨r, hr, _⟩ := hret
      cases hr
  | cons r front ih =>
      obtain ⟨hr, hfront⟩ := List.forall_mem_cons.mp h
      rcases hr with hon | hfirst
      · refine .on hon (ih hfront ?_)
        obtain ⟨r', hr', hret⟩ := hret
        rcases List.mem_cons.mp hr' with rfl | hmem
        · cases hon.symm.trans hret
        · exact ⟨r', hmem, hret⟩
      · exact .ret hfirst

/-- Rules that send to a chain that a thing passes. -/
theorem traverses_around {front : List ρ} (hbody : f c = some body)
    (h : ∀ r ∈ front, act r s = .on s ∨ act r s = .jump c)
    (hin : Traverses f act body s (.passed s)) :
    Traverses f act (front ++ rs) s o ↔ Traverses f act rs s o := by
  induction front with
  | nil => rfl
  | cons r front ih =>
      obtain ⟨hr, hfront⟩ := List.forall_mem_cons.mp h
      rw [List.cons_append]
      rcases hr with hon | hjump
      · rw [traverses_on hon, ih hfront]
      · rw [traverses_through hjump hbody hin, ih hfront]

/-- Rules of which one sends to a chain that stops a thing. -/
theorem traverses_caught {front : List ρ} (hbody : f c = some body)
    (h : ∀ r ∈ front, act r s = .on s ∨ act r s = .jump c) (hjump : ∃ r ∈ front, act r s = .jump c)
    (hin : Traverses f act body s (.stopped v)) :
    Traverses f act (front ++ rs) s o ↔ o = .stopped v := by
  induction front with
  | nil =>
      obtain ⟨r, hr, _⟩ := hjump
      cases hr
  | cons r front ih =>
      obtain ⟨hr, hfront⟩ := List.forall_mem_cons.mp h
      rw [List.cons_append]
      rcases hr with hon | hfirst
      · rw [traverses_on hon]
        refine ih hfront ?_
        obtain ⟨r', hr', hjump⟩ := hjump
        rcases List.mem_cons.mp hr' with rfl | hmem
        · cases hon.symm.trans hjump
        · exact ⟨r', hmem, hjump⟩
      · exact traverses_into hfirst hbody hin

/-! ## Two tables -/

variable {goto : ρ → Option κ} {out : κ → Bool}

theorem Traverses.of_agree (hgoto : ∀ r s c, act r s = .jump c → goto r = some c)
    (hagree : ∀ c, out c = false → f' c = f c)
    (hclosed : ∀ c rs, out c = false → f c = some rs → ∀ r ∈ rs, sends goto out r = false)
    (hrs : ∀ r ∈ rs, sends goto out r = false) (h : Traverses f act rs s o) :
    Traverses f' act rs s o := by
  have hin : ∀ {r : ρ} {s : σ} {c : κ}, act r s = .jump c → sends goto out r = false →
      out c = false := by
    intro r s c hact hsends
    rw [sends, hgoto r s c hact] at hsends
    exact hsends
  induction h with
  | nil s => exact .nil s
  | on hact _ ih => exact .on hact (ih (List.forall_mem_cons.mp hrs).2)
  | ret hact => exact .ret hact
  | stop hact => exact .stop hact
  | jumpPassed hact hbody _ _ ihin ihrest =>
      obtain ⟨hr, hrs⟩ := List.forall_mem_cons.mp hrs
      have hc := hin hact hr
      exact .jumpPassed hact ((hagree _ hc).trans hbody) (ihin (hclosed _ _ hc hbody)) (ihrest hrs)
  | jumpStopped hact hbody _ ih =>
      have hc := hin hact (List.forall_mem_cons.mp hrs).1
      exact .jumpStopped hact ((hagree _ hc).trans hbody) (ih (hclosed _ _ hc hbody))

/-- The way is the same in tables that agree in all chains but some that nothing else sends to. -/
theorem Traverses.iff_of_agree (hgoto : ∀ r s c, act r s = .jump c → goto r = some c)
    (hagree : ∀ c, out c = false → f' c = f c)
    (hclosed : ∀ c rs, out c = false → f c = some rs → ∀ r ∈ rs, sends goto out r = false)
    (hrs : ∀ r ∈ rs, sends goto out r = false) :
    Traverses f' act rs s o ↔ Traverses f act rs s o := by
  refine ⟨?_, .of_agree hgoto hagree hclosed hrs⟩
  refine .of_agree hgoto (fun c hc => (hagree c hc).symm) ?_ hrs
  intro c rs hc hfc
  exact hclosed c rs hc ((hagree c hc).symm.trans hfc)

end

end LproxyCv.Foundation
