import LproxyCv.Dns.DnsWriter

set_option autoImplicit false

/-!
# Dns: the configured domains

The domains are kept in a tree, under their labels from the last to the first.  A hash
map is a function from its keys here.

A name is found when it is a configured domain, or below one, or above one
(`has_inserts`): the tree is the set of the domains that were put in, whatever their order.
-/

namespace LproxyCv.Dns

open LproxyCv.Foundation

/-- The domains below a label. -/
inductive SubDomain where
  | mk (leaf : Bool) (nextSubdomains : String → Option SubDomain)

namespace SubDomain

/-- Whether a domain ends here. -/
def leaf : SubDomain → Bool
  | mk leaf _ => leaf

/-- The labels behind this one. -/
def nextSubdomains : SubDomain → String → Option SubDomain
  | mk _ next => next

/-- No domains. -/
def new : SubDomain := mk false fun _ => none

/-- Put something else below a label. -/
def setNext (s : SubDomain) (domain : String) (sub : SubDomain) : SubDomain :=
  mk s.leaf (Function.update s.nextSubdomains domain (some sub))

/-- What is below a label, or nothing yet. -/
def getOrInsert (s : SubDomain) (domain : String) : SubDomain :=
  (s.nextSubdomains domain).getD new

/-- Put a domain in: the label at the index, and those behind it. -/
def insert (s : SubDomain) (domain : String) : List String → SubDomain
  | [] => s.setNext domain (mk true (s.getOrInsert domain).nextSubdomains)
  | next :: rest => s.setNext domain ((s.getOrInsert domain).insert next rest)

/-- Whether the label at the index, and those behind it, lead to the end of a domain, or come
to their own end on the way. -/
def has (s : SubDomain) (domain : String) (rest : List String) : Bool :=
  match s.nextSubdomains domain with
  | none => false
  | some sub =>
      match rest with
      | [] => true
      | next :: rest => if sub.leaf then true else sub.has next rest

end SubDomain

/-- The configured domains. -/
structure DomainMap where
  root : SubDomain

namespace DomainMap

open BytePacketBuffer

/-- No domains. -/
def new : DomainMap := ⟨SubDomain.new⟩

/-- Put a domain in.  One of a single label, or with an empty last label, is left out. -/
def insert (m : DomainMap) (domain : String) : DomainMap :=
  match (splitLabels domain).reverse with
  | top :: next :: rest =>
      if top.length < 1 then m else ⟨m.root.insert top (next :: rest)⟩
  | _ => m

/-- Whether a name is found. -/
def has (m : DomainMap) (domain : String) : Bool :=
  match (splitLabels domain).reverse with
  | top :: next :: rest => m.root.has top (next :: rest)
  | _ => false

end DomainMap

/-! ## One domain -/

namespace SubDomain

@[simp] theorem nextSubdomains_setNext (s : SubDomain) (domain domain' : String)
    (sub : SubDomain) : (s.setNext domain sub).nextSubdomains domain' =
      if domain' = domain then some sub else s.nextSubdomains domain' :=
  Function.update_apply s.nextSubdomains domain (some sub) domain'

theorem has_new (domain : String) (rest : List String) : new.has domain rest = false := by
  cases rest <;> rfl

/-- What is below a label, seen from above it. -/
theorem has_cons (s : SubDomain) (domain next : String) (rest : List String) :
    s.has domain (next :: rest) =
      ((s.getOrInsert domain).leaf || (s.getOrInsert domain).has next rest) := by
  rw [has, getOrInsert]
  cases s.nextSubdomains domain with
  | none => exact (has_new next rest).symm
  | some sub =>
      cases hleaf : sub.leaf with
      | true => simp [hleaf]
      | false => simp [hleaf]

/-- A domain that is put in ends no domain on the way to it. -/
theorem leaf_insert (s : SubDomain) (domain : String) (rest : List String) :
    (s.insert domain rest).leaf = s.leaf := by
  cases rest <;> rfl

/-- The other labels are as they were. -/
theorem has_insert_of_ne (s : SubDomain) {d q : String} (hne : q ≠ d) (ds qs : List String) :
    (s.insert d ds).has q qs = s.has q qs := by
  have hnext : (s.insert d ds).nextSubdomains q = s.nextSubdomains q := by
    cases ds <;> simp [insert, hne]
  unfold has
  rw [hnext]

theorem has_insert_nil (s : SubDomain) (d : String) (ds : List String) :
    (s.insert d ds).has d [] = true := by
  cases ds <;> simp [insert, has]

/-- A domain that is put in is found, and so is what is below it and what is above it; what was
found before is found still, and nothing else. -/
theorem has_insert (s : SubDomain) (d q : String) (ds qs : List String) :
    (s.insert d ds).has q qs = true ↔
      s.has q qs = true ∨ d :: ds <+: q :: qs ∨ q :: qs <+: d :: ds := by
  induction ds generalizing s d q qs with
  | nil =>
      by_cases hq : q = d
      · subst hq
        have hprefix : [q] <+: q :: qs := List.cons_prefix_cons.mpr ⟨rfl, List.nil_prefix⟩
        have hfound : (s.insert q []).has q qs = true := by
          cases qs with
          | nil => exact has_insert_nil s q []
          | cons q' qs => simp [has_cons, getOrInsert, insert, leaf]
        exact iff_of_true hfound (.inr (.inl hprefix))
      · rw [has_insert_of_ne s hq]
        simp [List.cons_prefix_cons, hq, Ne.symm hq]
  | cons d' ds ih =>
      by_cases hq : q = d
      · subst hq
        cases qs with
        | nil =>
            have hprefix : [q] <+: q :: d' :: ds := List.cons_prefix_cons.mpr ⟨rfl, List.nil_prefix⟩
            exact iff_of_true (has_insert_nil s q _) (.inr (.inr hprefix))
        | cons q' qs =>
            have hchild : (s.insert q (d' :: ds)).getOrInsert q =
                (s.getOrInsert q).insert d' ds := by
              simp [insert, getOrInsert]
            rw [has_cons, has_cons, hchild, leaf_insert, Bool.or_eq_true, Bool.or_eq_true, ih]
            simp only [List.cons_prefix_cons, true_and, or_assoc]
      · rw [has_insert_of_ne s hq]
        simp [List.cons_prefix_cons, hq, Ne.symm hq]

end SubDomain

/-! ## All domains -/

namespace DomainMap

open BytePacketBuffer

/-- A domain that is put in: it has two labels or more, and the last is not empty. -/
def Insertable (labels : List String) : Prop :=
  2 ≤ labels.length ∧ ∃ top, labels.getLast? = some top ∧ top ≠ ""

/-- One name lies below the other, or is the other. -/
def Overlap (d q : List String) : Prop := d <:+ q ∨ q <:+ d

theorem has_new (q : String) : new.has q = false := by
  unfold has
  split
  · exact SubDomain.has_new _ _
  · rfl

theorem insertable_iff {labels : List String} : Insertable labels ↔
    ∃ top next rest, labels.reverse = top :: next :: rest ∧ top ≠ "" := by
  rw [← List.reverse_reverse labels]
  generalize labels.reverse = r
  unfold Insertable
  rw [List.length_reverse, List.getLast?_reverse, List.reverse_reverse]
  match r with
  | [] => simp
  | [top] => simp
  | top :: next :: rest => simp

theorem overlap_iff (d q : List String) :
    Overlap d q ↔ d.reverse <+: q.reverse ∨ q.reverse <+: d.reverse := by
  rw [List.reverse_prefix, List.reverse_prefix]
  exact Iff.rfl

/-- A domain is put in under its labels, or left out. -/
theorem insert_cases (m : DomainMap) (d : String) :
    (∃ top next rest, (splitLabels d).reverse = top :: next :: rest ∧ top ≠ "" ∧
      m.insert d = ⟨m.root.insert top (next :: rest)⟩) ∨
    (¬ Insertable (splitLabels d) ∧ m.insert d = m) := by
  rw [insertable_iff]
  unfold insert
  split
  · rename_i top next rest hlabels
    split
    · rename_i hempty
      have htop : top = "" := String.length_eq_zero_iff.mp (Nat.lt_one_iff.mp hempty)
      simp [hlabels, htop]
    · rename_i hlong
      have htop : top ≠ "" := fun h => hlong (by simp [h])
      exact .inl ⟨top, next, rest, hlabels, htop, rfl⟩
  · rename_i hlabels
    refine .inr ⟨?_, rfl⟩
    rintro ⟨top, next, rest, heq, _⟩
    exact hlabels top next rest heq

/-- What one domain adds. -/
theorem has_insert (m : DomainMap) (d q : String) :
    (m.insert d).has q = true ↔ m.has q = true ∨
      2 ≤ (splitLabels q).length ∧ Insertable (splitLabels d) ∧
        Overlap (splitLabels d) (splitLabels q) := by
  rcases m.insert_cases d with ⟨top, next, rest, hlabels, htop, hinsert⟩ | ⟨hout, hinsert⟩
  · have hin : Insertable (splitLabels d) := insertable_iff.mpr ⟨top, next, rest, hlabels, htop⟩
    rw [hinsert, overlap_iff, hlabels, ← @List.length_reverse _ (splitLabels q)]
    unfold has
    generalize (splitLabels q).reverse = labels
    match labels with
    | [] => simp
    | [_] => simp
    | q :: q' :: qs => simp [SubDomain.has_insert, hin]
  · rw [hinsert]
    simp [hout]

/-- What several domains add, one after the other. -/
theorem has_foldl (m : DomainMap) (ds : List String) (q : String) :
    (ds.foldl insert m).has q = true ↔ m.has q = true ∨
      2 ≤ (splitLabels q).length ∧ ∃ d ∈ ds, Insertable (splitLabels d) ∧
        Overlap (splitLabels d) (splitLabels q) := by
  induction ds generalizing m with
  | nil => simp
  | cons d ds ih =>
      rw [List.foldl_cons, ih, has_insert]
      constructor
      · rintro ((hm | ⟨hq, hd⟩) | ⟨hq, d', hd', h⟩)
        · exact .inl hm
        · exact .inr ⟨hq, d, List.mem_cons_self, hd⟩
        · exact .inr ⟨hq, d', List.mem_cons_of_mem d hd', h⟩
      · rintro (hm | ⟨hq, d', hd', h⟩)
        · exact .inl (.inl hm)
        · rcases List.mem_cons.mp hd' with rfl | hd'
          · exact .inl (.inr ⟨hq, h⟩)
          · exact .inr ⟨hq, d', hd', h⟩

theorem has_foldl_new (ds : List String) (q : String) :
    (ds.foldl insert new).has q = true ↔
      2 ≤ (splitLabels q).length ∧ ∃ d ∈ ds, Insertable (splitLabels d) ∧
        Overlap (splitLabels d) (splitLabels q) := by
  rw [has_foldl, has_new, Bool.false_eq_true, false_or]

/-- A name is found exactly when it has two labels or more and overlaps with a domain that was put
in.  So it does not matter in which order the domains were put in, or how often. -/
theorem has_inserts (ds : List String) (q : String) :
    ((ds.foldl insert new).has q = true ↔
      2 ≤ (splitLabels q).length ∧ ∃ d ∈ ds, Insertable (splitLabels d) ∧
        Overlap (splitLabels d) (splitLabels q)) ∧
    ∀ ds' : List String, (∀ d, d ∈ ds' ↔ d ∈ ds) →
      (ds'.foldl insert new).has q = (ds.foldl insert new).has q := by
  refine ⟨has_foldl_new ds q, fun ds' hsame => ?_⟩
  rw [Bool.eq_iff_iff, has_foldl_new, has_foldl_new]
  simp only [hsame]

end DomainMap

end LproxyCv.Dns
