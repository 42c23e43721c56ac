import LproxyCv.Dns.DomainMap

set_option autoImplicit false

/-!
# Dns: names that differ in the case of letters

Two texts are the same but for the case of their letters when they are the same in lower
case.  Letters are those of ASCII, as in the names of DNS.
-/

namespace LproxyCv.Dns

open BytePacketBuffer

/-! ## Characters -/

/-- The lower case of a letter lies 32 behind it; other characters are their own. -/
theorem toNat_toLower (c : Char) :
    c.toLower.toNat = if 65 ≤ c.toNat ∧ c.toNat ≤ 90 then c.toNat + 32 else c.toNat := by
  have hiff : (c.val ≥ 'A'.val ∧ c.val ≤ 'Z'.val) ↔ 65 ≤ c.toNat ∧ c.toNat ≤ 90 := by
    simp only [ge_iff_le, UInt32.le_iff_toNat_le]
    exact Iff.rfl
  unfold Char.toLower
  by_cases h : c.val ≥ 'A'.val ∧ c.val ≤ 'Z'.val
  · have hbounds : 65 ≤ c.val.toNat ∧ c.val.toNat ≤ 90 := hiff.mp h
    have hshift : ('a'.val - 'A'.val).toNat = 32 := rfl
    have hsum : (c.val + ('a'.val - 'A'.val)).toNat = c.val.toNat + 32 := by
      rw [UInt32.toNat_add, hshift]
      omega
    rw [dif_pos h, if_pos (hiff.mp h)]
    exact hsum
  · rw [dif_neg h, if_neg fun hbounds => h (hiff.mpr hbounds)]

theorem toNat_toUpper (c : Char) :
    c.toUpper.toNat = if 97 ≤ c.toNat ∧ c.toNat ≤ 122 then c.toNat - 32 else c.toNat := by
  have hiff : ('a'.val ≤ c.val ∧ c.val ≤ 'z'.val) ↔ 97 ≤ c.toNat ∧ c.toNat ≤ 122 := by
    simp only [UInt32.le_iff_toNat_le]
    exact Iff.rfl
  unfold Char.toUpper
  by_cases h : 'a'.val ≤ c.val ∧ c.val ≤ 'z'.val
  · have hbounds : 97 ≤ c.val.toNat ∧ c.val.toNat ≤ 122 := hiff.mp h
    have hshift : ('A'.val - 'a'.val).toNat = 4294967264 := rfl
    have hsum : (c.val + ('A'.val - 'a'.val)).toNat = c.val.toNat - 32 := by
      rw [UInt32.toNat_add, hshift]
      omega
    rw [dif_pos h, if_pos (hiff.mp h)]
    exact hsum
  · rw [dif_neg h, if_neg fun hbounds => h (hiff.mpr hbounds)]

theorem char_eq_iff {c d : Char} : c = d ↔ c.toNat = d.toNat := Char.toNat_inj.symm

theorem toLower_toUpper (c : Char) : c.toUpper.toLower = c.toLower := by
  rw [char_eq_iff, toNat_toLower, toNat_toUpper, toNat_toLower]
  by_cases hlower : 97 ≤ c.toNat ∧ c.toNat ≤ 122
  · rw [if_pos hlower, if_pos (by omega), if_neg (by omega)]
    omega
  · rw [if_neg hlower]

/-- A letter of either case. -/
def IsLetter (c : Char) : Prop := c.toUpper ≠ c.toLower

instance (c : Char) : Decidable (IsLetter c) := inferInstanceAs (Decidable (_ ≠ _))

theorem isLetter_iff (c : Char) : IsLetter c ↔
    (65 ≤ c.toNat ∧ c.toNat ≤ 90) ∨ (97 ≤ c.toNat ∧ c.toNat ≤ 122) := by
  rw [IsLetter, Ne, char_eq_iff, toNat_toUpper, toNat_toLower]
  by_cases hlower : 97 ≤ c.toNat ∧ c.toNat ≤ 122
  · rw [if_pos hlower, if_neg (by omega)]
    omega
  · by_cases hupper : 65 ≤ c.toNat ∧ c.toNat ≤ 90
    · rw [if_neg hlower, if_pos hupper]
      omega
    · rw [if_neg hlower, if_neg hupper]
      omega

/-- What is no letter has no case. -/
theorem of_not_isLetter {c : Char} (h : ¬ IsLetter c) : c.toUpper = c ∧ c.toLower = c := by
  rw [isLetter_iff, not_or] at h
  rw [char_eq_iff, char_eq_iff, toNat_toUpper, toNat_toLower, if_neg h.1, if_neg h.2]
  exact ⟨rfl, rfl⟩

/-- An operation on characters makes `x` of `x`, and of nothing else. -/
def Fixes (f : Char → Char) (x : Char) : Prop := ∀ c, f c = x ↔ c = x

theorem fixes_toLower {x : Char} (h : ¬ IsLetter x) : Fixes Char.toLower x := by
  intro c
  rw [isLetter_iff] at h
  rw [char_eq_iff, char_eq_iff, toNat_toLower]
  split
  · omega
  · rfl

theorem fixes_toUpper {x : Char} (h : ¬ IsLetter x) : Fixes Char.toUpper x := by
  intro c
  rw [isLetter_iff] at h
  rw [char_eq_iff, char_eq_iff, toNat_toUpper]
  split
  · omega
  · rfl

/-! ## Texts -/

/-- Do something to each character. -/
def mapChars (f : Char → Char) (s : String) : String := String.ofList (s.toList.map f)

/-- A text in lower case, as far as ASCII goes. -/
def foldCase (s : String) : String := mapChars Char.toLower s

/-- A text in upper case, as far as ASCII goes. -/
def upperCase (s : String) : String := mapChars Char.toUpper s

/-- Texts that differ in the case of their letters only. -/
def SameLetters (s t : String) : Prop := foldCase s = foldCase t

instance (s t : String) : Decidable (SameLetters s t) := inferInstanceAs (Decidable (_ = _))

/-- A text without letters. -/
def LetterFree (s : String) : Prop := ∀ c ∈ s.toList, ¬ IsLetter c

theorem toList_mapChars (f : Char → Char) (s : String) :
    (mapChars f s).toList = s.toList.map f := String.toList_ofList

theorem mapChars_eq_iff {f g : Char → Char} {s t : String} :
    mapChars f s = mapChars g t ↔ s.toList.map f = t.toList.map g := by
  rw [← String.toList_inj, toList_mapChars, toList_mapChars]

theorem sameLetters_upperCase (s : String) : SameLetters (upperCase s) s := by
  unfold SameLetters foldCase upperCase
  rw [mapChars_eq_iff, toList_mapChars, List.map_map]
  exact List.map_congr_left fun c _ => toLower_toUpper c

/-- A text without letters has no other case. -/
theorem SameLetters.eq {s t : String} (h : SameLetters s t) (hs : LetterFree s) : s = t := by
  have hlists := mapChars_eq_iff.mp h
  have hself : s.toList.map Char.toLower = s.toList :=
    (List.map_congr_left fun c hc => (of_not_isLetter (hs c hc)).2).trans (List.map_id' _)
  rw [hself] at hlists
  refine String.toList_inj.mp (hlists.trans ?_)
  refine (List.map_congr_left fun c hc => ?_).trans (List.map_id' _)
  have hmem : c.toLower ∈ s.toList := hlists ▸ List.mem_map_of_mem hc
  exact ((fixes_toLower (hs _ hmem) c).mp rfl).symm

/-- A text whose upper case is in lower case has no letters. -/
theorem letterFree_of_upperCase {s : String} (h : foldCase (upperCase s) = upperCase s) :
    LetterFree s := by
  have hcases : foldCase s = upperCase s := (sameLetters_upperCase s).symm.trans h
  intro c hc hletter
  exact hletter (List.map_inj_left.mp (mapChars_eq_iff.mp hcases) c hc).symm

theorem LetterFree.upperCase_eq {s : String} (h : LetterFree s) : upperCase s = s :=
  (SameLetters.eq (sameLetters_upperCase s).symm h).symm

/-! ## Labels -/

theorem splitOn_map {f : Char → Char} {x : Char} (hf : Fixes f x) (l : List Char) :
    (l.map f).splitOn x = (l.splitOn x).map (List.map f) := by
  induction l with
  | nil => rfl
  | cons c l ih =>
      rw [List.map_cons, List.splitOn_cons_eq_if_modifyHead, List.splitOn_cons_eq_if_modifyHead, ih]
      by_cases hc : c = x
      · rw [if_pos (beq_iff_eq.mpr ((hf c).mpr hc)), if_pos (beq_iff_eq.mpr hc), List.map_cons,
          List.map_nil]
      · rw [if_neg fun h => hc ((hf c).mp (beq_iff_eq.mp h)), if_neg fun h => hc (beq_iff_eq.mp h)]
        cases l.splitOn x with
        | nil => rfl
        | cons part parts => rfl

theorem splitLabels_mapChars {f : Char → Char} (hf : Fixes f '.') (s : String) :
    splitLabels (mapChars f s) = (splitLabels s).map (mapChars f) := by
  unfold splitLabels
  rw [toList_mapChars, splitOn_map hf, List.map_map, List.map_map]
  refine List.map_congr_left fun l _ => ?_
  simp only [Function.comp_apply, mapChars, String.toList_ofList]

theorem dot_not_mem_splitOn (l : List Char) : ∀ part ∈ l.splitOn '.', '.' ∉ part := by
  induction l with
  | nil => simp
  | cons c l ih =>
      rw [List.splitOn_cons_eq_if_modifyHead]
      split
      · rintro part (_ | ⟨_, hpart⟩)
        · exact List.not_mem_nil
        · exact ih part hpart
      · rename_i hc
        cases hparts : l.splitOn '.' with
        | nil => exact absurd hparts (List.splitOn_ne_nil '.' l)
        | cons first parts =>
            rw [hparts] at ih
            rintro part (_ | ⟨_, hpart⟩)
            · intro hmem
              rcases List.mem_cons.mp hmem with rfl | hmem
              · exact hc (beq_self_eq_true _)
              · exact ih first List.mem_cons_self hmem
            · exact ih part (List.mem_cons_of_mem first hpart)

theorem splitLabels_injective : Function.Injective splitLabels := by
  intro s t h
  have hparts : s.toList.splitOn '.' = t.toList.splitOn '.' := by
    have hlists := congrArg (List.map String.toList) h
    simpa [splitLabels, Function.comp_def] using hlists
  have hlist : s.toList = t.toList := by
    have hjoin := congrArg ['.'].intercalate hparts
    rwa [List.intercalate_splitOn, List.intercalate_splitOn] at hjoin
  exact String.toList_inj.mp hlist

/-- Texts are the same but for the case of their letters when their labels are. -/
theorem sameLetters_iff {s t : String} : SameLetters s t ↔
    (splitLabels s).map foldCase = (splitLabels t).map foldCase := by
  have hdot : Fixes Char.toLower '.' := fixes_toLower (by decide)
  have hlabels : ∀ u, (splitLabels u).map foldCase = splitLabels (foldCase u) :=
    fun u => (splitLabels_mapChars hdot u).symm
  rw [hlabels, hlabels, splitLabels_injective.eq_iff]
  exact Iff.rfl

/-- Labels that are those of a text but for the case of their letters are the labels of such
a text. -/
theorem exists_sameLetters {s : String} {labels : List String}
    (h : labels.map foldCase = (splitLabels s).map foldCase) :
    ∃ t, SameLetters t s ∧ splitLabels t = labels := by
  have hdot : ∀ l ∈ labels, '.' ∉ l.toList := by
    intro l hl hmem
    have hfold : foldCase l ∈ (splitLabels s).map foldCase := h ▸ List.mem_map_of_mem hl
    obtain ⟨l', hl', heq⟩ := List.mem_map.mp hfold
    obtain ⟨part, hpart, rfl⟩ := List.mem_map.mp hl'
    have hlists := mapChars_eq_iff.mp heq
    rw [String.toList_ofList] at hlists
    have hmem' : '.' ∈ part.map Char.toLower := by
      rw [hlists]
      exact List.mem_map.mpr ⟨'.', hmem, rfl⟩
    obtain ⟨c, hc, hlower⟩ := List.mem_map.mp hmem'
    rw [(fixes_toLower (by decide) c).mp hlower] at hc
    exact dot_not_mem_splitOn s.toList part hpart hc
  have hne : labels ≠ [] := by
    rintro rfl
    have hnil := List.map_eq_nil_iff.mp (List.map_eq_nil_iff.mp h.symm)
    exact List.splitOn_ne_nil '.' s.toList hnil
  have hlabels := splitLabels_join hne hdot
  exact ⟨".".intercalate labels, sameLetters_iff.mpr (by rw [hlabels, h]), hlabels⟩

/-! ## Names that lie below one another -/

namespace DomainMap

/-- One name lies below the other but for the case of letters. -/
def NearOverlap (d q : List String) : Prop := Overlap (d.map foldCase) (q.map foldCase)

/-- One name lies below the other, and what they share has no letters. -/
def SureOverlap (d q : List String) : Prop :=
  (d <:+ q ∧ ∀ l ∈ d, LetterFree l) ∨ (q <:+ d ∧ ∀ l ∈ q, LetterFree l)

theorem eq_of_letterFree {ls ls' : List String} (h : ls'.map foldCase = ls.map foldCase)
    (hfree : ∀ l ∈ ls, LetterFree l) : ls' = ls := by
  induction ls generalizing ls' with
  | nil => exact List.map_eq_nil_iff.mp h
  | cons l ls ih =>
      cases ls' with
      | nil => cases h
      | cons l' ls' =>
          obtain ⟨hhead, htail⟩ := List.cons.inj h
          have hl : l = l' := SameLetters.eq hhead.symm (hfree l List.mem_cons_self)
          rw [hl, ih htail fun l hl => hfree l (List.mem_cons_of_mem _ hl)]

/-- What is shared and has no letters is shared in every case. -/
theorem SureOverlap.overlap {d d' q : List String} (h : SureOverlap d q)
    (hd : d'.map foldCase = d.map foldCase) : Overlap d' q := by
  rcases h with ⟨hsuffix, hfree⟩ | ⟨⟨front, rfl⟩, hfree⟩
  · rw [eq_of_letterFree hd hfree]
    exact .inl hsuffix
  · rw [List.map_append] at hd
    obtain ⟨front', q', rfl, _, hq⟩ := List.map_eq_append_iff.mp hd
    rw [eq_of_letterFree hq hfree]
    exact .inr (List.suffix_append front' q)

/-- A name in lower case that overlaps with one in upper case shares no letters with it. -/
theorem sureOverlap_of_upperCase {d q : List String} (hq : ∀ l ∈ q, foldCase l = l)
    (h : Overlap (d.map upperCase) q) : SureOverlap d q := by
  have hfree : ∀ ls : List String, (∀ l ∈ ls.map upperCase, l ∈ q) →
      (∀ l ∈ ls, LetterFree l) ∧ ls.map upperCase = ls := by
    intro ls hmem
    have hletters : ∀ l ∈ ls, LetterFree l := fun l hl =>
      letterFree_of_upperCase (hq _ (hmem _ (List.mem_map_of_mem hl)))
    exact ⟨hletters, (List.map_congr_left fun l hl => (hletters l hl).upperCase_eq).trans
      (List.map_id' ls)⟩
  rcases h with hsuffix | hsuffix
  · obtain ⟨hletters, hself⟩ := hfree d fun l hl => hsuffix.subset hl
    rw [hself] at hsuffix
    exact .inl ⟨hsuffix, hletters⟩
  · obtain ⟨ls, hls, rfl⟩ := List.suffix_map_iff.mp hsuffix
    obtain ⟨hletters, hself⟩ := hfree ls fun l hl => hl
    rw [hself]
    exact .inr ⟨hls, hletters⟩

/-- Labels that overlap but for the case of letters overlap in some case. -/
theorem NearOverlap.exists {d q : List String} (h : NearOverlap d q) :
    ∃ ls, ls.map foldCase = d.map foldCase ∧ Overlap ls q := by
  rcases h with hsuffix | hsuffix
  · obtain ⟨ls, hls, heq⟩ := List.suffix_map_iff.mp hsuffix
    exact ⟨ls, heq.symm, .inl hls⟩
  · obtain ⟨ls, ⟨front, rfl⟩, heq⟩ := List.suffix_map_iff.mp hsuffix
    exact ⟨front ++ q, by rw [List.map_append, List.map_append, heq],
      .inr (List.suffix_append front q)⟩

theorem NearOverlap.of_overlap {d d' q : List String} (h : Overlap d' q)
    (hd : d'.map foldCase = d.map foldCase) : NearOverlap d q := by
  unfold NearOverlap
  rw [← hd]
  exact h.imp (fun hsuffix => hsuffix.map foldCase) fun hsuffix => hsuffix.map foldCase

/-- Whether a domain is put in does not depend on the case of its letters. -/
theorem insertable_congr {ls ls' : List String} (h : ls'.map foldCase = ls.map foldCase) :
    Insertable ls' ↔ Insertable ls := by
  have hlen := congrArg List.length h
  have hlast := congrArg List.getLast? h
  rw [List.length_map, List.length_map] at hlen
  rw [List.getLast?_map, List.getLast?_map] at hlast
  have hempty : ∀ s : String, foldCase s = "" ↔ s = "" := by
    intro s
    rw [← String.toList_inj, ← String.toList_inj]
    unfold foldCase
    rw [toList_mapChars]
    simp
  have hfold : ∀ o : Option String, (∃ top, o = some top ∧ top ≠ "") ↔
      ∃ top, o.map foldCase = some top ∧ top ≠ "" := by
    intro o
    cases o with
    | none => simp
    | some s => simp [hempty]
  unfold Insertable
  rw [hlen, hfold ls'.getLast?, hfold ls.getLast?, hlast]

end DomainMap

end LproxyCv.Dns
