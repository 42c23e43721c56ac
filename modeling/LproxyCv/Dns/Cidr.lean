import LproxyCv.Dns.Routing
import LproxyCv.Foundation.Decimal

set_option autoImplicit false

/-!
# Dns: which texts are ranges

A configured domain is a range of addresses if it is an address, or an address and the length
of its prefix behind a slash (`IsRange`); everything else is a domain.  More is taken for a
range: what is behind a second slash is not looked at, and the length may have a plus sign and
be any number of a byte.  Everything else is taken for what it is (`takenRightly_iff`).
-/

namespace LproxyCv.Dns

open LproxyCv.Foundation LproxyCv.Net

/-! ## Numbers -/

theorem digitOf_eq_some_iff {c : Char} {d : Nat} :
    digitOf c = some d ↔ c.isDigit = true ∧ d = c.toNat - '0'.toNat := by
  have hzero : '0'.toNat = 48 := rfl
  have hnine : '9'.toNat = 57 := rfl
  rw [Char.isDigit_iff_toNat, hzero, hnine]
  unfold digitOf
  constructor
  · intro h
    split at h
    · rename_i hdigit
      cases h
      exact ⟨hdigit, rfl⟩
    · cases h
  · rintro ⟨hdigit, rfl⟩
    exact if_pos hdigit

/-- A number only grows with its digits. -/
theorem le_ofDigitChars (ds : List Char) (acc : Nat) : acc ≤ Nat.ofDigitChars 10 ds acc := by
  rw [Nat.ofDigitChars_eq_ofDigitChars_zero]
  have hpos := Nat.pow_pos (n := ds.length) (show 0 < 10 by decide)
  have hle := Nat.le_mul_of_pos_left acc hpos
  omega

theorem parseDigits_eq_some_iff {ds : List Char} {acc : Nat} {b : UInt8} (hacc : acc ≤ 255) :
    parseDigits acc ds = some b ↔
      (∀ c ∈ ds, c.isDigit = true) ∧ Nat.ofDigitChars 10 ds acc = b.toNat := by
  induction ds generalizing acc with
  | nil =>
      have hofNat : (UInt8.ofNat acc).toNat = acc := UInt8.toNat_ofNat_of_lt' (Nat.lt_of_le_of_lt hacc (by decide))
      rw [parseDigits, Nat.ofDigitChars_nil, Option.some_inj, ← UInt8.toNat_inj, hofNat]
      simp
  | cons c ds ih =>
      rw [parseDigits, Nat.ofDigitChars_cons, List.forall_mem_cons]
      cases hd : digitOf c with
      | none =>
          refine iff_of_false (by simp) fun h => ?_
          rw [digitOf_eq_some_iff.mpr ⟨h.1.1, rfl⟩] at hd
          cases hd
      | some d =>
          obtain ⟨hdigit, rfl⟩ := digitOf_eq_some_iff.mp hd
          rw [Option.bind_eq_bind, Option.bind_some, Nat.mul_comm acc 10]
          by_cases hlarge : 255 < 10 * acc + (c.toNat - '0'.toNat)
          · rw [if_pos hlarge]
            refine iff_of_false (by simp) fun h => ?_
            have hle := le_ofDigitChars ds (10 * acc + (c.toNat - '0'.toNat))
            have hlt := b.toNat_lt
            rw [h.2] at hle
            omega
          · rw [if_neg hlarge, ih (by omega)]
            simp only [hdigit, true_and]

theorem parseU8_eq_some_iff {s : List Char} {b : UInt8} :
    parseU8 s = some b ↔ IsDecimal (unsigned s) ∧ decimal (unsigned s) = b.toNat := by
  have hdigits : parseU8 s =
      if unsigned s = [] then none else parseDigits 0 (unsigned s) := rfl
  rw [hdigits]
  by_cases hnil : unsigned s = []
  · rw [if_pos hnil]
    exact iff_of_false (by simp) fun h => h.1.1 hnil
  · rw [if_neg hnil, parseDigits_eq_some_iff (Nat.zero_le _), IsDecimal, decimal]
    simp only [ne_eq, hnil, not_false_eq_true, true_and]

/-! ## Addresses -/

theorem digits_of_parseOctet {s : List Char} {b : UInt8} (h : parseOctet s = some b) :
    ∀ c ∈ s, c.isDigit = true := by
  unfold parseOctet at h
  split at h
  · cases h
  · split at h
    · cases h
    · exact ((parseDigits_eq_some_iff (Nat.zero_le _)).mp h).1

/-- There is no slash in an address. -/
theorem slash_not_mem_of_parseIpv4 {s : List Char} {addr : Ipv4Addr}
    (h : parseIpv4 s = some addr) : '/' ∉ s := by
  unfold parseIpv4 at h
  split at h
  · rename_i a b c d hsplit
    simp only [Option.bind_eq_bind, Option.bind_eq_some_iff] at h
    obtain ⟨_, ha, _, hb, _, hc, _, hd, _⟩ := h
    have hno : ∀ {part : List Char} {n : UInt8}, parseOctet part = some n → '/' ∉ part :=
      fun hpart hmem => absurd (digits_of_parseOctet hpart _ hmem) (by decide)
    have hjoin : ['.'].intercalate (s.splitOn '.') = s := List.intercalate_splitOn '.'
    intro hmem
    rw [← hjoin, hsplit] at hmem
    simp [List.intercalate, List.intersperse, hno ha, hno hb, hno hc, hno hd] at hmem
  · cases h

/-! ## Texts with a slash -/

/-- A text is cut at its first slash in one way. -/
theorem cut_at_first {x : Char} {front front' rest rest' : List Char} (hfront : x ∉ front)
    (hfront' : x ∉ front') (h : front ++ x :: rest = front' ++ x :: rest') :
    front = front' ∧ rest = rest' := by
  have hsplit := congrArg (List.splitOn x) h
  rw [List.splitOn_append_cons_self_of_not_mem hfront,
    List.splitOn_append_cons_self_of_not_mem hfront'] at hsplit
  obtain ⟨rfl, _⟩ := List.cons.inj hsplit
  exact ⟨rfl, (List.cons.inj (List.append_cancel_left h)).2⟩

/-- What is behind the first slash, up to the next one, and the rest. -/
structure CutAt (s ip mask tail : List Char) : Prop where
  eq : s = ip ++ '/' :: (mask ++ tail)
  mask : '/' ∉ mask
  tail : tail = [] ∨ tail.head? = some '/'

theorem CutAt.head_splitOn {s ip mask tail : List Char} (h : CutAt s ip mask tail) :
    ((mask ++ tail).splitOn '/').head? = some mask := by
  rcases h.tail with rfl | htail
  · rw [List.append_nil, List.splitOn_eq_singleton h.mask]
    rfl
  · obtain ⟨rest, rfl⟩ := List.head?_eq_some_iff.mp htail
    rw [List.splitOn_append_cons_self_of_not_mem h.mask]
    rfl

/-- A text has no slash, or it is cut at the first two. -/
theorem splitOn_cases (s : List Char) :
    ('/' ∉ s ∧ s.splitOn '/' = [s]) ∨
    ∃ ip mask tail parts, CutAt s ip mask tail ∧ '/' ∉ ip ∧
      s.splitOn '/' = ip :: mask :: parts := by
  have hcut : ∀ l : List Char, '/' ∉ l ∨ ∃ front rest, '/' ∉ front ∧ l = front ++ '/' :: rest := by
    intro l
    by_cases hmem : '/' ∈ l
    · obtain ⟨front, rest, hl, hnot⟩ := List.eq_append_cons_of_mem hmem
      exact .inr ⟨front, rest, hnot, hl⟩
    · exact .inl hmem
  rcases hcut s with hno | ⟨ip, rest, hip, rfl⟩
  · exact .inl ⟨hno, List.splitOn_eq_singleton hno⟩
  · right
    rcases hcut rest with hno | ⟨mask, rest', hmask, rfl⟩
    · refine ⟨ip, rest, [], [], ⟨by rw [List.append_nil], hno, .inl rfl⟩, hip, ?_⟩
      rw [List.splitOn_append_cons_self_of_not_mem hip, List.splitOn_eq_singleton hno]
    · refine ⟨ip, mask, '/' :: rest', rest'.splitOn '/', ⟨rfl, hmask, .inr rfl⟩, hip, ?_⟩
      rw [List.splitOn_append_cons_self_of_not_mem hip,
        List.splitOn_append_cons_self_of_not_mem hmask]

/-- What is taken for a range. -/
theorem ipv4rangeParse_eq_some_iff {s : String} {ir : IPV4range} :
    ipv4rangeParse s = some ir ↔
      parseIpv4 s.toList = some ir.addr ∧ ir.mask = 32 ∨
      ∃ ip mask tail, CutAt s.toList ip mask tail ∧ parseIpv4 ip = some ir.addr ∧
        parseU8 mask = some ir.mask := by
  unfold ipv4rangeParse
  rcases splitOn_cases s.toList with ⟨hno, hsplit⟩ | ⟨ip, mask, tail, parts, hcut, hip, hsplit⟩
  · have hdefault : parseU8 ['3', '2'] = some 32 := by decide
    rw [hsplit]
    simp only [hdefault, Option.bind_eq_bind, Option.bind_some, Option.bind_eq_some_iff]
    constructor
    · rintro ⟨addr, haddr, heq⟩
      cases heq
      exact .inl ⟨haddr, rfl⟩
    · rintro (⟨haddr, hmask⟩ | ⟨ip, mask, tail, hcut, _⟩)
      · exact ⟨ir.addr, haddr, by rw [← hmask]⟩
      · rw [hcut.eq] at hno
        simp at hno
  · rw [hsplit]
    simp only [Option.bind_eq_bind, Option.bind_eq_some_iff]
    constructor
    · rintro ⟨m, hm, addr, haddr, heq⟩
      cases heq
      exact .inr ⟨ip, mask, tail, hcut, haddr, hm⟩
    · rintro (⟨haddr, _⟩ | ⟨ip', mask', tail', hcut', haddr, hm⟩)
      · have hno := slash_not_mem_of_parseIpv4 haddr
        rw [hcut.eq] at hno
        simp at hno
      · have heq := hcut.eq.symm.trans hcut'.eq
        obtain ⟨rfl, hrest⟩ := cut_at_first hip (slash_not_mem_of_parseIpv4 haddr) heq
        have hmask : mask = mask' := by
          have hhead := hcut.head_splitOn
          rw [hrest, hcut'.head_splitOn] at hhead
          exact (Option.some.inj hhead).symm
        subst hmask
        exact ⟨ir.mask, hm, ir.addr, haddr, rfl⟩

/-! ## Ranges -/

/-- A text that is a range: an address, or an address and the length of a prefix. -/
def IsRange (s : String) (ir : IPV4range) : Prop :=
  parseIpv4 s.toList = some ir.addr ∧ ir.mask = 32 ∨
  ∃ ip len, s.toList = ip ++ '/' :: len ∧ parseIpv4 ip = some ir.addr ∧
    IsDecimal len ∧ decimal len = ir.mask.toNat ∧ ir.mask.toNat ≤ 32

/-- A text is taken for a range exactly if it is one, and else it is a domain, wherever it is
among the configured ones. -/
def TakenRightly (s : String) : Prop :=
  (∀ ir, ipv4rangeParse s = some ir ↔ IsRange s ir) ∧
  ((∀ ir, ¬ IsRange s ir) → ∀ ds, Router.newDomap (ds ++ [s]) =
    ((Router.newDomap ds).1.insert s, (Router.newDomap ds).2))

/-- An address with a number of a byte behind a slash, and then another slash, or a number that
has a plus sign or is too large. -/
def AlmostRange (s : String) : Prop :=
  ∃ ip mask tail n, CutAt s.toList ip mask tail ∧ (parseIpv4 ip).isSome ∧
    parseU8 mask = some n ∧ (mask.head? = some '+' ∨ 32 < n.toNat ∨ tail ≠ [])

theorem not_isRange_of_almostRange {s : String} {ip mask tail : List Char} {n : UInt8}
    (hcut : CutAt s.toList ip mask tail) (hip : '/' ∉ ip) (hn : parseU8 mask = some n)
    (halmost : mask.head? = some '+' ∨ 32 < n.toNat ∨ tail ≠ []) (ir : IPV4range) :
    ¬ IsRange s ir := by
  rintro (⟨haddr, _⟩ | ⟨ip', len, heq, haddr, hlen, hvalue, hle⟩)
  · have hno := slash_not_mem_of_parseIpv4 haddr
    rw [hcut.eq] at hno
    simp at hno
  · obtain ⟨_, hrest⟩ := cut_at_first hip (slash_not_mem_of_parseIpv4 haddr)
      (hcut.eq.symm.trans heq)
    have hhead := hcut.head_splitOn
    rw [hrest, List.splitOn_eq_singleton (hlen.not_mem (by decide))] at hhead
    have hmask : len = mask := Option.some.inj hhead
    subst hmask
    rcases halmost with hplus | hlarge | htail
    · exact hlen.head_ne (by decide) hplus
    · rw [parseU8_eq_some_iff, hlen.unsigned_eq, hvalue] at hn
      omega
    · exact htail (List.append_right_eq_self.mp hrest)

/-- All texts but those that are almost ranges are taken rightly. -/
theorem takenRightly_iff (s : String) : TakenRightly s ↔ ¬ AlmostRange s := by
  constructor
  · rintro ⟨hexact, _⟩ ⟨ip, mask, tail, n, hcut, hip, hn, halmost⟩
    obtain ⟨addr, haddr⟩ := Option.isSome_iff_exists.mp hip
    have hparse : ipv4rangeParse s = some ⟨addr, n⟩ :=
      ipv4rangeParse_eq_some_iff.mpr (.inr ⟨ip, mask, tail, hcut, haddr, hn⟩)
    exact not_isRange_of_almostRange hcut (slash_not_mem_of_parseIpv4 haddr) hn halmost _
      ((hexact _).mp hparse)
  · intro hno
    have hexact : ∀ ir, ipv4rangeParse s = some ir ↔ IsRange s ir := by
      intro ir
      rw [ipv4rangeParse_eq_some_iff]
      refine or_congr Iff.rfl ⟨?_, ?_⟩
      · rintro ⟨ip, mask, tail, hcut, haddr, hm⟩
        have hwell : ¬ (mask.head? = some '+' ∨ 32 < ir.mask.toNat ∨ tail ≠ []) := fun h =>
          hno ⟨ip, mask, tail, ir.mask, hcut, by rw [haddr]; rfl, hm, h⟩
        simp only [not_or, not_lt, ne_eq, not_not] at hwell
        obtain ⟨hplus, hle, rfl⟩ := hwell
        have hunsigned : unsigned mask = mask := if_neg hplus
        rw [parseU8_eq_some_iff, hunsigned] at hm
        exact ⟨ip, mask, by rw [hcut.eq, List.append_nil], haddr, hm.1, hm.2, hle⟩
      · rintro ⟨ip, len, heq, haddr, hlen, hvalue, _⟩
        refine ⟨ip, len, [], ⟨by rw [heq, List.append_nil], hlen.not_mem (by decide), .inl rfl⟩,
          haddr, ?_⟩
        rw [parseU8_eq_some_iff, hlen.unsigned_eq]
        exact ⟨hlen, hvalue⟩
    refine ⟨hexact, fun hnot ds => ?_⟩
    have hnone : ipv4rangeParse s = none := by
      rw [Option.eq_none_iff_forall_ne_some]
      exact fun ir hir => hnot ir ((hexact ir).mp hir)
    rw [Router.newDomap, List.foldl_append, List.foldl_cons, List.foldl_nil, hnone]
    rfl

/-- A prefix of 40 bits, one behind a plus sign, and one with something behind it. -/
theorem almostRanges_not_takenRightly :
    ¬ TakenRightly "10.0.0.0/40" ∧ ¬ TakenRightly "10.0.0.0/+8" ∧
      ¬ TakenRightly "10.0.0.0/8/a" := by
  have hnot : ∀ (s : String) (ir : IPV4range) (mask tail : List Char),
      CutAt s.toList "10.0.0.0".toList mask tail → parseU8 mask = some ir.mask →
      mask.head? = some '+' ∨ 32 < ir.mask.toNat ∨ tail ≠ [] → ipv4rangeParse s = some ir →
      ¬ TakenRightly s := by
    intro s ir mask tail hcut hn halmost hparse hright
    exact not_isRange_of_almostRange hcut (by decide +kernel) hn halmost ir
      ((hright.1 ir).mp hparse)
  exact ⟨hnot _ ⟨⟨10, 0, 0, 0⟩, 40⟩ ['4', '0'] [] ⟨by decide +kernel, by decide, .inl rfl⟩
      (by decide) (by decide) (by decide +kernel),
    hnot _ ⟨⟨10, 0, 0, 0⟩, 8⟩ ['+', '8'] [] ⟨by decide +kernel, by decide, .inl rfl⟩
      (by decide) (by decide) (by decide +kernel),
    hnot _ ⟨⟨10, 0, 0, 0⟩, 8⟩ ['8'] ['/', 'a'] ⟨by decide +kernel, by decide, .inr rfl⟩
      (by decide) (by decide) (by decide +kernel)⟩

end LproxyCv.Dns
