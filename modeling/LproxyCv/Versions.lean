import LproxyCv.Foundation.Decimal
import Mathlib.Algebra.Group.Nat.Defs

set_option autoImplicit false

/-!
# Versions

There are two copies of the program, and the one with the greater version number is started.
A number has eight bits for the last component of a version and eight for the one before it,
but a component that does not fit is put in all the same; and the script that compares two
numbers takes them as signed.  Of all versions, those that fit are compared as they should be,
and no other version is compared so with all of these (`respectsOrder_iff`), whatever the size
of a word.
-/

namespace LproxyCv.Versions

open LproxyCv.Foundation

/-- A version of three components. -/
structure Version where
  major : List Char
  minor : List Char
  patch : List Char
  major_decimal : IsDecimal major
  minor_decimal : IsDecimal minor
  patch_decimal : IsDecimal patch
  deriving DecidableEq

namespace Version

/-- The version as it is written. -/
def text (v : Version) : String :=
  String.ofList (['.'].intercalate [v.major, v.minor, v.patch])

/-- The version of three numbers. -/
def ofNats (a b c : Nat) : Version :=
  ⟨_, _, _, isDecimal_toDigits a, isDecimal_toDigits b, isDecimal_toDigits c⟩

/-- One version comes before another. -/
def Precedes (v w : Version) : Prop :=
  decimal v.major < decimal w.major ∨
    decimal v.major = decimal w.major ∧
      (decimal v.minor < decimal w.minor ∨
        decimal v.minor = decimal w.minor ∧ decimal v.patch < decimal w.patch)

end Version

/-- A word with a component behind what is in it. -/
def pushComponent (bits u uu : Nat) : Nat := (u <<< 8) % 2 ^ bits ||| uu

/-- The number of a version, on a machine with words of `bits` bits; a component that is no
number, or does not fit into a word, is a panic. -/
def toVersionNumber (bits : Nat) (ver : String) : Option Nat :=
  (ver.toList.splitOn '.').foldlM
    (fun u s => (parseUnsigned (2 ^ bits) s).map fun uu => pushComponent bits u uu) 0

/-- The two copies. -/
inductive Copy where
  | a
  | b
  deriving DecidableEq, Repr

/-- The number that a copy prints, or zero. -/
def getCopyVersion (bits : Nat) (copy : Option String) : Nat :=
  (copy.bind (toVersionNumber bits)).getD 0

/-- The test of the script for the greater number; its numbers are signed, and have 64 bits. -/
def gt (m n : Nat) : Bool := (BitVec.ofNat 64 n).slt (BitVec.ofNat 64 m)

/-- The copy that is started. -/
def getCopyRun (bits : Nat) (acopy bcopy : Option String) : Copy :=
  if gt (getCopyVersion bits bcopy) (getCopyVersion bits acopy) then .b else .a

/-! ## Versions that fit -/

/-- The bits of the numbers that fit into a word and are no negative ones for the script. -/
def width (bits : Nat) : Nat := min bits 63

/-- The last two components have eight bits, and the first one those that are left. -/
structure InRange (bits : Nat) (v : Version) : Prop where
  major : decimal v.major < 2 ^ (width bits - 16)
  minor : decimal v.minor < 256
  patch : decimal v.patch < 256

/-- The components of a version, one behind the other. -/
def packed (v : Version) : Nat :=
  (decimal v.major * 256 + decimal v.minor) * 256 + decimal v.patch

/-- Numbers that are no negative ones are compared as they should be. -/
theorem gt_iff {m n : Nat} (hm : m < 2 ^ 63) (hn : n < 2 ^ 63) : gt m n = true ↔ n < m := by
  rw [gt, BitVec.slt_eq_decide, decide_eq_true_eq, BitVec.toInt_ofNat', BitVec.toInt_ofNat',
    Int.bmod_eq_of_le (by omega) (by omega), Int.bmod_eq_of_le (by omega) (by omega)]
  exact Int.ofNat_lt

/-- Any other is less than these. -/
theorem gt_eq_false {m n : Nat} (hm : 2 ^ 63 ≤ m) (hmax : m < 2 ^ 64) (hn : n < 2 ^ 63) :
    gt m n = false := by
  have hneg : (m : Int).bmod (2 ^ 64) = m - 2 ^ 64 := by
    rw [Int.bmod_def, if_neg]
    · rw [Int.emod_eq_of_lt (by omega) (by omega)]
      rfl
    · rw [Int.emod_eq_of_lt (by omega) (by omega)]
      omega
  rw [gt, BitVec.slt_eq_decide, decide_eq_false_iff_not, BitVec.toInt_ofNat', BitVec.toInt_ofNat',
    Int.bmod_eq_of_le (by omega) (by omega), hneg]
  omega

theorem pow_width_le (bits : Nat) : 2 ^ width bits ≤ 2 ^ bits ∧ 2 ^ width bits ≤ 2 ^ 63 :=
  ⟨Nat.pow_le_pow_right Nat.two_pos (Nat.min_le_left _ _),
    Nat.pow_le_pow_right Nat.two_pos (Nat.min_le_right _ _)⟩

theorem pushComponent_eq {bits u uu : Nat} (hbits : 8 ≤ bits) (hu : u < 2 ^ (bits - 8))
    (huu : uu < 256) : pushComponent bits u uu = u * 256 + uu := by
  have hpow : 2 ^ (bits - 8) * 256 = 2 ^ bits := Nat.pow_sub_mul_pow 2 hbits
  rw [pushComponent, Nat.shiftLeft_eq, Nat.mod_eq_of_lt (by omega), Nat.mul_comm,
    ← Nat.two_pow_add_eq_or_of_lt huu, Nat.mul_comm]

theorem pushComponent_lt {bits uu : Nat} (u : Nat) (huu : uu < 2 ^ bits) :
    pushComponent bits u uu < 2 ^ bits :=
  Nat.or_lt_two_pow (Nat.mod_lt _ (Nat.two_pow_pos bits)) huu

/-- Of three numbers that fit into a word there is a number. -/
theorem toVersionNumber_text (bits : Nat) (v : Version) :
    toVersionNumber bits v.text =
      if decimal v.major < 2 ^ bits ∧ decimal v.minor < 2 ^ bits ∧ decimal v.patch < 2 ^ bits then
        some (pushComponent bits (pushComponent bits (pushComponent bits 0 (decimal v.major))
          (decimal v.minor)) (decimal v.patch))
      else none := by
  have hdot : ('.').isDigit = false := by decide
  have hsplit : (['.'].intercalate [v.major, v.minor, v.patch]).splitOn '.' =
      [v.major, v.minor, v.patch] := by
    refine List.splitOn_intercalate '.' ?_ (by simp)
    simp only [List.forall_mem_cons]
    exact ⟨v.major_decimal.not_mem hdot, v.minor_decimal.not_mem hdot,
      v.patch_decimal.not_mem hdot, nofun⟩
  rw [toVersionNumber, Version.text, String.toList_ofList, hsplit]
  simp only [List.foldlM_cons, List.foldlM_nil, v.major_decimal.parseUnsigned,
    v.minor_decimal.parseUnsigned, v.patch_decimal.parseUnsigned]
  by_cases hmajor : decimal v.major < 2 ^ bits
  · by_cases hminor : decimal v.minor < 2 ^ bits
    · by_cases hpatch : decimal v.patch < 2 ^ bits
      · simp [hmajor, hminor, hpatch]
      · simp [hmajor, hminor, hpatch]
    · simp [hmajor, hminor]
  · simp [hmajor]

section Range

variable {bits : Nat} {v w : Version}

theorem InRange.packed_lt (hbits : 16 ≤ bits) (h : InRange bits v) :
    packed v < 2 ^ width bits := by
  have hpow : 2 ^ (width bits - 16) * 65536 = 2 ^ width bits :=
    Nat.pow_sub_mul_pow 2 (by unfold width; omega)
  obtain ⟨hmajor, hminor, hpatch⟩ := h
  unfold packed
  omega

theorem InRange.toVersionNumber (hbits : 16 ≤ bits) (h : InRange bits v) :
    toVersionNumber bits v.text = some (packed v) := by
  have hlt := Nat.lt_of_lt_of_le (h.packed_lt hbits) (pow_width_le bits).1
  have hle : 2 ^ (width bits - 16) ≤ 2 ^ (bits - 16) :=
    Nat.pow_le_pow_right Nat.two_pos (by unfold width; omega)
  have hpow : 2 ^ (bits - 16) * 65536 = 2 ^ bits := Nat.pow_sub_mul_pow 2 hbits
  have hbits₈ : 8 ≤ bits := by omega
  have hpow₈ : 2 ^ (bits - 8) * 256 = 2 ^ bits := Nat.pow_sub_mul_pow 2 hbits₈
  have hzero : pushComponent bits 0 (decimal v.major) = decimal v.major := by
    rw [pushComponent, Nat.zero_shiftLeft, Nat.zero_mod, Nat.zero_or]
  have hmajor := h.major
  have hminor := h.minor
  have hpatch := h.patch
  have hparts : decimal v.major < 2 ^ bits ∧ decimal v.minor < 2 ^ bits ∧
      decimal v.patch < 2 ^ bits := by
    unfold packed at hlt
    omega
  rw [toVersionNumber_text, if_pos hparts, hzero,
    pushComponent_eq (by omega) (by omega) hminor, pushComponent_eq (by omega) (by omega) hpatch,
    packed]

/-- Versions that fit are ordered as their numbers are. -/
theorem InRange.precedes_iff (hv : InRange bits v) (hw : InRange bits w) :
    v.Precedes w ↔ packed v < packed w := by
  have hv₁ := hv.minor
  have hv₂ := hv.patch
  have hw₁ := hw.minor
  have hw₂ := hw.patch
  unfold Version.Precedes packed
  omega

/-- Every number is that of a version that fits. -/
theorem exists_packed (hbits : 16 ≤ bits) {n : Nat} (hn : n < 2 ^ width bits) :
    ∃ v, InRange bits v ∧ packed v = n := by
  have hpow : 2 ^ width bits = 2 ^ (width bits - 16) * 65536 :=
    (Nat.pow_sub_mul_pow 2 (by unfold width; omega)).symm
  refine ⟨Version.ofNats (n / 65536) (n / 256 % 256) (n % 256), ⟨?_, ?_, ?_⟩, ?_⟩ <;>
    simp only [Version.ofNats, packed, decimal_toDigits] <;> omega

/-- Two versions one of which comes first, unless they are the same. -/
theorem precedes_total (v w : Version) : v.Precedes w ∨ w.Precedes v ∨
    decimal v.major = decimal w.major ∧ decimal v.minor = decimal w.minor ∧
      decimal v.patch = decimal w.patch := by
  unfold Version.Precedes
  omega

end Range

/-! ## The order of versions -/

/-- If `v` comes before `w`, then so does its number, and it is not `v` that is started. -/
def RespectsOrder (bits : Nat) (v w : Version) : Prop :=
  v.Precedes w →
    (∃ m n, toVersionNumber bits v.text = some m ∧ toVersionNumber bits w.text = some n ∧
      m < n) ∧
    getCopyRun bits (some v.text) (some w.text) = .b ∧
    getCopyRun bits (some w.text) (some v.text) = .a

/-- Of two versions one of which comes first, and rightly so, the numbers are not the same. -/
theorem RespectsOrder.number_ne {bits : Nat} {v w : Version} (h : RespectsOrder bits v w)
    (hprecedes : v.Precedes w) {n : Nat} (hv : toVersionNumber bits v.text = some n) :
    toVersionNumber bits w.text ≠ some n := by
  intro hw
  obtain ⟨⟨m, n', hm, hn', hlt⟩, _⟩ := h hprecedes
  cases hm.symm.trans hv
  cases hn'.symm.trans hw
  exact Nat.lt_irrefl _ hlt

theorem InRange.respectsOrder {bits : Nat} (hbits : 16 ≤ bits) {v w : Version}
    (hv : InRange bits v) (hw : InRange bits w) : RespectsOrder bits v w := by
  intro hprecedes
  rw [hv.precedes_iff hw] at hprecedes
  have hnv := hv.toVersionNumber hbits
  have hnw := hw.toVersionNumber hbits
  have hpos : packed v < 2 ^ 63 :=
    Nat.lt_of_lt_of_le (hv.packed_lt hbits) (pow_width_le bits).2
  have hpos' : packed w < 2 ^ 63 :=
    Nat.lt_of_lt_of_le (hw.packed_lt hbits) (pow_width_le bits).2
  refine ⟨⟨_, _, hnv, hnw, hprecedes⟩, ?_, ?_⟩
  · simp only [getCopyRun, getCopyVersion, Option.bind_some, hnv, hnw, Option.getD_some]
    exact if_pos ((gt_iff hpos' hpos).mpr hprecedes)
  · simp only [getCopyRun, getCopyVersion, Option.bind_some, hnv, hnw, Option.getD_some]
    exact if_neg fun hgt => Nat.lt_asymm hprecedes ((gt_iff hpos hpos').mp hgt)

/-- The least version. -/
theorem inRange_zero (bits : Nat) : InRange bits (Version.ofNats 0 0 0) :=
  ⟨Nat.two_pow_pos _, by decide, by decide⟩

/-- A version is ordered rightly with all that fit exactly if it fits itself. -/
theorem respectsOrder_iff (bits : Nat) (hbits : 16 ≤ bits) (hmax : bits ≤ 64) (w : Version) :
    (∀ v, InRange bits v → RespectsOrder bits v w ∧ RespectsOrder bits w v) ↔
      InRange bits w := by
  constructor
  · intro h
    by_contra hout
    by_cases hparts : decimal w.major < 2 ^ bits ∧ decimal w.minor < 2 ^ bits ∧
        decimal w.patch < 2 ^ bits
    · obtain ⟨n, hn, hlt⟩ : ∃ n, toVersionNumber bits w.text = some n ∧ n < 2 ^ bits :=
        ⟨_, by rw [toVersionNumber_text, if_pos hparts], pushComponent_lt _ hparts.2.2⟩
      by_cases hfits : n < 2 ^ width bits
      · -- its number is that of a version that fits
        obtain ⟨v, hv, hpacked⟩ := exists_packed hbits hfits
        have hnv := hv.toVersionNumber hbits
        rw [hpacked] at hnv
        obtain ⟨hvw, hwv⟩ := h v hv
        rcases precedes_total v w with hlt | hlt | ⟨hmajor, hminor, hpatch⟩
        · exact hvw.number_ne hlt hnv hn
        · exact hwv.number_ne hlt hn hnv
        · exact hout ⟨hmajor ▸ hv.major, hminor ▸ hv.minor, hpatch ▸ hv.patch⟩
      · -- for the script its number is a negative one
        have hwide : 2 ^ 63 ≤ n := by
          unfold width at hfits
          rcases Nat.lt_or_ge 63 bits with hbig | hsmall
          · rw [Nat.min_eq_right (Nat.le_of_lt hbig)] at hfits
            exact Nat.le_of_not_lt hfits
          · rw [Nat.min_eq_left hsmall] at hfits
            exact absurd hlt hfits
        have hzero := inRange_zero bits
        obtain ⟨hvw, _⟩ := h _ hzero
        rcases precedes_total (Version.ofNats 0 0 0) w with hlt' | hlt' | ⟨hmajor, hminor, hpatch⟩
        · have hb := (hvw hlt').2.1
          have hless : n < 2 ^ 64 :=
            Nat.lt_of_lt_of_le hlt (Nat.pow_le_pow_right Nat.two_pos hmax)
          have hnumber := hzero.toVersionNumber hbits
          simp only [getCopyRun, getCopyVersion, Option.bind_some, hnumber, hn,
            Option.getD_some] at hb
          rw [gt_eq_false hwide hless (by decide)] at hb
          cases hb
        · unfold Version.Precedes at hlt'
          simp only [Version.ofNats, decimal_toDigits] at hlt'
          omega
        · exact hout ⟨hmajor ▸ hzero.major, hminor ▸ hzero.minor, hpatch ▸ hzero.patch⟩
    · -- it has no number
      obtain ⟨v, hv, hpacked⟩ := exists_packed hbits (Nat.two_pow_pos (width bits))
      have hprecedes : v.Precedes w := by
        have hpow := Nat.two_pow_pos bits
        unfold packed at hpacked
        unfold Version.Precedes
        omega
      obtain ⟨⟨_, n, _, hn, _⟩, _⟩ := (h v hv).1 hprecedes
      rw [toVersionNumber_text, if_neg hparts] at hn
      cases hn
  · intro hw v hv
    exact ⟨hv.respectsOrder hbits hw, hw.respectsOrder hbits hv⟩

theorem inRange_ofNats {bits a b c : Nat} :
    InRange bits (Version.ofNats a b c) ↔
      a < 2 ^ (width bits - 16) ∧ b < 256 ∧ c < 256 := by
  constructor
  · rintro ⟨hmajor, hminor, hpatch⟩
    simp only [Version.ofNats, decimal_toDigits] at hmajor hminor hpatch
    exact ⟨hmajor, hminor, hpatch⟩
  · rintro ⟨hmajor, hminor, hpatch⟩
    refine ⟨?_, ?_, ?_⟩ <;> simpa only [Version.ofNats, decimal_toDigits]

theorem respectsOrder_next :
    RespectsOrder 32 (Version.ofNats 0 0 255) (Version.ofNats 0 1 0) ∧
      RespectsOrder 32 (Version.ofNats 0 1 0) (Version.ofNats 0 0 255) :=
  (respectsOrder_iff 32 (by decide) (by decide) (Version.ofNats 0 1 0)).mpr
    (inRange_ofNats.mpr (by decide)) (Version.ofNats 0 0 255) (inRange_ofNats.mpr (by decide))

/-- Version 0.0.256 comes before version 0.1.0 and has the same number, so it is started if it
is the first copy. -/
theorem carry_not_respectsOrder :
    ¬ RespectsOrder 32 (Version.ofNats 0 0 256) (Version.ofNats 0 1 0) ∧
      ¬ RespectsOrder 64 (Version.ofNats 0 0 256) (Version.ofNats 0 1 0) := by
  have hminor : ∀ a b c b' c', b < b' →
      (Version.ofNats a b c).Precedes (Version.ofNats a b' c') := by
    intro a b c b' c' hlt
    refine .inr ⟨rfl, .inl ?_⟩
    simpa only [Version.ofNats, decimal_toDigits]
  have hprecedes := hminor 0 0 256 1 0 (by decide)
  have hnumber : ∀ bits a b c n, a < 2 ^ bits ∧ b < 2 ^ bits ∧ c < 2 ^ bits →
      pushComponent bits (pushComponent bits (pushComponent bits 0 a) b) c = n →
      toVersionNumber bits (Version.ofNats a b c).text = some n := by
    rintro bits a b c n hparts rfl
    rw [toVersionNumber_text]
    simp only [Version.ofNats, decimal_toDigits]
    exact if_pos hparts
  have hsame : ∀ bits, bits = 32 ∨ bits = 64 → ¬ RespectsOrder bits (Version.ofNats 0 0 256)
      (Version.ofNats 0 1 0) := by
    intro bits hbits h
    have hfirst : toVersionNumber bits (Version.ofNats 0 0 256).text = some 256 := by
      rcases hbits with rfl | rfl <;> exact hnumber _ 0 0 256 256 (by decide) rfl
    have hsecond : toVersionNumber bits (Version.ofNats 0 1 0).text = some 256 := by
      rcases hbits with rfl | rfl <;> exact hnumber _ 0 1 0 256 (by decide) rfl
    exact h.number_ne hprecedes hfirst hsecond
  exact ⟨hsame 32 (.inl rfl), hsame 64 (.inr rfl)⟩

end LproxyCv.Versions
