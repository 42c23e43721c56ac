import LproxyCv.Dns.Text

set_option autoImplicit false

/-!
# Dns: text is read as it was written

The bytes of a text are those of its characters, one after the other.  A character is read
from its bytes, whatever stands behind them, and a text from its own (`fromUtf8Lossy_utf8`).
-/

namespace LproxyCv.Dns

open LproxyCv.Foundation

/-! ## Bytes by their numbers -/

theorem toNat_byte {n : Nat} (h : n < 256) : (UInt8.ofNat n).toNat = n :=
  UInt8.toNat_ofNat_of_lt' h

theorem isContinuation_iff (b : UInt8) :
    isContinuation b = true ↔ 128 ≤ b.toNat ∧ b.toNat ≤ 191 := by
  simp [isContinuation, UInt8.le_iff_toNat_le]

theorem charWidth_one {b : UInt8} (h : b.toNat < 128) : charWidth b = 1 :=
  if_pos (UInt8.lt_iff_toNat_lt.mpr h)

theorem charWidth_two (b : UInt8) : 194 ≤ b.toNat ∧ b.toNat ≤ 223 → charWidth b = 2 := by
  revert b
  exact of_every_byte (by decide +kernel)

theorem charWidth_three (b : UInt8) : 224 ≤ b.toNat ∧ b.toNat ≤ 239 → charWidth b = 3 := by
  revert b
  exact of_every_byte (by decide +kernel)

theorem charWidth_four (b : UInt8) : 240 ≤ b.toNat ∧ b.toNat ≤ 244 → charWidth b = 4 := by
  revert b
  exact of_every_byte (by decide +kernel)

/-- The second byte of a character continues it, and is not below or above what its first
byte allows. -/
theorem secondFits_of {b c : UInt8} (hc : 128 ≤ c.toNat ∧ c.toNat ≤ 191)
    (h224 : b.toNat = 224 → 160 ≤ c.toNat) (h237 : b.toNat = 237 → c.toNat ≤ 159)
    (h240 : b.toNat = 240 → 144 ≤ c.toNat) (h244 : b.toNat = 244 → c.toNat ≤ 143) :
    secondFits b c = true := by
  have hne : ∀ n : UInt8, b ≠ n → b.toNat ≠ n.toNat := fun n h heq => h (UInt8.toNat_inj.mp heq)
  unfold secondFits
  by_cases h₁ : b = 0xE0
  · subst h₁
    simpa [UInt8.le_iff_toNat_le] using ⟨h224 rfl, hc.2⟩
  · by_cases h₂ : b = 0xED
    · subst h₂
      simpa [UInt8.le_iff_toNat_le] using ⟨hc.1, h237 rfl⟩
    · by_cases h₃ : b = 0xF0
      · subst h₃
        simpa [UInt8.le_iff_toNat_le] using ⟨h240 rfl, hc.2⟩
      · by_cases h₄ : b = 0xF4
        · subst h₄
          simpa [UInt8.le_iff_toNat_le] using ⟨hc.1, h244 rfl⟩
        · rw [if_neg h₁, if_neg h₂, if_neg h₃, if_neg h₄]
          exact (isContinuation_iff c).mpr hc

/-! ## Characters -/

section Widths

variable {b c d e : UInt8} (rest : Bytes)

theorem decodeChar_one (hwidth : charWidth b = 1) :
    decodeChar b rest = (Char.ofNat b.toNat, 1) := by
  simp [decodeChar, hwidth]

theorem decodeChar_two (hwidth : charWidth b = 2) (hc : secondFits b c = true) :
    decodeChar b (c :: rest) = (Char.ofNat (continued (b.toNat % 32) c), 2) := by
  simp [decodeChar, hwidth, hc]

theorem decodeChar_three (hwidth : charWidth b = 3) (hc : secondFits b c = true)
    (hd : isContinuation d = true) : decodeChar b (c :: d :: rest) =
      (Char.ofNat (continued (continued (b.toNat % 16) c) d), 3) := by
  simp [decodeChar, hwidth, hc, hd]

theorem decodeChar_four (hwidth : charWidth b = 4) (hc : secondFits b c = true)
    (hd : isContinuation d = true) (he : isContinuation e = true) :
    decodeChar b (c :: d :: e :: rest) =
      (Char.ofNat (continued (continued (continued (b.toNat % 8) c) d) e), 4) := by
  simp [decodeChar, hwidth, hc, hd, he]

end Widths

/-- A byte that continues a character, with six bits of its number. -/
theorem continuation (n : Nat) : (UInt8.ofNat (n % 64 + 128)).toNat = n % 64 + 128 :=
  toNat_byte (by omega)

theorem isContinuation_continuation (n : Nat) :
    isContinuation (UInt8.ofNat (n % 64 + 128)) = true := by
  rw [isContinuation_iff, continuation]
  omega

theorem continued_continuation (acc n : Nat) :
    continued acc (UInt8.ofNat (n % 64 + 128)) = acc * 64 + n % 64 := by
  rw [continued, continuation]
  omega

/-- A character is read from its bytes. -/
theorem decodeChar_encode (c : Char) : ∃ b bs, String.utf8EncodeChar c = b :: bs ∧
    ∀ rest, decodeChar b (bs ++ rest) = (c, bs.length + 1) := by
  have hself : Char.ofNat c.val.toNat = c := Char.ofNat_toNat c
  have hvalid : c.val.toNat < 0xD800 ∨ 0xDFFF < c.val.toNat ∧ c.val.toNat < 0x110000 := c.valid
  unfold String.utf8EncodeChar
  dsimp only
  generalize c.val.toNat = v at hself hvalid
  by_cases h₁ : v ≤ 0x7F
  · rw [if_pos h₁]
    refine ⟨_, _, rfl, fun rest => ?_⟩
    have hb := toNat_byte (n := v) (by omega)
    rw [List.nil_append, decodeChar_one rest (charWidth_one (by omega)), hb, hself]
    rfl
  · rw [if_neg h₁]
    by_cases h₂ : v ≤ 0x7FF
    · rw [if_pos h₂]
      refine ⟨_, _, rfl, fun rest => ?_⟩
      have hb := toNat_byte (n := v / 64 % 32 + 192) (by omega)
      have hc := continuation v
      have hvalue : (v / 64 % 32 + 192) % 32 * 64 + v % 64 = v := by omega
      refine (decodeChar_two rest (charWidth_two _ (by omega)) ?_).trans ?_
      · exact secondFits_of (by omega) (by omega) (by omega) (by omega) (by omega)
      · rw [hb, continued_continuation, hvalue, hself]
        rfl
    · rw [if_neg h₂]
      by_cases h₃ : v ≤ 0xFFFF
      · rw [if_pos h₃]
        refine ⟨_, _, rfl, fun rest => ?_⟩
        have hb := toNat_byte (n := v / 4096 % 16 + 224) (by omega)
        have hc := continuation (v / 64)
        have hvalue : ((v / 4096 % 16 + 224) % 16 * 64 + v / 64 % 64) * 64 + v % 64 = v := by
          omega
        refine (decodeChar_three rest (charWidth_three _ (by omega)) ?_
          (isContinuation_continuation v)).trans ?_
        · exact secondFits_of (by omega) (by omega) (by omega) (by omega) (by omega)
        · rw [hb, continued_continuation, continued_continuation, hvalue, hself]
          rfl
      · rw [if_neg h₃]
        refine ⟨_, _, rfl, fun rest => ?_⟩
        have hb := toNat_byte (n := v / 262144 % 8 + 240) (by omega)
        have hc := continuation (v / 4096)
        have hvalue : (((v / 262144 % 8 + 240) % 8 * 64 + v / 4096 % 64) * 64 +
            v / 64 % 64) * 64 + v % 64 = v := by omega
        refine (decodeChar_four rest (charWidth_four _ (by omega)) ?_
          (isContinuation_continuation _) (isContinuation_continuation v)).trans ?_
        · exact secondFits_of (by omega) (by omega) (by omega) (by omega) (by omega)
        · rw [hb, continued_continuation, continued_continuation, continued_continuation, hvalue,
            hself]
          rfl

/-! ## Texts -/

/-- The characters of a text are read from their bytes. -/
theorem decodeLossy_encode {l : List Char} {fuel : Nat} (hfuel : l.length ≤ fuel) :
    decodeLossy fuel (l.flatMap String.utf8EncodeChar) = l := by
  induction l generalizing fuel with
  | nil => cases fuel <;> rfl
  | cons c l ih =>
      obtain ⟨fuel, rfl⟩ : ∃ n, fuel = n + 1 := ⟨fuel - 1, by simp at hfuel; omega⟩
      obtain ⟨b, bs, hencode, hdecode⟩ := decodeChar_encode c
      rw [List.flatMap_cons, hencode, List.cons_append, decodeLossy, hdecode,
        Nat.add_sub_cancel, List.drop_left, ih (Nat.le_of_succ_le_succ hfuel)]

theorem utf8_eq_flatMap (s : String) : utf8 s = s.toList.flatMap String.utf8EncodeChar := by
  unfold utf8 String.toUTF8
  conv_lhs => rw [← String.ofList_toList (s := s)]
  rw [String.toByteArray_ofList, List.utf8Encode, List.data_toByteArray]

/-- Every character takes a byte. -/
theorem length_le_encode (l : List Char) :
    l.length ≤ (l.flatMap String.utf8EncodeChar).length := by
  induction l with
  | nil => exact le_rfl
  | cons c l ih =>
      have hc := List.length_pos_of_ne_nil (String.utf8EncodeChar_ne_nil (c := c))
      rw [List.length_cons, List.flatMap_cons, List.length_append]
      omega

/-- A text is read from its own bytes. -/
theorem fromUtf8Lossy_utf8 (s : String) : fromUtf8Lossy (utf8 s) = s := by
  rw [utf8_eq_flatMap, fromUtf8Lossy, decodeLossy_encode (length_le_encode s.toList),
    String.ofList_toList]

end LproxyCv.Dns
