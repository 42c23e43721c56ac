import LproxyCv.Dns.DnsWriter
import LproxyCv.Dns.Layout

set_option autoImplicit false

/-!
# Dns: numbers that are written are read again

The parser reads the numbers and the addresses that the writer has written.
-/

namespace LproxyCv.Dns

open LproxyCv.Foundation LproxyCv.Net

namespace BytePacketBuffer

/-! ## Numbers -/

/-- A byte that was written. -/
theorem inverts_write (val : UInt8) : Inverts (write val) read val := by
  have hwrite : ∀ {c c' : Cursor} {r : Unit}, write val c = .ok (r, c') →
      c.pos < 512 ∧ c.pos < c.buf.length ∧ c' = ⟨c.buf.set c.pos val, c.pos + 1⟩ := by
    intro c c' r h
    unfold write at h
    split at h
    · cases h
    · split at h
      · rename_i hfar hin
        cases h
        exact ⟨Nat.lt_of_not_le hfar, hin, rfl⟩
      · cases h
  constructor
  · intro c c' r h
    obtain ⟨_, _, rfl⟩ := hwrite h
    refine ⟨Nat.le_succ _, List.length_set, ?_⟩
    intro i _ hi
    exact List.getElem?_set_ne (Nat.ne_of_gt hi)
  · intro c c' r h b hagree
    obtain ⟨hfar, hin, rfl⟩ := hwrite h
    have hbyte : b[c.pos]? = some val :=
      (hagree c.pos le_rfl (Nat.lt_succ_self _)).trans (List.getElem?_set_self hin)
    unfold read
    dsimp only
    rw [if_neg (Nat.not_le_of_lt hfar), hbyte]

/-- A number of two bytes. -/
def word (hi lo : UInt8) : UInt16 := hi.toUInt16 <<< 8 ||| lo.toUInt16

/-- A number of four bytes. -/
def quad (a b c d : UInt8) : UInt32 :=
  a.toUInt32 <<< 24 ||| b.toUInt32 <<< 16 ||| c.toUInt32 <<< 8 ||| d.toUInt32 <<< 0

theorem and_byte (n : Nat) : n &&& 255 = n % 256 := Nat.and_two_pow_sub_one_eq_mod n 8

theorem and_word (n : Nat) : n &&& 65535 = n % 65536 := Nat.and_two_pow_sub_one_eq_mod n 16

theorem word_of (val : UInt16) : word (val >>> 8).toUInt8 (val &&& 0xFF).toUInt8 = val := by
  have hval := val.toNat_lt
  rw [← UInt16.toNat_inj, word, toNat_word]
  simp only [UInt16.toNat_toUInt8, UInt16.toNat_shiftRight, UInt16.toNat_and,
    UInt16.reduceToNat, Nat.reduceMod, Nat.reducePow, and_byte, Nat.shiftRight_eq_div_pow]
  omega

/-- The bits of `y` stand below those of `x`. -/
theorem toNat_or {x y : UInt32} {n i : Nat} (hx : x.toNat = n * 2 ^ i) (hy : y.toNat < 2 ^ i) :
    (x ||| y).toNat = n * 2 ^ i + y.toNat := by
  rw [UInt32.toNat_or, hx, ← Nat.shiftLeft_eq, Nat.shiftLeft_add_eq_or_of_lt hy]

theorem toNat_quad (a b c d : UInt8) : (quad a b c d).toNat =
    a.toNat * 2 ^ 24 + b.toNat * 2 ^ 16 + c.toNat * 2 ^ 8 + d.toNat := by
  have ha := a.toNat_lt
  have hb := b.toNat_lt
  have hc := c.toNat_lt
  have hd := d.toNat_lt
  have hshift : ∀ (x : UInt8) (i : Nat), i ≤ 24 →
      (x.toUInt32 <<< UInt32.ofNat i).toNat = x.toNat * 2 ^ i := by
    intro x i hi
    have hx := x.toNat_lt
    have hi' : (UInt32.ofNat i).toNat % 32 = i := by
      rw [UInt32.toNat_ofNat_of_lt' (Nat.lt_of_le_of_lt hi (by decide))]
      omega
    rw [UInt32.toNat_shiftLeft, hi', UInt8.toNat_toUInt32, Nat.shiftLeft_eq]
    refine Nat.mod_eq_of_lt ?_
    calc x.toNat * 2 ^ i ≤ x.toNat * 2 ^ 24 := Nat.mul_le_mul_left _ (Nat.pow_le_pow_right (by decide) hi)
      _ < 2 ^ 32 := by omega
  have h24 := hshift a 24 (by decide)
  have h16 := hshift b 16 (by decide)
  have h8 := hshift c 8 (by decide)
  have h0 := hshift d 0 (by decide)
  have hab := toNat_or (i := 24) h24 (by rw [h16]; omega)
  have habc := toNat_or (n := a.toNat * 2 ^ 8 + b.toNat) (i := 16) (by rw [hab, h16]; omega)
    (by rw [h8]; omega)
  have habcd := toNat_or (n := a.toNat * 2 ^ 16 + b.toNat * 2 ^ 8 + c.toNat) (i := 8)
    (by rw [habc, h8]; omega) (by rw [h0]; omega)
  exact habcd.trans (by rw [h0]; omega)

theorem quad_of (val : UInt32) : quad ((val >>> 24) &&& 0xFF).toUInt8
    ((val >>> 16) &&& 0xFF).toUInt8 ((val >>> 8) &&& 0xFF).toUInt8
    ((val >>> 0) &&& 0xFF).toUInt8 = val := by
  have hval := val.toNat_lt
  rw [← UInt32.toNat_inj, toNat_quad]
  simp only [UInt32.toNat_toUInt8, UInt32.toNat_shiftRight, UInt32.toNat_and,
    UInt32.reduceToNat, Nat.reduceMod, Nat.reducePow, and_byte, Nat.shiftRight_eq_div_pow]
  omega

/-- Two bytes are read as one number. -/
theorem inverts_word (hi lo : UInt8) :
    Inverts (write hi >>= fun _ => write lo) readU16 (word hi lo) :=
  (inverts_write hi).bind fun _ => (inverts_write lo).map rfl

theorem inverts_writeU16 (val : UInt16) : Inverts (writeU16 val) readU16 val := by
  have hword := inverts_word (val >>> 8).toUInt8 (val &&& 0xFF).toUInt8
  rwa [word_of] at hword

/-- Four bytes are read as one number. -/
theorem inverts_quad {β : Type} (a b c : UInt8) {d : UInt8} {w : Reader β}
    (hd : Inverts w read d) :
    Inverts (write a >>= fun _ => write b >>= fun _ => write c >>= fun _ => w) readU32
      (quad a b c d) :=
  (inverts_write a).bind fun _ => (inverts_write b).bind fun _ => (inverts_write c).bind fun _ =>
    hd.map rfl

theorem inverts_writeU32 (val : UInt32) : Inverts (writeU32 val) readU32 val := by
  have hquad := inverts_quad ((val >>> 24) &&& 0xFF).toUInt8 ((val >>> 16) &&& 0xFF).toUInt8
    ((val >>> 8) &&& 0xFF).toUInt8 (inverts_write ((val >>> 0) &&& 0xFF).toUInt8)
  rwa [quad_of] at hquad

theorem bytes_word (hi lo : UInt8) :
    (word hi lo >>> 8).toUInt8 = hi ∧ (word hi lo &&& 0xFF).toUInt8 = lo := by
  have hhi := hi.toNat_lt
  have hlo := lo.toNat_lt
  have hword : (word hi lo).toNat = hi.toNat * 256 + lo.toNat := toNat_word hi lo
  simp only [← UInt8.toNat_inj, UInt16.toNat_toUInt8, UInt16.toNat_shiftRight, UInt16.toNat_and,
    UInt16.reduceToNat, Nat.reduceMod, Nat.reducePow, and_byte, Nat.shiftRight_eq_div_pow, hword]
  omega

/-! ## Addresses -/

theorem ipv4Of_quad (a b c d : UInt8) : DnsRecord.ipv4Of (quad a b c d) = ⟨a, b, c, d⟩ := by
  have ha := a.toNat_lt
  have hb := b.toNat_lt
  have hc := c.toNat_lt
  have hd := d.toNat_lt
  have hquad := toNat_quad a b c d
  simp only [DnsRecord.ipv4Of, Ipv4Addr.mk.injEq, ← UInt8.toNat_inj, UInt32.toNat_toUInt8,
    UInt32.toNat_shiftRight, UInt32.toNat_and, UInt32.reduceToNat, Nat.reduceMod, Nat.reducePow,
    and_byte, Nat.shiftRight_eq_div_pow, hquad]
  omega

theorem halves_quad (a b c d : UInt8) : DnsRecord.highHalf (quad a b c d) = word a b ∧
    DnsRecord.lowHalf (quad a b c d) = word c d := by
  have ha := a.toNat_lt
  have hb := b.toNat_lt
  have hc := c.toNat_lt
  have hd := d.toNat_lt
  have hquad := toNat_quad a b c d
  simp only [DnsRecord.highHalf, DnsRecord.lowHalf, ← UInt16.toNat_inj, word, toNat_word,
    UInt32.toNat_toUInt16, UInt32.toNat_shiftRight, UInt32.toNat_and, UInt32.reduceToNat,
    Nat.reduceMod, Nat.reducePow, and_word, Nat.shiftRight_eq_div_pow, hquad]
  omega

theorem inverts_octets {α : Type} (g : Ipv4Addr → α) (addr : Ipv4Addr) :
    Inverts (Reader.each writeU8 addr.octets)
      (readU32 >>= fun raw => pure (g (DnsRecord.ipv4Of raw))) (g addr) :=
  (inverts_quad addr.a addr.b addr.c ((inverts_write addr.d).ret fun _ => ())).map
    (congrArg g (ipv4Of_quad addr.a addr.b addr.c addr.d))

/-- Two numbers of two bytes are read as one of four bytes. -/
theorem inverts_halves (hi lo : UInt16) : ∃ raw, DnsRecord.highHalf raw = hi ∧
    DnsRecord.lowHalf raw = lo ∧ Inverts (writeU16 hi >>= fun _ => writeU16 lo) readU32 raw := by
  obtain ⟨hhigh, hlow⟩ := halves_quad (hi >>> 8).toUInt8 (hi &&& 0xFF).toUInt8
    (lo >>> 8).toUInt8 (lo &&& 0xFF).toUInt8
  rw [word_of] at hhigh hlow
  refine ⟨_, hhigh, hlow, ?_⟩
  have hquad := inverts_quad (hi >>> 8).toUInt8 (hi &&& 0xFF).toUInt8 (lo >>> 8).toUInt8
    (inverts_write (lo &&& 0xFF).toUInt8)
  rw [← Reader.bind_assoc] at hquad
  exact hquad

theorem inverts_segments {α : Type} (k : Ipv6Addr → α) (addr : Ipv6Addr) :
    Inverts (Reader.each writeU16 addr.segments)
      (do
        let r1 ← readU32
        let r2 ← readU32
        let r3 ← readU32
        let r4 ← readU32
        pure (k ⟨DnsRecord.highHalf r1, DnsRecord.lowHalf r1, DnsRecord.highHalf r2,
          DnsRecord.lowHalf r2, DnsRecord.highHalf r3, DnsRecord.lowHalf r3,
          DnsRecord.highHalf r4, DnsRecord.lowHalf r4⟩)) (k addr) := by
  obtain ⟨r1, ha, hb, hr1⟩ := inverts_halves addr.a addr.b
  obtain ⟨r2, hc, hd, hr2⟩ := inverts_halves addr.c addr.d
  obtain ⟨r3, he, hf, hr3⟩ := inverts_halves addr.e addr.f
  obtain ⟨r4, hg, hh, hr4⟩ := inverts_halves addr.g addr.h
  refine hr1.pair (hr2.pair (hr3.pair (hr4.pair ?_)))
  rw [ha, hb, hc, hd, he, hf, hg, hh]
  exact .pure () (k addr)

end BytePacketBuffer

end LproxyCv.Dns
