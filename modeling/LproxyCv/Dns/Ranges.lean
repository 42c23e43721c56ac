import LproxyCv.Dns.Letters

set_option autoImplicit false

/-!
# Dns: ranges of addresses

A configured domain may be an address, or a range of them, instead.  The parsers of numbers
and of addresses are those of the standard library.
-/

namespace LproxyCv.Dns

open LproxyCv.Net

/-- The digit of a character. -/
def digitOf (c : Char) : Option Nat :=
  if 48 ≤ c.toNat ∧ c.toNat ≤ 57 then some (c.toNat - 48) else none

/-- The number behind those digits that were already read, as long as it fits into a byte. -/
def parseDigits (acc : Nat) : List Char → Option UInt8
  | [] => some (UInt8.ofNat acc)
  | c :: rest => do
      let d ← digitOf c
      if 255 < acc * 10 + d then none else parseDigits (acc * 10 + d) rest

/-- A number of a byte, which may have a plus sign. -/
def parseU8 (s : List Char) : Option UInt8 :=
  let digits := if s.head? = some '+' then s.tail else s
  if digits = [] then none else parseDigits 0 digits

/-- A number of an address: up to three digits, and no zero in front. -/
def parseOctet (s : List Char) : Option UInt8 :=
  if s.length = 0 ∨ 3 < s.length then none
  else if 1 < s.length ∧ s.head? = some '0' then none
  else parseDigits 0 s

/-- An address. -/
def parseIpv4 (s : List Char) : Option Ipv4Addr :=
  match s.splitOn '.' with
  | [a, b, c, d] => do
      let a ← parseOctet a
      let b ← parseOctet b
      let c ← parseOctet c
      let d ← parseOctet d
      some ⟨a, b, c, d⟩
  | _ => none

/-- A range of addresses: those that agree in the first bits. -/
structure IPV4range where
  addr : Ipv4Addr
  mask : UInt8
  deriving DecidableEq, Repr

/-- The range that a text is: what is behind its second slash does not matter. -/
def ipv4rangeParse (ipstr : String) : Option IPV4range :=
  match ipstr.toList.splitOn '/' with
  | [] => none
  | [iponly] => do
      let mask ← parseU8 ['3', '2']
      let ip ← parseIpv4 iponly
      some ⟨ip, mask⟩
  | iponly :: mask :: _ => do
      let mask ← parseU8 mask
      let ip ← parseIpv4 iponly
      some ⟨ip, mask⟩

/-! ## The case of letters -/

theorem digitOf_toLower (c : Char) : digitOf c.toLower = digitOf c := by
  unfold digitOf
  rw [toNat_toLower]
  by_cases hupper : 65 ≤ c.toNat ∧ c.toNat ≤ 90
  · rw [if_pos hupper, if_neg (by omega), if_neg (by omega)]
  · rw [if_neg hupper]

theorem parseDigits_map (acc : Nat) (s : List Char) :
    parseDigits acc (s.map Char.toLower) = parseDigits acc s := by
  induction s generalizing acc with
  | nil => rfl
  | cons c s ih => simp only [List.map_cons, parseDigits, digitOf_toLower, ih]

theorem head_map_iff {x : Char} (h : ¬ IsLetter x) (s : List Char) :
    (s.map Char.toLower).head? = some x ↔ s.head? = some x := by
  cases s with
  | nil => simp
  | cons c s => simpa using fixes_toLower h c

theorem parseU8_map (s : List Char) : parseU8 (s.map Char.toLower) = parseU8 s := by
  have hdigits : (if (s.map Char.toLower).head? = some '+' then (s.map Char.toLower).tail
      else s.map Char.toLower) =
        (if s.head? = some '+' then s.tail else s).map Char.toLower := by
    simp only [head_map_iff (show ¬ IsLetter '+' by decide), ← List.map_tail]
    split <;> rfl
  unfold parseU8
  simp only [hdigits, List.map_eq_nil_iff, parseDigits_map]

theorem parseOctet_map (s : List Char) : parseOctet (s.map Char.toLower) = parseOctet s := by
  unfold parseOctet
  simp only [List.length_map, head_map_iff (show ¬ IsLetter '0' by decide), parseDigits_map]

theorem parseIpv4_map (s : List Char) : parseIpv4 (s.map Char.toLower) = parseIpv4 s := by
  unfold parseIpv4
  rw [splitOn_map (fixes_toLower (by decide))]
  match s.splitOn '.' with
  | [] => rfl
  | [_] => rfl
  | [_, _] => rfl
  | [_, _, _] => rfl
  | [_, _, _, _] => simp only [List.map_cons, List.map_nil, parseOctet_map]
  | _ :: _ :: _ :: _ :: _ :: _ => rfl

/-- Whether a text is a range does not depend on the case of its letters. -/
theorem SameLetters.ipv4rangeParse_eq {s t : String} (h : SameLetters s t) :
    ipv4rangeParse s = ipv4rangeParse t := by
  have hfold : ∀ u : String, ipv4rangeParse (foldCase u) = ipv4rangeParse u := by
    intro u
    unfold ipv4rangeParse foldCase
    rw [toList_mapChars, splitOn_map (fixes_toLower (by decide))]
    match u.toList.splitOn '/' with
    | [] => rfl
    | [_] => simp only [List.map_cons, List.map_nil, parseIpv4_map]
    | _ :: _ :: _ => simp only [List.map_cons, parseIpv4_map, parseU8_map]
  rw [← hfold s, ← hfold t, h]

end LproxyCv.Dns
