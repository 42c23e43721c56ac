import LproxyCv.Foundation.Bytes

set_option autoImplicit false

/-!
# Dns: the text of a label

`String::from_utf8_lossy` and `str::to_lowercase` of the standard library.  The
lower case of a letter outside ASCII, which may depend on the letters around it,
is the Unicode table of the library; it is a parameter here.
-/

namespace LproxyCv.Dns

open LproxyCv.Foundation

/-- The lower case of a letter outside ASCII, between the letters around it. -/
abbrev UnicodeLower : Type := List Char → Char → List Char → List Char

/-- A byte that continues a character. -/
def isContinuation (b : UInt8) : Bool := 0x80 ≤ b && b ≤ 0xBF

/-- How many bytes a character takes that starts with this byte; none for a byte
that starts no character. -/
def charWidth (b : UInt8) : Nat :=
  if b < 0x80 then 1
  else if 0xC2 ≤ b && b ≤ 0xDF then 2
  else if 0xE0 ≤ b && b ≤ 0xEF then 3
  else if 0xF0 ≤ b && b ≤ 0xF4 then 4
  else 0

/-- Whether the second byte of a character can follow its first. -/
def secondFits (b c : UInt8) : Bool :=
  if b = 0xE0 then 0xA0 ≤ c && c ≤ 0xBF
  else if b = 0xED then 0x80 ≤ c && c ≤ 0x9F
  else if b = 0xF0 then 0x90 ≤ c && c ≤ 0xBF
  else if b = 0xF4 then 0x80 ≤ c && c ≤ 0x8F
  else isContinuation c

/-- The bits of a continuation byte, behind those before it. -/
def continued (acc : Nat) (b : UInt8) : Nat := acc * 64 + b.toNat % 64

/-- What stands for bytes that are no character. -/
def replacement : Char := Char.ofNat 0xFFFD

/-- The first character of a text, and how many bytes it takes.  Bytes that start
a character but do not finish it are replaced together. -/
def decodeChar (b : UInt8) (rest : Bytes) : Char × Nat :=
  match charWidth b, rest with
  | 1, _ => (Char.ofNat b.toNat, 1)
  | 2, c :: _ =>
      if secondFits b c then (Char.ofNat (continued (b.toNat % 32) c), 2) else (replacement, 1)
  | 3, c :: rest =>
      if secondFits b c then
        match rest with
        | d :: _ =>
            if isContinuation d then
              (Char.ofNat (continued (continued (b.toNat % 16) c) d), 3)
            else (replacement, 2)
        | [] => (replacement, 2)
      else (replacement, 1)
  | 4, c :: rest =>
      if secondFits b c then
        match rest with
        | d :: rest =>
            if isContinuation d then
              match rest with
              | e :: _ =>
                  if isContinuation e then
                    (Char.ofNat (continued (continued (continued (b.toNat % 8) c) d) e), 4)
                  else (replacement, 3)
              | [] => (replacement, 3)
            else (replacement, 2)
        | [] => (replacement, 2)
      else (replacement, 1)
  | _, _ => (replacement, 1)

/-- The characters of a text of at most `fuel` bytes. -/
def decodeLossy : Nat → Bytes → List Char
  | 0, _ => []
  | _ + 1, [] => []
  | fuel + 1, b :: rest =>
      let r := decodeChar b rest
      r.1 :: decodeLossy fuel (rest.drop (r.2 - 1))

/-- Read bytes as UTF-8, with a replacement character for what is none. -/
def fromUtf8Lossy (bs : Bytes) : String := String.ofList (decodeLossy bs.length bs)

/-- Lower the letters behind those that were already seen. -/
def lowerFrom (unicode : UnicodeLower) (seen : List Char) : List Char → List Char
  | [] => []
  | c :: rest =>
      (if c.toNat < 128 then [c.toLower] else unicode seen c rest) ++
        lowerFrom unicode (seen ++ [c]) rest

/-- The lower case of a text. -/
def toLowercase (unicode : UnicodeLower) (s : String) : String :=
  String.ofList (lowerFrom unicode [] s.toList)

end LproxyCv.Dns
