import LproxyCv.Foundation.Decimal

set_option autoImplicit false

/-!
# Foundation: JSON texts

A reader of JSON by the grammar of the format, and what it makes of a text that was put
together from quoted strings with nothing escaped.  The fields of an object are kept in the
order of the text, each as often as it stands there.

Every function that recurses has fuel.  A reader that succeeds needs no more of it than the
characters it takes (`Settled`), so `parse`, which starts with one more than the text has,
never runs out (`parse_eq_some_iff`).
-/

namespace LproxyCv.Foundation

/-- A JSON value.  A number is the text of it. -/
inductive Json where
  | null
  | bool (b : Bool)
  | number (text : String)
  | string (s : String)
  | array (vs : List Json)
  | object (fields : List (String × Json))

namespace Json

/-- A reader: what it reads, and the text that is left. -/
abbrev Scan (α : Type) : Type := List Char → Option (α × List Char)

/-! ## Tokens -/

/-- What separates tokens. -/
def isSpace (c : Char) : Bool := c = ' ' || c = '\t' || c = '\n' || c = '\r'

/-- The text from its first token on. -/
def skipSpace (text : List Char) : List Char := text.dropWhile isSpace

/-- The text behind a token of one character. -/
def expect (token : Char) (text : List Char) : Option (List Char) :=
  match skipSpace text with
  | [] => none
  | c :: text => if c = token then some text else none

/-! ## Strings -/

/-- The value of four hexadecimal digits. -/
def hex4 : Scan Nat
  | a :: b :: c :: d :: text => do
    let a ← hexDigit a
    let b ← hexDigit b
    let c ← hexDigit c
    let d ← hexDigit d
    some (((a * 16 + b) * 16 + c) * 16 + d, text)
  | _ => none

/-- The second half of a surrogate pair, and the pair's character. -/
def lowSurrogate (high : Nat) : Scan Char
  | s :: u :: text =>
    if s = '\\' ∧ u = 'u' then
      (hex4 text).bind fun low =>
        if 0xDC00 ≤ low.1 ∧ low.1 < 0xE000 then
          some (Char.ofNat (0x10000 + (high - 0xD800) * 0x400 + (low.1 - 0xDC00)), low.2)
        else none
    else none
  | _ => none

/-- The character of an escape by number, behind the `u`. -/
def unicodeEscape (text : List Char) : Option (Char × List Char) :=
  (hex4 text).bind fun n =>
    if 0xD800 ≤ n.1 ∧ n.1 < 0xDC00 then lowSurrogate n.1 n.2
    else if 0xDC00 ≤ n.1 ∧ n.1 < 0xE000 then none
    else some (Char.ofNat n.1, n.2)

/-- The character of an escape of two characters. -/
def simpleEscape (c : Char) : Option Char :=
  if c = '"' ∨ c = '\\' ∨ c = '/' then some c
  else if c = 'b' then some '\x08'
  else if c = 'f' then some '\x0c'
  else if c = 'n' then some '\n'
  else if c = 'r' then some '\r'
  else if c = 't' then some '\t'
  else none

/-- The character of an escape, behind the backslash. -/
def readEscape : Scan Char
  | [] => none
  | c :: text =>
    match simpleEscape c with
    | some d => some (d, text)
    | none => if c = 'u' then unicodeEscape text else none

/-- The characters up to the closing quote.  A control character has to be escaped. -/
def scanString : Nat → Scan (List Char)
  | 0, _ => none
  | _ + 1, [] => none
  | n + 1, c :: text =>
    if c = '"' then some ([], text)
    else if c = '\\' then
      (readEscape text).bind fun e => (scanString n e.2).map fun s => (e.1 :: s.1, s.2)
    else if c.toNat < 0x20 then none
    else (scanString n text).map fun s => (c :: s.1, s.2)

/-! ## Numbers and names -/

/-- The text behind some digits. -/
def skipDigits (text : List Char) : Option (List Char) :=
  if text.head?.any Char.isDigit then some (text.dropWhile Char.isDigit) else none

/-- The text behind the sign, if there is one of these. -/
def skipSign (signs : List Char) : List Char → List Char
  | [] => []
  | c :: text => if c ∈ signs then text else c :: text

/-- The text behind the integer part. -/
def skipInt : List Char → Option (List Char)
  | [] => none
  | c :: text => if c = '0' then some text else skipDigits (c :: text)

/-- The text behind the fraction, if there is one. -/
def skipFrac : List Char → Option (List Char)
  | [] => some []
  | c :: text => if c = '.' then skipDigits text else some (c :: text)

/-- The text behind the exponent, if there is one. -/
def skipExp : List Char → Option (List Char)
  | [] => some []
  | c :: text =>
    if c = 'e' ∨ c = 'E' then skipDigits (skipSign ['+', '-'] text) else some (c :: text)

/-- A number. -/
def readNumber (text : List Char) : Option (Json × List Char) := do
  let rest ← skipInt (skipSign ['-'] text)
  let rest ← skipFrac rest
  let rest ← skipExp rest
  some (.number (String.ofList (text.take (text.length - rest.length))), rest)

/-- The value of a name. -/
def word (name : List Char) (v : Json) (text : List Char) : Option (Json × List Char) :=
  if name <+: text then some (v, text.drop name.length) else none

/-- A value that is no string and holds no others. -/
def atom (text : List Char) : Option (Json × List Char) :=
  (word ['n', 'u', 'l', 'l'] .null text).or <|
    (word ['t', 'r', 'u', 'e'] (.bool true) text).or <|
      (word ['f', 'a', 'l', 's', 'e'] (.bool false) text).or (readNumber text)

/-! ## Values -/

/-- What is between brackets: nothing, or items. -/
def bracketed {α : Type} (close : Char) (items : Scan (List α)) : Scan (List α) := fun text =>
  match expect close text with
  | some text => some ([], text)
  | none => items text

/-- What follows an item: a comma and items, or the closing bracket. -/
def more {α : Type} (close : Char) (items : Scan (List α)) : Scan (List α) := fun text =>
  match expect ',' text with
  | some text => items text
  | none => (expect close text).map fun text => ([], text)

mutual

/-- A value. -/
def value : Nat → Scan Json
  | 0, _ => none
  | n + 1, text =>
    match skipSpace text with
    | [] => none
    | c :: text =>
      if c = '"' then (scanString n text).map fun s => (.string (String.ofList s.1), s.2)
      else if c = '\x7b' then (bracketed '\x7d' (members n) text).map fun s => (.object s.1, s.2)
      else if c = '[' then (bracketed ']' (elements n) text).map fun s => (.array s.1, s.2)
      else atom (c :: text)

/-- The fields of an object, up to the closing bracket. -/
def members : Nat → Scan (List (String × Json))
  | 0, _ => none
  | n + 1, text => do
    let key ← (expect '"' text).bind (scanString n)
    let v ← (expect ':' key.2).bind (value n)
    let vs ← more '\x7d' (members n) v.2
    some ((String.ofList key.1, v.1) :: vs.1, vs.2)

/-- The elements of an array, up to the closing bracket. -/
def elements : Nat → Scan (List Json)
  | 0, _ => none
  | n + 1, text => do
    let v ← value n text
    let vs ← more ']' (elements n) v.2
    some (v.1 :: vs.1, vs.2)

end

/-- The value that a text is, with nothing but space around it. -/
def parse (s : String) : Option Json :=
  (value (s.toList.length + 1) s.toList).bind fun v =>
    if skipSpace v.2 = [] then some v.1 else none

/-! ## What an escape takes -/

/-- A quote alone, or some characters that are no quotes. -/
def EscapeText (taken : List Char) : Prop := taken = ['"'] ∨ (taken ≠ [] ∧ '"' ∉ taken)

theorem EscapeText.ne_nil {taken : List Char} (h : EscapeText taken) : taken ≠ [] := by
  rcases h with rfl | h
  · exact List.cons_ne_nil _ _
  · exact h.1

theorem ne_quote_of_hexDigit {c : Char} {n : Nat} (h : hexDigit c = some n) : '"' ≠ c := by
  rintro rfl
  cases h

/-- Four digits are taken, and none of them is a quote. -/
theorem hex4_eq_some {text rest : List Char} {n : Nat} (h : hex4 text = some (n, rest)) :
    ∃ taken, text = taken ++ rest ∧ '"' ∉ taken := by
  unfold hex4 at h
  split at h
  · rename_i a b c d text'
    simp only [Option.bind_eq_bind, Option.bind_eq_some_iff, Option.some.injEq,
      Prod.mk.injEq] at h
    obtain ⟨_, ha, _, hb, _, hc, _, hd, _, rfl⟩ := h
    refine ⟨[a, b, c, d], rfl, ?_⟩
    simp only [List.mem_cons, List.not_mem_nil, or_false, not_or]
    exact ⟨ne_quote_of_hexDigit ha, ne_quote_of_hexDigit hb, ne_quote_of_hexDigit hc,
      ne_quote_of_hexDigit hd⟩
  · cases h

theorem lowSurrogate_eq_some {high : Nat} {text rest : List Char} {e : Char}
    (h : lowSurrogate high text = some (e, rest)) :
    ∃ taken, text = taken ++ rest ∧ '"' ∉ taken := by
  unfold lowSurrogate at h
  split at h
  · split at h
    · rename_i hsu
      obtain ⟨rfl, rfl⟩ := hsu
      obtain ⟨low, hlow, hpair⟩ := Option.bind_eq_some_iff.mp h
      obtain ⟨taken, rfl, htaken⟩ := hex4_eq_some hlow
      split at hpair
      · simp only [Option.some.injEq, Prod.mk.injEq] at hpair
        obtain ⟨_, rfl⟩ := hpair
        exact ⟨'\\' :: 'u' :: taken, rfl, by simp [htaken]⟩
      · cases hpair
    · cases h
  · cases h

theorem unicodeEscape_eq_some {text rest : List Char} {e : Char}
    (h : unicodeEscape text = some (e, rest)) :
    ∃ taken, text = taken ++ rest ∧ '"' ∉ taken := by
  obtain ⟨n, hn, hchar⟩ := Option.bind_eq_some_iff.mp h
  obtain ⟨taken, htext, htaken⟩ := hex4_eq_some hn
  split at hchar
  · obtain ⟨taken', hrest, htaken'⟩ := lowSurrogate_eq_some hchar
    exact ⟨taken ++ taken', by rw [htext, hrest, List.append_assoc], by simp [htaken, htaken']⟩
  · split at hchar
    · cases hchar
    · cases hchar
      exact ⟨taken, htext, htaken⟩

theorem readEscape_eq_some {text rest : List Char} {e : Char}
    (h : readEscape text = some (e, rest)) : ∃ taken, text = taken ++ rest ∧ EscapeText taken := by
  unfold readEscape at h
  split at h
  · cases h
  · rename_i c text'
    split at h
    · cases h
      rcases eq_or_ne c '"' with rfl | hc
      · exact ⟨['"'], rfl, .inl rfl⟩
      · exact ⟨[c], rfl, .inr ⟨List.cons_ne_nil _ _, by simpa using hc.symm⟩⟩
    · split at h
      · rename_i hu
        obtain ⟨taken, rfl, htaken⟩ := unicodeEscape_eq_some h
        exact ⟨c :: taken, rfl, .inr ⟨List.cons_ne_nil _ _, by simp [hu, htaken]⟩⟩
      · cases h

/-! ## Enough fuel

A reader that succeeds with some fuel takes at least one character, and succeeds in the same
way with any fuel that is not below the characters it takes. -/

/-- What a reader reads with this fuel it reads with as much fuel as it takes characters. -/
def SettledAt {α : Type} (p : Nat → Scan α) (n : Nat) : Prop :=
  ∀ text x rest, p n text = some (x, rest) →
    rest.length < text.length ∧
      ∀ m, text.length ≤ m + rest.length → p m text = some (x, rest)

theorem length_skipSpace_le (text : List Char) : (skipSpace text).length ≤ text.length :=
  (List.dropWhile_sublist _).length_le

theorem length_lt_of_expect {c : Char} {text rest : List Char} (h : expect c text = some rest) :
    rest.length < text.length := by
  have hle := length_skipSpace_le text
  unfold expect at h
  split at h
  · cases h
  · rename_i htext
    split at h
    · cases h
      rw [htext] at hle
      exact hle
    · cases h

theorem scanString_settled (n : Nat) : SettledAt scanString n := by
  induction n with
  | zero =>
    intro text x rest h
    cases h
  | succ n ih =>
    intro text x rest h
    cases text with
    | nil => cases h
    | cons c text =>
      unfold scanString at h
      split at h
      · rename_i hquote
        cases h
        refine ⟨by simp, fun m hm => ?_⟩
        obtain _ | m := m
        · rw [List.length_cons] at hm
          omega
        · simp [scanString, hquote]
      · rename_i hquote
        split at h
        · rename_i hslash
          obtain ⟨e, he, h⟩ := Option.bind_eq_some_iff.mp h
          obtain ⟨s, hs, h⟩ := Option.map_eq_some_iff.mp h
          cases h
          obtain ⟨hlt, hfuel⟩ := ih _ _ _ hs
          obtain ⟨taken, htext, _⟩ := readEscape_eq_some he
          have hlen := congrArg List.length htext
          rw [List.length_append] at hlen
          refine ⟨by simp only [List.length_cons]; omega, fun m hm => ?_⟩
          rw [List.length_cons] at hm
          obtain _ | m := m
          · omega
          · simp [scanString, hslash, he, hfuel m (by omega)]
        · rename_i hslash
          split at h
          · cases h
          · rename_i hcontrol
            obtain ⟨s, hs, h⟩ := Option.map_eq_some_iff.mp h
            cases h
            obtain ⟨hlt, hfuel⟩ := ih _ _ _ hs
            refine ⟨by simp only [List.length_cons]; omega, fun m hm => ?_⟩
            rw [List.length_cons] at hm
            obtain _ | m := m
            · omega
            · simp only [scanString, hquote, hslash, hcontrol, if_false, hfuel m (by omega),
                Option.map_some]

theorem length_lt_of_skipDigits {text rest : List Char} (h : skipDigits text = some rest) :
    rest.length < text.length := by
  unfold skipDigits at h
  split at h
  · rename_i hhead
    cases h
    cases text with
    | nil => cases hhead
    | cons c text =>
      have hdigit : c.isDigit = true := by simpa using hhead
      rw [List.dropWhile_cons_of_pos hdigit, List.length_cons]
      exact Nat.lt_succ_of_le (List.dropWhile_sublist _).length_le
  · cases h

theorem length_skipSign_le (signs text : List Char) :
    (skipSign signs text).length ≤ text.length := by
  unfold skipSign
  split
  · exact Nat.le_refl _
  · split <;> simp

theorem length_lt_of_skipInt {text rest : List Char} (h : skipInt text = some rest) :
    rest.length < text.length := by
  unfold skipInt at h
  split at h
  · cases h
  · split at h
    · cases h
      exact Nat.lt_succ_self _
    · exact length_lt_of_skipDigits h

theorem length_le_of_skipFrac {text rest : List Char} (h : skipFrac text = some rest) :
    rest.length ≤ text.length := by
  unfold skipFrac at h
  split at h
  · cases h
    exact Nat.le_refl _
  · split at h
    · exact Nat.le_succ_of_le (Nat.le_of_lt (length_lt_of_skipDigits h))
    · cases h
      exact Nat.le_refl _

theorem length_le_of_skipExp {text rest : List Char} (h : skipExp text = some rest) :
    rest.length ≤ text.length := by
  unfold skipExp at h
  split at h
  · cases h
    exact Nat.le_refl _
  · split at h
    · have hlt := length_lt_of_skipDigits h
      exact Nat.le_succ_of_le (Nat.le_trans (Nat.le_of_lt hlt) (length_skipSign_le _ _))
    · cases h
      exact Nat.le_refl _

theorem length_lt_of_readNumber {text rest : List Char} {v : Json}
    (h : readNumber text = some (v, rest)) : rest.length < text.length := by
  simp only [readNumber, Option.bind_eq_bind, Option.bind_eq_some_iff, Option.some.injEq,
    Prod.mk.injEq] at h
  obtain ⟨_, hint, _, hfrac, _, hexp, _, rfl⟩ := h
  have hsign := length_skipSign_le ['-'] text
  have hlt := length_lt_of_skipInt hint
  have hle := Nat.le_trans (length_le_of_skipExp hexp) (length_le_of_skipFrac hfrac)
  omega

theorem length_lt_of_word {name text rest : List Char} {v v' : Json} (hname : name ≠ [])
    (h : word name v text = some (v', rest)) : rest.length < text.length := by
  unfold word at h
  split at h
  · rename_i hprefix
    cases h
    have hle := hprefix.length_le
    have hpos := List.length_pos_iff.mpr hname
    rw [List.length_drop]
    omega
  · cases h

theorem length_lt_of_atom {text rest : List Char} {v : Json} (h : atom text = some (v, rest)) :
    rest.length < text.length := by
  simp only [atom, Option.or_eq_some_iff] at h
  obtain h | ⟨_, h | ⟨_, h | ⟨_, h⟩⟩⟩ := h
  · exact length_lt_of_word (List.cons_ne_nil _ _) h
  · exact length_lt_of_word (List.cons_ne_nil _ _) h
  · exact length_lt_of_word (List.cons_ne_nil _ _) h
  · exact length_lt_of_readNumber h

/-- Brackets settle when the items between them do. -/
theorem SettledAt.bracketed {α : Type} {p : Nat → Scan (List α)} {n : Nat} (h : SettledAt p n)
    (close : Char) : SettledAt (fun n => bracketed close (p n)) n := by
  intro text x rest hread
  simp only [Json.bracketed] at hread ⊢
  split at hread
  · rename_i hclose
    cases hread
    exact ⟨length_lt_of_expect hclose, fun m _ => rfl⟩
  · rename_i hclose
    obtain ⟨hlt, hfuel⟩ := h _ _ _ hread
    exact ⟨hlt, hfuel⟩

theorem SettledAt.more {α : Type} {p : Nat → Scan (List α)} {n : Nat} (h : SettledAt p n)
    (close : Char) : SettledAt (fun n => more close (p n)) n := by
  intro text x rest hread
  simp only [Json.more] at hread ⊢
  split at hread
  · rename_i hcomma
    obtain ⟨hlt, hfuel⟩ := h _ _ _ hread
    have hstep := length_lt_of_expect hcomma
    exact ⟨Nat.lt_trans hlt hstep, fun m hm => hfuel m (by omega)⟩
  · rename_i hcomma
    obtain ⟨text', hclose, hend⟩ := Option.map_eq_some_iff.mp hread
    cases hend
    exact ⟨length_lt_of_expect hclose, fun m _ => by simp only [hclose, Option.map_some]⟩

theorem SettledAt.map {α β : Type} {p : Nat → Scan α} {n : Nat} (h : SettledAt p n)
    (f : α → β) : SettledAt (fun n text => (p n text).map fun s => (f s.1, s.2)) n := by
  intro text x rest hread
  obtain ⟨s, hs, hx⟩ := Option.map_eq_some_iff.mp hread
  cases hx
  obtain ⟨hlt, hfuel⟩ := h _ _ _ hs
  exact ⟨hlt, fun m hm => by simp only [hfuel m hm, Option.map_some]⟩

/-- What reads by another reader, behind a character. -/
theorem SettledAt.behind {α : Type} {p q : Nat → Scan α} {n : Nat} (h : SettledAt p n)
    {text text' rest : List Char} {x : α} (htext : text'.length < text.length)
    (heq : ∀ m, q (m + 1) text = p m text') (hread : q (n + 1) text = some (x, rest)) :
    rest.length < text.length ∧
      ∀ m, text.length ≤ m + rest.length → q m text = some (x, rest) := by
  rw [heq] at hread
  obtain ⟨hlt, hfuel⟩ := h _ _ _ hread
  refine ⟨Nat.lt_trans hlt htext, fun m hm => ?_⟩
  obtain _ | m := m
  · omega
  · rw [heq]
    exact hfuel m (by omega)

theorem value_settled {n : Nat} (hmembers : SettledAt members n)
    (helements : SettledAt elements n) : SettledAt value (n + 1) := by
  intro text x rest h
  have hspace := length_skipSpace_le text
  cases htext : skipSpace text with
  | nil => simp [value, htext] at h
  | cons c text' =>
    rw [htext] at hspace
    by_cases hquote : c = '"'
    · exact ((scanString_settled n).map fun s => Json.string (String.ofList s)).behind hspace
        (fun m => by simp [value, htext, hquote]) h
    · by_cases hbrace : c = '\x7b'
      · exact ((hmembers.bracketed '\x7d').map Json.object).behind hspace
          (fun m => by simp [value, htext, hbrace]) h
      · by_cases hbracket : c = '['
        · exact ((helements.bracketed ']').map Json.array).behind hspace
            (fun m => by simp [value, htext, hbracket]) h
        · have hatom : ∀ m, value (m + 1) text = atom (c :: text') := fun m => by
            simp only [value, htext, hquote, hbrace, hbracket, if_false]
          rw [hatom] at h
          have hlt := length_lt_of_atom h
          refine ⟨Nat.lt_of_lt_of_le hlt hspace, fun m hm => ?_⟩
          obtain _ | m := m
          · omega
          · rw [hatom, h]

theorem members_settled {n : Nat} (hvalue : SettledAt value n) (hmembers : SettledAt members n) :
    SettledAt members (n + 1) := by
  intro text x rest h
  simp only [members, Option.bind_eq_bind, Option.bind_eq_some_iff, Option.some.injEq,
    Prod.mk.injEq] at h
  obtain ⟨key, ⟨text₁, hquote, hkey⟩, v, ⟨text₂, hcolon, hv⟩, vs, hvs, rfl, rfl⟩ := h
  have hlt₁ := length_lt_of_expect hquote
  have hlt₂ := length_lt_of_expect hcolon
  obtain ⟨hlt, hfuel⟩ := scanString_settled n _ _ _ hkey
  obtain ⟨hvlt, hvfuel⟩ := hvalue _ _ _ hv
  obtain ⟨hmlt, hmfuel⟩ := hmembers.more _ _ _ _ hvs
  refine ⟨by omega, fun m hm => ?_⟩
  obtain _ | m := m
  · omega
  · simp only [members, hquote, Option.bind_eq_bind, Option.bind_some, hfuel m (by omega), hcolon,
      hvfuel m (by omega), hmfuel m (by omega)]

theorem elements_settled {n : Nat} (hvalue : SettledAt value n)
    (helements : SettledAt elements n) : SettledAt elements (n + 1) := by
  intro text x rest h
  simp only [elements, Option.bind_eq_bind, Option.bind_eq_some_iff, Option.some.injEq,
    Prod.mk.injEq] at h
  obtain ⟨v, hv, vs, hvs, rfl, rfl⟩ := h
  obtain ⟨hvlt, hvfuel⟩ := hvalue _ _ _ hv
  obtain ⟨hlt, hfuel⟩ := helements.more _ _ _ _ hvs
  refine ⟨by omega, fun m hm => ?_⟩
  obtain _ | m := m
  · omega
  · simp only [elements, Option.bind_eq_bind, Option.bind_some, hvfuel m (by omega),
      hfuel m (by omega)]

theorem settled (n : Nat) : SettledAt value n ∧ SettledAt members n ∧ SettledAt elements n := by
  induction n with
  | zero => exact ⟨nofun, nofun, nofun⟩
  | succ n ih =>
    obtain ⟨hvalue, hmembers, helements⟩ := ih
    exact ⟨value_settled hmembers helements, members_settled hvalue hmembers,
      elements_settled hvalue helements⟩

/-- A reader succeeds with some fuel. -/
def Reads {α : Type} (p : Nat → Scan α) (text : List Char) (x : α) (rest : List Char) : Prop :=
  ∃ n, p n text = some (x, rest)

/-- `parse` has the fuel it needs. -/
theorem parse_eq_some_iff {s : String} {v : Json} :
    parse s = some v ↔ ∃ rest, Reads value s.toList v rest ∧ skipSpace rest = [] := by
  unfold parse
  constructor
  · intro h
    obtain ⟨⟨v', rest⟩, hread, h⟩ := Option.bind_eq_some_iff.mp h
    split at h
    · rename_i hend
      cases h
      exact ⟨rest, ⟨_, hread⟩, hend⟩
    · cases h
  · rintro ⟨rest, ⟨n, hread⟩, hend⟩
    have hfuel := ((settled n).1 _ _ _ hread).2 (s.toList.length + 1) (by omega)
    rw [hfuel, Option.bind_some, if_pos hend]

/-- A text that is read up to its end, just when a condition holds. -/
theorem parse_eq_some_iff_of_reads {s : String} {v : Json} {P : Prop}
    (h : ∀ rest, Reads value s.toList v rest ↔ P ∧ rest = []) : parse s = some v ↔ P := by
  rw [parse_eq_some_iff]
  constructor
  · rintro ⟨rest, hread, _⟩
    exact ((h rest).mp hread).1
  · intro hP
    exact ⟨[], (h []).mpr ⟨hP, rfl⟩, rfl⟩

theorem Reads.eventually {α : Type} {p : Nat → Scan α} (hp : ∀ n, SettledAt p n)
    {text rest : List Char} {x : α} (h : Reads p text x rest) (m : Nat)
    (hm : text.length ≤ m) : p m text = some (x, rest) := by
  obtain ⟨n, hn⟩ := h
  exact (hp n _ _ _ hn).2 m (by omega)

theorem Reads.unique {α : Type} {p : Nat → Scan α} (hp : ∀ n, SettledAt p n)
    {text rest rest' : List Char} {x x' : α} (h : Reads p text x rest)
    (h' : Reads p text x' rest') : x = x' ∧ rest = rest' := by
  have heq := (h.eventually hp _ (Nat.le_refl _)).symm.trans (h'.eventually hp _ (Nat.le_refl _))
  exact Prod.mk.inj (Option.some.inj heq)

/-! ## Strings put between quotes -/

/-- A string that stands for itself between quotes: nothing in it has to be escaped. -/
def Plain (s : List Char) : Prop := ∀ c ∈ s, c ≠ '"' ∧ c ≠ '\\' ∧ ¬ c.toNat < 0x20

instance (s : List Char) : Decidable (Plain s) :=
  List.decidableBAll (fun c => c ≠ '"' ∧ c ≠ '\\' ∧ ¬ c.toNat < 0x20) s

/-- What is put behind a string: the next string starts in it, behind something plain, or no
string does. -/
def Follow (text : List Char) : Prop :=
  '"' ∉ text ∨ ∃ sep rest, text = sep ++ '"' :: rest ∧ sep ≠ [] ∧ Plain sep

theorem reads_plain {s : List Char} (h : Plain s) (rest : List Char) :
    Reads scanString (s ++ '"' :: rest) s rest := by
  induction s with
  | nil => exact ⟨1, rfl⟩
  | cons c s ih =>
    obtain ⟨n, hn⟩ := ih fun d hd => h d (List.mem_cons_of_mem _ hd)
    obtain ⟨hquote, hslash, hcontrol⟩ := h c List.mem_cons_self
    refine ⟨n + 1, ?_⟩
    rw [List.cons_append]
    simp only [scanString, hquote, hslash, hcontrol, if_false, hn, Option.map_some]

/-- A string ends with a quote. -/
theorem quote_mem_of_scanString {n : Nat} {text s rest : List Char}
    (h : scanString n text = some (s, rest)) : '"' ∈ text := by
  induction n generalizing text s with
  | zero => cases h
  | succ n ih =>
    cases text with
    | nil => cases h
    | cons c text =>
      unfold scanString at h
      split at h
      · rename_i hquote
        rw [hquote]
        exact List.mem_cons_self
      · refine List.mem_cons_of_mem _ ?_
        split at h
        · obtain ⟨e, he, h⟩ := Option.bind_eq_some_iff.mp h
          obtain ⟨t, ht, h⟩ := Option.map_eq_some_iff.mp h
          cases h
          obtain ⟨taken, htext, _⟩ := readEscape_eq_some he
          rw [htext]
          exact List.mem_append_right _ (ih ht)
        · split at h
          · cases h
          · obtain ⟨t, ht, h⟩ := Option.map_eq_some_iff.mp h
            cases h
            exact ih ht

/-- An escape stays in front of the closing quote, or is the backslash in front of it. -/
theorem escape_within {taken t rest text' : List Char} (htaken : EscapeText taken)
    (h : t ++ '"' :: rest = taken ++ text') :
    (∃ t', t = taken ++ t' ∧ text' = t' ++ '"' :: rest) ∨ t = [] ∧ text' = rest := by
  rcases List.append_eq_append_iff.mp h with ⟨a, ha, hrest⟩ | ⟨t', ht, htext⟩
  · cases a with
    | nil =>
      rw [List.append_nil] at ha
      exact .inl ⟨[], by rw [ha, List.append_nil], hrest.symm⟩
    | cons c a =>
      obtain ⟨rfl, htext⟩ := List.cons.inj hrest
      rcases htaken with htaken | htaken
      · rw [htaken] at ha
        have ht := congrArg List.length ha
        rw [List.length_append, List.length_cons, List.length_cons, List.length_nil] at ht
        have hnil : t = [] := List.eq_nil_of_length_eq_zero (by omega)
        have hanil : a = [] := List.eq_nil_of_length_eq_zero (by omega)
        exact .inr ⟨hnil, by rw [htext, hanil]; rfl⟩
      · exact absurd (ha ▸ List.mem_append_right _ List.mem_cons_self) htaken.2
  · exact .inl ⟨t', ht, htext⟩

/-- A string that ends in a backslash is read as one that ends in something else. -/
def LastLost (t s : List Char) : Prop :=
  ∃ t' s' d, t = t' ++ ['\\'] ∧ s = s' ++ [d] ∧ d ≠ '\\'

theorem LastLost.ne {t s : List Char} (h : LastLost t s) : s ≠ t := by
  obtain ⟨t', s', d, rfl, rfl, hd⟩ := h
  intro heq
  exact hd (List.cons.inj (List.append_inj_right' heq rfl)).1

theorem LastLost.append {t s : List Char} (h : LastLost t s) (taken read : List Char) :
    LastLost (taken ++ t) (read ++ s) := by
  obtain ⟨t', s', d, rfl, rfl, hd⟩ := h
  exact ⟨taken ++ t', read ++ s', d, (List.append_assoc _ _ _).symm,
    (List.append_assoc _ _ _).symm, hd⟩

/-- Behind a closing quote that was escaped away, the string goes on up to the next one. -/
theorem lastLost_of_follow {n : Nat} {rest s text' : List Char} (hrest : Follow rest) (e : Char)
    (h : scanString n rest = some (s, text')) : LastLost ['\\'] (e :: s) := by
  rcases hrest with hnone | ⟨sep, rest', rfl, hsep, hplain⟩
  · exact absurd (quote_mem_of_scanString h) hnone
  · have hread : Reads scanString (sep ++ '"' :: rest') s text' := ⟨n, h⟩
    obtain ⟨rfl, _⟩ := hread.unique scanString_settled (reads_plain hplain rest')
    refine ⟨[], e :: s.dropLast, s.getLast hsep, rfl, ?_, ?_⟩
    · rw [List.cons_append, List.dropLast_concat_getLast]
    · exact (hplain _ (List.getLast_mem hsep)).2.1

/-- What a string between quotes is read as: itself if it is plain, else something shorter,
or something that ends differently. -/
theorem scanString_cases {n : Nat} {t rest s text' : List Char} (hrest : Follow rest)
    (h : scanString n (t ++ '"' :: rest) = some (s, text')) :
    (Plain t ∧ s = t ∧ text' = rest) ∨ s.length < t.length ∨ LastLost t s := by
  induction n generalizing t s with
  | zero => cases h
  | succ n ih =>
    cases t with
    | nil =>
      rw [List.nil_append] at h
      cases h
      exact .inl ⟨nofun, rfl, rfl⟩
    | cons c t =>
      rw [List.cons_append] at h
      unfold scanString at h
      split at h
      · cases h
        exact .inr (.inl (Nat.succ_pos _))
      · rename_i hquote
        split at h
        · rename_i hslash
          obtain ⟨e, he, h⟩ := Option.bind_eq_some_iff.mp h
          obtain ⟨u, hu, h⟩ := Option.map_eq_some_iff.mp h
          cases h
          obtain ⟨taken, htext, htaken⟩ := readEscape_eq_some he
          rcases escape_within htaken htext with ⟨t', rfl, hin⟩ | ⟨rfl, hout⟩
          · -- two characters at least become one
            have hpos := List.length_pos_iff.mpr htaken.ne_nil
            rw [hin] at hu
            simp only [List.length_cons, List.length_append]
            rcases ih hu with ⟨_, hut, _⟩ | hlt | hlast
            · rw [hut]
              exact .inr (.inl (by omega))
            · exact .inr (.inl (by omega))
            · exact .inr (.inr (hlast.append (c :: taken) [e.1]))
          · rw [hout] at hu
            rw [hslash]
            exact .inr (.inr (lastLost_of_follow hrest e.1 hu))
        · rename_i hslash
          split at h
          · cases h
          · rename_i hcontrol
            obtain ⟨u, hu, h⟩ := Option.map_eq_some_iff.mp h
            cases h
            rcases ih hu with ⟨hplain, hut, htext⟩ | hlt | hlast
            · refine .inl ⟨?_, by rw [hut], htext⟩
              exact List.forall_mem_cons.mpr ⟨⟨hquote, hslash, hcontrol⟩, hplain⟩
            · exact .inr (.inl (Nat.succ_lt_succ hlt))
            · exact .inr (.inr (hlast.append [c] [c]))

/-- A string between quotes is read back, up to its own closing quote, just when it is plain. -/
theorem reads_quoted_iff {t rest text' : List Char} (hrest : Follow rest) :
    Reads scanString (t ++ '"' :: rest) t text' ↔ Plain t ∧ text' = rest := by
  constructor
  · rintro ⟨n, h⟩
    rcases scanString_cases hrest h with ⟨hplain, _, htext⟩ | hlt | hlast
    · exact ⟨hplain, htext⟩
    · exact absurd hlt (Nat.lt_irrefl _)
    · exact absurd rfl hlast.ne
  · rintro ⟨hplain, rfl⟩
    exact reads_plain hplain text'

/-! ## Values put together from quoted strings -/

theorem value_settledAt (n : Nat) : SettledAt value n := (settled n).1

theorem more_members_settledAt (n : Nat) : SettledAt (fun n => more '\x7d' (members n)) n :=
  (settled n).2.1.more '\x7d'

theorem more_elements_settledAt (n : Nat) : SettledAt (fun n => more ']' (elements n)) n :=
  (settled n).2.2.more ']'

/-- A reader that is another one behind a character, on a text. -/
theorem reads_behind {α : Type} {p q : Nat → Scan α} {text text' rest : List Char} {x : α}
    (hzero : q 0 text = none) (heq : ∀ n, q (n + 1) text = p n text') :
    Reads q text x rest ↔ Reads p text' x rest := by
  constructor
  · rintro ⟨_ | n, h⟩
    · rw [hzero] at h
      cases h
    · exact ⟨n, (heq n).symm.trans h⟩
  · rintro ⟨n, h⟩
    exact ⟨n + 1, (heq n).trans h⟩

theorem reads_map_iff {α β : Type} {p : Nat → Scan α} {f : α → β} (hf : Function.Injective f)
    {text rest : List Char} {x : α} :
    Reads (fun n text => (p n text).map fun s => (f s.1, s.2)) text (f x) rest ↔
      Reads p text x rest := by
  constructor
  · rintro ⟨n, h⟩
    obtain ⟨⟨y, _⟩, hy, h⟩ := Option.map_eq_some_iff.mp h
    obtain ⟨hfy, rfl⟩ := Prod.mk.inj h
    exact ⟨n, hf hfy ▸ hy⟩
  · rintro ⟨n, hx⟩
    exact ⟨n, by simp only [hx, Option.map_some]⟩

/-- A quoted string as a value. -/
theorem reads_value_quoted_iff {t : String} {rest text' : List Char} (hrest : Follow rest) :
    Reads value ('"' :: (t.toList ++ '"' :: rest)) (.string t) text' ↔
      Plain t.toList ∧ text' = rest := by
  have hinj : Function.Injective fun s : List Char => Json.string (String.ofList s) :=
    fun _ _ h => String.ofList_inj.mp (Json.string.inj h)
  rw [← reads_quoted_iff hrest, ← reads_map_iff hinj, String.ofList_toList]
  exact reads_behind rfl fun n => rfl

/-- A quoted string as a value, and what is behind it. -/
theorem exists_reads_quoted_iff {t : String} {rest : List Char} {Q : List Char → Prop}
    (hrest : Follow rest) :
    (∃ text', Reads value ('"' :: (t.toList ++ '"' :: rest)) (.string t) text' ∧ Q text') ↔
      Plain t.toList ∧ Q rest := by
  constructor
  · rintro ⟨_, hv, hQ⟩
    obtain ⟨ht, rfl⟩ := (reads_value_quoted_iff hrest).mp hv
    exact ⟨ht, hQ⟩
  · rintro ⟨ht, hQ⟩
    exact ⟨rest, (reads_value_quoted_iff hrest).mpr ⟨ht, rfl⟩, hQ⟩

/-- A field whose value is a string, with nothing escaped. -/
def fieldText (key t : String) (rest : List Char) : List Char :=
  '"' :: (key.toList ++ '"' :: ':' :: '"' :: (t.toList ++ '"' :: rest))

/-- An object that starts with such a field as a value. -/
theorem reads_object_iff {text rest : List Char} {key t : String}
    {fields : List (String × Json)} :
    Reads value ('\x7b' :: fieldText key t text) (.object fields) rest ↔
      Reads members (fieldText key t text) fields rest := by
  have hinj : Function.Injective Json.object := fun _ _ h => Json.object.inj h
  have hitems : Reads (fun n => bracketed '\x7d' (members n)) (fieldText key t text) fields rest ↔
      Reads members (fieldText key t text) fields rest := Iff.rfl
  rw [← hitems, ← reads_map_iff hinj]
  exact reads_behind rfl fun n => rfl

theorem reads_array_iff {text rest : List Char} {vs : List Json} :
    Reads value ('[' :: text) (.array vs) rest ↔
      Reads (fun n => bracketed ']' (elements n)) text vs rest := by
  have hinj : Function.Injective Json.array := fun _ _ h => Json.array.inj h
  rw [← reads_map_iff hinj]
  exact reads_behind rfl fun n => rfl

/-- The empty array as a value. -/
theorem reads_array_nil_iff {text rest : List Char} {vs : List Json} :
    Reads value ('[' :: ']' :: text) (.array vs) rest ↔ vs = [] ∧ rest = text := by
  rw [reads_array_iff]
  constructor
  · rintro ⟨n, h⟩
    cases h
    exact ⟨rfl, rfl⟩
  · rintro ⟨rfl, rfl⟩
    exact ⟨0, rfl⟩

/-- An array that starts with a string as a value. -/
theorem reads_array_quote_iff {text rest : List Char} {vs : List Json} :
    Reads value ('[' :: '"' :: text) (.array vs) rest ↔ Reads elements ('"' :: text) vs rest :=
  reads_array_iff

theorem reads_more_comma_iff {α : Type} {close : Char} {items : Nat → Scan (List α)}
    {text rest : List Char} {xs : List α} :
    Reads (fun n => more close (items n)) (',' :: text) xs rest ↔ Reads items text xs rest :=
  Iff.rfl

theorem reads_more_close_iff {α : Type} {close : Char} {items : Nat → Scan (List α)}
    {text rest : List Char} {xs : List α} (hspace : isSpace close = false) (hcomma : close ≠ ',') :
    Reads (fun n => more close (items n)) (close :: text) xs rest ↔ xs = [] ∧ rest = text := by
  have hmore : ∀ n, more close (items n) (close :: text) = some ([], text) := fun n => by
    simp [more, expect, skipSpace, hspace, hcomma]
  constructor
  · rintro ⟨n, h⟩
    cases (hmore n).symm.trans h
    exact ⟨rfl, rfl⟩
  · rintro ⟨rfl, rfl⟩
    exact ⟨0, hmore 0⟩

/-- A field whose name is plain: the value, and what is behind it. -/
theorem reads_members_iff {text text' rest : List Char} {key : String} {v : Json}
    {fields : List (String × Json)}
    (htext : expect '"' text = some (key.toList ++ '"' :: ':' :: text'))
    (hkey : Plain key.toList) :
    Reads members text ((key, v) :: fields) rest ↔
      ∃ text'', Reads value text' v text'' ∧
        Reads (fun n => more '\x7d' (members n)) text'' fields rest := by
  have hscan := reads_plain hkey (':' :: text')
  constructor
  · rintro ⟨_ | n, h⟩
    · cases h
    · simp only [members, htext, Option.bind_eq_bind, Option.bind_some, Option.bind_eq_some_iff,
        Option.some.injEq, Prod.mk.injEq, List.cons.injEq] at h
      obtain ⟨k, hk, v', ⟨text₂, hcolon, hv⟩, vs, hvs, ⟨⟨_, rfl⟩, rfl⟩, rfl⟩ := h
      obtain ⟨_, hrest⟩ := Reads.unique scanString_settled ⟨n, hk⟩ hscan
      rw [hrest] at hcolon
      cases hcolon
      exact ⟨_, ⟨n, hv⟩, n, hvs⟩
  · rintro ⟨text'', hv, hfields⟩
    let n := (key.toList ++ '"' :: ':' :: text').length + text'.length + text''.length
    have hk := hscan.eventually scanString_settled n (by omega)
    have hv := hv.eventually value_settledAt n (by omega)
    have hfields : more '\x7d' (members n) text'' = some (fields, rest) :=
      hfields.eventually more_members_settledAt n (by omega)
    have hcolon : expect ':' (':' :: text') = some text' := rfl
    exact ⟨n + 1, by simp only [members, htext, Option.bind_eq_bind, Option.bind_some, hk, hcolon,
      hv, hfields, String.ofList_toList]⟩

theorem reads_elements_iff {text rest : List Char} {v : Json} {vs : List Json} :
    Reads elements text (v :: vs) rest ↔
      ∃ text', Reads value text v text' ∧
        Reads (fun n => more ']' (elements n)) text' vs rest := by
  constructor
  · rintro ⟨_ | n, h⟩
    · cases h
    · simp only [elements, Option.bind_eq_bind, Option.bind_eq_some_iff,
        Option.some.injEq, Prod.mk.injEq, List.cons.injEq] at h
      obtain ⟨v', hv, vs', hvs, ⟨rfl, rfl⟩, rfl⟩ := h
      exact ⟨_, ⟨n, hv⟩, n, hvs⟩
  · rintro ⟨text', hv, hvs⟩
    let n := text.length + text'.length
    have hv := hv.eventually value_settledAt n (by omega)
    have hvs : more ']' (elements n) text' = some (vs, rest) :=
      hvs.eventually more_elements_settledAt n (by omega)
    exact ⟨n + 1, by simp only [elements, Option.bind_eq_bind, hv, Option.bind_some, hvs]⟩

/-- A field whose value is a quoted string. -/
theorem reads_field_iff {rest text' : List Char} {key t : String} {fields : List (String × Json)}
    (hkey : Plain key.toList) (hrest : Follow rest) :
    Reads members (fieldText key t rest) ((key, .string t) :: fields) text' ↔
      Plain t.toList ∧ Reads (fun n => more '\x7d' (members n)) rest fields text' := by
  have htext : expect '"' (fieldText key t rest) =
      some (key.toList ++ '"' :: ':' :: '"' :: (t.toList ++ '"' :: rest)) := rfl
  rw [reads_members_iff htext hkey, exists_reads_quoted_iff hrest]

/-- A field whose value is a quoted string, and the fields behind it. -/
theorem reads_field_comma_iff {rest text' : List Char} {key t : String}
    {fields : List (String × Json)} (hkey : Plain key.toList) (hrest : Follow (',' :: rest)) :
    Reads members (fieldText key t (',' :: rest)) ((key, .string t) :: fields) text' ↔
      Plain t.toList ∧ Reads members rest fields text' := by
  rw [reads_field_iff hkey hrest, reads_more_comma_iff]

/-- A field whose value is a quoted string, and the end of the object. -/
theorem reads_field_close_iff {rest text' : List Char} {key t : String}
    (hkey : Plain key.toList) (hrest : Follow ('\x7d' :: rest)) :
    Reads members (fieldText key t ('\x7d' :: rest)) [(key, .string t)] text' ↔
      Plain t.toList ∧ text' = rest := by
  rw [reads_field_iff hkey hrest, reads_more_close_iff rfl (by decide)]
  exact and_congr_right fun _ => and_iff_right rfl

/-- An element that is a quoted string. -/
theorem reads_element_iff {t : String} {rest text' : List Char} {vs : List Json}
    (hrest : Follow rest) :
    Reads elements ('"' :: (t.toList ++ '"' :: rest)) (.string t :: vs) text' ↔
      Plain t.toList ∧ Reads (fun n => more ']' (elements n)) rest vs text' := by
  rw [reads_elements_iff, exists_reads_quoted_iff hrest]

end Json

end LproxyCv.Foundation
