import LproxyCv.Dns.Routing

set_option autoImplicit false

/-!
# Dns: routing and the case of letters

The parser lowers the names it reads; the configured domains are put in as they are.  So a
domain with a letter in upper case is never found.

Where a question goes depends on the case of no letter exactly when everything goes to the
server, or the name overlaps with a configured domain in labels without letters, or it
overlaps with none in any case and is not itself configured (`caseBlind_iff`).
-/

namespace LproxyCv.Dns

open LproxyCv.Foundation LproxyCv.Lws LproxyCv.Net LproxyCv.Tunnels
open BytePacketBuffer DomainMap

/-! ## Bytes -/

/-- A byte in lower case. -/
def lowerByte (x : UInt8) : UInt8 := if 65 ≤ x.toNat ∧ x.toNat ≤ 90 then x + 32 else x

/-- Names whose labels differ in the case of their letters only. -/
def SameName (labels labels' : List Bytes) : Prop :=
  labels.map (List.map lowerByte) = labels'.map (List.map lowerByte)

theorem toNat_lowerByte (x : UInt8) : (lowerByte x).toNat =
    if 65 ≤ x.toNat ∧ x.toNat ≤ 90 then x.toNat + 32 else x.toNat := by
  unfold lowerByte
  split
  · rw [UInt8.toNat_add]
    have hshift : (32 : UInt8).toNat = 32 := rfl
    omega
  · rfl

theorem lowerByte_lowerByte (x : UInt8) : lowerByte (lowerByte x) = lowerByte x := by
  revert x
  exact of_every_byte (by decide +kernel)

theorem lowerByte_of_high {x : UInt8} (h : 128 ≤ x.toNat) : lowerByte x = x :=
  if_neg (by omega)

theorem charWidth_lowerByte (x : UInt8) : charWidth (lowerByte x) = charWidth x := by
  revert x
  exact of_every_byte (by decide +kernel)

theorem isContinuation_lowerByte (x : UInt8) :
    isContinuation (lowerByte x) = isContinuation x := by
  revert x
  exact of_every_byte (by decide +kernel)

theorem high_of_isContinuation {x : UInt8} (h : isContinuation x = true) : 128 ≤ x.toNat := by
  rw [isContinuation, Bool.and_eq_true, decide_eq_true_eq, decide_eq_true_eq,
    UInt8.le_iff_toNat_le] at h
  exact h.1

/-- The second byte of a character is behind ASCII, and far behind it where the first byte says
little. -/
theorem high_of_secondFits {b x : UInt8} (h : secondFits b x = true) :
    128 ≤ x.toNat ∧ x.toNat ≤ 191 ∧ (b = 0xE0 → 160 ≤ x.toNat) ∧ (b = 0xF0 → 144 ≤ x.toNat) := by
  have hle : ∀ y z : UInt8, y ≤ z ↔ y.toNat ≤ z.toNat := fun _ _ => UInt8.le_iff_toNat_le
  unfold secondFits isContinuation at h
  simp only [Bool.ite_eq_true_distrib, Bool.and_eq_true, decide_eq_true_eq, hle] at h
  split at h
  · rename_i hb
    subst hb
    exact ⟨Nat.le_trans (by decide) h.1, h.2, fun _ => h.1, fun hb => absurd hb (by decide)⟩
  · rename_i hb
    split at h
    · rename_i hed
      exact ⟨h.1, Nat.le_trans h.2 (by decide), fun h => absurd h hb,
        fun h => absurd (hed.symm.trans h) (by decide)⟩
    · split at h
      · exact ⟨Nat.le_trans (by decide) h.1, h.2, fun h => absurd h hb, fun _ => h.1⟩
      · rename_i hb'
        split at h
        · exact ⟨h.1, Nat.le_trans h.2 (by decide), fun h => absurd h hb, fun h => absurd h hb'⟩
        · exact ⟨h.1, h.2, fun h => absurd h hb, fun h => absurd h hb'⟩

theorem secondFits_lowerByte (b x : UInt8) : secondFits b (lowerByte x) = secondFits b x := by
  by_cases hx : 128 ≤ x.toNat
  · rw [lowerByte_of_high hx]
  · rw [Bool.eq_iff_iff]
    refine iff_of_false (fun h => ?_) fun h => hx (high_of_secondFits h).1
    have hlow := (high_of_secondFits h).1
    rw [toNat_lowerByte] at hlow
    split at hlow <;> omega

/-- What starts behind ASCII does not depend on the case of what follows. -/
theorem decodeChar_lowerByte {b : UInt8} (hb : charWidth b ≠ 1) (rest : Bytes) :
    decodeChar b (rest.map lowerByte) = decodeChar b rest := by
  have hsecond : ∀ x, secondFits b x = true → lowerByte x = x :=
    fun x h => lowerByte_of_high (high_of_secondFits h).1
  have hnext : ∀ x, isContinuation x = true → lowerByte x = x :=
    fun x h => lowerByte_of_high (high_of_isContinuation h)
  generalize hw : charWidth b = w at hb
  unfold decodeChar
  rw [hw]
  rcases w with _ | _ | _ | _ | _ | w
  · rfl
  · exact absurd rfl hb
  · cases rest with
    | nil => rfl
    | cons x rest =>
        refine ite_congr (by rw [secondFits_lowerByte]) (fun hx => ?_) fun _ => rfl
        rw [hsecond x hx]
  · rcases rest with _ | ⟨x, _ | ⟨y, rest⟩⟩
    · rfl
    · exact ite_congr (by rw [secondFits_lowerByte]) (fun _ => rfl) fun _ => rfl
    · refine ite_congr (by rw [secondFits_lowerByte]) (fun hx => ?_) fun _ => rfl
      refine ite_congr (by rw [isContinuation_lowerByte]) (fun hy => ?_) fun _ => rfl
      rw [hsecond x hx, hnext y hy]
  · rcases rest with _ | ⟨x, _ | ⟨y, _ | ⟨z, rest⟩⟩⟩
    · rfl
    · exact ite_congr (by rw [secondFits_lowerByte]) (fun _ => rfl) fun _ => rfl
    · refine ite_congr (by rw [secondFits_lowerByte]) (fun _ => ?_) fun _ => rfl
      exact ite_congr (by rw [isContinuation_lowerByte]) (fun _ => rfl) fun _ => rfl
    · refine ite_congr (by rw [secondFits_lowerByte]) (fun hx => ?_) fun _ => rfl
      refine ite_congr (by rw [isContinuation_lowerByte]) (fun hy => ?_) fun _ => rfl
      refine ite_congr (by rw [isContinuation_lowerByte]) (fun hz => ?_) fun _ => rfl
      rw [hsecond x hx, hnext y hy, hnext z hz]
  · rfl

/-- A character behind ASCII has no case. -/
theorem toLower_ofNat {n : Nat} (h : 128 ≤ n) : (Char.ofNat n).toLower = Char.ofNat n := by
  have hchar : (Char.ofNat n).toNat = n ∨ (Char.ofNat n).toNat = 0 := by
    unfold Char.ofNat
    by_cases hvalid : n.isValidChar
    · rw [dif_pos hvalid]
      exact .inl rfl
    · rw [dif_neg hvalid]
      exact .inr rfl
  rw [char_eq_iff, toNat_toLower, if_neg (by omega)]

theorem continued_le {acc n : Nat} (x : UInt8) (h : n ≤ acc) : n ≤ continued acc x := by
  unfold continued
  omega

/-- The first byte of a character says something, or its second says more. -/
theorem bits_of_charWidth (b : UInt8) : (charWidth b = 2 → 2 ≤ b.toNat % 32) ∧
    (charWidth b = 3 → b = 0xE0 ∨ 1 ≤ b.toNat % 16) ∧
    (charWidth b = 4 → b = 0xF0 ∨ 1 ≤ b.toNat % 8) := by
  revert b
  exact of_every_byte (by decide +kernel)

/-- What is read of a character behind ASCII is none of ASCII. -/
theorem toLower_decodeChar {b : UInt8} (hb : charWidth b ≠ 1) (rest : Bytes) :
    (decodeChar b rest).1.toLower = (decodeChar b rest).1 := by
  have hreplacement : replacement.toLower = replacement := toLower_ofNat (by decide)
  have hmore : ∀ {acc : Nat} (x : UInt8), 2 ≤ acc → 128 ≤ continued acc x := by
    intro acc x h
    unfold continued
    omega
  obtain ⟨htwo, hthree, hfour⟩ := bits_of_charWidth b
  unfold decodeChar
  split
  · rename_i hw
    exact absurd hw hb
  · rename_i x _ hw
    split
    · exact toLower_ofNat (hmore x (htwo hw))
    · exact hreplacement
  · rename_i x rest hw
    split
    · rename_i hx
      have hacc : 2 ≤ continued (b.toNat % 16) x := by
        have hhigh := high_of_secondFits hx
        unfold continued
        rcases hthree hw with hb | hb
        · have hlow := hhigh.2.2.1 hb
          omega
        · omega
      split
      · split
        · exact toLower_ofNat (hmore _ hacc)
        · exact hreplacement
      · exact hreplacement
    · exact hreplacement
  · rename_i x rest hw
    split
    · rename_i hx
      have hacc : 2 ≤ continued (b.toNat % 8) x := by
        have hhigh := high_of_secondFits hx
        unfold continued
        rcases hfour hw with hb | hb
        · have hlow := hhigh.2.2.2 hb
          omega
        · omega
      split
      · split
        · split
          · split
            · exact toLower_ofNat (hmore _ (continued_le _ hacc))
            · exact hreplacement
          · exact hreplacement
        · exact hreplacement
      · exact hreplacement
    · exact hreplacement
  · exact hreplacement

theorem decodeChar_of_low {b : UInt8} (hb : charWidth b = 1) (rest : Bytes) :
    decodeChar b rest = (Char.ofNat b.toNat, 1) := by
  unfold decodeChar
  rw [hb]
  cases rest <;> rfl

theorem charWidth_eq_one_iff (b : UInt8) : charWidth b = 1 ↔ b.toNat < 128 := by
  revert b
  exact of_every_byte (by decide +kernel)

/-- A character of ASCII in lower case is the character of the byte in lower case. -/
theorem toLower_ofNat_low (b : UInt8) :
    b.toNat < 128 → (Char.ofNat b.toNat).toLower = Char.ofNat (lowerByte b).toNat := by
  revert b
  exact of_every_byte (by decide +kernel)

/-- Bytes in lower case are read as the characters in lower case. -/
theorem decodeLossy_lowerByte (fuel : Nat) (l : Bytes) :
    decodeLossy fuel (l.map lowerByte) = (decodeLossy fuel l).map Char.toLower := by
  induction fuel generalizing l with
  | zero => rfl
  | succ fuel ih =>
      cases l with
      | nil => rfl
      | cons b rest =>
          by_cases hb : charWidth b = 1
          · have hlower : charWidth (lowerByte b) = 1 := (charWidth_lowerByte b).trans hb
            rw [List.map_cons, decodeLossy, decodeLossy, decodeChar_of_low hb,
              decodeChar_of_low hlower, List.map_cons,
              toLower_ofNat_low b ((charWidth_eq_one_iff b).mp hb)]
            exact congrArg _ (ih rest)
          · have hhigh : ¬ b.toNat < 128 := fun h => hb ((charWidth_eq_one_iff b).mpr h)
            have hself : lowerByte b = b := lowerByte_of_high (Nat.le_of_not_lt hhigh)
            rw [List.map_cons, decodeLossy, decodeLossy, hself, decodeChar_lowerByte hb,
              ← List.map_drop, ih, List.map_cons, toLower_decodeChar hb]

/-! ## Texts -/

/-- The lower case of letters outside ASCII, as the standard library has it: it has no letter of
ASCII in upper case, and does not depend on the case of the letters of ASCII around it. -/
structure Lowers (unicode : UnicodeLower) : Prop where
  lower : ∀ seen c rest, 128 ≤ c.toNat → ∀ x ∈ unicode seen c rest, x.toLower = x
  around : ∀ seen seen' c rest rest', 128 ≤ c.toNat →
    seen.map Char.toLower = seen'.map Char.toLower →
    rest.map Char.toLower = rest'.map Char.toLower → unicode seen c rest = unicode seen' c rest'

theorem toLower_toLower (c : Char) : c.toLower.toLower = c.toLower := by
  rw [char_eq_iff, toNat_toLower, toNat_toLower]
  split
  · rw [if_neg (by omega)]
  · rfl

theorem ascii_toLower_iff (c : Char) : c.toLower.toNat < 128 ↔ c.toNat < 128 := by
  rw [toNat_toLower]
  split <;> omega

section Texts

variable {unicode : UnicodeLower}

theorem lowerFrom_lower (h : Lowers unicode) (seen l : List Char) :
    ∀ x ∈ lowerFrom unicode seen l, x.toLower = x := by
  induction l generalizing seen with
  | nil => exact fun x hx => absurd hx List.not_mem_nil
  | cons c l ih =>
      intro x hx
      rw [lowerFrom, List.mem_append] at hx
      rcases hx with hx | hx
      · split at hx
        · rw [List.mem_singleton.mp hx, toLower_toLower]
        · rename_i hascii
          exact h.lower seen c l (Nat.le_of_not_lt hascii) x hx
      · exact ih _ x hx

/-- The lower case of a text does not depend on the case of its letters. -/
theorem lowerFrom_congr (h : Lowers unicode) {l l' : List Char}
    (hl : l.map Char.toLower = l'.map Char.toLower) {seen seen' : List Char}
    (hseen : seen.map Char.toLower = seen'.map Char.toLower) :
    lowerFrom unicode seen l = lowerFrom unicode seen' l' := by
  induction l generalizing l' seen seen' with
  | nil =>
      rw [List.map_nil] at hl
      rw [List.map_eq_nil_iff.mp hl.symm]
      rfl
  | cons c l ih =>
      cases l' with
      | nil => cases hl
      | cons c' l' =>
          obtain ⟨hc, hl⟩ := List.cons.inj hl
          have hiff : c.toNat < 128 ↔ c'.toNat < 128 := by
            rw [← ascii_toLower_iff, hc, ascii_toLower_iff]
          have hfirst : (if c.toNat < 128 then [c.toLower] else unicode seen c l) =
              if c'.toNat < 128 then [c'.toLower] else unicode seen' c' l' := by
            refine ite_congr (propext hiff) (fun _ => by rw [hc]) fun hhigh => ?_
            have hself : ∀ d : Char, ¬ d.toNat < 128 → d.toLower = d := fun d hd => by
              rw [char_eq_iff, toNat_toLower, if_neg (by omega)]
            rw [hself c (mt hiff.mp hhigh), hself c' hhigh] at hc
            rw [hc]
            exact h.around seen seen' c' l l' (Nat.le_of_not_lt hhigh) hseen hl
          rw [lowerFrom, lowerFrom, hfirst]
          refine congrArg _ (ih hl ?_)
          rw [List.map_append, List.map_append, hseen, List.map_singleton, List.map_singleton, hc]

theorem labelText_congr (h : Lowers unicode) {l l' : Bytes}
    (hl : l.map lowerByte = l'.map lowerByte) : labelText unicode l = labelText unicode l' := by
  have hlength : l.length = l'.length := by
    rw [← List.length_map lowerByte, hl, List.length_map]
  have hchars : (decodeLossy l.length l).map Char.toLower =
      (decodeLossy l'.length l').map Char.toLower := by
    rw [← decodeLossy_lowerByte, ← decodeLossy_lowerByte, hl, hlength]
  unfold labelText toLowercase fromUtf8Lossy
  rw [String.toList_ofList, String.toList_ofList, lowerFrom_congr h hchars rfl]

/-- The parser reads names in the same way, whatever the case of their letters. -/
theorem nameText_congr (h : Lowers unicode) {labels labels' : List Bytes}
    (hlabels : SameName labels labels') : nameText unicode labels = nameText unicode labels' := by
  have hkey : ∀ ls : List Bytes, ls.map (labelText unicode) =
      (ls.map (List.map lowerByte)).map (labelText unicode) := by
    intro ls
    rw [List.map_map]
    refine List.map_congr_left fun l _ => labelText_congr h ?_
    rw [List.map_map]
    exact List.map_congr_left fun x _ => (lowerByte_lowerByte x).symm
  unfold nameText
  rw [hkey labels, hkey labels', hlabels]

theorem map_eq_self_iff {α : Type} {f : α → α} {l : List α} :
    l.map f = l ↔ ∀ a ∈ l, f a = a := by
  have hiff := List.map_eq_map_iff (f := f) (g := id) (l := l)
  rwa [List.map_id] at hiff

theorem foldCase_eq_self_iff (s : String) : foldCase s = s ↔ ∀ c ∈ s.toList, c.toLower = c := by
  rw [← String.toList_inj, foldCase, toList_mapChars]
  exact map_eq_self_iff

theorem foldCase_append (s t : String) : foldCase (s ++ t) = foldCase s ++ foldCase t := by
  rw [← String.toList_inj]
  simp only [foldCase, toList_mapChars, String.toList_append, List.map_append]

theorem foldCase_intercalate {ls : List String} (h : ∀ l ∈ ls, foldCase l = l) :
    foldCase (".".intercalate ls) = ".".intercalate ls := by
  induction ls with
  | nil => rfl
  | cons l ls ih =>
      have hl := h l List.mem_cons_self
      cases ls with
      | nil => rw [String.intercalate_singleton, hl]
      | cons l' ls =>
          rw [String.intercalate_cons_cons, foldCase_append, foldCase_append, hl,
            ih fun l hl => h l (List.mem_cons_of_mem _ hl)]
          rfl

/-- The parser reads names in lower case. -/
theorem foldCase_nameText (h : Lowers unicode) (labels : List Bytes) :
    foldCase (nameText unicode labels) = nameText unicode labels := by
  refine foldCase_intercalate fun l hl => ?_
  obtain ⟨l, _, rfl⟩ := List.mem_map.mp hl
  rw [foldCase_eq_self_iff]
  unfold labelText toLowercase
  rw [String.toList_ofList]
  exact lowerFrom_lower h [] _

theorem foldCase_labels (h : Lowers unicode) (labels : List Bytes) :
    ∀ l ∈ splitLabels (nameText unicode labels), foldCase l = l := by
  have hmap := splitLabels_mapChars (fixes_toLower (by decide)) (nameText unicode labels)
  rw [show mapChars Char.toLower (nameText unicode labels) = _ from foldCase_nameText h labels]
    at hmap
  exact map_eq_self_iff.mp hmap.symm

end Texts

/-! ## Where a question goes -/

/-- The first question of a message is about a name with these labels. -/
def Asks (unicode : UnicodeLower) (message : Bytes) (labels : List Bytes) : Prop :=
  ∃ p last, Parses unicode message p ∧ p.questions ≠ [] ∧ NameAt message 12 labels last

/-- Whether a question goes to the server, if it goes anywhere. -/
def Handling.toServer : Handling → Option Bool
  | .remote _ => some true
  | .locally _ => some false
  | _ => none

/-- The forwarder gives a question to the server, or to the local DNS server. -/
def Goes (unicode : UnicodeLower) (f : Router) (message : Bytes) (remote : Bool) : Prop :=
  ∃ enough, ∀ fuel, enough ≤ fuel → ∀ socket srcAddr, ∃ r,
    f.onDnsUdpMsg unicode fuel socket message srcAddr = .ok r ∧ r.2.toServer = some remote

section Decision

variable {unicode : UnicodeLower} {f : Router} {message : Bytes} {labels : List Bytes}

theorem Asks.name (h : Asks unicode message labels) : ∃ p question questions,
    Parses unicode message p ∧ p.questions = question :: questions ∧
      question.name = nameText unicode labels := by
  obtain ⟨p, last, hp, hne, hname⟩ := h
  obtain ⟨question, questions, hquestions⟩ := List.exists_cons_of_ne_nil hne
  obtain ⟨labels', last', hname', htext⟩ := nameAt_of_parses hp hquestions
  rw [hname'.unique hname] at htext
  exact ⟨p, question, questions, hp, hquestions, htext⟩

theorem Goes.unique {remote remote' : Bool} (h : Goes unicode f message remote)
    (h' : Goes unicode f message remote') : remote = remote' := by
  obtain ⟨enough, h⟩ := h
  obtain ⟨enough', h'⟩ := h'
  obtain ⟨r, hr, hremote⟩ := h (max enough enough') (Nat.le_max_left _ _) none ⟨.v4 ⟨0, 0, 0, 0⟩, 0⟩
  obtain ⟨r', hr', hremote'⟩ :=
    h' (max enough enough') (Nat.le_max_right _ _) none ⟨.v4 ⟨0, 0, 0, 0⟩, 0⟩
  cases hr.symm.trans hr'
  exact Option.some.inj (hremote.symm.trans hremote')

/-- A question goes to the server when everything does, or its name is found. -/
theorem goes_of_asks (hlive : f.discarded = false) (h : Asks unicode message labels) :
    Goes unicode f message (f.workAsGlobal || f.domap.has (nameText unicode labels)) := by
  obtain ⟨p, question, questions, ⟨enough, rest, hok⟩, hquestions, hname⟩ := h.name
  refine ⟨enough, fun fuel hle socket srcAddr => ?_⟩
  obtain ⟨more, rfl⟩ := Nat.exists_eq_add_of_le hle
  have hmore := (DnsPacket.follows_fromBuffer unicode message).ok_more hok more
  rw [← hname]
  cases hfound : f.workAsGlobal || f.domap.has question.name with
  | false => exact ⟨_, Router.onDnsUdpMsg_locally hlive hmore hquestions hfound socket srcAddr, rfl⟩
  | true =>
      obtain ⟨effect, heffect⟩ :=
        Router.onDnsUdpMsg_remote hlive hmore hquestions hfound socket srcAddr
      exact ⟨_, heffect, rfl⟩

theorem goes_iff (hlive : f.discarded = false) (h : Asks unicode message labels) {remote : Bool} :
    Goes unicode f message remote ↔
      remote = (f.workAsGlobal || f.domap.has (nameText unicode labels)) :=
  ⟨fun hgoes => hgoes.unique (goes_of_asks hlive h), fun heq => heq ▸ goes_of_asks hlive h⟩

end Decision

/-! ## The configured domains -/

/-- A configured domain that is put into the tree. -/
def PutIn (d : String) : Prop := ipv4rangeParse d = none ∧ Insertable (splitLabels d)

/-- A name meets a configured domain in a certain way. -/
def Meets (meet : List String → List String → Prop) (ds : List String) (q : String) : Prop :=
  2 ≤ (splitLabels q).length ∧ ∃ d ∈ ds, PutIn d ∧ meet (splitLabels d) (splitLabels q)

/-- A name is a configured domain, of ASCII, of two labels or more and no range of addresses. -/
def AsksFor (unicode : UnicodeLower) (labels : List Bytes) (ds : List String) : Prop :=
  (∀ l ∈ labels, ∀ x ∈ l, x.toNat < 128) ∧ ∃ d ∈ ds, 2 ≤ (splitLabels d).length ∧
    ipv4rangeParse d = none ∧ SameLetters d (nameText unicode labels)

/-- Where a question goes does not depend on the case of letters: not of those of the configured
domains, nor of those of its name; if its name is configured it goes to the server. -/
structure CaseBlind (unicode : UnicodeLower) (f : Router) (ds : List String) (message : Bytes)
    (labels : List Bytes) : Prop where
  domains : ∀ ds', List.Forall₂ SameLetters ds' ds → ∀ remote,
    Goes unicode (f.updateDomains ds).1 message remote →
      Goes unicode (f.updateDomains ds').1 message remote
  names : ∀ message' labels', Asks unicode message' labels' → SameName labels' labels →
    ∀ remote, Goes unicode (f.updateDomains ds).1 message remote →
      Goes unicode (f.updateDomains ds).1 message' remote
  configured : AsksFor unicode labels ds → Goes unicode (f.updateDomains ds).1 message true

theorem newDomap_eq (ds : List String) : (Router.newDomap ds).1 =
    (ds.filter fun d => (ipv4rangeParse d).isNone).foldl DomainMap.insert DomainMap.new := by
  unfold Router.newDomap
  generalize DomainMap.new = m
  generalize ([] : List IpsetEntry) = entries
  induction ds generalizing m entries with
  | nil => rfl
  | cons d ds ih =>
      rw [List.foldl_cons, List.filter_cons]
      cases ipv4rangeParse d with
      | none => exact ih _ _
      | some ir => exact ih _ _

/-- A name is found when it meets a configured domain. -/
theorem has_newDomap (ds : List String) (q : String) :
    (Router.newDomap ds).1.has q = true ↔ Meets Overlap ds q := by
  rw [newDomap_eq, has_foldl_new]
  unfold Meets PutIn
  simp only [List.mem_filter, Option.isNone_iff_eq_none, and_assoc]

theorem putIn_congr {d d' : String} (h : SameLetters d' d) : PutIn d' ↔ PutIn d := by
  unfold PutIn
  rw [h.ipv4rangeParse_eq, insertable_congr (sameLetters_iff.mp h)]

theorem exists_of_forall₂ {α β : Type} {r : α → β → Prop} {l : List α} {l' : List β}
    (h : List.Forall₂ r l l') {a : α} (ha : a ∈ l) : ∃ b ∈ l', r a b := by
  induction h with
  | nil => exact absurd ha List.not_mem_nil
  | cons hhead _ ih =>
      rcases List.mem_cons.mp ha with rfl | ha
      · exact ⟨_, List.mem_cons_self, hhead⟩
      · obtain ⟨b, hb, hr⟩ := ih ha
        exact ⟨b, List.mem_cons_of_mem _ hb, hr⟩

/-- Of two configurations that differ in case, what meets a domain of one meets one of the other. -/
theorem Meets.congr {meet meet' : List String → List String → Prop} {ds ds' : List String}
    {q : String} (h : Meets meet ds q) (hds : List.Forall₂ SameLetters ds ds')
    (hmeet : ∀ d d', SameLetters d d' → meet (splitLabels d) (splitLabels q) →
      meet' (splitLabels d') (splitLabels q)) : Meets meet' ds' q := by
  obtain ⟨hlen, d, hd, hput, hmeets⟩ := h
  obtain ⟨d', hd', hsame⟩ := exists_of_forall₂ hds hd
  exact ⟨hlen, d', hd', (putIn_congr hsame).mp hput, hmeet d d' hsame hmeets⟩

theorem forall₂_symm {ds ds' : List String} (h : List.Forall₂ SameLetters ds' ds) :
    List.Forall₂ SameLetters ds ds' := h.flip.imp fun _ _ hsame => hsame.symm

/-- A name that shares labels without letters is found in every case. -/
theorem Meets.found {ds ds' : List String} {q : String} (h : Meets SureOverlap ds q)
    (hds : List.Forall₂ SameLetters ds' ds) : Meets Overlap ds' q :=
  h.congr (forall₂_symm hds) fun _ _ hsame hsure => hsure.overlap (sameLetters_iff.mp hsame).symm

/-- A name that is found in some case is near. -/
theorem Meets.near {ds ds' : List String} {q : String} (h : Meets Overlap ds' q)
    (hds : List.Forall₂ SameLetters ds' ds) : Meets NearOverlap ds q :=
  h.congr hds fun _ _ hsame hoverlap => .of_overlap hoverlap (sameLetters_iff.mp hsame)

/-- A name that is found when all domains are in upper case shares labels without letters. -/
theorem Meets.sure {unicode : UnicodeLower} (hunicode : Lowers unicode) {ds : List String}
    {labels : List Bytes} (h : Meets Overlap (ds.map upperCase) (nameText unicode labels)) :
    Meets SureOverlap ds (nameText unicode labels) := by
  obtain ⟨hlen, _, hmem, hput, hoverlap⟩ := h
  obtain ⟨d, hd, rfl⟩ := List.mem_map.mp hmem
  rw [upperCase, splitLabels_mapChars (fixes_toUpper (by decide))] at hoverlap
  exact ⟨hlen, d, hd, (putIn_congr (sameLetters_upperCase d)).mp hput,
    sureOverlap_of_upperCase (foldCase_labels hunicode labels) hoverlap⟩

/-- A name that is near is found in some case. -/
theorem Meets.exists_case {ds : List String} {q : String} (h : Meets NearOverlap ds q) :
    ∃ ds', List.Forall₂ SameLetters ds' ds ∧ Meets Overlap ds' q := by
  obtain ⟨hlen, d, hd, hput, hnear⟩ := h
  obtain ⟨ls, hls, hoverlap⟩ := hnear.exists
  obtain ⟨t, hsame, rfl⟩ := exists_sameLetters hls
  obtain ⟨front, back, rfl⟩ := List.append_of_mem hd
  refine ⟨front ++ t :: back, ?_, hlen, t, by simp, (putIn_congr hsame).mpr hput, hoverlap⟩
  have hrefl : ∀ l : List String, List.Forall₂ SameLetters l l := fun l =>
    List.forall₂_same.mpr fun _ _ => rfl
  exact List.rel_append (hrefl front) (.cons hsame (hrefl back))

/-- Where a question goes depends on the case of no letter exactly when everything goes to the
server, or the name shares labels without letters with a configured domain, or it meets none
in any case and is not itself configured. -/
theorem caseBlind_iff {unicode : UnicodeLower} (hunicode : Lowers unicode) {f : Router}
    (hlive : f.discarded = false) (ds : List String) {message : Bytes} {labels : List Bytes}
    (hasks : Asks unicode message labels) :
    CaseBlind unicode f ds message labels ↔
      f.workAsGlobal = true ∨ Meets SureOverlap ds (nameText unicode labels) ∨
        (¬ Meets NearOverlap ds (nameText unicode labels) ∧ ¬ AsksFor unicode labels ds) := by
  have hgoes : ∀ ds' message' labels', Asks unicode message' labels' → ∀ remote,
      Goes unicode (f.updateDomains ds').1 message' remote ↔
        (remote = true ↔ f.workAsGlobal = true ∨ Meets Overlap ds' (nameText unicode labels')) := by
    intro ds' message' labels' hasks' remote
    rw [goes_iff (f := (f.updateDomains ds').1) hlive hasks', Bool.eq_iff_iff, Bool.or_eq_true,
      ← has_newDomap]
    rfl
  constructor
  · intro h
    by_cases hglobal : f.workAsGlobal = true
    · exact .inl hglobal
    · by_cases hsure : Meets SureOverlap ds (nameText unicode labels)
      · exact .inr (.inl hsure)
      · -- with all domains in upper case it goes to the local server, and so in every case
        have hupper : List.Forall₂ SameLetters (ds.map upperCase) ds :=
          List.forall₂_map_left_iff.mpr (List.forall₂_same.mpr fun d _ => sameLetters_upperCase d)
        have hlocal : ∀ ds', List.Forall₂ SameLetters ds' ds →
            ¬ Meets Overlap ds' (nameText unicode labels) := by
          intro ds' hds' hmeets
          have hnow := goes_of_asks (f := (f.updateDomains ds).1) hlive hasks
          have htrue := ((hgoes ds' message labels hasks _).mp (h.domains ds' hds' _ hnow)).mpr
            (.inr hmeets)
          have hfound := ((hgoes _ message labels hasks _).mp (h.domains _ hupper _ hnow)).mp htrue
          exact hfound.elim hglobal fun hfound => hsure (hfound.sure hunicode)
        refine .inr (.inr ⟨fun hnear => ?_, fun hconfigured => ?_⟩)
        · obtain ⟨ds', hds', hmeets⟩ := hnear.exists_case
          exact hlocal ds' hds' hmeets
        · have hfound := ((hgoes ds message labels hasks _).mp (h.configured hconfigured)).mp rfl
          have hrefl : List.Forall₂ SameLetters ds ds := List.forall₂_same.mpr fun _ _ => rfl
          exact hfound.elim hglobal (hlocal ds hrefl)
  · intro h
    have hrefl : List.Forall₂ SameLetters ds ds := List.forall₂_same.mpr fun _ _ => rfl
    have hsame : ∀ ds', List.Forall₂ SameLetters ds' ds →
        ((f.workAsGlobal = true ∨ Meets Overlap ds (nameText unicode labels)) ↔
          f.workAsGlobal = true ∨ Meets Overlap ds' (nameText unicode labels)) := by
      intro ds' hds'
      rcases h with hglobal | hsure | ⟨hfar, _⟩
      · exact iff_of_true (.inl hglobal) (.inl hglobal)
      · exact iff_of_true (.inr (hsure.found hrefl)) (.inr (hsure.found hds'))
      · exact or_congr_right (iff_of_false (fun hm => hfar (hm.near hrefl))
          fun hm => hfar (hm.near hds'))
    refine ⟨fun ds' hds' remote hgo => ?_, fun message' labels' hasks' hname remote hgo => ?_,
      fun hconfigured => ?_⟩
    · rw [hgoes _ _ _ hasks] at hgo ⊢
      exact hgo.trans (hsame ds' hds')
    · rw [hgoes _ _ _ hasks] at hgo
      rwa [hgoes _ _ _ hasks', nameText_congr hunicode hname]
    · rw [hgoes _ _ _ hasks]
      refine iff_of_true rfl ?_
      rcases h with hglobal | hsure | ⟨_, hnone⟩
      · exact .inl hglobal
      · exact .inr (hsure.found hrefl)
      · exact absurd hconfigured hnone

/-- The labels of `example.com`. -/
def exampleLabels : List Bytes := [[0x65, 0x78, 0x61, 0x6D, 0x70, 0x6C, 0x65], [0x63, 0x6F, 0x6D]]

theorem lowers_self : Lowers fun _ c _ => [c] where
  lower seen c rest h x hx := by
    rw [List.mem_singleton.mp hx, char_eq_iff, toNat_toLower, if_neg (by omega)]
  around _ _ _ _ _ _ _ _ := rfl

theorem asks_exampleQuery : Asks (fun _ c _ => [c]) exampleQuery exampleLabels := by
  have hlabel : ∀ x : UInt8, x.toNat < 192 → ¬ IsPointer x := fun _ h => Nat.not_le_of_lt h
  have hroot : NameAt exampleQuery 24 [] 25 := .root ⟨by decide, rfl⟩
  have hname : NameAt exampleQuery 12 exampleLabels 25 :=
    .label ⟨by decide, rfl⟩ (hlabel 7 (by decide)) (by decide) rfl rfl
      (.label ⟨by decide, rfl⟩ (hlabel 3 (by decide)) (by decide) rfl rfl hroot)
  exact ⟨examplePacket, 25, ⟨3, ⟨exampleQuery, 29⟩, read_exampleQuery⟩, by decide, hname⟩

theorem caseBlind_iff_exampleQuery :
    CaseBlind (fun _ c _ => [c]) idleRouter ["Example.com"] exampleQuery exampleLabels ↔
      idleRouter.workAsGlobal = true ∨
        Meets SureOverlap ["Example.com"] (nameText (fun _ c _ => [c]) exampleLabels) ∨
        (¬ Meets NearOverlap ["Example.com"] (nameText (fun _ c _ => [c]) exampleLabels) ∧
          ¬ AsksFor (fun _ c _ => [c]) exampleLabels ["Example.com"]) :=
  caseBlind_iff lowers_self rfl _ asks_exampleQuery

/-- A domain with a capital letter is not found, though a message asks for it. -/
theorem capital_not_caseBlind :
    Asks (fun _ c _ => [c]) exampleQuery exampleLabels ∧
      ¬ CaseBlind (fun _ c _ => [c]) idleRouter ["Example.com"] exampleQuery exampleLabels := by
  refine ⟨asks_exampleQuery, fun h => ?_⟩
  have hascii : ∀ l ∈ exampleLabels, ∀ x ∈ l, x.toNat < 128 := by simp [exampleLabels]
  have hconfigured : AsksFor (fun _ c _ => [c]) exampleLabels ["Example.com"] :=
    ⟨hascii, "Example.com", by simp, by decide +kernel, by decide +kernel, by decide +kernel⟩
  have hgoes := goes_of_asks (f := (idleRouter.updateDomains ["Example.com"]).1) rfl
    asks_exampleQuery
  have hlocal : ((idleRouter.updateDomains ["Example.com"]).1.workAsGlobal ||
      (idleRouter.updateDomains ["Example.com"]).1.domap.has
        (nameText (fun _ c _ => [c]) exampleLabels)) = false := by
    decide +kernel
  rw [hlocal] at hgoes
  exact Bool.noConfusion (hgoes.unique (h.configured hconfigured))

end LproxyCv.Dns
