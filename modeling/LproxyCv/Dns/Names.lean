import LproxyCv.Dns.Layout

set_option autoImplicit false

/-!
# Dns: what a name says

A name is a chain of labels and pointers that ends in a zero byte.  What it says are its
labels, wherever they lie; where it ends, in its place, is behind its first pointer, or
behind the zero byte if there is none.  The parser joins the labels, in lower case
(`readQname_of_nameAt`).
-/

namespace LproxyCv.Dns

open LproxyCv.Foundation

/-- A name that starts at the first offset has these labels, and goes on at the second. -/
inductive NameAt (b : Bytes) : Nat → List Bytes → Nat → Prop where
  | root {p : Nat} : ByteAt b p 0 → NameAt b p [] (p + 1)
  | pointer {p q : Nat} {x y : UInt8} {labels : List Bytes} : ByteAt b p x → IsPointer x →
      ByteAt b (p + 1) y → NameAt b (pointerTo x y) labels q → NameAt b p labels (p + 2)
  | label {p q : Nat} {x : UInt8} {l : Bytes} {labels : List Bytes} : ByteAt b p x →
      ¬ IsPointer x → x ≠ 0 → (b.drop (p + 1)).take x.toNat = l → l.length = x.toNat →
      NameAt b (p + 1 + x.toNat) labels q → NameAt b p (l :: labels) q

/-- The text of a label. -/
def labelText (unicode : UnicodeLower) (l : Bytes) : String :=
  toLowercase unicode (fromUtf8Lossy l)

/-- What a name says, as a text. -/
def nameText (unicode : UnicodeLower) (labels : List Bytes) : String :=
  ".".intercalate (labels.map (labelText unicode))

theorem NameAt.byteAt {b : Bytes} {p q : Nat} {labels : List Bytes} (h : NameAt b p labels q) :
    ∃ x, ByteAt b p x := by
  cases h with
  | root h => exact ⟨_, h⟩
  | pointer h _ _ _ => exact ⟨_, h⟩
  | label h _ _ _ _ _ => exact ⟨_, h⟩

/-- A label lies in front of the rest of the name, and so in the buffer. -/
theorem NameAt.near {b : Bytes} {p q : Nat} {labels : List Bytes} (h : NameAt b p labels q) :
    p < 512 ∧ p < b.length := by
  obtain ⟨x, hfar, hx⟩ := h.byteAt
  exact ⟨hfar, (List.getElem?_eq_some_iff.mp hx).1⟩

theorem ByteAt.unique {b : Bytes} {p : Nat} {x y : UInt8} (h : ByteAt b p x) (h' : ByteAt b p y) :
    x = y := Option.some.inj (h.2.symm.trans h'.2)

/-- What a name says depends on where it starts only. -/
theorem NameAt.unique {b : Bytes} {p q q' : Nat} {labels labels' : List Bytes}
    (h : NameAt b p labels q) (h' : NameAt b p labels' q') : labels = labels' := by
  have hroot : ¬ IsPointer 0 := Nat.not_le_of_lt (by decide)
  induction h generalizing labels' q' with
  | root hx =>
      cases h' with
      | root _ => rfl
      | pointer hx' hpointer _ _ => exact absurd (hx'.unique hx ▸ hpointer) hroot
      | label hx' _ hzero _ _ _ => exact absurd (hx'.unique hx) hzero
  | pointer hx hpointer hy _ ih =>
      cases h' with
      | root hx' => exact absurd (hx.unique hx' ▸ hpointer) hroot
      | pointer hx' _ hy' hname =>
          rw [hx'.unique hx, hy'.unique hy] at hname
          exact ih hname
      | label hx' hlabel _ _ _ _ => exact absurd (hx'.unique hx ▸ hpointer) hlabel
  | label hx hlabel hzero htake _ _ ih =>
      cases h' with
      | root hx' => exact absurd (hx.unique hx') hzero
      | pointer hx' hpointer _ _ => exact absurd (hx'.unique hx ▸ hpointer) hlabel
      | label hx' _ _ htake' _ hname =>
          rw [hx'.unique hx] at hname htake'
          rw [ih hname, ← htake, ← htake']

namespace BytePacketBuffer

/-- What the loop over labels makes of them. -/
def spell : String → String → List String → String
  | _, outstr, [] => outstr
  | delim, outstr, l :: ls => spell "." (outstr ++ delim ++ l) ls

theorem spell_cons (delim outstr l : String) (ls : List String) :
    spell delim outstr (l :: ls) = outstr ++ delim ++ ".".intercalate (l :: ls) := by
  induction ls generalizing delim outstr l with
  | nil => rw [spell, spell, String.intercalate_singleton]
  | cons l' ls ih =>
      rw [spell, ih, String.intercalate_cons_cons]
      simp only [String.append_assoc]

theorem spell_eq_intercalate (ls : List String) : spell "" "" ls = ".".intercalate ls := by
  cases ls with
  | nil => rfl
  | cons l ls => rw [spell_cons, String.append_empty, String.empty_append]

/-- The loop reads a name that is there. -/
theorem readLabels_of_nameAt (unicode : UnicodeLower) {b : Bytes} {pos q : Nat}
    {labels : List Bytes} (h : NameAt b pos labels q) :
    ∀ (jumped : Bool) (delim outstr : String) (p : Nat), ∃ fuel,
      readLabels unicode fuel pos jumped delim outstr ⟨b, p⟩ =
        .ok (spell delim outstr (labels.map (labelText unicode)), ⟨b, after jumped p q⟩) := by
  induction h with
  | root h => exact fun _ _ _ _ => ⟨1, readLabels_root h⟩
  | pointer h hx hy _ ih =>
      intro jumped delim outstr p
      obtain ⟨fuel, hfuel⟩ := ih true delim outstr (after jumped p _)
      exact ⟨fuel + 1, by rw [readLabels_pointer h hx hy, hfuel]; rfl⟩
  | label h hx hzero htake _ hrest ih =>
      intro jumped delim outstr p
      obtain ⟨fuel, hfuel⟩ := ih jumped "." _ p
      obtain ⟨hnear, hin⟩ := hrest.near
      refine ⟨fuel + 1, ?_⟩
      rw [readLabels_label h hx hzero hnear (Nat.le_of_lt hin), htake, hfuel]
      rfl

/-- What the loop has read is a name that is there. -/
theorem nameAt_of_readLabels {unicode : UnicodeLower} {b : Bytes} {fuel pos p : Nat}
    {jumped : Bool} {delim outstr s : String} {c : Cursor}
    (h : readLabels unicode fuel pos jumped delim outstr ⟨b, p⟩ = .ok (s, c)) :
    ∃ labels q, NameAt b pos labels q ∧ c = ⟨b, after jumped p q⟩ ∧
      s = spell delim outstr (labels.map (labelText unicode)) := by
  induction fuel generalizing pos jumped delim outstr p with
  | zero => cases h
  | succ fuel ih =>
      cases found b pos with
      | far hfar => simp [readLabels_far hfar] at h
      | beyond hbeyond => simp [readLabels_beyond hbeyond] at h
      | root hroot =>
          rw [readLabels_root hroot] at h
          cases h
          exact ⟨[], pos + 1, .root hroot, rfl, rfl⟩
      | pointerFar x hx hpointer hfar => simp [readLabels_pointerFar hx hpointer hfar] at h
      | pointerBeyond x hx hpointer hbeyond =>
          simp [readLabels_pointerBeyond hx hpointer hbeyond] at h
      | pointer x y hx hpointer hy =>
          rw [readLabels_pointer hx hpointer hy] at h
          obtain ⟨labels, q, hname, rfl, rfl⟩ := ih h
          exact ⟨labels, pos + 2, .pointer hx hpointer hy hname, rfl, rfl⟩
      | textFar x hx hpointer hzero hfar => simp [readLabels_textFar hx hpointer hzero hfar] at h
      | text x hx hpointer hzero hnear hcut =>
          simp [readLabels_text hx hpointer hzero hnear hcut] at h
      | label x hx hpointer hzero hnear hin =>
          rw [readLabels_label hx hpointer hzero hnear hin] at h
          obtain ⟨labels, q, hname, rfl, rfl⟩ := ih h
          have hlen : ((b.drop (pos + 1)).take x.toNat).length = x.toNat := by
            rw [List.length_take, List.length_drop]
            omega
          exact ⟨_ :: labels, q, .label hx hpointer hzero rfl hlen hname, rfl, rfl⟩

/-- What the parser has read is a name that is there. -/
theorem nameAt_of_readQname {unicode : UnicodeLower} {b : Bytes} {fuel p : Nat} {s : String}
    {c : Cursor} (h : readQname unicode fuel "" ⟨b, p⟩ = .ok (s, c)) :
    ∃ labels q, NameAt b p labels q ∧ c = ⟨b, q⟩ ∧
      s = ".".intercalate (labels.map (labelText unicode)) := by
  obtain ⟨labels, q, hname, hc, hs⟩ := nameAt_of_readLabels h
  exact ⟨labels, q, hname, hc, hs.trans (spell_eq_intercalate _)⟩

/-- Where a name is, the parser reads it, and goes on behind it. -/
theorem gives_readQname (unicode : UnicodeLower) {b : Bytes} {p q : Nat}
    {labels : List Bytes} (h : NameAt b p labels q) :
    Gives (fun fuel => readQname unicode fuel "") ⟨b, p⟩ (nameText unicode labels) ⟨b, q⟩ := by
  obtain ⟨enough, hread⟩ := readLabels_of_nameAt unicode h false "" "" p
  rw [spell_eq_intercalate] at hread
  refine ⟨enough, fun fuel hle => ?_⟩
  obtain ⟨more, rfl⟩ := Nat.exists_eq_add_of_le hle
  exact (follows_readQname unicode b "").ok_more hread more

end BytePacketBuffer

open BytePacketBuffer

/-! ## Host names -/

/-- A label of a host name: up to 63 bytes of ASCII. -/
def HostLabel (l : Bytes) : Prop := l ≠ [] ∧ l.length ≤ 63 ∧ ∀ x ∈ l, x.toNat < 128

/-- A label in lower case. -/
def lowerLabel (l : Bytes) : String :=
  String.ofList (l.map fun x => (Char.ofNat x.toNat).toLower)

theorem toNat_ofNat_ascii {n : Nat} (h : n < 128) : (Char.ofNat n).toNat = n := by
  have hvalid : n.isValidChar := .inl (by omega)
  unfold Char.ofNat
  rw [dif_pos hvalid]
  rfl

theorem decodeLossy_of_ascii {l : Bytes} (h : ∀ x ∈ l, x.toNat < 128) :
    decodeLossy l.length l = l.map fun x => Char.ofNat x.toNat := by
  induction l with
  | nil => rfl
  | cons x l ih =>
      have hx := h x List.mem_cons_self
      have hwidth : charWidth x = 1 := if_pos (UInt8.lt_iff_toNat_lt.mpr hx)
      have hchar : decodeChar x l = (Char.ofNat x.toNat, 1) := by
        unfold decodeChar
        rw [hwidth]
        cases l <;> rfl
      rw [List.length_cons, decodeLossy, hchar, Nat.sub_self, List.drop_zero,
        ih fun y hy => h y (List.mem_cons_of_mem x hy)]
      rfl

theorem lowerFrom_of_ascii (unicode : UnicodeLower) {l : List Char} (h : ∀ c ∈ l, c.toNat < 128)
    (seen : List Char) : lowerFrom unicode seen l = l.map Char.toLower := by
  induction l generalizing seen with
  | nil => rfl
  | cons c l ih =>
      rw [lowerFrom, if_pos (h c List.mem_cons_self),
        ih fun d hd => h d (List.mem_cons_of_mem c hd)]
      rfl

theorem toLowercase_of_ascii (unicode : UnicodeLower) {s : String}
    (h : ∀ c ∈ s.toList, c.toNat < 128) :
    toLowercase unicode s = String.ofList (s.toList.map Char.toLower) := by
  rw [toLowercase, lowerFrom_of_ascii unicode h]

/-- The text of a label of ASCII is the label in lower case. -/
theorem labelText_of_ascii (unicode : UnicodeLower) {l : Bytes} (h : ∀ x ∈ l, x.toNat < 128) :
    labelText unicode l = lowerLabel l := by
  have hchars : ∀ c ∈ l.map fun x => Char.ofNat x.toNat, c.toNat < 128 := by
    intro c hc
    obtain ⟨x, hx, rfl⟩ := List.mem_map.mp hc
    rw [toNat_ofNat_ascii (h x hx)]
    exact h x hx
  have hdecode : fromUtf8Lossy l = String.ofList (l.map fun x => Char.ofNat x.toNat) := by
    rw [fromUtf8Lossy, decodeLossy_of_ascii h]
  rw [labelText, hdecode, toLowercase_of_ascii unicode (by rwa [String.toList_ofList]),
    String.toList_ofList, List.map_map]
  rfl

/-- Wherever the labels of a host name lie, the parser reads them, in lower case and joined by
dots, and goes on behind the part of the name that is in its place. -/
theorem readQname_of_nameAt (unicode : UnicodeLower) {b : Bytes} {p q : Nat}
    {labels : List Bytes} (h : NameAt b p labels q) (hlabels : ∀ l ∈ labels, HostLabel l) :
    ∃ enough, ∀ fuel, enough ≤ fuel →
      readQname unicode fuel "" ⟨b, p⟩ =
        .ok (".".intercalate (labels.map lowerLabel), ⟨b, q⟩) := by
  have htext : nameText unicode labels = ".".intercalate (labels.map lowerLabel) :=
    congrArg _ (List.map_congr_left fun l hl => labelText_of_ascii unicode (hlabels l hl).2.2)
  rw [← htext]
  exact gives_readQname unicode h

/-- A buffer with the name `A.b`: a pointer forwards to its first label, and from behind that
one back to its second. -/
def pointedName : Bytes := [0xC0, 5, 1, 0x62, 0, 1, 0x41, 0xC0, 2]

theorem nameAt_pointedName : NameAt pointedName 0 [[0x41], [0x62]] 2 := by
  have hpointer : IsPointer 0xC0 := Nat.le_refl 192
  have hlabel : ¬ IsPointer 1 := Nat.not_le_of_lt (by decide)
  have hsecond : NameAt pointedName 2 [[0x62]] 5 :=
    .label ⟨by decide, rfl⟩ hlabel (by decide) rfl rfl (.root ⟨by decide, rfl⟩)
  have hback : NameAt pointedName 7 [[0x62]] 9 :=
    .pointer (y := 2) ⟨by decide, rfl⟩ hpointer ⟨by decide, rfl⟩ hsecond
  have hfirst : NameAt pointedName 5 [[0x41], [0x62]] 9 :=
    .label ⟨by decide, rfl⟩ hlabel (by decide) rfl rfl hback
  exact .pointer (y := 5) ⟨by decide, rfl⟩ hpointer ⟨by decide, rfl⟩ hfirst

/-- It is read as `a.b`, and the parser goes on behind the pointer. -/
theorem readQname_pointedName : ∃ enough, ∀ fuel, enough ≤ fuel →
    readQname (fun _ c _ => [c]) fuel "" ⟨pointedName, 0⟩ =
      .ok (".".intercalate ([[0x41], [0x62]].map lowerLabel), ⟨pointedName, 2⟩) :=
  readQname_of_nameAt _ nameAt_pointedName fun l hl => by
    rcases List.mem_pair.mp hl with rfl | rfl
    · exact ⟨by decide, by decide, List.forall_mem_singleton.mpr (by decide)⟩
    · exact ⟨by decide, by decide, List.forall_mem_singleton.mpr (by decide)⟩

end LproxyCv.Dns
