import LproxyCv.Dns.Names
import LproxyCv.Dns.Utf8
import LproxyCv.Dns.WrittenNumbers

set_option autoImplicit false

/-!
# Dns: names that are written are read again

The parser reads a name where the writer has written it, in lower case and in 512
iterations, if no label of it is empty or longer than the writer takes.  A plain name is one
or more labels of a few ASCII characters, none of them a capital letter or a dot, joined by
dots; it is read as it is.
-/

namespace LproxyCv.Dns

open LproxyCv.Foundation

/-! ## Text -/

/-- Text of ASCII characters that are their own lower case. -/
def LowerAscii (l : List Char) : Prop := ∀ c ∈ l, c.toNat < 128 ∧ c.toLower = c

/-- The byte of an ASCII character. -/
def asciiByte (c : Char) : UInt8 := UInt8.ofNat c.toNat

theorem LowerAscii.tail {c : Char} {l : List Char} (h : LowerAscii (c :: l)) : LowerAscii l :=
  fun c' hc' => h c' (List.mem_cons_of_mem c hc')

theorem utf8_ofList {l : List Char} (h : LowerAscii l) :
    utf8 (String.ofList l) = l.map asciiByte := by
  induction l with
  | nil => rfl
  | cons c l ih =>
      have hsize : c.utf8Size = 1 := by
        refine Char.utf8Size_eq_one_iff.mpr (UInt32.le_iff_toNat_le.mpr ?_)
        exact Nat.le_of_lt_succ (h c List.mem_cons_self).1
      have hhead : utf8 (String.ofList [c]) = [asciiByte c] := by
        unfold utf8 String.toUTF8
        rw [String.toByteArray_ofList, List.utf8Encode_singleton,
          String.utf8EncodeChar_eq_singleton hsize, List.data_toByteArray]
        rfl
      have hcons : String.ofList (c :: l) = String.ofList [c] ++ String.ofList l := by
        rw [← String.ofList_append, List.singleton_append]
      rw [hcons, utf8_append, hhead, ih h.tail]
      rfl

/-! ## Labels -/

/-- A label that is written and read as it is. -/
structure PlainLabel (l : String) : Prop where
  ne_nil : l.toList ≠ []
  short : l.toList.length ≤ 52
  ascii : LowerAscii l.toList
  noDot : '.' ∉ l.toList

instance (l : List Char) : Decidable (LowerAscii l) :=
  List.decidableBAll _ l

instance (l : String) : Decidable (PlainLabel l) :=
  decidable_of_iff (l.toList ≠ [] ∧ l.toList.length ≤ 52 ∧ LowerAscii l.toList ∧ '.' ∉ l.toList)
    ⟨fun h => ⟨h.1, h.2.1, h.2.2.1, h.2.2.2⟩, fun h => ⟨h.ne_nil, h.short, h.ascii, h.noDot⟩⟩

/-- One or more plain labels, joined by dots. -/
def PlainName (name : String) : Prop :=
  ∃ labels : List String, labels ≠ [] ∧ (∀ l ∈ labels, PlainLabel l) ∧
    name = ".".intercalate labels

theorem PlainLabel.utf8 {l : String} (h : PlainLabel l) :
    utf8 l = l.toList.map asciiByte := by
  rw [← utf8_ofList h.ascii, String.ofList_toList]

theorem PlainLabel.length_utf8 {l : String} (h : PlainLabel l) :
    0 < (Foundation.utf8 l).length ∧ (Foundation.utf8 l).length ≤ 52 := by
  rw [h.utf8, List.length_map]
  exact ⟨List.length_pos_of_ne_nil h.ne_nil, h.short⟩

theorem PlainLabel.lower (unicode : UnicodeLower) {l : String} (h : PlainLabel l) :
    toLowercase unicode l = l := by
  have hself : l.toList.map Char.toLower = l.toList :=
    (List.map_congr_left fun c hc => (h.ascii c hc).2).trans (List.map_id _)
  rw [toLowercase_of_ascii unicode fun c hc => (h.ascii c hc).1, hself, String.ofList_toList]

/-- A label that is not the end of a name, and that the writer takes. -/
def ShortLabel (l : String) : Prop := 0 < (utf8 l).length ∧ (utf8 l).length ≤ 52

theorem NameEnds.byteAt {b : Bytes} {p q : Nat} (h : NameEnds b p q) : ∃ x, ByteAt b p x := by
  cases h with
  | root h => exact ⟨_, h⟩
  | pointer h _ _ _ => exact ⟨_, h⟩
  | label h _ _ _ _ _ => exact ⟨_, h⟩

namespace BytePacketBuffer

/-- The bytes of a label: how many they are, and they. -/
def labelBytes : Reader Bytes := do
  let len ← read
  read.times len.toNat

theorem read_ok {b : Bytes} {p : Nat} {x : UInt8} {c : Cursor} (h : read ⟨b, p⟩ = .ok (x, c)) :
    ByteAt b p x ∧ c = ⟨b, p + 1⟩ := by
  unfold read at h
  split at h
  · cases h
  · rename_i hfar
    split at h
    · cases h
    · rename_i hx
      cases h
      exact ⟨⟨Nat.lt_of_not_le hfar, hx⟩, rfl⟩

theorem times_read_ok {b bs : Bytes} {n p : Nat} {c : Cursor}
    (h : read.times n ⟨b, p⟩ = .ok (bs, c)) :
    bs.length = n ∧ c = ⟨b, p + n⟩ ∧ (b.drop p).take n = bs := by
  induction n generalizing p bs c with
  | zero =>
      cases h
      exact ⟨rfl, rfl, List.take_zero⟩
  | succ n ih =>
      rw [Reader.times] at h
      obtain ⟨x, m, hx, h⟩ := Reader.bind_eq_ok_iff.mp h
      obtain ⟨⟨hnear, hbyte⟩, rfl⟩ := read_ok hx
      obtain ⟨xs, m, hxs, h⟩ := Reader.bind_eq_ok_iff.mp h
      obtain ⟨hlen, rfl, htake⟩ := ih hxs
      cases h
      obtain ⟨hin, rfl⟩ := List.getElem?_eq_some_iff.mp hbyte
      refine ⟨by rw [List.length_cons, hlen], by rw [Nat.add_assoc, Nat.add_comm 1 n], ?_⟩
      rw [List.drop_eq_getElem_cons hin, List.take_succ_cons, htake]

theorem labelBytes_ok {b bs : Bytes} {p : Nat} {c : Cursor}
    (h : labelBytes ⟨b, p⟩ = .ok (bs, c)) :
    ∃ x, ByteAt b p x ∧ x.toNat = bs.length ∧ c = ⟨b, p + 1 + x.toNat⟩ ∧
      (b.drop (p + 1)).take x.toNat = bs := by
  rw [labelBytes] at h
  obtain ⟨x, m, hx, h⟩ := Reader.bind_eq_ok_iff.mp h
  obtain ⟨hbyte, rfl⟩ := read_ok hx
  obtain ⟨hlen, rfl, htake⟩ := times_read_ok h
  exact ⟨x, hbyte, hlen.symm, rfl, htake⟩

theorem inverts_writeLabel {l : String} (h : ShortLabel l) :
    Inverts (writeLabel l) labelBytes (utf8 l) := by
  have hlen := h.2
  have hbyte : (UInt8.ofNat (utf8 l).length).toNat = (utf8 l).length :=
    UInt8.toNat_ofNat_of_lt' (Nat.lt_of_le_of_lt hlen (by decide))
  have hwrite : writeLabel l =
      writeU8 (UInt8.ofNat (utf8 l).length) >>= fun _ => Reader.each writeU8 (utf8 l) :=
    if_neg (Nat.not_lt_of_le hlen)
  rw [hwrite]
  refine (inverts_write _).bind fun _ => ?_
  rw [hbyte]
  exact .each fun x _ => inverts_write x

/-! ## Names -/

/-- Write labels, and the byte behind the last of them. -/
def writeLabels (labels : List String) : Reader Unit := do
  Reader.each writeLabel labels
  writeU8 0

theorem written_labels {labels : List String} (hshort : ∀ l ∈ labels, ShortLabel l)
    {c c' : Cursor} {r : Unit} (h : writeLabels labels c = .ok (r, c')) : Written c c' := by
  induction labels generalizing c with
  | nil => exact (inverts_write 0).written h
  | cons l ls ih =>
      rw [writeLabels, Reader.each, Reader.bind_assoc] at h
      obtain ⟨r', m, hlabel, hrest⟩ := Reader.bind_eq_ok_iff.mp h
      have hhead := (inverts_writeLabel (hshort l List.mem_cons_self)).written hlabel
      exact hhead.trans (ih (fun l' hl' => hshort l' (List.mem_cons_of_mem l hl')) hrest)

/-- The loop reads the labels that were written.  Each of them takes a byte, so that there
are iterations for all of them. -/
theorem readLabels_written (unicode : UnicodeLower) {labels : List String}
    (hshort : ∀ l ∈ labels, ShortLabel l) {fuel : Nat} {delim outstr : String} {p : Nat}
    {c c' : Cursor} {r : Unit} {b : Bytes} (h : writeLabels labels c = .ok (r, c'))
    (hfuel : 512 ≤ c.pos + fuel) (hagree : Agree c.pos c'.pos c'.buf b) :
    readLabels unicode fuel c.pos false delim outstr ⟨b, p⟩ =
      .ok (spell delim outstr (labels.map (toLowercase unicode)), ⟨b, c'.pos⟩) := by
  induction labels generalizing fuel delim outstr c with
  | nil =>
      obtain ⟨hbyte, hend⟩ := read_ok ((inverts_write 0).read h hagree)
      have hnear : c.pos < 512 := hbyte.1
      obtain ⟨fuel, rfl⟩ : ∃ n, fuel = n + 1 := ⟨fuel - 1, by omega⟩
      rw [readLabels_root hbyte, hend]
      rfl
  | cons l ls ih =>
      have hl := hshort l List.mem_cons_self
      have hls : ∀ l' ∈ ls, ShortLabel l' := fun l' hl' => hshort l' (List.mem_cons_of_mem l hl')
      rw [writeLabels, Reader.each, Reader.bind_assoc] at h
      obtain ⟨r', m, hlabel, hrest⟩ := Reader.bind_eq_ok_iff.mp h
      have htail := written_labels hls hrest
      have hle := ((inverts_writeLabel hl).written hlabel).le
      -- the label stands in the buffer
      have hbefore : Agree c.pos m.pos m.buf b :=
        (htail.before.mono (Nat.zero_le _) le_rfl).trans (hagree.mono le_rfl htail.le)
      obtain ⟨x, hbyte, hx, hend, htake⟩ :=
        labelBytes_ok ((inverts_writeLabel hl).read hlabel hbefore)
      have hpos : m.pos = c.pos + 1 + x.toNat := congrArg Cursor.pos hend
      have hnear : c.pos < 512 := hbyte.1
      obtain ⟨hpos', hlen⟩ := hl
      obtain ⟨fuel, rfl⟩ : ∃ n, fuel = n + 1 := ⟨fuel - 1, by omega⟩
      -- and so does what is behind it
      have hread : readLabels unicode fuel m.pos false "."
          (outstr ++ delim ++ toLowercase unicode l) ⟨b, p⟩ =
          .ok (spell "." (outstr ++ delim ++ toLowercase unicode l)
            (ls.map (toLowercase unicode)), ⟨b, c'.pos⟩) :=
        ih hls hrest (by omega) (hagree.mono hle le_rfl)
      obtain ⟨q, hends, _⟩ := (readLabels_sound unicode b fuel m.pos false "." _ p).2 _ _ hread
      obtain ⟨y, hnext, hy⟩ := hends.byteAt
      obtain ⟨hin, _⟩ := List.getElem?_eq_some_iff.mp hy
      have hnotPointer : ¬ IsPointer x := by
        unfold IsPointer
        omega
      have hnotRoot : x ≠ 0 := by
        rintro rfl
        exact absurd hx (Nat.ne_of_lt hpos')
      rw [readLabels_label hbyte hnotPointer hnotRoot (by omega) (by omega), htake,
        fromUtf8Lossy_utf8, ← hpos, hread]
      rfl

/-- A name in lower case, label by label. -/
def lowerName (unicode : UnicodeLower) (name : String) : String :=
  ".".intercalate ((splitLabels name).map (toLowercase unicode))

theorem inverts_writeQname_of_short (unicode : UnicodeLower) {fuel : Nat} (hfuel : 512 ≤ fuel)
    {name : String} (h : ∀ l ∈ splitLabels name, ShortLabel l) :
    Inverts (writeQname name) (readQname unicode fuel "") (lowerName unicode name) := by
  have hwrite : writeQname name = writeLabels (splitLabels name) := rfl
  have hspell := spell_eq_intercalate ((splitLabels name).map (toLowercase unicode))
  rw [hwrite, lowerName]
  constructor
  · intro c c' r hw
    exact written_labels h hw
  · intro c c' r hw b hagree
    rw [← hspell]
    exact readLabels_written unicode h hw (Nat.le_add_left_of_le hfuel) hagree

theorem inverts_writeQname (unicode : UnicodeLower) {fuel : Nat} (hfuel : 512 ≤ fuel)
    {name : String} (h : PlainName name) :
    Inverts (writeQname name) (readQname unicode fuel "") name := by
  obtain ⟨labels, hne, hplain, rfl⟩ := h
  have hsplit : splitLabels (".".intercalate labels) = labels :=
    splitLabels_join hne fun l hl => (hplain l hl).noDot
  have hlower : lowerName unicode (".".intercalate labels) = ".".intercalate labels := by
    have hself : labels.map (toLowercase unicode) = labels :=
      (List.map_congr_left fun l hl => (hplain l hl).lower unicode).trans (List.map_id labels)
    rw [lowerName, hsplit, hself]
  have hshort : ∀ l ∈ splitLabels (".".intercalate labels), ShortLabel l := by
    rw [hsplit]
    exact fun l hl => (hplain l hl).length_utf8
  have hinverts := inverts_writeQname_of_short unicode hfuel hshort
  rwa [hlower] at hinverts

end BytePacketBuffer

end LproxyCv.Dns
