import LproxyCv.Lws.LwsFramed

set_option autoImplicit false

/-!
# Lws: what a pass of the receiver does, said on the bytes alone

The receiver's state between two passes is determined by the bytes of the frame
it has begun: `RMessage.ofBytes p` is the message after the bytes `p`, whatever
reads they came in.  `loopPass_spec` says what one pass does in these terms, and
every result about the receiver is derived from it.
-/

namespace LproxyCv.Lws

open LproxyCv.Foundation

/-! ## Frames and begun frames -/

/-- A frame carries its own length, and a message buffer holds it. -/
def IsFrame (g : Bytes) : Prop :=
  headSize ≤ g.length ∧ g.length ≤ defaultCap ∧ (lengthField g).toNat = g.length

instance (g : Bytes) : Decidable (IsFrame g) := inferInstanceAs (Decidable (_ ∧ _ ∧ _))

/-- The bytes of a frame whose end has not come yet. -/
def Begun (p : Bytes) : Prop :=
  p.length < headSize ∨
    (p.length < (lengthField p).toNat ∧ (lengthField p).toNat ≤ defaultCap)

theorem begun_nil : Begun [] := Or.inl (by simp [headSize])

/-- The message of the receiver after the bytes `p` of a frame. -/
def RMessage.ofBytes (p : Bytes) : RMessage :=
  ⟨p, if headSize ≤ p.length then lengthField p else 0, none⟩

@[simp] theorem RMessage.ofBytes_buf (p : Bytes) : (RMessage.ofBytes p).buf = p := rfl

/-- The number of bytes a begun frame takes at one read. -/
def need (p : Bytes) : Nat :=
  if p.length < headSize then headSize - p.length else (lengthField p).toNat - p.length

theorem need_pos {p : Bytes} (h : Begun p) : 0 < need p := by
  unfold need
  split
  · omega
  · rcases h with hlt | ⟨hlt, _⟩ <;> omega

theorem remainingMut_ofBytes {p : Bytes} (h : Begun p) :
    (RMessage.ofBytes p).remainingMut = some (need p) := by
  unfold RMessage.remainingMut RMessage.ofBytes need
  by_cases hlen : p.length < headSize
  · simp [hlen]
  · rcases h with hlt | ⟨hlt, _⟩
    · omega
    · have hhead : headSize ≤ p.length := by omega
      have hle : p.length ≤ (lengthField p).toNat := by omega
      simp [hlen, hhead, hle]

theorem need_le {p : Bytes} (h : Begun p) : p.length + need p ≤ defaultCap := by
  unfold need
  have hcap : headSize ≤ defaultCap := by decide
  rcases h with hlt | ⟨hlt, hle⟩
  · rw [if_pos hlt]
    omega
  · split <;> omega

/-- The receiver of a begun frame hands out free memory of the buffer. -/
theorem inBuffer_ofBytes {p : Bytes} (h : Begun p) : (RMessage.ofBytes p).InBuffer :=
  ⟨need p, remainingMut_ofBytes h, need_le h⟩

theorem not_isFrame_of_begun {p g r : Bytes} (h : Begun p) (heq : p = g ++ r) :
    ¬ IsFrame g := by
  rintro ⟨htwo, _, hlen⟩
  subst heq
  rw [Begun, lengthField_append htwo] at h
  simp only [List.length_append] at h
  omega

/-- What completes a frame that was begun is not empty. -/
theorem pos_of_begun {p b : Bytes} (h : Begun p) (hg : IsFrame (p ++ b)) : 0 < b.length := by
  rcases Nat.eq_zero_or_pos b.length with hzero | hpos
  · rw [List.eq_nil_of_length_eq_zero hzero, List.append_nil] at hg
    exact absurd hg (not_isFrame_of_begun (r := []) h (by simp))
  · exact hpos

/-- Two frames at the start of one stream are the same frame. -/
theorem IsFrame.unique {g g' r r' : Bytes} (h : IsFrame g) (h' : IsFrame g')
    (heq : g ++ r = g' ++ r') : g = g' ∧ r = r' := by
  have hfield : lengthField g = lengthField g' := by
    rw [← lengthField_append (b := r) h.1, ← lengthField_append (b := r') h'.1, heq]
  have hlen : g.length = g'.length := by
    rw [← h.2.2, ← h'.2.2, hfield]
  exact List.append_inj heq hlen

/-! ## Reading into a begun frame -/

/-- A length field the receiver refuses as soon as it is there. -/
def Refused (q : Bytes) : Prop :=
  q.length = headSize ∧ (lengthField q = 0 ∨ UInt16.ofNat defaultCap < lengthField q)

instance (q : Bytes) : Decidable (Refused q) := inferInstanceAs (Decidable (_ ∧ _))

/-- The message after `b` more bytes, while the length field is not known. -/
theorem advanceMut_ofBytes_head {p b : Bytes} (hp : p.length < headSize)
    (hb : (p ++ b).length ≤ headSize) :
    (RMessage.ofBytes p).advanceMut b =
      if Refused (p ++ b) then
        { RMessage.ofBytes (p ++ b) with error := some (invalidLength (lengthField (p ++ b))) }
      else RMessage.ofBytes (p ++ b) := by
  have hnot : ¬ headSize ≤ p.length := by omega
  unfold RMessage.advanceMut RMessage.ofBytes Refused
  simp only [hnot, if_false, true_and]
  by_cases hhead : headSize ≤ (p ++ b).length
  · have hlen : (p ++ b).length = headSize := by omega
    simp only [hlen, le_refl, if_true, true_and]
    split <;> simp_all
  · have hlen : (p ++ b).length ≠ headSize := by omega
    simp only [hhead, hlen, if_false, false_and]

/-- Once the length field is known, reading only appends. -/
theorem advanceMut_ofBytes_body {p b : Bytes} (h : Begun p) (hp : headSize ≤ p.length) :
    (RMessage.ofBytes p).advanceMut b = RMessage.ofBytes (p ++ b) := by
  have hne : lengthField p ≠ 0 := by
    intro hzero
    rcases h with hlt | ⟨hlt, _⟩
    · omega
    · rw [hzero] at hlt
      simp at hlt
  have hhead : headSize ≤ (p ++ b).length := by
    rw [List.length_append]
    omega
  unfold RMessage.advanceMut RMessage.ofBytes
  simp only [hp, hne, hhead, lengthField_append hp, if_true, if_false, false_and]

/-- The message after `b` more bytes, as many as it takes at a time. -/
theorem advanceMut_ofBytes {p b : Bytes} (h : Begun p) (hne : b ≠ [])
    (hb : b.length ≤ need p) :
    (RMessage.ofBytes p).advanceMut b =
      if Refused (p ++ b) then
        { RMessage.ofBytes (p ++ b) with error := some (invalidLength (lengthField (p ++ b))) }
      else RMessage.ofBytes (p ++ b) := by
  have hpos : 0 < b.length := List.length_pos_of_ne_nil hne
  by_cases hp : p.length < headSize
  · rw [need, if_pos hp] at hb
    refine advanceMut_ofBytes_head hp ?_
    rw [List.length_append]
    omega
  · have hnot : ¬ Refused (p ++ b) := by
      rintro ⟨hlen, _⟩
      rw [List.length_append] at hlen
      omega
    rw [if_neg hnot]
    exact advanceMut_ofBytes_body h (by omega)

/-- What the bytes `q` of a frame are, once as many of them were read as the
receiver takes at a time. -/
inductive Read (q : Bytes) : Prop where
  | begun : Begun q → Read q
  | frame : IsFrame q → Read q
  | refused : Refused q → Read q
  | one : q = [1, 0] → Read q

theorem read_append {p b : Bytes} (h : Begun p) (hb : b.length ≤ need p) : Read (p ++ b) := by
  have hcap : (UInt16.ofNat defaultCap).toNat = defaultCap := by decide
  have htwo : headSize = 2 := rfl
  by_cases hp : p.length < headSize
  · rw [need, if_pos hp] at hb
    by_cases hq : (p ++ b).length < headSize
    · exact .begun (Or.inl hq)
    · have hlen : (p ++ b).length = headSize := by
        simp only [List.length_append] at hq ⊢
        omega
      by_cases hbad : lengthField (p ++ b) = 0 ∨ UInt16.ofNat defaultCap < lengthField (p ++ b)
      · exact .refused ⟨hlen, hbad⟩
      · have hle : (lengthField (p ++ b)).toNat ≤ defaultCap := by
          by_contra hgt
          exact hbad (Or.inr (by rw [UInt16.lt_iff_toNat_lt, hcap]; omega))
        have hpos : (lengthField (p ++ b)).toNat ≠ 0 := by
          intro hzero
          exact hbad (Or.inl (UInt16.toNat.inj hzero))
        rcases Nat.lt_trichotomy (lengthField (p ++ b)).toNat 2 with hlt | heq | hgt
        · -- the only number below two that is left is one
          have hval : (lengthField (p ++ b)).toNat = 1 := by omega
          have htake : (p ++ b).take headSize = p ++ b := List.take_of_length_le (by omega)
          rw [lengthField_toNat, htake] at hval
          have hback := leBytes_leNat (p ++ b)
          rw [hval, hlen] at hback
          exact .one hback.symm
        · exact .frame ⟨by omega, by omega, by omega⟩
        · exact .begun (Or.inr ⟨by omega, hle⟩)
  · have hfield : lengthField (p ++ b) = lengthField p := lengthField_append (by omega)
    rw [need, if_neg hp] at hb
    rcases h with hlt | ⟨hlt, hle⟩
    · omega
    · have hlen : (p ++ b).length ≤ (lengthField (p ++ b)).toNat := by
        rw [hfield, List.length_append]
        omega
      by_cases heq : (p ++ b).length = (lengthField (p ++ b)).toNat
      · refine .frame ⟨?_, by rw [heq, hfield]; exact hle, heq.symm⟩
        rw [List.length_append]
        omega
      · exact .begun (Or.inr ⟨by omega, by rw [hfield]; exact hle⟩)

/-! ## One pass -/

namespace LwsFramed

/-- The bytes not yet read: the tail, then what the transport will deliver. -/
def unread (f : LwsFramed) : Bytes := f.tail.getD [] ++ deliverable f.io.reads

/-- The receiver is in the middle of a frame of which it has read `p`. -/
structure Holding (f : LwsFramed) (p : Bytes) : Prop where
  current : f.current = RMessage.ofBytes p
  begun : Begun p

theorem holding_new (io : Transport) (tail : Option Bytes) : (new io tail).Holding [] :=
  ⟨rfl, begun_nil⟩

/-- What one pass comes to, when `p` was read and `s` was unread before it. -/
inductive PassSpec (p s : Bytes) : LwsFramed → Pass → Prop where
  /-- more of the same frame was read -/
  | grow {b : Bytes} {f : LwsFramed} : s = b ++ f.unread → f.Holding (p ++ b) →
      PassSpec p s f .again
  /-- the frame is complete -/
  | frame {b : Bytes} {f : LwsFramed} : s = b ++ f.unread → IsFrame (p ++ b) →
      f.Holding [] → PassSpec p s f (.item (RMessage.ofBytes (p ++ b)))
  /-- the length field is refused -/
  | refused {b : Bytes} {f : LwsFramed} : s = b ++ f.unread → Refused (p ++ b) →
      f.current = RMessage.ofBytes (p ++ b) →
      PassSpec p s f (.err (invalidLength (lengthField (p ++ b))))
  /-- the length field is one: it is accepted, and no message is that short -/
  | one {b : Bytes} {f : LwsFramed} : s = b ++ f.unread → p ++ b = [1, 0] →
      f.current = RMessage.ofBytes [1, 0] → PassSpec p s f .again
  | pending {f : LwsFramed} : f.unread = s → f.Holding p → PassSpec p s f .pending
  | finished {f : LwsFramed} : s = [] → PassSpec p s f .finished
  | failed {f : LwsFramed} {code : Int} : s = [] → PassSpec p s f (.err (.os code))

/-- The end of a pass reads nothing. -/
@[simp] theorem checkCompleted_unread (f : LwsFramed) (msg : RMessage) :
    (f.checkCompleted msg).1.unread = f.unread := by
  unfold checkCompleted
  split
  · split <;> rfl
  · rfl

theorem isCompleted_ofBytes_begun {q : Bytes} (h : Begun q) :
    (RMessage.ofBytes q).isCompleted = false := by
  unfold RMessage.isCompleted RMessage.ofBytes
  simp only [Option.isSome_none, Bool.false_eq_true, if_false]
  by_cases hq : headSize ≤ q.length
  · rcases h with hlt | ⟨hlt, hle⟩
    · omega
    · have hne : lengthField q ≠ UInt16.ofNat q.length := by
        intro heq
        have hnat := congrArg UInt16.toNat heq
        have hcap : defaultCap < 2 ^ 16 := by decide
        rw [UInt16.toNat_ofNat'] at hnat
        omega
      simp [hq, hne]
  · simp [hq]

theorem isCompleted_ofBytes_frame {q : Bytes} (h : IsFrame q) :
    (RMessage.ofBytes q).isCompleted = true := by
  obtain ⟨hhead, _, hlen⟩ := h
  have htwo : headSize = 2 := rfl
  have hfield : lengthField q = UInt16.ofNat q.length := by
    rw [← hlen, UInt16.ofNat_toNat]
  have hpos : 0 < lengthField q := by
    rw [UInt16.lt_iff_toNat_lt, hlen]
    simp only [UInt16.toNat_zero]
    omega
  unfold RMessage.isCompleted RMessage.ofBytes
  simp [hhead, ← hfield, hpos]

/-- The end of a pass that has read `b`. -/
theorem checkCompleted_spec {f : LwsFramed} {p b : Bytes} (hp : Begun p) (hne : b ≠ [])
    (hb : b.length ≤ need p) :
    PassSpec p (b ++ f.unread)
      (f.checkCompleted ((RMessage.ofBytes p).advanceMut b)).1
      (f.checkCompleted ((RMessage.ofBytes p).advanceMut b)).2 := by
  have hbytes : b ++ f.unread =
      b ++ (f.checkCompleted ((RMessage.ofBytes p).advanceMut b)).1.unread := by simp
  rw [advanceMut_ofBytes hp hne hb] at hbytes ⊢
  cases read_append hp hb with
  | refused hbad =>
      rw [if_pos hbad] at hbytes ⊢
      exact .refused hbytes hbad rfl
  | begun hq =>
      have hnot : ¬ Refused (p ++ b) := by
        rintro ⟨hlen, hbad⟩
        have hcap : (UInt16.ofNat defaultCap).toNat = defaultCap := by decide
        rcases hq with hlt | ⟨hlt, hle⟩
        · omega
        · rcases hbad with hzero | hgt
          · rw [hzero] at hlt
            simp at hlt
          · rw [UInt16.lt_iff_toNat_lt, hcap] at hgt
            omega
      rw [if_neg hnot] at hbytes ⊢
      have hpass : f.checkCompleted (RMessage.ofBytes (p ++ b)) =
          ({ f with reading := some (RMessage.ofBytes (p ++ b)) }, .again) := by
        simp [checkCompleted, isCompleted_ofBytes_begun hq]
      rw [hpass] at hbytes ⊢
      exact .grow hbytes ⟨rfl, hq⟩
  | frame hq =>
      have hnot : ¬ Refused (p ++ b) := by
        rintro ⟨hlen, hbad⟩
        obtain ⟨_, hle, hfield⟩ := hq
        have hcap : (UInt16.ofNat defaultCap).toNat = defaultCap := by decide
        have htwo : headSize = 2 := rfl
        rcases hbad with hzero | hgt
        · rw [hzero] at hfield
          simp only [UInt16.toNat_zero] at hfield
          omega
        · rw [UInt16.lt_iff_toNat_lt, hcap] at hgt
          omega
      rw [if_neg hnot] at hbytes ⊢
      have hpass : f.checkCompleted (RMessage.ofBytes (p ++ b)) =
          ({ f with reading := none }, .item (RMessage.ofBytes (p ++ b))) := by
        have herr : (RMessage.ofBytes (p ++ b)).error = none := rfl
        simp [checkCompleted, isCompleted_ofBytes_frame hq, herr]
      rw [hpass] at hbytes ⊢
      exact .frame hbytes hq ⟨rfl, begun_nil⟩
  | one hq =>
      rw [hq] at hbytes ⊢
      have hnot : ¬ Refused [1, 0] := by decide
      rw [if_neg hnot] at hbytes ⊢
      have hpass : f.checkCompleted (RMessage.ofBytes [1, 0]) =
          ({ f with reading := some (RMessage.ofBytes [1, 0]) }, .again) := by
        have hopen : (RMessage.ofBytes [1, 0]).isCompleted = false := by decide
        simp [checkCompleted, hopen]
      rw [hpass] at hbytes ⊢
      exact .one hbytes hq rfl

/-- What one pass comes to from any state in which the receiver is in the middle
of a frame. -/
theorem loopPass_spec {f : LwsFramed} {p : Bytes} (h : f.Holding p) :
    PassSpec p f.unread f.loopPass.1 f.loopPass.2 := by
  have hroom := remainingMut_ofBytes h.begun
  rcases loopPass_cases f with
    ⟨hbad, _⟩ | ⟨room, hcur, _, ⟨tail, htail, hpass⟩ | ⟨htail, hpass⟩⟩
  · rw [h.current] at hbad
    exact absurd (inBuffer_ofBytes h.begun) hbad
  · rw [h.current, hroom] at hcur
    cases hcur
    rw [hpass, h.current]
    have hunread : f.unread = tail ++ deliverable f.io.reads := by simp [unread, htail]
    by_cases hnil : tail = []
    · -- an empty tail is dropped
      subst hnil
      have hempty : f.tailPass (RMessage.ofBytes p) (need p) [] =
          ({ f with tail := none, reading := some (RMessage.ofBytes p) }, .again) := by
        simp [tailPass, readFromTail, RMessage.putSlice, checkCompleted,
          isCompleted_ofBytes_begun h.begun]
      rw [hempty]
      refine .grow (b := []) ?_ ⟨by simp [current], by simpa using h.begun⟩
      simp [unread, htail]
    · have hpos : 0 < tail.length := List.length_pos_of_ne_nil hnil
      have hneed := need_pos h.begun
      have hne : tail.take (min tail.length (need p)) ≠ [] := by
        intro hzero
        have hlen := congrArg List.length hzero
        rw [List.length_take, List.length_nil] at hlen
        omega
      have hle : (tail.take (min tail.length (need p))).length ≤ need p := by
        rw [List.length_take]
        omega
      have hrest : ∀ g : LwsFramed,
          g.tail = (if (tail.drop (min tail.length (need p))).length < 1 then none
            else some (tail.drop (min tail.length (need p)))) →
          g.io = f.io →
          f.unread = tail.take (min tail.length (need p)) ++ g.unread := by
        intro g hg hio
        rw [hunread, unread, hg, hio]
        by_cases hshort : (tail.drop (min tail.length (need p))).length < 1
        · have hdrop : tail.drop (min tail.length (need p)) = [] :=
            List.eq_nil_of_length_eq_zero (by omega)
          have htake : tail.take (min tail.length (need p)) = tail :=
            List.take_of_length_le (List.drop_eq_nil_iff.mp hdrop)
          rw [if_pos hshort, htake]
          rfl
        · rw [if_neg hshort, Option.getD_some, ← List.append_assoc, List.take_append_drop]
      unfold tailPass
      simp only [readFromTail, RMessage.putSlice, hne, if_false]
      rw [hrest { f with tail := _ } rfl rfl]
      exact checkCompleted_spec h.begun hne hle
  · rw [h.current, hroom] at hcur
    cases hcur
    have hneed := need_pos h.begun
    have hzero : need p ≠ 0 := by omega
    have hunread : f.unread = deliverable f.io.reads := by simp [unread, htail]
    rw [hpass, h.current, hunread]
    unfold readPass
    rw [if_neg hzero]
    rcases f.io.pollRead_cases hneed with
      ⟨bs, io, hread, hne, hle, hbytes, _⟩ | ⟨io, hread, hnil⟩ | ⟨io, hread, hbytes, _⟩ |
        ⟨code, io, hread, hnil⟩
    · simp only [hread, hne, if_false]
      have hstate : deliverable io.reads = unread { f with io := io } := by
        simp [unread, htail]
      rw [hbytes, hstate]
      exact checkCompleted_spec h.begun hne hle
    · simp only [hread, if_true]
      exact .finished hnil
    · simp only [hread]
      exact .pending (by simp [unread, htail, hbytes]) ⟨rfl, h.begun⟩
    · simp only [hread]
      exact .failed hnil

/-- The passes of the receiver, one after the other. -/
def passStep (f : LwsFramed) (out : Pass) (f' : LwsFramed) : Prop := f.loopPass = (f', out)

/-- The calls of `poll_next`, one after the other. -/
def pollStep (f : LwsFramed) (out : Pass) (f' : LwsFramed) : Prop := f.pollNext = (f', out)

end LwsFramed

end LproxyCv.Lws
