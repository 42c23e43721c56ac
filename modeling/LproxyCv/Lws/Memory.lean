import LproxyCv.Lws.FrameStream

set_option autoImplicit false

/-!
# Lws: the memory the receiver hands to its reader

The receiver passes the free part of its message buffer to the transport, and
computes that part from the length field it has accepted:

* it hands out free memory of the buffer, at every pass up to the first `None`
  or `Err`, exactly on the streams that reach no length field of one
  (`inBuffer_iff_not_meetsOne`);
* after refusing a length field it goes on with the refused message
  (`not_terminated_of_invalidLength`).
-/

namespace LproxyCv.Lws

open LproxyCv.Foundation

/-! ## Length fields of one -/

/-- Frame by frame, the stream reaches a length field of one. -/
inductive MeetsOne : Bytes → Prop where
  | here {rest : Bytes} : MeetsOne ([1, 0] ++ rest)
  | later {g rest : Bytes} : IsFrame g → MeetsOne rest → MeetsOne (g ++ rest)

/-- The length field of such a stream is one or the length of a frame. -/
theorem MeetsOne.lengthField {s : Bytes} (h : MeetsOne s) :
    headSize ≤ s.length ∧ (s = [1, 0] ++ s.drop 2 ∨
      ∃ g, IsFrame g ∧ s = g ++ s.drop g.length ∧ MeetsOne (s.drop g.length)) := by
  cases h with
  | here => exact ⟨by simp [headSize], Or.inl (by simp)⟩
  | @later g rest hg hrest =>
      refine ⟨?_, Or.inr ⟨g, hg, by simp, by simpa using hrest⟩⟩
      have hhead := hg.1
      rw [List.length_append]
      omega

theorem not_meetsOne_of_begun {p : Bytes} (h : Begun p) : ¬ MeetsOne p := by
  intro hone
  obtain ⟨hlen, heq | ⟨g, hg, heq, _⟩⟩ := hone.lengthField
  · have hval : (Lws.lengthField p).toNat = 1 := by
      rw [heq, lengthField_append (by decide)]
      decide
    have htwo : headSize = 2 := rfl
    rcases h with hlt | ⟨hlt, _⟩ <;> omega
  · exact not_isFrame_of_begun h heq hg

theorem not_meetsOne_of_refused {q r : Bytes} (h : Refused q) : ¬ MeetsOne (q ++ r) := by
  intro hone
  obtain ⟨hlen, hbad⟩ := h
  have hfield : Lws.lengthField (q ++ r) = Lws.lengthField q := lengthField_append (by omega)
  have hcap : (UInt16.ofNat defaultCap).toNat = defaultCap := by decide
  obtain ⟨_, heq | ⟨g, hg, heq, _⟩⟩ := hone.lengthField
  · have hval : Lws.lengthField q = 1 := by
      rw [← hfield, heq, lengthField_append (by decide)]
      decide
    rw [hval] at hbad
    revert hbad
    decide
  · have hval : (Lws.lengthField q).toNat = g.length := by
      rw [← hfield, heq, lengthField_append hg.1, hg.2.2]
    obtain ⟨hhead, hle, _⟩ := hg
    have htwo : headSize = 2 := rfl
    rcases hbad with hzero | hgt
    · rw [hzero] at hval
      simp only [UInt16.toNat_zero] at hval
      omega
    · rw [UInt16.lt_iff_toNat_lt, hcap] at hgt
      omega

/-- A complete frame in front of a stream does not change what it reaches. -/
theorem meetsOne_frame_iff {g rest : Bytes} (hg : IsFrame g) :
    MeetsOne (g ++ rest) ↔ MeetsOne rest := by
  constructor
  · intro h
    obtain ⟨_, heq | ⟨g', hg', heq, hrest⟩⟩ := h.lengthField
    · have hval : (Lws.lengthField g).toNat = 1 := by
        rw [← lengthField_append (b := rest) hg.1, heq, lengthField_append (by decide)]
        decide
      obtain ⟨hhead, _, hlen⟩ := hg
      have htwo : headSize = 2 := rfl
      omega
    · obtain ⟨_, hr⟩ := hg.unique hg' heq
      rw [hr]
      exact hrest
  · exact .later hg

namespace LwsFramed

/-- The receiver is in the middle of a frame of a stream that reaches no length
field of one. -/
def OneFree (f : LwsFramed) : Prop := ∃ p, f.Holding p ∧ ¬ MeetsOne (p ++ f.unread)

theorem OneFree.step {f f' : LwsFramed} {out : Pass} (h : f.OneFree)
    (hstep : passStep f out f') (hout : ¬ out.Last) : f'.OneFree := by
  obtain ⟨p, hp, hfree⟩ := h
  have hspec := loopPass_spec hp
  rw [show f.loopPass = (f', out) from hstep] at hspec
  dsimp only at hspec
  generalize f.unread = s at hspec hfree
  cases hspec with
  | @grow b _ hs hq =>
      refine ⟨p ++ b, hq, ?_⟩
      rw [List.append_assoc, ← hs]
      exact hfree
  | @frame b _ hs hg hnew =>
      refine ⟨[], hnew, ?_⟩
      rw [hs, ← List.append_assoc, meetsOne_frame_iff hg] at hfree
      exact hfree
  | @one b _ hs heq _ =>
      rw [hs, ← List.append_assoc, heq] at hfree
      exact absurd .here hfree
  | pending hs hq =>
      refine ⟨p, hq, ?_⟩
      rw [hs]
      exact hfree
  | refused _ _ _ => exact absurd trivial hout
  | finished _ => exact absurd trivial hout
  | failed _ => exact absurd trivial hout

/-- A stream that reaches a length field of one brings the receiver to a message
whose free memory it computes wrongly. -/
theorem leaves_buffer_of_meetsOne : ∀ (n : Nat) {f : LwsFramed} {p : Bytes},
    f.unread.length + f.size < n → f.Holding p → MeetsOne (p ++ f.unread) →
    ∃ es g, Run passStep f es g ∧ (∀ e ∈ es, ¬ e.Last) ∧ ¬ g.current.InBuffer := by
  intro n
  induction n with
  | zero => intro f p hn; omega
  | succ n ih =>
      intro f p hn hp hone
      have hspec := loopPass_spec hp
      obtain ⟨hle, hlt⟩ := loopPass_size f
      have hstep : passStep f f.loopPass.2 f.loopPass.1 := rfl
      -- prolong a run from the state after this pass
      have hcons : ∀ {q : Bytes}, ¬ f.loopPass.2.Last → f.loopPass.1.Holding q →
          MeetsOne (q ++ f.loopPass.1.unread) →
          f.loopPass.1.unread.length + f.loopPass.1.size < n →
          ∃ es g, Run passStep f es g ∧ (∀ e ∈ es, ¬ e.Last) ∧ ¬ g.current.InBuffer := by
        intro q hout hq hmeets hless
        obtain ⟨es, g, hrun, hes, hg⟩ := ih hless hq hmeets
        refine ⟨_ :: es, g, .cons hstep hrun, ?_, hg⟩
        intro e he
        rcases List.mem_cons.mp he with rfl | hmem
        · exact hout
        · exact hes e hmem
      generalize hs : f.unread = s at hspec hone hn
      generalize hout : f.loopPass.2 = out at *
      generalize hnext : f.loopPass.1 = f' at *
      cases hspec with
      | @grow b _ hsplit hq =>
          have hsize := hlt (Or.inl rfl)
          refine hcons (q := p ++ b) (by simp [Pass.Last]) hq ?_ ?_
          · rw [List.append_assoc, ← hsplit]
            exact hone
          · have hlen := congrArg List.length hsplit
            rw [List.length_append] at hlen
            omega
      | @frame b _ hsplit hg hnew =>
          refine hcons (q := []) (by simp [Pass.Last]) hnew ?_ ?_
          · rw [hsplit, ← List.append_assoc, meetsOne_frame_iff hg] at hone
            exact hone
          · have hlen := congrArg List.length hsplit
            have hbpos := pos_of_begun hp.begun hg
            rw [List.length_append] at hlen
            omega
      | one _ _ hcur =>
          refine ⟨[.again], f', .cons hstep (.nil f'), by simp [Pass.Last], ?_⟩
          rw [hcur]
          decide
      | pending hsplit hq =>
          have hsize := hlt (Or.inr rfl)
          refine hcons (q := p) (by simp [Pass.Last]) hq (by rw [hsplit]; exact hone) ?_
          rw [hsplit]
          omega
      | refused hsplit hbad _ =>
          rw [hsplit, ← List.append_assoc] at hone
          exact absurd hone (not_meetsOne_of_refused hbad)
      | finished hnil =>
          rw [hnil, List.append_nil] at hone
          exact absurd hone (not_meetsOne_of_begun hp.begun)
      | failed hnil =>
          rw [hnil, List.append_nil] at hone
          exact absurd hone (not_meetsOne_of_begun hp.begun)

/-- At every pass up to the first `None` or `Err` the receiver hands out free
memory of the buffer only, exactly when the stream reaches no length field of
one. -/
theorem inBuffer_iff_not_meetsOne (io : Transport) (tail : Option Bytes) :
    (∀ es f, Run passStep (new io tail) es f → (∀ e ∈ es, ¬ e.Last) → f.current.InBuffer) ↔
      ¬ MeetsOne (tail.getD [] ++ deliverable io.reads) := by
  constructor
  · intro hall hone
    obtain ⟨es, g, hrun, hes, hg⟩ :=
      leaves_buffer_of_meetsOne _ (Nat.lt_succ_self _) (holding_new io tail)
        (by simpa [unread, new] using hone)
    exact hg (hall es g hrun hes)
  · intro hfree es f hrun hes
    have hinv : f.OneFree := by
      have hstart : (new io tail).OneFree :=
        ⟨[], holding_new io tail, by simpa [unread, new] using hfree⟩
      clear hfree
      generalize new io tail = f₀ at hrun hstart
      induction hrun with
      | nil _ => exact hstart
      | cons hfirst _ ih =>
          exact ih (fun e he => hes e (List.mem_cons_of_mem _ he))
            (hstart.step hfirst (hes _ List.mem_cons_self))
    obtain ⟨p, hp, _⟩ := hinv
    rw [hp.current]
    exact inBuffer_ofBytes hp.begun

/-- The two bytes of a length field of one, and the receiver's next read would
be past the end of the message. -/
theorem one_leaves_buffer :
    ∃ f, Run passStep (new ⟨[.data [1, 0, 5]], [], []⟩ none) [.again] f ∧
      ¬ f.current.InBuffer :=
  ⟨_, .cons rfl (.nil _), by decide⟩

/-! ## After a refused length field -/

/-- A length field is refused only when it is decoded, and then it is zero or
longer than the buffer. -/
theorem advanceMut_error {m : RMessage} {bs : Bytes} {e : IoError} (hm : m.error = none)
    (h : (m.advanceMut bs).error = some e) :
    headSize ≤ (m.advanceMut bs).buf.length ∧
      e = invalidLength (m.advanceMut bs).cachedLegnth ∧
      ((m.advanceMut bs).cachedLegnth = 0 ∨
        UInt16.ofNat defaultCap < (m.advanceMut bs).cachedLegnth) := by
  unfold RMessage.advanceMut at h ⊢
  by_cases hdecode : m.cachedLegnth = 0 ∧ headSize ≤ (m.buf ++ bs).length
  · simp only [if_pos hdecode] at h ⊢
    by_cases hbad : lengthField (m.buf ++ bs) = 0 ∨
        UInt16.ofNat defaultCap < lengthField (m.buf ++ bs)
    · rw [if_pos hbad] at h
      exact ⟨hdecode.2, by simpa [eq_comm] using h, hbad⟩
    · rw [if_neg hbad, hm] at h
      simp at h
  · simp only [if_neg hdecode] at h
    rw [hm] at h
    simp at h

theorem putSlice_error {m : RMessage} {bs : Bytes} {e : IoError} (hm : m.error = none)
    (h : (m.putSlice bs).error = some e) :
    headSize ≤ (m.putSlice bs).buf.length ∧
      e = invalidLength (m.putSlice bs).cachedLegnth ∧
      ((m.putSlice bs).cachedLegnth = 0 ∨
        UInt16.ofNat defaultCap < (m.putSlice bs).cachedLegnth) := by
  unfold RMessage.putSlice at h ⊢
  by_cases hnil : bs = []
  · rw [if_pos hnil, hm] at h
    simp at h
  · rw [if_neg hnil] at h ⊢
    exact advanceMut_error hm h

/-- A read of no bytes decodes nothing: the message had room for more. -/
theorem advanceMut_nil {m : RMessage} {room : Nat} (hm : m.error = none)
    (h : m.remainingMut = some room) : m.advanceMut [] = m := by
  unfold RMessage.advanceMut
  simp only [List.append_nil]
  split
  · rename_i hdecode
    have htwo : headSize = 2 := rfl
    unfold RMessage.remainingMut at h
    simp only [hm, hdecode.1, UInt16.toNat_zero, Option.isSome_none, Bool.false_eq_true,
      if_false] at h
    split at h
    · omega
    · split at h
      · omega
      · simp at h
  · rfl

/-- The message that was refused, without its error: the next read is computed
from a length that is no length of it. -/
theorem not_inBuffer_of_badLength {m : RMessage} (hm : m.error = none)
    (hlen : headSize ≤ m.buf.length)
    (hbad : m.cachedLegnth = 0 ∨ UInt16.ofNat defaultCap < m.cachedLegnth) :
    ¬ m.InBuffer := by
  rintro ⟨r, hr, hle⟩
  have htwo : headSize = 2 := rfl
  have hcap : (UInt16.ofNat defaultCap).toNat = defaultCap := by decide
  have hnot : ¬ m.buf.length < headSize := by omega
  unfold RMessage.remainingMut at hr
  rw [hm] at hr
  simp only [Option.isSome_none, Bool.false_eq_true, if_false, hnot] at hr
  split at hr
  · rename_i hfits
    simp only [Option.some.injEq] at hr
    rcases hbad with hzero | hgt
    · rw [hzero] at hfits
      simp only [UInt16.toNat_zero] at hfits
      omega
    · rw [UInt16.lt_iff_toNat_lt, hcap] at hgt
      omega
  · simp at hr

/-- The end of a pass leaves a message without error, and an `Err` it returns is
the refusal of a length field that stays in the message. -/
theorem checkCompleted_error {f : LwsFramed} {msg : RMessage}
    (hmsg : ∀ e, msg.error = some e → headSize ≤ msg.buf.length ∧
      e = invalidLength msg.cachedLegnth ∧
      (msg.cachedLegnth = 0 ∨ UInt16.ofNat defaultCap < msg.cachedLegnth)) :
    (f.checkCompleted msg).1.current.error = none ∧
      ∀ e, (f.checkCompleted msg).2 = .err e →
        (∃ v, e = invalidLength v) ∧ ¬ (f.checkCompleted msg).1.current.InBuffer := by
  unfold checkCompleted
  by_cases hdone : msg.isCompleted = true
  · rw [if_pos hdone]
    cases herr : msg.error with
    | none => simp [current, RMessage.new]
    | some e =>
        obtain ⟨hlen, hval, hbad⟩ := hmsg e herr
        refine ⟨rfl, ?_⟩
        intro e' he'
        have heq : e = e' := by simpa using he'
        exact ⟨⟨_, heq ▸ hval⟩, not_inBuffer_of_badLength rfl hlen hbad⟩
  · rw [if_neg hdone]
    have hnone : msg.error = none := by
      unfold RMessage.isCompleted at hdone
      cases herr : msg.error with
      | none => rfl
      | some e => simp [herr] at hdone
    simp [current, hnone]

/-- Every pass leaves a message without error.  The `Err` it returns is one of
the transport, or the refusal of a length field that stays in the message. -/
theorem loopPass_error {f : LwsFramed} (hf : f.current.error = none) :
    f.loopPass.1.current.error = none ∧
      ∀ e, f.loopPass.2 = .err e →
        (∃ code cap, e = .os code ∧ 0 < cap ∧
          (Foundation.pollRead cap f.io.reads).1 = .error code) ∨
        ((∃ v, e = invalidLength v) ∧ ¬ f.loopPass.1.current.InBuffer) := by
  rcases loopPass_cases f with
    ⟨_, hpass⟩ | ⟨room, hroom, _, ⟨tail, _, hpass⟩ | ⟨_, hpass⟩⟩
  · rw [hpass]
    exact ⟨hf, by simp⟩
  · rw [hpass]
    have hmsg := fun e => @putSlice_error f.current (tail.take (min tail.length room)) e hf
    exact ⟨(checkCompleted_error hmsg).1, fun e he => Or.inr ((checkCompleted_error hmsg).2 e he)⟩
  · rw [hpass]
    unfold readPass
    by_cases hzero : room = 0
    · rw [if_pos hzero]
      exact ⟨hf, by simp⟩
    · rw [if_neg hzero]
      rcases hread : f.io.pollRead room with ⟨result, io⟩
      have hfst : (Foundation.pollRead room f.io.reads).1 = result := by
        rw [← Transport.pollRead_fst, hread]
      cases result with
      | pending => exact ⟨hf, by simp⟩
      | error code =>
          refine ⟨hf, ?_⟩
          intro e he
          exact Or.inl ⟨code, room, by simpa [eq_comm] using he, by omega, hfst⟩
      | ok bs =>
          by_cases hnil : bs = []
          · simp only [hnil, if_true, advanceMut_nil hf hroom]
            exact ⟨hf, by simp⟩
          · simp only [hnil, if_false]
            obtain ⟨hnone, herr⟩ :=
              checkCompleted_error (f := { f with io := io }) fun e => advanceMut_error hf
            exact ⟨hnone, fun e he => Or.inr (herr e he)⟩

/-- A stream that is over for good: polled on, it answers `None` or `Err`, reads
nothing into the message it holds, and hands out free memory only. -/
structure Terminated (f : LwsFramed) : Prop where
  ended : ∀ es g, Run pollStep f es g → ∀ e ∈ es, e = .finished ∨ ∃ error, e = .err error
  kept : ∀ es g, Run pollStep f es g → g.current.buf = f.current.buf
  inBuffer : ∀ es g, Run passStep f es g → g.current.InBuffer

/-- A stream is never terminated by the refusal of a length field: the refused
message stays in place, and the next call computes its free memory from the
refused length. -/
theorem not_terminated_of_invalidLength {io : Transport} {tail : Option Bytes}
    {es : List Pass} {f f' : LwsFramed} {v : UInt16}
    (hrun : Run passStep (new io tail) es f)
    (hpass : passStep f (.err (invalidLength v)) f') : ¬ f'.Terminated := by
  have hf : f.current.error = none := by
    have hkeep : ∀ s out t, s.current.error = none → passStep s out t →
        t.current.error = none := by
      intro s out t hs hstep
      have hnext := (loopPass_error hs).1
      rw [show s.loopPass = (t, out) from hstep] at hnext
      exact hnext
    exact hrun.preserves hkeep rfl
  have herr := (loopPass_error hf).2 (invalidLength v)
  rw [show f.loopPass = (f', .err (invalidLength v)) from hpass] at herr
  intro hended
  rcases herr rfl with ⟨code, cap, hos, _⟩ | ⟨_, hleaves⟩
  · simp [invalidLength] at hos
  · exact hleaves (hended.inBuffer [] f' (.nil f'))

/-- The receiver after it has refused a length field of zero. -/
theorem zero_not_terminated :
    ∃ f', passStep (new ⟨[.data [0, 0, 7]], [], []⟩ none) (.err (invalidLength 0)) f' ∧
      ¬ f'.Terminated := by
  have hpass : passStep (new ⟨[.data [0, 0, 7]], [], []⟩ none) (.err (invalidLength 0))
      (new ⟨[.data [0, 0, 7]], [], []⟩ none).loopPass.1 := rfl
  exact ⟨_, hpass, not_terminated_of_invalidLength (.nil _) hpass⟩

/-- A length field of 9000 is refused, and the next call offers memory past the
end of the buffer to the transport. -/
theorem nine_thousand_not_terminated :
    ∃ f', passStep (new ⟨[.data [40, 35], .data [1, 2, 3]], [], []⟩ none)
        (.err (invalidLength 9000)) f' ∧ ¬ f'.Terminated :=
  ⟨_, rfl, fun h => absurd (h.inBuffer [] _ (.nil _)) (by decide)⟩

end LwsFramed

end LproxyCv.Lws
