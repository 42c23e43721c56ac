import LproxyCv.Lws.CHandshake
import LproxyCv.Lws.Memory

set_option autoImplicit false

/-!
# Lws: a stream of frames comes out as these frames

`Yields` is a consumer that polls a framed connection until it is over.  From
any state in which the receiver has read `p` of a frame, it is handed exactly the
frames of `p` and the unread bytes (`yields_frames`); a connection just made by
the client handshake is such a state, with nothing read, whatever part of the
stream the handshake has kept (`handshake_yields`).
-/

namespace LproxyCv.Lws

open LproxyCv.Foundation

namespace LwsFramed

/-- `Yields f gs out g`: a consumer polls the connection until it is over.  It is
handed the messages `gs` and then `out`, and leaves the connection as `g`. -/
inductive Yields : LwsFramed → List Bytes → Pass → LwsFramed → Prop where
  | item {f f' g : LwsFramed} {m : RMessage} {gs : List Bytes} {out : Pass} :
      f.pollNext = (f', .item m) → Yields f' gs out g → Yields f (m.buf :: gs) out g
  | wait {f f' g : LwsFramed} {gs : List Bytes} {out : Pass} :
      f.pollNext = (f', .pending) → Yields f' gs out g → Yields f gs out g
  | last {f f' : LwsFramed} {out : Pass} :
      f.pollNext = (f', out) → out.Last → Yields f [] out f'

/-- A connection yields one list of messages. -/
theorem Yields.unique {f g g' : LwsFramed} {gs gs' : List Bytes} {out out' : Pass}
    (h : Yields f gs out g) (h' : Yields f gs' out' g') : gs = gs' ∧ out = out' ∧ g = g' := by
  induction h generalizing gs' with
  | item hpoll _ ih =>
      cases h' with
      | item hpoll' hrest =>
          rw [hpoll] at hpoll'
          cases hpoll'
          obtain ⟨rfl, rfl, rfl⟩ := ih hrest
          exact ⟨rfl, rfl, rfl⟩
      | wait hpoll' _ =>
          rw [hpoll] at hpoll'
          cases hpoll'
      | last hpoll' hlast =>
          rw [hpoll] at hpoll'
          cases hpoll'
          exact absurd hlast id
  | wait hpoll _ ih =>
      cases h' with
      | item hpoll' _ =>
          rw [hpoll] at hpoll'
          cases hpoll'
      | wait hpoll' hrest =>
          rw [hpoll] at hpoll'
          cases hpoll'
          exact ih hrest
      | last hpoll' hlast =>
          rw [hpoll] at hpoll'
          cases hpoll'
          exact absurd hlast id
  | last hpoll hlast =>
      cases h' with
      | item hpoll' _ =>
          rw [hpoll] at hpoll'
          cases hpoll'
          exact absurd hlast id
      | wait hpoll' _ =>
          rw [hpoll] at hpoll'
          cases hpoll'
          exact absurd hlast id
      | last hpoll' _ =>
          rw [hpoll] at hpoll'
          cases hpoll'
          exact ⟨rfl, rfl, rfl⟩

/-- A pass that goes round again is part of the same call. -/
theorem Yields.of_again {f f' g : LwsFramed} {gs : List Bytes} {out : Pass}
    (hpass : f.loopPass = (f', .again)) (h : Yields f' gs out g) : Yields f gs out g := by
  have hpoll := pollNext_of_again hpass
  cases h with
  | item hnext hrest => exact .item (hpoll.trans hnext) hrest
  | wait hnext hrest => exact .wait (hpoll.trans hnext) hrest
  | last hnext hlast => exact .last (hpoll.trans hnext) hlast

/-! ## The transport under the receiver -/

/-- A pass reads at most once. -/
theorem loopPass_reads (f : LwsFramed) :
    f.loopPass.1.io.reads = f.io.reads ∨
      ∃ cap, f.loopPass.1.io.reads = (Foundation.pollRead cap f.io.reads).2 := by
  have hend : ∀ (g : LwsFramed) (msg : RMessage), (g.checkCompleted msg).1.io = g.io := by
    intro g msg
    unfold checkCompleted
    split
    · split <;> rfl
    · rfl
  rcases loopPass_cases f with ⟨_, hpass⟩ | ⟨room, _, _, ⟨tail, _, hpass⟩ | ⟨_, hpass⟩⟩
  · left
    rw [hpass]
  · left
    rw [hpass, tailPass, hend]
  · rw [hpass, readPass]
    by_cases hzero : room = 0
    · left
      rw [if_pos hzero]
    · right
      refine ⟨room, ?_⟩
      rw [if_neg hzero, ← Transport.pollRead_reads]
      rcases f.io.pollRead room with ⟨result, io⟩
      cases result with
      | pending => rfl
      | error code => rfl
      | ok bs =>
          dsimp only
          split
          · rfl
          · rw [hend]

/-- A transport that delivers its stream without error goes on doing so. -/
theorem loopPass_onlyData {f : LwsFramed} (hf : OnlyData f.io.reads)
    (hmsg : f.current.error = none) :
    OnlyData f.loopPass.1.io.reads ∧ ∀ code, f.loopPass.2 ≠ .err (.os code) := by
  constructor
  · rcases loopPass_reads f with hsame | ⟨cap, hread⟩
    · rw [hsame]
      exact hf
    · rw [hread]
      exact hf.pollRead
  · intro code hcode
    rcases (loopPass_error hmsg).2 _ hcode with ⟨code', cap, _, hcap, hfail⟩ | ⟨⟨v, hv⟩, _⟩
    · exact (hf.result hcap).1 code' hfail
    · simp [invalidLength] at hv

/-! ## Frames in, frames out -/

/-- A frame in front of a stream is the first of the frames the stream is made of. -/
theorem frames_split {g rest : Bytes} {gs : List Bytes} (hg : IsFrame g)
    (hgs : ∀ x ∈ gs, IsFrame x) (h : g ++ rest = gs.flatten) :
    ∃ gs', gs = g :: gs' ∧ rest = gs'.flatten := by
  cases gs with
  | nil =>
      have hlen := congrArg List.length h
      have htwo : headSize = 2 := rfl
      have hhead := hg.1
      simp only [List.flatten_nil, List.length_append, List.length_nil] at hlen
      omega
  | cons x gs =>
      obtain ⟨rfl, hrest⟩ := hg.unique (hgs x List.mem_cons_self) h
      exact ⟨gs, rfl, hrest⟩

/-- The stream of some frames starts with a length field that is accepted and is
the length of a frame. -/
theorem lengthField_frames {q rest : Bytes} {gs : List Bytes} (hq : headSize ≤ q.length)
    (hgs : ∀ x ∈ gs, IsFrame x) (h : q ++ rest = gs.flatten) :
    headSize ≤ (lengthField q).toNat ∧ (lengthField q).toNat ≤ defaultCap := by
  cases gs with
  | nil =>
      have hlen := congrArg List.length h
      have htwo : headSize = 2 := rfl
      simp only [List.flatten_nil, List.length_append, List.length_nil] at hlen
      omega
  | cons x gs =>
      obtain ⟨hhead, hle, hlen⟩ := hgs x List.mem_cons_self
      have hfield : lengthField q = lengthField x := by
        rw [← lengthField_append (b := rest) hq, h, List.flatten_cons,
          lengthField_append hhead]
      rw [hfield, hlen]
      exact ⟨hhead, hle⟩

/-- From the middle of a frame on, a stream of frames yields these frames and
then its end. -/
theorem yields_frames : ∀ (n : Nat) {f : LwsFramed} {p : Bytes} {gs : List Bytes},
    f.unread.length + f.size < n → f.Holding p → OnlyData f.io.reads →
    p ++ f.unread = gs.flatten → (∀ g ∈ gs, IsFrame g) →
    ∃ t, Yields f gs .finished t := by
  intro n
  induction n with
  | zero => intro f p gs hn; omega
  | succ n ih =>
      intro f p gs hn hp hdata hsplit hgs
      have hspec := loopPass_spec hp
      obtain ⟨hle, hlt⟩ := loopPass_size f
      obtain ⟨hdata', hnoerr⟩ := loopPass_onlyData hdata (by rw [hp.current]; rfl)
      rcases hpass : f.loopPass with ⟨f', out⟩
      rw [hpass] at hspec hle hlt hdata' hnoerr
      dsimp only at hspec hle hlt hdata' hnoerr
      generalize hs : f.unread = s at hspec hsplit hn
      cases hspec with
      | @grow b _ hread hq =>
          have hless := hlt (Or.inl rfl)
          have hlen := congrArg List.length hread
          rw [List.length_append] at hlen
          obtain ⟨t, ht⟩ := ih (by omega) hq hdata'
            (by rw [List.append_assoc, ← hread, hsplit]) hgs
          exact ⟨t, ht.of_again hpass⟩
      | @frame b _ hread hg hnew =>
          rw [hread, ← List.append_assoc] at hsplit
          obtain ⟨gs', rfl, hrest⟩ := frames_split hg hgs hsplit
          have hbpos := pos_of_begun hp.begun hg
          have hlen := congrArg List.length hread
          rw [List.length_append] at hlen
          obtain ⟨t, ht⟩ := ih (by omega) hnew hdata' (by rw [List.nil_append, hrest])
            fun g hg' => hgs g (List.mem_cons_of_mem _ hg')
          exact ⟨t, .item (pollNext_of_return hpass (by simp)) ht⟩
      | @refused b _ hread hbad _ =>
          rw [hread, ← List.append_assoc] at hsplit
          obtain ⟨hlo, hhi⟩ := lengthField_frames (by rw [hbad.1]) hgs hsplit
          have hcap : (UInt16.ofNat defaultCap).toNat = defaultCap := by decide
          have htwo : headSize = 2 := rfl
          rcases hbad.2 with hzero | hgt
          · rw [hzero, UInt16.toNat_zero] at hlo
            omega
          · rw [UInt16.lt_iff_toNat_lt, hcap] at hgt
            omega
      | @one b _ hread hone _ =>
          rw [hread, ← List.append_assoc, hone] at hsplit
          have hlo := (lengthField_frames (by decide) hgs hsplit).1
          exact absurd hlo (by decide)
      | pending hread hq =>
          have hless := hlt (Or.inr rfl)
          obtain ⟨t, ht⟩ := ih (by rw [hread]; omega) hq hdata' (by rw [hread, hsplit]) hgs
          exact ⟨t, .wait (pollNext_of_return hpass (by simp)) ht⟩
      | finished hnil =>
          rw [hnil, List.append_nil] at hsplit
          have hnone : gs = [] := by
            cases gs with
            | nil => rfl
            | cons g gs =>
                exact absurd (hgs g List.mem_cons_self)
                  (not_isFrame_of_begun (r := gs.flatten) hp.begun hsplit)
          subst hnone
          exact ⟨f', .last (pollNext_of_return hpass (by simp)) trivial⟩
      | failed => exact absurd rfl (hnoerr _)

end LwsFramed

/-! ## From the handshake on -/

/-- A response head: its first needle is its end. -/
def IsResponseHead (h : Bytes) : Prop := ∃ pos, needlePosition h = some pos ∧
  pos + needle.length = h.length

/-- The client handshake, followed by the framed connection it hands over,
yields exactly the frames behind the response head, however the stream is cut
into reads and wherever the handshake stops reading.  The server takes the
request (`hwrites`), and a read buffer no longer than the stream can grow
(`hroom`). -/
theorem handshake_yields {buf : ReadBuf} {io : Transport} {host pth key : String} {h : Bytes}
    {gs : List Bytes} (hreads : OnlyData io.reads)
    (hstream : deliverable io.reads = h ++ gs.flatten) (hhead : IsResponseHead h)
    (hgs : ∀ g ∈ gs, IsFrame g)
    (hwrites : CHandshake.TakesAll (doClientHanshake io host pth key).wmsg io.writes)
    (hroom : ∀ n, n ≤ (h ++ gs.flatten).length → buf.hasRemainingMut n = true ∧ 0 < buf.room n) :
    (∃ io' tail t, CHandshake.Connects buf (doClientHanshake io host pth key) io' tail ∧
      LwsFramed.Yields (LwsFramed.new io' tail) gs .finished t) ∧
    ∀ io' tail gs' out t, CHandshake.Connects buf (doClientHanshake io host pth key) io' tail →
      LwsFramed.Yields (LwsFramed.new io' tail) gs' out t → gs' = gs ∧ out = .finished := by
  obtain ⟨pos, hpos, hend⟩ := hhead
  have hfound := (CHandshake.needlePosition_append (r := gs.flatten) hpos).1
  obtain ⟨w, io₁, hio₁, hgo⟩ :=
    CHandshake.connects_of_takesAll buf [] io.writes _ io rfl (Nat.zero_le _)
      (CHandshake.request_remaining io host pth key) hwrites
  obtain ⟨io', tail, hconnects, hdata, hrest⟩ :=
    CHandshake.connects_of_needle (w := w) hfound hroom _ io₁ [] (Nat.lt_succ_self _)
      (by rw [hio₁]; exact hreads) (by rw [List.nil_append, hio₁, hstream]) rfl
  rw [hend, List.drop_left] at hrest
  obtain ⟨t, ht⟩ := LwsFramed.yields_frames _ (Nat.lt_succ_self _)
    (LwsFramed.holding_new io' tail) hdata hrest hgs
  have hdone := hgo io' tail hconnects
  refine ⟨⟨io', tail, t, hdone, ht⟩, ?_⟩
  intro io'' tail' gs' out t' hconnects' hyields
  obtain ⟨rfl, rfl⟩ := hdone.unique hconnects'
  obtain ⟨hgs', hout, _⟩ := hyields.unique ht
  exact ⟨hgs', hout⟩

/-- A head and two frames, cut inside the terminator and inside the header of
the second frame. -/
theorem handshake_yields_two :
    ∃ io' tail t,
      CHandshake.Connects ⟨fun n => decide (n < 2 ^ 64 - 1), fun n => 1024 - n % 1024⟩
        (doClientHanshake
          ⟨[.data [72, 13, 10, 13], .pending, .data [10, 2, 0, 4], .data [0, 7, 8]],
            [.accept 9, .pending, .accept 1000], []⟩ "h" "/" "k") io' tail ∧
      LwsFramed.Yields (LwsFramed.new io' tail) [[2, 0], [4, 0, 7, 8]] .finished t := by
  have htakes : CHandshake.TakesAll
      (doClientHanshake ⟨[], [], []⟩ "h" "/" "k").wmsg
      [.accept 9, .pending, .accept 1000] := Or.inr (Or.inl (by decide +kernel))
  refine (handshake_yields (h := [72, 13, 10, 13, 10]) (by simp [OnlyData]) rfl
    ⟨1, by decide, by decide⟩ (by decide) htakes ?_).1
  intro n hn
  have hlen : ([72, 13, 10, 13, 10] ++ [[2, 0], [4, 0, 7, 8]].flatten : Bytes).length = 11 := rfl
  rw [hlen] at hn
  have hmod := Nat.mod_lt n (show 0 < 1024 by omega)
  exact ⟨decide_eq_true (by omega), by dsimp only; omega⟩

end LproxyCv.Lws
