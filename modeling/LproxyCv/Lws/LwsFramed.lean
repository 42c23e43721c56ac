import LproxyCv.Foundation.Run
import LproxyCv.Lws.Sink

set_option autoImplicit false

/-!
# Lws: the length-prefixed frame stream

`LwsFramed` cuts the bytes of a connection into frames.  What the client
handshake read too much comes first, from `tail`; after that it reads from the
transport.  `loopPass` is one pass of the loop in `poll_next`, and `pollNext`
repeats it until the call returns.

`Pass.fault` is not a result of the source.  It marks the passes on which the
length handed to the reader is not the length of free memory: the subtraction of
`remaining_mut` underflows, or the slice ends past the allocation.  What happens
from there on is undefined behaviour of the source, so no theorem follows it.
-/

namespace LproxyCv.Lws

open LproxyCv.Foundation

/-- A framed connection. -/
structure LwsFramed where
  io : Transport
  reading : Option RMessage
  writing : Option WMessage
  tail : Option Bytes
  hasFinished : Bool
  deriving DecidableEq, Repr

/-- What one pass of the loop of `poll_next` comes to: another pass, or the
return of the call. -/
inductive Pass where
  | again
  | pending
  | finished
  | item (message : RMessage)
  | err (error : IoError)
  | fault
  deriving DecidableEq, Repr

/-- The returns after which the stream is over. -/
def Pass.Last : Pass → Prop
  | .finished | .err _ | .fault => True
  | .again | .pending | .item _ => False

/-- The number of tail bytes a message with `room` free bytes takes, and the
rest of the tail. -/
def readFromTail (vec : Bytes) (bf : RMessage) (room : Nat) : RMessage × Bytes :=
  let lenToCopy := min vec.length room
  (bf.putSlice (vec.take lenToCopy), vec.drop lenToCopy)

namespace LwsFramed

/-- A connection whose first bytes may have been read already. -/
def new (io : Transport) (tail : Option Bytes) : LwsFramed :=
  { io := io, reading := none, writing := none, tail := tail, hasFinished := false }

/-- The message under construction; a pass starts a new one where there is none. -/
def current (f : LwsFramed) : RMessage := f.reading.getD RMessage.new

/-- The end of a pass that has read into `msg`: a finished message is handed
out, one that failed ends the call and stays in place without its error. -/
def checkCompleted (f : LwsFramed) (msg : RMessage) : LwsFramed × Pass :=
  if msg.isCompleted then
    match msg.error with
    | some e =>
        ({ f with reading := some { msg with error := none }, hasFinished := true }, .err e)
    | none => ({ f with reading := none }, .item msg)
  else ({ f with reading := some msg }, .again)

/-- The part of a pass that handles the tail. -/
def tailPass (f : LwsFramed) (msg : RMessage) (room : Nat) (tail : Bytes) :
    LwsFramed × Pass :=
  let r := readFromTail tail msg room
  checkCompleted { f with tail := if r.2.length < 1 then none else some r.2 } r.1

/-- The part of a pass that reads from the transport.  `poll_read_buf` answers
`Ok(0)` without reading when the message takes nothing. -/
def readPass (f : LwsFramed) (msg : RMessage) (room : Nat) : LwsFramed × Pass :=
  if room = 0 then ({ f with reading := some msg, hasFinished := true }, .finished)
  else
    match f.io.pollRead room with
    | (.pending, io) => ({ f with io := io, reading := some msg }, .pending)
    | (.error code, io) =>
        ({ f with io := io, reading := some msg, hasFinished := true }, .err (.os code))
    | (.ok bs, io) =>
        let msg' := msg.advanceMut bs
        if bs = [] then
          ({ f with io := io, reading := some msg', hasFinished := true }, .finished)
        else checkCompleted { f with io := io } msg'

/-- One pass of the loop of `poll_next`. -/
def loopPass (f : LwsFramed) : LwsFramed × Pass :=
  let msg := f.current
  match msg.remainingMut with
  | none => ({ f with reading := some msg }, .fault)
  | some room =>
      if defaultCap < msg.buf.length + room then ({ f with reading := some msg }, .fault)
      else
        match f.tail with
        | some tail => f.tailPass msg room tail
        | none => f.readPass msg room

/-- The loop of `poll_next`, for at most the given number of passes. -/
def pollLoop : Nat → LwsFramed → LwsFramed × Pass
  | 0, f => (f, .again)
  | n + 1, f =>
      match f.loopPass with
      | (f', .again) => pollLoop n f'
      | r => r

/-- How many more passes can read from the tail. -/
def tailSize : Option Bytes → Nat
  | none => 0
  | some tail => tail.length + 1

/-- How many more passes can read something. -/
def size (f : LwsFramed) : Nat := scriptSize f.io.reads + tailSize f.tail

/-- `poll_next`.  Every pass that goes round again has used up input, so the
number of passes allowed here is more than the loop can make. -/
def pollNext (f : LwsFramed) : LwsFramed × Pass := pollLoop (f.size + 1) f

/-- The receiver's end: the stream is terminated once a call returned `None` or
`Err`. -/
def isTerminated (f : LwsFramed) : Bool := f.hasFinished

/-! ## The sending half -/

/-- The buffer being written and the connection. -/
def sinkHalf (f : LwsFramed) : SinkHalf := ⟨f.writing, f.io⟩

/-- Put back a sending half. -/
def withSink (f : LwsFramed) (s : SinkHalf) : LwsFramed :=
  { f with io := s.io, writing := s.writing }

/-- `poll_ready` of the sink. -/
def pollReady (f : LwsFramed) : LwsFramed × FlushResult :=
  (f.withSink f.sinkHalf.pollReady.1, f.sinkHalf.pollReady.2)

/-- `start_send` of the sink. -/
def startSend (f : LwsFramed) (item : WMessage) : LwsFramed :=
  f.withSink (f.sinkHalf.startSend item)

/-- `poll_flush` of the sink. -/
def pollFlush (f : LwsFramed) : LwsFramed × FlushResult :=
  (f.withSink f.sinkHalf.pollFlush.1, f.sinkHalf.pollFlush.2)

/-- The operations of the sink. -/
def sinkOps : SinkOps LwsFramed := ⟨pollReady, startSend, pollFlush⟩

/-- The sink half of a framed connection sends what the shared code sends. -/
theorem sends_sinkHalf {f g : LwsFramed} {q : List WMessage} (h : Sends sinkOps f q g) :
    Sends SinkHalf.ops f.sinkHalf q g.sinkHalf :=
  h.view sinkHalf (fun _ => rfl) (fun _ _ => rfl) (fun _ => rfl)

/-! ## The loop of `poll_next` terminates -/

/-- The end of a pass reads nothing. -/
@[simp] theorem checkCompleted_size (f : LwsFramed) (msg : RMessage) :
    (f.checkCompleted msg).1.size = f.size := by
  unfold checkCompleted
  split
  · split <;> rfl
  · rfl

/-- A message that takes no more bytes is finished. -/
theorem isCompleted_of_remainingMut_zero {m : RMessage} (h : m.remainingMut = some 0) :
    m.isCompleted = true := by
  unfold RMessage.remainingMut at h
  unfold RMessage.isCompleted
  split at h
  · rename_i herr
    simp [herr]
  · rename_i herr
    split at h
    · simp only [Option.some.injEq] at h
      omega
    · rename_i hlen
      split at h
      · rename_i hle
        simp only [Option.some.injEq] at h
        have heq : m.cachedLegnth.toNat = m.buf.length := by omega
        have hcached : m.cachedLegnth = UInt16.ofNat m.buf.length := by
          rw [← heq, UInt16.ofNat_toNat]
        have hpos : 0 < m.cachedLegnth := by
          rw [UInt16.lt_iff_toNat_lt, heq]
          have htwo : headSize = 2 := rfl
          simp only [UInt16.toNat_zero]
          omega
        simp [herr, ← hcached, hpos]
      · simp at h

/-- The end of a pass goes round again only with an unfinished message. -/
theorem checkCompleted_again {f : LwsFramed} {msg : RMessage}
    (h : (f.checkCompleted msg).2 = .again) : msg.isCompleted = false := by
  unfold checkCompleted at h
  split at h
  · split at h <;> simp at h
  · rename_i hdone
    simpa using hdone

/-- The tail only gets shorter, and a pass that goes round again has shortened
it: a tail that gives nothing is either empty or met a finished message. -/
theorem tailPass_size {f : LwsFramed} {msg : RMessage} {room : Nat} {tail : Bytes}
    (htail : f.tail = some tail) (hroom : msg.remainingMut = some room) :
    (f.tailPass msg room tail).1.size ≤ f.size ∧
      ((f.tailPass msg room tail).2 = .again → (f.tailPass msg room tail).1.size < f.size) := by
  have hsize : (f.tailPass msg room tail).1.size = scriptSize f.io.reads +
      (if tail.length - min tail.length room < 1 then 0
        else tail.length - min tail.length room + 1) := by
    unfold tailPass
    rw [checkCompleted_size]
    simp only [size, readFromTail, List.length_drop]
    split <;> simp [tailSize]
  have hold : f.size = scriptSize f.io.reads + (tail.length + 1) := by
    simp [size, htail, tailSize]
  refine ⟨?_, ?_⟩
  · rw [hsize, hold]
    split <;> omega
  · intro h
    have hopen := checkCompleted_again h
    have hgives : tail = [] ∨ room ≠ 0 := by
      by_cases hz : room = 0
      · subst hz
        have hsame : (readFromTail tail msg 0).1 = msg := by
          simp [readFromTail, RMessage.putSlice]
        rw [hsame, isCompleted_of_remainingMut_zero hroom] at hopen
        simp at hopen
      · exact Or.inr hz
    rw [hsize, hold]
    rcases hgives with hnil | hzero
    · subst hnil
      simp
    · split <;> omega

/-- A read that neither ends the stream nor fails has used up part of the
script. -/
theorem readPass_size {f : LwsFramed} {msg : RMessage} {room : Nat} :
    (f.readPass msg room).1.size ≤ f.size ∧
      ((f.readPass msg room).2 = .again ∨ (f.readPass msg room).2 = .pending →
        (f.readPass msg room).1.size < f.size) := by
  unfold readPass
  by_cases hzero : room = 0
  · simp [hzero, size]
  · have hsize := @scriptSize_pollRead room f.io.reads (by omega)
    simp only [hzero, if_false]
    rcases hread : f.io.pollRead room with ⟨result, io⟩
    have hfst : (Foundation.pollRead room f.io.reads).1 = result := by
      rw [← Transport.pollRead_fst, hread]
    have hsnd : (Foundation.pollRead room f.io.reads).2 = io.reads := by
      rw [← Transport.pollRead_reads, hread]
    rw [hsnd] at hsize
    by_cases hnil : f.io.reads = []
    · -- the script has run out: this read is the end of the stream
      rw [hnil] at hfst hsnd
      have hres : result = .ok [] := hfst.symm
      have hio : io.reads = [] := hsnd.symm
      simp [hres, size, hnil, hio]
    · have hlt := hsize hnil
      cases result with
      | pending => exact ⟨by simp [size]; omega, fun _ => by simp [size]; omega⟩
      | error code => exact ⟨by simp [size]; omega, by simp⟩
      | ok bs =>
          simp only
          split
          · exact ⟨by simp [size]; omega, by simp⟩
          · rw [checkCompleted_size]
            exact ⟨by simp [size]; omega, fun _ => by simp [size]; omega⟩

/-- The three ways a pass can go. -/
theorem loopPass_cases (f : LwsFramed) :
    (¬ f.current.InBuffer ∧
      f.loopPass = ({ f with reading := some f.current }, .fault)) ∨
    ∃ room, f.current.remainingMut = some room ∧
      f.current.buf.length + room ≤ defaultCap ∧
      ((∃ tail, f.tail = some tail ∧ f.loopPass = f.tailPass f.current room tail) ∨
        (f.tail = none ∧ f.loopPass = f.readPass f.current room)) := by
  cases hroom : f.current.remainingMut with
  | none =>
      left
      refine ⟨?_, by simp [loopPass, hroom]⟩
      rintro ⟨r, hr, _⟩
      simp [hroom] at hr
  | some room =>
      by_cases hcap : defaultCap < f.current.buf.length + room
      · left
        refine ⟨?_, by simp [loopPass, hroom, hcap]⟩
        rintro ⟨r, hr, hle⟩
        rw [hroom] at hr
        cases hr
        omega
      · right
        refine ⟨room, rfl, by omega, ?_⟩
        cases htail : f.tail with
        | some tail => exact Or.inl ⟨tail, rfl, by simp [loopPass, hroom, hcap, htail]⟩
        | none => exact Or.inr ⟨rfl, by simp [loopPass, hroom, hcap, htail]⟩

theorem tailPass_ne_pending (f : LwsFramed) (msg : RMessage) (room : Nat) (tail : Bytes) :
    (f.tailPass msg room tail).2 ≠ .pending := by
  unfold tailPass checkCompleted
  dsimp only
  split
  · split <;> simp
  · simp

/-- Passes only use up input, and one that goes round again or is not ready has
used up some. -/
theorem loopPass_size (f : LwsFramed) :
    f.loopPass.1.size ≤ f.size ∧
      (f.loopPass.2 = .again ∨ f.loopPass.2 = .pending → f.loopPass.1.size < f.size) := by
  rcases loopPass_cases f with
    ⟨_, hpass⟩ | ⟨room, hroom, _, ⟨tail, htail, hpass⟩ | ⟨_, hpass⟩⟩
  · rw [hpass]
    simp [size]
  · rw [hpass]
    have hsize := tailPass_size htail hroom
    refine ⟨hsize.1, ?_⟩
    rintro (hagain | hpending)
    · exact hsize.2 hagain
    · exact absurd hpending (tailPass_ne_pending f f.current room tail)
  · rw [hpass]
    exact readPass_size

/-- Once there are more passes than input, their number does not matter, and the
loop has returned. -/
theorem pollLoop_enough : ∀ (n m : Nat) (f : LwsFramed), f.size < n → f.size < m →
    pollLoop n f = pollLoop m f ∧ (pollLoop n f).2 ≠ .again := by
  intro n
  induction n with
  | zero => intro m f hn _; omega
  | succ n ih =>
      intro m f hn hm
      cases m with
      | zero => omega
      | succ m =>
          have hless := (loopPass_size f).2
          rcases hpass : f.loopPass with ⟨f', out⟩
          rw [hpass] at hless
          cases out with
          | again =>
              have hlt := hless (Or.inl rfl)
              simp only at hlt
              simp only [pollLoop, hpass]
              exact ih m f' (by omega) (by omega)
          | _ => simp [pollLoop, hpass]

/-- A pass that goes round again is the rest of the call. -/
theorem pollNext_of_again {f f' : LwsFramed} (h : f.loopPass = (f', .again)) :
    f.pollNext = f'.pollNext := by
  have hlt : f'.size < f.size := by
    have hless := (loopPass_size f).2
    rw [h] at hless
    exact hless (Or.inl rfl)
  have hstep : pollLoop (f.size + 1) f = pollLoop f.size f' := by
    simp [pollLoop, h]
  unfold pollNext
  rw [hstep]
  exact (pollLoop_enough f.size (f'.size + 1) f' hlt (by omega)).1

/-- Any other pass is the return of the call. -/
theorem pollNext_of_return {f f' : LwsFramed} {out : Pass} (h : f.loopPass = (f', out))
    (hout : out ≠ .again) : f.pollNext = (f', out) := by
  unfold pollNext
  cases out with
  | again => exact absurd rfl hout
  | _ => simp [pollLoop, h]

/-- `poll_next` returns. -/
theorem pollNext_returns (f : LwsFramed) : f.pollNext.2 ≠ .again :=
  (pollLoop_enough (f.size + 1) (f.size + 1) f (by omega) (by omega)).2

end LwsFramed

end LproxyCv.Lws
