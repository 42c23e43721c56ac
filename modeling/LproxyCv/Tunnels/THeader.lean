import LproxyCv.Foundation.Bytes

set_option autoImplicit false

/-!
# Tunnels: commands and the request header

A tunnel frame is its length (two bytes), a command (one byte) and, for the
commands about one request, the header that names the request.  All numbers are
little endian.  A read past the end of a frame and an unknown command are panics
of the source; they are `none` here.
-/

namespace LproxyCv.Tunnels

open LproxyCv.Foundation

/-- The size of the header. -/
def theaderSize : Nat := 4

/-- The commands of a frame. -/
inductive Cmd where
  | none
  | reqData
  | reqCreated
  | reqClientClosed
  | reqClientFinished
  | reqServerFinished
  | reqServerClosed
  | reqClientQuota
  | ping
  | pong
  | udpX
  deriving DecidableEq, Repr

namespace Cmd

/-- The byte of a command. -/
def toUInt8 : Cmd → UInt8
  | none => 0
  | reqData => 1
  | reqCreated => 2
  | reqClientClosed => 3
  | reqClientFinished => 4
  | reqServerFinished => 5
  | reqServerClosed => 6
  | reqClientQuota => 7
  | ping => 8
  | pong => 9
  | udpX => 10

/-- The command of a byte. -/
def ofUInt8 (v : UInt8) : Option Cmd :=
  match v.toNat with
  | 0 => some none
  | 1 => some reqData
  | 2 => some reqCreated
  | 3 => some reqClientClosed
  | 4 => some reqClientFinished
  | 5 => some reqServerFinished
  | 6 => some reqServerClosed
  | 7 => some reqClientQuota
  | 8 => some ping
  | 9 => some pong
  | 10 => some udpX
  | _ => Option.none

@[simp] theorem ofUInt8_toUInt8 (c : Cmd) : ofUInt8 c.toUInt8 = some c := by
  cases c <;> rfl

end Cmd

/-- The name of a request on the wire. -/
structure THeader where
  reqIdx : UInt16
  reqTag : UInt16
  deriving DecidableEq, Repr

namespace THeader

/-- The header at the start of `bs`. -/
def readFrom (bs : Bytes) : Option THeader := do
  let reqIdx ← readLE 2 bs 0
  let reqTag ← readLE 2 bs 2
  some ⟨UInt16.ofNat reqIdx, UInt16.ofNat reqTag⟩

/-- The bytes of a header. -/
def toBytes (th : THeader) : Bytes := leBytes 2 th.reqIdx.toNat ++ leBytes 2 th.reqTag.toNat

@[simp] theorem toBytes_length (th : THeader) : th.toBytes.length = theaderSize := by
  simp [toBytes, theaderSize]

/-- A header that was written is read back, whatever follows it. -/
theorem readFrom_toBytes (th : THeader) (rest : Bytes) :
    readFrom (th.toBytes ++ rest) = some th := by
  have hidx : readLE 2 (th.toBytes ++ rest) 0 = some th.reqIdx.toNat := by
    have hblock := readLE_block [] (leBytes 2 th.reqIdx.toNat) (leBytes 2 th.reqTag.toNat ++ rest)
    rw [leBytes_length, leNat_leBytes_of_lt th.reqIdx.toNat_lt] at hblock
    simpa [toBytes] using hblock
  have htag : readLE 2 (th.toBytes ++ rest) 2 = some th.reqTag.toNat := by
    have hblock := readLE_block (leBytes 2 th.reqIdx.toNat) (leBytes 2 th.reqTag.toNat) rest
    rw [leBytes_length, leBytes_length, leNat_leBytes_of_lt th.reqTag.toNat_lt] at hblock
    simpa [toBytes] using hblock
  simp [readFrom, hidx, htag]

end THeader

/-- A frame: its length, its command and its body.  The length is kept modulo the
width of its field. -/
def frame (cmd : Cmd) (body : Bytes) : Bytes :=
  leBytes 2 (3 + body.length) ++ cmd.toUInt8 :: body

@[simp] theorem frame_length (cmd : Cmd) (body : Bytes) :
    (frame cmd body).length = 3 + body.length := by
  simp [frame]
  omega

/-- The command of a frame and the bytes behind it. -/
def readCmd (bs : Bytes) : Option (Cmd × Bytes) :=
  match bs.drop 2 with
  | [] => none
  | c :: body => (Cmd.ofUInt8 c).map fun cmd => (cmd, body)

theorem readCmd_frame (cmd : Cmd) (body : Bytes) : readCmd (frame cmd body) = some (cmd, body) := by
  have hdrop : (frame cmd body).drop 2 = cmd.toUInt8 :: body := by
    unfold frame
    rw [List.drop_left' (by simp)]
  simp [readCmd, hdrop]

/-- The command and the header of a frame about one request. -/
def requestFrame (bs : Bytes) : Option (Cmd × THeader) := do
  let (cmd, body) ← readCmd bs
  let th ← THeader.readFrom body
  some (cmd, th)

/-- A frame of the program is read as what it was written as. -/
theorem requestFrame_frame (cmd : Cmd) (th : THeader) (rest : Bytes) :
    requestFrame (frame cmd (th.toBytes ++ rest)) = some (cmd, th) := by
  simp [requestFrame, readCmd_frame, THeader.readFrom_toBytes]

theorem requestFrame_of_readCmd {buf bs : Bytes} {cmd : Cmd} {th : THeader}
    (hread : readCmd buf = some (cmd, bs)) (hth : THeader.readFrom bs = some th) :
    requestFrame buf = some (cmd, th) := by
  simp [requestFrame, hread, hth]

/-- The command of a frame about a request is the command of the frame. -/
theorem cmd_of_requestFrame {bs body : Bytes} {cmd cmd' : Cmd} {th : THeader}
    (hread : readCmd bs = some (cmd, body)) (h : requestFrame bs = some (cmd', th)) :
    cmd' = cmd := by
  simp only [requestFrame, hread, Option.bind_eq_bind, Option.bind_some, Option.bind_eq_some_iff,
    Option.some.injEq, Prod.mk.injEq] at h
  obtain ⟨_, _, rfl, _⟩ := h
  rfl

/-- Write the length of a buffer, a command and a header over its first bytes. -/
def stampFrame (vec : Bytes) (cmd : Cmd) (th : THeader) : Option Bytes := do
  let bs ← putAt vec 0 (leBytes 2 vec.length)
  let bs ← putAt bs 2 [cmd.toUInt8]
  putAt bs 3 th.toBytes

/-- A buffer that was kept free for it becomes a frame about the request; a
shorter one is a panic. -/
theorem stampFrame_eq (vec : Bytes) (cmd : Cmd) (th : THeader) :
    stampFrame vec cmd th =
      if 3 + theaderSize ≤ vec.length then
        some (frame cmd (th.toBytes ++ vec.drop (3 + theaderSize)))
      else none := by
  have hstamp : stampFrame vec cmd th =
      putAt vec 0 (leBytes 2 vec.length ++ ([cmd.toUInt8] ++ th.toBytes)) := by
    rw [← putAt_putAt, leBytes_length]
    unfold stampFrame
    refine congrArg (Option.bind _) (funext fun bs => ?_)
    exact putAt_putAt bs 2 [cmd.toUInt8] th.toBytes
  have hlen : (leBytes 2 vec.length ++ ([cmd.toUInt8] ++ th.toBytes)).length = 3 + theaderSize := by
    simp only [List.length_append, leBytes_length, List.length_singleton, THeader.toBytes_length]
    omega
  rw [hstamp, putAt, hlen, Nat.zero_add]
  split
  · rename_i hfit
    have hbody : 3 + (th.toBytes ++ vec.drop (3 + theaderSize)).length = vec.length := by
      rw [List.length_append, THeader.toBytes_length, List.length_drop]
      omega
    rw [frame, hbody]
    simp
  · rfl
/-! ## Keepalive -/

/-- The time between two keepalive ticks, in milliseconds. -/
def keepAliveInterval : Nat := 15 * 1000

/-- The frame of a ping, which carries the time it was sent at. -/
def pingFrame (timestamp : UInt64) : Bytes := frame .ping (leBytes 8 timestamp.toNat)

/-- The answer to a ping: its frame with the command overwritten. -/
def pongOf (vec : Bytes) : Option Bytes := putAt vec 2 [Cmd.pong.toUInt8]

/-- The answer to a ping is no frame about a request. -/
theorem cmd_of_pongOf {vec out : Bytes} {cmd : Cmd} {th : THeader} (h : pongOf vec = some out)
    (hframe : requestFrame out = some (cmd, th)) : cmd = .pong := by
  unfold pongOf putAt at h
  split at h
  · rename_i hfit
    cases h
    rw [List.length_singleton] at hfit
    have htake : (vec.take 2).length = 2 := by
      rw [List.length_take]
      omega
    have hcmd : readCmd (vec.take 2 ++ [Cmd.pong.toUInt8] ++ vec.drop (2 + 1)) =
        some (.pong, vec.drop (2 + 1)) := by
      simp [readCmd, List.append_assoc, List.drop_left' htake]
    exact cmd_of_requestFrame hcmd hframe
  · cases h

/-- The round trip times of a tunnel: the last samples, where the next one goes,
and their sum. -/
structure Rtt where
  rttQueue : List Int64
  rttIndex : Nat
  rttSum : Int64
  rttIndex_lt : rttIndex < rttQueue.length
  deriving DecidableEq

namespace Rtt

/-- No samples yet. -/
def new : Rtt := ⟨List.replicate 5 0, 0, 0, by decide⟩

/-- Put a sample in the place of the oldest one. -/
def append (r : Rtt) (rtt : Int64) : Rtt :=
  { rttQueue := r.rttQueue.set r.rttIndex rtt
    rttIndex := (r.rttIndex + 1) % r.rttQueue.length
    rttSum := r.rttSum + rtt - r.rttQueue.get ⟨r.rttIndex, r.rttIndex_lt⟩
    rttIndex_lt := by
      rw [List.length_set]
      exact Nat.mod_lt _ (Nat.zero_lt_of_lt r.rttIndex_lt) }

end Rtt

/-- A pong: the ping count goes back to zero, and the round trip time is the time
since the timestamp it carries.  A pong of another length is dropped; one from
the future is a panic. -/
def pongRtt (bs : Bytes) (elapsed : UInt64) : Option (Option Int64) :=
  if bs.length ≠ 8 then some none
  else do
    let timestamp ← readLE 8 bs 0
    if elapsed.toNat < timestamp then none
    else some (some (elapsed - UInt64.ofNat timestamp).toInt64)

theorem pongRtt_of_ne {bs : Bytes} (hlen : bs.length ≠ 8) (elapsed : UInt64) :
    pongRtt bs elapsed = some none := if_pos hlen

theorem pongRtt_of_length {bs : Bytes} (hlen : bs.length = 8) (elapsed : UInt64) :
    pongRtt bs elapsed =
      if elapsed.toNat < leNat bs then none
      else some (some (elapsed - UInt64.ofNat (leNat bs)).toInt64) := by
  have hread : readLE 8 bs 0 = some (leNat bs) := by
    rw [readLE_some (by omega), List.drop_zero, List.take_of_length_le (by omega)]
  simp only [pongRtt, hlen, hread, ne_eq, not_true_eq_false, if_false, Option.bind_eq_bind,
    Option.bind_some]

end LproxyCv.Tunnels
