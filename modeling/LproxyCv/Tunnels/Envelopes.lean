import LproxyCv.Lws.Sink
import LproxyCv.Tunnels.Tunnel

set_option autoImplicit false

/-!
# Tunnels: UDP packets on their way through a tunnel

A UDP packet goes through a tunnel behind the two addresses it came from and goes to.  Each
side finds out for itself where the packet starts.
-/

namespace LproxyCv.Tunnels

open LproxyCv.Foundation LproxyCv.Lws LproxyCv.Net

/-! ## Reading behind what was written -/

theorem readIpv4_octets (v4 : Ipv4Addr) (rest : Bytes) :
    readIpv4 (v4.octets ++ rest) 0 = some v4 := by
  simp [readIpv4, Ipv4Addr.octets, readLE, leNat]

theorem readLE_two_skip (v : Nat) (rest : Bytes) (offset : Nat) :
    readLE 2 (leBytes 2 v ++ rest) (offset + 2) = readLE 2 rest offset :=
  readLE_skip 2 2 v rest offset

theorem readIpv6_segments (v6 : Ipv6Addr) (rest : Bytes) :
    readIpv6 (v6.segments.flatMap (fun s => leBytes 2 s.toNat) ++ rest) 0 = some v6 := by
  have hread : ∀ (s : UInt16) (rest : Bytes), readLE 2 (leBytes 2 s.toNat ++ rest) 0 =
      some s.toNat := fun s rest => readLE_leBytes s.toNat_lt rest
  simp only [readIpv6, Ipv6Addr.segments, List.flatMap_cons, List.flatMap_nil, List.append_assoc]
  simp [readLE_two_skip, hread]

theorem readIpv4_behind (front bs : Bytes) (offset : Nat) :
    readIpv4 (front ++ bs) (front.length + offset) = readIpv4 bs offset := by
  simp only [readIpv4, Nat.add_assoc, readLE_behind]

theorem readIpv6_behind (front bs : Bytes) (offset : Nat) :
    readIpv6 (front ++ bs) (front.length + offset) = readIpv6 bs offset := by
  simp only [readIpv6, Nat.add_assoc, readLE_behind]

/-! ## One address -/

/-- How many bytes an address takes in a frame: 1 + 2 + 4, or 1 + 2 + 16. -/
def addrSize (addr : SocketAddr) : Nat := if addr.isIpv4 then 7 else 19

@[simp] theorem writeSocketaddr_length (addr : SocketAddr) :
    (writeSocketaddr addr).length = addrSize addr := by
  obtain ⟨ip, port⟩ := addr
  cases ip <;> simp [writeSocketaddr, addrSize, SocketAddr.isIpv4, Ipv4Addr.octets,
    Ipv6Addr.segments]

/-- An address that was written is read back, whatever follows it. -/
theorem readSocketaddr_written (addr : SocketAddr) (rest : Bytes) :
    readSocketaddr (writeSocketaddr addr ++ rest) 0 = some (addr, addrSize addr) := by
  obtain ⟨ip, port⟩ := addr
  have hport : readLE 2 (writeSocketaddr ⟨ip, port⟩ ++ rest) 0 = some port.toNat := by
    rw [writeSocketaddr, List.append_assoc]
    exact readLE_leBytes port.toNat_lt _
  -- the tag of the family and the address lie behind the port
  have hbehind : ∀ (tag : UInt8) (body : Bytes),
      readLE 1 (leBytes 2 port.toNat ++ tag :: body) 2 = some tag.toNat := by
    intro tag body
    have hskip := readLE_skip 1 2 port.toNat (tag :: body) 0
    rw [Nat.zero_add] at hskip
    rw [hskip]
    simp [readLE, leNat]
  cases ip with
  | v4 v4 =>
      have htag : readLE 1 (writeSocketaddr ⟨.v4 v4, port⟩ ++ rest) 2 = some 0 := by
        simpa [writeSocketaddr] using hbehind 0 (v4.octets ++ rest)
      have haddr : readIpv4 (writeSocketaddr ⟨.v4 v4, port⟩ ++ rest) 3 = some v4 := by
        have h := readIpv4_behind (leBytes 2 port.toNat ++ [0]) (v4.octets ++ rest) 0
        rw [readIpv4_octets] at h
        simpa [writeSocketaddr] using h
      simp [readSocketaddr, hport, htag, haddr, addrSize, SocketAddr.isIpv4]
  | v6 v6 =>
      have htag : readLE 1 (writeSocketaddr ⟨.v6 v6, port⟩ ++ rest) 2 = some 1 := by
        simpa [writeSocketaddr] using
          hbehind 1 (v6.segments.flatMap (fun s => leBytes 2 s.toNat) ++ rest)
      have haddr : readIpv6 (writeSocketaddr ⟨.v6 v6, port⟩ ++ rest) 3 = some v6 := by
        have h := readIpv6_behind (leBytes 2 port.toNat ++ [1])
          (v6.segments.flatMap (fun s => leBytes 2 s.toNat) ++ rest) 0
        rw [readIpv6_segments] at h
        simpa [writeSocketaddr] using h
      simp [readSocketaddr, hport, htag, haddr, addrSize, SocketAddr.isIpv4]

/-- Reading behind other bytes finds the same address, and ends as much later. -/
theorem readSocketaddr_behind (front bs : Bytes) (offset : Nat) :
    readSocketaddr (front ++ bs) (front.length + offset) =
      (readSocketaddr bs offset).map fun r => (r.1, front.length + r.2) := by
  simp only [readSocketaddr, Nat.add_assoc, readLE_behind, readIpv4_behind, readIpv6_behind,
    Option.bind_eq_bind]
  cases readLE 2 bs offset with
  | none => rfl
  | some port =>
      cases readLE 1 bs (offset + 2) with
      | none => rfl
      | some addrType =>
          simp only [Option.bind_some]
          split
          · cases readIpv4 bs (offset + 3) <;> rfl
          · cases readIpv6 bs (offset + 3) <;> rfl

/-! ## The frame of a packet -/

/-- Write numbers of `n` bytes one behind the other; the offset behind the last. -/
def writeEach (n : Nat) : List Nat → Bytes → Nat → Option (Bytes × Nat)
  | [], bs, offset => some (bs, offset)
  | v :: vs, bs, offset => do
      let bs ← putAt bs offset (leBytes n v)
      writeEach n vs bs (offset + n)

/-- Write an address into a buffer, one number at a time. -/
def writeSocketaddrAt (bs : Bytes) (offset : Nat) (addr : SocketAddr) : Option (Bytes × Nat) := do
  let (bs, offset) ← writeEach 2 [addr.port.toNat] bs offset
  match addr.ip with
  | .v4 v4 => do
      let (bs, offset) ← writeEach 1 [0] bs offset
      writeEach 1 (v4.octets.map UInt8.toNat) bs offset
  | .v6 v6 => do
      let (bs, offset) ← writeEach 1 [1] bs offset
      writeEach 2 (v6.segments.map UInt16.toNat) bs offset

/-- Copy bytes over all that is behind `offset`; other lengths are a panic. -/
def copyRest (bs : Bytes) (offset : Nat) (rest : Bytes) : Option Bytes :=
  if (bs.drop offset).length = rest.length then some (bs.take offset ++ rest) else none

/-- The buffer that a packet is sent in.  A write past its end is a panic. -/
def udpxBuf (msg : Bytes) (srcAddr dstAddr : SocketAddr) : Option Bytes := do
  let contentSize := msg.length + addrSize srcAddr + addrSize dstAddr
  let total := 2 + 1 + contentSize
  let bs := List.replicate total 0
  let bs ← putAt bs 0 (leBytes 2 total)
  let bs ← putAt bs 2 [Cmd.udpX.toUInt8]
  let (bs, offset) ← writeSocketaddrAt bs 3 srcAddr
  let (bs, offset) ← writeSocketaddrAt bs offset dstAddr
  copyRest bs offset msg

/-- A write into the zeros of a new buffer puts `block` there, and ends behind it. -/
def Fills (write : Bytes → Nat → Option (Bytes × Nat)) (block : Bytes) : Prop :=
  ∀ (front : Bytes) (n : Nat),
    write (front ++ List.replicate (block.length + n) 0) front.length =
      some (front ++ block ++ List.replicate n 0, (front ++ block).length)

/-- A write behind another one. -/
theorem Fills.andThen {write write' : Bytes → Nat → Option (Bytes × Nat)} {block block' : Bytes}
    (h : Fills write block) (h' : Fills write' block') :
    Fills (fun bs offset => (write bs offset).bind fun r => write' r.1 r.2) (block ++ block') := by
  intro front n
  have hfirst := h front (block'.length + n)
  have hsecond := h' (front ++ block) n
  rw [← Nat.add_assoc, ← List.length_append] at hfirst
  dsimp only
  rw [hfirst, Option.bind_some, hsecond]
  simp only [List.append_assoc]

/-- A new buffer is the block that was written and what was copied behind it. -/
theorem Fills.copied {write : Bytes → Nat → Option (Bytes × Nat)} {block : Bytes}
    (h : Fills write block) (rest : Bytes) {total : Nat}
    (htotal : total = block.length + rest.length) :
    ((write (List.replicate total 0) 0).bind fun r => copyRest r.1 r.2 rest) =
      some (block ++ rest) := by
  have hfront := h [] rest.length
  simp only [List.nil_append, List.length_nil] at hfront
  rw [htotal, hfront, Option.bind_some, copyRest, List.drop_left' rfl, List.take_left' rfl,
    List.length_replicate, if_pos rfl]

theorem fills_putAt (block : Bytes) :
    Fills (fun bs offset => (putAt bs offset block).map fun bs => (bs, offset + block.length))
      block := by
  intro front n
  have hfit : front.length + block.length ≤
      (front ++ List.replicate (block.length + n) (0 : UInt8)).length := by
    rw [List.length_append, List.length_replicate]
    omega
  dsimp only
  rw [putAt, if_pos hfit, List.take_left' rfl, ← List.drop_drop, List.drop_left' rfl,
    List.drop_replicate, Nat.add_sub_cancel_left, Option.map_some, List.length_append]

theorem fills_writeEach (k : Nat) : ∀ vs, Fills (writeEach k vs) (vs.flatMap (leBytes k))
  | [] => by
      intro front n
      simp [writeEach]
  | v :: vs => by
      have h := (fills_putAt (leBytes k v)).andThen (fills_writeEach k vs)
      intro front n
      have hfront := h front n
      simpa [writeEach, Option.bind_map] using hfront

/-- Written number by number, an address is the bytes of the address. -/
theorem fills_writeSocketaddrAt (addr : SocketAddr) :
    Fills (fun bs offset => writeSocketaddrAt bs offset addr) (writeSocketaddr addr) := by
  obtain ⟨ip, port⟩ := addr
  cases ip with
  | v4 v4 =>
      have h := (fills_writeEach 2 [port.toNat]).andThen
        ((fills_writeEach 1 [0]).andThen (fills_writeEach 1 (v4.octets.map UInt8.toNat)))
      have hbytes : [port.toNat].flatMap (leBytes 2) ++ ([0].flatMap (leBytes 1) ++
          (v4.octets.map UInt8.toNat).flatMap (leBytes 1)) = writeSocketaddr ⟨.v4 v4, port⟩ := by
        simp [writeSocketaddr, Ipv4Addr.octets, leBytes]
      rw [hbytes] at h
      exact h
  | v6 v6 =>
      have h := (fills_writeEach 2 [port.toNat]).andThen
        ((fills_writeEach 1 [1]).andThen (fills_writeEach 2 (v6.segments.map UInt16.toNat)))
      have hbytes : [port.toNat].flatMap (leBytes 2) ++ ([1].flatMap (leBytes 1) ++
          (v6.segments.map UInt16.toNat).flatMap (leBytes 2)) =
            writeSocketaddr ⟨.v6 v6, port⟩ := by
        simp [writeSocketaddr, Ipv6Addr.segments, leBytes]
      rw [hbytes] at h
      exact h

/-- The sizes counted beforehand are the sizes written: the buffer is a frame, with the
addresses in front of the payload. -/
theorem udpxBuf_eq (msg : Bytes) (srcAddr dstAddr : SocketAddr) :
    udpxBuf msg srcAddr dstAddr =
      some (frame .udpX (writeSocketaddr srcAddr ++ writeSocketaddr dstAddr ++ msg)) := by
  obtain ⟨total, htotal⟩ : ∃ total, total =
    2 + 1 + (msg.length + addrSize srcAddr + addrSize dstAddr) := ⟨_, rfl⟩
  have hfills := (fills_putAt (leBytes 2 total)).andThen ((fills_putAt [Cmd.udpX.toUInt8]).andThen
    ((fills_writeSocketaddrAt srcAddr).andThen (fills_writeSocketaddrAt dstAddr)))
  have hsize : total = (leBytes 2 total ++ ([Cmd.udpX.toUInt8] ++
      (writeSocketaddr srcAddr ++ writeSocketaddr dstAddr))).length + msg.length := by
    simp only [List.length_append, leBytes_length, List.length_singleton, writeSocketaddr_length]
    omega
  have hbody : 3 + (writeSocketaddr srcAddr ++ writeSocketaddr dstAddr ++ msg).length = total := by
    simp only [List.length_append, writeSocketaddr_length]
    omega
  have hcopy := hfills.copied msg hsize
  rw [udpxBuf, ← htotal, frame, hbody]
  simpa [Option.bind_map, Option.bind_assoc, Function.comp_def] using hcopy

/-- A frame that a packet was sent in is read as the packet. -/
theorem Tunnel.onUdpxSouth_udpxBuf (t : Tunnel) (udpx : Channel) {msg buf : Bytes}
    {srcAddr dstAddr : SocketAddr} (hbuf : udpxBuf msg srcAddr dstAddr = some buf)
    (rmsg : RMessage) (h : rmsg.buf = buf) :
    (t.setUdpxTx udpx).onUdpxSouth rmsg = some [.udpRecv udpx msg srcAddr dstAddr] := by
  rw [udpxBuf_eq, Option.some.injEq] at hbuf
  have hhead : rmsg.buf = (leBytes 2 (3 + (writeSocketaddr srcAddr ++ writeSocketaddr dstAddr ++
      msg).length) ++ [Cmd.udpX.toUInt8]) ++
        (writeSocketaddr srcAddr ++ (writeSocketaddr dstAddr ++ msg)) := by
    rw [h, ← hbuf, frame]
    simp only [List.append_assoc, List.singleton_append]
  have hdrop : ∀ n, rmsg.buf.drop (3 + n) =
      (writeSocketaddr srcAddr ++ (writeSocketaddr dstAddr ++ msg)).drop n := by
    intro n
    rw [hhead, ← List.drop_drop, List.drop_left' (by simp)]
  have hdst : readSocketaddr (writeSocketaddr srcAddr ++ (writeSocketaddr dstAddr ++ msg))
      (addrSize srcAddr) = some (dstAddr, addrSize srcAddr + addrSize dstAddr) := by
    have hbehind := readSocketaddr_behind (writeSocketaddr srcAddr) (writeSocketaddr dstAddr ++ msg)
      0
    rw [writeSocketaddr_length, readSocketaddr_written] at hbehind
    exact hbehind
  have hpayload : (writeSocketaddr srcAddr ++ (writeSocketaddr dstAddr ++ msg)).drop
      (addrSize srcAddr + addrSize dstAddr) = msg := by
    rw [← List.append_assoc, List.drop_left' (by simp)]
  have hstart := hdrop 0
  rw [Nat.add_zero, List.drop_zero] at hstart
  have hudpx : (t.setUdpxTx udpx).udpxTx = some udpx := rfl
  simp [Tunnel.onUdpxSouth, hudpx, hstart, readSocketaddr_written, hdst, hdrop, hpayload]

/-! ## The frame on the wire -/

/-- One write of a part of a buffer. -/
def PartialWrite (w w' : WMessage) : Prop := ∃ n ≤ w.remaining, w' = w.advance n

/-- One flush, which may end before the buffer is written. -/
def Flushed (s s' : SinkHalf) : Prop := s' = s.pollFlush.1

/-- A buffer is framed for the sink: it says how long it is, no part of it overflows the
cursor, and however it is flushed, its bytes are what is written when it is done. -/
structure Framed (buf : Bytes) : Prop where
  length_eq : leNat (buf.take headSize) = buf.length
  cursor_lt : ∀ w, Relation.ReflTransGen PartialWrite (WMessage.new buf 0) w →
    ∀ n ≤ w.remaining, w.cursor.toNat + n < 2 ^ 16
  written_eq : ∀ (io : Transport) (s : SinkHalf),
    Relation.ReflTransGen Flushed ⟨some (WMessage.new buf 0), io⟩ s →
      s.io.written ++ s.unsent = io.written ++ buf ∧ s.pollFlush.2 ≠ .spin ∧
        (s.pollFlush.2 = .ready ↔ s.pollFlush.1.io.written = io.written ++ buf)

theorem fits_new {buf : Bytes} (h : buf.length < 2 ^ 16) : (WMessage.new buf 0).Fits :=
  ⟨Nat.zero_le _, h⟩

theorem fits_of_partialWrites {buf : Bytes} (h : buf.length < 2 ^ 16) {w : WMessage}
    (hrun : Relation.ReflTransGen PartialWrite (WMessage.new buf 0) w) : w.Fits ∧ w.buf = buf := by
  induction hrun with
  | refl => exact ⟨fits_new h, rfl⟩
  | tail _ hstep ih =>
      obtain ⟨n, hn, rfl⟩ := hstep
      exact ⟨(ih.1.advance hn).1, ih.2⟩

/-- What every flush of a new buffer leaves. -/
theorem flushes_spec {buf : Bytes} (h : buf.length < 2 ^ 16) (hne : buf ≠ []) {io : Transport}
    {s : SinkHalf} (hrun : Relation.ReflTransGen Flushed ⟨some (WMessage.new buf 0), io⟩ s) :
    s.Fits ∧ s.Open ∧ s.io.written ++ s.unsent = io.written ++ buf := by
  induction hrun with
  | refl =>
      refine ⟨fun w hw => ?_, fun w hw => ?_, by simp [SinkHalf.unsent, WMessage.bytes,
        WMessage.new]⟩
      · cases hw
        exact fits_new h
      · cases hw
        simpa [WMessage.bytes, WMessage.new] using hne
  | tail _ hstep ih =>
      obtain ⟨hfits, hopen, hbytes⟩ := ih
      obtain ⟨hfits', hbytes', _, _⟩ := SinkHalf.pollFlush_spec hfits
      rw [hstep]
      exact ⟨hfits', (SinkHalf.pollFlush_ready_iff hfits hopen).1, hbytes'.trans hbytes⟩

theorem leNat_frame (cmd : Cmd) (body : Bytes) :
    leNat ((frame cmd body).take headSize) = (frame cmd body).length % 2 ^ 16 := by
  have htake : (frame cmd body).take headSize = leBytes 2 (3 + body.length) :=
    List.take_left' (leBytes_length _ _)
  rw [htake, leNat_leBytes, frame_length]
  rfl

/-- A frame is framed for the sink as long as its length fits into 16 bits. -/
theorem framed_iff (cmd : Cmd) (body : Bytes) :
    Framed (frame cmd body) ↔ (frame cmd body).length < 2 ^ 16 := by
  constructor
  · intro hframed
    rw [← hframed.length_eq, leNat_frame]
    exact Nat.mod_lt _ (by decide)
  · intro h
    have hne : frame cmd body ≠ [] := by
      intro hnil
      have hlen := frame_length cmd body
      rw [hnil, List.length_nil] at hlen
      omega
    refine ⟨by rw [leNat_frame, Nat.mod_eq_of_lt h], fun w hrun n hn => ?_, fun io s hrun => ?_⟩
    · obtain ⟨⟨hcursor, hlen⟩, _⟩ := fits_of_partialWrites h hrun
      unfold WMessage.remaining at hn
      omega
    · obtain ⟨hfits, hopen, hbytes⟩ := flushes_spec h hne hrun
      obtain ⟨_, hbytes', _, hspin⟩ := SinkHalf.pollFlush_spec hfits
      refine ⟨hbytes, hspin, ?_⟩
      rw [(SinkHalf.pollFlush_ready_iff hfits hopen).2, ← hbytes, ← hbytes', List.self_eq_append_right]

/-- A client of IPv6. -/
def ipv6Client : SocketAddr := ⟨.v6 ⟨0xFD00, 0, 0, 0, 0, 0, 0, 1⟩, 4000⟩

end LproxyCv.Tunnels
