import Minnow.TCPSegment
import Minnow.Address

namespace Minnow

/-!
# TCP over IPv4

An adapter wraps messages in segments, these in datagrams for its peer, and unwraps what the peer
has sent.

* `TCPOverIPv4Adapter.wrapTcpInIp`, `unwrapTcpInIp` — one way and the other;
* `TCPOverIPv4OverTunFdAdapter.write`, `read` — the bytes that go to a TUN device, and what comes
  of bytes from there, which are split into a buffer for each header and one for the payload;
* `TCPOverIPv4OverTunFdAdapter.read_write` — what one adapter writes, its peer reads.

An exception leaves the adapter as it was when it was thrown.  The loss rates of a configuration are
for another adapter.
-/

/-- Config for adapters. -/
structure FdAdapterConfig where
  source : Address := {}
  destination : Address := {}
deriving DecidableEq, Repr

/-- The two endpoints, and whether the adapter waits for the other one to be known. -/
structure TCPOverIPv4Adapter where
  config : FdAdapterConfig := {}
  listening : Bool := false
deriving DecidableEq, Repr

/-- A method of an adapter. -/
abbrev AdapterM := ExceptT StdException (StateM TCPOverIPv4Adapter)

namespace TCPOverIPv4Adapter

/-- A computation that may throw. -/
def attempt {α : Type} (x : Except StdException α) : AdapterM α := ExceptT.mk (pure x)

/-- Reply to the source of a datagram, from its destination. -/
def bindTo (db : NetDb) (ipDgram : IPv4Datagram) (srcPort : UInt16) : AdapterM PUnit := do
  let port ← attempt ((← get).config.source.portOf db)
  let source ← attempt (Address.ofIp db (db.inetNtoa ipDgram.header.dst) port)
  modify fun a => { a with config := { a.config with source } }
  let destination ← attempt (Address.ofIp db (db.inetNtoa ipDgram.header.src) srcPort)
  modify fun a => { a with config := { a.config with destination } }
  modify fun a => { a with listening := false }

/-- `unwrap_tcp_in_ip`: the checks in their order; a listening adapter is bound to the sender of a
    SYN. -/
def unwrapTcpInIp (db : NetDb) (ipDgram : IPv4Datagram) : AdapterM (Option TCPMessage) := do
  -- is the datagram for us?
  if ¬ (← get).listening then
    if ipDgram.header.dst ≠ (← attempt (← get).config.source.ipv4Numeric) then return none
  -- is it from our peer?
  if ¬ (← get).listening then
    if ipDgram.header.src ≠ (← attempt (← get).config.destination.ipv4Numeric) then return none
  if ipDgram.header.proto ≠ IPv4Header.PROTO_TCP then return none
  let (tcpSeg, valid) ← attempt <|
    parse (TCPSegment.parse {} ipDgram.header.pseudoChecksum) ipDgram.payload
  if ¬ valid then return none
  -- is the segment for us?
  if tcpSeg.udinfo.dstPort ≠ (← attempt ((← get).config.source.portOf db)) then return none
  if (← get).listening then
    if tcpSeg.message.sender.SYN ∧ ¬ tcpSeg.message.sender.RST then
      bindTo db ipDgram tcpSeg.udinfo.srcPort
    else return none
  -- is it from our peer?
  if tcpSeg.udinfo.srcPort ≠ (← attempt ((← get).config.destination.portOf db)) then return none
  return some tcpSeg.message

/-- `wrap_tcp_in_ip`: a segment with both checksums, in a datagram between the endpoints. -/
def wrapTcpInIp (db : NetDb) (a : TCPOverIPv4Adapter) (msg : TCPMessage) :
    Except StdException IPv4Datagram := do
  let srcPort ← a.config.source.portOf db
  let dstPort ← a.config.destination.portOf db
  let seg : TCPSegment := { message := msg, udinfo := { srcPort, dstPort } }
  let src ← a.config.source.ipv4Numeric
  let dst ← a.config.destination.ipv4Numeric
  let header : IPv4Header := { src, dst }
  let header := { header with
    len := UInt16.ofNat (header.hlen.toNat * 4 + 20 + msg.sender.payload.length) }
  let seg := seg.computeChecksum header.pseudoChecksum
  let header ← header.computeChecksum
  return { header, payload := (seg.serialize {}).finish }

end TCPOverIPv4Adapter

namespace TCPOverIPv4OverTunFdAdapter

open TCPOverIPv4Adapter

/-- The bytes that `write` gives to the device. -/
def write (db : NetDb) (a : TCPOverIPv4Adapter) (seg : TCPMessage) : Except StdException Bytes := do
  let ipDgram ← a.wrapTcpInIp db seg
  let out ← serialize ipDgram.serialize
  return concat out

/-- The three buffers that the bytes of a packet are split into. -/
def split (packet : Bytes) : List Ref :=
  [{ get := packet.take IPv4Header.LENGTH },
    { get := (packet.drop IPv4Header.LENGTH).take TCPSegment.HEADER_LENGTH },
    { get := packet.drop (IPv4Header.LENGTH + TCPSegment.HEADER_LENGTH) }]

/-- `FileDescriptor::kReadBufferSize`, the size of the last buffer. -/
def kReadBufferSize : ℕ := 16384

/-- What the device puts into the buffers; it leaves out what there is no room for. -/
def readBuffers (packet : Bytes) : List Ref :=
  split (packet.take (IPv4Header.LENGTH + TCPSegment.HEADER_LENGTH + kReadBufferSize))

/-- `read`, with what the device has put into the buffers. -/
def read (db : NetDb) (strs : List Ref) : AdapterM (Option TCPMessage) := do
  let (ipDgram, valid) ← attempt (parse (IPv4Datagram.parse {}) strs)
  if valid then unwrapTcpInIp db ipDgram else return none

/-- The three buffers of a packet have its bytes. -/
theorem concat_split (packet : Bytes) : concat (split packet) = packet := by
  unfold split
  rw [← List.drop_drop, concat_cons, concat_cons, concat_cons, concat_nil, List.append_nil,
    List.take_append_drop, List.take_append_drop]

/-- The buffers of a packet are owned. -/
theorem owned_split (packet : Bytes) : ∀ r ∈ split packet, r.owned = true := by
  intro r hr
  simp only [split, List.mem_cons, List.not_mem_nil, or_false] at hr
  rcases hr with rfl | rfl | rfl <;> rfl

/-- Only the last buffer can be empty, when both headers are there. -/
theorem gapless_split {packet : Bytes}
    (h : IPv4Header.LENGTH + TCPSegment.HEADER_LENGTH ≤ packet.length) :
    Gapless (split packet) := by
  have hip : packet.take IPv4Header.LENGTH ≠ [] := by
    rw [← List.length_pos_iff, List.length_take]
    unfold IPv4Header.LENGTH TCPSegment.HEADER_LENGTH at *
    omega
  have htcp : (packet.drop IPv4Header.LENGTH).take TCPSegment.HEADER_LENGTH ≠ [] := by
    rw [← List.length_pos_iff, List.length_take, List.length_drop]
    unfold IPv4Header.LENGTH TCPSegment.HEADER_LENGTH at *
    omega
  exact ⟨fun h => absurd h hip, fun h => absurd h htcp, fun _ => rfl, trivial⟩

/-- **From the device to the datagram.** -/
theorem parse_split {h : IPv4Header} (hfits : h.Fits) (hhlen : h.hlen = 5)
    (hvalid : h.checksum = h.cksum) {packet rest : Bytes} (hpacket : packet = h.bytes ++ rest)
    (hlong : TCPSegment.HEADER_LENGTH ≤ rest.length)
    (hshort : rest.length ≤ h.payloadLength.toNat) :
    ∃ d, parse (IPv4Datagram.parse {}) (split packet) = .ok (d, true) ∧ d.header = h ∧
      concat d.payload = rest ∧ (∀ r ∈ d.payload, r.owned = true) ∧ Gapless d.payload := by
  have hgap : Gapless (split packet) := by
    refine gapless_split ?_
    rw [hpacket, List.length_append, IPv4Header.length_bytes]
    omega
  obtain ⟨d, hparse, hheader, hpayload⟩ := IPv4Datagram.parse_wire hfits hhlen (owned_split packet)
    hgap ((concat_split packet).trans hpacket) hshort
  rw [decide_eq_true hvalid] at hparse
  rw [hvalid] at hheader
  exact ⟨d, hparse, hheader, hpayload⟩

end TCPOverIPv4OverTunFdAdapter

namespace TCPOverIPv4Adapter

/-- The header of a datagram from `src` to `dst`. -/
def headerFor (src dst : UInt32) (payloadSize : ℕ) : IPv4Header :=
  let header : IPv4Header := { src, dst, len := UInt16.ofNat (20 + 20 + payloadSize) }
  { header with cksum := header.checksum }

/-- The header can be read back. -/
theorem headerFor_fits (src dst : UInt32) (payloadSize : ℕ) :
    (headerFor src dst payloadSize).Fits where
  ver_eq := rfl
  hlen_lt := Nat.le_of_ble_eq_true rfl
  offset_lt := Nat.le_of_ble_eq_true rfl

/-- The checksum of the header is right. -/
theorem headerFor_valid (src dst : UInt32) (payloadSize : ℕ) :
    (headerFor src dst payloadSize).checksum = (headerFor src dst payloadSize).cksum :=
  IPv4Header.checksum_setCksum _ _

/-- The length fits in its field. -/
theorem headerFor_payloadLength (src dst : UInt32) {payloadSize : ℕ} (h : payloadSize ≤ 65495) :
    (headerFor src dst payloadSize).payloadLength.toNat = 20 + payloadSize := by
  have htotal : (UInt16.ofNat (20 + 20 + payloadSize)).toNat = 40 + payloadSize := by
    rw [UInt16.toNat_ofNat']
    omega
  have htwenty : (4 * (5 : UInt8).toUInt16).toNat = 20 := rfl
  show (UInt16.ofNat (20 + 20 + payloadSize) - 4 * (5 : UInt8).toUInt16).toNat = _
  rw [UInt16.toNat_sub_of_le, htotal, htwenty]
  · omega
  · rw [UInt16.le_iff_toNat_le, htotal, htwenty]
    omega

/-- The segment for a message, with its checksum. -/
def segmentFor (header : IPv4Header) (srcPort dstPort : UInt16) (msg : TCPMessage) : TCPSegment :=
  ({ message := msg, udinfo := { srcPort, dstPort } } : TCPSegment).computeChecksum
    header.pseudoChecksum

/-- The datagram that a message is wrapped in. -/
def datagramFor (c : FdAdapterConfig) (msg : TCPMessage) : IPv4Datagram :=
  let header := headerFor c.source.addr c.destination.addr msg.sender.payload.length
  { header, payload := ((segmentFor header c.source.port c.destination.port msg).serialize {}).finish }

/-- Between IPv4 addresses a message is wrapped without an exception. -/
theorem wrapTcpInIp_eq {db : NetDb} (hdb : db.ReadsPorts) {a : TCPOverIPv4Adapter}
    (hsource : a.config.source.IsIPv4) (hdest : a.config.destination.IsIPv4) (msg : TCPMessage) :
    a.wrapTcpInIp db msg = .ok (datagramFor a.config msg) := by
  set header : IPv4Header :=
    { src := a.config.source.addr
      dst := a.config.destination.addr
      len := UInt16.ofNat (20 + 20 + msg.sender.payload.length) }
  have hcheck : header.computeChecksum = .ok { header with cksum := header.checksum } :=
    IPv4Header.computeChecksum_eq rfl
  have hpseudo : (headerFor a.config.source.addr a.config.destination.addr
      msg.sender.payload.length).pseudoChecksum = header.pseudoChecksum :=
    IPv4Header.pseudoChecksum_setCksum _ _
  unfold wrapTcpInIp
  rw [hdb.portOf_eq hsource, hdb.portOf_eq hdest, hsource.ipv4Numeric_eq, hdest.ipv4Numeric_eq]
  unfold datagramFor segmentFor
  dsimp only
  rw [hpseudo]
  show (header.computeChecksum >>= fun header => _) = _
  rw [hcheck]
  rfl

theorem run_get_bind {α : Type} (f : TCPOverIPv4Adapter → AdapterM α)
    (a : TCPOverIPv4Adapter) : (get >>= f).run.run a = (f a).run.run a := rfl

theorem run_attempt_bind {α β : Type} (x : α) (f : α → AdapterM β)
    (a : TCPOverIPv4Adapter) : (attempt (.ok x) >>= f).run.run a = (f x).run.run a := rfl

/-- Unwrapping a segment from the peer, when the adapter does not listen. -/
theorem unwrapTcpInIp_eq {db : NetDb} (hdb : db.ReadsPorts) {a : TCPOverIPv4Adapter}
    (hsource : a.config.source.IsIPv4) (hdest : a.config.destination.IsIPv4)
    (hlistening : a.listening = false) {ipDgram : IPv4Datagram} {seg : TCPSegment}
    (hdst : ipDgram.header.dst = a.config.source.addr)
    (hsrc : ipDgram.header.src = a.config.destination.addr)
    (hproto : ipDgram.header.proto = IPv4Header.PROTO_TCP)
    (hparse : parse (TCPSegment.parse {} ipDgram.header.pseudoChecksum) ipDgram.payload
      = .ok (seg, true))
    (hdstPort : seg.udinfo.dstPort = a.config.source.port)
    (hsrcPort : seg.udinfo.srcPort = a.config.destination.port) :
    (unwrapTcpInIp db ipDgram).run.run a = (.ok (some seg.message), a) := by
  simp only [unwrapTcpInIp, run_get_bind, run_attempt_bind, hlistening, hsource.ipv4Numeric_eq,
    hdest.ipv4Numeric_eq, hdb.portOf_eq hsource, hdb.portOf_eq hdest, hdst, hsrc, hproto, hparse,
    hdstPort, hsrcPort, ne_eq, not_true_eq_false, not_false_eq_true, Bool.false_eq_true, if_true,
    if_false]
  rfl

end TCPOverIPv4Adapter

/-- The source of one configuration is the destination of the other. -/
structure FdAdapterConfig.Mirrors (c c' : FdAdapterConfig) : Prop where
  source_eq : c.source = c'.destination
  destination_eq : c.destination = c'.source

namespace TCPOverIPv4OverTunFdAdapter

open TCPOverIPv4Adapter

/-- **The round trip.**  What an adapter writes is read by an adapter that does not listen and whose
    configuration mirrors its own, for every payload that fits in a datagram; a reset is one for
    both ends. -/
theorem read_write {db : NetDb} (hdb : db.ReadsPorts) {a a' : TCPOverIPv4Adapter}
    (hsource : a.config.source.IsIPv4) (hdest : a.config.destination.IsIPv4)
    (hmirror : a'.config.Mirrors a.config) (hlistening : a'.listening = false) {msg : TCPMessage}
    (hlen : msg.sender.payload.length ≤ 65495) (hreset : msg.sender.RST = msg.receiver.RST) :
    ∃ packet, write db a msg = .ok packet ∧
      (read db (split packet)).run.run a' = (.ok (some msg), a') := by
  set header := headerFor a.config.source.addr a.config.destination.addr
    msg.sender.payload.length with hheader
  set seg := segmentFor header a.config.source.port a.config.destination.port msg
  -- the packet is the bytes of the two headers and the payload
  have hver : (datagramFor a.config msg).header.ver = 4 := rfl
  obtain ⟨out, hout, hbytes, -⟩ := IPv4Datagram.serialize_wire hver
  have hsegbytes : concat (datagramFor a.config msg).payload = seg.bytes := seg.serialize_wire
  rw [hsegbytes] at hbytes
  have hseglen : seg.bytes.length = 20 + msg.sender.payload.length := seg.length_bytes
  -- it is parsed as a datagram with the bytes of the segment
  obtain ⟨d, hparse, hdheader, hdpayload, howned, hgap⟩ := parse_split (headerFor_fits _ _ _) rfl
    (headerFor_valid _ _ _) hbytes (Nat.le.intro hseglen.symm)
    (hseglen.trans (headerFor_payloadLength _ _ hlen).symm).le
  -- and these as the segment, since the checksum was computed with the same pseudo-header
  have hverifies : TCPSegment.Verifies header.pseudoChecksum seg.bytes := by
    refine TCPSegment.verifies_computeChecksum _ ?_
    have := header.pseudoChecksum_lt
    show header.pseudoChecksum.toNat + 65280 * (msg.sender.payload.length + 22) < 2 ^ 32
    omega
  have hsegment : parse (TCPSegment.parse {} d.header.pseudoChecksum) d.payload
      = .ok (seg, true) := by
    rw [hdheader]
    exact TCPSegment.parse_wire hreset hverifies howned hgap hdpayload {}
  refine ⟨concat out, ?_, ?_⟩
  · unfold write
    rw [wrapTcpInIp_eq hdb hsource hdest]
    show (serialize (datagramFor a.config msg).serialize >>= fun out => _) = _
    rw [hout]
    rfl
  · unfold read
    rw [hparse, run_attempt_bind]
    refine unwrapTcpInIp_eq hdb ?_ ?_ hlistening ?_ ?_ ?_ hsegment ?_ ?_
    · rwa [hmirror.source_eq]
    · rwa [hmirror.destination_eq]
    · rw [hdheader, hmirror.source_eq]
      rfl
    · rw [hdheader, hmirror.destination_eq]
      rfl
    · rw [hdheader]
      rfl
    · rw [hmirror.source_eq]
      rfl
    · rw [hmirror.destination_eq]
      rfl

/-- A first segment with three bytes, from port 4000 of 10.0.0.1 to port 80 of 10.0.0.2. -/
theorem read_write_syn :
    let client : Address := { addr := 0x0a000001, port := 4000 }
    let server : Address := { addr := 0x0a000002, port := 80 }
    let msg : TCPMessage :=
      { sender := { seqno := ⟨137⟩, SYN := true, payload := [1, 2, 3] }
        receiver := { windowSize := 64000 } }
    let a' : TCPOverIPv4Adapter := { config := { source := server, destination := client } }
    ∃ packet, write .decimal { config := { source := client, destination := server } } msg
        = .ok packet ∧
      (read .decimal (split packet)).run.run a' = (.ok (some msg), a') :=
  read_write NetDb.decimal_readsPorts ⟨rfl, rfl⟩ ⟨rfl, rfl⟩ ⟨rfl, rfl⟩ rfl (by decide) rfl

end TCPOverIPv4OverTunFdAdapter

end Minnow
