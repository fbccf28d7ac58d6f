import Minnow.FileDescriptor
import Minnow.AdapterBinding

namespace Minnow

/-!
# Adapters for datagrams

What a socket asks of the adapter below it, and two adapters: the one for a TUN device, and the one
that adds random loss to another.

* `TCPDatagramAdapter` — the methods of an adapter;
* `TCPDatagramAdapter.Lawful` — an adapter writes at most one packet for a message, and what it
  reads is in the packet that it has taken; other descriptors are left alone;
* `TCPOverIPv4OverTunFdAdapter.lawful`, `LossyFdAdapter.lawful` — both adapters are lawful;
* `TCPOverIPv4OverTunFdAdapter.decode_write` — whatever adapter reads what another one has written
  finds the message in it or nothing; a reset is one for both halves of the message.
-/

/-- The descriptors of a socket: the device, the end of the stream socket that its thread uses, and
    the end of the owner. -/
inductive SocketFd where
  | tun
  | data
  | owner
deriving DecidableEq, Repr

/-- The methods of an adapter with a state of type `A` and a configuration of type `C`. -/
structure TCPDatagramAdapter (A C : Type) where
  read : SysM SocketFd A (Option TCPMessage)
  write : TCPMessage → SysM SocketFd A PUnit
  setListening : Bool → A → A
  setConfig : C → A → A

/-! ### The adapter for a TUN device -/

namespace TCPOverIPv4OverTunFdAdapter

open TCPOverIPv4Adapter

variable (db : NetDb) (kernel : Kernel SocketFd)

/-- A method that does not use the device. -/
def onAdapter {β : Type} (x : AdapterM β) : SysM SocketFd TCPOverIPv4Adapter β :=
  ExceptT.mk fun w =>
    let (result, a) := x.run.run w.vars
    (result, w.setVars a)

/-- A packet is read into buffers for the two headers and the rest, and unwrapped. -/
def readTun : SysM SocketFd TCPOverIPv4Adapter (Option TCPMessage) := do
  let strs ← FileDescriptor.readv kernel .tun [IPv4Header.LENGTH, TCPSegment.HEADER_LENGTH, 0]
  onAdapter (read db (strs.map fun str => { get := str }))

/-- A message is wrapped and written as one packet. -/
def writeTun (seg : TCPMessage) : SysM SocketFd TCPOverIPv4Adapter PUnit := do
  let ipDgram ← SysM.attempt ((← get).vars.wrapTcpInIp db seg)
  let buffers ← SysM.attempt (serialize ipDgram.serialize)
  let _ ← FileDescriptor.write kernel .tun (buffers.map (·.get))

/-- The adapter whose packets are whole datagrams. -/
def adapter : TCPDatagramAdapter TCPOverIPv4Adapter FdAdapterConfig where
  read := readTun db kernel
  write := writeTun db kernel
  setListening := fun listening a => { a with listening }
  setConfig := fun config a => { a with config }

end TCPOverIPv4OverTunFdAdapter

/-! ### The adapter that loses packets -/

/-- An adapter below, the loss rates of its configuration, and a random engine, of which the numbers
    are given. -/
structure LossyFdAdapter (A : Type) where
  adapter : A
  lossRateDn : UInt16 := 0
  lossRateUp : UInt16 := 0
  rand : ℕ → UInt64
  /-- how many random numbers have been drawn -/
  drawn : ℕ := 0

namespace LossyFdAdapter

variable {A C : Type}

/-- Determine whether or not to drop a given read or write.  No number is drawn for a loss rate of
    zero. -/
def shouldDrop (uplink : Bool) : SysM SocketFd (LossyFdAdapter A) Bool := do
  let a := (← get).vars
  let loss := if uplink then a.lossRateUp else a.lossRateDn
  if loss = 0 then return false
  else
    modify fun w => w.setVars { a with drawn := a.drawn + 1 }
    return (a.rand a.drawn).toUInt16 < loss

/-- What is done by the adapter below. -/
def below {β : Type} (x : SysM SocketFd A β) : SysM SocketFd (LossyFdAdapter A) β :=
  SysM.zoom (·.adapter) (fun a adapter => { a with adapter }) x

/-- The adapter over another one; its configuration is the loss rates down and up with that of the
    other. -/
def adapterOver (ad : TCPDatagramAdapter A C) :
    TCPDatagramAdapter (LossyFdAdapter A) (UInt16 × UInt16 × C) where
  read := do
    let ret ← below ad.read
    if ← shouldDrop false then return none else return ret
  write := fun seg => do
    if ← shouldDrop true then return else below (ad.write seg)
  setListening := fun listening a => { a with adapter := ad.setListening listening a.adapter }
  setConfig := fun config a =>
    { a with
      adapter := ad.setConfig config.2.2 a.adapter
      lossRateDn := config.1
      lossRateUp := config.2.1 }

end LossyFdAdapter

/-! ### Laws -/

namespace TCPDatagramAdapter

variable {A C : Type}

/-- Nothing has happened but at the device and in the adapter. -/
structure Quiet (w w' : World SocketFd A) : Prop where
  cancelRequested_eq : w'.cancelRequested = w.cancelRequested
  data_eq : w'.fds .data = w.fds .data
  traffic_eq : w'.traffic .data = w.traffic .data

/-- A message may have been written, in one packet. -/
structure Wrote (Encodes : Bytes → TCPMessage → Prop) (msg : TCPMessage) (w w' : World SocketFd A) :
    Prop extends Quiet w w' where
  taken_eq : (w'.traffic .tun).taken = (w.traffic .tun).taken
  given : (w'.traffic .tun).given = (w.traffic .tun).given ∨
    ∃ packet, (w'.traffic .tun).given = (w.traffic .tun).given ++ [packet] ∧ Encodes packet msg

/-- A packet may have been read; if there was a message, it was in this packet. -/
structure Took (decode : A → Bytes → Option TCPMessage) (result : Option TCPMessage)
    (w w' : World SocketFd A) : Prop extends Quiet w w' where
  given_eq : (w'.traffic .tun).given = (w.traffic .tun).given
  taken : (w'.traffic .tun).taken = (w.traffic .tun).taken ∧ result = none ∨
    ∃ packet, (w'.traffic .tun).taken = (w.traffic .tun).taken ++ [packet] ∧
      ∀ msg, result = some msg → decode w.vars packet = some msg

open ExceptState

/-- The methods of an adapter are what the socket above takes them to be, also when they throw. -/
structure Lawful (ad : TCPDatagramAdapter A C) (Encodes : Bytes → TCPMessage → Prop)
    (decode : A → Bytes → Option TCPMessage) : Prop where
  read : ∀ w, Triple (fun t => t = w) ad.read (fun result => Took decode result w)
    fun _ => Took decode none w
  write : ∀ w msg, Triple (fun t => t = w) (ad.write msg) (fun _ => Wrote Encodes msg w)
    fun _ => Wrote Encodes msg w

end TCPDatagramAdapter

/-- A device takes a packet whole, or not at all. -/
def WholePackets (kernel : Kernel SocketFd) : Prop :=
  ∀ n buffers k, kernel.writev n .tun buffers = .ok k → k = 0 ∨ buffers.flatten.length ≤ k

namespace TCPDatagramAdapter

variable {A : Type} {Encodes : Bytes → TCPMessage → Prop} {msg : TCPMessage}
  {decode : A → Bytes → Option TCPMessage} {w w' : World SocketFd A}

/-- What is done with the device leaves the owner's descriptor alone. -/
theorem Quiet.touch (w : World SocketFd A) (f : FDWrapper → FDWrapper) (t : Traffic → Traffic) :
    Quiet w (w.called.touch .tun f t) :=
  ⟨rfl, w.called.fds_touch_of_ne nofun, w.called.traffic_touch_of_ne nofun⟩

/-- Nothing has been written yet. -/
theorem Wrote.called (Encodes : Bytes → TCPMessage → Prop) (msg : TCPMessage)
    (w : World SocketFd A) : Wrote Encodes msg w w.called :=
  ⟨⟨rfl, rfl, rfl⟩, rfl, .inl rfl⟩

/-- The packet of the message has been written. -/
theorem Wrote.onWrite {packet : Bytes} (h : Encodes packet msg) (w : World SocketFd A) :
    Wrote Encodes msg w (w.called.onWrite .tun packet) :=
  ⟨.touch .., w.called.taken_onWrite packet, .inr ⟨packet, w.called.given_onWrite packet, h⟩⟩

/-- Nothing has been read yet. -/
theorem Took.called (decode : A → Bytes → Option TCPMessage) (w : World SocketFd A) :
    Took decode none w w.called :=
  ⟨⟨rfl, rfl, rfl⟩, rfl, .inl ⟨rfl, rfl⟩⟩

/-- A packet has been read; a message comes from it. -/
theorem Took.onRead {result : Option TCPMessage} {packet : Bytes} {eof : Bool}
    (h : ∀ msg, result = some msg → decode w.vars packet = some msg) :
    Took decode result w (w.called.onRead .tun packet eof) :=
  ⟨.touch .., w.called.given_onRead packet eof,
    .inr ⟨packet, w.called.taken_onRead packet eof, h⟩⟩

/-- A packet has been read that has no message. -/
theorem Took.nothing (decode : A → Bytes → Option TCPMessage) (w : World SocketFd A)
    (packet : Bytes) (eof : Bool) : Took decode none w (w.called.onRead .tun packet eof) :=
  .onRead nofun

/-- What was read is dropped. -/
theorem Took.drop {result : Option TCPMessage} (h : Took decode result w w') :
    Took decode none w w' :=
  { h with taken := h.taken.imp (fun h => ⟨h.1, rfl⟩) fun ⟨packet, h, _⟩ => ⟨packet, h, nofun⟩ }

/-- The variables are of no concern. -/
theorem Took.setVars {result : Option TCPMessage} (h : Took decode result w w') (a : A) :
    Took decode result w (w'.setVars a) :=
  { h with }

end TCPDatagramAdapter

/-! ### The adapter for a TUN device is lawful -/

namespace TCPOverIPv4OverTunFdAdapter

open TCPOverIPv4Adapter TCPDatagramAdapter ExceptState

/-- The message that an adapter finds in what it reads from the device. -/
def decode (db : NetDb) (a : TCPOverIPv4Adapter) (packet : Bytes) : Option TCPMessage :=
  if packet.length ≤ IPv4Header.LENGTH + TCPSegment.HEADER_LENGTH + kReadBufferSize then
    match ((read db (split packet)).run.run a).1 with
    | .ok message => message
    | .error _ => none
  else none

/-- What an adapter gives to the device for a message; nothing, when the device did not take it. -/
def Encodes (db : NetDb) (packet : Bytes) (msg : TCPMessage) : Prop :=
  packet = [] ∨ ∃ a, write db a msg = .ok packet

variable {db : NetDb} {kernel : Kernel SocketFd}

/-- Without a buffer there is no message. -/
theorem read_nil (db : NetDb) (a : TCPOverIPv4Adapter) :
    (read db []).run.run a = (.ok none, a) := rfl

/-- The buffers that the device fills. -/
theorem scatter_eq_split {packet : Bytes}
    (h : packet.length ≤ (FileDescriptor.lastFull
      [IPv4Header.LENGTH, TCPSegment.HEADER_LENGTH, 0]).sum) :
    (FileDescriptor.scatter (FileDescriptor.lastFull
      [IPv4Header.LENGTH, TCPSegment.HEADER_LENGTH, 0]) packet).map (fun str => { get := str })
      = split packet := by
  have hrest : (packet.drop (IPv4Header.LENGTH + TCPSegment.HEADER_LENGTH)).length
      ≤ FileDescriptor.kReadBufferSize := by
    rw [List.length_drop]
    exact Nat.sub_le_of_le_add (h.trans_eq (by decide))
  show [{ get := packet.take IPv4Header.LENGTH },
    { get := (packet.drop IPv4Header.LENGTH).take TCPSegment.HEADER_LENGTH },
    ({ get := ((packet.drop IPv4Header.LENGTH).drop TCPSegment.HEADER_LENGTH).take
        FileDescriptor.kReadBufferSize } : Ref)] = _
  rw [List.drop_drop, List.take_of_length_le hrest]
  rfl

/-- A method that does not use the device changes the adapter's members only. -/
theorem onAdapter_triple {β : Type} {x : AdapterM β} {P : World SocketFd TCPOverIPv4Adapter → Prop}
    {Q : β → World SocketFd TCPOverIPv4Adapter → Prop}
    {E : StdException → World SocketFd TCPOverIPv4Adapter → Prop}
    (hok : ∀ w b a, P w → x.run.run w.vars = (.ok b, a) → Q b (w.setVars a))
    (herror : ∀ w e a, P w → x.run.run w.vars = (.error e, a) → E e (w.setVars a)) :
    Triple P (onAdapter x) Q E := by
  intro w hw
  show Outcome Q E ((x.run.run w.vars).1, w.setVars (x.run.run w.vars).2)
  cases hrun : x.run.run w.vars with
  | mk result a =>
    cases result with
    | ok b => exact hok w b a hw hrun
    | error e => exact herror w e a hw hrun

/-- The adapter for a TUN device is lawful, where packets are whole. -/
theorem lawful (db : NetDb) (hwhole : WholePackets kernel) :
    Lawful (adapter db kernel) (Encodes db) (decode db) where
  read := fun w => by
    refine .bind (Q := fun strs t => t.vars = w.vars ∧ (strs = [] ∧ Took (decode db) none w t ∨
      ∃ packet, strs.map (fun str => ({ get := str } : Ref)) = split packet ∧
        packet.length ≤ IPv4Header.LENGTH + TCPSegment.HEADER_LENGTH + kReadBufferSize ∧
        t = w.called.onRead .tun packet false)) ?_ fun strs => onAdapter_triple ?_ ?_
    · refine FileDescriptor.readv_triple (List.cons_ne_nil _ _) ?_ ?_ ?_ ?_
      · rintro w e rfl -
        exact ⟨rfl, .inl ⟨rfl, .called _ w⟩⟩
      · rintro w packet rfl - hle
        exact ⟨rfl, .inr ⟨packet, scatter_eq_split hle, hle, rfl⟩⟩
      · rintro w e rfl -
        exact .called _ w
      · rintro w packet rfl - -
        exact .nothing ..
    · rintro t result a ⟨hvars, ⟨rfl, hnothing⟩ | ⟨packet, hsplit, hle, rfl⟩⟩ hrun
      · rw [List.map_nil, read_nil] at hrun
        cases hrun
        exact hnothing.setVars _
      · refine (Took.onRead fun msg hmsg => ?_).setVars a
        rw [hsplit] at hrun
        have hrun' : (read db (split packet)).run.run w.vars = (.ok result, a) := hrun
        rw [decode, if_pos hle, hrun']
        exact hmsg
    · rintro t e a ⟨hvars, ⟨rfl, hnothing⟩ | ⟨packet, hsplit, hle, rfl⟩⟩ hrun
      · exact hnothing.setVars a
      · exact (Took.nothing ..).setVars a
  write := fun w msg => by
    have hnone : Wrote (Encodes db) msg w w := ⟨⟨rfl, rfl, rfl⟩, rfl, .inl rfl⟩
    refine .get fun v hv => .bind (SysM.attempt_triple (Q := fun d t => t = w ∧
        w.vars.wrapTcpInIp db msg = .ok d) ?_ ?_) fun d => .bind (SysM.attempt_triple
      (Q := fun buffers t => t = w ∧ write db w.vars msg = .ok (concat buffers)) ?_ ?_)
      fun buffers => .bind (FileDescriptor.write_triple (Q := fun _ => Wrote (Encodes db) msg w)
        ?_ ?_ ?_ ?_) fun n => .pure _ fun _ ht => ht
    · rintro d _ hd rfl
      exact ⟨hv, hv ▸ hd⟩
    · rintro e _ - rfl
      exact hv ▸ hnone
    · rintro buffers _ hbuffers ⟨rfl, hd⟩
      refine ⟨rfl, ?_⟩
      rw [write, hd]
      show (serialize d.serialize >>= fun out => _) = _
      rw [hbuffers]
      rfl
    · rintro e _ - ⟨rfl, -⟩
      exact hnone
    · -- the device has taken all of it, or nothing
      rintro t n ⟨rfl, hpacket⟩ hn - hzero
      have hall : (buffers.map (·.get)).flatten.take n = concat buffers := by
        rcases hn with rfl | hn
        · rw [hzero rfl, List.take_nil]
          exact (hzero rfl).symm
        · rcases hwhole _ _ _ hn with rfl | hle
          · rw [hzero rfl, List.take_nil]
            exact (hzero rfl).symm
          · exact List.take_of_length_le hle
      rw [hall]
      exact .onWrite (.inr ⟨_, hpacket⟩) t
    · rintro t e ⟨rfl, -⟩ -
      exact .called ..
    · rintro t ⟨rfl, -⟩ - -
      exact .onWrite (.inl rfl) t
    · rintro t n ⟨rfl, hpacket⟩ - -
      exact .onWrite (.inr ⟨_, hpacket⟩) t

end TCPOverIPv4OverTunFdAdapter

/-! ### The adapter that loses packets is lawful -/

namespace LossyFdAdapter

open TCPDatagramAdapter ExceptState

variable {A C : Type} {ad : TCPDatagramAdapter A C} {Encodes : Bytes → TCPMessage → Prop}
  {decode : A → Bytes → Option TCPMessage}

/-- Only the random engine goes on. -/
theorem shouldDrop_triple {uplink : Bool} {P : World SocketFd (LossyFdAdapter A) → Prop}
    {Q : Bool → World SocketFd (LossyFdAdapter A) → Prop}
    {E : StdException → World SocketFd (LossyFdAdapter A) → Prop}
    (h : ∀ w drop drawn, P w → Q drop (w.setVars { w.vars with drawn })) :
    Triple P (shouldDrop uplink) Q E := by
  refine .get fun w hw => .ite (fun _ => .pure _ ?_) fun _ => .bind (.modify
    (Q := fun _ t => ∀ drop, Q drop t) ?_) fun _ => .pure _ fun t ht => ht _
  · rintro t rfl
    exact h t false t.vars.drawn hw
  · rintro t rfl
    exact fun drop => h t drop _ hw

/-- An adapter that loses packets is lawful over one that is. -/
theorem lawful (h : Lawful ad Encodes decode) :
    Lawful (adapterOver ad) Encodes fun a packet => decode a.adapter packet where
  read := fun w => by
    refine .bind (SysM.zoom_triple (Q := fun result =>
      Took (fun a packet => decode a.adapter packet) result w) ?_) fun ret =>
      .bind (shouldDrop_triple (Q := fun _ => Took (fun a packet => decode a.adapter packet) ret w)
        fun t _ _ ht => ht.setVars _) fun drop => .ite (fun _ => .pure _ fun t ht => ht.drop)
        fun _ => .pure _ fun t ht => ht
    refine (h.read { w with vars := w.vars.adapter }).mono (fun _ ht => ht) ?_ ?_
    · exact fun _ t ht => ⟨⟨ht.cancelRequested_eq, ht.data_eq, ht.traffic_eq⟩, ht.given_eq,
        ht.taken⟩
    · exact fun _ t ht => ⟨⟨ht.cancelRequested_eq, ht.data_eq, ht.traffic_eq⟩, ht.given_eq,
        ht.taken⟩
  write := fun w msg => by
    have hnone : ∀ a, Wrote Encodes msg w (w.setVars a) := fun a =>
      ⟨⟨rfl, rfl, rfl⟩, rfl, .inl rfl⟩
    refine .bind (shouldDrop_triple (Q := fun _ t => ∃ a, t = w.setVars a) ?_) fun drop =>
      .ite (fun _ => .pure _ ?_) fun _ => .of_state ?_
    · rintro w _ drawn rfl
      exact ⟨_, rfl⟩
    · rintro _ ⟨a, rfl⟩
      exact hnone a
    · rintro _ ⟨a, rfl⟩
      refine SysM.zoom_triple ((h.write { w with vars := a.adapter } msg).mono (fun _ ht => ht)
        ?_ ?_)
      · exact fun _ t ht => ⟨⟨ht.cancelRequested_eq, ht.data_eq, ht.traffic_eq⟩, ht.taken_eq,
          ht.given⟩
      · exact fun _ t ht => ⟨⟨ht.cancelRequested_eq, ht.data_eq, ht.traffic_eq⟩, ht.taken_eq,
          ht.given⟩

end LossyFdAdapter

/-! ### From one adapter to another -/

/-- What a message reads as at the other end: there is one flag for a reset. -/
def TCPMessage.received (msg : TCPMessage) : TCPMessage :=
  let RST := msg.sender.RST || msg.receiver.RST
  { sender := { msg.sender with RST }, receiver := { msg.receiver with RST } }

namespace TCPOverIPv4OverTunFdAdapter

open TCPOverIPv4Adapter

variable {db : NetDb}

/-- Only an IPv4 address has 32 bits to give. -/
theorem isIPv4_of_numeric {a : Address} {n : UInt32} (h : a.ipv4Numeric = .ok n) : a.IsIPv4 := by
  unfold Address.ipv4Numeric at h
  split at h
  · cases h
  · rename_i hgood
    exact ⟨not_not.mp fun hne => hgood (.inl hne), not_not.mp fun hne => hgood (.inr hne)⟩

/-- Only between addresses of IPv4 something is written. -/
theorem isIPv4_of_write {a : TCPOverIPv4Adapter} {msg : TCPMessage} {packet : Bytes}
    (h : write db a msg = .ok packet) :
    a.config.source.IsIPv4 ∧ a.config.destination.IsIPv4 := by
  unfold write wrapTcpInIp at h
  cases hsrcPort : a.config.source.portOf db with
  | error e =>
    rw [hsrcPort] at h
    cases h
  | ok srcPort =>
    cases hdstPort : a.config.destination.portOf db with
    | error e =>
      rw [hsrcPort, hdstPort] at h
      cases h
    | ok dstPort =>
      cases hsrc : a.config.source.ipv4Numeric with
      | error e =>
        rw [hsrcPort, hdstPort, hsrc] at h
        cases h
      | ok src =>
        cases hdst : a.config.destination.ipv4Numeric with
        | error e =>
          rw [hsrcPort, hdstPort, hsrc, hdst] at h
          cases h
        | ok dst => exact ⟨isIPv4_of_numeric hsrc, isIPv4_of_numeric hdst⟩

/-- On the wire there is no difference. -/
theorem bytes_received (udinfo : UserDatagramInfo) (msg : TCPMessage) :
    ({ message := msg.received, udinfo } : TCPSegment).bytes
      = ({ message := msg, udinfo } : TCPSegment).bytes := by
  have hflags : ({ message := msg.received, udinfo } : TCPSegment).flags
      = ({ message := msg, udinfo } : TCPSegment).flags := by
    obtain ⟨⟨seqno, SYN, payload, FIN, RST⟩, ⟨ackno, windowSize, RST'⟩⟩ := msg
    cases RST <;> cases RST' <;> rfl
  rw [TCPSegment.bytes, TCPSegment.fields, hflags]
  rfl

/-- **What one adapter writes** for a message, another one reads as this message, if it reads a
    message in it. -/
theorem decode_write (hdb : db.Inverse) {a a' : TCPOverIPv4Adapter} {msg msg' : TCPMessage}
    {packet : Bytes} (hwrite : write db a msg = .ok packet)
    (hdecode : decode db a' packet = some msg') : msg' = msg.received := by
  obtain ⟨hsource, hdest⟩ := isIPv4_of_write hwrite
  set header := headerFor a.config.source.addr a.config.destination.addr
    msg.sender.payload.length with hheader
  set seg := segmentFor header a.config.source.port a.config.destination.port msg with hseg
  -- the packet is the bytes of the two headers and the payload
  have hver : (datagramFor a.config msg).header.ver = 4 := rfl
  obtain ⟨out, hout, hbytes, -⟩ := IPv4Datagram.serialize_wire hver
  have hsegbytes : concat (datagramFor a.config msg).payload = seg.bytes := seg.serialize_wire
  rw [hsegbytes] at hbytes
  have hseglen : seg.bytes.length = 20 + msg.sender.payload.length := seg.length_bytes
  have hpacket : packet = concat out := by
    unfold write at hwrite
    rw [wrapTcpInIp_eq hdb.readsPorts hsource hdest] at hwrite
    have hwrite' : (serialize (datagramFor a.config msg).serialize >>= fun out =>
      .ok (concat out)) = .ok packet := hwrite
    rw [hout] at hwrite'
    exact (Except.ok.inj hwrite').symm
  subst hpacket
  unfold decode at hdecode
  split at hdecode
  swap
  · cases hdecode
  rename_i hsize
  have hlen : msg.sender.payload.length ≤ 65495 := by
    rw [hbytes, List.length_append, IPv4Header.length_bytes, hseglen] at hsize
    unfold IPv4Header.LENGTH TCPSegment.HEADER_LENGTH kReadBufferSize at hsize
    omega
  -- it is parsed as a datagram with the bytes of the segment
  obtain ⟨d, hparse, hdheader, hdpayload, -, -⟩ := parse_split (headerFor_fits _ _ _) rfl
    (headerFor_valid _ _ _) hbytes (Nat.le.intro hseglen.symm)
    (hseglen.trans (headerFor_payloadLength _ _ hlen).symm).le
  -- and these as a segment, in which there is one flag for a reset
  have hverifies : TCPSegment.Verifies header.pseudoChecksum seg.bytes := by
    refine TCPSegment.verifies_computeChecksum _ ?_
    have := header.pseudoChecksum_lt
    show header.pseudoChecksum.toNat + 65280 * (msg.sender.payload.length + 22) < 2 ^ 32
    omega
  have hreceived : ({ message := msg.received, udinfo := seg.udinfo } : TCPSegment).bytes
    = seg.bytes := bytes_received seg.udinfo msg
  have hsegment : d.segment.message = msg.received := by
    rw [IPv4Datagram.segment, hdheader, hdpayload, ← hreceived,
      (TCPSegment.parsed_bytes rfl (hreceived ▸ hverifies) {}).1]
  have hread : (read db (split (concat out))).run.run a' = (unwrapTcpInIp db d).run.run a' := by
    unfold read
    rw [hparse, run_attempt_bind]
    rfl
  rw [hread] at hdecode
  have hcase := unwrapped hdb a' d
  generalize (unwrapTcpInIp db d).run.run a' = result at hcase hdecode
  cases hcase with
  | threw | nothing => cases hdecode
  | bound | passed => exact (Option.some.inj hdecode).symm.trans hsegment

/-- **The code of an adapter.**  It can be read by no other way. -/
theorem decode_encodes (hdb : db.Inverse) {a : TCPOverIPv4Adapter} {msg msg' : TCPMessage}
    {packet : Bytes} (hencodes : Encodes db packet msg) (hdecode : decode db a packet = some msg') :
    msg' = msg.received := by
  rcases hencodes with rfl | ⟨a', hwrite⟩
  · cases hdecode
  · exact decode_write hdb hwrite hdecode

end TCPOverIPv4OverTunFdAdapter

end Minnow
