import Minnow.TCPSender
import Minnow.TCPReceiver

namespace Minnow

/-!
# The TCP peer

One endpoint of a connection: a sender for the outbound stream and a receiver for the inbound
stream.  Every message of the sender goes out with the receiver's current message beside it.

As in the sender, the functions with a `transmit` callback return what they hand to it, in
order.
-/

/-- The two halves of a connection, and what decides when it ends. -/
structure TCPPeer where
  cfg : TCPConfig
  sender : TCPSender
  receiver : TCPReceiver
  needSend : Bool := false
  /-- one peer may need to linger to make sure all closure conditions are met -/
  lingerAfterStreamsFinish : Bool := true
  cumulativeTime : UInt64 := 0
  timeOfLastReceipt : UInt64 := 0
deriving DecidableEq, Repr

namespace TCPPeer

/-- A peer fresh from its constructor, which allocates both streams. -/
def new (cfg : TCPConfig) : Except StdException TCPPeer := do
  let outbound ← ByteStream.new cfg.sendCapacity
  let inbound ← ByteStream.new cfg.recvCapacity
  return {
    cfg
    sender := TCPSender.new outbound cfg.isn cfg.rtTimeout.toUInt64
    receiver := TCPReceiver.new (Reassembler.new inbound) }

/-- The stream that the owner writes. -/
def outbound (p : TCPPeer) : ByteStream := p.sender.input

/-- The stream that the owner reads. -/
def inbound (p : TCPPeer) : ByteStream := p.receiver.output

/-- Replace the outbound stream: what the owner does to it through `outbound_writer()`. -/
def setOutbound (p : TCPPeer) (stream : ByteStream) : TCPPeer :=
  { p with sender := { p.sender with input := stream } }

/-- Replace the inbound stream: what the owner does to it through `inbound_reader()`. -/
def setInbound (p : TCPPeer) (stream : ByteStream) : TCPPeer :=
  { p with receiver := p.receiver.setOutput stream }

/-- The full message that carries a message of the sender. -/
def message (p : TCPPeer) (senderMessage : TCPSenderMessage) : TCPMessage :=
  { sender := senderMessage, receiver := p.receiver.send }

/-- What the sender hands over is transmitted, after which nothing needs to be sent any more. -/
def transmitAll (p : TCPPeer) (out : List TCPSenderMessage) : TCPPeer × List TCPMessage :=
  ({ p with needSend := p.needSend && out.isEmpty }, out.map p.message)

/-- `push`: what the sender sends, with the receiver's answer to it. -/
def push (p : TCPPeer) : TCPPeer × List TCPMessage :=
  let (sender, out) := p.sender.push
  ({ p with sender } : TCPPeer).transmitAll out

/-- `tick`: time passes, and the sender may send again. -/
def tick (p : TCPPeer) (t : UInt64) : TCPPeer × List TCPMessage :=
  let p := { p with cumulativeTime := p.cumulativeTime + t }
  let (sender, out) := p.sender.tick t
  ({ p with sender } : TCPPeer).transmitAll out

/-- `has_ackno()`: has a SYN been received? -/
def hasAckno (p : TCPPeer) : Bool := p.receiver.send.ackno.isSome

/-- One of the streams has an error. -/
def anyErrors (p : TCPPeer) : Bool := p.inbound.hasError || p.outbound.hasError

/-- Bytes are not acknowledged, or the outbound stream is not finished. -/
def senderActive (p : TCPPeer) : Bool :=
  p.sender.sequenceNumbersInFlight ≠ 0 || !p.outbound.isFinished

/-- The inbound stream has not ended. -/
def receiverActive (p : TCPPeer) : Bool := !p.inbound.isClosed

/-- The comparison is made in `uint64_t`. -/
def lingering (p : TCPPeer) : Bool :=
  p.lingerAfterStreamsFinish &&
    p.cumulativeTime < p.timeOfLastReceipt + 10 * p.cfg.rtTimeout.toUInt64

/-- Is the peer still active? -/
def active (p : TCPPeer) : Bool :=
  !p.anyErrors && (p.senderActive || p.receiverActive || p.lingering)

/-- The first part of `receive`: both halves of the message are handed on, and it is noted when
    the message came and whether it wants a reply. -/
def accept (p : TCPPeer) (msg : TCPMessage) : TCPPeer :=
  -- a message that occupies a sequence number is replied to
  let needSend := p.needSend || msg.sender.sequenceLength > 0
  -- and so is a "keep-alive", with its intentionally invalid seqno
  let ourAckno := p.receiver.send.ackno
  let needSend := needSend || ourAckno == some (msg.sender.seqno.add 1)
  { p with
    timeOfLastReceipt := p.cumulativeTime
    needSend
    receiver := p.receiver.receive msg.sender
    sender := p.sender.receive msg.receiver }

/-- The last part of `receive`: when the inbound stream finished before the outbound one, there
    is no need to linger. -/
def stopLingering (p : TCPPeer) : TCPPeer :=
  if p.inbound.isClosed ∧ ¬ p.outbound.isFinished then
    { p with lingerAfterStreamsFinish := false }
  else p

/-- `receive`: take the segment in, send what may be sent now, and answer if nothing was and an
    answer is due. -/
def receive (p : TCPPeer) (msg : TCPMessage) : TCPPeer × List TCPMessage :=
  if ¬ p.active then (p, [])
  else
    let p := p.accept msg
    let (p, pushed) := p.push
    let (p, reply) := if p.needSend then p.transmitAll [p.sender.makeEmptyMessage] else (p, [])
    (p.stopLingering, pushed ++ reply)

/-! ### What the functions do -/

@[simp] theorem stopLingering_sender (p : TCPPeer) : p.stopLingering.sender = p.sender := by
  unfold stopLingering
  split <;> rfl

@[simp] theorem stopLingering_receiver (p : TCPPeer) : p.stopLingering.receiver = p.receiver := by
  unfold stopLingering
  split <;> rfl

@[simp] theorem stopLingering_message (p : TCPPeer) : p.stopLingering.message = p.message := by
  funext m
  rw [message, message, stopLingering_receiver]

@[simp] theorem stopLingering_cumulativeTime (p : TCPPeer) :
    p.stopLingering.cumulativeTime = p.cumulativeTime := by
  unfold stopLingering
  split <;> rfl

/-- What a constructor that succeeds returns. -/
theorem new_spec {cfg : TCPConfig} {p : TCPPeer} (h : new cfg = .ok p) :
    ∃ outbound inbound, ByteStream.new cfg.sendCapacity = .ok outbound ∧
      ByteStream.new cfg.recvCapacity = .ok inbound ∧
      p.sender = TCPSender.new outbound cfg.isn cfg.rtTimeout.toUInt64 ∧
      p.receiver = TCPReceiver.new (Reassembler.new inbound) ∧ p.cumulativeTime = 0 ∧
      p.needSend = false := by
  unfold new at h
  cases hout : ByteStream.new cfg.sendCapacity with
  | error e =>
    rw [hout] at h
    cases h
  | ok outbound =>
    cases hin : ByteStream.new cfg.recvCapacity with
    | error e =>
      rw [hout, hin] at h
      cases h
    | ok inbound =>
      rw [hout, hin] at h
      cases h
      exact ⟨outbound, inbound, rfl, rfl, rfl, rfl, rfl, rfl⟩

/-- Capacities that a string can have give a peer. -/
theorem new_eq_ok {cfg : TCPConfig} (hout : cfg.sendCapacity.toNat ≤ maxSize)
    (hin : cfg.recvCapacity.toNat ≤ maxSize) :
    new cfg = .ok {
      cfg
      sender := TCPSender.new (.empty cfg.sendCapacity) cfg.isn cfg.rtTimeout.toUInt64
      receiver := TCPReceiver.new (Reassembler.new (.empty cfg.recvCapacity)) } := by
  rw [new, ByteStream.new_eq_ok hout, ByteStream.new_eq_ok hin]
  rfl

/-- An inactive peer ignores messages. -/
theorem receive_of_inactive {p : TCPPeer} (h : p.active = false) (msg : TCPMessage) :
    p.receive msg = (p, []) := by
  rw [receive, h, if_pos (by simp)]

/-- A message takes no time. -/
theorem cumulativeTime_receive (p : TCPPeer) (msg : TCPMessage) :
    (p.receive msg).1.cumulativeTime = p.cumulativeTime := by
  unfold receive
  split
  · rfl
  · dsimp only
    split <;> rw [stopLingering_cumulativeTime] <;> rfl

/-- **Receiving.**  An active peer hands both halves of the message on and pushes; an empty
    message may follow. -/
theorem receive_of_active {p : TCPPeer} (h : p.active = true) (msg : TCPMessage) :
    (p.receive msg).1.sender = (p.sender.receive msg.receiver).push.1 ∧
      (p.receive msg).1.receiver = p.receiver.receive msg.sender ∧
      ∃ reply, (reply = [] ∨ reply = [(p.receive msg).1.sender.makeEmptyMessage]) ∧
        (p.receive msg).2 = ((p.sender.receive msg.receiver).push.2 ++ reply).map
          (p.receive msg).1.message := by
  unfold receive
  rw [h, if_neg (by simp)]
  dsimp only
  split
  · refine ⟨by rw [stopLingering_sender]; rfl, by rw [stopLingering_receiver]; rfl, _, .inr rfl, ?_⟩
    rw [List.map_append, stopLingering_sender, stopLingering_message]
    rfl
  · refine ⟨by rw [stopLingering_sender]; rfl, by rw [stopLingering_receiver]; rfl, [], .inl rfl,
      ?_⟩
    rw [stopLingering_message, List.append_nil, List.append_nil]
    rfl

end TCPPeer

end Minnow
