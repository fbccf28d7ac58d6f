import Minnow.ByteStream
import Minnow.TCPMessage

namespace Minnow

/-!
# The TCP sender

The sender cuts its outbound byte stream into segments, keeps every segment until it is
acknowledged, and retransmits the oldest one when a timer expires.

The `transmit` callback of `push` and `tick` has no effect on the sender, so both functions
return the messages they hand to it, in order.
-/

/-- The members of `TCPSender`, the timer among them. -/
structure TCPSender where
  input : ByteStream
  isn : Wrap32
  nextSeqno : Wrap32
  lastAckno : Wrap32
  initialRTOms : UInt64
  currentRTO : UInt64
  senderSyn : Bool := false
  finSent : Bool := false
  windowSize : UInt16 := 1
  timerRunning : Bool := false
  timerElapsed : UInt64 := 0
  consecutiveRetransCount : UInt64 := 0
  outstandingSegments : List TCPSenderMessage := []
deriving DecidableEq, Repr

namespace TCPSender

/-- Construct a TCP sender with given default retransmission timeout and ISN. -/
def new (input : ByteStream) (isn : Wrap32) (initialRTOms : UInt64) : TCPSender :=
  { input, isn, nextSeqno := isn, lastAckno := isn, initialRTOms, currentRTO := initialRTOms }

/-- How many sequence numbers are outstanding? -/
def sequenceNumbersInFlight (s : TCPSender) : ℕ :=
  if ¬ s.senderSyn then 0 else (s.outstandingSegments.map (·.sequenceLength)).sum

/-- `consecutive_retransmissions()` -/
def consecutiveRetransmissions (s : TCPSender) : UInt64 := s.consecutiveRetransCount

/-- The timer starts again from zero. -/
def startTimer (s : TCPSender) : TCPSender :=
  { s with timerRunning := true, timerElapsed := 0 }

/-! ### `push` -/

/-- The bytes that go into the next segment, given the window left for it: `readSize` is at most
    the payload limit, the window and what is buffered.  The flag says whether any were read. -/
def takePayload (input : ByteStream) (window : ℕ) : Bytes × ByteStream × Bool :=
  if input.bytesBuffered > 0 ∧ window > 0 then
    let readSize := min TCPConfig.maxPayloadSize (min window input.bytesBuffered.toNat)
    if readSize > 0 then
      let (payload, input) := input.readBytes (UInt64.ofNat readSize)
      (payload, input, true)
    else ([], input, false)
  else ([], input, false)

/-- Remember a transmitted segment until it is acknowledged; the timer runs from now on. -/
def track (s : TCPSender) (msg : TCPSenderMessage) : TCPSender :=
  let s := { s with outstandingSegments := s.outstandingSegments ++ [msg] }
  if ¬ s.timerRunning then s.startTimer else s

/-- The first segment.  The window left beside the SYN is computed in `uint64_t`, where a window
    of zero makes it `2^64 - 1`; whether the FIN fits is not asked. -/
def pushSyn (s : TCPSender) : TCPSender × List TCPSenderMessage :=
  let msg : TCPSenderMessage := { SYN := true, seqno := s.isn }
  let s := { s with senderSyn := true }
  let effectiveWindowSize : UInt64 := s.windowSize.toUInt64 - UInt64.ofNat msg.sequenceLength
  let (payload, input, _) := takePayload s.input effectiveWindowSize.toNat
  let msg := { msg with payload }
  let fin := input.isFinished && !s.finSent
  let msg := { msg with FIN := fin }
  let s := { s with input, finSent := s.finSent || fin }
  let s := s.track msg
  ({ s with nextSeqno := s.isn.add (UInt32.ofNat msg.sequenceLength) }, [msg])

/-- The segment built by one pass through the loop of `push`, and whether there is anything in
    it to send. -/
def nextSegment (s : TCPSender) (remainingWindow : ℕ) : TCPSender × TCPSenderMessage × Bool :=
  let (payload, input, segmentSent) := takePayload s.input remainingWindow
  let s := { s with input }
  let msg : TCPSenderMessage := { seqno := s.nextSeqno, payload }
  if s.input.isClosed ∧ ¬ s.finSent ∧ msg.sequenceLength + 1 ≤ remainingWindow ∧
      s.input.bytesBuffered = 0 then
    ({ s with finSent := true }, { msg with FIN := true }, true)
  else (s, msg, segmentSent)

/-- The loop of `push`, `fuel` bounding the number of passes. -/
def pushLoop : ℕ → TCPSender → ℕ → TCPSender × List TCPSenderMessage
  | 0, s, _ => (s, [])
  | fuel + 1, s, remainingWindow =>
    if remainingWindow > 0 then
      let (s, msg, segmentSent) := s.nextSegment remainingWindow
      if segmentSent then
        let segLength := msg.sequenceLength
        let s := { s with nextSeqno := s.nextSeqno.add (UInt32.ofNat segLength) }
        let s := s.track msg
        if msg.FIN then (s, [msg])
        else
          let (s, sent) := pushLoop fuel s (remainingWindow - segLength)
          (s, msg :: sent)
      else (s, [])
    else (s, [])

/-- Push bytes from the outbound stream.  Every pass of the loop uses up at least one sequence
    number of the window, so as many passes as the window has are enough (`pushLoop_spec`). -/
def push (s : TCPSender) : TCPSender × List TCPSenderMessage :=
  if s.input.hasError then
    (s, [{ RST := true, seqno := if s.senderSyn then s.nextSeqno else s.isn }])
  else if ¬ s.senderSyn then s.pushSyn
  else
    let bytesInFlight := s.sequenceNumbersInFlight
    let effectiveWindowSize := if s.windowSize > 0 then s.windowSize.toNat else 1
    if bytesInFlight ≥ effectiveWindowSize then (s, [])
    else
      let remainingWindow := effectiveWindowSize - bytesInFlight
      s.pushLoop remainingWindow remainingWindow

/-- `make_empty_message()`: the next sequence number, and RST if the stream has an error. -/
def makeEmptyMessage (s : TCPSender) : TCPSenderMessage :=
  { seqno := if s.senderSyn then s.nextSeqno else s.isn, RST := s.input.hasError }

/-! ### `receive` -/

/-- The absolute end of an outstanding segment, as `receive` computes it. -/
def segEnd (isn : Wrap32) (absNextSeqno : UInt64) (seg : TCPSenderMessage) : UInt64 :=
  seg.seqno.unwrap isn absNextSeqno + UInt64.ofNat seg.sequenceLength

/-- The last part of `receive`: what an acknowledgment of new data does to RTO, retry count and
    timer. -/
def onNewAck (s : TCPSender) : TCPSender :=
  let s := { s with currentRTO := s.initialRTOms, consecutiveRetransCount := 0 }
  if s.outstandingSegments.isEmpty then { s with timerRunning := false } else s.startTimer

/-- Receive and process a `TCPReceiverMessage` from the peer's receiver. -/
def receive (s : TCPSender) (msg : TCPReceiverMessage) : TCPSender :=
  if msg.RST then { s with input := s.input.setError }
  else
    let s := { s with windowSize := msg.windowSize }
    match msg.ackno with
    | none => s
    | some ackno =>
      let absNextSeqno := s.nextSeqno.unwrap s.isn 0
      let absAckno := ackno.unwrap s.isn absNextSeqno
      if absAckno > absNextSeqno then s
      else
        let absLastAckno := s.lastAckno.unwrap s.isn absNextSeqno
        let acknowledgedNewData : Bool := absAckno > absLastAckno
        let s := if acknowledgedNewData then { s with lastAckno := ackno } else s
        let s := { s with
          outstandingSegments := s.outstandingSegments.filter fun seg =>
            ¬ segEnd s.isn absNextSeqno seg ≤ absAckno }
        if acknowledgedNewData then s.onNewAck else s

/-! ### `tick` -/

/-- Time has passed since the last call. -/
def tick (s : TCPSender) (msSinceLastTick : UInt64) : TCPSender × List TCPSenderMessage :=
  let s := { s with timerElapsed := s.timerElapsed + msSinceLastTick }
  if s.timerRunning ∧ s.timerElapsed ≥ s.currentRTO then
    match s.outstandingSegments with
    | [] => (s, [])
    | earliestSeg :: _ =>
      -- handle backoff only if the window size is nonzero
      let s :=
        if s.windowSize > 0 then
          { s with
            consecutiveRetransCount := s.consecutiveRetransCount + 1
            currentRTO := s.currentRTO * 2 }
        else s
      (s.startTimer, [earliestSeg])
  else (s, [])

end TCPSender

end Minnow
