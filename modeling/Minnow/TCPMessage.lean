import Minnow.Basic
import Minnow.WrappingIntegers

namespace Minnow

/-!
# TCP messages and configuration

What the two endpoints of a connection exchange: a `TCPSenderMessage` from a sender to the
peer's receiver, a `TCPReceiverMessage` back, and the pair of both that travels in a segment.
-/

/-- What a TCP sender tells its receiver. -/
structure TCPSenderMessage where
  seqno : Wrap32 := ⟨0⟩
  SYN : Bool := false
  payload : Bytes := []
  FIN : Bool := false
  RST : Bool := false
deriving DecidableEq, Repr

/-- How many sequence numbers the segment uses. -/
def TCPSenderMessage.sequenceLength (m : TCPSenderMessage) : ℕ :=
  m.SYN.toNat + m.payload.length + m.FIN.toNat

/-- What a TCP receiver tells the sender: the next sequence number it needs (absent before it
    has a SYN), and how many it is interested in from there on. -/
structure TCPReceiverMessage where
  ackno : Option Wrap32 := none
  windowSize : UInt16 := 0
  RST : Bool := false
deriving DecidableEq, Repr

/-- The full message between two endpoints. -/
structure TCPMessage where
  sender : TCPSenderMessage := {}
  receiver : TCPReceiverMessage := {}
deriving DecidableEq, Repr

namespace TCPConfig

/-- Conservative max payload size for real Internet. -/
def maxPayloadSize : ℕ := 1000

/-- The initial retransmission timeout is a second, unless it is configured. -/
def timeoutDflt : UInt16 := 1000

/-- Maximum re-transmit attempts before giving up. -/
def maxRetxAttempts : ℕ := 8

/-- The streams have 64000 bytes, unless it is configured. -/
def defaultCapacity : UInt64 := 64000

end TCPConfig

/-- Config for TCP sender and receiver. -/
structure TCPConfig where
  rtTimeout : UInt16 := TCPConfig.timeoutDflt
  recvCapacity : UInt64 := TCPConfig.defaultCapacity
  sendCapacity : UInt64 := TCPConfig.defaultCapacity
  isn : Wrap32 := ⟨137⟩
deriving DecidableEq, Repr

end Minnow
