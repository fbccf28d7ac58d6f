import Minnow.SenderSteps
import Minnow.Library.Machine

namespace Minnow

/-!
# Runs of the sender

A run drives one `TCPSender` through any sequence of writes and closes of its outbound stream,
errors, pushes, ticks and received messages, and records beside it the history that the
properties of the sender speak about: the bytes accepted, the segments sent, and the exact,
unwrapped counts behind the 32-bit sequence numbers.

None of the history is read by the sender.
-/

/-- What can happen to a sender. -/
inductive SenderOp where
  | write (data : Bytes)
  | close
  | setError
  | push
  | tick (ms : UInt64)
  | receive (msg : TCPReceiverMessage)
deriving DecidableEq, Repr

/-- A sender with its history. -/
structure SenderRun where
  sender : TCPSender
  /-- the bytes accepted by the outbound writer -/
  accepted : Bytes := []
  /-- the non-RST messages handed to `transmit` by `push`, in order -/
  sent : List TCPSenderMessage := []
  /-- the messages handed to `transmit` by `tick`, in order -/
  retransmitted : List TCPSenderMessage := []
  /-- the largest exact acknowledgment accepted -/
  acked : ℕ := 0
  /-- the most recently received window -/
  window : ℕ := 1
  /-- the right edges advertised by the acceptable messages received -/
  edges : List ℕ := []
  /-- the time ticked since the timer was last started: by the first segment sent while nothing
      was outstanding, by an acknowledgment of new data, or by the last expiry -/
  sinceStart : ℕ := 0
  /-- the time ticked altogether -/
  elapsed : ℕ := 0
deriving Repr

namespace SenderRun

open TCPSender

/-- The exact count of sequence numbers sent. -/
def consumed (r : SenderRun) : ℕ := seqnos r.sent

/-- The exact position in `[L, N]` that an ackno stands for, if there is one. -/
def exactAck (isn : Wrap32) (L N : ℕ) (ackno : Wrap32) : Option ℕ :=
  let A := L + ackno.offset (Wrap32.ofPos L isn)
  if A ≤ N then some A else none

/-- The largest exact acknowledgment accepted after a message has been received. -/
def ackedAfter (r : SenderRun) (msg : TCPReceiverMessage) : ℕ :=
  if msg.RST then r.acked
  else
    match msg.ackno with
    | none => r.acked
    | some ackno => (exactAck r.sender.isn r.acked r.consumed ackno).getD r.acked

/-- The absolute ackno of a message, 0 when it has none. -/
def absAckno (r : SenderRun) (msg : TCPReceiverMessage) : ℕ :=
  match msg.ackno with
  | none => 0
  | some ackno => (ackno.unwrap r.sender.isn (UInt64.ofNat r.consumed)).toNat

/-- The right edge a message advertises, if the message is acceptable on arrival. -/
def edgesAfter (r : SenderRun) (msg : TCPReceiverMessage) : List ℕ :=
  if msg.RST = false ∧ r.absAckno msg ≤ r.consumed then
    r.edges ++ [r.absAckno msg + max msg.windowSize.toNat 1]
  else r.edges

/-- The method, with a note of what was accepted, sent and sent again, and of the time since the
    timer started. -/
def step (r : SenderRun) : SenderOp → SenderRun
  | .write data =>
    { r with
      sender := { r.sender with input := r.sender.input.push data }
      accepted := r.accepted ++ r.sender.input.accepted data }
  | .close => { r with sender := { r.sender with input := r.sender.input.close } }
  | .setError => { r with sender := { r.sender with input := r.sender.input.setError } }
  | .push =>
    let (sender, out) := r.sender.push
    let segments := out.filter fun m => ¬ m.RST
    { r with
      sender
      sent := r.sent ++ segments
      sinceStart :=
        if r.sender.outstandingSegments = [] ∧ segments ≠ [] then 0 else r.sinceStart }
  | .tick ms =>
    let (sender, out) := r.sender.tick ms
    { r with
      sender
      retransmitted := r.retransmitted ++ out
      sinceStart := if out = [] then r.sinceStart + ms.toNat else 0
      elapsed := r.elapsed + ms.toNat }
  | .receive msg =>
    { r with
      sender := r.sender.receive msg
      acked := r.ackedAfter msg
      window := if msg.RST then r.window else msg.windowSize.toNat
      edges := r.edgesAfter msg
      sinceStart := if r.acked < r.ackedAfter msg then 0 else r.sinceStart }

/-- A sender fresh from its constructor. -/
def start (input : ByteStream) (isn : Wrap32) (initialRTOms : UInt64) : SenderRun :=
  { sender := TCPSender.new input isn initialRTOms }

/-- The run of a fresh sender through a sequence of operations. -/
def of (input : ByteStream) (isn : Wrap32) (initialRTOms : UInt64) (ops : List SenderOp) :
    SenderRun :=
  Machine.run step (start input isn initialRTOms) ops

/-- The count of sequence numbers sent never decreases. -/
theorem consumed_le_step (r : SenderRun) (op : SenderOp) : r.consumed ≤ (r.step op).consumed := by
  cases op with
  | push =>
    show seqnos r.sent ≤ seqnos (r.sent ++ _)
    rw [seqnos_append]
    omega
  | write | close | setError | tick | receive => exact le_rfl

/-- Neither does the time ticked. -/
theorem elapsed_le_step (r : SenderRun) (op : SenderOp) : r.elapsed ≤ (r.step op).elapsed := by
  cases op with
  | tick ms => exact Nat.le_add_right _ _
  | write | close | setError | push | receive => exact le_rfl

/-- The bytes accepted only grow. -/
theorem accepted_le_run (r : SenderRun) (ops : List SenderOp) :
    r.accepted.length ≤ (Machine.run step r ops).accepted.length := by
  refine Machine.run_invariant (P := fun h : SenderRun => r.accepted.length ≤ h.accepted.length)
    (fun h op hle => hle.trans ?_) le_rfl ops
  cases op with
  | write data =>
    show _ ≤ (h.accepted ++ _).length
    rw [List.length_append]
    exact Nat.le_add_right _ _
  | close | setError | push | tick | receive => exact le_rfl

/-- Sending acknowledges nothing. -/
theorem acked_push (r : SenderRun) : (r.step .push).acked = r.acked := rfl

/-- Receiving a message sends nothing. -/
theorem consumed_receive (r : SenderRun) (msg : TCPReceiverMessage) :
    (r.step (.receive msg)).consumed = r.consumed := rfl

/-- The exact position of an ackno is the only one in the range. -/
theorem exactAck_eq_some {isn : Wrap32} {L N A : ℕ} {a : Wrap32} (hLN : N < L + 2 ^ 32) :
    exactAck isn L N a = some A ↔ L ≤ A ∧ A ≤ N ∧ a = Wrap32.ofPos A isn := by
  have hof : a = Wrap32.ofPos (L + a.offset (Wrap32.ofPos L isn)) isn := by
    rw [← Wrap32.ofPos_ofPos, Wrap32.ofPos_offset]
  simp only [exactAck]
  constructor
  · intro h
    split at h
    · rename_i hle
      cases h
      exact ⟨Nat.le_add_right _ _, hle, hof⟩
    · cases h
  · rintro ⟨hLA, hAN, rfl⟩
    have hoff : (Wrap32.ofPos A isn).offset (Wrap32.ofPos L isn) = A - L := by
      rw [show A = L + (A - L) by omega, ← Wrap32.ofPos_ofPos, Wrap32.offset_ofPos,
        Nat.mod_eq_of_lt (by omega)]
      omega
    rw [hoff, show L + (A - L) = A by omega, if_pos hAN]

end SenderRun

end Minnow
