import Minnow.TCPPeer
import Minnow.SenderTiling

namespace Minnow

/-!
# Runs of a peer

A run drives one `TCPPeer` through any sequence of writes, closes and errors of its streams,
reads, pushes, ticks and received messages, and records beside it the messages transmitted, the
bytes assembled, and the run of its sender.

`Tracked` ties the peer to this history: its sender is the one at the end of a run of a fresh
sender, and what it transmits comes from that run.
-/

/-- What can happen to a peer. -/
inductive PeerOp where
  | write (data : Bytes)
  | close
  | setOutboundError
  | setInboundError
  | read (len : UInt64)
  | push
  | tick (ms : UInt64)
  | receive (msg : TCPMessage)
deriving DecidableEq, Repr

namespace PeerOp

/-- The operation itself, with the messages it transmits. -/
def act (p : TCPPeer) : PeerOp → TCPPeer × List TCPMessage
  | .write data => (p.setOutbound (p.outbound.push data), [])
  | .close => (p.setOutbound p.outbound.close, [])
  | .setOutboundError => (p.setOutbound p.outbound.setError, [])
  | .setInboundError => (p.setInbound p.inbound.setError, [])
  | .read len => (p.setInbound (p.inbound.pop len), [])
  | .push => p.push
  | .tick ms => p.tick ms
  | .receive msg => p.receive msg

/-- What happens to the sender. -/
def senderOps (p : TCPPeer) : PeerOp → List SenderOp
  | .write data => [.write data]
  | .close => [.close]
  | .setOutboundError => [.setError]
  | .setInboundError => []
  | .read _ => []
  | .push => [.push]
  | .tick ms => [.tick ms]
  | .receive msg => if p.active then [.receive msg.receiver, .push] else []

/-- The only messages that reach the sender are those received. -/
theorem mem_senderOps {p : TCPPeer} {op : PeerOp} {msg : TCPReceiverMessage}
    (h : .receive msg ∈ op.senderOps p) : ∃ full, op = .receive full ∧ full.receiver = msg := by
  cases op with
  | receive full =>
    refine ⟨full, rfl, ?_⟩
    rw [senderOps] at h
    split at h
    · have heq : msg = full.receiver := by simpa using h
      exact heq.symm
    · cases h
  | write | close | setOutboundError | setInboundError | read | push | tick =>
    simp [senderOps] at h

end PeerOp

/-- A peer with its history. -/
structure PeerRun where
  peer : TCPPeer
  /-- the sender with its own history -/
  history : SenderRun
  /-- the bytes ever pushed to the inbound stream -/
  assembled : Bytes := []
  transmitted : List TCPMessage := []
deriving Repr

namespace PeerRun

/-- The method, with the history of the sender, the bytes assembled, and what was transmitted. -/
def step (r : PeerRun) (op : PeerOp) : PeerRun :=
  let (peer, out) := op.act r.peer
  { peer
    history := Machine.run SenderRun.step r.history (op.senderOps r.peer)
    assembled := r.assembled ++ peer.inbound.contents.drop r.peer.inbound.contents.length
    transmitted := r.transmitted ++ out }

/-- A peer that has done nothing yet. -/
def start (peer : TCPPeer) : PeerRun := { peer, history := { sender := peer.sender } }

/-- The run of a peer through a sequence of operations. -/
def of (peer : TCPPeer) (ops : List PeerOp) : PeerRun := Machine.run step (start peer) ops

/-- The exact count of sequence numbers sent. -/
def consumed (r : PeerRun) : ℕ := r.history.consumed

/-- The time ticked altogether. -/
def elapsed (r : PeerRun) : ℕ := r.history.elapsed

/-- Sequence numbers that were sent stay sent. -/
theorem consumed_le_step (r : PeerRun) (op : PeerOp) : r.consumed ≤ (r.step op).consumed :=
  Machine.run_invariant (P := fun h : SenderRun => r.consumed ≤ h.consumed)
    (fun h op hle => hle.trans (h.consumed_le_step op)) le_rfl _

/-- Time goes forward. -/
theorem elapsed_le_step (r : PeerRun) (op : PeerOp) : r.elapsed ≤ (r.step op).elapsed :=
  Machine.run_invariant (P := fun h : SenderRun => r.elapsed ≤ h.elapsed)
    (fun h op hle => hle.trans (h.elapsed_le_step op)) le_rfl _

/-- A message of the sender: a reset, a segment sent, or an empty message at a position sent. -/
def FromSender (h : SenderRun) (m : TCPSenderMessage) : Prop :=
  m.RST = true ∨ m ∈ h.sent ∨ ∃ k ≤ h.consumed, m = { seqno := Wrap32.ofPos k h.sender.isn }

/-- What ties a peer to its history. -/
structure Tracked (input : ByteStream) (isn : Wrap32) (rto : UInt64) (r : PeerRun) : Prop where
  history_of : ∃ ops, r.history = SenderRun.of input isn rto ops
  sender_eq : r.history.sender = r.peer.sender
  clock_eq : r.peer.cumulativeTime = UInt64.ofNat r.elapsed
  from_sender : ∀ x ∈ r.transmitted, FromSender r.history x.sender
  transmitted : ∀ m ∈ r.history.sent, ∃ x ∈ r.transmitted, x.sender = m

/-! ### One operation of the sender -/

/-- A run of the sender that ends with one more operation is one, too. -/
theorem history_concat {input : ByteStream} {isn : Wrap32} {rto : UInt64} {h : SenderRun}
    (hof : ∃ ops, h = SenderRun.of input isn rto ops) (ops' : List SenderOp) :
    ∃ ops, Machine.run SenderRun.step h ops' = SenderRun.of input isn rto ops := by
  obtain ⟨ops, rfl⟩ := hof
  exact ⟨ops ++ ops', (Machine.run_append _ _ _ _).symm⟩

/-- What came from the sender still does after any of its operations. -/
theorem FromSender.step {h : SenderRun} {m : TCPSenderMessage} (hm : FromSender h m)
    (ht : Tiling h.accepted h.sender h.sent) (op : SenderOp) : FromSender (h.step op) m := by
  rcases hm with hrst | hsent | ⟨k, hk, hm⟩
  · exact .inl hrst
  · refine .inr (.inl ?_)
    cases op with
    | push => exact List.mem_append_left _ hsent
    | write | close | setError | tick | receive => exact hsent
  · refine .inr (.inr ⟨k, hk.trans (h.consumed_le_step op), ?_⟩)
    rw [(SenderRun.step_config ht op).1]
    exact hm

/-- A push hands over resets and segments. -/
theorem fromSender_push {h : SenderRun} {m : TCPSenderMessage} (hm : m ∈ h.sender.push.2) :
    FromSender (h.step .push) m := by
  by_cases hrst : m.RST = true
  · exact .inl hrst
  · refine .inr (.inl (List.mem_append_right _ ?_))
    exact List.mem_filter.mpr ⟨hm, by simpa using hrst⟩

/-- The empty message stands at the position sent. -/
theorem fromSender_empty {h : SenderRun} (ht : Tiling h.accepted h.sender h.sent) :
    FromSender h h.sender.makeEmptyMessage := by
  by_cases herr : h.sender.input.hasError = true
  · exact .inl herr
  · refine .inr (.inr ⟨h.consumed, le_rfl, ?_⟩)
    have hseq : (if h.sender.senderSyn then h.sender.nextSeqno else h.sender.isn)
        = Wrap32.ofPos h.consumed h.sender.isn := by
      have hnext := ht.nextSeqno_eq
      rw [← SenderRun.consumed] at hnext
      split
      · exact hnext
      · rename_i hsyn
        rw [← hnext, ht.nextSeqno_of_not_syn (by simpa using hsyn)]
    rw [TCPSender.makeEmptyMessage, hseq, show h.sender.input.hasError = false by simpa using herr]

/-! ### One operation of the peer -/

variable {input : ByteStream} {isn : Wrap32} {rto : UInt64} {r : PeerRun}

/-- The history of the sender is tiled. -/
theorem Tracked.tiled {capacity : UInt64} (h : Tracked input isn rto r)
    (hnew : ByteStream.new capacity = .ok input) : r.history.Tiled isn rto := by
  obtain ⟨ops, hops⟩ := h.history_of
  rw [hops]
  exact SenderRun.tiled_of hnew isn rto ops

/-- The sender of the peer goes the way its history says. -/
theorem Tracked.sender_step (h : Tracked input isn rto r) (op : PeerOp) :
    (r.step op).history.sender = (r.step op).peer.sender := by
  have heq := h.sender_eq
  -- a message counts as an acknowledgment and a push, when the peer is active
  cases op with
  | write data =>
    show ({ r.history.sender with input := r.history.sender.input.push data } : TCPSender) = _
    rw [heq]
    rfl
  | close =>
    show ({ r.history.sender with input := r.history.sender.input.close } : TCPSender) = _
    rw [heq]
    rfl
  | setOutboundError =>
    show ({ r.history.sender with input := r.history.sender.input.setError } : TCPSender) = _
    rw [heq]
    rfl
  | setInboundError | read len => exact heq
  | push =>
    show r.history.sender.push.1 = r.peer.sender.push.1
    rw [heq]
  | tick ms =>
    show (r.history.sender.tick ms).1 = (r.peer.sender.tick ms).1
    rw [heq]
  | receive msg =>
    show (Machine.run SenderRun.step r.history (PeerOp.senderOps r.peer (.receive msg))).sender
      = (r.peer.receive msg).1.sender
    cases hact : r.peer.active with
    | true =>
      rw [PeerOp.senderOps, hact, if_pos rfl, (TCPPeer.receive_of_active hact msg).1, ← heq]
      rfl
    | false =>
      rw [PeerOp.senderOps, hact, if_neg Bool.false_ne_true, TCPPeer.receive_of_inactive hact]
      exact heq

/-- The clock of the peer goes the way its history says. -/
theorem Tracked.clock_step (h : Tracked input isn rto r) (op : PeerOp) :
    (r.step op).peer.cumulativeTime = UInt64.ofNat (r.step op).elapsed := by
  have heq := h.clock_eq
  cases op with
  | write | close | setOutboundError | setInboundError | read | push => exact heq
  | tick ms =>
    show r.peer.cumulativeTime + ms = UInt64.ofNat (r.history.elapsed + ms.toNat)
    rw [UInt64.ofNat_add, UInt64.ofNat_toNat, heq]
    rfl
  | receive msg =>
    show (r.peer.receive msg).1.cumulativeTime = UInt64.ofNat
      (Machine.run SenderRun.step r.history (PeerOp.senderOps r.peer (.receive msg))).elapsed
    cases hact : r.peer.active with
    | true =>
      rw [PeerOp.senderOps, hact, if_pos rfl, TCPPeer.cumulativeTime_receive]
      exact heq
    | false =>
      rw [PeerOp.senderOps, hact, if_neg Bool.false_ne_true, TCPPeer.receive_of_inactive hact]
      exact heq

/-- The messages of one operation come from the sender, and all segments sent are among them. -/
theorem Tracked.act_transmitted (h : Tracked input isn rto r) {capacity : UInt64}
    (hnew : ByteStream.new capacity = .ok input) (op : PeerOp) :
    (∀ x ∈ (op.act r.peer).2, FromSender (r.step op).history x.sender) ∧
      ∀ m ∈ (r.step op).history.sent, m ∈ r.history.sent ∨
        ∃ x ∈ (op.act r.peer).2, x.sender = m := by
  have htiled := h.tiled hnew
  have heq := h.sender_eq
  -- only a push, the timer and a message to an active peer make it transmit
  cases op with
  | write | close | setOutboundError | setInboundError | read =>
    exact ⟨by simp [PeerOp.act], fun m hm => .inl hm⟩
  | push =>
    show (∀ x : TCPMessage, x ∈ r.peer.sender.push.2.map _ →
        FromSender (r.history.step .push) x.sender) ∧
      ∀ m ∈ r.history.sent ++ r.history.sender.push.2.filter _,
        m ∈ r.history.sent ∨ ∃ x : TCPMessage, x ∈ r.peer.sender.push.2.map _ ∧ x.sender = m
    rw [← heq]
    refine ⟨?_, fun m hm => (List.mem_append.mp hm).imp_right fun hm => ?_⟩
    · intro x hx
      obtain ⟨m, hm, rfl⟩ := List.mem_map.mp hx
      exact fromSender_push hm
    · exact ⟨_, List.mem_map_of_mem (List.mem_filter.mp hm).1, rfl⟩
  | tick ms =>
    refine ⟨?_, fun m hm => .inl hm⟩
    show ∀ x : TCPMessage, x ∈ (r.peer.sender.tick ms).2.map _ →
      FromSender (r.history.step (.tick ms)) x.sender
    rw [← heq]
    intro x hx
    obtain ⟨m, hm, rfl⟩ := List.mem_map.mp hx
    exact .inr (.inl ((htiled.tiling.tick ms).2 hm))
  | receive msg =>
    have hhist : (r.step (.receive msg)).history = Machine.run SenderRun.step r.history
      (PeerOp.senderOps r.peer (.receive msg)) := rfl
    have hsender := h.sender_step (.receive msg)
    rw [hhist] at hsender ⊢
    cases hact : r.peer.active with
    | true =>
      rw [PeerOp.senderOps, hact, if_pos rfl] at hsender ⊢
      obtain ⟨-, -, reply, hreply, hout⟩ := TCPPeer.receive_of_active hact msg
      have ht' := (htiled.step (.receive msg.receiver)).step .push
      rw [PeerOp.act, hout]
      refine ⟨?_, ?_⟩
      · intro x hx
        obtain ⟨m, hm, rfl⟩ := List.mem_map.mp hx
        rcases List.mem_append.mp hm with hm | hm
        · rw [← heq] at hm
          exact fromSender_push (h := r.history.step (.receive msg.receiver)) hm
        · rcases hreply with rfl | rfl
          · cases hm
          · rw [List.mem_singleton.mp hm]
            show FromSender _ (r.step (.receive msg)).peer.sender.makeEmptyMessage
            rw [← hsender]
            exact fromSender_empty ht'.tiling
      · intro m hm
        have hm' : m ∈ r.history.sent
            ++ (r.history.sender.receive msg.receiver).push.2.filter fun m => ¬ m.RST := hm
        refine (List.mem_append.mp hm').imp_right fun hm => ?_
        rw [heq] at hm
        exact ⟨_, List.mem_map_of_mem (List.mem_append_left _ (List.mem_filter.mp hm).1), rfl⟩
    | false =>
      rw [PeerOp.senderOps, hact, if_neg Bool.false_ne_true, PeerOp.act,
        TCPPeer.receive_of_inactive hact]
      exact ⟨by simp, fun m hm => .inl hm⟩

/-- **Step.** -/
theorem Tracked.step (h : Tracked input isn rto r) {capacity : UInt64}
    (hnew : ByteStream.new capacity = .ok input) (op : PeerOp) :
    Tracked input isn rto (r.step op) := by
  obtain ⟨hfrom, hsent⟩ := h.act_transmitted hnew op
  constructor
  case history_of => exact history_concat h.history_of _
  case sender_eq => exact h.sender_step op
  case clock_eq => exact h.clock_step op
  case from_sender =>
    intro x hx
    rcases List.mem_append.mp hx with hx | hx
    · refine (Machine.run_invariant
        (P := fun h : SenderRun => h.Tiled isn rto ∧ FromSender h x.sender)
        (fun h op hboth => ?_) ⟨h.tiled hnew, h.from_sender x hx⟩ (op.senderOps r.peer)).2
      exact ⟨hboth.1.step op, hboth.2.step hboth.1.tiling op⟩
    · exact hfrom x hx
  case transmitted =>
    intro m hm
    rcases hsent m hm with hold | ⟨x, hx, rfl⟩
    · obtain ⟨x, hx, rfl⟩ := h.transmitted m hold
      exact ⟨x, List.mem_append_left _ hx, rfl⟩
    · exact ⟨x, List.mem_append_right _ hx, rfl⟩

/-- A peer fresh from its constructor has no history. -/
theorem tracked_start {cfg : TCPConfig} {peer : TCPPeer} (h : TCPPeer.new cfg = .ok peer) :
    ∃ input, ByteStream.new cfg.sendCapacity = .ok input ∧
      Tracked input cfg.isn cfg.rtTimeout.toUInt64 (start peer) := by
  obtain ⟨input, _, hinput, -, hsender, -, hclock, -⟩ := TCPPeer.new_spec h
  refine ⟨input, hinput, ?_⟩
  constructor
  case history_of =>
    refine ⟨[], ?_⟩
    rw [start, hsender]
    rfl
  case sender_eq => rfl
  case clock_eq => exact hclock
  case from_sender => simp [start]
  case transmitted => simp [start]

end PeerRun

end Minnow
