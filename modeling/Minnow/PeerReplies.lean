import Minnow.PeerLifecycle
import Minnow.SenderReset

namespace Minnow

/-!
# The replies of a peer

A peer owes a reply to every message that occupies a sequence number, and to a "keep-alive".
`needSend` notes the debt, and is paid off by whatever is transmitted next.

* `TCPPeer.receive_transmitted` — what an active peer without debts transmits when a message
  arrives: what its sender pushes and, if that is nothing and a reply is wanted, an empty message;
* `PeerRun.needSend_of` — between operations there are no debts;
* `PeerRun.replies_right` — hence every message that wants a reply gets one, with the
  acknowledgment as of after it, and nothing else is answered by a bare acknowledgment.
-/

open TCPSender SlidingWindow

namespace TCPPeer

/-- The message wants a reply: it occupies a sequence number, or its sequence number is the one
    before the ackno. -/
def WantsReply (p : TCPPeer) (msg : TCPMessage) : Prop :=
  0 < msg.sender.sequenceLength ∨ p.receiver.send.ackno = some (msg.sender.seqno.add 1)

instance (p : TCPPeer) (msg : TCPMessage) : Decidable (p.WantsReply msg) := by
  unfold WantsReply
  infer_instance

@[simp] theorem stopLingering_needSend (p : TCPPeer) : p.stopLingering.needSend = p.needSend := by
  unfold stopLingering
  split <;> rfl

/-- Without older debts, a reply is noted when it is wanted. -/
theorem needSend_accept {p : TCPPeer} (hidle : p.needSend = false) (msg : TCPMessage) :
    (p.accept msg).needSend = decide (p.WantsReply msg) := by
  show (p.needSend || decide (msg.sender.sequenceLength > 0)
    || p.receiver.send.ackno == some (msg.sender.seqno.add 1)) = _
  rw [hidle, Bool.false_or, Bool.eq_iff_iff, decide_eq_true_iff]
  simp [WantsReply]

/-- **What a message makes an active peer transmit**, and that no debt is left. -/
theorem receive_transmitted {p : TCPPeer} (hactive : p.active = true) (hidle : p.needSend = false)
    (msg : TCPMessage) :
    (p.receive msg).1.needSend = false ∧
      (p.receive msg).2 = ((p.sender.receive msg.receiver).push.2 ++
        if p.WantsReply msg ∧ (p.sender.receive msg.receiver).push.2 = []
          then [(p.receive msg).1.sender.makeEmptyMessage] else []).map
        (p.receive msg).1.message := by
  have hpushed : (p.accept msg).push.1.needSend
      = (decide (p.WantsReply msg) && (p.sender.receive msg.receiver).push.2.isEmpty) := by
    rw [← needSend_accept hidle]
    rfl
  unfold receive
  rw [hactive, if_neg (by simp)]
  dsimp only
  by_cases hreply : p.WantsReply msg ∧ (p.sender.receive msg.receiver).push.2 = []
  · -- the debt is still there after the push
    have hdebt : (p.accept msg).push.1.needSend = true := by
      rw [hpushed]
      simp [hreply]
    rw [if_pos hdebt, if_pos hreply, List.map_append, stopLingering_needSend,
      stopLingering_sender, stopLingering_message]
    refine ⟨?_, rfl⟩
    exact Bool.and_false _
  · have hdebt : (p.accept msg).push.1.needSend = false := by
      rw [hpushed]
      simpa using hreply
    rw [if_neg (by rw [hdebt]; exact Bool.false_ne_true), if_neg hreply, List.append_nil,
      List.append_nil, stopLingering_needSend, stopLingering_message]
    exact ⟨hdebt, rfl⟩

end TCPPeer

namespace PeerOp

/-- Whatever an operation transmits pays off the debts, and a message leaves none behind. -/
theorem needSend_act {p : TCPPeer} (hidle : p.needSend = false) (op : PeerOp) :
    (op.act p).1.needSend = false := by
  cases op with
  | write | close | setOutboundError | setInboundError | read => exact hidle
  | push | tick =>
    show (p.needSend && _) = false
    rw [hidle, Bool.false_and]
  | receive msg =>
    cases hactive : p.active with
    | true => exact (TCPPeer.receive_transmitted hactive hidle msg).1
    | false =>
      rw [act, TCPPeer.receive_of_inactive hactive]
      exact hidle

end PeerOp

/-- Without an error, whatever `push` transmits occupies sequence numbers. -/
theorem Tiling.length_push {accepted : Bytes} {s : TCPSender} {sent : List TCPSenderMessage}
    (h : Tiling accepted s sent) (herr : s.input.error = false) :
    ∀ m ∈ s.push.2, 0 < m.sequenceLength := by
  intro m hm
  have hrst : m.RST = false := (h.rst_push m hm).trans herr
  refine (h.push.segment m (List.mem_append_right _ ?_)).1
  exact List.mem_filter.mpr ⟨hm, by simp [hrst]⟩

/-- Only a reset touches the outbound stream. -/
theorem Tiling.input_receive {accepted : Bytes} {s : TCPSender} {sent : List TCPSenderMessage}
    (h : Tiling accepted s sent) {msg : TCPReceiverMessage} (hrst : msg.RST = false) :
    (s.receive msg).input = s.input := by
  have hcase := receive_cases h.length_lt msg
  generalize s.receive msg = s' at hcase
  cases hcase with
  | reset htrue => rw [hrst] at htrue; cases htrue
  | ignored | old | new => rfl

namespace PeerRun

variable {input : ByteStream} {isn : Wrap32} {rto : UInt64} {r : PeerRun}

/-- Between operations no reply is owed. -/
theorem needSend_of {cfg : TCPConfig} {peer : TCPPeer} (h : TCPPeer.new cfg = .ok peer)
    (ops : List PeerOp) : (of peer ops).peer.needSend = false := by
  refine Machine.run_invariant (P := fun r : PeerRun => r.peer.needSend = false)
    (fun r op hidle => op.needSend_act hidle) ?_ ops
  obtain ⟨-, -, -, -, -, -, -, hidle⟩ := TCPPeer.new_spec h
  exact hidle

/-- A peer answers a message as it should. -/
structure AnswersRight (p : TCPPeer) (msg : TCPMessage) : Prop where
  replies : p.WantsReply msg → (p.receive msg).2 ≠ []
  current : ∀ x ∈ (p.receive msg).2, x.receiver = (p.receiver.receive msg.sender).send
  silent : ¬ p.WantsReply msg → ∀ x ∈ (p.receive msg).2, 0 < x.sender.sequenceLength
  needSend_eq : (p.receive msg).1.needSend = false

/-- **Replies.** In every state that a run of a peer reaches, an active peer answers a message as
    it should, unless it is a reset for its sender. -/
theorem replies_right {cfg : TCPConfig} {peer : TCPPeer} (h : TCPPeer.new cfg = .ok peer)
    (ops : List PeerOp) (hactive : (of peer ops).peer.active = true) {msg : TCPMessage}
    (hrst : msg.receiver.RST = false) :
    AnswersRight (of peer ops).peer msg := by
  obtain ⟨input, hnew, hstart⟩ := tracked_start h
  have hidle := needSend_of h ops
  have htracked : Tracked input cfg.isn cfg.rtTimeout.toUInt64 (of peer ops) :=
    Machine.run_invariant (fun _ op ht => ht.step hnew op) hstart ops
  have ht := (htracked.tiling hnew).receive msg.receiver
  generalize of peer ops = r at hactive hidle htracked ht
  have herr : (r.peer.sender.receive msg.receiver).input.error = false := by
    rw [(htracked.tiling hnew).input_receive hrst]
    by_contra hne
    have herrs : r.peer.anyErrors = true :=
      TCPPeer.anyErrors_iff.mpr (.inr (eq_true_of_ne_false hne))
    rw [TCPPeer.active, herrs] at hactive
    cases hactive
  obtain ⟨hneed, hout⟩ := TCPPeer.receive_transmitted hactive hidle msg
  have hreceiver := (TCPPeer.receive_of_active hactive msg).2.1
  constructor
  case replies =>
    intro hwants hnil
    rw [hout, List.map_eq_nil_iff, List.append_eq_nil_iff] at hnil
    -- when the push transmits nothing, an empty message follows
    rw [if_pos ⟨hwants, hnil.1⟩] at hnil
    exact absurd hnil.2 (List.cons_ne_nil _ _)
  case current =>
    intro x hx
    rw [hout] at hx
    obtain ⟨m, -, rfl⟩ := List.mem_map.mp hx
    rw [TCPPeer.message, hreceiver]
  case silent =>
    intro hwants x hx
    rw [hout, if_neg fun hboth => hwants hboth.1, List.append_nil] at hx
    obtain ⟨m, hm, rfl⟩ := List.mem_map.mp hx
    exact ht.length_push herr m hm
  case needSend_eq => exact hneed

/-- A keep-alive on an open connection. -/
theorem replies_right_keepalive :
    ∃ peer, TCPPeer.new briefConfig = .ok peer ∧
      (of peer (briefOps.take 2)).peer.WantsReply { sender := { seqno := ⟨50⟩ } } ∧
      AnswersRight (of peer (briefOps.take 2)).peer { sender := { seqno := ⟨50⟩ } } := by
  have hnew : TCPPeer.new briefConfig = .ok _ := TCPPeer.new_eq_ok (by decide) (by decide)
  exact ⟨_, hnew, by decide, replies_right hnew (briefOps.take 2) (by decide) rfl⟩

end PeerRun

end Minnow
