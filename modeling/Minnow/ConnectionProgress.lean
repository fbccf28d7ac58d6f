import Minnow.ReceiverProgress
import Minnow.ReceiverWindow
import Minnow.PeerReplies
import Minnow.PeerRetries

namespace Minnow

/-!
# A connection goes on

What a step of a connection without errors can only add to, and what makes it add something:

* `Connection.Flowing` — the invariant: beside that of `EndToEnd`, the receivers follow the last
  segments, no stream has an error, and nobody has transmitted a reset;
* `Flowing.reply` — a segment that is needed is answered with an acknowledgment of more;
* `Flowing.acked_lt` — such an answer is accepted;
* `Flowing.expired`, `Flowing.all_sent` — what is outstanding is transmitted again when the timer
  runs out, and with nothing outstanding a push leaves nothing behind;
* `Flowing.delivered` — everything has arrived when all of it is acknowledged.
-/

open TCPSender TCPReceiver SlidingWindow

/-! ### The sender -/

namespace SenderRun

/-- Nothing that is acknowledged is forgotten. -/
theorem acked_le_step (r : SenderRun) (op : SenderOp) : r.acked ≤ (r.step op).acked := by
  cases op with
  | receive msg =>
    show r.acked ≤ r.ackedAfter msg
    unfold ackedAfter
    split
    · exact le_rfl
    split
    · exact le_rfl
    · unfold exactAck
      dsimp only
      split
      · exact Nat.le_add_right _ _
      · exact le_rfl
  | write | close | setError | push | tick => exact le_rfl

/-- Segments are only added. -/
theorem sent_prefix_step (r : SenderRun) (op : SenderOp) : r.sent <+: (r.step op).sent := by
  cases op with
  | push => exact List.prefix_append _ _
  | write | close | setError | tick | receive => exact List.prefix_refl _

/-- What was acknowledged stays so. -/
theorem acked_le_run (r : SenderRun) (ops : List SenderOp) :
    r.acked ≤ (Machine.run step r ops).acked :=
  Machine.run_invariant (P := fun h : SenderRun => r.acked ≤ h.acked)
    (fun h op hle => hle.trans (h.acked_le_step op)) le_rfl ops

/-- What was sent stays sent. -/
theorem sent_prefix_run (r : SenderRun) (ops : List SenderOp) :
    r.sent <+: (Machine.run step r ops).sent :=
  Machine.run_invariant (P := fun h : SenderRun => r.sent <+: h.sent)
    (fun h op hle => hle.trans (h.sent_prefix_step op)) (List.prefix_refl _) ops

/-- The last acknowledgment falls in the oldest outstanding segment. -/
theorem Acking.oldest {isn : Wrap32} {rto : UInt64} {r : SenderRun} (h : r.Acking isn rto)
    {m : TCPSenderMessage} {rest : List TCPSenderMessage}
    (hout : r.sender.outstandingSegments = m :: rest) :
    ∃ l, r.sent = l ++ m :: rest ∧ seqnos l ≤ r.acked ∧
      r.acked < seqnos l + m.sequenceLength := by
  obtain ⟨l, hl⟩ := h.unacknowledged.suffix
  have hbase : r.base = seqnos l := by
    rw [base, consumed, ← hl, seqnos_append, Nat.add_sub_cancel]
  have hlt := h.acked_lt m (by rw [hout]; rfl)
  rw [hout] at hl
  exact ⟨l, hl.symm, hbase ▸ h.base_le, hbase ▸ hlt⟩

/-- When everything is acknowledged, nothing is outstanding. -/
theorem Acking.outstanding_eq_nil {isn : Wrap32} {rto : UInt64} {r : SenderRun}
    (h : r.Acking isn rto) (hall : r.acked = r.consumed) :
    r.sender.outstandingSegments = [] := by
  cases hout : r.sender.outstandingSegments with
  | nil => rfl
  | cons m rest =>
    obtain ⟨l, hsent, -, hlt⟩ := h.oldest hout
    rw [hall, consumed, hsent, seqnos_append, seqnos_cons] at hlt
    omega

end SenderRun

/-- With nothing outstanding, a push transmits something, or nothing is left. -/
theorem Tiling.push_of_idle {accepted : Bytes} {s : TCPSender} {sent : List TCPSenderMessage}
    (h : Tiling accepted s sent) (herr : s.input.error = false)
    (hout : s.outstandingSegments = []) (hnothing : (s.push.2.filter fun m => ¬ m.RST) = []) :
    s.senderSyn = true ∧ s.input.contents = [] ∧ (s.input.eof = true → s.finSent = true) := by
  have hflight := h.inFlight_eq_zero_iff.mpr hout
  have hwindow : 1 ≤ s.effectiveWindow := le_max_right _ _
  obtain ⟨ms, s', heq, hcase⟩ := push_cases h.wf h.nextSeqno_of_not_syn
  rw [heq] at hnothing
  cases hcase with
  | reset htrue =>
    rw [herr] at htrue
    cases htrue
  | syn _ _ hemit =>
    simp [hemit.rst_eq] at hnothing
  | full _ _ hfull => omega
  | segments _ hsyn hemit _ hstop =>
    rw [hemit.filter_eq] at hnothing
    subst hnothing
    rw [seqnos_nil] at hstop
    cases hemit
    exact ⟨hsyn, hstop.resolve_left (by omega)⟩

/-! ### The receiver -/

/-- What an operation of its peer does to a receiver. -/
structure TCPReceiver.GoesOn (r r' : TCPReceiver) : Prop where
  next_le : r.next ≤ r'.next
  eof : r.output.eof = true → r'.output.eof = true
  capacity_eq : r'.output.capacity = r.output.capacity
  /-- More is buffered only when something is written. -/
  buffered_le : r'.output.contents.length + r.next ≤ r.output.contents.length + r'.next

/-- Nothing has happened. -/
theorem TCPReceiver.GoesOn.refl (r : TCPReceiver) : r.GoesOn r := ⟨le_rfl, id, rfl, le_rfl⟩

namespace Direction

variable {h : SenderRun} {b : PeerRun} {m : TCPSenderMessage}

/-- **Any operation of the receiving peer.** -/
theorem goesOn (hd : Direction h.sender.isn h b) (ht : Tiling h.accepted h.sender h.sent)
    (hS : (payloads h.sent).length + 2 < 2 ^ 31) (op : PeerOp)
    (hmsg : ∀ msg, op = .receive msg → PeerRun.FromSender h msg.sender) :
    b.peer.receiver.GoesOn (b.step op).peer.receiver := by
  have hwf : b.peer.receiver.output.WF := hd.assembling.slices.wf.output
  cases op with
  | write | close | setOutboundError | push | tick => exact .refl _
  | setInboundError => exact ⟨le_rfl, id, rfl, le_rfl⟩
  | read len =>
    obtain ⟨-, hcont, hcap, heof, -, hpush, -⟩ := ByteStream.pop_spec hwf len
    have hnext : (b.step (.read len)).peer.receiver.next = b.peer.receiver.next :=
      congrArg UInt64.toNat hpush
    refine ⟨hnext.ge, heof.trans, hcap, ?_⟩
    rw [hnext]
    show (b.peer.receiver.output.pop len).contents.length + _ ≤ _
    rw [hcont, List.length_drop]
    omega
  | receive msg =>
    show b.peer.receiver.GoesOn (b.peer.receive msg).1.receiver
    cases hact : b.peer.active with
    | false =>
      rw [TCPPeer.receive_of_inactive hact]
      exact .refl _
    | true =>
      rw [(TCPPeer.receive_of_active hact msg).2.1]
      obtain ⟨written, hr⟩ := receive_spec hd.assembling hS ((hmsg msg rfl).genuine ht)
      obtain ⟨⟨_, hwritten⟩, -⟩ := receive_writes hwf msg.sender
      have hnext := hr.next_eq
      refine ⟨by omega, hr.eof, hwritten.capacity_eq, ?_⟩
      rw [hr.contents_eq, List.length_append, hnext]
      omega

/-- Only a reset is an error. -/
theorem error_receive (hd : Direction h.sender.isn h b) (ht : Tiling h.accepted h.sender h.sent)
    (hS : (payloads h.sent).length + 2 < 2 ^ 31) (hmsg : PeerRun.FromSender h m)
    (hrst : m.RST = false) :
    (b.peer.receiver.receive m).output.error = b.peer.receiver.output.error := by
  obtain ⟨p, hm⟩ := (hmsg.genuine ht).resolve_left (by simp [hrst])
  by_cases hset : b.peer.receiver.isnSet = true ∨ m.SYN = true
  · obtain ⟨-, f, written, -, he⟩ := receive_extends hd.assembling hS hrst hm hset
    exact he.error_eq
  · rw [not_or, Bool.not_eq_true, Bool.not_eq_true] at hset
    rw [receive_of_deaf hset.1 hrst hset.2]

end Direction

/-- **A run of the sender** that accepts a bounded number of bytes. -/
theorem Following.run {isn : Wrap32} {rto : UInt64} {h : SenderRun} {b : PeerRun}
    (ops : List SenderOp) (hf : Following h b.peer.receiver) (hd : Direction isn h b)
    (ht : h.Tiled isn rto)
    (hbound : (Machine.run SenderRun.step h ops).accepted.length < 2 ^ 31 - 2)
    (hmsg : ∀ msg, .receive msg ∈ ops → Acknowledges isn b.peer.receiver msg) :
    Following (Machine.run SenderRun.step h ops) b.peer.receiver := by
  induction ops generalizing h with
  | nil => exact hf
  | cons op ops ih =>
    have hconsumed : h.consumed < 2 ^ 32 := by
      have hle := h.accepted_le_run (op :: ops)
      have hpay := ht.tiling.length_sent_le
      have hseq := ht.tiling.seqnos_le
      rw [SenderRun.consumed]
      omega
    have hfirst : ∀ msg, op = .receive msg → Acknowledges isn b.peer.receiver msg := by
      rintro msg rfl
      exact hmsg msg List.mem_cons_self
    exact ih (hf.senderOp ht.tiling hd.assembling op hfirst)
      (hd.senderOp ht.tiling ht.isn_eq hconsumed op hfirst) (ht.step op) hbound
      fun msg hmem => hmsg msg (List.mem_cons_of_mem op hmem)

/-- **Any operation of the receiving peer.** -/
theorem Following.receiverOp {h : SenderRun} {b : PeerRun} (hf : Following h b.peer.receiver)
    (hd : Direction h.sender.isn h b) (ht : Tiling h.accepted h.sender h.sent)
    (hS : (payloads h.sent).length + 2 < 2 ^ 31) (op : PeerOp)
    (hmsg : ∀ msg, op = .receive msg → PeerRun.FromSender h msg.sender) :
    Following h (b.step op).peer.receiver := by
  cases op with
  | write | close | setOutboundError | push | tick => exact hf
  | setInboundError => exact hf.of_same rfl rfl rfl rfl rfl
  | read len =>
    obtain ⟨-, -, -, heof, -, hpush, -⟩ :=
      ByteStream.pop_spec hd.assembling.slices.wf.output len
    exact hf.of_same rfl (congrArg UInt64.toNat hpush) rfl rfl heof
  | receive msg =>
    show Following h (b.peer.receive msg).1.receiver
    cases hact : b.peer.active with
    | false =>
      rw [TCPPeer.receive_of_inactive hact]
      exact hf
    | true =>
      rw [(TCPPeer.receive_of_active hact msg).2.1]
      exact hf.receive ht hd.assembling hS (hmsg msg rfl)

/-! ### Without errors -/

/-- The owner of the peer reports no error. -/
def PeerOp.Orderly : PeerOp → Prop
  | .setOutboundError | .setInboundError => False
  | _ => True

/-- Neither half of the message is a reset. -/
def TCPMessage.Plain (x : TCPMessage) : Prop := x.sender.RST = false ∧ x.receiver.RST = false

/-- Neither stream has an error. -/
theorem TCPPeer.anyErrors_eq_false {p : TCPPeer} :
    p.anyErrors = false ↔ p.inbound.error = false ∧ p.outbound.error = false := by
  rw [anyErrors, Bool.or_eq_false_iff]
  rfl

namespace PeerRun

variable {capacity : UInt64} {input : ByteStream} {isn : Wrap32} {rto : UInt64} {r : PeerRun}

/-- A peer that has seen no error, and owes no reply. -/
structure Intact (r : PeerRun) : Prop where
  errors : r.peer.anyErrors = false
  plain : ∀ x ∈ r.transmitted, x.Plain
  needSend_eq : r.peer.needSend = false

/-- What a peer without errors transmits with a message of its sender. -/
theorem plain_message {p : TCPPeer} (herr : p.inbound.error = false) {m : TCPSenderMessage}
    (hm : m.RST = false) : (p.message m).Plain := ⟨hm, herr⟩

/-- **Step.** -/
theorem Intact.step (h : r.Intact) (ht : Tracked input isn rto r)
    (hnew : ByteStream.new capacity = .ok input) {op : PeerOp} (hop : op.Orderly)
    (hmsg : ∀ msg, op = .receive msg → msg.Plain ∧
      (r.peer.receiver.receive msg.sender).output.error = r.peer.receiver.output.error) :
    (r.step op).Intact := by
  have htiling := ht.tiling hnew
  obtain ⟨hin, hout⟩ := TCPPeer.anyErrors_eq_false.mp h.errors
  suffices hsuff : (op.act r.peer).1.anyErrors = false ∧ ∀ x ∈ (op.act r.peer).2, x.Plain by
    refine ⟨hsuff.1, fun x hx => ?_, PeerOp.needSend_act h.needSend_eq op⟩
    exact (List.mem_append.mp hx).elim (h.plain x) (hsuff.2 x)
  rw [TCPPeer.anyErrors_eq_false]
  cases op with
  | setOutboundError | setInboundError => exact hop.elim
  | write data =>
    obtain ⟨-, -, -, -, herr, -⟩ := ByteStream.push_spec htiling.wf data
    exact ⟨⟨hin, herr.trans hout⟩, fun x hx => absurd hx List.not_mem_nil⟩
  | close => exact ⟨⟨hin, hout⟩, fun x hx => absurd hx List.not_mem_nil⟩
  | read len =>
    refine ⟨⟨(ByteStream.error_pop _ len).trans hin, hout⟩, ?_⟩
    exact fun x hx => absurd hx List.not_mem_nil
  | push =>
    refine ⟨⟨hin, htiling.error_push.trans hout⟩, fun x hx => ?_⟩
    obtain ⟨m, hm, rfl⟩ := List.mem_map.mp hx
    exact plain_message hin ((htiling.rst_push m hm).trans hout)
  | tick ms =>
    refine ⟨⟨hin, ?_⟩, fun x hx => ?_⟩
    · show (r.peer.sender.tick ms).1.input.error = false
      rw [SenderRun.input_tick]
      exact hout
    · obtain ⟨m, hm, rfl⟩ := List.mem_map.mp hx
      exact plain_message hin (htiling.segment m ((htiling.tick ms).2 hm)).2.2
  | receive msg =>
    obtain ⟨⟨-, hrst⟩, herr⟩ := hmsg msg rfl
    show ((r.peer.receive msg).1.inbound.error = false ∧
      (r.peer.receive msg).1.outbound.error = false) ∧ ∀ x ∈ (r.peer.receive msg).2, x.Plain
    cases hact : r.peer.active with
    | false =>
      rw [TCPPeer.receive_of_inactive hact]
      exact ⟨⟨hin, hout⟩, fun x hx => absurd hx List.not_mem_nil⟩
    | true =>
      obtain ⟨hsender, hreceiver, reply, hreply, htransmitted⟩ :=
        TCPPeer.receive_of_active hact msg
      have hreceived := htiling.receive msg.receiver
      have hinput := htiling.input_receive hrst
      have hin' : (r.peer.receive msg).1.inbound.error = false := by
        rw [TCPPeer.inbound, hreceiver, herr]
        exact hin
      have hout' : (r.peer.receive msg).1.outbound.error = false := by
        rw [TCPPeer.outbound, hsender, hreceived.error_push, hinput]
        exact hout
      refine ⟨⟨hin', hout'⟩, fun x hx => ?_⟩
      rw [htransmitted] at hx
      obtain ⟨m, hm, rfl⟩ := List.mem_map.mp hx
      refine plain_message hin' ?_
      rcases List.mem_append.mp hm with hpushed | hempty
      · rw [hreceived.rst_push m hpushed, hinput]
        exact hout
      · rcases hreply with rfl | rfl
        · cases hempty
        · rw [List.mem_singleton.mp hempty]
          exact hout'

/-- A new peer has no error. -/
theorem intact_start {cfg : TCPConfig} {peer : TCPPeer} (h : TCPPeer.new cfg = .ok peer) :
    (start peer).Intact := by
  obtain ⟨outbound, inbound, hout, hin, hsender, hreceiver, -, hidle⟩ := TCPPeer.new_spec h
  refine ⟨TCPPeer.anyErrors_eq_false.mpr ⟨?_, ?_⟩, fun x hx => absurd hx List.not_mem_nil, hidle⟩
  · show peer.receiver.output.error = false
    rw [hreceiver]
    exact (ByteStream.new_spec hin).2.2.2.2.1
  · show peer.sender.input.error = false
    rw [hsender]
    exact (ByteStream.new_spec hout).2.2.2.2.1

/-- A peer that is inactive without an error has come to the end of its inbound stream. -/
theorem Intact.active (h : r.Intact) (hopen : r.peer.inbound.eof = false) :
    r.peer.active = true := by
  simp [TCPPeer.active, h.errors, TCPPeer.receiverActive, ByteStream.isClosed, hopen]

/-- **The answer** to a message that occupies a sequence number. -/
theorem Intact.replies (h : r.Intact) (hopen : r.peer.inbound.eof = false) {msg : TCPMessage}
    (hlen : 0 < msg.sender.sequenceLength) : ∃ y ∈ (r.peer.receive msg).2,
      y.receiver = (r.peer.receiver.receive msg.sender).send := by
  have hact := h.active hopen
  obtain ⟨-, hout⟩ := TCPPeer.receive_transmitted hact h.needSend_eq msg
  have hreceiver := (TCPPeer.receive_of_active hact msg).2.1
  have hne : (r.peer.receive msg).2 ≠ [] := by
    intro hnil
    rw [hout, List.map_eq_nil_iff, List.append_eq_nil_iff] at hnil
    rw [if_pos ⟨.inl hlen, hnil.1⟩] at hnil
    exact absurd hnil.2 (List.cons_ne_nil _ _)
  obtain ⟨y, hy⟩ := List.exists_mem_of_ne_nil _ hne
  refine ⟨y, hy, ?_⟩
  rw [hout] at hy
  obtain ⟨m, -, rfl⟩ := List.mem_map.mp hy
  rw [TCPPeer.message, hreceiver]

end PeerRun

/-! ### Both directions -/

namespace Connection

variable {cfg : Side → TCPConfig} {input : Side → ByteStream} {c : Connection} {s t : Side}

/-- **The invariant.** -/
structure Flowing (cfg : Side → TCPConfig) (input : Side → ByteStream) (c : Connection) : Prop
    extends Connected cfg input c where
  following : ∀ s, Following (c s).history (c s.other).peer.receiver
  intact : ∀ s, (c s).Intact
  capacity_eq : ∀ s, (c s).peer.inbound.capacity = (cfg s).recvCapacity

/-- The sequence numbers of a bounded stream are in the first half cycle. -/
theorem Connected.length_sent (h : Connected cfg input c)
    (hnew : ∀ s, ByteStream.new (cfg s).sendCapacity = .ok (input s)) (hbound : Bounded c)
    (s : Side) : (payloads (c s).history.sent).length + 2 < 2 ^ 31 := by
  have hlt := hbound s
  have hpay := ((h.tracked s).tiled (hnew s)).tiling.length_sent_le
  rw [accepted] at hlt
  omega

/-- Sequence numbers that were sent do not wrap below the bound. -/
theorem Connected.consumed_lt (h : Connected cfg input c)
    (hnew : ∀ s, ByteStream.new (cfg s).sendCapacity = .ok (input s)) (hbound : Bounded c)
    (s : Side) : (c s).history.consumed < 2 ^ 31 := by
  have hlt := h.length_sent hnew hbound s
  have hseq := ((h.tracked s).tiled (hnew s)).tiling.seqnos_le
  rw [SenderRun.consumed]
  omega

/-- Below the bound acknowledgments are taken for what they are. -/
theorem Connected.acking (h : Connected cfg input c)
    (hnew : ∀ s, ByteStream.new (cfg s).sendCapacity = .ok (input s)) (hbound : Bounded c)
    (s : Side) : (c s).history.Acking (cfg s).isn (cfg s).rtTimeout.toUInt64 := by
  have hlt := h.consumed_lt hnew hbound s
  obtain ⟨ops, hops⟩ := (h.tracked s).history_of
  rw [hops] at hlt ⊢
  exact SenderRun.acking_of_lt (hnew s) (by omega)

/-- The direction, as seen from the sender's own ISN. -/
theorem Connected.direction_isn (h : Connected cfg input c)
    (hnew : ∀ s, ByteStream.new (cfg s).sendCapacity = .ok (input s)) (s : Side) :
    Direction (c s).history.sender.isn (c s).history (c s.other) :=
  ((h.tracked s).tiled (hnew s)).isn_eq.symm ▸ h.direction s

/-- What the network delivers to a peer comes from the sender of the other one. -/
theorem Connected.from_sender (h : Connected cfg input c) {op : PeerOp}
    (hunforged : c.Unforged (t, op)) :
    ∀ msg, op = .receive msg → PeerRun.FromSender (c t.other).history msg.sender :=
  fun msg hop => (h.tracked t.other).from_sender msg (hunforged msg hop)

/-- What a step of a peer does to its receiver. -/
theorem Connected.goesOn (h : Connected cfg input c)
    (hnew : ∀ s, ByteStream.new (cfg s).sendCapacity = .ok (input s)) (hbound : Bounded c)
    {op : PeerOp} (hunforged : c.Unforged (t, op)) :
    (c t).peer.receiver.GoesOn ((c t).step op).peer.receiver := by
  have hd := h.direction_isn hnew t.other
  rw [Side.other_other] at hd
  exact hd.goesOn ((h.tracked t.other).tiled (hnew t.other)).tiling
    (h.length_sent hnew hbound t.other) op (h.from_sender hunforged)

/-- **Step.** -/
theorem Flowing.step (h : Flowing cfg input c)
    (hnew : ∀ s, ByteStream.new (cfg s).sendCapacity = .ok (input s)) {op : Side × PeerOp}
    (hop : op.2.Orderly) (hunforged : c.Unforged op) (hbound : Bounded (c.step op)) :
    Flowing cfg input (c.step op) := by
  have hbefore := bounded_of_step hbound
  have hconnected := h.toConnected.step hnew op hunforged hbound
  obtain ⟨t, op⟩ := op
  have hd := h.direction_isn hnew t.other
  rw [Side.other_other] at hd
  have ht := ((h.tracked t.other).tiled (hnew t.other)).tiling
  have hS := h.length_sent hnew hbefore t.other
  have hfrom := h.from_sender hunforged
  refine ⟨hconnected, fun s => ?_, fun s => ?_, fun s => ?_⟩
  · rcases eq_or_ne s t with rfl | hne
    · -- the sender of the peer
      have hlt := hbound s
      rw [accepted, step_self] at hlt
      rw [step_self, step_of_ne s.other_ne]
      refine (h.following s).run _ (h.direction s) ((h.tracked s).tiled (hnew s)) hlt
        fun msg hmem => ?_
      obtain ⟨full, rfl, rfl⟩ := PeerOp.mem_senderOps hmem
      exact (h.direction s).acknos full (hunforged full rfl)
    · -- its receiver
      obtain rfl : s = t.other := by
        cases s <;> cases t <;> first | rfl | exact absurd rfl hne
      have hf := h.following t.other
      rw [Side.other_other] at hf
      rw [step_of_ne hne, Side.other_other, step_self]
      exact hf.receiverOp hd ht hS op hfrom
  · rcases eq_or_ne s t with rfl | hne
    · rw [step_self]
      refine (h.intact s).step (h.tracked s) (hnew s) hop fun msg hmsg => ?_
      have hplain := (h.intact s.other).plain msg (hunforged msg hmsg)
      exact ⟨hplain, hd.error_receive ht hS (hfrom msg hmsg) hplain.1⟩
    · rw [step_of_ne hne]
      exact h.intact s
  · rcases eq_or_ne s t with rfl | hne
    · rw [step_self]
      exact (h.goesOn hnew hbefore hunforged).capacity_eq.trans (h.capacity_eq s)
    · rw [step_of_ne hne]
      exact h.capacity_eq s

/-- New peers can go on. -/
theorem flowing_start {peer : Side → TCPPeer} (h : ∀ s, TCPPeer.new (cfg s) = .ok (peer s)) :
    ∃ input : Side → ByteStream, (∀ s, ByteStream.new (cfg s).sendCapacity = .ok (input s)) ∧
      Flowing cfg input (start peer) := by
  obtain ⟨input, hnew, hconnected⟩ := connected_start h
  refine ⟨input, hnew, hconnected, fun s => ?_, fun s => PeerRun.intact_start (h s), fun s => ?_⟩
  · exact ⟨fun _ => rfl, fun m hm => absurd hm List.not_mem_nil,
      fun m hm => absurd hm List.not_mem_nil⟩
  · obtain ⟨_, inbound, -, hin, -, hreceiver, -⟩ := TCPPeer.new_spec (h s)
    show (peer s).receiver.output.capacity = _
    rw [hreceiver]
    exact (ByteStream.new_spec hin).2.2.1

/-! ### What makes a connection go on -/

/-- A segment that the last acknowledgment of its sender falls in. -/
def Needed (r : PeerRun) (m : TCPSenderMessage) : Prop :=
  ∃ l l', r.history.sent = l ++ m :: l' ∧ seqnos l ≤ r.history.acked ∧
    r.history.acked < seqnos l + m.sequenceLength

/-- All of one stream has arrived, its end included. -/
structure Delivered (a b : PeerRun) : Prop where
  assembled_eq : b.assembled = a.history.accepted
  closed : a.peer.outbound.isClosed = true → b.peer.inbound.isClosed = true

section

variable (h : Flowing cfg input c)
  (hnew : ∀ s, ByteStream.new (cfg s).sendCapacity = .ok (input s)) (hbound : Bounded c)
include h hnew hbound

/-- What is not acknowledged is outstanding. -/
theorem Flowing.outstanding_ne_nil (hmore : (c s).history.acked < (c s).history.consumed) :
    (c s).peer.sender.outstandingSegments ≠ [] := by
  intro hnil
  rw [← (h.tracked s).sender_eq] at hnil
  have hall := (h.acking hnew hbound s).unacknowledged.acked_eq hnil
  rw [SenderRun.consumed] at hmore
  omega

/-- **Transmitting again.**  When the timer runs out, a segment that is needed is transmitted. -/
theorem Flowing.expired (hmore : (c s).history.acked < (c s).history.consumed) {ms : UInt64}
    (hexp : (c s).peer.sender.currentRTO ≤ (c s).peer.sender.timerElapsed + ms) :
    ∃ x ∈ ((c s).peer.tick ms).2, Needed (c s) x.sender := by
  have hacking := h.acking hnew hbound s
  have hne := h.outstanding_ne_nil hnew hbound hmore
  have hrun : (c s).peer.sender.timerRunning = true := by
    rw [← (h.tracked s).sender_eq] at hne ⊢
    exact hacking.unacknowledged.timerRunning_iff.mpr hne
  obtain ⟨out, s', heq, hcase⟩ := tick_cases (c s).peer.sender ms
  cases hcase with
  | waiting hwait =>
    rcases hwait hrun with hlt | hnil
    · exact absurd hexp (UInt64.not_le.mpr hlt)
    · exact absurd hnil hne
  | @expired seg rest _ _ hout =>
    have hmem : seg ∈ ((c s).peer.sender.tick ms).2 := by
      rw [heq]
      exact List.mem_cons_self
    rw [← (h.tracked s).sender_eq] at hout
    obtain ⟨l, hsent, hlo, hhi⟩ := hacking.oldest hout
    exact ⟨_, List.mem_map_of_mem hmem, l, rest, hsent, hlo, hhi⟩

/-- **Answering.**  A segment that is needed takes the other peer further, and it says so. -/
theorem Flowing.reply {msg : TCPMessage} (hneeded : Needed (c s) msg.sender)
    (hopen : (c s.other).peer.inbound.eof = false)
    (hroom : 0 < (cfg s.other).recvCapacity.toNat)
    (hempty : (c s.other).peer.inbound.contents = []) :
    (c s).history.acked < ((c s.other).peer.receiver.receive msg.sender).ackPos ∧
      ∃ y ∈ ((c s.other).peer.receive msg).2, y.receiver.ackno = some
        (Wrap32.ofPos ((c s.other).peer.receiver.receive msg.sender).ackPos (cfg s).isn) := by
  have htiled := (h.tracked s).tiled (hnew s)
  have hd := h.direction_isn hnew s
  have hS := h.length_sent hnew hbound s
  obtain ⟨l, l', hsent, hlo, hhi⟩ := hneeded
  have hm : msg.sender ∈ (c s).history.sent := hsent ▸ List.mem_append_right l List.mem_cons_self
  have havailable : 0 < (c s.other).peer.receiver.output.availableCapacity.toNat := by
    have hlength := ByteStream.length_contents hd.assembling.slices.wf.output
    rw [← h.capacity_eq s.other] at hroom
    have hnone : (c s.other).peer.receiver.reassembler.output.contents = [] := hempty
    rw [hnone, List.length_nil, zero_add] at hlength
    exact hlength ▸ hroom
  obtain ⟨hset, hlt⟩ :=
    hd.advances (h.following s) htiled.tiling hS hsent hlo hhi havailable
  have hpos : 0 < msg.sender.sequenceLength := (htiled.tiling.segment _ hm).1
  obtain ⟨y, hy, hsend⟩ := (h.intact s.other).replies hopen hpos
  obtain ⟨_, hr⟩ := receive_spec hd.assembling hS
    ((PeerRun.FromSender.genuine (.inr (.inl hm)) htiled.tiling))
  refine ⟨hlt, y, hy, ?_⟩
  rw [hsend, ackno_send, if_pos hset, hr.assembling.isn_eq hset, htiled.isn_eq]

/-- **Accepting the answer.** -/
theorem Flowing.acked_lt {msg : TCPMessage} (hmem : msg ∈ (c s.other).transmitted) {A : ℕ}
    (hack : msg.receiver.ackno = some (Wrap32.ofPos A (cfg s).isn))
    (hlt : (c s).history.acked < A) (hle : A ≤ (c s).history.consumed) :
    (c s).history.acked < ((c s).step (.receive msg)).history.acked := by
  have htiled := (h.tracked s).tiled (hnew s)
  have hconsumed := h.consumed_lt hnew hbound s
  have hactive := (h.tracked s).active_of_outstanding (hnew s) (h.intact s).errors
    (h.outstanding_ne_nil hnew hbound (hlt.trans_le hle))
  have hrst : msg.receiver.RST = false := ((h.intact s.other).plain msg hmem).2
  rw [← htiled.isn_eq] at hack
  have hexact : SenderRun.exactAck (c s).history.sender.isn (c s).history.acked
      (c s).history.consumed (Wrap32.ofPos A (c s).history.sender.isn) = some A :=
    (SenderRun.exactAck_eq_some (by omega)).mpr ⟨hlt.le, hle, rfl⟩
  have hafter : (c s).history.ackedAfter msg.receiver = A := by
    simp [SenderRun.ackedAfter, hrst, hack, hexact]
  have hhistory : ((c s).step (.receive msg)).history
      = ((c s).history.step (.receive msg.receiver)).step .push := by
    show Machine.run SenderRun.step (c s).history (PeerOp.senderOps (c s).peer (.receive msg)) = _
    rw [PeerOp.senderOps, if_pos hactive]
    rfl
  rw [hhistory]
  show (c s).history.acked < (c s).history.ackedAfter msg.receiver
  rw [hafter]
  exact hlt

/-- **Nothing more to send.**  Everything is acknowledged, and a push transmits nothing. -/
theorem Flowing.all_sent (hall : (c s).history.acked = (c s).history.consumed)
    (hnothing : ((c s).step .push).history.consumed = (c s).history.consumed) :
    (c s).history.consumed
      = (c s).history.accepted.length + 1 + (c s).peer.outbound.eof.toNat := by
  have ht := ((h.tracked s).tiled (hnew s)).tiling
  have hsender := (h.tracked s).sender_eq
  have hout := (h.acking hnew hbound s).outstanding_eq_nil hall
  have herr : (c s).history.sender.input.error = false := by
    rw [hsender]
    exact (TCPPeer.anyErrors_eq_false.mp (h.intact s).errors).2
  have hnone : ((c s).history.sender.push.2.filter fun m => ¬ m.RST) = [] := by
    have hsum : seqnos ((c s).history.sent ++ (c s).history.sender.push.2.filter fun m => ¬ m.RST)
        = seqnos (c s).history.sent := hnothing
    rw [seqnos_append, Nat.add_eq_left] at hsum
    refine (total_eq_zero _ fun m hm => ?_).mp hsum
    exact (ht.push.segment m (List.mem_append_right _ hm)).1
  obtain ⟨hsyn, hcontents, hfin⟩ := ht.push_of_idle herr hout hnone
  have hclosed : (c s).history.sender.finSent = (c s).peer.outbound.eof := by
    rw [Bool.eq_iff_iff, TCPPeer.outbound, ← hsender]
    exact ⟨fun hsent => (ht.finSent_closed hsent).1, hfin⟩
  rw [SenderRun.consumed, ht.seqnos_eq, hsyn, hclosed, Bool.toNat_true, ht.accepted_eq, hcontents,
    List.append_nil]
  omega

/-- **Everything has arrived** when all of it is acknowledged, or the inbound stream is closed. -/
theorem Flowing.delivered (hall : (c s.other).peer.inbound.eof = true ∨
    (c s).history.accepted.length + 1 + (c s).peer.outbound.eof.toNat
      ≤ (c s.other).peer.receiver.ackPos) : Delivered (c s) (c s.other) := by
  have hdelivers := h.delivers hnew hbound s
  cases hclosed : (c s.other).peer.inbound.eof with
  | true => exact ⟨(hdelivers.closed hclosed).2, fun _ => hclosed⟩
  | false =>
    have hall := hall.resolve_left (by simp [hclosed])
    have hlength : (c s.other).assembled.length = (c s.other).peer.receiver.next :=
      hdelivers.assembled_length
    have hle := hdelivers.assembled_prefix.length_le
    have heof : (c s.other).peer.receiver.output.eof = false := hclosed
    rw [ackPos, heof, Bool.toNat_false] at hall
    refine ⟨hdelivers.assembled_prefix.eq_of_length (by omega), fun hend => ?_⟩
    have hend' : (c s).peer.outbound.eof = true := hend
    rw [hend', Bool.toNat_true] at hall
    omega

end

end Connection

end Minnow
