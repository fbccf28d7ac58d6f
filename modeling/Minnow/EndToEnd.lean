import Minnow.PeerRun
import Minnow.SenderAck

namespace Minnow

/-!
# A connection from end to end

Two peers exchange messages over a network that loses, duplicates, delays and reorders them at
will, but neither alters nor forges any: a peer receives only messages that the other one has
transmitted at some time before.

`Direction` is what holds between the sender of one peer and the receiver of the other, for any
history of the two:

* the receiver assembles the stream of payloads sent, and knows its end only after a FIN;
* the positions acknowledged by any message on its way are at most those assembled.

`end_to_end_safety` — the bytes assembled are a prefix of those accepted, the inbound stream is
closed only at the end of the outbound one, and what is not assembled yet is still held.
-/

open TCPSender TCPReceiver SlidingWindow

/-! ### The segments sent as a stream -/

/-- Each byte has a sequence number. -/
theorem length_payloads_le (l : List TCPSenderMessage) : (payloads l).length ≤ seqnos l := by
  induction l with
  | nil => simp
  | cons m l ih =>
    rw [payloads_cons, List.length_append, seqnos_cons, TCPSenderMessage.sequenceLength]
    omega

/-- Whether a FIN was sent. -/
def finIn (sent : List TCPSenderMessage) : Bool := sent.any (·.FIN)

namespace Tiling

variable {accepted : Bytes} {s : TCPSender} {sent : List TCPSenderMessage}

/-- The FIN is among the segments sent when the sender says so. -/
theorem finIn_eq (h : Tiling accepted s sent) : finIn sent = s.finSent := by
  rw [Bool.eq_iff_iff, h.finSent_iff, finIn, List.any_eq_true]

/-- No more bytes are sent than were accepted. -/
theorem length_sent_le (h : Tiling accepted s sent) :
    (payloads sent).length ≤ accepted.length := by
  rw [h.accepted_eq, List.length_append]
  exact Nat.le_add_right _ _

/-- Besides the bytes there are at most the SYN and the FIN. -/
theorem seqnos_le (h : Tiling accepted s sent) : seqnos sent ≤ (payloads sent).length + 2 := by
  have := h.seqnos_eq
  have := s.senderSyn.toNat_le
  have := s.finSent.toNat_le
  omega

/-- The sequence numbers before a segment: those of the payloads, and of the SYN. -/
theorem seqnos_before (h : Tiling accepted s sent) {l l' : List TCPSenderMessage}
    {m : TCPSenderMessage} (hsent : sent = l ++ m :: l') :
    (payloads l).length = seqnos l - 1 ∧ (seqnos l = 0 → l = []) := by
  have hpos : ∀ x ∈ l, 0 < x.sequenceLength :=
    fun x hx => (h.segment x (by rw [hsent]; exact List.mem_append_left _ hx)).1
  refine ⟨?_, (total_eq_zero _ hpos).mp⟩
  clear hpos
  suffices hplus : l ≠ [] → seqnos l = (payloads l).length + 1 by
    rcases eq_or_ne l [] with rfl | hne
    · simp
    · rw [hplus hne, Nat.add_sub_cancel]
  -- the SYN takes one number, and it is in the first segment only; only the last has a FIN
  induction l using List.reverseRecOn generalizing m l' with
  | nil => exact fun hne => absurd rfl hne
  | append_singleton l x ih =>
    intro _
    rw [List.append_assoc, List.singleton_append] at hsent
    have hsyn := h.syn_iff l x (m :: l') hsent
    have hfin : x.FIN = false := by
      by_contra hne
      cases h.fin_last l x (m :: l') hsent (by simpa using hne)
    rw [seqnos_append, seqnos_singleton, payloads_append, List.length_append,
      TCPSenderMessage.sequenceLength, hfin, payloads_cons, payloads_nil, List.append_nil]
    rcases eq_or_ne l [] with rfl | hne
    · rw [hsyn.mpr rfl, seqnos_nil]
      simp
      omega
    · have hnot : x.SYN = false := by
        by_contra htrue
        exact hne (hsyn.mp (by simpa using htrue))
      rw [ih hsent hne, hnot, Bool.toNat_false]
      omega

/-- A first part of the segments takes one sequence number, the SYN's, beyond its payloads. -/
theorem length_payloads_lt (h : Tiling accepted s sent) {l l' : List TCPSenderMessage}
    (hsent : l ++ l' = sent) (hne : l ≠ []) : (payloads l).length < seqnos l := by
  cases l with
  | nil => exact absurd rfl hne
  | cons x t =>
    have hsyn : x.SYN = true := (h.syn_iff [] x (t ++ l') hsent.symm).mpr rfl
    have ht := length_payloads_le t
    rw [payloads_cons, List.length_append, seqnos_cons, TCPSenderMessage.sequenceLength, hsyn,
      Bool.toNat_true]
    omega

/-- A segment sent is a genuine message of the stream of payloads. -/
theorem genuine (h : Tiling accepted s sent) {m : TCPSenderMessage} (hm : m ∈ sent) :
    ∃ p, Genuine s.isn (payloads sent) (finIn sent) m p := by
  obtain ⟨l, l', hsent⟩ := List.append_of_mem hm
  obtain ⟨hlen, hzero⟩ := h.seqnos_before hsent
  have hS : payloads sent = payloads l ++ (m.payload ++ payloads l') := by
    rw [hsent, payloads_append, payloads_cons]
  refine ⟨seqnos l, ?_⟩
  constructor
  case seqno_eq =>
    have htiles := h.tiles
    rw [hsent, tiles_append, zero_add] at htiles
    exact htiles.2.1
  case pos_le =>
    have hle : seqnos l ≤ seqnos sent := by
      rw [hsent, seqnos_append]
      exact Nat.le_add_right _ _
    exact hle.trans h.seqnos_le
  case syn =>
    intro hsyn
    rw [(h.syn_iff l m l' hsent).mp hsyn, seqnos_nil]
  case empty =>
    intro hpos hsyn
    rw [(h.syn_iff l m l' hsent).mpr (hzero hpos)] at hsyn
    cases hsyn
  -- its bytes stand in the stream behind those of the segments before it
  case slice =>
    rintro i b ⟨hstart, hb⟩
    dsimp only at hstart hb
    obtain ⟨hlt, -⟩ := List.getElem?_eq_some_iff.mp hb
    rw [← hlen] at hstart hb hlt
    rw [hS, List.getElem?_append_right hstart, List.getElem?_append_left hlt, hb]
  -- nothing comes behind the segment with the FIN
  case fin =>
    intro hfin
    refine ⟨List.any_eq_true.mpr ⟨m, hm, hfin⟩, ?_⟩
    rw [hS, h.fin_last l m l' hsent hfin, ← hlen]
    simp

end Tiling

/-- What comes from the sender is a reset or a genuine message. -/
theorem PeerRun.FromSender.genuine {h : SenderRun} {m : TCPSenderMessage}
    (hm : PeerRun.FromSender h m) (ht : Tiling h.accepted h.sender h.sent) :
    m.RST = true ∨ ∃ p, Genuine h.sender.isn (payloads h.sent) (finIn h.sent) m p := by
  rcases hm with hrst | hsent | ⟨k, hk, rfl⟩
  · exact .inl hrst
  · exact .inr (ht.genuine hsent)
  · exact .inr ⟨k, .of_empty rfl (hk.trans ht.seqnos_le)⟩

/-! ### One direction of the connection -/

/-- The message acknowledges no more than the receiver has assembled. -/
def Acknowledges (isn : Wrap32) (r : TCPReceiver) (msg : TCPReceiverMessage) : Prop :=
  ∀ w ∈ msg.ackno, r.isnSet = true ∧ ∃ p ≤ r.ackPos, w = Wrap32.ofPos p isn

/-- What holds between the sender of one peer, with its history `h`, and the other peer. -/
structure Direction (isn : Wrap32) (h : SenderRun) (b : PeerRun) : Prop where
  assembling : Assembling isn (payloads h.sent) (finIn h.sent) b.peer.receiver
  assembled_eq : b.assembled = (payloads h.sent).take b.peer.receiver.next
  synced : b.peer.receiver.isnSet = true → h.sent ≠ []
  acknos : ∀ x ∈ b.transmitted, Acknowledges isn b.peer.receiver x.receiver
  acked_le : h.acked ≤ b.peer.receiver.ackPos

namespace Direction

variable {isn : Wrap32} {h h' : SenderRun} {b : PeerRun}

/-- The receiver acknowledges no more than was sent. -/
theorem ackPos_le (hd : Direction isn h b) (ht : Tiling h.accepted h.sender h.sent)
    (hset : b.peer.receiver.isnSet = true) : b.peer.receiver.ackPos ≤ h.consumed := by
  have hsyn : h.sender.senderSyn = true := ht.senderSyn_iff.mpr (hd.synced hset)
  have hseq := ht.seqnos_eq
  have hnext : b.peer.receiver.next ≤ (payloads h.sent).length := hd.assembling.slices.next_le
  rw [hsyn, Bool.toNat_true] at hseq
  rw [ackPos, SenderRun.consumed, hseq]
  cases heof : b.peer.receiver.output.eof with
  | false =>
    rw [Bool.toNat_false]
    omega
  | true =>
    have hfin := (hd.assembling.slices.eof heof).1
    rw [ht.finIn_eq] at hfin
    rw [hfin, Bool.toNat_true]
    omega

/-- A step of the sender that sends no segment. -/
theorem of_sent_eq (hd : Direction isn h b) (hsent : h'.sent = h.sent)
    (hacked : h'.acked ≤ b.peer.receiver.ackPos) : Direction isn h' b := by
  refine ⟨?_, ?_, ?_, hd.acknos, hacked⟩
  · rw [hsent]
    exact hd.assembling
  · rw [hsent]
    exact hd.assembled_eq
  · rw [hsent]
    exact hd.synced

/-- **Sending.**  The stream grows at its end, unless the FIN was sent. -/
theorem push (hd : Direction isn h b) (ht : Tiling h.accepted h.sender h.sent) :
    Direction isn (h.step .push) b := by
  set new := h.sender.push.2.filter fun m => ¬ m.RST with hnew
  have hsent : (h.step .push).sent = h.sent ++ new := rfl
  by_cases hfin : h.sender.finSent = true
  · refine hd.of_sent_eq ?_ hd.acked_le
    rw [hsent, hnew, (ht.push_of_finSent hfin).2, List.append_nil]
  -- the end of the stream is not known to the receiver
  have hopen : finIn h.sent = false := by
    rw [ht.finIn_eq]
    simpa using hfin
  have hgrow := hd.assembling
  rw [hopen] at hgrow
  have hle : b.peer.receiver.next ≤ (payloads h.sent).length := hgrow.slices.next_le
  constructor
  case assembling =>
    rw [hsent, payloads_append]
    exact hgrow.append (payloads new) _
  case assembled_eq =>
    rw [hsent, payloads_append, List.take_append_of_le_length hle]
    exact hd.assembled_eq
  case synced =>
    intro hset
    rw [hsent]
    exact List.append_ne_nil_of_left_ne_nil (hd.synced hset) new
  case acknos => exact hd.acknos
  case acked_le => exact hd.acked_le

/-- **Being acknowledged.**  Within the first cycle an ackno stands for its position. -/
theorem receive (hd : Direction isn h b) (ht : Tiling h.accepted h.sender h.sent)
    (hisn : h.sender.isn = isn) (hlt : h.consumed < 2 ^ 32) {msg : TCPReceiverMessage}
    (hmsg : Acknowledges isn b.peer.receiver msg) : Direction isn (h.step (.receive msg)) b := by
  refine hd.of_sent_eq rfl ?_
  show h.ackedAfter msg ≤ b.peer.receiver.ackPos
  unfold SenderRun.ackedAfter
  split
  · exact hd.acked_le
  cases hack : msg.ackno with
  | none => exact hd.acked_le
  | some w =>
    obtain ⟨hset, p, hp, hw⟩ := hmsg w hack
    have hpN := hp.trans (hd.ackPos_le ht hset)
    dsimp only
    cases hexact : SenderRun.exactAck h.sender.isn h.acked h.consumed w with
    | none => exact hd.acked_le
    | some A =>
      obtain ⟨-, hAN, hwA⟩ := (SenderRun.exactAck_eq_some (by omega)).mp hexact
      have hmod : A % 2 ^ 32 = p % 2 ^ 32 := by
        rw [← Wrap32.ofPos_inj (z := isn), ← hw, hwA, hisn]
      rw [Option.getD_some]
      omega

/-- **Any operation of the sender.** -/
theorem senderOp (hd : Direction isn h b) (ht : Tiling h.accepted h.sender h.sent)
    (hisn : h.sender.isn = isn) (hlt : h.consumed < 2 ^ 32) (op : SenderOp)
    (hmsg : ∀ msg, op = .receive msg → Acknowledges isn b.peer.receiver msg) :
    Direction isn (h.step op) b := by
  cases op with
  | push => exact hd.push ht
  | receive msg => exact hd.receive ht hisn hlt (hmsg msg rfl)
  | write | close | setError | tick => exact hd.of_sent_eq rfl hd.acked_le

/-- The receiver has gone on, and acknowledges what it has assembled. -/
theorem advance (hd : Direction isn h b) {b' : PeerRun} {written : Bytes}
    (hassembling : Assembling isn (payloads h.sent) (finIn h.sent) b'.peer.receiver)
    (hnext : b'.peer.receiver.next = b.peer.receiver.next + written.length)
    (hwritten : ∀ i x, written[i]? = some x →
      (payloads h.sent)[b.peer.receiver.next + i]? = some x)
    (heof : b.peer.receiver.output.eof = true → b'.peer.receiver.output.eof = true)
    (hset : b.peer.receiver.isnSet = true → b'.peer.receiver.isnSet = true)
    (hset_of : b'.peer.receiver.isnSet = true → b.peer.receiver.isnSet = true ∨ h.sent ≠ [])
    (hassembled : b'.assembled = b.assembled ++ written)
    (htransmitted : ∀ x ∈ b'.transmitted, x ∈ b.transmitted ∨
      x.receiver = b'.peer.receiver.send) : Direction isn h b' := by
  have hack : b.peer.receiver.ackPos ≤ b'.peer.receiver.ackPos := by
    rw [ackPos, ackPos, hnext]
    have hflag : b.peer.receiver.output.eof.toNat ≤ b'.peer.receiver.output.eof.toNat :=
      Bool.toNat_le_toNat heof
    omega
  constructor
  case assembling => exact hassembling
  case assembled_eq =>
    -- what was written is the next part of the stream
    have htake : written = ((payloads h.sent).drop b.peer.receiver.next).take written.length := by
      apply List.ext_getElem?
      intro i
      rw [List.getElem?_take]
      split
      · rename_i hlt
        rw [List.getElem?_drop, List.getElem?_eq_getElem hlt]
        exact (hwritten i _ (List.getElem?_eq_getElem hlt)).symm
      · rename_i hge
        exact List.getElem?_eq_none (not_lt.mp hge)
    rw [hassembled, hd.assembled_eq, hnext, List.take_add, ← htake]
  case synced => exact fun hset' => (hset_of hset').elim hd.synced id
  case acknos =>
    intro x hx w hw
    rcases htransmitted x hx with hold | hnew
    · -- what was acknowledged before is still assembled
      obtain ⟨hset', p, hp, hpw⟩ := hd.acknos x hold w hw
      exact ⟨hset hset', p, hp.trans hack, hpw⟩
    · rw [hnew, ackno_send] at hw
      split at hw
      · rename_i hset'
        rw [hassembling.isn_eq hset'] at hw
        exact ⟨hset', _, le_rfl, (Option.some.inj hw).symm⟩
      · cases hw
  case acked_le => exact hd.acked_le.trans hack

/-- An operation that leaves what the receiver has assembled as it is. -/
theorem advance_nothing (hd : Direction isn h b) {b' : PeerRun}
    (hassembling : Assembling isn (payloads h.sent) (finIn h.sent) b'.peer.receiver)
    (hnext : b'.peer.receiver.next = b.peer.receiver.next)
    (heof : b'.peer.receiver.output.eof = b.peer.receiver.output.eof)
    (hset : b'.peer.receiver.isnSet = b.peer.receiver.isnSet)
    (hassembled : b'.assembled = b.assembled)
    (htransmitted : ∀ x ∈ b'.transmitted, x ∈ b.transmitted ∨
      x.receiver = b'.peer.receiver.send) : Direction isn h b' := by
  have hnil : b'.assembled = b.assembled ++ [] := by rw [hassembled, List.append_nil]
  have hnext' : b'.peer.receiver.next = b.peer.receiver.next + ([] : Bytes).length := hnext
  exact hd.advance hassembling hnext' (by simp) heof.trans hset.trans
    (fun hset' => .inl (hset.symm.trans hset')) hnil htransmitted

end Direction

namespace PeerRun

/-- Beside every message goes what the receiver acknowledges. -/
theorem transmitted_step (r : PeerRun) (op : PeerOp) : ∀ x ∈ (r.step op).transmitted,
    x ∈ r.transmitted ∨ x.receiver = (r.step op).peer.receiver.send := by
  intro x hx
  refine (List.mem_append.mp hx).imp_right fun hx => ?_
  cases op with
  | write | close | setOutboundError | setInboundError | read => cases hx
  | push | tick =>
    obtain ⟨m, -, rfl⟩ := List.mem_map.mp hx
    rfl
  | receive msg =>
    have hx' : x ∈ (r.peer.receive msg).2 := hx
    cases hact : r.peer.active with
    | true =>
      obtain ⟨-, -, reply, -, hout⟩ := TCPPeer.receive_of_active hact msg
      rw [hout] at hx'
      obtain ⟨m, -, rfl⟩ := List.mem_map.mp hx'
      rfl
    | false =>
      rw [TCPPeer.receive_of_inactive hact] at hx'
      cases hx'

/-- Nothing is assembled when the inbound stream does not grow. -/
theorem assembled_step_of_le {r : PeerRun} {op : PeerOp}
    (hle : (r.step op).peer.inbound.contents.length ≤ r.peer.inbound.contents.length) :
    (r.step op).assembled = r.assembled := by
  show r.assembled ++ (r.step op).peer.inbound.contents.drop _ = _
  rw [List.drop_of_length_le hle, List.append_nil]

end PeerRun

namespace Direction

variable {isn : Wrap32} {h : SenderRun} {b : PeerRun}

/-- The segments that are no longer outstanding are all assembled. -/
theorem length_payloads_le_next (hd : Direction isn h b) (ht : Tiling h.accepted h.sender h.sent)
    {isn' : Wrap32} {rto : UInt64} (hacking : h.Acking isn' rto) {done : List TCPSenderMessage}
    (hdone : done ++ h.sender.outstandingSegments = h.sent) :
    (payloads done).length ≤ b.peer.receiver.next := by
  rcases eq_or_ne done [] with rfl | hne
  · exact Nat.zero_le _
  cases heof : b.peer.receiver.output.eof with
  | true =>
    have hfull : b.peer.receiver.next = (payloads h.sent).length :=
      (hd.assembling.slices.eof heof).2
    rw [hfull, ← hdone, payloads_append, List.length_append]
    exact Nat.le_add_right _ _
  | false =>
    -- they have a SYN, so that there are fewer bytes than sequence numbers acknowledged
    have hlt := ht.length_payloads_lt hdone hne
    have hbase : h.base = seqnos done := by
      rw [SenderRun.base, SenderRun.consumed, ← hdone, seqnos_append, Nat.add_sub_cancel]
    have hacked := hacking.base_le.trans hd.acked_le
    rw [hbase, ackPos, heof, Bool.toNat_false] at hacked
    omega

/-- An operation that the receiver does not notice. -/
theorem receiver_same (hd : Direction isn h b) {op : PeerOp}
    (hsame : (b.step op).peer.receiver = b.peer.receiver) : Direction isn h (b.step op) := by
  have hcont : (b.step op).peer.inbound.contents.length = b.peer.inbound.contents.length := by
    rw [TCPPeer.inbound, hsame]
    rfl
  refine hd.advance_nothing ?_ ?_ ?_ ?_ (PeerRun.assembled_step_of_le hcont.le)
    (b.transmitted_step op) <;> rw [hsame]
  exact hd.assembling

/-- **Assembling.**  A genuine message makes the receiver write what comes next. -/
theorem deliver (hd : Direction isn h b) (ht : Tiling h.accepted h.sender h.sent)
    (hisn : h.sender.isn = isn) (hS : (payloads h.sent).length + 2 < 2 ^ 31) {msg : TCPMessage}
    (hmsg : PeerRun.FromSender h msg.sender) : Direction isn h (b.step (.receive msg)) := by
  cases hact : b.peer.active with
  | false =>
    apply hd.receiver_same
    show (b.peer.receive msg).1.receiver = b.peer.receiver
    rw [TCPPeer.receive_of_inactive hact]
  | true =>
    have hreceiver : (b.step (.receive msg)).peer.receiver = b.peer.receiver.receive msg.sender :=
      (TCPPeer.receive_of_active hact msg).2.1
    have hgenuine := hmsg.genuine ht
    rw [hisn] at hgenuine
    obtain ⟨written, hr⟩ := receive_spec hd.assembling hS hgenuine
    rw [← hreceiver] at hr
    refine hd.advance hr.assembling hr.next_eq hr.written_eq hr.eof hr.isnSet ?_ ?_
      (b.transmitted_step _)
    · -- only a segment carries a SYN
      refine fun hset => (hr.isnSet_of hset).imp_right fun ⟨hrst, hsyn⟩ => ?_
      rcases hmsg with hrst' | hsent | ⟨k, -, hempty⟩
      · rw [hrst] at hrst'
        cases hrst'
      · exact List.ne_nil_of_mem hsent
      · rw [hempty] at hsyn
        cases hsyn
    · show b.assembled ++ (b.step (.receive msg)).peer.receiver.output.contents.drop
        b.peer.receiver.output.contents.length = _
      rw [hr.contents_eq, List.drop_left]

/-- **Any operation of the receiving peer.** -/
theorem receiverOp (hd : Direction isn h b) (ht : Tiling h.accepted h.sender h.sent)
    (hisn : h.sender.isn = isn) (hS : (payloads h.sent).length + 2 < 2 ^ 31) (op : PeerOp)
    (hmsg : ∀ msg, op = .receive msg → PeerRun.FromSender h msg.sender) :
    Direction isn h (b.step op) := by
  cases op with
  | write | close | setOutboundError | push | tick => exact hd.receiver_same rfl
  | setInboundError =>
    exact hd.advance_nothing hd.assembling.setError rfl rfl rfl
      (PeerRun.assembled_step_of_le le_rfl) (b.transmitted_step _)
  | read len =>
    obtain ⟨-, hcont, -, heof, -, hpush, -⟩ :=
      ByteStream.pop_spec hd.assembling.slices.wf.output len
    refine hd.advance_nothing (hd.assembling.pop len) (congrArg UInt64.toNat hpush) heof rfl
      (PeerRun.assembled_step_of_le ?_) (b.transmitted_step _)
    show (b.peer.receiver.reassembler.output.pop len).contents.length ≤ _
    rw [hcont, List.length_drop]
    exact Nat.sub_le _ _
  | receive msg => exact hd.deliver ht hisn hS (hmsg msg rfl)

end Direction

/-- **A run of the sender** that accepts a bounded number of bytes. -/
theorem Direction.run {isn : Wrap32} {rto : UInt64} {h : SenderRun} {b : PeerRun}
    (ops : List SenderOp) (hd : Direction isn h b) (ht : h.Tiled isn rto)
    (hbound : (Machine.run SenderRun.step h ops).accepted.length < 2 ^ 31 - 2)
    (hmsg : ∀ msg, .receive msg ∈ ops → Acknowledges isn b.peer.receiver msg) :
    Direction isn (Machine.run SenderRun.step h ops) b := by
  induction ops generalizing h with
  | nil => exact hd
  | cons op ops ih =>
    have hconsumed : h.consumed < 2 ^ 32 := by
      have hle := h.accepted_le_run (op :: ops)
      have hpay := ht.tiling.length_sent_le
      have hseq := ht.tiling.seqnos_le
      rw [SenderRun.consumed]
      omega
    refine ih ?_ (ht.step op) hbound (fun msg hmem => hmsg msg (List.mem_cons_of_mem op hmem))
    refine hd.senderOp ht.tiling ht.isn_eq hconsumed op ?_
    rintro msg rfl
    exact hmsg msg List.mem_cons_self

/-! ### Two peers -/

/-- The two ends of a connection. -/
inductive Side where
  | a
  | b
deriving DecidableEq, Repr

/-- The other end. -/
def Side.other : Side → Side
  | .a => .b
  | .b => .a

@[simp] theorem Side.other_other (s : Side) : s.other.other = s := by cases s <;> rfl

/-- There are two ends. -/
theorem Side.other_ne (s : Side) : s.other ≠ s := by cases s <;> decide

/-- The peers at the two ends, each with its history. -/
def Connection := Side → PeerRun

namespace Connection

/-- One peer makes a step. -/
def step (c : Connection) (op : Side × PeerOp) : Connection :=
  Function.update c op.1 ((c op.1).step op.2)

/-- The network delivers only what the other peer has transmitted. -/
def Unforged (c : Connection) (op : Side × PeerOp) : Prop :=
  ∀ msg, op.2 = .receive msg → msg ∈ (c op.1.other).transmitted

/-- Two peers before anything has happened. -/
def start (peer : Side → TCPPeer) : Connection := fun s => PeerRun.start (peer s)

/-- The bytes accepted by the outbound writer of a peer. -/
def accepted (c : Connection) (s : Side) : Bytes := (c s).history.accepted

/-- The bound on what is written in each direction. -/
def Bounded (c : Connection) : Prop := ∀ s, (c.accepted s).length < 2 ^ 31 - 2

/-- The invariant of the connection. -/
structure Connected (cfg : Side → TCPConfig) (input : Side → ByteStream) (c : Connection) :
    Prop where
  tracked : ∀ s, PeerRun.Tracked (input s) (cfg s).isn (cfg s).rtTimeout.toUInt64 (c s)
  direction : ∀ s, Direction (cfg s).isn (c s).history (c s.other)

variable {cfg : Side → TCPConfig} {input : Side → ByteStream} {c : Connection}

@[simp] theorem step_self (c : Connection) (s : Side) (op : PeerOp) :
    c.step (s, op) s = (c s).step op := Function.update_self ..

/-- The other peer does nothing meanwhile. -/
theorem step_of_ne {c : Connection} {s t : Side} (hne : s ≠ t) (op : PeerOp) :
    c.step (t, op) s = c s := Function.update_of_ne hne ..

/-- The bytes accepted only grow. -/
theorem bounded_of_step {op : Side × PeerOp} (h : Bounded (c.step op)) : Bounded c := by
  obtain ⟨t, op⟩ := op
  intro s
  refine lt_of_le_of_lt ?_ (h s)
  rcases eq_or_ne s t with rfl | hne
  · rw [accepted, accepted, step_self]
    exact (c s).history.accepted_le_run _
  · rw [accepted, accepted, step_of_ne hne]

/-- **Step.**  A step of one peer is one of the sender in its own direction, and one of the
    receiver in the other. -/
theorem Connected.step (h : Connected cfg input c)
    (hnew : ∀ s, ByteStream.new (cfg s).sendCapacity = .ok (input s)) (op : Side × PeerOp)
    (hunforged : c.Unforged op) (hbound : Bounded (c.step op)) :
    Connected cfg input (c.step op) := by
  have hbefore := bounded_of_step hbound
  obtain ⟨t, op⟩ := op
  constructor
  case tracked =>
    intro s
    rcases eq_or_ne s t with rfl | hne
    · rw [step_self]
      exact (h.tracked s).step (hnew s) op
    · rw [step_of_ne hne]
      exact h.tracked s
  case direction =>
    intro s
    rcases eq_or_ne s t with rfl | hne
    · have hlt := hbound s
      rw [accepted, step_self] at hlt
      rw [step_self, step_of_ne s.other_ne]
      refine (h.direction s).run _ ((h.tracked s).tiled (hnew s)) hlt fun msg hmem => ?_
      -- a message that reaches the sender was transmitted by the other peer
      obtain ⟨full, hop, rfl⟩ := PeerOp.mem_senderOps hmem
      exact (h.direction s).acknos full (hunforged full hop)
    · have hother : s.other = t := by
        cases s <;> cases t <;> first | rfl | exact absurd rfl hne
      have hlt := hbefore s
      have ht := (h.tracked s).tiled (hnew s)
      have hpay := ht.tiling.length_sent_le
      rw [step_of_ne hne, hother, step_self]
      have hd := h.direction s
      rw [hother] at hd
      refine hd.receiverOp ht.tiling ht.isn_eq (by rw [accepted] at hlt; omega) op fun msg hop => ?_
      have hmem := hunforged msg hop
      rw [← hother, Side.other_other] at hmem
      exact (h.tracked s).from_sender msg hmem

/-- New peers are connected. -/
theorem connected_start {peer : Side → TCPPeer} (h : ∀ s, TCPPeer.new (cfg s) = .ok (peer s)) :
    ∃ input : Side → ByteStream, (∀ s, ByteStream.new (cfg s).sendCapacity = .ok (input s)) ∧
      Connected cfg input (start peer) := by
  choose input hnew htracked using fun s => PeerRun.tracked_start (h s)
  refine ⟨input, hnew, htracked, fun s => ?_⟩
  obtain ⟨_, inbound, -, hinbound, -, hreceiver, -⟩ := TCPPeer.new_spec (h s.other)
  -- nothing was sent or assembled
  have hslices := Reassembler.Slices.new hinbound false
  have hstart : (start peer s.other).peer.receiver = TCPReceiver.new (Reassembler.new inbound) :=
    hreceiver
  constructor
  case assembling =>
    rw [hstart]
    refine ⟨hslices, fun hset => ?_⟩
    cases hset
  case assembled_eq => exact List.take_nil.symm
  case synced =>
    rw [hstart]
    intro hset
    cases hset
  case acknos =>
    intro x hx
    cases hx
  case acked_le => exact Nat.zero_le _

/-- **Run.**  Peers stay connected whatever happens below the bound. -/
theorem connected_of {peer : Side → TCPPeer} (h : ∀ s, TCPPeer.new (cfg s) = .ok (peer s))
    {ops : List (Side × PeerOp)} (hrun : Machine.Meets step Unforged (start peer) ops)
    (hbound : Bounded (Machine.run step (start peer) ops)) :
    ∃ input : Side → ByteStream, (∀ s, ByteStream.new (cfg s).sendCapacity = .ok (input s)) ∧
      Connected cfg input (Machine.run step (start peer) ops) := by
  obtain ⟨input, hnew, hc⟩ := connected_start h
  refine ⟨input, hnew, hrun.invariant_of_bound Bounded (fun _ _ => bounded_of_step) ?_ hc hbound⟩
  exact fun _ op hc hop hb => hc.step hnew op hop hb

/-- The safety of one direction, from the sender of `a` to the receiver of `b`. -/
structure Delivers (a b : PeerRun) : Prop where
  assembled_prefix : b.assembled <+: a.history.accepted
  /-- The bytes assembled are as many as the inbound stream counts. -/
  assembled_length : b.assembled.length = b.peer.inbound.bytesPushed.toNat
  closed : b.peer.inbound.isClosed = true →
    a.peer.outbound.isClosed = true ∧ b.assembled = a.history.accepted
  /-- What is not assembled is a last part of what is outstanding or not yet sent. -/
  held : a.history.accepted.drop b.assembled.length
    <:+ payloads a.peer.sender.outstandingSegments ++ a.peer.outbound.contents

/-- The invariant gives the safety of one direction. -/
theorem Connected.delivers (h : Connected cfg input c)
    (hnew : ∀ s, ByteStream.new (cfg s).sendCapacity = .ok (input s)) (hbound : Bounded c)
    (s : Side) : Delivers (c s) (c s.other) := by
  have htracked := h.tracked s
  have hd := h.direction s
  have hlt := hbound s
  rw [accepted] at hlt
  obtain ⟨ops, hops⟩ := htracked.history_of
  have ht := (htracked.tiled (hnew s)).tiling
  have hacking : (c s).history.Acking (cfg s).isn (cfg s).rtTimeout.toUInt64 := by
    have hconsumed : (c s).history.consumed < 2 ^ 32 := by
      have hpay := ht.length_sent_le
      have hseq := ht.seqnos_le
      rw [SenderRun.consumed]
      omega
    rw [hops] at hconsumed ⊢
    exact SenderRun.acking_of_lt (hnew s) hconsumed
  generalize c s = a at hlt htracked ht hd hacking ⊢
  generalize c s.other = b at hd ⊢
  have hsender := htracked.sender_eq
  have hnext : b.peer.receiver.next ≤ (payloads a.history.sent).length :=
    hd.assembling.slices.next_le
  have hlen : b.assembled.length = b.peer.receiver.next := by
    rw [hd.assembled_eq, List.length_take, min_eq_left hnext]
  have hprefix : b.assembled <+: payloads a.history.sent := by
    rw [hd.assembled_eq]
    exact List.take_prefix _ _
  constructor
  case assembled_prefix =>
    rw [ht.accepted_eq]
    exact hprefix.trans (List.prefix_append _ _)
  case assembled_length => exact hlen
  case closed =>
    intro hclosed
    obtain ⟨hknown, hfull⟩ := hd.assembling.slices.eof hclosed
    rw [ht.finIn_eq] at hknown
    obtain ⟨heof, hnil⟩ := ht.finSent_closed hknown
    rw [hsender] at heof
    refine ⟨heof, ?_⟩
    rw [ht.accepted_eq, hnil, List.append_nil, hd.assembled_eq]
    exact List.take_of_length_le hfull.ge
  case held =>
    -- the segments no longer outstanding are all assembled
    obtain ⟨done, hdone⟩ := hacking.unacknowledged.suffix
    have hdropped : (payloads done).length ≤ b.assembled.length := by
      rw [hlen]
      exact hd.length_payloads_le_next ht hacking hdone
    have haccepted : a.history.accepted = payloads done
        ++ (payloads a.peer.sender.outstandingSegments ++ a.peer.outbound.contents) := by
      rw [ht.accepted_eq, ← hdone, payloads_append, List.append_assoc, hsender]
      rfl
    rw [haccepted, List.drop_append, List.drop_eq_nil_of_le hdropped, List.nil_append]
    exact List.drop_suffix _ _

/-- **End-to-end safety**, in both directions, at every moment. -/
theorem end_to_end_safety {cfg : Side → TCPConfig} {peer : Side → TCPPeer}
    (h : ∀ s, TCPPeer.new (cfg s) = .ok (peer s)) {ops : List (Side × PeerOp)}
    (hrun : Machine.Meets step Unforged (start peer) ops)
    (hbound : Bounded (Machine.run step (start peer) ops)) (s : Side) :
    Delivers (Machine.run step (start peer) ops s)
      (Machine.run step (start peer) ops s.other) := by
  obtain ⟨input, hnew, hc⟩ := connected_of h hrun hbound
  exact hc.delivers hnew hbound s

/-- Two small peers, and the start of a connection in which the SYN arrives twice. -/
def smallConfig : Side → TCPConfig
  | .a => { rtTimeout := 1, recvCapacity := 4, sendCapacity := 4, isn := ⟨7⟩ }
  | .b => { rtTimeout := 1, recvCapacity := 4, sendCapacity := 4, isn := ⟨50⟩ }

/-- A handshake with a duplicate, and two bytes. -/
def smallOps : List (Side × PeerOp) :=
  let syn : TCPMessage :=
    { sender := { SYN := true, seqno := ⟨7⟩ }, receiver := { windowSize := 4 } }
  let synAck : TCPMessage :=
    { sender := { SYN := true, seqno := ⟨50⟩ }, receiver := { ackno := some ⟨8⟩, windowSize := 4 } }
  let data : TCPMessage :=
    { sender := { seqno := ⟨8⟩, payload := [1, 2] }
      receiver := { ackno := some ⟨51⟩, windowSize := 4 } }
  [(.a, .write [1, 2]), (.a, .push), (.b, .receive syn), (.b, .receive syn),
    (.a, .receive synAck), (.b, .receive data)]

/-- The two bytes are delivered. -/
theorem end_to_end_safety_small : ∃ peer : Side → TCPPeer,
    (∀ s, TCPPeer.new (smallConfig s) = .ok (peer s)) ∧
    Delivers (Machine.run step (start peer) smallOps .a)
      (Machine.run step (start peer) smallOps .b) := by
  have hnew : ∀ s, TCPPeer.new (smallConfig s) = .ok _ := fun s =>
    TCPPeer.new_eq_ok (by cases s <;> decide) (by cases s <;> decide)
  refine ⟨_, hnew, end_to_end_safety hnew ?_ ?_ .a⟩
  · refine ⟨?_, ?_, ?_, ?_, ?_, ?_, trivial⟩ <;> rintro msg heq <;> cases heq <;> decide
  · intro s
    cases s <;> decide

end Connection

end Minnow
