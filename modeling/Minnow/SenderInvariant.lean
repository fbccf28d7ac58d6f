import Minnow.SenderAck

namespace Minnow

/-!
# The representation invariant of the sender

What the queue of outstanding segments looks like, in the sequence numbers that the sender itself
has, as long as fewer than `2^31` of them are consumed.

* `SenderRun.Represents` — the invariant, with positions as `receive` would unwrap them;
* `SenderRun.Acking.acked_receive` — the largest acknowledged position is the largest of those
  received that were sent;
* `SenderRun.represents_of` — every run keeps the invariant.
-/

open TCPSender SlidingWindow

namespace SenderRun

/-- The position that a sequence number stands for, near the next one. -/
def absolute (r : SenderRun) (w : Wrap32) : ℕ :=
  (w.unwrap r.sender.isn (UInt64.ofNat r.consumed)).toNat

/-- The sequence number behind a segment. -/
def endOf (m : TCPSenderMessage) : Wrap32 := m.seqno.add (UInt32.ofNat m.sequenceLength)

/-- The sequence number of the first outstanding segment, or else the next one. -/
def firstSeqno (r : SenderRun) : Wrap32 :=
  (r.sender.outstandingSegments.head?.map (·.seqno)).getD r.sender.nextSeqno

/-- The representation invariant. -/
structure Represents (r : SenderRun) : Prop where
  length_pos : ∀ m ∈ r.sender.outstandingSegments, 0 < m.sequenceLength
  contiguous : r.sender.outstandingSegments.IsChain fun m m' => endOf m = m'.seqno
  last_end : ∀ m ∈ r.sender.outstandingSegments.getLast?, endOf m = r.sender.nextSeqno
  nextSeqno_eq : r.absolute r.sender.nextSeqno = r.consumed
  lastAckno_eq : r.absolute r.sender.lastAckno = r.acked
  acked_first : ∀ m ∈ r.sender.outstandingSegments.head?,
    r.absolute m.seqno ≤ r.acked ∧ r.acked < r.absolute m.seqno + m.sequenceLength
  acked_all : r.sender.outstandingSegments = [] → r.acked = r.consumed
  inFlight_eq : r.sender.sequenceNumbersInFlight = r.sender.nextSeqno.offset r.firstSeqno
  inFlight_add : r.absolute r.firstSeqno + r.sender.sequenceNumbersInFlight = r.consumed

variable {isn : Wrap32} {rto : UInt64} {r : SenderRun}

/-- A position that was sent is unwrapped to itself. -/
theorem absolute_ofPos (hlt : r.consumed < 2 ^ 31) {p : ℕ} (hle : p ≤ r.consumed) :
    r.absolute (Wrap32.ofPos p r.sender.isn) = p := by
  have hcons : (UInt64.ofNat r.consumed).toNat = r.consumed := toNat_ofNat_of_lt (by omega)
  exact Wrap32.unwrap_ofPos_of_near (by omega) (by omega) (by omega)

/-- A sequence number is the one at the position that it stands for. -/
theorem ofPos_absolute (r : SenderRun) (a : Wrap32) :
    Wrap32.ofPos (r.absolute a) r.sender.isn = a := by
  rw [absolute, ← Wrap32.wrap_eq_ofPos, Wrap32.wrap_unwrap]

/-- The first outstanding sequence number is the one at the base. -/
theorem Acking.firstSeqno_eq (h : r.Acking isn rto) :
    r.firstSeqno = Wrap32.ofPos r.base r.sender.isn := by
  have htiles := h.tiles_outstanding
  have hbase := h.base_add
  unfold firstSeqno
  cases hout : r.sender.outstandingSegments with
  | nil =>
    rw [hout, seqnos_nil, Nat.add_zero] at hbase
    rw [hbase]
    exact h.tiling.nextSeqno_eq
  | cons m rest =>
    rw [hout] at htiles
    exact htiles.1

/-- **The largest acknowledgment** is the largest position received that was sent. -/
theorem Acking.acked_receive (h : r.Acking isn rto) (hlt : r.consumed < 2 ^ 31)
    (msg : TCPReceiverMessage) :
    (r.step (.receive msg)).acked
      = if msg.RST = false ∧ r.absAckno msg ≤ r.consumed then max r.acked (r.absAckno msg)
        else r.acked := by
  have hle := h.acked_le
  show r.ackedAfter msg = _
  cases hrst : msg.RST with
  | true => simp [ackedAfter, hrst]
  | false =>
    cases hack : msg.ackno with
    | none =>
      have hzero : r.absAckno msg = 0 := by simp [absAckno, hack]
      simp [ackedAfter, hrst, hack, hzero]
    | some a =>
      have habs : r.absAckno msg = r.absolute a := by rw [absAckno, hack, absolute]
      have hafter : r.ackedAfter msg
          = (exactAck r.sender.isn r.acked r.consumed a).getD r.acked := by
        simp [ackedAfter, hrst, hack]
      rw [hafter, habs]
      cases hexact : exactAck r.sender.isn r.acked r.consumed a with
      | some A =>
        obtain ⟨hlo, hhi, rfl⟩ := (exactAck_eq_some (by omega)).mp hexact
        rw [absolute_ofPos hlt hhi, if_pos ⟨rfl, hhi⟩, max_eq_right hlo]
        rfl
      | none =>
        -- what was sent and is no news was acknowledged before
        split
        · rename_i hsent
          have hbefore : r.absolute a < r.acked := by
            by_contra hge
            have hsome := (exactAck_eq_some (by omega)).mpr
              ⟨not_lt.mp hge, hsent.2, (r.ofPos_absolute a).symm⟩
            rw [hexact] at hsome
            cases hsome
          rw [max_eq_left hbefore.le]
          rfl
        · rfl

theorem Acking.represents (h : r.Acking isn rto) (hlt : r.consumed < 2 ^ 31) : r.Represents := by
  have hbase := h.base_add
  have hle := h.base_le
  have hacked := h.acked_le
  have htiles := h.tiles_outstanding
  have hflight : r.sender.sequenceNumbersInFlight = seqnos r.sender.outstandingSegments :=
    h.tiling.inFlight_eq
  constructor
  case length_pos => exact h.length_pos
  case contiguous =>
    apply htiles.isChain
    intro p m m' hm hm'
    rw [endOf, hm, Wrap32.ofPos_add, hm']
  case last_end =>
    intro m hm
    obtain ⟨p, hp, hend⟩ := htiles.of_getLast hm
    rw [endOf, hp, Wrap32.ofPos_add, hend, hbase, h.tiling.nextSeqno_eq, consumed]
  case nextSeqno_eq =>
    rw [h.tiling.nextSeqno_eq]
    exact absolute_ofPos hlt le_rfl
  case lastAckno_eq =>
    rw [h.unacknowledged.lastAckno_eq]
    exact absolute_ofPos hlt hacked
  case acked_first =>
    intro m hm
    have hseqno : m.seqno = r.firstSeqno := by
      rw [firstSeqno, Option.mem_def.mp hm]
      rfl
    rw [hseqno, h.firstSeqno_eq, absolute_ofPos hlt (by omega)]
    exact ⟨hle, h.acked_lt m hm⟩
  case acked_all => exact h.unacknowledged.acked_eq
  case inFlight_eq =>
    have hin := h.inFlight_le
    rw [h.firstSeqno_eq, h.tiling.nextSeqno_eq, ← consumed, ← hbase, ← Wrap32.ofPos_ofPos,
      Wrap32.offset_ofPos, hflight, Nat.mod_eq_of_lt (by omega)]
  case inFlight_add =>
    rw [h.firstSeqno_eq, absolute_ofPos hlt (by omega), hflight, hbase]

/-- **Every run keeps the invariant**, in the first half cycle. -/
theorem represents_of {capacity : UInt64} {input : ByteStream}
    (h : ByteStream.new capacity = .ok input) {isn : Wrap32} {rto : UInt64}
    {ops : List SenderOp} (hlt : (SenderRun.of input isn rto ops).consumed < 2 ^ 31) :
    (SenderRun.of input isn rto ops).Represents :=
  (acking_of_lt h (by omega)).represents hlt

/-- Three bytes in flight, of which the first is acknowledged. -/
theorem represents_of_partial :
    (SenderRun.of (ByteStream.empty 4) ⟨7⟩ 1000
      [.push, .receive { ackno := some ⟨8⟩, windowSize := 9 }, .write [1, 2, 3], .push,
        .receive { ackno := some ⟨9⟩, windowSize := 9 }]).sender.outstandingSegments.length = 1 ∧
    (SenderRun.of (ByteStream.empty 4) ⟨7⟩ 1000
      [.push, .receive { ackno := some ⟨8⟩, windowSize := 9 }, .write [1, 2, 3], .push,
        .receive { ackno := some ⟨9⟩, windowSize := 9 }]).Represents :=
  ⟨by decide +kernel, represents_of (ByteStream.new_eq_ok (by decide)) (by decide +kernel)⟩

end SenderRun

end Minnow
