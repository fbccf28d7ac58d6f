import Minnow.SenderTiling

namespace Minnow

/-!
# Acknowledgments and the exact counts behind them

`receive` works on positions modulo `2^32`: it unwraps the next sequence number against
checkpoint 0, and everything else against the result.  Here its outcome is compared with what
the exact counts of a run ask for.

* `Acking` — the invariant: the outstanding segments are a suffix of the segments sent, the
  largest acknowledgment falls within the first of them, and the last ackno stands for it;
* `AckInCycle` — the exact condition on the state and the acknowledged position under which
  `receive` does what the exact counts ask for;
* `ack_cases` — then a message that is not a reset changes the window only, or advances the
  acknowledgment;
* `acking_of_meets`, `acking_of_lt` — the invariant over runs whose acknowledgments meet the
  condition, and over runs in the first cycle, where all of them do.
-/

open TCPSender SlidingWindow

/-- What the outstanding segments of a sender have to do with the segments sent and the largest
    acknowledgment accepted. -/
structure Unacknowledged (s : TCPSender) (sent : List TCPSenderMessage) (acked : ℕ) : Prop where
  suffix : s.outstandingSegments <:+ sent
  first_le : seqnos sent ≤ acked + seqnos s.outstandingSegments
  lt_first : ∀ m ∈ s.outstandingSegments.head?,
    acked + seqnos s.outstandingSegments < seqnos sent + m.sequenceLength
  acked_le : acked ≤ seqnos sent
  lastAckno_eq : s.lastAckno = Wrap32.ofPos acked s.isn
  timerRunning_iff : s.timerRunning = true ↔ s.outstandingSegments ≠ []

namespace Unacknowledged

variable {s s' : TCPSender} {sent : List TCPSenderMessage} {acked : ℕ}

/-- With nothing outstanding, everything sent is acknowledged. -/
theorem acked_eq (h : Unacknowledged s sent acked) (hnil : s.outstandingSegments = []) :
    acked = seqnos sent := by
  have hle := h.first_le
  have := h.acked_le
  rw [hnil, seqnos_nil] at hle
  omega

/-- A new segment joins the outstanding ones at the end. -/
theorem emits (h : Unacknowledged s sent acked) {m : TCPSenderMessage} (hm : Emits s m s') :
    Unacknowledged s' (sent ++ [m]) acked := by
  have hle := h.first_le
  have hacked := h.acked_le
  have hpos := hm.length_pos
  have hsent : seqnos (sent ++ [m]) = seqnos sent + m.sequenceLength := by
    rw [seqnos_append, seqnos_singleton]
  have hout : seqnos s'.outstandingSegments
      = seqnos s.outstandingSegments + m.sequenceLength := by
    rw [hm.outstanding_eq, seqnos_append, seqnos_singleton]
  constructor
  case suffix =>
    obtain ⟨done, hdone⟩ := h.suffix
    exact ⟨done, by rw [hm.outstanding_eq, ← List.append_assoc, hdone]⟩
  case first_le => omega
  case lt_first =>
    intro x hx
    rw [hm.outstanding_eq] at hx
    -- the new segment is the oldest one only if nothing was outstanding
    cases hl : s.outstandingSegments with
    | nil =>
      obtain rfl : m = x := by simpa [hl] using hx
      rw [hl, seqnos_nil] at hout
      omega
    | cons y l =>
      obtain rfl : y = x := by simpa [hl] using hx
      have := h.lt_first y (by simp [hl])
      omega
  case acked_le => omega
  case lastAckno_eq => rw [hm.lastAckno_eq, h.lastAckno_eq, hm.isn_eq]
  case timerRunning_iff => simp [hm.timerRunning_eq, hm.outstanding_eq]

/-- The window has 16 bits, and the SYN segment, whose payload alone may exceed it, goes out
    when nothing is outstanding. -/
theorem push {accepted : Bytes} (ht : Tiling accepted s sent) (h : Unacknowledged s sent acked)
    (hin : seqnos s.outstandingSegments ≤ 65535) :
    Unacknowledged s.push.1 (sent ++ s.push.2.filter fun m => ¬ m.RST) acked ∧
      seqnos s.push.1.outstandingSegments ≤ 65535 := by
  obtain ⟨ms, s', heq, hcase⟩ := push_cases ht.wf ht.nextSeqno_of_not_syn
  rw [heq]
  cases hcase with
  | reset herr => exact ⟨by simpa using h, hin⟩
  | full herr hsyn hfull => exact ⟨by simpa using h, hin⟩
  | @syn m _ herr hsyn hemit hpay hfin =>
    have hnil := ht.outstanding_eq_nil hsyn
    have hlim : TCPConfig.maxPayloadSize = 1000 := rfl
    have hlen : m.sequenceLength ≤ 1002 := by
      have := hemit.payload_le
      have hsynle := m.SYN.toNat_le
      have hfinle := m.FIN.toNat_le
      rw [TCPSenderMessage.sequenceLength]
      omega
    refine ⟨by simpa [hemit.rst_eq] using h.emits hemit, ?_⟩
    show seqnos s'.outstandingSegments ≤ 65535
    rw [hemit.outstanding_eq, hnil, List.nil_append, seqnos_singleton]
    omega
  | segments herr hsyn hemit hroom hstop =>
    have hall := hemit.filter_eq
    have hwin : s.effectiveWindow ≤ 65535 := by
      have := s.windowSize.toNat_lt
      rw [effectiveWindow]
      omega
    have hflight := ht.inFlight_eq
    refine ⟨?_, ?_⟩
    · -- the segments of the loop join one by one
      rw [hall]
      exact hemit.invariant (P := fun s sent => Unacknowledged s sent acked)
        (fun _ _ _ _ h0 hm => h0.emits hm) sent h
    · show seqnos s'.outstandingSegments ≤ 65535
      rw [hemit.outstanding_eq, seqnos_append]
      omega

end Unacknowledged

namespace SenderRun

/-- The invariant of acknowledgment processing. -/
structure Acking (isn : Wrap32) (rto : UInt64) (r : SenderRun) : Prop
    extends Tiled isn rto r where
  unacknowledged : Unacknowledged r.sender r.sent r.acked
  inFlight_le : seqnos r.sender.outstandingSegments ≤ 65535

/-- The position where the oldest outstanding segment starts; everything sent, when there is
    none. -/
def base (r : SenderRun) : ℕ := r.consumed - seqnos r.sender.outstandingSegments

/-- The condition under which `receive` processes an acknowledgment of position `A` rightly: it
    acknowledges nothing new, or the oldest outstanding segment starts in the cycle of `2^32`
    sequence numbers that the next sequence number is in, or the last acknowledgment is in that
    cycle and `A` does not reach the end of the oldest outstanding segment. -/
def AckInCycle (r : SenderRun) (A : ℕ) : Prop :=
  A = r.acked ∨ r.base / 2 ^ 32 = r.consumed / 2 ^ 32 ∨
    r.acked / 2 ^ 32 = r.consumed / 2 ^ 32 ∧
      ∀ m ∈ r.sender.outstandingSegments.head?, A < r.base + m.sequenceLength

/-- The same as a condition on a step of a run. -/
def AcksInCycle (r : SenderRun) : SenderOp → Prop
  | .receive msg => msg.RST = false → ∀ a ∈ msg.ackno, ∀ A,
      exactAck r.sender.isn r.acked r.consumed a = some A → r.AckInCycle A
  | _ => True

variable {isn : Wrap32} {rto : UInt64} {r : SenderRun}

namespace Acking

/-- What is outstanding begins at the base and ends where the sender is. -/
theorem base_add (h : r.Acking isn rto) :
    r.base + seqnos r.sender.outstandingSegments = r.consumed := by
  obtain ⟨done, hdone⟩ := h.unacknowledged.suffix
  have : r.consumed = seqnos done + seqnos r.sender.outstandingSegments := by
    rw [consumed, ← hdone, seqnos_append]
  rw [base]
  omega

/-- The largest acknowledgment lies between the start of the oldest outstanding segment and its
    end. -/
theorem base_le (h : r.Acking isn rto) : r.base ≤ r.acked := by
  have hbase := h.base_add
  have := h.unacknowledged.first_le
  rw [← consumed] at this
  omega

/-- The first outstanding segment is not acknowledged. -/
theorem acked_lt (h : r.Acking isn rto) :
    ∀ m ∈ r.sender.outstandingSegments.head?, r.acked < r.base + m.sequenceLength := by
  intro m hm
  have hbase := h.base_add
  have := h.unacknowledged.lt_first m hm
  rw [← consumed] at this
  omega

/-- No more is acknowledged than was sent. -/
theorem acked_le (h : r.Acking isn rto) : r.acked ≤ r.consumed := h.unacknowledged.acked_le

/-- No more is outstanding than a window can have. -/
theorem consumed_le (h : r.Acking isn rto) : r.consumed ≤ r.base + 65535 := by
  have hbase := h.base_add
  have := h.inFlight_le
  omega

/-- The outstanding segments tile the sequence space from their base on. -/
theorem tiles_outstanding (h : r.Acking isn rto) :
    Tiles TCPSenderMessage.sequenceLength (fun p m => m.seqno = Wrap32.ofPos p r.sender.isn)
      r.base r.sender.outstandingSegments := by
  obtain ⟨done, hdone⟩ := h.unacknowledged.suffix
  have htiles := h.tiling.tiles
  rw [← hdone, tiles_append, zero_add] at htiles
  have hbase : r.base = seqnos done := by
    rw [base, consumed, ← hdone, seqnos_append]
    omega
  rw [hbase]
  exact htiles.2

/-- Outstanding segments have sequence numbers. -/
theorem length_pos (h : r.Acking isn rto) :
    ∀ m ∈ r.sender.outstandingSegments, 0 < m.sequenceLength :=
  fun m hm => (h.tiling.segment m (h.tiling.outstanding hm)).1

/-! ### What `receive` makes of an exact acknowledgment -/

/-- The position `receive` assigns to a sequence number sent within the last half cycle is the
    position modulo `2^32`. -/
theorem position_ofPos (h : r.Acking isn rto) {p : ℕ} (hle : p ≤ r.consumed)
    (hnear : r.consumed ≤ p + 2 ^ 31) :
    r.sender.position (Wrap32.ofPos p r.sender.isn) = p % 2 ^ 32 := by
  have hnext : r.sender.nextSeqno.offset r.sender.isn = r.consumed % 2 ^ 32 := by
    rw [h.tiling.nextSeqno_eq, Wrap32.offset_ofPos, consumed]
  rw [position, hnext, Wrap32.offset_ofPos, if_pos]
  omega

/-- The next sequence number is the count of those sent, modulo a cycle. -/
theorem offset_nextSeqno (h : r.Acking isn rto) :
    r.sender.nextSeqno.offset r.sender.isn = r.consumed % 2 ^ 32 := by
  rw [h.tiling.nextSeqno_eq, Wrap32.offset_ofPos, consumed]

/-- The last acknowledgment is the count of those acknowledged, modulo a cycle. -/
theorem position_lastAckno (h : r.Acking isn rto) :
    r.sender.position r.sender.lastAckno = r.acked % 2 ^ 32 := by
  have hle := h.base_le
  have hcons := h.consumed_le
  rw [h.unacknowledged.lastAckno_eq, h.position_ofPos h.acked_le (by omega)]

/-- An outstanding segment starts at a position sent within the last `65535`, and `receive`
    assigns that position modulo `2^32` to it. -/
theorem position_of_mem_ends (h : r.Acking isn rto) {p : TCPSenderMessage × ℕ}
    (hp : p ∈ ends TCPSenderMessage.sequenceLength r.base r.sender.outstandingSegments) :
    ∃ q, r.sender.position p.1.seqno = q % 2 ^ 32 ∧ p.2 = q + p.1.sequenceLength ∧
      r.base ≤ q ∧ p.2 ≤ r.consumed := by
  obtain ⟨q, hseq, hend, hq, hle⟩ := h.tiles_outstanding.of_mem_ends hp
  have hcons := h.consumed_le
  rw [h.base_add] at hle
  refine ⟨q, ?_, hend, hq, hle⟩
  rw [hseq, h.position_ofPos (by omega) (by omega)]

/-- The removal loop compares ends modulo `2^32`.  When the oldest outstanding segment starts in
    the current cycle, it removes what it should. -/
theorem kept_eq (h : r.Acking isn rto) {A : ℕ} (hlo : r.acked ≤ A) (hhi : A ≤ r.consumed)
    (hcycle : r.base / 2 ^ 32 = r.consumed / 2 ^ 32) :
    r.sender.kept (A % 2 ^ 32)
      = unacked TCPSenderMessage.sequenceLength r.base A r.sender.outstandingSegments := by
  apply filter_eq_unacked
  intro p hp
  obtain ⟨q, hpos, hend, hq, hle⟩ := h.position_of_mem_ends hp
  have hbase := h.base_le
  rw [decide_eq_true_iff, hpos, hend]
  omega

/-- An acknowledgment in the current cycle that does not reach the end of the oldest outstanding
    segment removes nothing, also when that segment starts in the previous cycle: its end is
    then compared at the upper end of the range. -/
theorem kept_eq_self (h : r.Acking isn rto) {A : ℕ}
    (hcycle : A / 2 ^ 32 = r.consumed / 2 ^ 32)
    (hfirst : ∀ m ∈ r.sender.outstandingSegments.head?, A < r.base + m.sequenceLength) :
    r.sender.kept (A % 2 ^ 32) = r.sender.outstandingSegments := by
  have hkept : r.sender.kept (A % 2 ^ 32)
      = unacked TCPSenderMessage.sequenceLength r.base A r.sender.outstandingSegments := by
    apply filter_eq_unacked
    intro p hp
    obtain ⟨q, hpos, hend, hq, hle⟩ := h.position_of_mem_ends hp
    have hcons := h.consumed_le
    have hbeyond : A < p.2 := by
      obtain ⟨m, hm⟩ : ∃ m, m ∈ r.sender.outstandingSegments.head? := by
        cases hl : r.sender.outstandingSegments with
        | nil => simp [hl, ends] at hp
        | cons m l => exact ⟨m, by simp⟩
      exact lt_of_lt_of_le (hfirst m hm) (first_end_le hp m hm)
    rw [decide_eq_true_iff, hpos, iff_true_right hbeyond]
    omega
  rw [hkept, unacked_eq_self h.length_pos hfirst]

/-- **No new data.** An acknowledgment of the last position changes the window only. -/
theorem receive_acked (h : r.Acking isn rto) {msg : TCPReceiverMessage} (hrst : msg.RST = false)
    (hack : msg.ackno = some (Wrap32.ofPos r.acked r.sender.isn)) :
    r.sender.receive msg = { r.sender with windowSize := msg.windowSize } := by
  have hlast := h.position_lastAckno
  have hnext := h.offset_nextSeqno
  have hbase := h.base_le
  have hcons := h.consumed_le
  have hle := h.acked_le
  have hpos := h.position_ofPos hle (by omega)
  have hcase := receive_cases h.tiling.length_lt msg
  generalize r.sender.receive msg = s' at hcase
  cases hcase with
  | reset htrue => rw [hrst] at htrue; cases htrue
  | ignored _ _ => rfl
  | old _ ha hvalid _ =>
    rw [hack, Option.some_inj] at ha
    subst ha
    rw [hpos, hnext] at hvalid
    rw [hpos, h.kept_eq_self (by omega) h.acked_lt]
  -- an ackno that was recorded already is not new
  | new _ ha _ hnew =>
    rw [hack, Option.some_inj] at ha
    subst ha
    rw [hlast, hpos] at hnew
    exact absurd hnew (lt_irrefl _)

/-- **Out of range.** An ackno that stands for no position between the last acknowledgment and
    the next sequence number changes the window only. -/
theorem receive_outside (h : r.Acking isn rto) {msg : TCPReceiverMessage}
    (hrst : msg.RST = false) {a : Wrap32} (hack : msg.ackno = some a)
    (hout : exactAck r.sender.isn r.acked r.consumed a = none) :
    r.sender.receive msg = { r.sender with windowSize := msg.windowSize } := by
  have hlast := h.position_lastAckno
  have hnext := h.offset_nextSeqno
  have hbase := h.base_le
  have hcons := h.consumed_le
  have hle := h.acked_le
  -- no position in the range has this sequence number
  have hno : ∀ A, r.acked ≤ A → A ≤ r.consumed → A % 2 ^ 32 ≠ a.offset r.sender.isn := by
    intro A hlo hhi hA
    have ha : a = Wrap32.ofPos A r.sender.isn := by
      rw [← Wrap32.offset_inj (z := r.sender.isn), Wrap32.offset_ofPos, hA]
    have := (exactAck_eq_some (by omega)).mpr ⟨hlo, hhi, ha⟩
    rw [hout] at this
    cases this
  have hoff := a.offset_lt r.sender.isn
  -- an ackno that passes the check in the code stands, in the current cycle, for a position
  -- before the last acknowledgment
  have hbehind : r.sender.position a ≤ r.consumed % 2 ^ 32 →
      ∃ B, B < r.acked ∧ B / 2 ^ 32 = r.consumed / 2 ^ 32 ∧ r.sender.position a = B % 2 ^ 32 := by
    intro hvalid
    have hposa : r.sender.position a = a.offset r.sender.isn := by
      rw [position, hnext] at hvalid ⊢
      split at hvalid
      · rw [if_pos (by assumption)]
      · omega
    rw [hposa] at hvalid ⊢
    refine ⟨r.consumed / 2 ^ 32 * 2 ^ 32 + a.offset r.sender.isn, ?_, by omega, by omega⟩
    by_contra hge
    exact hno _ (not_lt.mp hge) (by omega) (by omega)
  have hcase := receive_cases h.tiling.length_lt msg
  generalize r.sender.receive msg = s' at hcase
  cases hcase with
  | reset htrue => rw [hrst] at htrue; cases htrue
  | ignored _ _ => rfl
  | old _ ha hvalid hold =>
    rw [hack, Option.some_inj] at ha
    subst ha
    obtain ⟨B, hlt, hcycle, hposa⟩ := hbehind (hnext ▸ hvalid)
    have hfirst : ∀ m ∈ r.sender.outstandingSegments.head?, B < r.base + m.sequenceLength :=
      fun m hm => lt_trans hlt (h.acked_lt m hm)
    rw [hposa, h.kept_eq_self hcycle hfirst]
  | new _ ha hvalid hnew =>
    rw [hack, Option.some_inj] at ha
    subst ha
    obtain ⟨B, hlt, hcycle, hposa⟩ := hbehind (hnext ▸ hvalid)
    rw [hlast, hposa] at hnew
    omega

/-- **New data.** An acknowledgment of new data that meets the condition removes the segments it
    covers, is recorded, and resets RTO, retry count and timer. -/
theorem receive_new (h : r.Acking isn rto) {msg : TCPReceiverMessage} (hrst : msg.RST = false)
    {A : ℕ} (hack : msg.ackno = some (Wrap32.ofPos A r.sender.isn)) (hlt : r.acked < A)
    (hle : A ≤ r.consumed) (hcycle : r.AckInCycle A) :
    r.sender.receive msg = { r.sender with
      windowSize := msg.windowSize
      lastAckno := Wrap32.ofPos A r.sender.isn
      outstandingSegments :=
        unacked TCPSenderMessage.sequenceLength r.base A r.sender.outstandingSegments
      currentRTO := r.sender.initialRTOms
      consecutiveRetransCount := 0
      timerRunning :=
        !(unacked TCPSenderMessage.sequenceLength r.base A r.sender.outstandingSegments).isEmpty
      timerElapsed :=
        if (unacked TCPSenderMessage.sequenceLength r.base A
          r.sender.outstandingSegments).isEmpty then r.sender.timerElapsed else 0 } := by
  have hlast := h.position_lastAckno
  have hnext := h.offset_nextSeqno
  have hbase := h.base_le
  have hcons := h.consumed_le
  have hpos := h.position_ofPos hle (by omega)
  -- the segments that the code keeps are those that are not covered
  have hkept : r.sender.kept (A % 2 ^ 32)
      = unacked TCPSenderMessage.sequenceLength r.base A r.sender.outstandingSegments := by
    rcases hcycle with heq | hsame | ⟨hacked, hfirst⟩
    · omega
    · exact h.kept_eq hlt.le hle hsame
    · rw [h.kept_eq_self (by omega) hfirst, unacked_eq_self h.length_pos hfirst]
  -- the offsets that the code compares are in the order of the positions
  have hnew : r.acked % 2 ^ 32 < A % 2 ^ 32 ∧ A % 2 ^ 32 ≤ r.consumed % 2 ^ 32 := by
    rcases hcycle with heq | hsame | ⟨hacked, hfirst⟩ <;> omega
  have hcase := receive_cases h.tiling.length_lt msg
  generalize r.sender.receive msg = s' at hcase
  cases hcase with
  | reset htrue => rw [hrst] at htrue; cases htrue
  | ignored _ hbeyond =>
    have := hbeyond _ hack
    omega
  | old _ ha hvalid hold =>
    rw [hack, Option.some_inj] at ha
    subst ha
    omega
  | new _ ha hvalid _ =>
    rw [hack, Option.some_inj] at ha
    subst ha
    rw [hpos, hkept]

end Acking

/-- What a call of `receive` does, in terms of the exact counts, when the condition is met. -/
inductive AckCase (r : SenderRun) (msg : TCPReceiverMessage) : TCPSender → Prop where
  | reset (hrst : msg.RST = true) :
      AckCase r msg { r.sender with input := r.sender.input.setError }
  | window (hrst : msg.RST = false) (hsame : r.ackedAfter msg = r.acked) :
      AckCase r msg { r.sender with windowSize := msg.windowSize }
  | advance {A : ℕ} (hrst : msg.RST = false)
      (hack : msg.ackno = some (Wrap32.ofPos A r.sender.isn)) (hlt : r.acked < A)
      (hle : A ≤ r.consumed) (hafter : r.ackedAfter msg = A)
      {left : List TCPSenderMessage}
      (hleft : left = unacked TCPSenderMessage.sequenceLength r.base A
        r.sender.outstandingSegments) :
      AckCase r msg { r.sender with
        windowSize := msg.windowSize
        lastAckno := Wrap32.ofPos A r.sender.isn
        outstandingSegments := left
        currentRTO := r.sender.initialRTOms
        consecutiveRetransCount := 0
        timerRunning := !left.isEmpty
        timerElapsed := if left.isEmpty then r.sender.timerElapsed else 0 }

/-- An acknowledgment within the cycle is old, impossible, or takes segments from the front. -/
theorem Acking.ack_cases (h : r.Acking isn rto) {msg : TCPReceiverMessage}
    (hcycle : r.AcksInCycle (.receive msg)) : AckCase r msg (r.sender.receive msg) := by
  have hbase := h.base_le
  have hcons := h.consumed_le
  cases hrst : msg.RST with
  | true =>
    have : r.sender.receive msg = { r.sender with input := r.sender.input.setError } := by
      rw [TCPSender.receive, if_pos hrst]
    rw [this]
    exact .reset hrst
  | false =>
    cases hack : msg.ackno with
    | none =>
      have : r.sender.receive msg = { r.sender with windowSize := msg.windowSize } := by
        simp [TCPSender.receive, hrst, hack]
      rw [this]
      exact .window hrst (by simp [ackedAfter, hrst, hack])
    | some a =>
      -- a number that stands for no position in flight is no news
      cases hexact : exactAck r.sender.isn r.acked r.consumed a with
      | none =>
        rw [h.receive_outside hrst hack hexact]
        exact .window hrst (by simp [ackedAfter, hrst, hack, hexact])
      | some A =>
        have hafter : r.ackedAfter msg = A := by simp [ackedAfter, hrst, hack, hexact]
        obtain ⟨hlo, hhi, rfl⟩ := (exactAck_eq_some (by omega)).mp hexact
        rcases hlo.eq_or_lt with rfl | hlt
        · rw [h.receive_acked hrst hack]
          exact .window hrst hafter
        · rw [h.receive_new hrst hack hlt hhi (hcycle hrst _ hack A hexact)]
          exact .advance hrst hack hlt hhi hafter rfl

/-- The absolute ackno that stands for an exact position, in the first half cycle. -/
theorem absAckno_eq {msg : TCPReceiverMessage} {A : ℕ} (hlt : r.consumed < 2 ^ 31)
    (hack : msg.ackno = some (Wrap32.ofPos A r.sender.isn)) (hle : A ≤ r.consumed) :
    r.absAckno msg = A := by
  have hcons : (UInt64.ofNat r.consumed).toNat = r.consumed := toNat_ofNat_of_lt (by omega)
  rw [absAckno, hack]
  exact Wrap32.unwrap_ofPos_of_near (by omega) (by omega) (by omega)

/-! ### Runs -/

/-- What an acknowledgment of new data leaves outstanding. -/
theorem Acking.advance (h : r.Acking isn rto) {A : ℕ} (hlt : r.acked < A)
    {left : List TCPSenderMessage}
    (hleft : left = unacked TCPSenderMessage.sequenceLength r.base A
      r.sender.outstandingSegments) :
    left <:+ r.sender.outstandingSegments ∧ r.consumed ≤ A + seqnos left ∧
      (∀ m ∈ left.head?, A + seqnos left < r.consumed + m.sequenceLength) ∧
      seqnos left ≤ seqnos r.sender.outstandingSegments := by
  have hbase := h.base_le
  obtain ⟨done, hl, hdone, hhead⟩ := unacked_spec h.length_pos (show r.base ≤ A by omega)
  rw [← hleft] at hl hhead
  have hend : r.base + seqnos done ≤ A := hdone
  have hadd := h.base_add
  have hsum : seqnos r.sender.outstandingSegments = seqnos done + seqnos left := by
    conv_lhs => rw [hl]
    exact seqnos_append done left
  refine ⟨⟨done, hl.symm⟩, by omega, ?_, by omega⟩
  intro m hm
  have hfirst : A < r.base + seqnos done + m.sequenceLength := hhead m hm
  omega

/-- **Step.** Every operation keeps the invariant, `receive` under the condition. -/
theorem Acking.step (h : r.Acking isn rto) (op : SenderOp) (hcycle : r.AcksInCycle op) :
    (r.step op).Acking isn rto := by
  have htiled := h.toTiled.step op
  have hu := h.unacknowledged
  cases op with
  | write | close | setError => exact ⟨htiled, { hu with }, h.inFlight_le⟩
  | push =>
    obtain ⟨hu', hin⟩ := hu.push h.tiling h.inFlight_le
    exact ⟨htiled, hu', hin⟩
  | tick ms =>
    obtain ⟨out, s', heq, hcase⟩ := tick_cases r.sender ms
    have hs' : (r.step (.tick ms)).sender = s' := by rw [SenderRun.step, heq]
    refine ⟨htiled, ?_, ?_⟩
    · show Unacknowledged (r.step (.tick ms)).sender r.sent r.acked
      rw [hs']
      cases hcase <;> exact { hu with }
    · rw [hs']
      cases hcase <;> exact h.inFlight_le
  | receive msg =>
    have hcase := h.ack_cases hcycle
    -- sender and history move together, in each of the cases
    suffices hsuff : Unacknowledged (r.sender.receive msg) r.sent (r.ackedAfter msg) ∧
        seqnos (r.sender.receive msg).outstandingSegments ≤ 65535 from ⟨htiled, hsuff.1, hsuff.2⟩
    generalize r.sender.receive msg = s' at hcase
    cases hcase with
    | reset hrst =>
      have hsame : r.ackedAfter msg = r.acked := by rw [ackedAfter, if_pos hrst]
      rw [hsame]
      exact ⟨{ hu with }, h.inFlight_le⟩
    | window hrst hsame =>
      rw [hsame]
      exact ⟨{ hu with }, h.inFlight_le⟩
    | advance hrst hack hlt hle hafter hleft =>
      obtain ⟨hsuffix, hfirst, hhead, hlen⟩ := h.advance hlt hleft
      rw [hafter]
      refine ⟨⟨hsuffix.trans hu.suffix, hfirst, hhead, hle, rfl, ?_⟩, le_trans hlen h.inFlight_le⟩
      simp

/-- Only a received message moves the start of the oldest outstanding segment, or the window. -/
theorem Acking.base_step (h : r.Acking isn rto) {op : SenderOp} (hop : ∀ msg, op ≠ .receive msg) :
    (r.step op).base = r.base ∧ (r.step op).sender.windowSize = r.sender.windowSize := by
  cases op with
  | write | close | setError => exact ⟨rfl, rfl⟩
  | push =>
    obtain ⟨ms, s', heq, hcase⟩ := push_cases h.tiling.wf h.tiling.nextSeqno_of_not_syn
    simp only [SenderRun.step, base, consumed, heq]
    cases hcase with
    | reset | full => simp
    | @syn m _ _ _ hemit =>
      have hfilter : [m].filter (fun m => ¬ m.RST) = [m] := (Emitted.cons hemit (.nil s')).filter_eq
      rw [hfilter, hemit.outstanding_eq, seqnos_append, seqnos_append, hemit.windowSize_eq]
      exact ⟨Nat.add_sub_add_right _ _ _, rfl⟩
    | segments _ _ hemit =>
      rw [hemit.filter_eq, hemit.outstanding_eq, seqnos_append, seqnos_append,
        hemit.const (·.windowSize) fun _ _ _ hm => hm.windowSize_eq]
      exact ⟨Nat.add_sub_add_right _ _ _, rfl⟩
  | tick ms =>
    obtain ⟨out, s', heq, hcase⟩ := tick_cases r.sender ms
    simp only [SenderRun.step, base, consumed, heq]
    cases hcase <;> exact ⟨rfl, rfl⟩
  | receive msg => exact absurd rfl (hop msg)

/-- Nothing was sent. -/
theorem acking_start {capacity : UInt64} {input : ByteStream}
    (h : ByteStream.new capacity = .ok input) (isn : Wrap32) (rto : UInt64) :
    (start input isn rto).Acking isn rto := by
  refine ⟨tiled_of h isn rto [], ?_, ?_⟩
  · constructor <;> simp [start, TCPSender.new]
  · simp [start, TCPSender.new]

/-- **Runs of any length** whose acknowledgments meet the condition. -/
theorem acking_of_meets {capacity : UInt64} {input : ByteStream}
    (h : ByteStream.new capacity = .ok input) {isn : Wrap32} {rto : UInt64}
    {ops : List SenderOp} (hrun : Machine.Meets step AcksInCycle (start input isn rto) ops) :
    (SenderRun.of input isn rto ops).Acking isn rto :=
  hrun.invariant (fun _ op ha hc => ha.step op hc) (acking_start h isn rto)

/-- In the first cycle every acknowledgment meets the condition. -/
theorem Acking.acksInCycle_of_lt (h : r.Acking isn rto) (hlt : r.consumed < 2 ^ 32)
    (op : SenderOp) : r.AcksInCycle op := by
  cases op with
  | receive msg =>
    intro _ a _ A _
    have hbase := h.base_add
    exact .inr (.inl (by omega))
  | write | close | setError | push | tick => trivial

/-- **Runs in the first cycle.** -/
theorem acking_of_lt {capacity : UInt64} {input : ByteStream}
    (h : ByteStream.new capacity = .ok input) {isn : Wrap32} {rto : UInt64}
    {ops : List SenderOp} (hlt : (SenderRun.of input isn rto ops).consumed < 2 ^ 32) :
    (SenderRun.of input isn rto ops).Acking isn rto := by
  refine Machine.run_invariant_of_bound (fun r => r.consumed < 2 ^ 32) ?_ ?_
    (acking_start h isn rto) ops hlt
  · exact fun r op hend => lt_of_le_of_lt (r.consumed_le_step op) hend
  · intro r op ha hend
    have hle := r.consumed_le_step op
    exact ha.step op (ha.acksInCycle_of_lt (by omega) op)

end SenderRun

end Minnow
