import Minnow.SenderAck

namespace Minnow

/-!
# Acknowledgment processing at any stream length

`AckProcessed` says what `receive` should do with an acknowledgment of an exact position.
`ack_processed_iff` — it does so exactly under `AckInCycle`, in every run whose acknowledgments
so far met that condition.

The condition is always met in the first cycle.  Once more than `2^32` sequence numbers are
consumed it fails when the flight straddles a multiple of `2^32`, because the next sequence
number is unwrapped against checkpoint 0: `ack_across_cycle_not_processed` is such a run.
-/

open TCPSender SlidingWindow

namespace SenderRun

variable {isn : Wrap32} {rto : UInt64} {k : ℕ} {r : SenderRun}

/-- The call of `receive` with a message that acknowledges position `A` does what the exact
    counts ask for: it removes exactly the segments that end at or before `A`, and keeps the
    others in order; when `A` is new, it records `A`, resets RTO and retry count, and leaves the
    timer running iff a segment remains. -/
structure AckProcessed (r : SenderRun) (msg : TCPReceiverMessage) (A : ℕ) : Prop where
  removed : (r.sender.receive msg).outstandingSegments
    = ((ends TCPSenderMessage.sequenceLength r.base r.sender.outstandingSegments).filter
        fun segment => A < segment.2).map Prod.fst
  recorded : r.acked < A → (r.sender.receive msg).lastAckno = Wrap32.ofPos A r.sender.isn
  rto_reset : r.acked < A → (r.sender.receive msg).currentRTO = r.sender.initialRTOms
  count_reset : r.acked < A → (r.sender.receive msg).consecutiveRetransCount = 0
  timer : r.acked < A → ((r.sender.receive msg).timerRunning = true ↔
    (r.sender.receive msg).outstandingSegments ≠ [])

/-- Under the condition the acknowledgment is processed. -/
theorem Acking.ackProcessed (h : r.Acking isn rto) {msg : TCPReceiverMessage}
    (hrst : msg.RST = false) {A : ℕ} (hack : msg.ackno = some (Wrap32.ofPos A r.sender.isn))
    (hlo : r.acked ≤ A) (hhi : A ≤ r.consumed) (hcycle : r.AckInCycle A) :
    r.AckProcessed msg A := by
  rcases hlo.eq_or_lt with rfl | hlt
  · have hsame := h.receive_acked hrst hack
    have hself := unacked_eq_self h.length_pos h.acked_lt
    constructor
    case removed =>
      rw [hsame]
      exact hself.symm
    all_goals exact fun hlt => absurd hlt (lt_irrefl _)
  · have hnew := h.receive_new hrst hack hlt hhi hcycle
    constructor
    case removed => rw [hnew]; rfl
    case timer => simp [hnew]
    all_goals intro _; rw [hnew]

/-- An outstanding segment that the acknowledgment covers but that starts in the previous cycle
    is kept, although it should be removed. -/
theorem Acking.kept_ne (h : r.Acking isn rto) {A : ℕ} (hhi : A ≤ r.consumed)
    (hcycle : A / 2 ^ 32 = r.consumed / 2 ^ 32)
    (hbefore : r.base / 2 ^ 32 ≠ r.consumed / 2 ^ 32) {m : TCPSenderMessage}
    (hm : m ∈ r.sender.outstandingSegments.head?) (hcovered : r.base + m.sequenceLength ≤ A) :
    r.sender.kept (A % 2 ^ 32)
      ≠ unacked TCPSenderMessage.sequenceLength r.base A r.sender.outstandingSegments := by
  obtain ⟨l, hl⟩ := List.head?_eq_some_iff.mp hm
  have hcons := h.consumed_le
  have hadd := h.base_add
  have hpos : r.sender.position m.seqno = r.base % 2 ^ 32 := by
    have htiles := h.tiles_outstanding
    rw [hl] at htiles
    rw [show m.seqno = _ from htiles.1, h.position_ofPos (by omega) (by omega)]
  have hkept : m ∈ r.sender.kept (A % 2 ^ 32) := by
    rw [kept, List.mem_filter, decide_eq_true_iff, hpos]
    refine ⟨by rw [hl]; exact List.mem_cons_self, ?_⟩
    omega
  -- but all that is to stay ends behind the acknowledgment
  intro heq
  rw [heq, unacked, List.mem_map] at hkept
  obtain ⟨p, hp, rfl⟩ := hkept
  obtain ⟨hends, hlt⟩ := List.mem_filter.mp hp
  obtain ⟨q, hq, hend, hge, hle⟩ := h.position_of_mem_ends hends
  have hbeyond : A < p.2 := by simpa using hlt
  omega

/-- **Exactly under the condition** is the acknowledgment processed. -/
theorem Acking.ackProcessed_iff (h : r.Acking isn rto) {msg : TCPReceiverMessage}
    (hrst : msg.RST = false) {A : ℕ} (hack : msg.ackno = some (Wrap32.ofPos A r.sender.isn))
    (hlo : r.acked ≤ A) (hhi : A ≤ r.consumed) : r.AckProcessed msg A ↔ r.AckInCycle A := by
  refine ⟨fun hdone => ?_, h.ackProcessed hrst hack hlo hhi⟩
  by_contra hcycle
  simp only [AckInCycle, not_or, not_and] at hcycle
  obtain ⟨hne, hbefore, hfirst⟩ := hcycle
  have hlt : r.acked < A := by omega
  have hlast := h.position_lastAckno
  have hnext := h.offset_nextSeqno
  have hbase := h.base_le
  have hcons := h.consumed_le
  have hpos := h.position_ofPos hhi (by omega)
  have hremoved := hdone.removed
  have hrecorded := hdone.recorded hlt
  -- an ackno that is not recorded leaves the last one, which stands for another position
  have hstale : r.sender.lastAckno ≠ Wrap32.ofPos A r.sender.isn := by
    rw [h.unacknowledged.lastAckno_eq, Ne, Wrap32.ofPos_inj]
    omega
  have hcase := receive_cases h.tiling.length_lt msg
  generalize r.sender.receive msg = s' at hcase hremoved hrecorded
  cases hcase with
  | reset htrue => rw [hrst] at htrue; cases htrue
  | ignored _ _ => exact hstale hrecorded
  | old _ _ _ _ => exact hstale hrecorded
  | new _ ha hvalid hnew =>
    rw [hack, Option.some_inj] at ha
    subst ha
    rw [hpos] at hvalid hnew hremoved
    have hcycle : r.acked / 2 ^ 32 = r.consumed / 2 ^ 32 := by omega
    obtain ⟨m, hm, hcovered⟩ : ∃ m ∈ r.sender.outstandingSegments.head?,
        r.base + m.sequenceLength ≤ A := by
      simpa using hfirst hcycle
    exact h.kept_ne hhi (by omega) hbefore hm hcovered hremoved

/-- **Acknowledgments over runs of any length.** In a run whose acknowledgments so far met the
    condition, the next one in range is processed as the exact counts ask for iff it meets the
    condition too.  The first part says that `base` is the exact position where the outstanding
    segments start. -/
theorem ack_processed_iff {capacity : UInt64} {input : ByteStream}
    (h : ByteStream.new capacity = .ok input) {isn : Wrap32} {rto : UInt64}
    {ops : List SenderOp} (hrun : Machine.Meets step AcksInCycle (start input isn rto) ops)
    {msg : TCPReceiverMessage} (hrst : msg.RST = false) {A : ℕ}
    (hack : msg.ackno = some (Wrap32.wrap (UInt64.ofNat A) isn))
    (hlo : (SenderRun.of input isn rto ops).acked ≤ A)
    (hhi : A ≤ (SenderRun.of input isn rto ops).consumed) :
    (∃ done, (SenderRun.of input isn rto ops).sent
        = done ++ (SenderRun.of input isn rto ops).sender.outstandingSegments ∧
      (SenderRun.of input isn rto ops).base = seqnos done) ∧
    ((SenderRun.of input isn rto ops).AckProcessed msg A ↔
      (SenderRun.of input isn rto ops).AckInCycle A) := by
  have ha := acking_of_meets h hrun
  generalize SenderRun.of input isn rto ops = r at ha hlo hhi
  rw [Wrap32.wrap_ofNat, ← ha.isn_eq] at hack
  refine ⟨?_, ha.ackProcessed_iff hrst hack hlo hhi⟩
  obtain ⟨done, hdone⟩ := ha.unacknowledged.suffix
  refine ⟨done, hdone.symm, ?_⟩
  rw [base, consumed, ← hdone, seqnos_append]
  omega

theorem ack_processed_iff_syn :
    (SenderRun.of (ByteStream.empty 4) ⟨7⟩ 1000 [.push]).consumed = 1 ∧
      ((∃ done, (SenderRun.of (ByteStream.empty 4) ⟨7⟩ 1000 [.push]).sent
          = done ++
            (SenderRun.of (ByteStream.empty 4) ⟨7⟩ 1000 [.push]).sender.outstandingSegments ∧
        (SenderRun.of (ByteStream.empty 4) ⟨7⟩ 1000 [.push]).base = seqnos done) ∧
      ((SenderRun.of (ByteStream.empty 4) ⟨7⟩ 1000 [.push]).AckProcessed
          { ackno := some (Wrap32.wrap (UInt64.ofNat 1) ⟨7⟩), windowSize := 10 } 1 ↔
        (SenderRun.of (ByteStream.empty 4) ⟨7⟩ 1000 [.push]).AckInCycle 1)) := by
  have h : ByteStream.new 4 = .ok (.empty 4) := ByteStream.new_eq_ok (by decide)
  have hrun : Machine.Meets step AcksInCycle (start (.empty 4) ⟨7⟩ 1000) [.push] :=
    ⟨trivial, trivial⟩
  exact ⟨rfl, ack_processed_iff h hrun rfl rfl (by decide) (by decide)⟩

/-! ### Acknowledgments without news -/

/-- An ackno that is repeated, outdated or beyond what was sent, or no ackno at all, changes the
    window only. -/
theorem Acking.receive_of_no_news (h : r.Acking isn rto) (hlt : r.consumed < 2 ^ 31)
    {msg : TCPReceiverMessage} (hrst : msg.RST = false)
    (hnews : r.absAckno msg ≤ r.acked ∨ r.consumed < r.absAckno msg) :
    r.sender.receive msg = { r.sender with windowSize := msg.windowSize } := by
  have hbase := h.base_le
  have hcons := h.consumed_le
  cases hack : msg.ackno with
  | none => simp [TCPSender.receive, hrst, hack]
  | some a =>
    cases hexact : exactAck r.sender.isn r.acked r.consumed a with
    | none => exact h.receive_outside hrst hack hexact
    | some A =>
      -- in flight there is only the last acknowledgment itself
      obtain ⟨hlo, hhi, rfl⟩ := (exactAck_eq_some (by omega)).mp hexact
      have habs := absAckno_eq hlt hack hhi
      obtain rfl : r.acked = A := by omega
      exact h.receive_acked hrst hack

/-- **Repeated, outdated and impossible acknowledgments.** In the first half cycle, a message that
    is no reset and whose absolute ackno is not beyond the largest one accepted, or beyond the
    sequence numbers sent, or absent, leaves all of the sender as it is but for the window. -/
theorem receive_without_news {capacity : UInt64} {input : ByteStream}
    (h : ByteStream.new capacity = .ok input) {isn : Wrap32} {rto : UInt64}
    {ops : List SenderOp} (hlt : (SenderRun.of input isn rto ops).consumed < 2 ^ 31)
    {msg : TCPReceiverMessage} (hrst : msg.RST = false)
    (hnews : msg.ackno = none ∨
      (SenderRun.of input isn rto ops).absAckno msg
        ≤ (SenderRun.of input isn rto ops).acked ∨
      (SenderRun.of input isn rto ops).consumed
        < (SenderRun.of input isn rto ops).absAckno msg) :
    (SenderRun.of input isn rto ops).sender.receive msg
      = { (SenderRun.of input isn rto ops).sender with windowSize := msg.windowSize } := by
  have ha : (SenderRun.of input isn rto ops).Acking isn rto := acking_of_lt h (by omega)
  generalize SenderRun.of input isn rto ops = r at ha hlt hnews
  apply ha.receive_of_no_news hlt hrst
  rcases hnews with hnone | hnews
  · left
    simp [absAckno, hnone]
  · exact hnews

/-- The acknowledgment of the SYN, repeated with a byte in flight. -/
theorem receive_without_news_repeated :
    (SenderRun.of (ByteStream.empty 4) ⟨7⟩ 1000
        [.push, .receive { ackno := some ⟨8⟩, windowSize := 9 }, .write [1], .push]).sender.receive
          { ackno := some ⟨8⟩, windowSize := 3 }
      = { (SenderRun.of (ByteStream.empty 4) ⟨7⟩ 1000
        [.push, .receive { ackno := some ⟨8⟩, windowSize := 9 }, .write [1], .push]).sender with
          windowSize := 3 } :=
  receive_without_news (ByteStream.new_eq_ok (by decide)) (by decide) rfl (by decide)

/-! ### A run past the first cycle -/

/-- The bytes of one round. -/
def block : Bytes := List.replicate 1000 0

theorem length_block : block.length = 1000 := List.length_replicate

/-- The acknowledgment of the SYN and `k` blocks. -/
def ackOf (isn : Wrap32) (k : ℕ) : TCPReceiverMessage :=
  { ackno := some (Wrap32.wrap (UInt64.ofNat (1 + 1000 * k)) isn), windowSize := 65535 }

/-- Round `k` of the run: a block is written, sent and acknowledged. -/
def ackRound (isn : Wrap32) (k : ℕ) : List SenderOp :=
  [.write block, .push, .receive (ackOf isn (k + 1))]

/-- The SYN is sent and acknowledged, and `k` rounds follow. -/
def rounds (isn : Wrap32) (k : ℕ) : List SenderOp :=
  [.push, .receive (ackOf isn 0)] ++ (List.range k).flatMap (ackRound isn)

/-- After so many rounds that the next one crosses `2^32`, one more block is written and sent. -/
def acrossCycle (isn : Wrap32) : List SenderOp := rounds isn 4294967 ++ [.write block, .push]

/-- A sender with nothing in flight and an open stream that fits into the window sends all of
    it. -/
theorem Acking.push_drains (h : r.Acking isn rto) (hsyn : r.sender.senderSyn = true)
    (herr : r.sender.input.error = false) (heof : r.sender.input.eof = false)
    (hidle : r.sender.outstandingSegments = [])
    (hfit : r.sender.input.contents.length < r.sender.effectiveWindow) :
    (r.step .push).sender.input.contents = [] ∧
      (r.step .push).consumed = r.consumed + r.sender.input.contents.length ∧
      (r.step .push).sender.senderSyn = true ∧
      ((r.step .push).sender.input.capacity = r.sender.input.capacity ∧
        (r.step .push).sender.input.eof = r.sender.input.eof ∧
        (r.step .push).sender.input.error = r.sender.input.error) ∧
      (r.step .push).sender.windowSize = r.sender.windowSize := by
  have ht := h.tiling
  have ht' := ht.push
  have hflight : r.sender.sequenceNumbersInFlight = 0 := ht.inFlight_eq_zero_iff.mpr hidle
  obtain ⟨ms, s', heq, hcase⟩ := push_cases ht.wf ht.nextSeqno_of_not_syn
  simp only [SenderRun.step, consumed, heq] at ht' ⊢
  cases hcase with
  | reset htrue => rw [herr] at htrue; cases htrue
  | syn _ hfalse => rw [hsyn] at hfalse; cases hfalse
  | full _ _ hfull => omega
  | segments _ _ hemit hroom hstop =>
    rw [hemit.filter_eq] at ht' ⊢
    have heof' : s'.input.eof = r.sender.input.eof :=
      hemit.const (·.input.eof) fun _ _ _ hm => hm.read.eof_eq
    have hsyn' := hemit.senderSyn_eq hsyn
    have hseq := ht.seqnos_eq
    have hseq' := ht'.seqnos_eq
    have hlen := congrArg List.length ht.accepted_eq
    have hlen' := congrArg List.length ht'.accepted_eq
    rw [List.length_append] at hlen hlen'
    rw [hsyn, ht.finSent_eq_false (.inl heof)] at hseq
    rw [hsyn', ht'.finSent_eq_false (.inl (heof'.trans heof)), seqnos_append] at hseq'
    simp only [Bool.toNat_true, Bool.toNat_false] at hseq hseq'
    -- the loop stops at a full window or at an empty stream, and the window is not full
    have hnil : s'.input.contents = [] := by
      rcases hstop with hfull | ⟨hnil, -⟩
      · omega
      · exact hnil
    rw [hnil, List.length_nil] at hlen'
    refine ⟨hnil, ?_, hsyn', ⟨?_, heof', ?_⟩, ?_⟩
    · rw [seqnos_append]
      omega
    · exact hemit.const (·.input.capacity) fun _ _ _ hm => hm.read.capacity_eq
    · exact hemit.const (·.input.error) fun _ _ _ hm => hm.read.error_eq
    · exact hemit.const (·.windowSize) fun _ _ _ hm => hm.windowSize_eq

/-- The SYN and `k` blocks are sent, and nothing is queued. -/
structure Drained (isn : Wrap32) (rto : UInt64) (k : ℕ) (r : SenderRun) : Prop
    extends Acking isn rto r where
  senderSyn : r.sender.senderSyn = true
  contents_eq : r.sender.input.contents = []
  capacity_eq : r.sender.input.capacity = 1000
  eof_eq : r.sender.input.eof = false
  error_eq : r.sender.input.error = false
  consumed_eq : r.consumed = 1 + 1000 * k

/-- All of them are acknowledged, too. -/
structure Idle (isn : Wrap32) (rto : UInt64) (k : ℕ) (r : SenderRun) : Prop
    extends Drained isn rto k r where
  outstanding_eq : r.sender.outstandingSegments = []
  window_eq : r.sender.windowSize = 65535

namespace Drained

/-- The bytes of one more round fit into the stream. -/
theorem write (h : Drained isn rto k r) :
    (r.sender.input.push block).contents = block ∧ r.sender.input.accepted block = block := by
  have hlen := ByteStream.length_contents h.tiling.wf
  have hcap : (1000 : UInt64).toNat = 1000 := rfl
  rw [h.contents_eq, h.capacity_eq, hcap, List.length_nil, zero_add] at hlen
  have hacc : r.sender.input.accepted block = block := by
    rw [ByteStream.accepted, h.eof_eq, hlen, if_neg (by simp),
      List.take_of_length_le length_block.le]
  have hspec := (ByteStream.push_spec h.tiling.wf block).2.1
  rw [hacc, h.contents_eq, List.nil_append] at hspec
  exact ⟨hspec, hacc⟩

/-- One more round is written and sent: its bytes fit into the window too. -/
theorem send (h : Idle isn rto k r) :
    Drained isn rto (k + 1) ((r.step (.write block)).step .push) ∧
      ((r.step (.write block)).step .push).acked = 1 + 1000 * k := by
  obtain ⟨hcont, -⟩ := h.write
  obtain ⟨-, -, hcap, heof, herr, -, -⟩ := ByteStream.push_spec h.tiling.wf block
  have hacked : r.acked = 1 + 1000 * k := by
    rw [h.unacknowledged.acked_eq h.outstanding_eq]
    exact h.consumed_eq
  have h₁ : (r.step (.write block)).Acking isn rto := h.toAcking.step _ trivial
  have hwin : (r.step (.write block)).sender.effectiveWindow = 65535 := by
    show max r.sender.windowSize.toNat 1 = 65535
    rw [h.window_eq]
    rfl
  -- a block is shorter than the window
  have hfit : (r.step (.write block)).sender.input.contents.length
      < (r.step (.write block)).sender.effectiveWindow := by
    have hlen : (r.step (.write block)).sender.input.contents.length = 1000 := by
      show (r.sender.input.push block).contents.length = 1000
      rw [hcont, length_block]
    omega
  obtain ⟨hempty, hcons, hsyn', hinput, -⟩ := h₁.push_drains h.senderSyn
    (herr.trans h.error_eq) (heof.trans h.eof_eq) h.outstanding_eq hfit
  obtain ⟨hcap', heof', herr'⟩ := hinput
  refine ⟨⟨h₁.step .push trivial, hsyn', hempty, ?_, ?_, ?_, ?_⟩, hacked⟩
  · rw [hcap']
    exact hcap.trans h.capacity_eq
  · rw [heof']
    exact heof.trans h.eof_eq
  · rw [herr']
    exact herr.trans h.error_eq
  · rw [hcons]
    show r.consumed + (r.sender.input.push block).contents.length = _
    rw [hcont, length_block, h.consumed_eq]
    omega

/-- In the first cycle the acknowledgment of everything sent leaves nothing outstanding. -/
theorem acknowledge (h : Drained isn rto k r) (hlt : 1 + 1000 * k < 2 ^ 32)
    (hacked : r.acked < 1 + 1000 * k) : Idle isn rto k (r.step (.receive (ackOf isn k))) := by
  have hbase := h.base_add
  have hcons := h.consumed_eq
  -- nothing was sent in a later cycle
  have hcycle : ∀ A, r.AckInCycle A := fun A => .inr (.inl (by omega))
  have hack : (ackOf isn k).ackno = some (Wrap32.ofPos (1 + 1000 * k) r.sender.isn) := by
    rw [ackOf, Wrap32.wrap_ofNat, h.isn_eq]
  have hnil : unacked TCPSenderMessage.sequenceLength r.base (1 + 1000 * k)
      r.sender.outstandingSegments = [] := by
    apply unacked_eq_nil
    show r.base + seqnos r.sender.outstandingSegments ≤ 1 + 1000 * k
    omega
  have hnew := h.receive_new rfl hack hacked (by omega) (hcycle _)
  rw [hnil] at hnew
  have hsender : (r.step (.receive (ackOf isn k))).sender = _ := hnew
  have hcons' := (consumed_receive r (ackOf isn k)).trans hcons
  refine ⟨⟨h.toAcking.step _ fun _ _ _ A _ => hcycle A, ?_, ?_, ?_, ?_, ?_, hcons'⟩, ?_, ?_⟩
  all_goals rw [hsender]
  · exact h.senderSyn
  · exact h.contents_eq
  · exact h.capacity_eq
  · exact h.eof_eq
  · exact h.error_eq
  · rfl

/-- **Round.** The sender is back in the same situation, 1000 sequence numbers on. -/
theorem round (h : Idle isn rto k r) (hlt : 1 + 1000 * (k + 1) < 2 ^ 32) :
    Idle isn rto (k + 1) (Machine.run step r (ackRound isn k)) := by
  obtain ⟨h', hacked⟩ := send h
  exact h'.acknowledge hlt (by omega)

end Drained

/-- The SYN, with nothing written yet. -/
theorem push_new {input : ByteStream} (hbuf : input.bytesBuffered = 0)
    (heof : input.eof = false) (herr : input.error = false) (isn : Wrap32) (rto : UInt64) :
    (TCPSender.new input isn rto).push = ({ TCPSender.new input isn rto with
      senderSyn := true
      nextSeqno := isn.add 1
      outstandingSegments := [{ SYN := true, seqno := isn }]
      timerRunning := true }, [{ SYN := true, seqno := isn }]) := by
  simp [TCPSender.push, TCPSender.new, ByteStream.hasError, herr, pushSyn, takePayload, hbuf,
    ByteStream.isFinished, heof, track, startTimer, TCPSenderMessage.sequenceLength]

/-- The SYN is out and acknowledged. -/
theorem idle_syn (isn : Wrap32) (rto : UInt64) :
    Idle isn rto 0 (Machine.run step (start (.empty 1000) isn rto) (rounds isn 0)) := by
  have h : ByteStream.new 1000 = .ok (.empty 1000) := ByteStream.new_eq_ok (by decide)
  obtain ⟨hwf, hcont, hcap, heof, herr, -, -⟩ := ByteStream.new_spec h
  have hpush := push_new ((ByteStream.bytesBuffered_eq_zero hwf).mpr hcont) heof herr isn rto
  have h₁ := (acking_start h isn rto).step .push trivial
  have hsyn : Drained isn rto 0 ((start (.empty 1000) isn rto).step .push) := by
    refine ⟨h₁, ?_, ?_, ?_, ?_, ?_, ?_⟩
    all_goals simp only [SenderRun.step, start, consumed, hpush]
    · exact hcont
    · exact hcap
    · exact heof
    · exact herr
    · rfl
  have hacked : ((start (.empty 1000) isn rto).step .push).acked = 0 := acked_push _
  exact hsyn.acknowledge (by norm_num) (by omega)

/-- After `k` rounds. -/
theorem idle_rounds (isn : Wrap32) (rto : UInt64) (hlt : 1 + 1000 * k < 2 ^ 32) :
    Idle isn rto k (Machine.run step (start (.empty 1000) isn rto) (rounds isn k)) := by
  induction k with
  | zero => exact idle_syn isn rto
  | succ k ih =>
    have h := ih (by omega)
    have hrounds : rounds isn (k + 1) = rounds isn k ++ ackRound isn k := by
      simp [rounds, List.range_succ]
    rw [hrounds, Machine.run_append]
    exact Drained.round h hlt

/-- **Past the first cycle.** The run is free of errors and acknowledges only what was sent;
    after it, an acknowledgment of all the sequence numbers sent, `4294968001` or `2^32 + 705`
    of them, is not processed. -/
theorem ack_across_cycle_not_processed :
    (SenderRun.of (.empty 1000) ⟨137⟩ 1000 (acrossCycle ⟨137⟩)).acked ≤ 4294968001 ∧
      (SenderRun.of (.empty 1000) ⟨137⟩ 1000 (acrossCycle ⟨137⟩)).consumed = 4294968001 ∧
      (SenderRun.of (.empty 1000) ⟨137⟩ 1000 (acrossCycle ⟨137⟩)).sender.input.error = false ∧
      ¬ (SenderRun.of (.empty 1000) ⟨137⟩ 1000 (acrossCycle ⟨137⟩)).AckProcessed
        { ackno := some (Wrap32.wrap (UInt64.ofNat 4294968001) ⟨137⟩), windowSize := 65535 }
        4294968001 := by
  have h := idle_rounds (k := 4294967) ⟨137⟩ 1000 (by norm_num)
  obtain ⟨h', hacked⟩ := Drained.send h
  rw [SenderRun.of, acrossCycle, Machine.run_append, Machine.run_cons, Machine.run_cons,
    Machine.run_nil]
  generalize Machine.run step (start (.empty 1000) ⟨137⟩ 1000) (rounds ⟨137⟩ 4294967) = r₀ at *
  generalize (r₀.step (.write block)).step .push = r at *
  have hcons : r.consumed = 4294968001 := h'.consumed_eq
  have hbase := h'.base_le
  have hle := h'.acked_le
  have hack : (some (Wrap32.wrap (UInt64.ofNat 4294968001) ⟨137⟩) : Option Wrap32)
      = some (Wrap32.ofPos 4294968001 r.sender.isn) := by
    rw [Wrap32.wrap_ofNat, h'.isn_eq]
  refine ⟨by omega, hcons, h'.error_eq, ?_⟩
  rw [h'.ackProcessed_iff rfl hack (by omega) (by omega)]
  simp only [AckInCycle, not_or, not_and]
  refine ⟨by omega, by omega, fun _ => by omega⟩

end SenderRun

end Minnow
