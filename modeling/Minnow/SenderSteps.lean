import Minnow.TCPSender
import Minnow.Library.SlidingWindow

namespace Minnow

/-!
# What one step of the sender can do

Each method of the sender gets one lemma that says everything a call can do; the invariants of
the later files are derived from these lemmas and never unfold the methods.

* `Emits` — the sender transmits one segment and remembers it.  Both places that build segments
  do exactly this (`emits_pushSyn`, `emits_nextSegment`);
* `push_cases` — `push` transmits a reset, the SYN segment, nothing, or a run of segments that
  stops when the window or the outbound stream is used up;
* `receive_cases`, `tick_cases`.
-/

namespace TCPSender

open SlidingWindow

/-- The number of sequence numbers a list of segments uses. -/
abbrev seqnos (l : List TCPSenderMessage) : ℕ := total TCPSenderMessage.sequenceLength l

/-- No segments, no sequence numbers. -/
theorem seqnos_nil : seqnos [] = 0 := total_nil _

/-- The first segment, and the others. -/
theorem seqnos_cons (m : TCPSenderMessage) (l : List TCPSenderMessage) :
    seqnos (m :: l) = m.sequenceLength + seqnos l := total_cons _ m l

/-- Some segments, and others behind them. -/
theorem seqnos_append (l l' : List TCPSenderMessage) :
    seqnos (l ++ l') = seqnos l + seqnos l' := total_append _ l l'

theorem seqnos_singleton (m : TCPSenderMessage) : seqnos [m] = m.sequenceLength := by
  simp

/-- Transmitting the segment `m` takes the sender from `s` to `s'`: its payload is read off the
    outbound stream, its FIN (if any) ends the stream, and it joins the outstanding segments
    under a running timer. -/
structure Emits (s : TCPSender) (m : TCPSenderMessage) (s' : TCPSender) : Prop where
  read : s.input.ReadFrom s'.input m.payload
  seqno_eq : m.seqno = s.nextSeqno
  nextSeqno_eq : s'.nextSeqno = s.nextSeqno.add (UInt32.ofNat m.sequenceLength)
  syn_eq : m.SYN = !s.senderSyn
  senderSyn_eq : s'.senderSyn = true
  fin : m.FIN = true → s.finSent = false ∧ s'.input.eof = true ∧ s'.input.contents = []
  finSent_eq : s'.finSent = (s.finSent || m.FIN)
  rst_eq : m.RST = false
  length_pos : 0 < m.sequenceLength
  payload_le : m.payload.length ≤ TCPConfig.maxPayloadSize
  outstanding_eq : s'.outstandingSegments = s.outstandingSegments ++ [m]
  timerRunning_eq : s'.timerRunning = true
  timerElapsed_eq : s'.timerElapsed = if s.timerRunning then s.timerElapsed else 0
  isn_eq : s'.isn = s.isn
  lastAckno_eq : s'.lastAckno = s.lastAckno
  initialRTOms_eq : s'.initialRTOms = s.initialRTOms
  currentRTO_eq : s'.currentRTO = s.currentRTO
  windowSize_eq : s'.windowSize = s.windowSize
  count_eq : s'.consecutiveRetransCount = s.consecutiveRetransCount

/-- Transmitting the segments of a list one after the other. -/
inductive Emitted : TCPSender → List TCPSenderMessage → TCPSender → Prop where
  | nil (s : TCPSender) : Emitted s [] s
  | cons {s s₁ s' : TCPSender} {m : TCPSenderMessage} {ms : List TCPSenderMessage} :
      Emits s m s₁ → Emitted s₁ ms s' → Emitted s (m :: ms) s'

/-- What holds of the sender and is kept by every segment transmitted is kept by a run of
    segments. -/
theorem Emitted.invariant {P : TCPSender → List TCPSenderMessage → Prop}
    (hstep : ∀ s m s' sent, P s sent → Emits s m s' → P s' (sent ++ [m])) {s s' : TCPSender}
    {ms : List TCPSenderMessage} (h : Emitted s ms s') :
    ∀ sent, P s sent → P s' (sent ++ ms) := by
  induction h with
  | nil => intro sent h0; simpa using h0
  | cons hm _ ih =>
    intro sent h0
    have := ih _ (hstep _ _ _ sent h0 hm)
    simpa using this

/-- What no segment changes is unchanged by a run of segments. -/
theorem Emitted.const {β : Type*} (f : TCPSender → β)
    (hf : ∀ s m s', Emits s m s' → f s' = f s) {s s' : TCPSender} {ms : List TCPSenderMessage}
    (h : Emitted s ms s') : f s' = f s := by
  induction h with
  | nil => rfl
  | cons hm _ ih => rw [ih, hf _ _ _ hm]

/-- The SYN once sent stays sent. -/
theorem Emitted.senderSyn_eq {s s' : TCPSender} {ms : List TCPSenderMessage}
    (h : Emitted s ms s') (hsyn : s.senderSyn = true) : s'.senderSyn = true :=
  h.invariant (P := fun s _ => s.senderSyn = true) (fun _ _ _ _ _ hm => hm.senderSyn_eq) [] hsyn

/-- A run of segments joins the outstanding ones. -/
theorem Emitted.outstanding_eq {s s' : TCPSender} {ms : List TCPSenderMessage}
    (h : Emitted s ms s') : s'.outstandingSegments = s.outstandingSegments ++ ms := by
  induction h with
  | nil => simp
  | cons hm _ ih => rw [ih, hm.outstanding_eq, List.append_assoc, List.singleton_append]

/-- The timer runs after a run of segments, from the first one on if it did not run before. -/
theorem Emitted.timer_eq {s s' : TCPSender} {ms : List TCPSenderMessage} (h : Emitted s ms s') :
    s'.timerElapsed = if s.timerRunning = true ∨ ms = [] then s.timerElapsed else 0 := by
  induction h with
  | nil => simp
  | @cons s s₁ s' m ms hm _ ih =>
    rw [ih, if_pos (.inl hm.timerRunning_eq), hm.timerElapsed_eq]
    cases s.timerRunning <;> rfl

/-- None of them is a reset. -/
theorem Emitted.filter_eq {s s' : TCPSender} {ms : List TCPSenderMessage} (h : Emitted s ms s') :
    ms.filter (fun m => ¬ m.RST) = ms := by
  induction h with
  | nil => rfl
  | cons hm _ ih => rw [List.filter_cons, if_pos (by simp [hm.rst_eq]), ih]

/-- Before the SYN is sent nothing is outstanding, so the guard in the code makes no
    difference there. -/
theorem sequenceNumbersInFlight_eq {s : TCPSender}
    (h : s.senderSyn = false → s.outstandingSegments = []) :
    s.sequenceNumbersInFlight = seqnos s.outstandingSegments := by
  unfold sequenceNumbersInFlight
  cases hsyn : s.senderSyn with
  | false => simp [h hsyn]
  | true => simp [seqnos, total]

/-! ### Building one segment -/

/-- The payload of a segment is what the payload limit and the window leave of the queue. -/
theorem takePayload_spec {input : ByteStream} (h : input.WF) (window : ℕ) :
    ∃ payload input' sent, takePayload input window = (payload, input', sent) ∧
      payload = input.contents.take (min TCPConfig.maxPayloadSize window) ∧
      input.ReadFrom input' payload ∧ (sent = true ↔ payload ≠ []) ∧
      (sent = false → input' = input) := by
  have hbuf := ByteStream.toNat_bytesBuffered h
  have hlim : TCPConfig.maxPayloadSize = 1000 := rfl
  unfold takePayload
  by_cases hcond : input.bytesBuffered > 0 ∧ window > 0
  · obtain ⟨hpos, hwin⟩ := hcond
    rw [gt_iff_lt, UInt64.lt_iff_toNat_lt, hbuf, UInt64.toNat_zero] at hpos
    set n := min TCPConfig.maxPayloadSize (min window input.bytesBuffered.toNat) with hn
    have hn0 : n > 0 := by omega
    have hn' : (UInt64.ofNat n).toNat = n := toNat_ofNat_of_lt (by omega)
    obtain ⟨hout, hread⟩ := ByteStream.readBytes_spec h (UInt64.ofNat n)
    -- the queue is the third limit of the payload, beside the two in the statement
    have htake : input.contents.take n
        = input.contents.take (min TCPConfig.maxPayloadSize window) := by
      rw [List.take_eq_take_iff]
      omega
    rw [hn', htake] at hout hread
    refine ⟨_, _, true, ?_, hout, by rw [hout]; exact hread, ?_, by simp⟩
    · rw [if_pos ⟨by rw [gt_iff_lt, UInt64.lt_iff_toNat_lt, hbuf]; exact hpos, hwin⟩, if_pos hn0]
    · rw [hout]
      simp only [true_iff, ne_eq, List.take_eq_nil_iff, not_or]
      exact ⟨by omega, List.ne_nil_of_length_pos hpos⟩
  · have hnil : input.contents.take (min TCPConfig.maxPayloadSize window) = [] := by
      rw [List.take_eq_nil_iff]
      by_contra hne
      rw [not_or] at hne
      refine hcond ⟨?_, by omega⟩
      rw [gt_iff_lt, UInt64.lt_iff_toNat_lt, hbuf]
      exact List.length_pos_of_ne_nil hne.2
    rw [if_neg hcond]
    exact ⟨[], input, false, rfl, hnil.symm, ByteStream.ReadFrom.refl h, by simp, fun _ => rfl⟩

/-- `track` appends the segment and makes sure that the timer runs. -/
theorem track_eq (s : TCPSender) (m : TCPSenderMessage) :
    s.track m = { s with
      outstandingSegments := s.outstandingSegments ++ [m]
      timerRunning := true
      timerElapsed := if s.timerRunning then s.timerElapsed else 0 } := by
  simp only [track, startTimer]
  cases s.timerRunning <;> rfl

/-- The SYN segment. -/
theorem emits_pushSyn {s : TCPSender} (h : s.input.WF) (hsyn : s.senderSyn = false)
    (hseq : s.nextSeqno = s.isn) :
    ∃ m s', s.pushSyn = (s', [m]) ∧ Emits s m s' ∧
      m.payload = s.input.contents.take
        (min TCPConfig.maxPayloadSize (s.windowSize.toUInt64 - 1).toNat) ∧
      (m.FIN = true ↔ s.input.eof = true ∧ s'.input.contents = [] ∧ s.finSent = false) := by
  obtain ⟨payload, input', sent, htake, hpay, hread, -, -⟩ :=
    takePayload_spec h (s.windowSize.toUInt64 - 1).toNat
  -- the FIN goes with the SYN when all of a closed stream fits
  have hfin : (input'.isFinished && !s.finSent) = true ↔
      s.input.eof = true ∧ input'.contents = [] ∧ s.finSent = false := by
    rw [Bool.and_eq_true, ByteStream.isFinished_iff hread.wf, hread.eof_eq]
    simp [and_assoc]
  let m : TCPSenderMessage :=
    { SYN := true, seqno := s.isn, payload, FIN := input'.isFinished && !s.finSent }
  let s' : TCPSender := { s with
    senderSyn := true
    input := input'
    finSent := s.finSent || m.FIN
    outstandingSegments := s.outstandingSegments ++ [m]
    timerRunning := true
    timerElapsed := if s.timerRunning then s.timerElapsed else 0
    nextSeqno := s.isn.add (UInt32.ofNat m.sequenceLength) }
  have heq : s.pushSyn = (s', [m]) := by
    have hlen : UInt64.ofNat
        (TCPSenderMessage.sequenceLength { SYN := true, seqno := s.isn }) = 1 := rfl
    simp only [pushSyn, hlen, htake, track_eq, s', m]
  refine ⟨m, s', heq, ?_, hpay, hfin⟩
  constructor
  case read => exact hread
  case seqno_eq => exact hseq.symm
  case nextSeqno_eq => rw [hseq]
  case syn_eq => simp [m, hsyn]
  case fin =>
    intro hf
    obtain ⟨heof, hnil, hsent⟩ := hfin.mp hf
    exact ⟨hsent, by rw [hread.eof_eq, heof], hnil⟩
  case length_pos =>
    simp only [TCPSenderMessage.sequenceLength, m, Bool.toNat_true]
    omega
  case payload_le =>
    rw [show m.payload = payload from rfl, hpay, List.length_take]
    omega
  all_goals rfl

/-- One pass through the loop of `push` with some window left: a segment goes out, or there is
    nothing more to send. -/
theorem nextSegment_spec {s : TCPSender} (h : s.input.WF) (hsyn : s.senderSyn = true)
    {window : ℕ} (hwin : 0 < window) :
    ∃ s₁ m sent, s.nextSegment window = (s₁, m, sent) ∧
      (sent = true →
        Emits s m (({ s₁ with
          nextSeqno := s₁.nextSeqno.add (UInt32.ofNat m.sequenceLength) } : TCPSender).track m) ∧
        m.sequenceLength ≤ window) ∧
      (sent = false → s₁ = s ∧ s.input.contents = [] ∧
        (s.input.eof = true → s.finSent = true)) := by
  obtain ⟨payload, input', sent, htake, hpay, hread, hsent, hsame⟩ := takePayload_spec h window
  have hpaylen : payload.length ≤ min TCPConfig.maxPayloadSize window := by
    rw [hpay, List.length_take]
    omega
  have hbuf := ByteStream.bytesBuffered_eq_zero hread.wf
  by_cases hfin : input'.isClosed = true ∧ ¬ s.finSent = true ∧
      TCPSenderMessage.sequenceLength { seqno := s.nextSeqno, payload } + 1 ≤ window ∧
      input'.bytesBuffered = 0
  · -- the FIN goes out with this segment
    have heq : s.nextSegment window = ({ s with input := input', finSent := true },
        { seqno := s.nextSeqno, payload, FIN := true }, true) := by
      simp only [nextSegment, htake]
      rw [if_pos hfin]
    obtain ⟨hclosed, hnotsent, hroom, hzero⟩ := hfin
    refine ⟨_, _, true, heq, fun _ => ⟨?_, ?_⟩, by simp⟩
    · rw [track_eq]
      constructor
      case read => exact hread
      case syn_eq => simp [hsyn]
      case senderSyn_eq => exact hsyn
      case fin => exact fun _ => ⟨by simpa using hnotsent, hclosed, hbuf.mp hzero⟩
      case finSent_eq => simp
      case length_pos => simp [TCPSenderMessage.sequenceLength]
      case payload_le => exact le_trans hpaylen (min_le_left _ _)
      all_goals rfl
    · simpa [TCPSenderMessage.sequenceLength] using hroom
  · have heq : s.nextSegment window
        = ({ s with input := input' }, { seqno := s.nextSeqno, payload }, sent) := by
      simp only [nextSegment, htake]
      rw [if_neg hfin]
    refine ⟨_, _, sent, heq, fun htrue => ⟨?_, ?_⟩, fun hfalse => ?_⟩
    · have hpos := List.length_pos_of_ne_nil (hsent.mp htrue)
      rw [track_eq]
      constructor
      case read => exact hread
      case syn_eq => simp [hsyn]
      case senderSyn_eq => exact hsyn
      case fin => simp
      case finSent_eq => simp
      case length_pos =>
        simp only [TCPSenderMessage.sequenceLength]
        omega
      case payload_le => exact le_trans hpaylen (min_le_left _ _)
      all_goals rfl
    · simp only [TCPSenderMessage.sequenceLength, Bool.toNat_false, zero_add, add_zero]
      omega
    · -- nothing was read: the queue is empty, and a closed stream has had its FIN
      have hnil : payload = [] := by
        by_contra hne
        exact absurd (hsent.mpr hne) (by simp [hfalse])
      have hcont : s.input.contents = [] := by
        have hlim : TCPConfig.maxPayloadSize = 1000 := rfl
        rw [hnil] at hpay
        rcases List.take_eq_nil_iff.mp hpay.symm with hz | hz
        · omega
        · exact hz
      rw [hsame hfalse, hnil] at hfin
      refine ⟨by rw [hsame hfalse], hcont, fun heof => ?_⟩
      by_contra hnotsent
      refine hfin ⟨heof, hnotsent, ?_, (ByteStream.bytesBuffered_eq_zero h).mpr hcont⟩
      simp [TCPSenderMessage.sequenceLength]
      omega

/-! ### `push` -/

/-- **The loop of `push`.** It transmits segments within the window it is given, and stops when
    that window is used up, or when the stream has nothing buffered and, if closed, has had its
    FIN transmitted.  As many passes as the window has sequence numbers are enough. -/
theorem pushLoop_spec (fuel : ℕ) {s : TCPSender} (h : s.input.WF) (hsyn : s.senderSyn = true)
    {window : ℕ} (hfuel : window ≤ fuel) :
    ∃ ms s', pushLoop fuel s window = (s', ms) ∧ Emitted s ms s' ∧ seqnos ms ≤ window ∧
      (seqnos ms = window ∨
        s'.input.contents = [] ∧ (s'.input.eof = true → s'.finSent = true)) := by
  induction fuel generalizing s window with
  | zero => exact ⟨[], s, rfl, .nil s, by simp, by simp; omega⟩
  | succ fuel ih =>
    unfold pushLoop
    by_cases hwin : window > 0
    · obtain ⟨s₁, m, sent, hseg, htrue, hfalse⟩ := nextSegment_spec h hsyn hwin
      rw [if_pos hwin, hseg]
      dsimp only
      cases sent with
      | false =>
        obtain ⟨rfl, hnil, hfin⟩ := hfalse rfl
        exact ⟨[], s₁, rfl, .nil s₁, by simp, .inr ⟨hnil, hfin⟩⟩
      | true =>
        obtain ⟨hemit, hlen⟩ := htrue rfl
        simp only [if_true]
        set s₂ := ({ s₁ with
          nextSeqno := s₁.nextSeqno.add (UInt32.ofNat m.sequenceLength) } : TCPSender).track m
        by_cases hmfin : m.FIN = true
        · -- the loop breaks after the FIN
          obtain ⟨-, heof, hnil⟩ := hemit.fin hmfin
          refine ⟨[m], s₂, by rw [if_pos hmfin], .cons hemit (.nil s₂), by simpa using hlen, ?_⟩
          exact .inr ⟨hnil, fun _ => by rw [hemit.finSent_eq, hmfin, Bool.or_true]⟩
        · have hpos := hemit.length_pos
          have hfuel' : window - m.sequenceLength ≤ fuel := by omega
          obtain ⟨ms, s', heq, hchain, hle, hstop⟩ :=
            ih hemit.read.wf hemit.senderSyn_eq hfuel'
          refine ⟨m :: ms, s', ?_, .cons hemit hchain, ?_, ?_⟩
          · rw [if_neg hmfin, heq]
          · rw [seqnos_cons]
            omega
          · rcases hstop with hfull | hdone
            · left
              rw [seqnos_cons]
              omega
            · exact .inr hdone
    · rw [if_neg hwin]
      exact ⟨[], s, rfl, .nil s, by simp, .inl (by simp; omega)⟩

/-- The window `push` works with: a receiver without room is probed as if it had room for one. -/
def effectiveWindow (s : TCPSender) : ℕ := max s.windowSize.toNat 1

/-- What a call of `push` can do. -/
inductive PushCase (s : TCPSender) : TCPSender → List TCPSenderMessage → Prop where
  /-- The stream has an error: a reset, and nothing else. -/
  | reset (herr : s.input.error = true) :
      PushCase s s [{ RST := true, seqno := if s.senderSyn then s.nextSeqno else s.isn }]
  /-- The first segment. -/
  | syn {m : TCPSenderMessage} {s' : TCPSender} (herr : s.input.error = false)
      (hsyn : s.senderSyn = false) (hemit : Emits s m s')
      (hpay : m.payload = s.input.contents.take
        (min TCPConfig.maxPayloadSize (s.windowSize.toUInt64 - 1).toNat))
      (hfin : m.FIN = true ↔
        s.input.eof = true ∧ s'.input.contents = [] ∧ s.finSent = false) :
      PushCase s s' [m]
  /-- The window is full. -/
  | full (herr : s.input.error = false) (hsyn : s.senderSyn = true)
      (hfull : s.effectiveWindow ≤ s.sequenceNumbersInFlight) : PushCase s s []
  /-- A run of segments, within the window, that uses up the window or the stream. -/
  | segments {ms : List TCPSenderMessage} {s' : TCPSender} (herr : s.input.error = false)
      (hsyn : s.senderSyn = true) (hemit : Emitted s ms s')
      (hroom : s.sequenceNumbersInFlight + seqnos ms ≤ s.effectiveWindow)
      (hstop : s.sequenceNumbersInFlight + seqnos ms = s.effectiveWindow ∨
        s'.input.contents = [] ∧ (s'.input.eof = true → s'.finSent = true)) :
      PushCase s s' ms

/-- Whatever `push` does is one of the cases. -/
theorem push_cases {s : TCPSender} (h : s.input.WF)
    (hseq : s.senderSyn = false → s.nextSeqno = s.isn) :
    ∃ ms s', s.push = (s', ms) ∧ PushCase s s' ms := by
  unfold push
  by_cases herr : s.input.error = true
  · rw [if_pos (show s.input.hasError = true from herr)]
    exact ⟨_, _, rfl, .reset herr⟩
  have herr' : s.input.error = false := by simpa using herr
  rw [if_neg (show ¬ s.input.hasError = true from herr)]
  by_cases hsyn : s.senderSyn = true
  · rw [if_neg (not_not.mpr hsyn)]
    -- a window of 0 counts as 1
    have hwin : (if s.windowSize > 0 then s.windowSize.toNat else 1) = s.effectiveWindow := by
      simp only [effectiveWindow, gt_iff_lt, UInt16.lt_iff_toNat_lt, UInt16.toNat_zero]
      split <;> omega
    simp only [hwin]
    by_cases hfull : s.sequenceNumbersInFlight ≥ s.effectiveWindow
    · rw [if_pos hfull]
      exact ⟨_, _, rfl, .full herr' hsyn hfull⟩
    · rw [if_neg hfull]
      obtain ⟨ms, s', heq, hemit, hle, hstop⟩ := pushLoop_spec
        (s.effectiveWindow - s.sequenceNumbersInFlight) h hsyn le_rfl
      refine ⟨ms, s', heq, .segments herr' hsyn hemit (by omega) ?_⟩
      exact hstop.imp_left (fun _ => by omega)
  · rw [if_pos hsyn]
    have hsyn' : s.senderSyn = false := by simpa using hsyn
    obtain ⟨m, s', heq, hemit, hpay, hfin⟩ := emits_pushSyn h hsyn' (hseq hsyn')
    exact ⟨_, _, heq, .syn herr' hsyn' hemit hpay hfin⟩

/-! ### `receive` -/

/-- The position `receive` assigns to a sequence number: its offset, or its offset one cycle up
    when that is more than half a cycle behind the offset of the next sequence number. -/
def position (s : TCPSender) (w : Wrap32) : ℕ :=
  if s.nextSeqno.offset s.isn ≤ w.offset s.isn + 2 ^ 31 then w.offset s.isn
  else w.offset s.isn + 2 ^ 32

/-- The code's two unwrappings give the position. -/
theorem toNat_unwrap_position (s : TCPSender) (w : Wrap32) :
    (w.unwrap s.isn (s.nextSeqno.unwrap s.isn 0)).toNat = s.position w := by
  have hnext := Wrap32.toNat_unwrap_zero s.nextSeqno s.isn
  have hlt := s.nextSeqno.offset_lt s.isn
  rw [Wrap32.toNat_unwrap_of_checkpoint_lt_cycle w s.isn (by omega), hnext, position]

/-- A position is less than two cycles from the beginning. -/
theorem position_lt (s : TCPSender) (w : Wrap32) : s.position w < 2 ^ 33 := by
  have := w.offset_lt s.isn
  unfold position
  split <;> omega

/-- The segments that an acknowledgment of position `A` leaves outstanding. -/
def kept (s : TCPSender) (A : ℕ) : List TCPSenderMessage :=
  s.outstandingSegments.filter fun seg => A < s.position seg.seqno + seg.sequenceLength

/-- What a call of `receive` can do. -/
inductive ReceiveCase (s : TCPSender) (msg : TCPReceiverMessage) : TCPSender → Prop where
  | reset (hrst : msg.RST = true) : ReceiveCase s msg { s with input := s.input.setError }
  /-- No ackno, or one beyond what was sent: only the window is taken over. -/
  | ignored (hrst : msg.RST = false)
      (hack : ∀ a ∈ msg.ackno, s.nextSeqno.offset s.isn < s.position a) :
      ReceiveCase s msg { s with windowSize := msg.windowSize }
  /-- The ackno is not beyond the last one. -/
  | old {a : Wrap32} (hrst : msg.RST = false) (hack : msg.ackno = some a)
      (hvalid : s.position a ≤ s.nextSeqno.offset s.isn)
      (hold : s.position a ≤ s.position s.lastAckno) :
      ReceiveCase s msg { s with
        windowSize := msg.windowSize
        outstandingSegments := s.kept (s.position a) }
  /-- The ackno acknowledges new data. -/
  | new {a : Wrap32} (hrst : msg.RST = false) (hack : msg.ackno = some a)
      (hvalid : s.position a ≤ s.nextSeqno.offset s.isn)
      (hnew : s.position s.lastAckno < s.position a) :
      ReceiveCase s msg { s with
        windowSize := msg.windowSize
        lastAckno := a
        outstandingSegments := s.kept (s.position a)
        currentRTO := s.initialRTOms
        consecutiveRetransCount := 0
        timerRunning := !(s.kept (s.position a)).isEmpty
        timerElapsed := if (s.kept (s.position a)).isEmpty then s.timerElapsed else 0 }

/-- The removal loop keeps the segments that end beyond the ackno. -/
theorem filter_segEnd_eq {s : TCPSender}
    (hlen : ∀ m ∈ s.outstandingSegments, m.sequenceLength < 2 ^ 32) (a : Wrap32) :
    (s.outstandingSegments.filter fun seg =>
        ¬ segEnd s.isn (s.nextSeqno.unwrap s.isn 0) seg
          ≤ a.unwrap s.isn (s.nextSeqno.unwrap s.isn 0))
      = s.kept (s.position a) := by
  apply List.filter_congr
  intro seg hseg
  have hpos := s.position_lt seg.seqno
  have hl := hlen seg hseg
  have hofNat : (UInt64.ofNat seg.sequenceLength).toNat = seg.sequenceLength :=
    toNat_ofNat_of_lt (by omega)
  have hend : (segEnd s.isn (s.nextSeqno.unwrap s.isn 0) seg).toNat
      = s.position seg.seqno + seg.sequenceLength := by
    rw [segEnd, toNat_add_of_lt, toNat_unwrap_position, hofNat]
    rw [toNat_unwrap_position, hofNat]
    omega
  rw [decide_eq_decide, UInt64.le_iff_toNat_le, hend, toNat_unwrap_position, not_le]

/-- Whatever `receive` does is one of the cases. -/
theorem receive_cases {s : TCPSender}
    (hlen : ∀ m ∈ s.outstandingSegments, m.sequenceLength < 2 ^ 32) (msg : TCPReceiverMessage) :
    ReceiveCase s msg (s.receive msg) := by
  unfold receive
  cases hrst : msg.RST with
  | true => exact .reset hrst
  | false =>
    simp only [Bool.false_eq_true, if_false]
    cases hack : msg.ackno with
    | none => exact .ignored hrst (by simp [hack])
    | some a =>
      have hpos := toNat_unwrap_position s a
      have hlast := toNat_unwrap_position s s.lastAckno
      have hnext := Wrap32.toNat_unwrap_zero s.nextSeqno s.isn
      -- the code compares sequence numbers by their positions
      simp only [gt_iff_lt, UInt64.lt_iff_toNat_lt, hpos, hlast, hnext]
      by_cases hvalid : s.nextSeqno.offset s.isn < s.position a
      · rw [if_pos hvalid]
        exact .ignored hrst (by simpa [hack] using hvalid)
      · rw [if_neg hvalid]
        by_cases hnew : s.position s.lastAckno < s.position a
        · simp only [hnew, decide_true, if_true, onNewAck, filter_segEnd_eq hlen a]
          have hcase : ReceiveCase s msg _ := .new hrst hack (not_lt.mp hvalid) hnew
          cases hk : (s.kept (s.position a)).isEmpty <;> simp only [hk] at hcase <;>
            simpa [hk, startTimer] using hcase
        · simp only [hnew, decide_false, Bool.false_eq_true, if_false, filter_segEnd_eq hlen a]
          exact .old hrst hack (not_lt.mp hvalid) (not_lt.mp hnew)

/-! ### `tick` -/

/-- What a call of `tick` can do. -/
inductive TickCase (s : TCPSender) (ms : UInt64) :
    TCPSender → List TCPSenderMessage → Prop where
  | waiting
      (hwait : s.timerRunning = true → s.timerElapsed + ms < s.currentRTO ∨
        s.outstandingSegments = []) :
      TickCase s ms { s with timerElapsed := s.timerElapsed + ms } []
  | expired {seg : TCPSenderMessage} {rest : List TCPSenderMessage}
      (hrun : s.timerRunning = true) (hexp : s.currentRTO ≤ s.timerElapsed + ms)
      (hout : s.outstandingSegments = seg :: rest) :
      TickCase s ms { s with
        timerElapsed := 0
        consecutiveRetransCount :=
          if s.windowSize = 0 then s.consecutiveRetransCount else s.consecutiveRetransCount + 1
        currentRTO := if s.windowSize = 0 then s.currentRTO else s.currentRTO * 2 } [seg]

/-- Whatever `tick` does is one of the cases. -/
theorem tick_cases (s : TCPSender) (ms : UInt64) :
    ∃ out s', s.tick ms = (s', out) ∧ TickCase s ms s' out := by
  unfold tick
  by_cases hcond : s.timerRunning = true ∧ s.timerElapsed + ms ≥ s.currentRTO
  · obtain ⟨hrun, hexp⟩ := hcond
    simp only [hrun, hexp, and_self, if_true]
    cases hout : s.outstandingSegments with
    | nil =>
      have hcase : TickCase s ms _ _ := .waiting (fun _ => .inr hout)
      exact ⟨[], _, by simp [hrun, hout], hcase⟩
    | cons seg rest =>
      have hcase := TickCase.expired hrun hexp hout
      refine ⟨[seg], _, ?_, hcase⟩
      have hpos : s.windowSize > 0 ↔ ¬ s.windowSize = 0 := UInt16.pos_iff_ne_zero
      by_cases hw : s.windowSize = 0 <;> simp [hpos, hw, startTimer, hrun, hout]
  · have hcase : TickCase s ms _ _ := .waiting (fun hrun => .inl (by
      by_contra hlt
      exact hcond ⟨hrun, UInt64.not_lt.mp hlt⟩))
    exact ⟨[], _, by rw [if_neg hcond], hcase⟩

end TCPSender

end Minnow
