import Minnow.SenderWindow

namespace Minnow

/-!
# The sender and the window it leaves unused

`push` should stop only when the window is used up or when there is nothing left to send
(`FillsWindow`).

* `pushLoop_of_le` — the sending loop ends by itself: any number of passes beyond the window
  gives the same result;
* `push_fills_window_iff` — the loop fills the window always.  The SYN branch transmits a single
  segment and returns, so that a larger window, already known then, is left unused when the
  stream holds more than one payload.
-/

open TCPSender SlidingWindow

namespace TCPSender

/-- More passes than the window has sequence numbers make no difference to the loop. -/
theorem pushLoop_of_le {s : TCPSender} (h : s.input.WF) (hsyn : s.senderSyn = true)
    {window fuel fuel' : ℕ} (hfuel : window ≤ fuel) (hfuel' : window ≤ fuel') :
    pushLoop fuel s window = pushLoop fuel' s window := by
  induction fuel generalizing s window fuel' with
  | zero =>
    obtain rfl : window = 0 := by omega
    cases fuel' <;> simp [pushLoop]
  | succ fuel ih =>
    cases fuel' with
    | zero =>
      obtain rfl : window = 0 := by omega
      simp [pushLoop]
    | succ fuel' =>
      unfold pushLoop
      by_cases hwin : window > 0
      · obtain ⟨s₁, m, sent, hseg, htrue, -⟩ := nextSegment_spec h hsyn hwin
        simp only [if_pos hwin, hseg]
        cases sent with
        | false => rfl
        | true =>
          -- a segment uses up at least one sequence number of the window
          obtain ⟨hemit, hlen⟩ := htrue rfl
          have hpos := hemit.length_pos
          have hle : window - m.sequenceLength ≤ fuel' := by omega
          rw [ih hemit.read.wf hemit.senderSyn_eq (by omega) hle]
      · rw [if_neg hwin, if_neg hwin]

/-- The sender leaves no window unused: what is in flight is as much as the receiver allows (a
    window of 0 counting as 1), or nothing is buffered and the stream is open or has had its FIN
    transmitted. -/
def FillsWindow (s : TCPSender) : Prop :=
  max s.windowSize.toNat 1 ≤ s.sequenceNumbersInFlight ∨
    s.input.bytesBuffered = 0 ∧ (s.input.isClosed = false ∨ s.finSent = true)

instance (s : TCPSender) : Decidable s.FillsWindow := by
  unfold FillsWindow
  infer_instance

/-- The SYN segment is all that the window or the stream allows: the window has no room behind
    a full payload, or the stream does not hold more than one. -/
def SynSuffices (s : TCPSender) : Prop :=
  s.senderSyn = false →
    s.windowSize.toNat ≤ 1 + TCPConfig.maxPayloadSize ∨
      s.input.bytesBuffered.toNat ≤ TCPConfig.maxPayloadSize

instance (s : TCPSender) : Decidable s.SynSuffices := by
  unfold SynSuffices
  infer_instance

/-- The SYN segment leaves no window unused exactly under the condition. -/
theorem syn_fills_iff {s s' : TCPSender} {m : TCPSenderMessage} (hwf : s.input.WF)
    (hsyn : s.senderSyn = false) (hnil : s.outstandingSegments = [])
    (hfinSent : s.finSent = false) (hemit : Emits s m s')
    (hpay : m.payload = s.input.contents.take
      (min TCPConfig.maxPayloadSize (s.windowSize.toUInt64 - 1).toNat))
    (hfin : m.FIN = true ↔ s.input.eof = true ∧ s'.input.contents = [] ∧ s.finSent = false) :
    s'.FillsWindow ↔ s.SynSuffices := by
  have hlim : TCPConfig.maxPayloadSize = 1000 := rfl
  have hbuf := ByteStream.toNat_bytesBuffered hwf
  have hzero := ByteStream.bytesBuffered_eq_zero hemit.read.wf
  have hrest := congrArg List.length hemit.read.contents_eq
  have hlen := congrArg List.length hpay
  rw [List.length_append] at hrest
  rw [List.length_take, toNat_window_sub_one] at hlen
  have hfin' : s'.finSent = true ↔ s.input.eof = true ∧ s'.input.contents.length = 0 := by
    rw [hemit.finSent_eq, hfinSent, Bool.false_or, hfin, List.length_eq_zero_iff]
    simp [hfinSent]
  have hflight : s'.sequenceNumbersInFlight = 1 + m.payload.length + m.FIN.toNat := by
    rw [sequenceNumbersInFlight_eq (by simp [hemit.senderSyn_eq]), hemit.outstanding_eq, hnil,
      List.nil_append, seqnos_singleton, TCPSenderMessage.sequenceLength, hemit.syn_eq, hsyn]
    rfl
  have hwin : s.windowSize = 0 ↔ s.windowSize.toNat = 0 := by
    rw [← UInt16.toNat_zero, UInt16.toNat_inj]
  have hflag : m.FIN = s'.finSent := by rw [hemit.finSent_eq, hfinSent, Bool.false_or]
  rw [FillsWindow, SynSuffices, hflight, hflag, hemit.windowSize_eq, hzero, hbuf,
    ← List.length_eq_zero_iff, ByteStream.isClosed, hemit.read.eof_eq]
  simp only [hwin] at hlen
  -- the rest is about the lengths of payload, queue and window
  generalize m.payload.length = p at *
  generalize s.input.contents.length = c at *
  generalize s'.input.contents.length = c' at *
  generalize s.windowSize.toNat = w at *
  generalize s'.finSent = f at *
  generalize s.input.eof = e at *
  split at hlen <;> cases f <;> cases e <;> simp [hsyn] at hfin' ⊢ <;> omega

/-- The loop leaves no window unused. -/
theorem loop_fills {s s' : TCPSender} {ms : List TCPSenderMessage} (hsyn : s.senderSyn = true)
    (hwf : s'.input.WF) (hemit : Emitted s ms s')
    (hstop : s.sequenceNumbersInFlight + seqnos ms = s.effectiveWindow ∨
      s'.input.contents = [] ∧ (s'.input.eof = true → s'.finSent = true)) : s'.FillsWindow := by
  have hsyn' := hemit.senderSyn_eq hsyn
  rcases hstop with hfull | ⟨hnil, hfin⟩
  · -- what was in flight and what joined it fill the window
    left
    rw [hemit.const (·.windowSize) fun _ _ _ hm => hm.windowSize_eq,
      sequenceNumbersInFlight_eq (by simp [hsyn']), hemit.outstanding_eq, seqnos_append,
      ← sequenceNumbersInFlight_eq (by simp [hsyn])]
    exact hfull.ge
  · right
    refine ⟨(ByteStream.bytesBuffered_eq_zero hwf).mpr hnil, ?_⟩
    rw [ByteStream.isClosed]
    cases heof : s'.input.eof with
    | false => exact .inl rfl
    | true => exact .inr (hfin heof)

end TCPSender

namespace SenderRun

variable {isn : Wrap32} {rto : UInt64} {r : SenderRun}

/-- In a state that a run reaches, a `push` without error leaves no window unused exactly under
    the condition. -/
theorem Tiled.fillsWindow_iff (h : r.Tiled isn rto) (herr : r.sender.input.error = false) :
    r.sender.push.1.FillsWindow ↔ r.sender.SynSuffices := by
  have ht := h.tiling
  have hwf := ht.push.wf
  obtain ⟨ms, s', heq, hcase⟩ := push_cases ht.wf ht.nextSeqno_of_not_syn
  rw [heq] at hwf ⊢
  -- after the SYN the condition is void
  have hvoid : r.sender.senderSyn = true → r.sender.SynSuffices := fun hsyn hfalse => by
    rw [hsyn] at hfalse
    cases hfalse
  cases hcase with
  | reset htrue => rw [herr] at htrue; cases htrue
  | syn _ hsyn hemit hpay hfin =>
    have hfinSent : r.sender.finSent = false := by
      by_contra hne
      obtain ⟨m', hm', -⟩ := ht.finSent_iff.mp (by simpa using hne)
      rw [ht.sent_eq_nil hsyn] at hm'
      cases hm'
    exact syn_fills_iff ht.wf hsyn (ht.outstanding_eq_nil hsyn) hfinSent hemit hpay hfin
  | full _ hsyn hfull => exact iff_of_true (.inl hfull) (hvoid hsyn)
  | segments _ hsyn hemit _ hstop =>
    exact iff_of_true (loop_fills hsyn hwf hemit hstop) (hvoid hsyn)

/-- **The window that `push` may use.** In every reachable state without error the sending loop
    ends by itself, and `push` leaves no window unused iff the SYN was sent before or the SYN
    segment is all that window or stream allow. -/
theorem push_fills_window_iff {capacity : UInt64} {input : ByteStream}
    (h : ByteStream.new capacity = .ok input) (isn : Wrap32) (rto : UInt64)
    (ops : List SenderOp)
    (herr : (SenderRun.of input isn rto ops).sender.input.error = false) :
    ((SenderRun.of input isn rto ops).sender.senderSyn = true →
      ∀ window fuel, window ≤ fuel →
        (SenderRun.of input isn rto ops).sender.pushLoop fuel window
          = (SenderRun.of input isn rto ops).sender.pushLoop window window) ∧
    ((SenderRun.of input isn rto ops).sender.push.1.FillsWindow ↔
      (SenderRun.of input isn rto ops).sender.SynSuffices) := by
  have ht := tiled_of h isn rto ops
  generalize SenderRun.of input isn rto ops = r at ht herr
  refine ⟨fun hsyn window fuel hle => ?_, ht.fillsWindow_iff herr⟩
  exact pushLoop_of_le ht.tiling.wf hsyn hle le_rfl

theorem push_fills_window_iff_three :
    ((SenderRun.of (.empty 8) ⟨7⟩ 1000 windowOfThree).sender.senderSyn = true →
      ∀ window fuel, window ≤ fuel →
        (SenderRun.of (.empty 8) ⟨7⟩ 1000 windowOfThree).sender.pushLoop fuel window
          = (SenderRun.of (.empty 8) ⟨7⟩ 1000 windowOfThree).sender.pushLoop window window) ∧
    ((SenderRun.of (.empty 8) ⟨7⟩ 1000 windowOfThree).sender.push.1.FillsWindow ↔
      (SenderRun.of (.empty 8) ⟨7⟩ 1000 windowOfThree).sender.SynSuffices) :=
  push_fills_window_iff (ByteStream.new_eq_ok (by decide)) ⟨7⟩ 1000 windowOfThree (by decide)

/-- A window of 2000 arrives before the SYN is sent, and 1500 bytes are written. -/
def windowBeforeSyn : List SenderOp :=
  [.receive { windowSize := 2000 }, .write (List.replicate 1500 0)]

/-- The push that follows sends 1001 sequence numbers and leaves 500 bytes behind. -/
theorem push_leaves_window_unused :
    (SenderRun.of (.empty 1500) ⟨7⟩ 1000 windowBeforeSyn).sender.input.error = false ∧
      ¬ (SenderRun.of (.empty 1500) ⟨7⟩ 1000 windowBeforeSyn).sender.push.1.FillsWindow := by
  have h : ByteStream.new 1500 = .ok (.empty 1500) := ByteStream.new_eq_ok (by decide)
  obtain ⟨hwf, hcont, -, -, herr, -, -⟩ := ByteStream.new_spec h
  have hspec := ByteStream.push_spec hwf (List.replicate 1500 0)
  have ht := tiled_of h ⟨7⟩ 1000 windowBeforeSyn
  have hs : (SenderRun.of (.empty 1500) ⟨7⟩ 1000 windowBeforeSyn).sender
      = { TCPSender.new (.empty 1500) ⟨7⟩ 1000 with
          windowSize := 2000
          input := (ByteStream.empty 1500).push (List.replicate 1500 0) } := rfl
  have hbuf : ((ByteStream.empty 1500).push (List.replicate 1500 0)).bytesBuffered.toNat
      = 1500 := by
    have hacc : (ByteStream.empty 1500).accepted (List.replicate 1500 0)
        = (List.replicate 1500 0).take 1500 := rfl
    rw [ByteStream.toNat_bytesBuffered hspec.1, hspec.2.1, hcont, hacc, List.nil_append,
      List.length_take, List.length_replicate, min_self]
  have herr' : (SenderRun.of (.empty 1500) ⟨7⟩ 1000 windowBeforeSyn).sender.input.error
      = false := by
    rw [hs]
    exact hspec.2.2.2.2.1.trans herr
  refine ⟨herr', ?_⟩
  rw [ht.fillsWindow_iff herr', SynSuffices, hs]
  simp only [hbuf]
  decide

end SenderRun

end Minnow
