import Minnow.SenderAck

namespace Minnow

/-!
# The retransmission timer

In the first half cycle of sequence numbers, and while the time ticked fits in 63 bits, the
timer is exact:

* it runs iff a segment is outstanding, and has counted the time since it was last started;
* the current RTO is the initial one doubled for each retry.  A doubling comes only with an
  expiry, when the current RTO is at most the time ticked, so it never overflows;
* `tick` retransmits the oldest outstanding segment when that time reaches the RTO, and nothing
  otherwise.
-/

open TCPSender SlidingWindow

namespace SenderRun

variable {isn : Wrap32} {rto : UInt64} {r : SenderRun}

/-- The invariant of the timer. -/
structure Timed (isn : Wrap32) (rto : UInt64) (r : SenderRun) : Prop
    extends Acking isn rto r where
  currentRTO_eq : r.sender.currentRTO.toNat
    = rto.toNat * 2 ^ r.sender.consecutiveRetransCount.toNat
  timerElapsed_eq : r.sender.timerRunning = true → r.sender.timerElapsed.toNat = r.sinceStart
  sinceStart_le : r.sinceStart ≤ r.elapsed

namespace Timed

/-- The timer runs iff a segment is outstanding. -/
theorem timerRunning_iff (h : r.Timed isn rto) :
    r.sender.timerRunning = true ↔ r.sender.outstandingSegments ≠ [] :=
  h.unacknowledged.timerRunning_iff

/-- The time counted by a running timer, a tick later. -/
theorem toNat_timerElapsed_add (h : r.Timed isn rto) (hrun : r.sender.timerRunning = true)
    {ms : UInt64} (hms : r.elapsed + ms.toNat < 2 ^ 63) :
    (r.sender.timerElapsed + ms).toNat = r.sinceStart + ms.toNat := by
  have hle := h.sinceStart_le
  have helapsed := h.timerElapsed_eq hrun
  rw [toNat_add_of_lt (by omega), helapsed]

/-- An RTO no longer than the time ticked can be doubled, and the retry count incremented. -/
theorem double (h : r.Timed isn rto) (hle : r.sender.currentRTO.toNat < 2 ^ 63) :
    (r.sender.currentRTO * 2).toNat = 2 * r.sender.currentRTO.toNat ∧
      2 * r.sender.currentRTO.toNat
        = rto.toNat * 2 ^ (r.sender.consecutiveRetransCount + 1).toNat := by
  have htwo : (r.sender.currentRTO * 2).toNat = 2 * r.sender.currentRTO.toNat := by
    rw [UInt64.toNat_mul, show (2 : UInt64).toNat = 2 from rfl, Nat.mod_eq_of_lt (by omega),
      mul_comm]
  refine ⟨htwo, ?_⟩
  rw [h.currentRTO_eq] at hle ⊢
  rcases Nat.eq_zero_or_pos rto.toNat with hzero | hpos
  · -- an RTO of 0 stays 0, however often the count wraps
    rw [hzero]
    simp
  · have hpow : 2 ^ r.sender.consecutiveRetransCount.toNat < 2 ^ 63 :=
      lt_of_le_of_lt (Nat.le_mul_of_pos_left _ hpos) hle
    have hcount : r.sender.consecutiveRetransCount.toNat < 63 :=
      (Nat.pow_lt_pow_iff_right (by norm_num)).mp hpow
    rw [toNat_add_of_lt (by rw [UInt64.toNat_one]; omega), UInt64.toNat_one, pow_succ]
    ring

/-- A push starts the timer when nothing is outstanding and something is sent. -/
theorem push (h : r.Timed isn rto) (hacking : (r.step .push).Acking isn rto) :
    (r.step .push).Timed isn rto := by
  obtain ⟨ms, s', heq, hcase⟩ := push_cases h.tiling.wf h.tiling.nextSeqno_of_not_syn
  -- every case is a run of segments, the SYN being a run of one
  have hrun : (∃ l, Emitted r.sender l s' ∧ ms.filter (fun m => ¬ m.RST) = l) := by
    cases hcase with
    | reset => exact ⟨[], .nil _, by simp⟩
    | full => exact ⟨[], .nil _, rfl⟩
    | @syn m _ _ _ hemit =>
      have hone : Emitted r.sender [m] s' := .cons hemit (.nil s')
      exact ⟨[m], hone, hone.filter_eq⟩
    | segments _ _ hemit => exact ⟨ms, hemit, hemit.filter_eq⟩
  obtain ⟨l, hemit, hl⟩ := hrun
  have hsince' : (r.step .push).sinceStart
      = if r.sender.outstandingSegments = [] ∧ l ≠ [] then 0 else r.sinceStart := by
    simp only [SenderRun.step, heq, hl]
  have hs' : (r.step .push).sender = s' := by simp only [SenderRun.step, heq]
  refine ⟨hacking, ?_, ?_, ?_⟩
  · rw [hs', hemit.const (·.currentRTO) fun _ _ _ hm => hm.currentRTO_eq,
      hemit.const (·.consecutiveRetransCount) fun _ _ _ hm => hm.count_eq]
    exact h.currentRTO_eq
  · intro hrun
    rw [hs'] at hrun
    rw [hs', hemit.timer_eq, hsince']
    by_cases hnone : l = []
    · subst hnone
      cases hemit
      simpa using h.timerElapsed_eq hrun
    · by_cases hidle : r.sender.outstandingSegments = []
      · have hstopped : ¬ r.sender.timerRunning = true := by rw [h.timerRunning_iff]; simp [hidle]
        rw [if_neg (by simp [hstopped, hnone]), if_pos ⟨hidle, hnone⟩, UInt64.toNat_zero]
      · rw [if_pos (.inl (h.timerRunning_iff.mpr hidle)), if_neg (by simp [hidle])]
        exact h.timerElapsed_eq (h.timerRunning_iff.mpr hidle)
  · rw [hsince']
    show _ ≤ r.elapsed
    split
    · exact Nat.zero_le _
    · exact h.sinceStart_le

/-- A tick adds to the time, and doubles the RTO when it expires. -/
theorem tick (h : r.Timed isn rto) {ms : UInt64} (hacking : (r.step (.tick ms)).Acking isn rto)
    (hms' : r.elapsed + ms.toNat < 2 ^ 63) : (r.step (.tick ms)).Timed isn rto := by
  have hrto := h.currentRTO_eq
  have hsince := h.sinceStart_le
  obtain ⟨out, s', heq, hcase⟩ := tick_cases r.sender ms
  have hs' : (r.step (.tick ms)).sender = s' := by simp only [SenderRun.step, heq]
  -- an expired timer starts again
  have hsince' : (r.step (.tick ms)).sinceStart
      = if out = [] then r.sinceStart + ms.toNat else 0 := by
    simp only [SenderRun.step, heq]
  suffices hsuff : s'.currentRTO.toNat = rto.toNat * 2 ^ s'.consecutiveRetransCount.toNat ∧
      (s'.timerRunning = true → s'.timerElapsed.toNat = (r.step (.tick ms)).sinceStart) ∧
      (r.step (.tick ms)).sinceStart ≤ r.elapsed + ms.toNat by
    exact ⟨hacking, by rw [hs']; exact hsuff.1, by rw [hs']; exact hsuff.2.1, hsuff.2.2⟩
  rw [hsince']
  cases hcase with
  | waiting hwait =>
    exact ⟨hrto, fun hrun => h.toNat_timerElapsed_add hrun hms', by simp; omega⟩
  | expired hrun hexp hout =>
    have hcount := h.toNat_timerElapsed_add hrun hms'
    rw [UInt64.le_iff_toNat_le, hcount] at hexp
    obtain ⟨htwo, hpow⟩ := h.double (by omega)
    refine ⟨?_, fun _ => rfl, by simp⟩
    by_cases hw : r.sender.windowSize = 0
    · simp only [hw, if_true]
      exact hrto
    · simp only [hw, if_false]
      rw [htwo, hpow]

/-- A message restarts the timer when it acknowledges something new. -/
theorem receive (h : r.Timed isn rto) {msg : TCPReceiverMessage}
    (hacking : (r.step (.receive msg)).Acking isn rto)
    (hcycle : r.AcksInCycle (.receive msg)) : (r.step (.receive msg)).Timed isn rto := by
  have hrto := h.currentRTO_eq
  have helapsed := h.timerElapsed_eq
  have hsince := h.sinceStart_le
  have hcase := h.ack_cases hcycle
  suffices hsuff : (r.sender.receive msg).currentRTO.toNat
        = rto.toNat * 2 ^ (r.sender.receive msg).consecutiveRetransCount.toNat ∧
      ((r.sender.receive msg).timerRunning = true → (r.sender.receive msg).timerElapsed.toNat
        = if r.acked < r.ackedAfter msg then 0 else r.sinceStart) by
    refine ⟨hacking, hsuff.1, hsuff.2, ?_⟩
    show (if r.acked < r.ackedAfter msg then 0 else r.sinceStart) ≤ r.elapsed
    split
    · exact Nat.zero_le _
    · exact hsince
  -- only an acknowledgment of something new touches RTO and timer
  generalize r.sender.receive msg = s' at hcase ⊢
  cases hcase with
  | reset hrst =>
    have hsame : r.ackedAfter msg = r.acked := by rw [ackedAfter, if_pos hrst]
    rw [hsame, if_neg (lt_irrefl _)]
    exact ⟨hrto, helapsed⟩
  | window hrst hsame =>
    rw [hsame, if_neg (lt_irrefl _)]
    exact ⟨hrto, helapsed⟩
  | @advance A hrst hack hlt hle hafter left hleft =>
    rw [hafter, if_pos hlt]
    refine ⟨?_, ?_⟩
    · show r.sender.initialRTOms.toNat = rto.toNat * 2 ^ (0 : UInt64).toNat
      rw [h.rto_eq, UInt64.toNat_zero, pow_zero, mul_one]
    · intro hrun
      have hleft' : left.isEmpty = false := by simpa using hrun
      simp [hleft']

/-- **Step.** Every operation within the bounds keeps the timer exact. -/
theorem step (h : r.Timed isn rto) (op : SenderOp) (hcons : r.consumed < 2 ^ 31)
    (hms : (r.step op).elapsed < 2 ^ 63) : (r.step op).Timed isn rto := by
  have hcycle := h.acksInCycle_of_lt (by omega) op
  have hacking := h.toAcking.step op hcycle
  cases op with
  | write | close | setError =>
    exact ⟨hacking, h.currentRTO_eq, h.timerElapsed_eq, h.sinceStart_le⟩
  | push => exact h.push hacking
  | tick ms => exact h.tick hacking hms
  | receive msg => exact h.receive hacking hcycle

end Timed

theorem timed_of {capacity : UInt64} {input : ByteStream}
    (h : ByteStream.new capacity = .ok input) {isn : Wrap32} {rto : UInt64}
    {ops : List SenderOp} (hcons : (SenderRun.of input isn rto ops).consumed < 2 ^ 31)
    (hms : (SenderRun.of input isn rto ops).elapsed < 2 ^ 63) :
    (SenderRun.of input isn rto ops).Timed isn rto := by
  refine Machine.run_invariant_of_bound
    (fun r => r.consumed < 2 ^ 31 ∧ r.elapsed < 2 ^ 63) ?_ ?_
    ⟨acking_start h isn rto, ?_, ?_, le_rfl⟩ ops ⟨hcons, hms⟩
  · exact fun r op hend => ⟨lt_of_le_of_lt (r.consumed_le_step op) hend.1,
      lt_of_le_of_lt (r.elapsed_le_step op) hend.2⟩
  · exact fun r op ht hend =>
      ht.step op (lt_of_le_of_lt (r.consumed_le_step op) hend.1) hend.2
  · simp [start, TCPSender.new]
  · simp [start, TCPSender.new]

/-- The timer of a state is exact: its RTO, whether it runs, and what a tick of any length that
    keeps the time within bounds does. -/
structure TimerExact (rto : UInt64) (r : SenderRun) : Prop where
  currentRTO_eq : r.sender.currentRTO.toNat
    = rto.toNat * 2 ^ r.sender.consecutiveRetransmissions.toNat
  timerRunning_iff : r.sender.timerRunning = true ↔ r.sender.outstandingSegments ≠ []
  /-- An expiry transmits the oldest outstanding segment, and backs off iff the window is not
      zero. -/
  expires : ∀ ms : UInt64, r.elapsed + ms.toNat < 2 ^ 63 →
    ∀ seg ∈ r.sender.outstandingSegments.head?,
      r.sender.currentRTO.toNat ≤ r.sinceStart + ms.toNat →
        (r.sender.tick ms).2 = [seg] ∧
        ((r.sender.tick ms).1.currentRTO.toNat
          = if r.sender.windowSize = 0 then r.sender.currentRTO.toNat
            else 2 * r.sender.currentRTO.toNat) ∧
        (r.sender.tick ms).1.consecutiveRetransmissions
          = if r.sender.windowSize = 0 then r.sender.consecutiveRetransmissions
            else r.sender.consecutiveRetransmissions + 1
  /-- Before that, and with nothing outstanding, a tick transmits nothing and does not back
      off. -/
  waits : ∀ ms : UInt64, r.elapsed + ms.toNat < 2 ^ 63 →
    (r.sender.outstandingSegments = [] ∨
      r.sinceStart + ms.toNat < r.sender.currentRTO.toNat) →
        (r.sender.tick ms).2 = [] ∧
        (r.sender.tick ms).1.currentRTO = r.sender.currentRTO ∧
        (r.sender.tick ms).1.consecutiveRetransmissions = r.sender.consecutiveRetransmissions

/-- **The retransmission timer over whole runs.** -/
theorem timer_exact {capacity : UInt64} {input : ByteStream}
    (h : ByteStream.new capacity = .ok input) {isn : Wrap32} {rto : UInt64}
    {ops : List SenderOp} (hcons : (SenderRun.of input isn rto ops).consumed < 2 ^ 31)
    (hms : (SenderRun.of input isn rto ops).elapsed < 2 ^ 63) :
    TimerExact rto (SenderRun.of input isn rto ops) := by
  have ht := timed_of h hcons hms
  generalize SenderRun.of input isn rto ops = r at ht
  constructor
  case currentRTO_eq => exact ht.currentRTO_eq
  case timerRunning_iff => exact ht.timerRunning_iff
  case expires =>
    intro ms hms seg hseg hexp
    obtain ⟨l, hl⟩ := List.head?_eq_some_iff.mp hseg
    have hrun : r.sender.timerRunning = true := by
      rw [ht.timerRunning_iff, hl]
      exact List.cons_ne_nil seg l
    have hcount := ht.toNat_timerElapsed_add hrun hms
    have hle := ht.sinceStart_le
    obtain ⟨out, s', heq, hcase⟩ := tick_cases r.sender ms
    rw [heq]
    cases hcase with
    | waiting hwait =>
      rcases hwait hrun with hlt | hnil
      · rw [UInt64.lt_iff_toNat_lt, hcount] at hlt
        omega
      · rw [hl] at hnil
        cases hnil
    | expired _ _ hout =>
      rw [hl] at hout
      obtain ⟨rfl, rfl⟩ := List.cons.inj hout
      refine ⟨rfl, ?_, rfl⟩
      by_cases hw : r.sender.windowSize = 0
      · simp only [hw, if_true]
      · simp only [hw, if_false]
        exact (ht.double (by omega)).1
  case waits =>
    intro ms hms hidle
    obtain ⟨out, s', heq, hcase⟩ := tick_cases r.sender ms
    rw [heq]
    cases hcase with
    | waiting hwait => exact ⟨rfl, rfl, rfl⟩
    | expired hrun hexp hout =>
      have hcount := ht.toNat_timerElapsed_add hrun hms
      rw [UInt64.le_iff_toNat_le, hcount] at hexp
      rcases hidle with hnil | hlt
      · rw [hnil] at hout
        cases hout
      · omega

theorem timer_exact_two_expiries :
    TimerExact 100 (SenderRun.of (.empty 4) ⟨7⟩ 100 [.push, .tick 60, .tick 60, .tick 200]) :=
  timer_exact (ByteStream.new_eq_ok (by decide)) (by decide) (by decide)

end SenderRun

end Minnow
