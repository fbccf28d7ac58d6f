import Minnow.SenderTiling

namespace Minnow

/-!
# The sender and the RST flag

The RST flag of a message should say whether the outbound stream has an error when the message
is transmitted.

* `rst_makeEmptyMessage`, `Tiling.rst_push` — the messages built on the spot keep this promise;
* `Tiling.rst_tick_iff` — the timer replays a stored segment as it was built, before the error;
* `rst_iff_error_iff` — a run keeps the promise iff no timer expires in it with a segment
  outstanding after the stream has had an error.
-/

open TCPSender SlidingWindow

namespace TCPSender

/-- The empty message carries the flag of the moment. -/
theorem rst_makeEmptyMessage (s : TCPSender) : s.makeEmptyMessage.RST = s.input.hasError := rfl

/-- This tick replays a segment to the peer of a stream with an error. -/
def ReplaysAfterError (s : TCPSender) (ms : UInt64) : Prop :=
  s.input.hasError = true ∧ s.timerRunning = true ∧ s.currentRTO ≤ s.timerElapsed + ms ∧
    s.outstandingSegments ≠ []

instance (s : TCPSender) (ms : UInt64) : Decidable (s.ReplaysAfterError ms) := by
  unfold ReplaysAfterError
  infer_instance

end TCPSender

namespace Tiling

variable {accepted : Bytes} {s : TCPSender} {sent : List TCPSenderMessage}

/-- What `push` transmits carries the flag of the moment. -/
theorem rst_push (h : Tiling accepted s sent) : ∀ m ∈ s.push.2, m.RST = s.input.hasError := by
  obtain ⟨ms, s', heq, hcase⟩ := push_cases h.wf h.nextSeqno_of_not_syn
  rw [heq, ByteStream.hasError]
  intro m hm
  cases hcase with
  | reset herr =>
    rw [List.mem_singleton.mp hm, herr]
  | syn herr hsyn hemit =>
    rw [List.mem_singleton.mp hm, hemit.rst_eq, herr]
  | full => simp at hm
  | segments herr hsyn hemit =>
    have hfilter := hemit.filter_eq
    rw [← hfilter] at hm
    rw [herr]
    simpa using (List.mem_filter.mp hm).2

/-- What `tick` transmits carries the flag of the moment exactly when it is not a replay after
    an error. -/
theorem rst_tick_iff (h : Tiling accepted s sent) (ms : UInt64) :
    (∀ m ∈ (s.tick ms).2, m.RST = s.input.hasError) ↔ ¬ s.ReplaysAfterError ms := by
  obtain ⟨out, s', heq, hcase⟩ := tick_cases s ms
  rw [heq, ReplaysAfterError]
  cases hcase with
  | waiting hwait =>
    simp only [List.not_mem_nil, false_imp_iff, implies_true, true_iff, not_and]
    intro _ hrun hexp hne
    rcases hwait hrun with hlt | hnil
    · exact absurd hexp (UInt64.not_le.mpr hlt)
    · exact hne hnil
  | @expired seg rest hrun hexp hout =>
    -- the segment was built without RST
    have hrst : seg.RST = false := (h.segment seg (h.outstanding (by simp [hout]))).2.2
    simp [hrst, hrun, hexp, hout]

end Tiling

namespace SenderRun

/-- The messages that an operation transmits have RST set iff the stream has an error when they
    are transmitted. -/
def RstIffError (r : SenderRun) : SenderOp → Prop
  | .push => ∀ m ∈ r.sender.push.2, m.RST = r.sender.push.1.input.hasError
  | .tick ms => ∀ m ∈ (r.sender.tick ms).2, m.RST = (r.sender.tick ms).1.input.hasError
  | _ => True

/-- The operation is no tick that replays a segment after an error. -/
def NoReplayAfterError (r : SenderRun) : SenderOp → Prop
  | .tick ms => ¬ r.sender.ReplaysAfterError ms
  | _ => True

/-- A tick does not touch the stream. -/
theorem input_tick (s : TCPSender) (ms : UInt64) : (s.tick ms).1.input = s.input := by
  obtain ⟨out, s', heq, hcase⟩ := tick_cases s ms
  rw [heq]
  cases hcase <;> rfl

/-- **Step.** One operation, in any state that a run reaches. -/
theorem Tiled.rstIffError_iff {isn : Wrap32} {rto : UInt64} {r : SenderRun}
    (h : r.Tiled isn rto) (op : SenderOp) : r.RstIffError op ↔ r.NoReplayAfterError op := by
  cases op with
  | push =>
    refine iff_of_true (fun m hm => ?_) trivial
    rw [h.tiling.rst_push m hm]
    exact h.tiling.error_push.symm
  | tick ms =>
    rw [RstIffError, input_tick]
    exact h.tiling.rst_tick_iff ms
  | write | close | setError | receive => exact Iff.rfl

/-- **RST iff error, over whole runs.** The empty message always has the right flag; the
    transmissions of a run all have it iff no tick of the run replays a segment after an
    error. -/
theorem rst_iff_error_iff {capacity : UInt64} {input : ByteStream}
    (h : ByteStream.new capacity = .ok input) (isn : Wrap32) (rto : UInt64)
    (ops : List SenderOp) :
    (SenderRun.of input isn rto ops).sender.makeEmptyMessage.RST
        = (SenderRun.of input isn rto ops).sender.input.hasError ∧
      (Machine.Meets step RstIffError (start input isn rto) ops ↔
        Machine.Meets step NoReplayAfterError (start input isn rto) ops) := by
  refine ⟨rst_makeEmptyMessage _, ?_⟩
  have hreach : Machine.Meets step (fun r _ => r.Tiled isn rto) (start input isn rto) ops :=
    Machine.meets_invariant (fun _ op ht => ht.step op) (tiled_of h isn rto []) ops
  constructor
  · intro hm
    exact (hreach.and hm).mono fun r op hr => (hr.1.rstIffError_iff op).mp hr.2
  · intro hm
    exact (hreach.and hm).mono fun r op hr => (hr.1.rstIffError_iff op).mpr hr.2

/-- The SYN is sent, the stream has an error, and the timer expires. -/
def expiryAfterError : List SenderOp := [.push, .setError, .tick 1000]

theorem rst_iff_error_iff_expiry :
    (SenderRun.of (.empty 4) ⟨7⟩ 1000 expiryAfterError).sender.makeEmptyMessage.RST
        = (SenderRun.of (.empty 4) ⟨7⟩ 1000 expiryAfterError).sender.input.hasError ∧
      (Machine.Meets step RstIffError (start (.empty 4) ⟨7⟩ 1000) expiryAfterError ↔
        Machine.Meets step NoReplayAfterError (start (.empty 4) ⟨7⟩ 1000) expiryAfterError) :=
  rst_iff_error_iff (ByteStream.new_eq_ok (by decide)) ⟨7⟩ 1000 expiryAfterError

/-- The SYN is then transmitted again, without RST. -/
theorem replay_without_rst :
    ¬ Machine.Meets step RstIffError (start (.empty 4) ⟨7⟩ 1000) expiryAfterError := by
  rintro ⟨-, -, htick, -⟩
  have hrst : ({ SYN := true, seqno := ⟨7⟩ } : TCPSenderMessage).RST = true :=
    htick _ (by decide)
  cases hrst

end SenderRun

end Minnow
