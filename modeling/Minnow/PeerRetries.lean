import Minnow.PeerLifecycle

namespace Minnow

/-!
# How often a peer retransmits

The configuration names a maximum of attempts before giving up, but neither `tick` nor `active`
looks at it: a peer whose timer runs out once more goes on.

* `PeerRun.WithinRetries` — what the configuration promises of a state;
* `PeerRun.ExceedsRetries` — the one kind of step that breaks the promise;
* `PeerRun.retries_bounded_iff` — it is kept all along a run iff no such step is in it.
-/

open TCPSender

namespace Tiling

variable {accepted : Bytes} {s : TCPSender} {sent : List TCPSenderMessage}

/-- Where something is outstanding, sequence numbers are in flight. -/
theorem inFlight_ne_zero (h : Tiling accepted s sent) (hout : s.outstandingSegments ≠ []) :
    s.sequenceNumbersInFlight ≠ 0 := by
  rwa [Ne, h.inFlight_eq_zero_iff]

/-- A push retransmits nothing. -/
theorem count_push (h : Tiling accepted s sent) :
    s.push.1.consecutiveRetransCount = s.consecutiveRetransCount := by
  obtain ⟨ms, s', heq, hcase⟩ := push_cases h.wf h.nextSeqno_of_not_syn
  rw [heq]
  cases hcase with
  | reset | full => rfl
  | syn _ _ hemit => exact hemit.count_eq
  | segments _ _ hemit =>
    exact hemit.const (·.consecutiveRetransCount) fun _ _ _ hm => hm.count_eq

/-- A message leaves the count, or starts it again. -/
theorem count_receive (h : Tiling accepted s sent) (msg : TCPReceiverMessage) :
    (s.receive msg).consecutiveRetransCount = s.consecutiveRetransCount ∨
      (s.receive msg).consecutiveRetransCount = 0 := by
  have hcase := receive_cases h.length_lt msg
  generalize s.receive msg = s' at hcase
  cases hcase with
  | reset | ignored | old => exact .inl rfl
  | new => exact .inr rfl

end Tiling

namespace PeerRun

/-- How many consecutive retransmissions the sender has counted. -/
def retries (r : PeerRun) : ℕ := r.peer.sender.consecutiveRetransmissions.toNat

/-- After more than the maximum of attempts the peer has given up. -/
def WithinRetries (r : PeerRun) : Prop :=
  r.peer.active = true → r.retries ≤ TCPConfig.maxRetxAttempts

/-- An active peer has made all its attempts, and the timer runs out on something outstanding,
    with a window that is not zero. -/
def ExceedsRetries (r : PeerRun) : PeerOp → Prop
  | .tick ms =>
    r.peer.active = true ∧ r.retries = TCPConfig.maxRetxAttempts ∧
      r.peer.sender.timerRunning = true ∧
      r.peer.sender.currentRTO ≤ r.peer.sender.timerElapsed + ms ∧
      r.peer.sender.outstandingSegments ≠ [] ∧ r.peer.sender.windowSize ≠ 0
  | _ => False

variable {capacity : UInt64} {input : ByteStream} {isn : Wrap32} {rto : UInt64} {r : PeerRun}

/-- A peer without error stays active as long as something is outstanding. -/
theorem Tracked.active_of_outstanding (h : Tracked input isn rto r)
    (hnew : ByteStream.new capacity = .ok input) (herrs : r.peer.anyErrors = false)
    (hout : r.peer.sender.outstandingSegments ≠ []) : r.peer.active = true := by
  have ht := h.tiling hnew
  by_contra hinactive
  rw [Bool.not_eq_true, TCPPeer.inactive_iff ht.wf, herrs] at hinactive
  obtain ⟨hflight, -⟩ := hinactive.resolve_left Bool.false_ne_true
  exact ht.inFlight_ne_zero hout hflight

/-- What keeps the promise, beside what ties a peer to its history: an inactive peer without error
    may become active again, but an error stays. -/
structure Limited (input : ByteStream) (isn : Wrap32) (rto : UInt64) (r : PeerRun) : Prop
    extends Tracked input isn rto r where
  limit : r.peer.anyErrors = true ∨ r.retries ≤ TCPConfig.maxRetxAttempts

theorem Limited.withinRetries (h : Limited input isn rto r) : r.WithinRetries := by
  intro hact
  refine h.limit.resolve_left fun herrs => ?_
  rw [TCPPeer.active, herrs] at hact
  simp at hact

/-- A tick at which the timer runs out on something outstanding, with a window that is not
    zero. -/
theorem retries_tick {ms : UInt64} (hrun : r.peer.sender.timerRunning = true)
    (hexp : r.peer.sender.currentRTO ≤ r.peer.sender.timerElapsed + ms)
    (hout : r.peer.sender.outstandingSegments ≠ []) (hwindow : r.peer.sender.windowSize ≠ 0)
    (hle : r.retries ≤ TCPConfig.maxRetxAttempts) :
    (r.step (.tick ms)).retries = r.retries + 1 := by
  obtain ⟨out, s', heq, hcase⟩ := tick_cases r.peer.sender ms
  have hsender : (r.step (.tick ms)).peer.sender = s' := congrArg Prod.fst heq
  rw [retries, hsender]
  cases hcase with
  | waiting hwait =>
    rcases hwait hrun with hlt | hnil
    · exact absurd hlt (UInt64.not_lt.mpr hexp)
    · exact absurd hnil hout
  | expired =>
    have hcount : r.peer.sender.consecutiveRetransCount.toNat ≤ 8 := hle
    simp only [consecutiveRetransmissions, hwindow, if_false]
    rw [toNat_add_of_lt (by rw [UInt64.toNat_one]; omega), UInt64.toNat_one]
    rfl

/-- **Step.**  Every other step keeps the promise. -/
theorem Limited.step (h : Limited input isn rto r) (hnew : ByteStream.new capacity = .ok input)
    {op : PeerOp} (hop : ¬ r.ExceedsRetries op) : Limited input isn rto (r.step op) := by
  refine ⟨h.toTracked.step hnew op, ?_⟩
  have ht := h.tiling hnew
  by_cases herrs : r.peer.anyErrors = true
  · exact .inl (h.toTracked.anyErrors_step hnew herrs op)
  have hle : r.retries ≤ TCPConfig.maxRetxAttempts := h.limit.resolve_left herrs
  right
  cases op with
  | write | close | setOutboundError | setInboundError | read => exact hle
  | push =>
    show r.peer.sender.push.1.consecutiveRetransCount.toNat ≤ _
    rw [ht.count_push]
    exact hle
  | tick ms =>
    obtain ⟨out, s', heq, hcase⟩ := tick_cases r.peer.sender ms
    have hsender : (r.step (.tick ms)).peer.sender = s' := congrArg Prod.fst heq
    have hsame : s'.consecutiveRetransCount = r.peer.sender.consecutiveRetransCount →
        (r.step (.tick ms)).retries ≤ TCPConfig.maxRetxAttempts := by
      intro heq'
      rw [retries, hsender, consecutiveRetransmissions, heq']
      exact hle
    cases hcase with
    | waiting => exact hsame rfl
    | @expired seg rest hrun hexp hout =>
      by_cases hwindow : r.peer.sender.windowSize = 0
      · exact hsame (if_pos hwindow)
      · -- one more retransmission: it is not the one too many
        have hne : r.peer.sender.outstandingSegments ≠ [] := by simp [hout]
        have hact := h.toTracked.active_of_outstanding hnew (by simpa using herrs) hne
        have hlast : r.retries ≠ TCPConfig.maxRetxAttempts :=
          fun hlast => hop ⟨hact, hlast, hrun, hexp, hne, hwindow⟩
        rw [retries_tick hrun hexp hne hwindow hle]
        omega
  | receive msg =>
    show (r.peer.receive msg).1.sender.consecutiveRetransCount.toNat ≤ _
    cases hact : r.peer.active with
    | true =>
      rw [(TCPPeer.receive_of_active hact msg).1, (ht.receive msg.receiver).count_push]
      rcases ht.count_receive msg.receiver with hsame | hzero
      · rw [hsame]
        exact hle
      · rw [hzero]
        exact Nat.zero_le _
    | false =>
      rw [TCPPeer.receive_of_inactive hact]
      exact hle

/-- **The step too many.**  The peer is still active after it. -/
theorem Tracked.not_withinRetries (h : Tracked input isn rto r)
    (hnew : ByteStream.new capacity = .ok input) {op : PeerOp} (hop : r.ExceedsRetries op) :
    ¬ (r.step op).WithinRetries := by
  cases op with
  | write | close | setOutboundError | setInboundError | read | push | receive => exact hop.elim
  | tick ms =>
    obtain ⟨hact, hlast, hrun, hexp, hout, hwindow⟩ := hop
    obtain ⟨out, s', heq, hcase⟩ := tick_cases r.peer.sender ms
    have hsender : (r.step (.tick ms)).peer.sender = s' := congrArg Prod.fst heq
    -- a tick changes neither the streams nor what is outstanding
    have hsame : s'.input = r.peer.sender.input ∧
        s'.outstandingSegments = r.peer.sender.outstandingSegments := by
      cases hcase <;> exact ⟨rfl, rfl⟩
    have herrs : (r.step (.tick ms)).peer.anyErrors = false := by
      have hbefore : r.peer.anyErrors = false := by
        by_contra herrs
        rw [TCPPeer.active, Bool.eq_true_of_not_eq_false herrs] at hact
        simp at hact
      rw [← hbefore, TCPPeer.anyErrors, TCPPeer.outbound, hsender, hsame.1]
      rfl
    have hact' : (r.step (.tick ms)).peer.active = true := by
      refine (h.step hnew (.tick ms)).active_of_outstanding hnew herrs ?_
      rw [hsender, hsame.2]
      exact hout
    intro hwithin
    have hle := hwithin hact'
    rw [retries_tick hrun hexp hout hwindow hlast.le, hlast] at hle
    omega

theorem limited_start {cfg : TCPConfig} {peer : TCPPeer} (h : TCPPeer.new cfg = .ok peer) :
    ∃ input, ByteStream.new cfg.sendCapacity = .ok input ∧
      Limited input cfg.isn cfg.rtTimeout.toUInt64 (start peer) := by
  obtain ⟨input, hnew, htracked⟩ := tracked_start h
  obtain ⟨_, _, -, -, hsender, -⟩ := TCPPeer.new_spec h
  refine ⟨input, hnew, htracked, .inr ?_⟩
  show peer.sender.consecutiveRetransCount.toNat ≤ _
  rw [hsender]
  exact Nat.zero_le _

/-- **The peer gives up as documented, all along a run, iff the timer of an active peer never runs
    out again after the last attempt.** -/
theorem retries_bounded_iff {cfg : TCPConfig} {peer : TCPPeer} (h : TCPPeer.new cfg = .ok peer)
    (ops : List PeerOp) :
    (∀ ops', ops' <+: ops → (of peer ops').WithinRetries) ↔
      Machine.Meets step (fun r op => ¬ r.ExceedsRetries op) (start peer) ops := by
  obtain ⟨input, hnew, hstart⟩ := limited_start h
  constructor
  · intro hall
    rw [Machine.meets_iff_prefix]
    intro ops' op hpre hop
    have htracked : Tracked input cfg.isn cfg.rtTimeout.toUInt64 (of peer ops') :=
      Machine.run_invariant (fun _ op h => h.step hnew op) hstart.toTracked ops'
    refine htracked.not_withinRetries hnew hop ?_
    have hwithin := hall _ hpre
    rwa [of, Machine.run_concat] at hwithin
  · rintro hmeets ops' ⟨rest, rfl⟩
    have hlimited : Limited input cfg.isn cfg.rtTimeout.toUInt64 (of peer ops') :=
      (Machine.meets_append.mp hmeets).1.invariant (fun _ _ h hop => h.step hnew hop) hstart
    exact hlimited.withinRetries

/-- The SYN, and one timeout. -/
theorem retries_bounded_once :
    ∃ peer, TCPPeer.new briefConfig = .ok peer ∧
      ∀ ops', ops' <+: [.push, .tick 1] → (of peer ops').WithinRetries := by
  have hnew : TCPPeer.new briefConfig = .ok _ := TCPPeer.new_eq_ok (by decide) (by decide)
  refine ⟨_, hnew, (retries_bounded_iff hnew [.push, .tick 1]).mpr ⟨id, ?_, trivial⟩⟩
  rintro ⟨-, hlast, -⟩
  exact absurd hlast (by decide)

/-- The SYN of a peer with a timeout of 1 ms is never answered: the timer runs out nine times, and
    the peer is still active. -/
theorem retries_exceeded :
    ¬ ∀ cfg peer, TCPPeer.new cfg = .ok peer → ∀ ops, (of peer ops).WithinRetries := by
  intro hall
  have hnew : TCPPeer.new briefConfig = .ok _ := TCPPeer.new_eq_ok (by decide) (by decide)
  have hwithin := hall briefConfig _ hnew [.push, .tick 1, .tick 2, .tick 4, .tick 8, .tick 16,
    .tick 32, .tick 64, .tick 128, .tick 256]
  exact absurd (hwithin (by decide)) (by decide)

end PeerRun

end Minnow
