import Minnow.SenderAck

namespace Minnow

/-!
# The sender and the windows it was told

Two promises about the receiver's window, and the exact extent to which `push` keeps them.

* `push_fits_iff` — after a `push` that transmits a segment, what is in flight fits in the most
  recent window.  The loop keeps this promise always; the SYN segment breaks it when the window
  is 0 and it has anything to carry, and when its FIN comes on top of a payload that fills the
  window;
* `push_within_edges` — no new segment goes beyond the right edges advertised by the acceptable
  messages received so far.  `receive` takes over the window of every message, acceptable or not,
  so this needs a condition on the messages: each one brings an acknowledgment that is acceptable
  and not behind the last one, or a window that does not reach further than an edge already
  advertised.
-/

open TCPSender SlidingWindow

namespace TCPSender

/-- When the segments of a `push` fit in the window: always after the SYN; and for the SYN
    segment, if the window is 0, when there is nothing to send with it, and otherwise when there
    is no FIN to send behind a payload that leaves no room. -/
def PushFits (s : TCPSender) : Prop :=
  s.senderSyn = false →
    (s.windowSize = 0 → s.input.bytesBuffered = 0 ∧ s.input.isClosed = false) ∧
    (s.windowSize ≠ 0 → s.input.isClosed = true →
      s.input.bytesBuffered.toNat ≤ TCPConfig.maxPayloadSize →
        s.input.bytesBuffered.toNat ≠ s.windowSize.toNat - 1)

instance (s : TCPSender) : Decidable s.PushFits := by
  unfold PushFits
  infer_instance

/-- The window the SYN segment leaves for its payload: it wraps when the window is 0. -/
theorem toNat_window_sub_one (w : UInt16) :
    (w.toUInt64 - 1).toNat = if w = 0 then 2 ^ 64 - 1 else w.toNat - 1 := by
  by_cases hw : w = 0
  · rw [if_pos hw, hw]
    rfl
  · have hpos : 1 ≤ w.toNat := by
      rw [Nat.one_le_iff_ne_zero, ← UInt16.toNat_zero, Ne, UInt16.toNat_inj]
      exact hw
    have hle : (1 : UInt64) ≤ w.toUInt64 := by
      rw [UInt64.le_iff_toNat_le, UInt16.toNat_toUInt64]
      exact hpos
    rw [if_neg hw, UInt64.toNat_sub_of_le _ _ hle, UInt16.toNat_toUInt64, UInt64.toNat_one]

end TCPSender

namespace SenderRun

variable {isn : Wrap32} {rto : UInt64} {r : SenderRun}

/-- The history's window is the sender's. -/
structure WindowKnown (isn : Wrap32) (rto : UInt64) (r : SenderRun) : Prop
    extends Tiled isn rto r where
  window_eq : r.sender.windowSize.toNat = r.window

/-- **Step.**  The window is that of the last message. -/
theorem WindowKnown.step (h : r.WindowKnown isn rto) (op : SenderOp) :
    (r.step op).WindowKnown isn rto := by
  refine ⟨h.toTiled.step op, ?_⟩
  have hwin := h.window_eq
  cases op with
  | write | close | setError => exact hwin
  | push =>
    obtain ⟨ms, s', heq, hcase⟩ := push_cases h.tiling.wf h.tiling.nextSeqno_of_not_syn
    show r.sender.push.1.windowSize.toNat = r.window
    rw [heq, ← hwin]
    cases hcase with
    | reset | full => rfl
    | syn _ _ hemit => rw [hemit.windowSize_eq]
    | segments _ _ hemit => rw [hemit.const (·.windowSize) fun _ _ _ hm => hm.windowSize_eq]
  | tick ms =>
    obtain ⟨out, s', heq, hcase⟩ := tick_cases r.sender ms
    show (r.sender.tick ms).1.windowSize.toNat = r.window
    rw [heq, ← hwin]
    cases hcase <;> rfl
  | receive msg =>
    -- only a message that is no reset brings a window
    have hcase := receive_cases h.tiling.length_lt msg
    show (r.sender.receive msg).windowSize.toNat
      = if msg.RST then r.window else msg.windowSize.toNat
    generalize r.sender.receive msg = s' at hcase ⊢
    cases hcase with
    | reset hrst => rw [if_pos hrst]; exact hwin
    | ignored hrst | old hrst | new hrst => simp [hrst]

/-- **Run.**  The window is known after any operations. -/
theorem windowKnown_of {capacity : UInt64} {input : ByteStream}
    (h : ByteStream.new capacity = .ok input) (isn : Wrap32) (rto : UInt64)
    (ops : List SenderOp) : (SenderRun.of input isn rto ops).WindowKnown isn rto :=
  Machine.run_invariant (fun _ op hw => hw.step op) ⟨tiled_of h isn rto [], rfl⟩ ops

/-- The SYN segment with its payload and FIN fits in the window exactly under the condition. -/
theorem syn_fits_iff {s s' : TCPSender} {m : TCPSenderMessage} (hwf : s.input.WF)
    (hsyn : s.senderSyn = false) (hfinSent : s.finSent = false) (hemit : Emits s m s')
    (hpay : m.payload = s.input.contents.take
      (min TCPConfig.maxPayloadSize (s.windowSize.toUInt64 - 1).toNat))
    (hfin : m.FIN = true ↔ s.input.eof = true ∧ s'.input.contents = [] ∧ s.finSent = false) :
    m.sequenceLength ≤ s.effectiveWindow ↔ s.PushFits := by
  have hlim : TCPConfig.maxPayloadSize = 1000 := rfl
  have hbuf := ByteStream.toNat_bytesBuffered hwf
  have hzero := ByteStream.bytesBuffered_eq_zero hwf
  have hrest := congrArg List.length hemit.read.contents_eq
  have hlen := congrArg List.length hpay
  rw [List.length_append] at hrest
  rw [List.length_take, toNat_window_sub_one] at hlen
  have hfin' : m.FIN = true ↔ s.input.eof = true ∧ s'.input.contents.length = 0 := by
    rw [hfin, List.length_eq_zero_iff]
    simp [hfinSent]
  have hsize : m.sequenceLength = 1 + m.payload.length + m.FIN.toNat := by
    rw [TCPSenderMessage.sequenceLength, hemit.syn_eq, hsyn]
    rfl
  rw [PushFits, hsize, effectiveWindow, hzero, hbuf, ← List.length_eq_zero_iff,
    ByteStream.isClosed]
  -- from here on it is arithmetic about the three lengths, the window and two flags
  generalize m.payload.length = p at *
  generalize s.input.contents.length = c at *
  generalize s'.input.contents.length = c' at *
  generalize m.FIN = f at *
  generalize s.input.eof = e at *
  by_cases hw : s.windowSize = 0
  · have hw0 : s.windowSize.toNat = 0 := by rw [hw]; rfl
    rw [if_pos hw] at hlen
    cases f <;> cases e <;> simp [hsyn, hw] at hfin' ⊢ <;> omega
  · have hw1 : s.windowSize.toNat ≠ 0 := by
      rw [← UInt16.toNat_zero, Ne, UInt16.toNat_inj]
      exact hw
    rw [if_neg hw] at hlen
    cases f <;> cases e <;> simp [hsyn, hw] at hfin' ⊢ <;> omega

/-- **The sender and the most recent window.** After a call of `push` that transmits a segment,
    what is in flight fits in the most recent window (or is a single sequence number) exactly
    when `PushFits` held before the call. -/
theorem push_fits_iff {capacity : UInt64} {input : ByteStream}
    (h : ByteStream.new capacity = .ok input) (isn : Wrap32) (rto : UInt64)
    (ops : List SenderOp)
    (hsends : ∃ m ∈ (SenderRun.of input isn rto ops).sender.push.2, m.RST = false) :
    (SenderRun.of input isn rto ops).sender.push.1.sequenceNumbersInFlight
        ≤ max (SenderRun.of input isn rto ops).window 1 ↔
      (SenderRun.of input isn rto ops).sender.PushFits := by
  have hwin := windowKnown_of h isn rto ops
  generalize SenderRun.of input isn rto ops = r at hwin hsends
  have ht := hwin.tiling
  rw [← hwin.window_eq]
  rw [ht.push.inFlight_eq]
  obtain ⟨ms, s', heq, hcase⟩ := push_cases ht.wf ht.nextSeqno_of_not_syn
  rw [heq] at hsends ⊢
  cases hcase with
  | reset => simp at hsends
  | full => simp at hsends
  | @syn m _ _ hsyn hemit hpay hfin =>
    have hnil := ht.outstanding_eq_nil hsyn
    have hfinSent : r.sender.finSent = false := by
      by_contra hne
      obtain ⟨m', hm', -⟩ := ht.finSent_iff.mp (by simpa using hne)
      rw [ht.sent_eq_nil hsyn] at hm'
      cases hm'
    -- the SYN segment alone is outstanding
    show seqnos s'.outstandingSegments ≤ r.sender.effectiveWindow ↔ _
    rw [hemit.outstanding_eq, hnil, List.nil_append, seqnos_singleton]
    exact syn_fits_iff ht.wf hsyn hfinSent hemit hpay hfin
  | segments _ hsyn hemit hroom _ =>
    have hfits : seqnos s'.outstandingSegments ≤ max r.sender.windowSize.toNat 1 := by
      rw [hemit.outstanding_eq, seqnos_append, ← ht.inFlight_eq]
      exact hroom
    exact iff_of_true hfits fun hfalse => by rw [hsyn] at hfalse; cases hfalse

/-- A sender that was given a window before its SYN went out. -/
def earlyWindow : SenderRun :=
  SenderRun.of (.empty 4) ⟨7⟩ 1000 [.receive { windowSize := 3 }, .write [1, 2, 3, 4]]

/-- The SYN is within the window of such a sender. -/
theorem push_fits_iff_early :
    earlyWindow.sender.push.1.sequenceNumbersInFlight ≤ max earlyWindow.window 1 ↔
      earlyWindow.sender.PushFits :=
  push_fits_iff (ByteStream.new_eq_ok (by decide)) ⟨7⟩ 1000
    [.receive { windowSize := 3 }, .write [1, 2, 3, 4]] (by decide)

/-- Before any message arrives the window is 1, and a stream closed before the SYN is sent puts
    two sequence numbers in flight at once. -/
theorem push_overfills_initial_window :
    (∃ m ∈ (SenderRun.of (.empty 4) ⟨7⟩ 1000 [.close]).sender.push.2, m.RST = false) ∧
      (SenderRun.of (.empty 4) ⟨7⟩ 1000 [.close]).window = 1 ∧
      ¬ (SenderRun.of (.empty 4) ⟨7⟩ 1000 [.close]).sender.push.1.sequenceNumbersInFlight
        ≤ max (SenderRun.of (.empty 4) ⟨7⟩ 1000 [.close]).window 1 := by
  decide

/-! ### The edges advertised -/

/-- The condition on a received message: it is acceptable and not behind the last acknowledgment,
    or its window, counted from the oldest outstanding sequence number, reaches no further than
    the initial window of 1 or an edge advertised before. -/
def AdvertisesEdge (r : SenderRun) : SenderOp → Prop
  | .receive msg => msg.RST = false →
      r.acked ≤ r.absAckno msg ∧ r.absAckno msg ≤ r.consumed ∨
        ∃ e ∈ 1 :: r.edges, r.base + max msg.windowSize.toNat 1 ≤ e
  | _ => True

/-- The invariant: the window of the sender reaches no further than an edge. -/
structure Edged (isn : Wrap32) (rto : UInt64) (r : SenderRun) : Prop
    extends Acking isn rto r where
  edge : ∃ e ∈ 1 :: r.edges, r.base + r.sender.effectiveWindow ≤ e

/-- Edges once advertised stay. -/
theorem mem_edgesAfter {msg : TCPReceiverMessage} {e : ℕ} (he : e ∈ r.edges) :
    e ∈ r.edgesAfter msg := by
  unfold edgesAfter
  split
  · exact List.mem_append_left _ he
  · exact he

/-- The edge of an acceptable message is among the edges after it. -/
theorem edge_mem_edgesAfter {msg : TCPReceiverMessage} (hrst : msg.RST = false)
    (hle : r.absAckno msg ≤ r.consumed) :
    r.absAckno msg + max msg.windowSize.toNat 1 ∈ r.edgesAfter msg := by
  rw [edgesAfter, if_pos ⟨hrst, hle⟩]
  exact List.mem_append_right _ (List.mem_singleton.mpr rfl)

/-- **Step.**  An acknowledgment within its cycle, and an advertisement that does not wrap. -/
theorem Edged.step (h : r.Edged isn rto) (op : SenderOp) (hcycle : r.AcksInCycle op)
    (hedge : r.AdvertisesEdge op) (hlt : r.consumed < 2 ^ 31) : (r.step op).Edged isn rto := by
  have hstep := h.toAcking.step op hcycle
  refine ⟨hstep, ?_⟩
  obtain ⟨e, he, hle⟩ := h.edge
  -- other operations move neither the window nor its edges
  have hframe : (∀ msg, op ≠ .receive msg) → (r.step op).edges = r.edges →
      ∃ e ∈ 1 :: (r.step op).edges, (r.step op).base + (r.step op).sender.effectiveWindow ≤ e := by
    intro hop hsame
    obtain ⟨hbase, hwin⟩ := h.base_step hop
    rw [hbase, hsame, effectiveWindow, hwin]
    exact ⟨e, he, hle⟩
  cases op with
  | write | close | setError | push | tick => exact hframe (by simp) rfl
  | receive msg =>
    have hbase := h.base_le
    have hcase := h.ack_cases hcycle
    have hsub : ∀ {e}, e ∈ 1 :: r.edges → e ∈ 1 :: r.edgesAfter msg := fun he =>
      List.mem_cons.mpr ((List.mem_cons.mp he).imp_right mem_edgesAfter)
    show ∃ e ∈ 1 :: r.edgesAfter msg,
      r.consumed - seqnos (r.sender.receive msg).outstandingSegments
        + (r.sender.receive msg).effectiveWindow ≤ e
    generalize r.sender.receive msg = s' at hcase
    cases hcase with
    | reset hrst => exact ⟨e, hsub he, hle⟩
    | window hrst hsame =>
      show ∃ e ∈ 1 :: r.edgesAfter msg, r.base + max msg.windowSize.toNat 1 ≤ e
      rcases hedge hrst with ⟨hlo, hhi⟩ | ⟨e', he', hle'⟩
      · exact ⟨_, List.mem_cons_of_mem _ (edge_mem_edgesAfter hrst hhi), by omega⟩
      · exact ⟨e', hsub he', hle'⟩
    | @advance A hrst hack hnew hhi _ left hleft =>
      obtain ⟨-, hfirst, -, -⟩ := h.advance hnew hleft
      have habs := absAckno_eq hlt hack hhi
      show ∃ e ∈ 1 :: r.edgesAfter msg, r.consumed - seqnos left + max msg.windowSize.toNat 1 ≤ e
      exact ⟨_, List.mem_cons_of_mem _ (edge_mem_edgesAfter hrst (habs ▸ hhi)), by omega⟩

/-- A run whose messages meet the condition, in the first half cycle. -/
theorem edged_of {capacity : UInt64} {input : ByteStream}
    (h : ByteStream.new capacity = .ok input) {isn : Wrap32} {rto : UInt64}
    {ops : List SenderOp}
    (hrun : Machine.Meets step AdvertisesEdge (start input isn rto) ops)
    (hlt : (SenderRun.of input isn rto ops).consumed < 2 ^ 31) :
    (SenderRun.of input isn rto ops).Edged isn rto := by
  refine hrun.invariant_of_bound (fun r => r.consumed < 2 ^ 31) ?_ ?_
    ⟨acking_start h isn rto, ?_⟩ hlt
  · exact fun r op hend => lt_of_le_of_lt (r.consumed_le_step op) hend
  · intro r op hedged hedge hend
    have hle := r.consumed_le_step op
    exact hedged.step op (hedged.acksInCycle_of_lt (by omega) op) hedge (by omega)
  · exact ⟨1, List.mem_cons_self, le_rfl⟩

/-- The segments that a call of `push` transmits, with their exact ends. -/
def newSegments (r : SenderRun) : List (TCPSenderMessage × ℕ) :=
  ends TCPSenderMessage.sequenceLength r.consumed (r.sender.push.2.filter fun m => ¬ m.RST)

/-- What a `push` after the SYN transmits ends within the window counted from the oldest
    outstanding sequence number. -/
theorem Acking.newSegments_le (h : r.Acking isn rto) (hsyn : r.sender.senderSyn = true) :
    ∀ p ∈ r.newSegments, p.2 ≤ r.base + r.sender.effectiveWindow := by
  intro p hp
  have hadd := h.base_add
  obtain ⟨ms, s', heq, hcase⟩ := push_cases h.tiling.wf h.tiling.nextSeqno_of_not_syn
  rw [newSegments, heq] at hp
  cases hcase with
  | reset | full => simp [ends] at hp
  | syn _ hfalse => rw [hsyn] at hfalse; cases hfalse
  | segments _ _ hemit hroom _ =>
    rw [hemit.filter_eq] at hp
    have hflight := h.tiling.inFlight_eq
    have hend : p.2 ≤ r.consumed + seqnos ms := (bounds_of_mem_ends hp).2
    omega

/-- **The sender and the advertised edges.** In a run in the first half cycle whose messages meet
    the condition, every segment that a push after the SYN transmits for the first time ends at
    or before some right edge advertised by an acceptable message. -/
theorem push_within_edges {capacity : UInt64} {input : ByteStream}
    (h : ByteStream.new capacity = .ok input) {isn : Wrap32} {rto : UInt64}
    {ops : List SenderOp}
    (hrun : Machine.Meets step AdvertisesEdge (start input isn rto) ops)
    (hlt : (SenderRun.of input isn rto ops).consumed < 2 ^ 31)
    (hsyn : (SenderRun.of input isn rto ops).sender.senderSyn = true) :
    ∀ p ∈ (SenderRun.of input isn rto ops).newSegments,
      ∃ e ∈ (SenderRun.of input isn rto ops).edges, p.2 ≤ e := by
  have hedged := edged_of h hrun hlt
  generalize SenderRun.of input isn rto ops = r at hedged hsyn
  intro p hp
  obtain ⟨e, he, hle⟩ := hedged.edge
  have hend := hedged.newSegments_le hsyn p hp
  rcases List.mem_cons.mp he with rfl | he
  · -- the initial window is taken up by the SYN, so that nothing can be transmitted
    have hpos : 0 < p.1.sequenceLength :=
      (hedged.tiling.push.segment p.1 (List.mem_append_right _ (fst_mem_of_mem_ends hp))).1
    have hstart := (bounds_of_mem_ends hp).1
    have hcons : r.consumed = r.sender.senderSyn.toNat + (payloads r.sent).length
      + r.sender.finSent.toNat := hedged.tiling.seqnos_eq
    rw [hsyn, Bool.toNat_true] at hcons
    omega
  · exact ⟨e, he, by omega⟩

/-- The SYN is acknowledged with a window of 3, and 5 bytes are written. -/
def windowOfThree : List SenderOp :=
  [.push, .receive { ackno := some ⟨8⟩, windowSize := 3 }, .write [1, 2, 3, 4, 5]]

/-- Three segments within a window of three. -/
theorem push_within_edges_three :
    (SenderRun.of (.empty 8) ⟨7⟩ 1000 windowOfThree).newSegments ≠ [] ∧
      ∀ p ∈ (SenderRun.of (.empty 8) ⟨7⟩ 1000 windowOfThree).newSegments,
        ∃ e ∈ (SenderRun.of (.empty 8) ⟨7⟩ 1000 windowOfThree).edges, p.2 ≤ e := by
  have hrun : Machine.Meets step AdvertisesEdge (start (.empty 8) ⟨7⟩ 1000) windowOfThree :=
    ⟨trivial, fun _ => .inl (by decide), trivial, trivial⟩
  exact ⟨by decide,
    push_within_edges (ByteStream.new_eq_ok (by decide)) hrun (by decide) (by decide)⟩

/-- A message that acknowledges what was never sent, with a window of 5. -/
def windowOfFive : SenderRun :=
  SenderRun.of (.empty 8) ⟨7⟩ 1000
    (windowOfThree ++ [.receive { ackno := some ⟨100⟩, windowSize := 5 }])

/-- It is ignored except for its window: the push after it transmits beyond the only edge
    advertised. -/
theorem push_beyond_edge :
    windowOfFive.consumed < 2 ^ 31 ∧ windowOfFive.sender.senderSyn = true ∧
      ¬ ∀ p ∈ windowOfFive.newSegments, ∃ e ∈ windowOfFive.edges, p.2 ≤ e := by
  decide

/-- The condition is not too strong: a push with enough data uses up the window it was given, as
    counted from the oldest outstanding sequence number. -/
theorem Acking.push_fills (h : r.Acking isn rto) (hsyn : r.sender.senderSyn = true)
    (herr : r.sender.input.error = false)
    (hroom : r.consumed < r.base + r.sender.effectiveWindow)
    (hdata : r.base + r.sender.effectiveWindow
      ≤ r.consumed + r.sender.input.contents.length) :
    (r.step .push).consumed = r.base + r.sender.effectiveWindow := by
  have ht := h.tiling
  have ht' := ht.push
  have hadd := h.base_add
  have hflight := ht.inFlight_eq
  have hfin : r.sender.finSent = false := by
    refine ht.finSent_eq_false (.inr fun hnil => ?_)
    rw [hnil, List.length_nil] at hdata
    omega
  obtain ⟨ms, s', heq, hcase⟩ := push_cases ht.wf ht.nextSeqno_of_not_syn
  have hcons : (r.step .push).consumed = seqnos (r.sent ++ ms.filter fun m => ¬ m.RST) := by
    simp only [SenderRun.step, consumed, heq]
  rw [hcons]
  rw [heq] at ht'
  cases hcase with
  | reset htrue => rw [herr] at htrue; cases htrue
  | syn _ hfalse => rw [hsyn] at hfalse; cases hfalse
  | full _ _ hfull => omega
  | segments _ _ hemit hle hstop =>
    rw [hemit.filter_eq, seqnos_append]
    rw [hemit.filter_eq] at ht'
    have hsent : seqnos r.sent = r.consumed := rfl
    rcases hstop with hfull | ⟨hnil, -⟩
    · omega
    · -- the stream is used up, and it held enough for the whole window
      have hseq := ht.seqnos_eq
      have hseq' := ht'.seqnos_eq
      have hlen := congrArg List.length (ht.accepted_eq.symm.trans ht'.accepted_eq)
      rw [hnil, List.length_append, List.length_append, List.length_nil] at hlen
      have hsyn' := hemit.senderSyn_eq hsyn
      rw [hsyn, hfin, Bool.toNat_false] at hseq
      rw [hsyn', seqnos_append] at hseq'
      omega

end SenderRun

end Minnow
