import Minnow.SenderRun

namespace Minnow

/-!
# The sender's transmissions tile the sequence space

Whatever is written, acknowledged (rightly or wrongly), or timed out, and however long the run,
the segments that `push` transmits lie end to end from the ISN on, and their payloads are the
bytes of the outbound stream in order.

`Tiling accepted s sent` relates a sender to the bytes accepted so far and the segments sent so
far.  It does not speak about acknowledgments at all, so it holds beyond the point where the
32-bit sequence numbers wrap.
-/

open TCPSender SlidingWindow

/-- The payload bytes of a list of segments, in order. -/
def payloads (l : List TCPSenderMessage) : Bytes := l.flatMap (·.payload)

@[simp] theorem payloads_nil : payloads [] = [] := rfl

@[simp] theorem payloads_cons (m : TCPSenderMessage) (l : List TCPSenderMessage) :
    payloads (m :: l) = m.payload ++ payloads l := rfl

@[simp] theorem payloads_append (l l' : List TCPSenderMessage) :
    payloads (l ++ l') = payloads l ++ payloads l' := List.flatMap_append

/-- An element of a list extended by one is the new one, or lies in the old list. -/
theorem append_singleton_eq_append_cons {α : Type*} {l₀ l l' : List α} {a x : α}
    (h : l₀ ++ [a] = l ++ x :: l') :
    l₀ = l ∧ a = x ∧ l' = [] ∨ ∃ t, l₀ = l ++ x :: t ∧ l' = t ++ [a] := by
  rcases List.eq_nil_or_concat l' with rfl | ⟨t, b, rfl⟩
  · obtain ⟨rfl, hx⟩ := List.append_inj' h rfl
    exact .inl ⟨rfl, (List.cons.inj hx).1, rfl⟩
  · rw [List.concat_eq_append, ← List.cons_append, ← List.append_assoc] at h
    obtain ⟨rfl, hb⟩ := List.append_inj' h rfl
    rw [(List.cons.inj hb).1]
    exact .inr ⟨t, rfl, List.concat_eq_append⟩

/-- What ties a sender to the bytes accepted and the segments sent so far. -/
structure Tiling (accepted : Bytes) (s : TCPSender) (sent : List TCPSenderMessage) : Prop where
  wf : s.input.WF
  accepted_eq : accepted = payloads sent ++ s.input.contents
  popped_eq : s.input.bytePopped = UInt64.ofNat (payloads sent).length
  nextSeqno_eq : s.nextSeqno = Wrap32.ofPos (seqnos sent) s.isn
  seqnos_eq : seqnos sent = s.senderSyn.toNat + (payloads sent).length + s.finSent.toNat
  tiles : Tiles TCPSenderMessage.sequenceLength
    (fun p m => m.seqno = Wrap32.ofPos p s.isn) 0 sent
  senderSyn_iff : s.senderSyn = true ↔ sent ≠ []
  syn_iff : ∀ l m l', sent = l ++ m :: l' → (m.SYN = true ↔ l = [])
  fin_last : ∀ l m l', sent = l ++ m :: l' → m.FIN = true → l' = []
  finSent_iff : s.finSent = true ↔ ∃ m ∈ sent, m.FIN = true
  finSent_closed : s.finSent = true → s.input.eof = true ∧ s.input.contents = []
  segment : ∀ m ∈ sent, 0 < m.sequenceLength ∧
    m.payload.length ≤ TCPConfig.maxPayloadSize ∧ m.RST = false
  outstanding : s.outstandingSegments ⊆ sent

namespace Tiling

variable {accepted : Bytes} {s s' : TCPSender} {sent : List TCPSenderMessage}

/-- A fresh sender has sent nothing. -/
theorem fresh {capacity : UInt64} {input : ByteStream} (h : ByteStream.new capacity = .ok input)
    (isn : Wrap32) (rto : UInt64) : Tiling [] (TCPSender.new input isn rto) [] := by
  obtain ⟨hwf, hcont, -, heof, -, -, hpop⟩ := ByteStream.new_spec h
  constructor
  case wf => exact hwf
  case accepted_eq => simp [TCPSender.new, hcont]
  case popped_eq => simp [TCPSender.new, hpop]
  case nextSeqno_eq => simp [TCPSender.new]
  all_goals simp [TCPSender.new, Tiles]

/-- The SYN goes out first. -/
theorem sent_eq_nil (h : Tiling accepted s sent) (hsyn : s.senderSyn = false) : sent = [] := by
  by_contra hne
  rw [h.senderSyn_iff.mpr hne] at hsyn
  cases hsyn

/-- Nothing is outstanding before the SYN. -/
theorem outstanding_eq_nil (h : Tiling accepted s sent) (hsyn : s.senderSyn = false) :
    s.outstandingSegments = [] :=
  List.subset_nil.mp (h.sent_eq_nil hsyn ▸ h.outstanding)

/-- Before the SYN goes out the next sequence number is the ISN. -/
theorem nextSeqno_of_not_syn (h : Tiling accepted s sent) (hsyn : s.senderSyn = false) :
    s.nextSeqno = s.isn := by
  rw [h.nextSeqno_eq, h.sent_eq_nil hsyn, seqnos, total_nil, Wrap32.ofPos_zero]

/-- What is in flight is what is outstanding. -/
theorem inFlight_eq (h : Tiling accepted s sent) :
    s.sequenceNumbersInFlight = seqnos s.outstandingSegments :=
  sequenceNumbersInFlight_eq h.outstanding_eq_nil

/-- Outstanding segments have positive length. -/
theorem inFlight_eq_zero_iff (h : Tiling accepted s sent) :
    s.sequenceNumbersInFlight = 0 ↔ s.outstandingSegments = [] := by
  rw [h.inFlight_eq]
  exact total_eq_zero _ fun m hm => (h.segment m (h.outstanding hm)).1

/-- The FIN goes out when the stream is closed and empty, and not before. -/
theorem finSent_eq_false (h : Tiling accepted s sent)
    (hmore : s.input.eof = false ∨ s.input.contents ≠ []) : s.finSent = false := by
  by_contra hne
  obtain ⟨heof, hnil⟩ := h.finSent_closed (by simpa using hne)
  rcases hmore with hopen | hleft
  · rw [hopen] at heof
    cases heof
  · exact hleft hnil

/-- After the FIN there is nothing left to transmit. -/
theorem not_emits_of_finSent (h : Tiling accepted s sent) (hfin : s.finSent = true)
    {m : TCPSenderMessage} (hm : Emits s m s') : False := by
  obtain ⟨m', hm', -⟩ := h.finSent_iff.mp hfin
  have hsyn : s.senderSyn = true := h.senderSyn_iff.mpr (List.ne_nil_of_mem hm')
  have hpay : m.payload = [] := by
    have := hm.read.contents_eq
    rw [(h.finSent_closed hfin).2] at this
    exact (List.append_eq_nil_iff.mp this.symm).1
  have hmfin : m.FIN = false := by
    by_contra hne
    have := (hm.fin (by simpa using hne)).1
    rw [hfin] at this
    cases this
  have hlen := hm.length_pos
  rw [TCPSenderMessage.sequenceLength, hm.syn_eq, hsyn, hpay, hmfin] at hlen
  simp at hlen

/-- **One more segment.** It starts where the last one ended, and takes the next bytes of the
    stream. -/
theorem emits (h : Tiling accepted s sent) {m : TCPSenderMessage} (hm : Emits s m s') :
    Tiling accepted s' (sent ++ [m]) := by
  have hnotfin : s.finSent = false := by
    by_contra hne
    exact h.not_emits_of_finSent (by simpa using hne) hm
  -- no segment that was sent has a FIN, as one would have been the last
  have hnofin : ∀ x ∈ sent, x.FIN = false := by
    intro x hx
    by_contra hne
    have := h.finSent_iff.mpr ⟨x, hx, by simpa using hne⟩
    rw [hnotfin] at this
    cases this
  constructor
  case wf => exact hm.read.wf
  case accepted_eq =>
    rw [h.accepted_eq, hm.read.contents_eq, payloads_append]
    simp
  case popped_eq =>
    rw [hm.read.popped_eq, h.popped_eq, payloads_append, List.length_append, UInt64.ofNat_add]
    simp
  case nextSeqno_eq =>
    rw [hm.nextSeqno_eq, h.nextSeqno_eq, Wrap32.ofPos_add, hm.isn_eq, seqnos_append,
      seqnos_singleton]
  case seqnos_eq =>
    rw [seqnos_append, seqnos_singleton, h.seqnos_eq, TCPSenderMessage.sequenceLength, hm.syn_eq,
      hm.senderSyn_eq, hm.finSent_eq, hnotfin, payloads_append, List.length_append]
    cases s.senderSyn <;> simp <;> omega
  case tiles =>
    rw [tiles_append, hm.isn_eq]
    refine ⟨h.tiles, ?_, trivial⟩
    show m.seqno = _
    rw [hm.seqno_eq, h.nextSeqno_eq, zero_add]
  case senderSyn_iff => simp [hm.senderSyn_eq]
  case syn_iff =>
    intro l x l' heq
    rcases append_singleton_eq_append_cons heq with ⟨rfl, rfl, rfl⟩ | ⟨t, hsent, rfl⟩
    · have := h.senderSyn_iff
      rw [hm.syn_eq]
      cases hsyn : s.senderSyn <;> simp_all
    · exact h.syn_iff l x t hsent
  case fin_last =>
    intro l x l' heq hf
    rcases append_singleton_eq_append_cons heq with ⟨rfl, rfl, rfl⟩ | ⟨t, hsent, rfl⟩
    · rfl
    · rw [hnofin x (by rw [hsent]; simp)] at hf
      cases hf
  case finSent_iff =>
    rw [hm.finSent_eq, hnotfin]
    simp only [Bool.false_or, List.mem_append, List.mem_singleton]
    constructor
    · exact fun hf => ⟨m, .inr rfl, hf⟩
    · rintro ⟨x, hx | rfl, hf⟩
      · rw [hnofin x hx] at hf
        cases hf
      · exact hf
  case finSent_closed =>
    rw [hm.finSent_eq, hnotfin, Bool.false_or]
    exact fun hf => (hm.fin hf).2
  case segment =>
    intro x hx
    rcases List.mem_append.mp hx with hx | hx
    · exact h.segment x hx
    · rw [List.mem_singleton.mp hx]
      exact ⟨hm.length_pos, hm.payload_le, hm.rst_eq⟩
  case outstanding =>
    rw [hm.outstanding_eq]
    exact List.append_subset.mpr ⟨fun x hx => List.mem_append_left _ (h.outstanding hx), by simp⟩

/-! ### The operations -/

/-- Segments are shorter than the sequence space. -/
theorem length_lt (h : Tiling accepted s sent) :
    ∀ m ∈ s.outstandingSegments, m.sequenceLength < 2 ^ 32 := by
  intro m hm
  have := (h.segment m (h.outstanding hm)).2.1
  have hlim : TCPConfig.maxPayloadSize = 1000 := rfl
  have hsyn := m.SYN.toNat_le
  have hfin := m.FIN.toNat_le
  rw [TCPSenderMessage.sequenceLength]
  omega

/-- Bytes that are accepted are behind those sent. -/
theorem write (h : Tiling accepted s sent) (data : Bytes) :
    Tiling (accepted ++ s.input.accepted data) { s with input := s.input.push data } sent := by
  obtain ⟨hwf, hcont, -, heof, -, hpop, -⟩ := ByteStream.push_spec h.wf data
  refine { h with wf := hwf, accepted_eq := ?_, popped_eq := ?_, finSent_closed := ?_ }
  · rw [hcont, h.accepted_eq, List.append_assoc]
  · rw [hpop, h.popped_eq]
  · intro hfin
    -- a stream that has had its FIN sent is closed and takes no more bytes
    obtain ⟨hclosed, hnil⟩ := h.finSent_closed hfin
    refine ⟨by rw [heof, hclosed], ?_⟩
    rw [hcont, hnil, ByteStream.accepted, if_pos hclosed, List.append_nil]

/-- Nothing was sent by closing. -/
theorem close (h : Tiling accepted s sent) :
    Tiling accepted { s with input := s.input.close } sent :=
  { h with wf := h.wf.close, finSent_closed := fun hfin => ⟨rfl, (h.finSent_closed hfin).2⟩ }

/-- Nothing was sent by an error. -/
theorem setError (h : Tiling accepted s sent) :
    Tiling accepted { s with input := s.input.setError } sent :=
  { h with wf := h.wf.setError }

/-- The segments among the messages of a `push` are sent; a reset is not a segment. -/
theorem push (h : Tiling accepted s sent) :
    Tiling accepted s.push.1 (sent ++ s.push.2.filter fun m => ¬ m.RST) := by
  obtain ⟨ms, s', heq, hcase⟩ := push_cases h.wf h.nextSeqno_of_not_syn
  have hrun : ∀ {ms s'}, Emitted s ms s' → Tiling accepted s' (sent ++ ms) := fun hemit =>
    hemit.invariant (P := fun s sent => Tiling accepted s sent)
      (fun _ _ _ _ h0 hm => h0.emits hm) sent h
  rw [heq]
  cases hcase with
  | reset herr => simpa using h
  | @syn m _ herr hsyn hemit hpay hfin =>
    have := h.emits hemit
    simpa [hemit.rst_eq] using this
  | full herr hsyn hfull => simpa using h
  | segments herr hsyn hemit hroom hstop =>
    rw [hemit.filter_eq]
    exact hrun hemit

/-- A push does not touch the error flag. -/
theorem error_push (h : Tiling accepted s sent) : s.push.1.input.error = s.input.error := by
  obtain ⟨ms, s', heq, hcase⟩ := push_cases h.wf h.nextSeqno_of_not_syn
  rw [heq]
  cases hcase with
  | reset | full => rfl
  | syn herr hsyn hemit => exact hemit.read.error_eq
  | segments herr hsyn hemit =>
    exact hemit.const (·.input.error) fun _ _ _ hm => hm.read.error_eq

/-- After the FIN a push changes nothing, and sends no segment. -/
theorem push_of_finSent (h : Tiling accepted s sent) (hfin : s.finSent = true) :
    s.push.1 = s ∧ (s.push.2.filter fun m => ¬ m.RST) = [] := by
  obtain ⟨ms, s', heq, hcase⟩ := push_cases h.wf h.nextSeqno_of_not_syn
  rw [heq]
  cases hcase with
  | reset | full => exact ⟨rfl, rfl⟩
  | syn herr hsyn hemit => exact (h.not_emits_of_finSent hfin hemit).elim
  | segments herr hsyn hemit =>
    cases hemit with
    | nil => exact ⟨rfl, rfl⟩
    | cons hm => exact (h.not_emits_of_finSent hfin hm).elim

/-- An acknowledgment takes outstanding segments from the front. -/
theorem receive (h : Tiling accepted s sent) (msg : TCPReceiverMessage) :
    Tiling accepted (s.receive msg) sent := by
  have hkept : ∀ A, s.kept A ⊆ sent := fun A =>
    List.Subset.trans (List.filter_subset_self _) h.outstanding
  have hcase := receive_cases h.length_lt msg
  generalize s.receive msg = s' at hcase
  cases hcase with
  | reset hrst => exact h.setError
  | ignored hrst hack => exact { h with }
  | old hrst hack hvalid hold => exact { h with outstanding := hkept _ }
  | new hrst hack hvalid hnew => exact { h with outstanding := hkept _ }

/-- What `tick` transmits was sent before. -/
theorem tick (h : Tiling accepted s sent) (ms : UInt64) :
    Tiling accepted (s.tick ms).1 sent ∧ (s.tick ms).2 ⊆ sent := by
  obtain ⟨out, s', heq, hcase⟩ := tick_cases s ms
  rw [heq]
  cases hcase with
  | waiting hwait => exact ⟨{ h with }, by simp⟩
  | expired hrun hexp hout =>
    have hmem := h.outstanding (hout ▸ List.mem_cons_self)
    exact ⟨{ h with }, by simpa using hmem⟩

end Tiling

/-! ### Runs -/

namespace SenderRun

/-- The tiling of a run, with what its ticks retransmitted and the constants it started from. -/
structure Tiled (isn : Wrap32) (rto : UInt64) (r : SenderRun) : Prop where
  tiling : Tiling r.accepted r.sender r.sent
  retransmitted : r.retransmitted ⊆ r.sent
  isn_eq : r.sender.isn = isn
  rto_eq : r.sender.initialRTOms = rto

/-- No operation changes the ISN or the initial RTO. -/
theorem step_config {r : SenderRun} (h : Tiling r.accepted r.sender r.sent) (op : SenderOp) :
    (r.step op).sender.isn = r.sender.isn ∧
      (r.step op).sender.initialRTOms = r.sender.initialRTOms := by
  cases op with
  | write | close | setError => exact ⟨rfl, rfl⟩
  | push =>
    obtain ⟨ms, s', heq, hcase⟩ := push_cases h.wf h.nextSeqno_of_not_syn
    show r.sender.push.1.isn = _ ∧ r.sender.push.1.initialRTOms = _
    rw [heq]
    cases hcase with
    | reset | full => exact ⟨rfl, rfl⟩
    | syn herr hsyn hemit => exact ⟨hemit.isn_eq, hemit.initialRTOms_eq⟩
    | segments herr hsyn hemit =>
      exact ⟨hemit.const (·.isn) fun _ _ _ hm => hm.isn_eq,
        hemit.const (·.initialRTOms) fun _ _ _ hm => hm.initialRTOms_eq⟩
  | tick ms =>
    obtain ⟨out, s', heq, hcase⟩ := tick_cases r.sender ms
    show (r.sender.tick ms).1.isn = _ ∧ (r.sender.tick ms).1.initialRTOms = _
    rw [heq]
    cases hcase <;> exact ⟨rfl, rfl⟩
  | receive msg =>
    have hcase := receive_cases h.length_lt msg
    show (r.sender.receive msg).isn = _ ∧ (r.sender.receive msg).initialRTOms = _
    generalize r.sender.receive msg = s' at hcase
    cases hcase <;> exact ⟨rfl, rfl⟩

/-- **Step.**  Whatever is done, the segments sent go on tiling. -/
theorem Tiled.step {isn : Wrap32} {rto : UInt64} {r : SenderRun} (h : r.Tiled isn rto)
    (op : SenderOp) : (r.step op).Tiled isn rto := by
  obtain ⟨ht, hre, hisn, hrto⟩ := h
  have hconfig := step_config ht op
  have hisn' := hconfig.1.trans hisn
  have hrto' := hconfig.2.trans hrto
  cases op with
  | write data => exact ⟨ht.write data, hre, hisn', hrto'⟩
  | close => exact ⟨ht.close, hre, hisn', hrto'⟩
  | setError => exact ⟨ht.setError, hre, hisn', hrto'⟩
  | push =>
    exact ⟨ht.push, List.Subset.trans hre (List.subset_append_left _ _), hisn', hrto'⟩
  | tick ms =>
    exact ⟨(ht.tick ms).1, List.append_subset.mpr ⟨hre, (ht.tick ms).2⟩, hisn', hrto'⟩
  | receive msg => exact ⟨ht.receive msg, hre, hisn', hrto'⟩

/-- Every run of a fresh sender keeps the tiling. -/
theorem tiled_of {capacity : UInt64} {input : ByteStream}
    (h : ByteStream.new capacity = .ok input) (isn : Wrap32) (rto : UInt64)
    (ops : List SenderOp) : (SenderRun.of input isn rto ops).Tiled isn rto :=
  Machine.run_invariant (fun _ op ht => ht.step op)
    ⟨Tiling.fresh h isn rto, List.nil_subset _, rfl, rfl⟩ ops

/-- The transmissions of a run tile the sequence space from the ISN on. -/
structure TilesSequenceSpace (isn : Wrap32) (r : SenderRun) : Prop where
  first_seqno : ∀ m ∈ r.sent.head?, m.seqno = isn
  next_seqno : r.sent.IsChain fun m m' =>
    m'.seqno = m.seqno.add (UInt32.ofNat m.sequenceLength)
  /-- SYN is set on the first message only. -/
  syn_first : ∀ l m l', r.sent = l ++ m :: l' → (m.SYN = true ↔ l = [])
  /-- No message follows one with FIN. -/
  fin_last : ∀ l m l', r.sent = l ++ m :: l' → m.FIN = true → l' = []
  /-- FIN is set when the stream is closed and every byte of it placed in a message. -/
  fin_complete : ∀ m ∈ r.sent, m.FIN = true →
    r.sender.input.isClosed = true ∧ payloads r.sent = r.accepted
  length_pos : ∀ m ∈ r.sent, 0 < m.sequenceLength
  payload_le : ∀ m ∈ r.sent, m.payload.length ≤ TCPConfig.maxPayloadSize
  /-- The payloads are the first bytes accepted, as many as were popped; the counter of popped
      bytes is a `uint64_t`. -/
  payloads_eq : payloads r.sent = r.accepted.take (payloads r.sent).length
  popped_eq : r.sender.input.bytesPopped = UInt64.ofNat (payloads r.sent).length
  popped_eq_of_lt : r.accepted.length < 2 ^ 64 →
    payloads r.sent = r.accepted.take r.sender.input.bytesPopped.toNat
  /-- Every message transmitted by `tick` equals an earlier one transmitted by `push`. -/
  retransmitted : ∀ m ∈ r.retransmitted, m ∈ r.sent

/-- **The sender's transmissions tile the sequence space**, in every run of any length. -/
theorem transmissions_tile {capacity : UInt64} {input : ByteStream}
    (h : ByteStream.new capacity = .ok input) (isn : Wrap32) (rto : UInt64)
    (ops : List SenderOp) : TilesSequenceSpace isn (SenderRun.of input isn rto ops) := by
  obtain ⟨ht, hre, hisn, -⟩ := tiled_of h isn rto ops
  generalize SenderRun.of input isn rto ops = r at ht hre hisn
  -- what is not sent yet is still in the stream
  have hprefix : payloads r.sent = r.accepted.take (payloads r.sent).length := by
    rw [ht.accepted_eq, List.take_left]
  constructor
  case first_seqno =>
    intro m hm
    obtain ⟨l, hl⟩ := List.head?_eq_some_iff.mp hm
    have htiles := ht.tiles
    rw [hl] at htiles
    rw [htiles.1, Wrap32.ofPos_zero, hisn]
  case next_seqno =>
    refine ht.tiles.isChain fun p m m' hm hm' => ?_
    rw [hm, hm', Wrap32.ofPos_add]
  case syn_first => exact ht.syn_iff
  case fin_last => exact ht.fin_last
  case fin_complete =>
    intro m hm hf
    obtain ⟨heof, hnil⟩ := ht.finSent_closed (ht.finSent_iff.mpr ⟨m, hm, hf⟩)
    exact ⟨heof, by rw [ht.accepted_eq, hnil, List.append_nil]⟩
  case length_pos => exact fun m hm => (ht.segment m hm).1
  case payload_le => exact fun m hm => (ht.segment m hm).2.1
  case payloads_eq => exact hprefix
  case popped_eq => exact ht.popped_eq
  case popped_eq_of_lt =>
    intro hlt
    have hlen : (payloads r.sent).length < 2 ^ 64 := by
      rw [ht.accepted_eq, List.length_append] at hlt
      omega
    have hpop : r.sender.input.bytesPopped.toNat = (payloads r.sent).length := by
      rw [ByteStream.bytesPopped, ht.popped_eq, toNat_ofNat_of_lt hlen]
    rw [hpop]
    exact hprefix
  case retransmitted => exact fun m hm => hre hm

/-- A stream that is closed before its bytes are acknowledged. -/
theorem transmissions_tile_close_before_ack :
    TilesSequenceSpace ⟨7⟩ (SenderRun.of (ByteStream.empty 4) ⟨7⟩ 1000
      [.push, .write [1, 2, 3], .close, .receive { ackno := some ⟨8⟩, windowSize := 2 }, .push,
        .tick 1000]) :=
  transmissions_tile (ByteStream.new_eq_ok (by decide)) ⟨7⟩ 1000 _

end SenderRun

end Minnow
