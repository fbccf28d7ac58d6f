import Minnow.PeerRun
import Minnow.SenderAck

namespace Minnow

/-!
# The life of a peer

A peer is active until it has an error, or has nothing left to do: all it sent is acknowledged,
the FIN included, its inbound stream is closed, and it need not linger.

* `Driven` — a sender that was pushed after its stream was closed has sent its FIN, or has
  something outstanding; the invariant that keeps a peer active until the FIN is out.
* `Over` — an error, or everything settled; no operation leaves it.
* `inactive_after_shutdown` — a peer goes inactive only after an error or a clean shutdown, and
  stays inactive.
-/

open TCPSender

/-- What a push leaves behind when the stream is closed: the SYN is sent, and the FIN is, too,
    unless something is outstanding. -/
def Driven (s : TCPSender) : Prop :=
  s.input.error = false → s.input.eof = true →
    s.senderSyn = true ∧ (s.finSent = true ∨ s.outstandingSegments ≠ [])

namespace Tiling

variable {accepted : Bytes} {s : TCPSender} {sent : List TCPSenderMessage}

/-- **A push drives the sender.**  It stops when the window is used up, and then something is
    outstanding, or when the stream is, and then the FIN is sent. -/
theorem driven_push (h : Tiling accepted s sent) : Driven s.push.1 := by
  obtain ⟨ms, s', heq, hcase⟩ := push_cases h.wf h.nextSeqno_of_not_syn
  rw [heq]
  intro herr' heof
  -- with nothing outstanding nothing is in flight, and the window has room for one
  have hflight := h.inFlight_eq_zero_iff
  have hwindow : 1 ≤ s.effectiveWindow := le_max_right _ _
  cases hcase with
  | reset herr =>
    rw [herr] at herr'
    cases herr'
  | syn herr hsyn hemit =>
    refine ⟨hemit.senderSyn_eq, .inr ?_⟩
    rw [hemit.outstanding_eq]
    simp
  | full herr hsyn hfull =>
    refine ⟨hsyn, .inr fun hnil => ?_⟩
    have := hflight.mpr hnil
    omega
  | segments herr hsyn hemit hroom hstop =>
    refine ⟨hemit.senderSyn_eq hsyn, ?_⟩
    rcases hstop with hused | ⟨-, hfin⟩
    · refine .inr fun hnil => ?_
      rw [hemit.outstanding_eq] at hnil
      obtain ⟨hnil, hms⟩ := List.append_eq_nil_iff.mp hnil
      have := hflight.mpr hnil
      rw [hms, seqnos_nil] at hused
      omega
    · exact .inl (hfin heof)

end Tiling

/-- A tick leaves a sender driven. -/
theorem Driven.tick {s : TCPSender} (h : Driven s) (ms : UInt64) : Driven (s.tick ms).1 := by
  obtain ⟨out, s', heq, hcase⟩ := tick_cases s ms
  rw [heq]
  cases hcase <;> exact h

namespace TCPPeer

/-- A peer that has nothing left to do. -/
structure Settled (p : TCPPeer) : Prop where
  outbound_closed : p.outbound.eof = true
  outbound_empty : p.outbound.contents = []
  finSent : p.sender.finSent = true
  outstanding : p.sender.outstandingSegments = []
  inbound_closed : p.inbound.eof = true
  lingering : p.lingering = false

/-- What the sender does to its timer and its counters unsettles nothing. -/
theorem Settled.of_sender {p p' : TCPPeer} (h : p.Settled)
    (hinput : p'.sender.input = p.sender.input) (hfin : p'.sender.finSent = p.sender.finSent)
    (hout : p'.sender.outstandingSegments = p.sender.outstandingSegments)
    (hin : p'.inbound.eof = p.inbound.eof) (hlinger : p'.lingering = false) : p'.Settled where
  outbound_closed := (congrArg (·.eof) hinput).trans h.outbound_closed
  outbound_empty := (congrArg (·.contents) hinput).trans h.outbound_empty
  finSent := hfin.trans h.finSent
  outstanding := hout.trans h.outstanding
  inbound_closed := hin.trans h.inbound_closed
  lingering := hlinger

/-- The connection is over for the peer. -/
def Over (p : TCPPeer) : Prop := p.anyErrors = true ∨ p.Settled

/-- One of the streams has an error. -/
theorem anyErrors_iff {p : TCPPeer} :
    p.anyErrors = true ↔ p.inbound.error = true ∨ p.outbound.error = true := by
  rw [anyErrors, Bool.or_eq_true]
  rfl

/-- Without an error, a peer is inactive when nothing is in flight, both streams are finished and
    it does not linger. -/
theorem inactive_iff {p : TCPPeer} (hwf : p.outbound.WF) :
    p.active = false ↔ p.anyErrors = true ∨ p.sender.sequenceNumbersInFlight = 0 ∧
      (p.outbound.eof = true ∧ p.outbound.contents = []) ∧ p.inbound.eof = true ∧
      p.lingering = false := by
  rw [← ByteStream.isFinished_iff hwf]
  simp only [active, senderActive, receiverActive, Bool.and_eq_false_iff, Bool.not_eq_false',
    Bool.or_eq_false_iff, ne_eq, decide_not, decide_eq_true_eq, ByteStream.isClosed, and_assoc]

/-- A connection that is over has an inactive peer. -/
theorem Over.inactive {p : TCPPeer} (h : p.Over) (hwf : p.outbound.WF) : p.active = false := by
  rw [inactive_iff hwf]
  refine h.imp_right fun hs => ⟨?_, ⟨hs.outbound_closed, hs.outbound_empty⟩, hs.inbound_closed,
    hs.lingering⟩
  rw [sequenceNumbersInFlight, hs.outstanding]
  simp

end TCPPeer

/-- Every close is followed by a push before any other operation. -/
def ClosesPushed : List PeerOp → Prop
  | [] => True
  | .close :: .push :: ops => ClosesPushed ops
  | .close :: _ => False
  | _ :: ops => ClosesPushed ops

namespace PeerRun

/-- The invariant between operations, a close and the push after it counting as one. -/
structure Lifecycle (input : ByteStream) (isn : Wrap32) (rto : UInt64) (r : PeerRun) : Prop
    extends Tracked input isn rto r where
  driven : Driven r.peer.sender

variable {capacity : UInt64} {input : ByteStream} {isn : Wrap32} {rto : UInt64} {r : PeerRun}

/-- The sender of the peer is tiled. -/
theorem Tracked.tiling (h : Tracked input isn rto r)
    (hnew : ByteStream.new capacity = .ok input) :
    Tiling r.history.accepted r.peer.sender r.history.sent := by
  rw [← h.sender_eq]
  exact (h.tiled hnew).tiling

/-- A push after any operation drives the sender. -/
theorem Tracked.push (h : Tracked input isn rto r)
    (hnew : ByteStream.new capacity = .ok input) : Lifecycle input isn rto (r.step .push) :=
  ⟨h.step hnew .push, (h.tiling hnew).driven_push⟩

/-- Every other operation leaves it driven. -/
theorem Lifecycle.step (h : Lifecycle input isn rto r)
    (hnew : ByteStream.new capacity = .ok input) {op : PeerOp} (hop : op ≠ .close) :
    Lifecycle input isn rto (r.step op) := by
  refine ⟨h.toTracked.step hnew op, ?_⟩
  have ht := h.tiling hnew
  cases op with
  | close => exact absurd rfl hop
  | write data =>
    intro herr heof
    obtain ⟨-, -, -, heof', herr', -⟩ := ByteStream.push_spec ht.wf data
    exact h.driven (herr'.symm.trans herr) (heof'.symm.trans heof)
  | setOutboundError =>
    intro herr
    cases herr
  | setInboundError | read => exact h.driven
  | push => exact ht.driven_push
  | tick ms => exact h.driven.tick ms
  | receive msg =>
    show Driven (r.peer.receive msg).1.sender
    -- a peer that is active answers with a push
    cases hact : r.peer.active with
    | true =>
      rw [(TCPPeer.receive_of_active hact msg).1]
      exact (ht.receive msg.receiver).driven_push
    | false =>
      rw [TCPPeer.receive_of_inactive hact]
      exact h.driven

/-- **Run.** -/
theorem Lifecycle.run (hnew : ByteStream.new capacity = .ok input) (ops : List PeerOp)
    (hops : ClosesPushed ops) (h : Lifecycle input isn rto r) :
    Lifecycle input isn rto (Machine.run PeerRun.step r ops) := by
  induction ops using ClosesPushed.induct generalizing r with
  | case1 => exact h
  | case2 ops ih => exact ih hops ((h.toTracked.step hnew .close).push hnew)
  | case3 ops hnot =>
    rw [ClosesPushed] at hops
    · exact hops.elim
    · exact hnot
  | case4 op ops hnot hclose ih =>
    rw [ClosesPushed] at hops
    · exact ih hops (h.step hnew hclose)
    · exact hnot
    · exact hclose

/-- **Run.**  It holds of any operations in which every close is followed by a push. -/
theorem lifecycle_of {cfg : TCPConfig} {peer : TCPPeer} (h : TCPPeer.new cfg = .ok peer)
    {ops : List PeerOp} (hops : ClosesPushed ops) :
    ∃ input, ByteStream.new cfg.sendCapacity = .ok input ∧
      Lifecycle input cfg.isn cfg.rtTimeout.toUInt64 (of peer ops) := by
  obtain ⟨input, hnew, htracked⟩ := tracked_start h
  refine ⟨input, hnew, Lifecycle.run hnew ops hops ⟨htracked, fun _ heof => ?_⟩⟩
  -- a fresh stream is open
  obtain ⟨outbound, -, hout, -, hsender, -⟩ := TCPPeer.new_spec h
  have hopen : peer.sender.input.eof = false := by
    rw [hsender]
    exact (ByteStream.new_spec hout).2.2.2.1
  rw [show (start peer).peer.sender.input.eof = false from hopen] at heof
  cases heof

/-! ### Inactive peers -/

/-- **Going inactive.**  Without an error, everything is settled. -/
theorem Lifecycle.over (h : Lifecycle input isn rto r)
    (hnew : ByteStream.new capacity = .ok input) (hinactive : r.peer.active = false) :
    r.peer.Over := by
  have ht := h.tiling hnew
  by_cases herrs : r.peer.anyErrors = true
  · exact .inl herrs
  obtain ⟨hflight, ⟨heof, hcont⟩, hin, hlinger⟩ :=
    ((TCPPeer.inactive_iff ht.wf).mp hinactive).resolve_left herrs
  have herr : r.peer.sender.input.error = false := by
    by_contra hne
    have herr : r.peer.sender.input.error = true := by simpa using hne
    exact herrs (TCPPeer.anyErrors_iff.mpr (.inr herr))
  obtain ⟨hsyn, hfin⟩ := h.driven herr heof
  have hout := ht.inFlight_eq_zero_iff.mp hflight
  exact .inr ⟨heof, hcont, hfin.resolve_right (not_not.mpr hout), hout, hin, hlinger⟩

/-- An error stays. -/
theorem Tracked.anyErrors_step (h : Tracked input isn rto r)
    (hnew : ByteStream.new capacity = .ok input) (herrs : r.peer.anyErrors = true) (op : PeerOp) :
    (r.step op).peer.anyErrors = true := by
  have ht := h.tiling hnew
  -- a message does not reach a peer that is inactive
  have hinactive := (show r.peer.Over from .inl herrs).inactive ht.wf
  rw [TCPPeer.anyErrors_iff] at herrs ⊢
  cases op with
  | write data =>
    obtain ⟨-, -, -, -, herr, -⟩ := ByteStream.push_spec ht.wf data
    exact herrs.imp_right herr.trans
  | close => exact herrs
  | setOutboundError => exact .inr rfl
  | setInboundError => exact .inl rfl
  | read len => exact herrs.imp_left (ByteStream.error_pop _ len).trans
  | push => exact herrs.imp_right ht.error_push.trans
  | tick ms =>
    obtain ⟨out, s', heq, hcase⟩ := tick_cases r.peer.sender ms
    refine herrs.imp_right fun herr => ?_
    show (r.peer.sender.tick ms).1.input.error = true
    rw [heq]
    cases hcase <;> exact herr
  | receive msg =>
    rw [show (r.step (.receive msg)).peer = (r.peer.receive msg).1 from rfl,
      TCPPeer.receive_of_inactive hinactive]
    exact herrs

/-- A peer does not linger again: the clock, which has not wrapped around, only goes on. -/
theorem Tracked.lingering_tick (h : Tracked input isn rto r) {ms : UInt64}
    (htime : (r.step (.tick ms)).elapsed < 2 ^ 64) (hlinger : r.peer.lingering = false) :
    (r.step (.tick ms)).peer.lingering = false := by
  have htime' : r.elapsed + ms.toNat < 2 ^ 64 := htime
  have hclock : (r.peer.cumulativeTime + ms).toNat = r.elapsed + ms.toNat := by
    rw [h.clock_eq, toNat_add_of_lt] <;> rw [toNat_ofNat_of_lt (by omega)]
    exact htime'
  rw [TCPPeer.lingering, Bool.and_eq_false_iff] at hlinger ⊢
  refine hlinger.imp_right fun hlate => ?_
  rw [decide_eq_false_iff_not, UInt64.lt_iff_toNat_lt] at hlate ⊢
  rw [h.clock_eq, toNat_ofNat_of_lt (by omega)] at hlate
  show ¬ (r.peer.cumulativeTime + ms).toNat
    < (r.peer.timeOfLastReceipt + 10 * r.peer.cfg.rtTimeout.toUInt64).toNat
  omega

/-- **Staying inactive.** -/
theorem Tracked.over_step (h : Tracked input isn rto r)
    (hnew : ByteStream.new capacity = .ok input) (hover : r.peer.Over) (op : PeerOp)
    (htime : (r.step op).elapsed < 2 ^ 64) : (r.step op).peer.Over := by
  have ht := h.tiling hnew
  have hinactive := hover.inactive ht.wf
  rcases hover with herrs | hs
  · exact .inl (h.anyErrors_step hnew herrs op)
  · cases op with
    | write data =>
      have hsame : r.peer.outbound.push data = r.peer.outbound := by
        rw [ByteStream.push, if_pos hs.outbound_closed]
      right
      show (r.peer.setOutbound (r.peer.outbound.push data)).Settled
      rw [hsame]
      exact hs
    | close => exact .inr { hs with outbound_closed := rfl }
    | setOutboundError => exact .inl (TCPPeer.anyErrors_iff.mpr (.inr rfl))
    | setInboundError => exact .inl (TCPPeer.anyErrors_iff.mpr (.inl rfl))
    | read len =>
      exact .inr { hs with inbound_closed := (ByteStream.eof_pop _ len).trans hs.inbound_closed }
    | push =>
      have hsame := (ht.push_of_finSent hs.finSent).1
      exact .inr (hs.of_sender (congrArg (·.input) hsame) (congrArg (·.finSent) hsame)
        (congrArg (·.outstandingSegments) hsame) rfl hs.lingering)
    | tick ms =>
      obtain ⟨out, s', heq, hcase⟩ := tick_cases r.peer.sender ms
      have hsender : (r.step (.tick ms)).peer.sender = s' := congrArg Prod.fst heq
      have hlinger := h.lingering_tick htime hs.lingering
      cases hcase with
      | waiting hwait =>
        exact .inr (hs.of_sender (congrArg (·.input) hsender) (congrArg (·.finSent) hsender)
          (congrArg (·.outstandingSegments) hsender) rfl hlinger)
      | expired hrun hexp hout =>
        -- nothing is outstanding that could expire
        rw [hs.outstanding] at hout
        cases hout
    | receive msg =>
      right
      rw [show (r.step (.receive msg)).peer = (r.peer.receive msg).1 from rfl,
        TCPPeer.receive_of_inactive hinactive]
      exact hs

/-- **Run.** -/
theorem Tracked.over_run (h : Tracked input isn rto r)
    (hnew : ByteStream.new capacity = .ok input) (hover : r.peer.Over) (ops : List PeerOp)
    (htime : (Machine.run PeerRun.step r ops).elapsed < 2 ^ 64) :
    Tracked input isn rto (Machine.run PeerRun.step r ops) ∧
      (Machine.run PeerRun.step r ops).peer.Over :=
  Machine.run_invariant_of_bound (P := fun r => Tracked input isn rto r ∧ r.peer.Over)
    (fun r => r.elapsed < 2 ^ 64) (fun r op hlt => lt_of_le_of_lt (r.elapsed_le_step op) hlt)
    (fun _ op hboth hlt => ⟨hboth.1.step hnew op, hboth.1.over_step hnew hboth.2 op hlt⟩)
    ⟨h, hover⟩ ops htime

/-- Both sides have finished. -/
structure CleanShutdown (r : PeerRun) : Prop where
  syn : ∃ x ∈ r.transmitted, x.sender.SYN = true
  fin : ∃ x ∈ r.transmitted, x.sender.FIN = true
  /-- Every sequence number sent is acknowledged. -/
  acknowledged : r.history.acked = r.consumed
  outstanding : r.peer.sender.outstandingSegments = []
  inbound_closed : r.peer.inbound.isClosed = true

/-- **A peer goes inactive only after a clean shutdown or an error, and stays inactive.** -/
theorem inactive_after_shutdown {cfg : TCPConfig} {peer : TCPPeer}
    (h : TCPPeer.new cfg = .ok peer) {ops : List PeerOp} (hops : ClosesPushed ops)
    (hseq : (of peer ops).consumed < 2 ^ 31) (hinactive : (of peer ops).peer.active = false) :
    ((of peer ops).peer.inbound.hasError = false → (of peer ops).peer.outbound.hasError = false →
      (of peer ops).CleanShutdown) ∧
    ∀ ops', (of peer (ops ++ ops')).elapsed < 2 ^ 64 →
      (of peer (ops ++ ops')).peer.active = false := by
  obtain ⟨input, hnew, hl⟩ := lifecycle_of h hops
  have hover := hl.over hnew hinactive
  constructor
  · intro hin hout
    have hs : (of peer ops).peer.Settled := by
      refine hover.resolve_left fun herrs => ?_
      rcases TCPPeer.anyErrors_iff.mp herrs with herr | herr
      · rw [ByteStream.hasError, herr] at hin
        cases hin
      · rw [ByteStream.hasError, herr] at hout
        cases hout
    have ht := hl.tiling hnew
    -- the segment with the FIN; the first one has the SYN
    obtain ⟨m, hm, hfin⟩ := ht.finSent_iff.mp hs.finSent
    constructor
    case syn =>
      cases hsent : (of peer ops).history.sent with
      | nil =>
        rw [hsent] at hm
        cases hm
      | cons first rest =>
        obtain ⟨x, hx, rfl⟩ := hl.transmitted first (hsent ▸ List.mem_cons_self)
        exact ⟨x, hx, (ht.syn_iff [] x.sender rest hsent).mpr rfl⟩
    case fin =>
      obtain ⟨x, hx, rfl⟩ := hl.transmitted m hm
      exact ⟨x, hx, hfin⟩
    case acknowledged =>
      obtain ⟨sops, hsops⟩ := hl.history_of
      have hacking : (of peer ops).history.Acking cfg.isn cfg.rtTimeout.toUInt64 := by
        have hlt : (of peer ops).history.consumed < 2 ^ 32 := lt_trans hseq (by decide)
        rw [hsops] at hlt ⊢
        exact SenderRun.acking_of_lt hnew hlt
      apply hacking.unacknowledged.acked_eq
      rw [hl.sender_eq]
      exact hs.outstanding
    case outstanding => exact hs.outstanding
    case inbound_closed => exact hs.inbound_closed
  · intro ops' htime
    rw [of, Machine.run_append] at htime ⊢
    obtain ⟨htracked, hover'⟩ := hl.toTracked.over_run hnew hover ops' htime
    exact hover'.inactive (htracked.tiling hnew).wf

/-- A connection without data: the peer closes first, and lingers for ten timeouts of 1 ms. -/
def briefConfig : TCPConfig :=
  { rtTimeout := 1, recvCapacity := 4, sendCapacity := 4, isn := ⟨7⟩ }

/-- A connection from the first SYN to the last acknowledgment. -/
def briefOps : List PeerOp :=
  [.push,
    .receive { sender := { SYN := true, seqno := ⟨50⟩ }
               receiver := { ackno := some ⟨8⟩, windowSize := 9 } },
    .close, .push,
    .receive { sender := { FIN := true, seqno := ⟨51⟩ }
               receiver := { ackno := some ⟨9⟩, windowSize := 9 } },
    .tick 10]

/-- In this run the shutdown is clean, and nothing wakes the peer up. -/
theorem inactive_after_shutdown_brief :
    ∃ peer, TCPPeer.new briefConfig = .ok peer ∧ (of peer briefOps).CleanShutdown ∧
      (of peer (briefOps ++ [.write [1], .tick 3])).peer.active = false := by
  have hnew : TCPPeer.new briefConfig = .ok _ := TCPPeer.new_eq_ok (by decide) (by decide)
  have hops : ClosesPushed briefOps := trivial
  have hrun := inactive_after_shutdown hnew hops (by decide) (by decide)
  exact ⟨_, hnew, hrun.1 (by decide) (by decide), hrun.2 _ (by decide)⟩

end PeerRun

end Minnow
