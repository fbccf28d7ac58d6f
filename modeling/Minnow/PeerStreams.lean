import Minnow.PeerLifecycle
import Minnow.ReceiverWindow

namespace Minnow

/-!
# The streams of a peer

What an operation of a peer does to its streams, and to what was accepted and assembled.

* `accepted_step`, `Tracks.accepted_write` — only what is written is accepted;
* `Tracks.eof_step` — only closing ends the outbound stream;
* `inbound_step`, `inbound_read` — what is written into the inbound stream is assembled, and only
  reading takes it out.
-/

/-- A push does not end the outbound stream. -/
theorem Tiling.eof_push {accepted : Bytes} {s : TCPSender} {sent : List TCPSenderMessage}
    (h : Tiling accepted s sent) : s.push.1.input.eof = s.input.eof := by
  obtain ⟨ms, s', heq, hcase⟩ := TCPSender.push_cases h.wf h.nextSeqno_of_not_syn
  rw [heq]
  cases hcase with
  | reset | full => rfl
  | syn herr hsyn hemit => exact hemit.read.eof_eq
  | segments herr hsyn hemit =>
    exact hemit.const (·.input.eof) fun _ _ _ hm => hm.read.eof_eq

namespace PeerRun

/-- Only what is written is accepted. -/
theorem accepted_step (r : PeerRun) (op : PeerOp) (hop : ∀ data, op ≠ .write data) :
    (r.step op).history.accepted = r.history.accepted := by
  cases op with
  | write data => exact absurd rfl (hop data)
  | close | setOutboundError | setInboundError | read | push | tick => rfl
  | receive msg =>
    show (Machine.run SenderRun.step r.history
      (PeerOp.senderOps r.peer (.receive msg))).accepted = _
    rw [PeerOp.senderOps]
    split <;> rfl

/-- The run of a peer with this configuration. -/
def Tracks (cfg : TCPConfig) (r : PeerRun) : Prop :=
  ∃ input, ByteStream.new cfg.sendCapacity = .ok input ∧
    Tracked input cfg.isn cfg.rtTimeout.toUInt64 r

variable {cfg : TCPConfig} {r : PeerRun}

/-- The run goes on. -/
theorem Tracks.step (h : Tracks cfg r) (op : PeerOp) : Tracks cfg (r.step op) := by
  obtain ⟨input, hnew, htracked⟩ := h
  exact ⟨input, hnew, htracked.step hnew op⟩

/-- What was sent tiles what was accepted. -/
theorem Tracks.tiling (h : Tracks cfg r) :
    Tiling r.history.accepted r.peer.sender r.history.sent := by
  obtain ⟨input, hnew, htracked⟩ := h
  exact htracked.tiling hnew

/-- What the stream has room for is accepted. -/
theorem Tracks.accepted_write (h : Tracks cfg r) (data : Bytes) :
    (r.step (.write data)).history.accepted
      = r.history.accepted ++ r.peer.outbound.accepted data := by
  obtain ⟨input, hnew, htracked⟩ := h
  show r.history.accepted ++ r.history.sender.input.accepted data = _
  rw [htracked.sender_eq]
  rfl

/-- Only closing ends the outbound stream. -/
theorem Tracks.eof_step (h : Tracks cfg r) (op : PeerOp) (hop : op ≠ .close) :
    (r.step op).peer.outbound.eof = r.peer.outbound.eof := by
  have ht := h.tiling
  cases op with
  | close => exact absurd rfl hop
  | write data => exact (ByteStream.push_spec ht.wf data).2.2.2.1
  | setOutboundError | setInboundError | read => rfl
  | push => exact ht.eof_push
  | tick ms =>
    obtain ⟨out, s', heq, hcase⟩ := TCPSender.tick_cases r.peer.sender ms
    show (r.peer.sender.tick ms).1.input.eof = r.peer.sender.input.eof
    rw [heq]
    cases hcase <;> rfl
  | receive msg =>
    show (r.peer.receive msg).1.sender.input.eof = r.peer.sender.input.eof
    cases hact : r.peer.active with
    | true =>
      rw [(TCPPeer.receive_of_active hact msg).1, (ht.receive msg.receiver).eof_push]
      have hcase := TCPSender.receive_cases ht.length_lt msg.receiver
      generalize r.peer.sender.receive msg.receiver = s' at hcase
      cases hcase <;> rfl
    | false => rw [TCPPeer.receive_of_inactive hact]

/-- Only reading takes anything out of the inbound stream; what is written into it is assembled. -/
theorem inbound_step (hwf : r.peer.inbound.WF) (op : PeerOp) (hop : ∀ len, op ≠ .read len) :
    (r.step op).peer.inbound.WF ∧ ∃ written,
      (r.step op).peer.inbound.contents = r.peer.inbound.contents ++ written ∧
      (r.step op).assembled = r.assembled ++ written := by
  have hwritten : (r.step op).peer.inbound.WF ∧ ∃ written,
      (r.step op).peer.inbound.contents = r.peer.inbound.contents ++ written := by
    cases op with
    | read len => exact absurd rfl (hop len)
    | write | close | setOutboundError | push | tick =>
      exact ⟨hwf, [], (List.append_nil _).symm⟩
    | setInboundError => exact ⟨hwf.setError, [], (List.append_nil _).symm⟩
    | receive msg =>
      show (r.peer.receive msg).1.receiver.output.WF ∧ ∃ written,
        (r.peer.receive msg).1.receiver.output.contents = r.peer.inbound.contents ++ written
      cases hact : r.peer.active with
      | true =>
        rw [(TCPPeer.receive_of_active hact msg).2.1]
        obtain ⟨⟨written, hwritten⟩, -⟩ := TCPReceiver.receive_writes hwf msg.sender
        exact ⟨hwritten.wf, written, hwritten.contents_eq⟩
      | false =>
        rw [TCPPeer.receive_of_inactive hact]
        exact ⟨hwf, [], (List.append_nil _).symm⟩
  obtain ⟨hwf', written, hcontents⟩ := hwritten
  refine ⟨hwf', written, hcontents, ?_⟩
  show r.assembled ++ (r.step op).peer.inbound.contents.drop _ = _
  rw [hcontents, List.drop_left]

/-- Reading takes bytes from the inbound stream only. -/
theorem inbound_read (hwf : r.peer.inbound.WF) (len : UInt64) :
    (r.step (.read len)).peer.inbound.WF ∧
      (r.step (.read len)).peer.inbound.contents = r.peer.inbound.contents.drop len.toNat ∧
      (r.step (.read len)).assembled = r.assembled := by
  obtain ⟨hwf', hcontents, -⟩ := ByteStream.pop_spec hwf len
  refine ⟨hwf', hcontents, ?_⟩
  show r.assembled ++ (r.peer.inbound.pop len).contents.drop _ = _
  rw [hcontents, List.drop_of_length_le (by rw [List.length_drop]; exact Nat.sub_le _ _),
    List.append_nil]

end PeerRun

end Minnow
