import Minnow.MinnowSocket
import Minnow.PeerStreams

namespace Minnow

/-!
# What a socket has done

A socket keeps no record of what has happened to its peer.  The run of the peer that is meant is
tied to it by what has passed through its descriptors.

* `MinnowSocket.Matched` — the bytes accepted are those taken from the owner, the bytes assembled
  are those given to the owner or still buffered, and every packet given to the device is that of
  a message transmitted;
* `MinnowSocket.Linked` — the peer of the socket is the one of the run;
* `MinnowSocket.Sane` — what is left of this after an exception;
* `MinnowSocket.Heard` — a message received was in the packet taken last;
* `MinnowSocket.act_triple` — what the socket does to its peer is an operation of the run.
-/

namespace MinnowSocket

open ExceptState TCPDatagramAdapter

variable {A C : Type} {cfg : TCPConfig} {Encodes : Bytes → TCPMessage → Prop}
  {decode : A → Bytes → Option TCPMessage} {r : PeerRun} {w w' : World SocketFd (SocketVars A)}

/-! ### A socket and its history -/

/-- What has passed through the descriptors is in the history. -/
structure Sane (Encodes : Bytes → TCPMessage → Prop) (r : PeerRun)
    (w : World SocketFd (SocketVars A)) : Prop where
  accepted : r.history.accepted <+: (w.traffic .data).taken.flatten
  assembled : (w.traffic .data).given.flatten <+: r.assembled
  encoded : ∀ packet ∈ (w.traffic .tun).given, ∃ x ∈ r.transmitted, Encodes packet x

/-- All that has passed through the descriptors is in the history, and what is in the history has
    passed but for what is buffered. -/
structure Matched (cfg : TCPConfig) (Encodes : Bytes → TCPMessage → Prop) (r : PeerRun)
    (w : World SocketFd (SocketVars A)) : Prop where
  tracks : r.Tracks cfg
  wf : r.peer.inbound.WF
  accepted_eq : r.history.accepted = (w.traffic .data).taken.flatten
  assembled_eq : r.assembled = (w.traffic .data).given.flatten ++ r.peer.inbound.contents
  encoded : ∀ packet ∈ (w.traffic .tun).given, ∃ x ∈ r.transmitted, Encodes packet x

/-- The peer of the socket is the one of the history. -/
structure Linked (cfg : TCPConfig) (Encodes : Bytes → TCPMessage → Prop) (r : PeerRun)
    (w : World SocketFd (SocketVars A)) : Prop extends Matched cfg Encodes r w where
  tcp_eq : w.vars.tcp = some r.peer
  uncancelled : w.cancelRequested = []
  /-- Only the owner ends the outbound stream. -/
  outbound_open : r.peer.outbound.eof = true → w.vars.outboundShutdown = true

/-- What matches is sane. -/
theorem Matched.sane (h : Matched cfg Encodes r w) : Sane Encodes r w where
  accepted := h.accepted_eq ▸ List.prefix_refl _
  assembled := h.assembled_eq ▸ List.prefix_append _ _
  encoded := h.encoded

/-- Nothing has passed through the descriptors, and nothing has happened to the peer. -/
structure Idle (w w' : World SocketFd (SocketVars A)) : Prop where
  adapter_eq : w'.vars.datagramAdapter = w.vars.datagramAdapter
  tcp_eq : w'.vars.tcp = w.vars.tcp
  shutdown_eq : w'.vars.outboundShutdown = w.vars.outboundShutdown
  cancelRequested_eq : w'.cancelRequested = w.cancelRequested
  taken_eq : ∀ fd, (w'.traffic fd).taken = (w.traffic fd).taken
  given_eq : ∀ fd, (w'.traffic fd).given = (w.traffic fd).given

/-- Nothing has happened that matters to the match. -/
theorem Matched.of_idle (h : Matched cfg Encodes r w) (hidle : Idle w w') :
    Matched cfg Encodes r w' where
  tracks := h.tracks
  wf := h.wf
  accepted_eq := by rw [hidle.taken_eq, h.accepted_eq]
  assembled_eq := by rw [hidle.given_eq, h.assembled_eq]
  encoded := by
    rw [hidle.given_eq]
    exact h.encoded

/-- Nothing has happened that matters to the link. -/
theorem Linked.of_idle (h : Linked cfg Encodes r w) (hidle : Idle w w') :
    Linked cfg Encodes r w' where
  toMatched := h.toMatched.of_idle hidle
  tcp_eq := hidle.tcp_eq.trans h.tcp_eq
  uncancelled := hidle.cancelRequested_eq.trans h.uncancelled
  outbound_open := by
    rw [hidle.shutdown_eq]
    exact h.outbound_open

/-- Nothing has happened that matters here. -/
theorem Sane.of_idle (h : Sane Encodes r w) (hidle : Idle w w') : Sane Encodes r w' where
  accepted := hidle.taken_eq .data ▸ h.accepted
  assembled := hidle.given_eq .data ▸ h.assembled
  encoded := hidle.given_eq .tun ▸ h.encoded

namespace Idle

/-- A system call by itself. -/
theorem called (w : World SocketFd (SocketVars A)) : Idle w w.called :=
  ⟨rfl, rfl, rfl, rfl, fun _ => rfl, fun _ => rfl⟩

/-- One thing after the other. -/
theorem trans {w'' : World SocketFd (SocketVars A)} (h : Idle w w') (h' : Idle w' w'') :
    Idle w w'' where
  adapter_eq := h'.adapter_eq.trans h.adapter_eq
  tcp_eq := h'.tcp_eq.trans h.tcp_eq
  shutdown_eq := h'.shutdown_eq.trans h.shutdown_eq
  cancelRequested_eq := h'.cancelRequested_eq.trans h.cancelRequested_eq
  taken_eq fd := (h'.taken_eq fd).trans (h.taken_eq fd)
  given_eq fd := (h'.given_eq fd).trans (h.given_eq fd)

/-- A change of a descriptor that moves no bytes. -/
theorem touch (w : World SocketFd (SocketVars A)) (fd : SocketFd) (f : FDWrapper → FDWrapper)
    {t : Traffic → Traffic} (htaken : ∀ x, (t x).taken = x.taken)
    (hgiven : ∀ x, (t x).given = x.given) : Idle w (w.touch fd f t) where
  adapter_eq := rfl
  tcp_eq := rfl
  shutdown_eq := rfl
  cancelRequested_eq := rfl
  taken_eq _ := w.traffic_touch (·.taken) fun _ => htaken
  given_eq _ := w.traffic_touch (·.given) fun _ => hgiven

/-- A direction was shut down. -/
theorem onShutdown (w : World SocketFd (SocketVars A)) (fd : SocketFd) (how : How) :
    Idle w (w.onShutdown fd how) :=
  touch w fd _ (fun _ => rfl) fun _ => rfl

/-- A failure was noted. -/
theorem onFail (w : World SocketFd (SocketVars A)) (fd : SocketFd) : Idle w (w.onFail fd) :=
  touch w fd _ (fun _ => rfl) fun _ => rfl

/-- A descriptor hung up. -/
theorem onHangUp (w : World SocketFd (SocketVars A)) (fd : SocketFd) : Idle w (w.onHangUp fd) :=
  touch w fd _ (fun _ => rfl) fun _ => rfl

/-- Another flag is set. -/
theorem flag (w : World SocketFd (SocketVars A)) {f : SocketVars A → SocketVars A}
    (hadapter : ∀ v, (f v).datagramAdapter = v.datagramAdapter) (htcp : ∀ v, (f v).tcp = v.tcp)
    (hshutdown : ∀ v, (f v).outboundShutdown = v.outboundShutdown) : Idle w (setVars f w) :=
  ⟨hadapter _, htcp _, hshutdown _, rfl, fun _ => rfl, fun _ => rfl⟩

end Idle

/-! ### Transmitting -/

/-- Packets may have been written for these messages. -/
structure Sent (Encodes : Bytes → TCPMessage → Prop) (msgs : List TCPMessage)
    (w w' : World SocketFd (SocketVars A)) : Prop where
  vars_eq : ∃ a, w'.vars = { w.vars with datagramAdapter := a }
  cancelRequested_eq : w'.cancelRequested = w.cancelRequested
  data_eq : w'.fds .data = w.fds .data
  traffic_eq : w'.traffic .data = w.traffic .data
  taken_eq : (w'.traffic .tun).taken = (w.traffic .tun).taken
  given : ∀ packet ∈ (w'.traffic .tun).given,
    packet ∈ (w.traffic .tun).given ∨ ∃ x ∈ msgs, Encodes packet x

/-- No packet has been written. -/
theorem Sent.refl (w : World SocketFd (SocketVars A)) (msgs : List TCPMessage) :
    Sent Encodes msgs w w :=
  ⟨⟨_, rfl⟩, rfl, rfl, rfl, rfl, fun _ => .inl⟩

/-- One packet after the other. -/
theorem Sent.trans {w'' : World SocketFd (SocketVars A)} {msgs msgs' : List TCPMessage}
    (h : Sent Encodes msgs w w') (h' : Sent Encodes msgs' w' w'') :
    Sent Encodes (msgs ++ msgs') w w'' where
  vars_eq := by
    obtain ⟨a, ha⟩ := h.vars_eq
    obtain ⟨a', ha'⟩ := h'.vars_eq
    exact ⟨a', by rw [ha', ha]⟩
  cancelRequested_eq := h'.cancelRequested_eq.trans h.cancelRequested_eq
  data_eq := h'.data_eq.trans h.data_eq
  traffic_eq := h'.traffic_eq.trans h.traffic_eq
  taken_eq := h'.taken_eq.trans h.taken_eq
  given := by
    intro packet hpacket
    rcases h'.given packet hpacket with hold | ⟨x, hx, hencodes⟩
    · exact (h.given packet hold).imp_right fun ⟨x, hx, hencodes⟩ =>
        ⟨x, List.mem_append_left _ hx, hencodes⟩
    · exact .inr ⟨x, List.mem_append_right _ hx, hencodes⟩

variable {ad : TCPDatagramAdapter A C}

/-- Writing a message through the adapter. -/
theorem write_triple (hlawful : Lawful ad Encodes decode) (msg : TCPMessage) :
    Triple (fun t => t = w) (onAdapter (ad.write msg)) (fun _ => Sent Encodes [msg] w)
      fun _ => Sent Encodes [msg] w := by
  have hsent : ∀ t : World SocketFd A, Wrote Encodes msg { w with vars := w.vars.datagramAdapter } t
      → Sent Encodes [msg] w
        { t with vars := { w.vars with datagramAdapter := t.vars } } := by
    intro t ht
    refine ⟨⟨_, rfl⟩, ht.cancelRequested_eq, ht.data_eq, ht.traffic_eq, ht.taken_eq, ?_⟩
    intro packet hpacket
    rcases ht.given with heq | ⟨packet', heq, hencodes⟩
    · exact .inl (heq ▸ hpacket)
    · have hmem : packet ∈ (w.traffic .tun).given ++ [packet'] := heq ▸ hpacket
      refine (List.mem_append.mp hmem).imp_right fun hnew => ⟨msg, List.mem_singleton_self _, ?_⟩
      rwa [List.mem_singleton.mp hnew]
  exact SysM.zoom_triple ((hlawful.write _ msg).mono (fun _ ht => ht) (fun _ => hsent)
    fun _ => hsent)

/-- Writing messages through the adapter. -/
theorem transmit_triple (hlawful : Lawful ad Encodes decode) (msgs : List TCPMessage) :
    Triple (fun t => t = w) (transmit ad msgs) (fun _ => Sent Encodes msgs w)
      fun _ => Sent Encodes msgs w := by
  induction msgs generalizing w with
  | nil =>
    refine .pure _ ?_
    rintro _ rfl
    exact .refl _ _
  | cons msg msgs ih =>
    refine .bind ((write_triple hlawful msg).mono (fun _ ht => ht) (fun _ _ ht => ht) ?_)
      fun _ => .of_state fun t ht => ih.mono (fun _ ht => ht) ?_ ?_
    · exact fun _ t ht => ht.trans (.refl t msgs)
    · exact fun _ _ ht' => ht.trans ht'
    · exact fun _ _ ht' => ht.trans ht'

/-- The peer is another one. -/
def setPeer (p : TCPPeer) (w : World SocketFd (SocketVars A)) : World SocketFd (SocketVars A) :=
  setVars (fun v => { v with tcp := some p }) w

/-- Something was done to the peer. -/
abbrev Acted (Encodes : Bytes → TCPMessage → Prop) (op : PeerOp) (p : TCPPeer)
    (w w' : World SocketFd (SocketVars A)) : Prop :=
  Sent Encodes (op.act p).2 (setPeer (op.act p).1 w) w'

/-- What is done to the peer. -/
theorem act_triple (hlawful : Lawful ad Encodes decode) {op : PeerOp} {p : TCPPeer}
    (hp : w.vars.tcp = some p) :
    Triple (fun t => t = w) (act ad op) (fun _ => Acted Encodes op p w)
      fun _ => Acted Encodes op p w := by
  refine .get ?_
  rintro w rfl
  rw [hp]
  refine .bind (.modify (Q := fun _ t => t = setPeer (op.act p).1 w) ?_) fun _ =>
    transmit_triple hlawful _
  rintro _ rfl
  rfl

/-- What transmits nothing does not throw. -/
theorem act_silent_triple {E : StdException → World SocketFd (SocketVars A) → Prop} {op : PeerOp}
    {p : TCPPeer} (hp : w.vars.tcp = some p) (hsilent : (op.act p).2 = []) :
    Triple (fun t => t = w) (act ad op) (fun _ t => t = setPeer (op.act p).1 w) E := by
  refine .get ?_
  rintro w rfl
  rw [hp]
  refine .bind (.modify (Q := fun _ t => t = setPeer (op.act p).1 w) ?_) fun _ => ?_
  · rintro _ rfl
    rfl
  · rw [hsilent]
    exact .pure _ fun _ ht => ht

/-! ### An operation of the peer -/

/-- **An operation** that has nothing to do with the owner. -/
theorem Linked.act (h : Linked cfg Encodes r w) {op : PeerOp} (hwrite : ∀ data, op ≠ .write data)
    (hread : ∀ len, op ≠ .read len) (hclose : op ≠ .close)
    (hsent : Acted Encodes op r.peer w w') :
    Linked cfg Encodes (r.step op) w' := by
  obtain ⟨hwf, written, hcontents, hassembled⟩ := PeerRun.inbound_step h.wf op hread
  obtain ⟨a, hvars⟩ := hsent.vars_eq
  have htraffic : w'.traffic .data = w.traffic .data := hsent.traffic_eq
  refine ⟨⟨h.tracks.step op, hwf, ?_, ?_, ?_⟩, ?_, hsent.cancelRequested_eq.trans h.uncancelled, ?_⟩
  · rw [r.accepted_step op hwrite, h.accepted_eq, htraffic]
  · rw [hassembled, hcontents, h.assembled_eq, htraffic, List.append_assoc]
  · intro packet hpacket
    rcases hsent.given packet hpacket with hold | ⟨x, hx, hencodes⟩
    · obtain ⟨x, hx, hencodes⟩ := h.encoded packet hold
      exact ⟨x, List.mem_append_left _ hx, hencodes⟩
    · exact ⟨x, List.mem_append_right _ hx, hencodes⟩
  · rw [hvars]
    rfl
  · rw [h.tracks.eof_step op hclose, hvars]
    exact h.outbound_open

/-- The owner has ended the outbound stream. -/
theorem Linked.closeOutbound (h : Linked cfg Encodes r w) :
    Linked cfg Encodes (r.step .close) (setVars (fun v => { v with outboundShutdown := true })
      (setPeer (PeerOp.act r.peer .close).1 w)) where
  tracks := h.tracks.step .close
  wf := h.wf
  tcp_eq := rfl
  accepted_eq := h.accepted_eq
  assembled_eq := by
    obtain ⟨-, written, hcontents, hassembled⟩ :=
      PeerRun.inbound_step h.wf .close nofun
    have hnil : written = [] := List.self_eq_append_right.mp hcontents
    rw [hassembled, hcontents, hnil, List.append_nil, List.append_nil, h.assembled_eq]
    rfl
  encoded := fun packet hpacket => by
    obtain ⟨x, hx, hencodes⟩ := h.encoded packet hpacket
    exact ⟨x, List.mem_append_left _ hx, hencodes⟩
  uncancelled := h.uncancelled
  outbound_open _ := rfl

/-- Bytes of the owner are accepted. -/
theorem Linked.write (h : Linked cfg Encodes r w) {data : Bytes}
    (haccepts : r.peer.outbound.accepted data = data)
    (hvars : w'.vars = w.vars) (hcancel : w'.cancelRequested = w.cancelRequested)
    (htaken : (w'.traffic .data).taken.flatten = (w.traffic .data).taken.flatten ++ data)
    (hgiven : ∀ fd, (w'.traffic fd).given = (w.traffic fd).given) :
    Linked cfg Encodes (r.step (.write data)) (setPeer (PeerOp.act r.peer (.write data)).1 w') where
  tracks := h.tracks.step _
  wf := h.wf
  tcp_eq := rfl
  accepted_eq := by
    rw [h.tracks.accepted_write, haccepts, h.accepted_eq]
    exact htaken.symm
  assembled_eq := by
    obtain ⟨-, written, hcontents, hassembled⟩ :=
      PeerRun.inbound_step h.wf (.write data) nofun
    have hnil : written = [] := List.self_eq_append_right.mp hcontents
    have hsame : ((setPeer (PeerOp.act r.peer (.write data)).1 w').traffic .data).given
        = (w.traffic .data).given := hgiven .data
    rw [hassembled, hcontents, hnil, List.append_nil, List.append_nil, h.assembled_eq, hsame]
  encoded := fun packet hpacket => by
    have hold : packet ∈ (w.traffic .tun).given := hgiven .tun ▸ hpacket
    obtain ⟨x, hx, hencodes⟩ := h.encoded packet hold
    exact ⟨x, List.mem_append_left _ hx, hencodes⟩
  uncancelled := hcancel.trans h.uncancelled
  outbound_open := by
    rw [h.tracks.eof_step (.write data) nofun]
    show _ → w'.vars.outboundShutdown = true
    rw [hvars]
    exact h.outbound_open

/-- Bytes are given to the owner, and popped. -/
theorem Linked.read (h : Linked cfg Encodes r w) {data : Bytes} {len : UInt64}
    (hdata : data = r.peer.inbound.contents.take len.toNat) :
    Linked cfg Encodes (r.step (.read len))
      (setPeer (PeerOp.act r.peer (.read len)).1 (w.called.onWrite .data data)) where
  tracks := h.tracks.step _
  wf := (PeerRun.inbound_read h.wf len).1
  tcp_eq := rfl
  accepted_eq := by
    have htaken : ((setPeer (PeerOp.act r.peer (.read len)).1
        (w.called.onWrite .data data)).traffic .data).taken = (w.traffic .data).taken :=
      w.called.taken_onWrite data
    rw [r.accepted_step (.read len) nofun, h.accepted_eq, htaken]
  assembled_eq := by
    obtain ⟨-, hcontents, hassembled⟩ := PeerRun.inbound_read h.wf len
    have hgiven : ((setPeer (PeerOp.act r.peer (.read len)).1
        (w.called.onWrite .data data)).traffic .data).given = (w.traffic .data).given ++ [data] :=
      w.called.given_onWrite data
    rw [hassembled, hcontents, h.assembled_eq, hgiven, List.flatten_append, List.flatten_singleton,
      hdata, List.append_assoc, List.take_append_drop]
  encoded := fun packet hpacket => by
    have hold : packet ∈ (w.traffic .tun).given := by
      have heq : (w.called.onWrite .data data).traffic .tun = w.traffic .tun :=
        w.called.traffic_touch_of_ne nofun
      exact heq ▸ hpacket
    obtain ⟨x, hx, hencodes⟩ := h.encoded packet hold
    exact ⟨x, List.mem_append_left _ hx, hencodes⟩
  uncancelled := h.uncancelled
  outbound_open := by
    rw [h.tracks.eof_step (.read len) nofun]
    exact h.outbound_open

/-! ### What has been heard -/

/-- Of the messages received since some moment each was in the packet taken since. -/
def Heard (decode : A → Bytes → Option TCPMessage) (w₀ : World SocketFd (SocketVars A))
    (ops : List PeerOp) (w : World SocketFd (SocketVars A)) : Prop :=
  ∀ msg, .receive msg ∈ ops → ∃ packet,
    (w.traffic .tun).taken = (w₀.traffic .tun).taken ++ [packet] ∧
      decode w₀.vars.datagramAdapter packet = some msg

variable {w₀ : World SocketFd (SocketVars A)} {ops : List PeerOp}

/-- An operation that is not a message adds nothing heard. -/
theorem Heard.concat (h : Heard decode w₀ ops w) {op : PeerOp} (hop : ∀ msg, op ≠ .receive msg)
    (htaken : (w'.traffic .tun).taken = (w.traffic .tun).taken) :
    Heard decode w₀ (ops ++ [op]) w' := by
  intro msg hmem
  rw [htaken]
  rcases List.mem_append.mp hmem with hmem | hmem
  · exact h msg hmem
  · exact absurd (List.mem_singleton.mp hmem).symm (hop msg)

/-- As long as no packet is taken, the same was heard. -/
theorem Heard.of_taken_eq (h : Heard decode w₀ ops w)
    (htaken : (w'.traffic .tun).taken = (w.traffic .tun).taken) : Heard decode w₀ ops w' := by
  intro msg hmem
  rw [htaken]
  exact h msg hmem

end MinnowSocket

end Minnow
