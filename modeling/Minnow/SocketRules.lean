import Minnow.SocketHistory

namespace Minnow

/-!
# The rules of a socket

What the three rules of a socket do is a run of its peer, whatever the kernel answers.

* `MinnowSocket.Reached`, `Still` — the operations since some moment; none of them is a message,
  while the loop is asking its rules;
* `MinnowSocket.Asking` — what is known while the loop is asking and serving its rules;
* `MinnowSocket.sound` — the rules keep it.
-/

namespace MinnowSocket

open ExceptState TCPDatagramAdapter EventLoop

variable {A C : Type} {cfg : TCPConfig} {Encodes : Bytes → TCPMessage → Prop}
  {decode : A → Bytes → Option TCPMessage} {r₀ r : PeerRun}
  {w₀ w w' : World SocketFd (SocketVars A)} {ops : List PeerOp} {ad : TCPDatagramAdapter A C}
  {kernel : Kernel SocketFd}

/-! ### The operations since some moment -/

/-- The history went on with some operations from the one at a moment, and is now as it should
    be. -/
def Reached (decode : A → Bytes → Option TCPMessage) (r₀ : PeerRun)
    (w₀ : World SocketFd (SocketVars A)) (P : PeerRun → World SocketFd (SocketVars A) → Prop)
    (w : World SocketFd (SocketVars A)) : Prop :=
  ∃ ops, P (Machine.run PeerRun.step r₀ ops) w ∧ Heard decode w₀ ops w

/-- Less is asked of what was reached. -/
theorem Reached.mono {P Q : PeerRun → World SocketFd (SocketVars A) → Prop}
    (h : Reached decode r₀ w₀ P w) (hPQ : ∀ r, P r w → Q r w) : Reached decode r₀ w₀ Q w := by
  obtain ⟨ops, hP, hheard⟩ := h
  exact ⟨ops, hPQ _ hP, hheard⟩

/-- What is linked is sane. -/
theorem Reached.sane (h : Reached decode r₀ w₀ (Linked cfg Encodes) w) :
    Reached decode r₀ w₀ (Sane Encodes) w :=
  h.mono fun _ hlinked => hlinked.sane

/-- Nothing has happened that matters here. -/
theorem Reached.of_idle (h : Reached decode r₀ w₀ (Linked cfg Encodes) w) (hidle : Idle w w') :
    Reached decode r₀ w₀ (Linked cfg Encodes) w' := by
  obtain ⟨ops, hlinked, hheard⟩ := h
  exact ⟨ops, hlinked.of_idle hidle, hheard.of_taken_eq (hidle.taken_eq _)⟩

/-- Something is done to the peer. -/
theorem act_reached (hlawful : Lawful ad Encodes decode) {op : PeerOp}
    (hwrite : ∀ data, op ≠ .write data) (hread : ∀ len, op ≠ .read len) (hclose : op ≠ .close)
    (hreceive : ∀ msg, op ≠ .receive msg) :
    Triple (Reached decode r₀ w₀ (Linked cfg Encodes)) (act ad op)
      (fun _ => Reached decode r₀ w₀ (Linked cfg Encodes))
      fun _ => Reached decode r₀ w₀ (Sane Encodes) := by
  refine .of_state ?_
  rintro w ⟨ops, h, hheard⟩
  have hstep : ∀ t, Acted Encodes op (Machine.run PeerRun.step r₀ ops).peer w t →
      Reached decode r₀ w₀ (Linked cfg Encodes) t := by
    intro t ht
    refine ⟨ops ++ [op], ?_, hheard.concat hreceive ht.taken_eq⟩
    rw [Machine.run_concat]
    exact h.act hwrite hread hclose ht
  exact (act_triple hlawful h.tcp_eq).mono (fun _ ht => ht) (fun _ => hstep) fun _ t ht =>
    (hstep t ht).sane

/-- No message was received since that moment. -/
structure Still (cfg : TCPConfig) (Encodes : Bytes → TCPMessage → Prop) (r₀ : PeerRun)
    (w₀ : World SocketFd (SocketVars A)) (ops : List PeerOp) (w : World SocketFd (SocketVars A)) :
    Prop where
  linked : Linked cfg Encodes (Machine.run PeerRun.step r₀ ops) w
  deaf : ∀ msg, .receive msg ∉ ops
  taken_eq : (w.traffic .tun).taken = (w₀.traffic .tun).taken
  adapter_eq : w.vars.datagramAdapter = w₀.vars.datagramAdapter

/-- At that moment itself. -/
theorem Linked.still (h : Linked cfg Encodes r w) : Still cfg Encodes r w [] w :=
  ⟨h, fun _ => List.not_mem_nil, rfl, rfl⟩

/-- Operations without messages. -/
theorem Still.reached (h : Still cfg Encodes r₀ w₀ ops w) :
    Reached decode r₀ w₀ (Linked cfg Encodes) w :=
  ⟨ops, h.linked, fun msg hmem => absurd hmem (h.deaf msg)⟩

/-- Nothing has happened that matters here. -/
theorem Still.of_idle (h : Still cfg Encodes r₀ w₀ ops w) (hidle : Idle w w') :
    Still cfg Encodes r₀ w₀ ops w' where
  linked := h.linked.of_idle hidle
  deaf := h.deaf
  taken_eq := (hidle.taken_eq _).trans h.taken_eq
  adapter_eq := hidle.adapter_eq.trans h.adapter_eq

/-- An operation that is not a message. -/
theorem Still.concat (h : Still cfg Encodes r₀ w₀ ops w) {op : PeerOp}
    (hop : ∀ msg, op ≠ .receive msg)
    (hlinked : Linked cfg Encodes ((Machine.run PeerRun.step r₀ ops).step op) w')
    (htaken : (w'.traffic .tun).taken = (w.traffic .tun).taken)
    (hadapter : w'.vars.datagramAdapter = w.vars.datagramAdapter) :
    Still cfg Encodes r₀ w₀ (ops ++ [op]) w' where
  linked := by
    rw [Machine.run_concat]
    exact hlinked
  deaf msg hmem := by
    rcases List.mem_append.mp hmem with hmem | hmem
    · exact h.deaf msg hmem
    · exact hop msg (List.mem_singleton.mp hmem).symm
  taken_eq := htaken.trans h.taken_eq
  adapter_eq := hadapter.trans h.adapter_eq

/-- The owner ends the outbound stream. -/
theorem closeOutbound_triple {E : StdException → World SocketFd (SocketVars A) → Prop}
    (h : Linked cfg Encodes r w) : Triple (fun t => t = w) (closeOutbound ad)
      (fun _ t => t = setVars (fun v => { v with outboundShutdown := true })
        (setPeer (PeerOp.act r.peer .close).1 w)) E := by
  refine .bind (act_silent_triple h.tcp_eq rfl) fun _ => .modify ?_
  rintro _ rfl
  rfl

/-- Ending the outbound stream is an operation. -/
theorem closeOutbound_reached :
    Triple (Reached decode r₀ w₀ (Linked cfg Encodes)) (closeOutbound ad)
      (fun _ => Reached decode r₀ w₀ (Linked cfg Encodes))
      fun _ => Reached decode r₀ w₀ (Sane Encodes) := by
  refine .of_state ?_
  rintro w ⟨ops, h, hheard⟩
  refine (closeOutbound_triple h).post ?_
  rintro _ _ rfl
  refine ⟨ops ++ [.close], ?_, hheard.concat nofun rfl⟩
  rw [Machine.run_concat]
  exact h.closeOutbound

/-! ### The callbacks -/

/-- What reading from the adapter leaves. -/
structure Received (decode : A → Bytes → Option TCPMessage) (result : Option TCPMessage)
    (w w' : World SocketFd (SocketVars A)) : Prop where
  tcp_eq : w'.vars.tcp = w.vars.tcp
  shutdown_eq : w'.vars.outboundShutdown = w.vars.outboundShutdown
  cancelRequested_eq : w'.cancelRequested = w.cancelRequested
  data_eq : w'.traffic .data = w.traffic .data
  given_eq : (w'.traffic .tun).given = (w.traffic .tun).given
  taken : ∀ msg, result = some msg → ∃ packet,
    (w'.traffic .tun).taken = (w.traffic .tun).taken ++ [packet] ∧
      decode w.vars.datagramAdapter packet = some msg

/-- Reading from the adapter, as the socket sees it. -/
theorem read_triple (hlawful : Lawful ad Encodes decode) :
    Triple (fun t => t = w) (onAdapter ad.read) (fun result => Received decode result w)
      fun _ => Received decode none w := by
  have hreceived : ∀ result (t : World SocketFd A),
      Took decode result { w with vars := w.vars.datagramAdapter } t →
      Received decode result w { t with vars := { w.vars with datagramAdapter := t.vars } } := by
    intro result t ht
    refine ⟨rfl, rfl, ht.cancelRequested_eq, ht.traffic_eq, ht.given_eq, ?_⟩
    rintro msg rfl
    rcases ht.taken with ⟨-, hnone⟩ | ⟨packet, htaken, hdecode⟩
    · cases hnone
    · exact ⟨packet, htaken, hdecode msg rfl⟩
  exact SysM.zoom_triple ((hlawful.read _).mono (fun _ ht => ht) (fun result => hreceived result)
    fun _ => hreceived none)

/-- The peer is where it was when the message was read. -/
theorem Linked.received {result : Option TCPMessage} (h : Linked cfg Encodes r w)
    (hreceived : Received decode result w w') : Linked cfg Encodes r w' where
  tracks := h.tracks
  wf := h.wf
  tcp_eq := hreceived.tcp_eq.trans h.tcp_eq
  accepted_eq := by rw [h.accepted_eq, hreceived.data_eq]
  assembled_eq := by rw [h.assembled_eq, hreceived.data_eq]
  encoded := by
    rw [hreceived.given_eq]
    exact h.encoded
  uncancelled := hreceived.cancelRequested_eq.trans h.uncancelled
  outbound_open := by
    rw [hreceived.shutdown_eq]
    exact h.outbound_open

/-- **Rule 1.** -/
theorem receiveCallback_triple (hlawful : Lawful ad Encodes decode)
    (h : Still cfg Encodes r₀ w₀ ops w) :
    Triple (fun t => t = w) (receiveCallback ad)
      (fun _ => Reached decode r₀ w₀ (Linked cfg Encodes))
      fun _ => Reached decode r₀ w₀ (Sane Encodes) := by
  have hdeaf : ∀ t, Linked cfg Encodes (Machine.run PeerRun.step r₀ ops) t →
      Reached decode r₀ w₀ (Linked cfg Encodes) t :=
    fun t ht => ⟨ops, ht, fun msg hmem => absurd hmem (h.deaf msg)⟩
  -- the flag does not matter
  have hflag : Triple (Reached decode r₀ w₀ (Linked cfg Encodes)) (do
      let w ← get
      if (w.fds .data).eof = true ∧ w.vars.fullyAcked = false ∧
          ∀ p ∈ w.vars.tcp, p.sender.sequenceNumbersInFlight = 0 then
        modify (setVars fun v => { v with fullyAcked := true }) : SocketM A PUnit)
      (fun _ => Reached decode r₀ w₀ (Linked cfg Encodes))
      fun _ => Reached decode r₀ w₀ (Sane Encodes) := by
    refine .get fun t ht => .ite (fun _ => .modify ?_) fun _ => .pure _ ?_
    · rintro _ rfl
      exact ht.of_idle (.flag _ (fun _ => rfl) (fun _ => rfl) fun _ => rfl)
    · rintro _ rfl
      exact ht
  refine .bind ((read_triple hlawful).mono (fun _ ht => ht) (fun _ _ ht => ht) ?_) fun result => ?_
  · exact fun _ t ht => (hdeaf t (h.linked.received ht)).sane
  cases result with
  | none => exact hflag.pre fun t ht => hdeaf t (h.linked.received ht)
  | some msg =>
    refine .bind (.of_state fun t ht => ?_) fun _ => hflag
    have hlinked := h.linked.received ht
    obtain ⟨packet, htaken, hdecode⟩ := ht.taken msg rfl
    rw [h.taken_eq] at htaken
    rw [h.adapter_eq] at hdecode
    have hstep : ∀ t', Acted Encodes (.receive msg) (Machine.run PeerRun.step r₀ ops).peer t t' →
        Reached decode r₀ w₀ (Linked cfg Encodes) t' := by
      intro t' ht'
      refine ⟨ops ++ [.receive msg], ?_, fun msg' hmem => ⟨packet, ?_, ?_⟩⟩
      · rw [Machine.run_concat]
        exact hlinked.act nofun nofun nofun ht'
      · exact ht'.taken_eq.trans htaken
      · rcases List.mem_append.mp hmem with hmem | hmem
        · exact absurd hmem (h.deaf msg')
        · cases List.mem_singleton.mp hmem
          exact hdecode
    exact (act_triple hlawful hlinked.tcp_eq).mono (fun _ ht => ht) (fun _ => hstep)
      fun _ t' ht' => (hstep t' ht').sane

/-- **Rule 2.**  There is room for all that is read. -/
theorem pushCallback_triple (hlawful : Lawful ad Encodes decode)
    (h : Still cfg Encodes r₀ w₀ ops w)
    (hroom : ∀ p ∈ w.vars.tcp, 0 < p.outbound.availableCapacity.toNat ∧ p.outbound.eof = false) :
    Triple (fun t => t = w) (pushCallback kernel ad)
      (fun _ => Reached decode r₀ w₀ (Linked cfg Encodes))
      fun _ => Reached decode r₀ w₀ (Sane Encodes) := by
  have hlinked := h.linked
  set r := Machine.run PeerRun.step r₀ ops with hr
  obtain ⟨hpos, hopen⟩ := hroom r.peer hlinked.tcp_eq
  have hsize : FileDescriptor.bufferSize r.peer.outbound.availableCapacity.toNat
      = r.peer.outbound.availableCapacity.toNat := if_neg hpos.ne'
  -- what was read has been accepted
  have hwrite : ∀ data (t : World SocketFd (SocketVars A)),
      r.peer.outbound.accepted data = data → t.vars = w.vars →
      t.cancelRequested = w.cancelRequested →
      (t.traffic .data).taken.flatten = (w.traffic .data).taken.flatten ++ data →
      (∀ fd, (t.traffic fd).given = (w.traffic fd).given) → t.traffic .tun = w.traffic .tun →
      Triple (fun t' => t' = t) (act ad (.write data))
        (fun _ => Reached decode r₀ w₀ (Linked cfg Encodes))
        fun _ => Reached decode r₀ w₀ (Sane Encodes) := by
    intro data t haccepts hvars hcancel htaken hgiven htun
    refine (act_silent_triple (p := r.peer) (by rw [hvars, hlinked.tcp_eq]) rfl).post ?_
    rintro _ _ rfl
    refine ⟨ops ++ [.write data], ?_, fun msg hmem => ?_⟩
    · rw [Machine.run_concat]
      exact hlinked.write haccepts hvars hcancel htaken hgiven
    · rcases List.mem_append.mp hmem with hmem | hmem
      · exact absurd hmem (h.deaf msg)
      · cases List.mem_singleton.mp hmem
  have haccepted : ∀ data, r.peer.outbound.accepted data
      = data.take r.peer.outbound.availableCapacity.toNat := fun data =>
    if_neg (by rw [hopen]; exact Bool.false_ne_true)
  have htun : ∀ data eof, (w.called.onRead .data data eof).traffic .tun = w.traffic .tun :=
    fun _ _ => w.called.traffic_touch_of_ne nofun
  refine .get ?_
  rintro _ rfl
  rw [hlinked.tcp_eq]
  refine .bind (Q := fun data t => Triple (fun t' => t' = t) (act ad (.write data))
    (fun _ => Reached decode r₀ w₀ (Linked cfg Encodes))
    fun _ => Reached decode r₀ w₀ (Sane Encodes)) (FileDescriptor.read_triple ?_ ?_ ?_ ?_)
    fun data => .bind (.of_state fun t ht => ht) fun _ => .get fun t ht => ?_
  · rintro _ e rfl -
    refine hwrite [] _ ?_ rfl rfl (List.append_nil _).symm (fun _ => rfl) rfl
    rw [haccepted, List.take_nil]
  · rintro w data rfl - hle
    rw [hsize] at hle
    refine hwrite data _ ?_ rfl rfl ?_ (fun fd => w.called.given_onRead data _) (htun _ _)
    · rw [haccepted, List.take_of_length_le hle]
    · rw [World.taken_onRead, List.flatten_append, List.flatten_singleton]
      rfl
  · rintro w e rfl -
    exact (h.of_idle (.called w)).reached.sane
  · rintro w data rfl - -
    refine ⟨ops, ?_, fun msg hmem => absurd hmem (h.deaf msg)⟩
    have hsane := hlinked.sane
    constructor
    case accepted =>
      rw [World.taken_onRead, List.flatten_append]
      exact hsane.accepted.trans (List.prefix_append _ _)
    case assembled =>
      rw [World.given_onRead]
      exact hsane.assembled
    case encoded =>
      rw [World.given_onRead]
      exact hsane.encoded
  · have hpush : Triple (Reached decode r₀ w₀ (Linked cfg Encodes)) (act ad .push)
        (fun _ => Reached decode r₀ w₀ (Linked cfg Encodes))
        fun _ => Reached decode r₀ w₀ (Sane Encodes) :=
      act_reached hlawful nofun nofun nofun nofun
    have hpre : ∀ t', t' = t → Reached decode r₀ w₀ (Linked cfg Encodes) t' := by
      rintro _ rfl
      exact ht
    refine .ite (fun _ => ?_) fun _ => hpush.pre hpre
    exact .bind (closeOutbound_reached.pre hpre) fun _ => hpush

/-- What has been written to the owner before an exception was buffered. -/
theorem Linked.sane_of_write (h : Linked cfg Encodes r w) {data : Bytes}
    (hdata : data <+: r.peer.inbound.contents) :
    Sane Encodes r (w.called.onWrite .data data) where
  accepted := by
    rw [World.taken_onWrite]
    exact h.sane.accepted
  assembled := by
    rw [World.given_onWrite, List.flatten_append, List.flatten_singleton, h.assembled_eq]
    exact (List.prefix_append_right_inj _).mpr hdata
  encoded := by
    have htun : (w.called.onWrite .data data).traffic .tun = w.traffic .tun :=
      w.called.traffic_touch_of_ne nofun
    rw [htun]
    exact h.encoded

/-- Writing to the owner is reading from the inbound stream. -/
theorem writeInbound_reached :
    Triple (Reached decode r₀ w₀ (Linked cfg Encodes)) (writeInbound kernel ad)
      (fun _ => Reached decode r₀ w₀ (Linked cfg Encodes))
      fun _ => Reached decode r₀ w₀ (Sane Encodes) := by
  refine .get ?_
  rintro w ⟨ops, h, hheard⟩
  rw [h.tcp_eq]
  have hpeek := ByteStream.peek_eq h.wf
  have hflat : [(Machine.run PeerRun.step r₀ ops).peer.inbound.peek].flatten
      = (Machine.run PeerRun.step r₀ ops).peer.inbound.contents.take 1 := by
    rw [List.flatten_singleton, hpeek]
  -- an exception leaves what was said to be written
  have hsane : ∀ data, data <+: (Machine.run PeerRun.step r₀ ops).peer.inbound.contents →
      Reached decode r₀ w₀ (Sane Encodes) (w.called.onWrite .data data) := by
    refine fun data hdata => ⟨ops, h.sane_of_write hdata, hheard.of_taken_eq ?_⟩
    rw [World.taken_onWrite]
    rfl
  refine .ite (fun _ => .bind (Q := fun n t => n ≤ 1 ∧ t = w.called.onWrite .data
    ((Machine.run PeerRun.step r₀ ops).peer.inbound.contents.take n))
    (FileDescriptor.write_triple ?_ ?_ ?_ ?_) fun n => .of_state ?_) fun _ => .pure _ ?_
  · rintro w n rfl - hn -
    rw [hflat] at hn ⊢
    have hn1 : n ≤ 1 := hn.trans ((List.length_take_le _ _))
    exact ⟨hn1, by rw [List.take_take, min_eq_left hn1]⟩
  · rintro w e rfl -
    exact ⟨ops, h.sane.of_idle (.called w), hheard⟩
  · rintro w rfl - -
    exact hsane [] (List.nil_prefix)
  · rintro w n rfl - -
    rw [hflat]
    exact hsane _ (List.take_prefix _ _)
  · rintro _ ⟨hn, rfl⟩
    have hlen : (UInt64.ofNat n).toNat = n := UInt64.toNat_ofNat_of_lt' (by
      show n < 2 ^ 64
      omega)
    have hp : (w.called.onWrite .data
        ((Machine.run PeerRun.step r₀ ops).peer.inbound.contents.take n)).vars.tcp
        = some (Machine.run PeerRun.step r₀ ops).peer := h.tcp_eq
    refine (act_silent_triple hp rfl).post ?_
    rintro _ _ rfl
    refine ⟨ops ++ [.read (UInt64.ofNat n)], ?_, hheard.concat nofun ?_⟩
    · rw [Machine.run_concat]
      exact h.read (by rw [hlen])
    · exact w.called.taken_onWrite _
  · rintro _ rfl
    exact ⟨ops, h, hheard⟩

/-- **Rule 3.** -/
theorem readCallback_reached :
    Triple (Reached decode r₀ w₀ (Linked cfg Encodes)) (readCallback kernel ad)
      (fun _ => Reached decode r₀ w₀ (Linked cfg Encodes))
      fun _ => Reached decode r₀ w₀ (Sane Encodes) := by
  refine .bind writeInbound_reached fun _ => .get fun w h => .ite (fun _ => .bind
    (Q := fun _ => Reached decode r₀ w₀ (Linked cfg Encodes))
    (FileDescriptor.shutdown_triple ?_ ?_) fun _ => .modify ?_) fun _ => .pure _ ?_
  · rintro w rfl
    exact h.of_idle ((Idle.called w).trans (.onShutdown ..))
  · rintro w e rfl -
    exact (h.of_idle (.called w)).sane
  · exact fun t ht => ht.of_idle (.flag t (fun _ => rfl) (fun _ => rfl) fun _ => rfl)
  · rintro _ rfl
    exact h

/-! ### Asking and serving the rules -/

/-- What is known while the loop is asking and serving its rules. -/
structure Asking (cfg : TCPConfig) (Encodes : Bytes → TCPMessage → Prop) (kernel : Kernel SocketFd)
    (ad : TCPDatagramAdapter A C) (r₀ : PeerRun) (w₀ : World SocketFd (SocketVars A))
    (l : List (SocketRule A × Option Bool)) (w : World SocketFd (SocketVars A)) : Prop where
  shape : (l.map (·.1)).Sublist (rules kernel ad)
  still : ∃ ops, Still cfg Encodes r₀ w₀ ops w
  /-- Who wants to read from the owner has room for what it reads. -/
  room : (pushRule kernel ad, some true) ∈ l →
    ∀ p ∈ w.vars.tcp, 0 < p.outbound.availableCapacity.toNat ∧ p.outbound.eof = false

variable {l l' : List (SocketRule A × Option Bool)} {rule : SocketRule A}

/-- The rules are different ones. -/
theorem nodup_rules : (rules kernel ad).Nodup := by
  refine List.Nodup.of_map (·.id) ?_
  show [0, 1, 2].Nodup
  decide

/-- Nothing has happened that matters to the rules. -/
theorem Asking.of_idle (h : Asking cfg Encodes kernel ad r₀ w₀ l w) (hidle : Idle w w') :
    Asking cfg Encodes kernel ad r₀ w₀ l w' where
  shape := h.shape
  still := by
    obtain ⟨ops, hstill⟩ := h.still
    exact ⟨ops, hstill.of_idle hidle⟩
  room := by
    rw [hidle.tcp_eq]
    exact h.room

/-- Rules go, or their answers are forgotten. -/
theorem Asking.mono (h : Asking cfg Encodes kernel ad r₀ w₀ l w)
    (hshape : (l'.map (·.1)).Sublist (l.map (·.1))) (hl : ∀ p ∈ l', p.2 = none ∨ p ∈ l) :
    Asking cfg Encodes kernel ad r₀ w₀ l' w where
  shape := hshape.trans h.shape
  still := h.still
  room hp := h.room ((hl _ hp).resolve_left nofun)

/-- One of the rules is cancelled. -/
theorem Asking.remove {before after : List (SocketRule A × Option Bool)} {answer : Option Bool}
    (h : Asking cfg Encodes kernel ad r₀ w₀ (before ++ (rule, answer) :: after) w) :
    Asking cfg Encodes kernel ad r₀ w₀ (before ++ after) w := by
  refine h.mono ?_ fun p hp => .inr ?_
  · rw [List.map_append, List.map_append]
    exact (List.sublist_cons_self _ _).append_left _
  · exact List.mem_append.mpr ((List.mem_append.mp hp).imp_right (List.mem_cons_of_mem _))

/-- A rule is there once. -/
theorem Asking.notMem {before after : List (SocketRule A × Option Bool)} {answer : Option Bool}
    (h : Asking cfg Encodes kernel ad r₀ w₀ (before ++ (rule, answer) :: after) w) :
    rule ∉ (before ++ after).map (·.1) := by
  have hnodup := h.shape.nodup nodup_rules
  rw [List.map_append, List.map_cons] at hnodup
  rw [List.map_append]
  exact (List.nodup_middle.mp hnodup).notMem

/-- Something is done to the peer that transmits nothing, while its outbound stream is not waited
    for or stays as it is. -/
theorem Asking.silent (h : Asking cfg Encodes kernel ad r₀ w₀ l w) (op : PeerOp)
    (hreceive : ∀ msg, op ≠ .receive msg)
    (hlinked : ∀ r, Linked cfg Encodes r w → Linked cfg Encodes (r.step op) w')
    (htaken : (w'.traffic .tun).taken = (w.traffic .tun).taken)
    (hadapter : w'.vars.datagramAdapter = w.vars.datagramAdapter)
    (hroom : pushRule kernel ad ∉ l.map (·.1) ∨
      ∀ p ∈ w'.vars.tcp, ∃ p' ∈ w.vars.tcp,
        p.outbound.availableCapacity = p'.outbound.availableCapacity ∧
        p.outbound.eof = p'.outbound.eof) :
    Asking cfg Encodes kernel ad r₀ w₀ l w' where
  shape := h.shape
  still := by
    obtain ⟨ops, hstill⟩ := h.still
    exact ⟨ops ++ [op], hstill.concat hreceive (hlinked _ hstill.linked) htaken hadapter⟩
  room hp := by
    rcases hroom with hgone | hsame
    · exact absurd (List.mem_map_of_mem hp) hgone
    · intro p hmem
      obtain ⟨p', hmem', hcapacity, heof⟩ := hsame p hmem
      rw [hcapacity, heof]
      exact h.room hp p' hmem'

/-- The rule that reads from the owner is cancelled, and the outbound stream ends. -/
theorem Asking.ended {E : StdException → World SocketFd (SocketVars A) → Prop}
    (h : Asking cfg Encodes kernel ad r₀ w₀ l w) (hgone : pushRule kernel ad ∉ l.map (·.1)) :
    Triple (fun t => t = w) (closeOutbound ad)
      (fun _ => Asking cfg Encodes kernel ad r₀ w₀ l) E := by
  obtain ⟨ops, hstill⟩ := h.still
  refine (closeOutbound_triple hstill.linked).post ?_
  rintro _ _ rfl
  refine h.silent .close nofun (fun r hr => ?_) rfl rfl (.inl hgone)
  rw [show (Machine.run PeerRun.step r₀ ops).peer = r.peer from
    Option.some.inj (hstill.linked.tcp_eq.symm.trans hr.tcp_eq)]
  exact hr.closeOutbound

/-- Only these rules are asked. -/
theorem Asking.known (h : Asking cfg Encodes kernel ad r₀ w₀ l w)
    {p : SocketRule A × Option Bool} (hp : p ∈ l) :
    p.1 = receiveRule ad ∨ p.1 = pushRule kernel ad ∨ p.1 = readRule kernel ad := by
  have hmem := h.shape.subset (List.mem_map_of_mem hp)
  simpa [rules] using hmem

/-- **Cancelling** a rule. -/
theorem Asking.cancel {E : StdException → World SocketFd (SocketVars A) → Prop}
    {before after : List (SocketRule A × Option Bool)} {answer : Option Bool}
    (h : Asking cfg Encodes kernel ad r₀ w₀ (before ++ (rule, answer) :: after) w) :
    Triple (fun t => t = w) rule.cancel
      (fun _ => Asking cfg Encodes kernel ad r₀ w₀ (before ++ after)) E := by
  have hremove := h.remove
  have hnothing : Triple (fun t => t = w) (pure ⟨⟩ : SocketM A PUnit)
      (fun _ => Asking cfg Encodes kernel ad r₀ w₀ (before ++ after)) E := by
    refine .pure _ ?_
    rintro _ rfl
    exact hremove
  have hrule := h.known (List.mem_append_right before List.mem_cons_self)
  have hgone := h.notMem
  dsimp only at hrule
  rcases hrule with rfl | rfl | rfl
  · exact hnothing
  · exact hremove.ended hgone
  · exact hnothing

/-- **An error** of a descriptor is one of the stream. -/
theorem Asking.error {E : StdException → World SocketFd (SocketVars A) → Prop}
    {answer : Option Bool} (h : Asking cfg Encodes kernel ad r₀ w₀ l w) (hmem : (rule, answer) ∈ l) :
    Triple (fun t => t = w) rule.error (fun _ => Asking cfg Encodes kernel ad r₀ w₀ l) E := by
  obtain ⟨ops, hstill⟩ := h.still
  have htcp := hstill.linked.tcp_eq
  set r := Machine.run PeerRun.step r₀ ops with hr
  have hset : ∀ op : PeerOp, (op.act r.peer).2 = [] → (∀ data, op ≠ .write data) →
      (∀ len, op ≠ .read len) → op ≠ .close → (∀ msg, op ≠ .receive msg) →
      (op.act r.peer).1.outbound.availableCapacity = r.peer.outbound.availableCapacity →
      (op.act r.peer).1.outbound.eof = r.peer.outbound.eof →
      Triple (fun t => t = w) (act ad op)
        (fun _ => Asking cfg Encodes kernel ad r₀ w₀ l) E := by
    intro op hsilent hwrite hread hclose hreceive hcapacity heof
    refine (act_silent_triple htcp hsilent).post ?_
    rintro _ _ rfl
    refine h.silent op hreceive (fun r' hr' => ?_) rfl rfl (.inr fun p hp => ?_)
    · have hpeer : r.peer = r'.peer := Option.some.inj (htcp.symm.trans hr'.tcp_eq)
      rw [hpeer]
      exact hr'.act hwrite hread hclose (.refl _ _)
    · cases hp
      exact ⟨r.peer, htcp, hcapacity, heof⟩
  have hrule := h.known hmem
  dsimp only at hrule
  rcases hrule with rfl | rfl | rfl
  · refine .pure _ ?_
    rintro _ rfl
    exact h
  · exact hset .setOutboundError rfl nofun nofun nofun nofun rfl rfl
  · exact hset .setInboundError rfl nofun nofun nofun nofun rfl rfl

/-- **A rule is called back.** -/
theorem Asking.callback (hlawful : Lawful ad Encodes decode) {rule : SocketRule A}
    (h : Asking cfg Encodes kernel ad r₀ w₀ l w) (hmem : (rule, some true) ∈ l) :
    Triple (fun t => t = w) rule.callback (fun _ => Reached decode r₀ w₀ (Linked cfg Encodes))
      fun _ => Reached decode r₀ w₀ (Sane Encodes) := by
  obtain ⟨ops, hstill⟩ := h.still
  have hrule := h.known hmem
  dsimp only at hrule
  rcases hrule with rfl | rfl | rfl
  · exact receiveCallback_triple hlawful hstill
  · exact pushCallback_triple hlawful hstill (h.room hmem)
  · refine readCallback_reached.pre ?_
    rintro _ rfl
    exact hstill.reached

/-- **A rule answers.**  As long as the owner has not ended it, the outbound stream is open. -/
theorem Asking.answer {before after : List (SocketRule A × Option Bool)}
    (h : Asking cfg Encodes kernel ad r₀ w₀ (before ++ (rule, none) :: after) w) :
    Asking cfg Encodes kernel ad r₀ w₀ (before ++ (rule, some (rule.interest w)) :: after) w where
  shape := by
    have hshape := h.shape
    rw [List.map_append, List.map_cons] at hshape ⊢
    exact hshape
  still := h.still
  room hp := by
    rcases List.mem_append.mp hp with hmem | hmem
    · exact h.room (List.mem_append_left _ hmem)
    rcases List.mem_cons.mp hmem with heq | hmem
    swap
    · exact h.room (List.mem_append_right _ (List.mem_cons_of_mem _ hmem))
    obtain ⟨rfl, hanswer⟩ := Prod.mk.inj heq
    intro p hp
    obtain ⟨ops, hstill⟩ := h.still
    have hpeer : (Machine.run PeerRun.step r₀ ops).peer = p :=
      Option.some.inj (hstill.linked.tcp_eq.symm.trans hp)
    have hint : pushInterest w = true := (Option.some.inj hanswer).symm
    rw [pushInterest, hp] at hint
    simp only [Option.any_some, Bool.and_eq_true, decide_eq_true_eq, Bool.not_eq_true',
      gt_iff_lt] at hint
    obtain ⟨⟨-, hopen⟩, hroom⟩ := hint
    refine ⟨UInt64.lt_iff_toNat_lt.mp hroom, ?_⟩
    by_contra heof
    have hended := hstill.linked.outbound_open (by rw [hpeer]; simpa using heof)
    rw [hopen] at hended
    cases hended

/-- **The rules keep it.**  What they do is operations of the peer, each message from the packet
    just taken. -/
theorem sound (cfg : TCPConfig) (kernel : Kernel SocketFd) (r₀ : PeerRun)
    (w₀ : World SocketFd (SocketVars A)) (hlawful : Lawful ad Encodes decode) :
    Sound kernel ([] : List (BasicRule SocketFd (SocketVars A)))
      (Asking cfg Encodes kernel ad r₀ w₀)
      (fun rs w => rs.Sublist (rules kernel ad) ∧ Reached decode r₀ w₀ (Linked cfg Encodes) w)
      fun _ => Reached decode r₀ w₀ (Sane Encodes) where
  basic := nofun
  busy := nofun
  cancelled before rule after w h hcancel := by
    obtain ⟨ops, hstill⟩ := h.still
    rw [hstill.linked.uncancelled] at hcancel
    cases hcancel
  defunct before rule after := by
    refine .of_state fun w h => h.1.cancel
  answers before rule after w h _ := h.answer
  polls polled w h := by
    refine (h.of_idle (.called w)).mono ?_ ?_
    · rw [map_fst_expected, map_fst_asked]
    · rintro ⟨rule, answer⟩ hp
      cases answer with
      | none => exact .inl rfl
      | some b =>
        cases b with
        | true => exact .inr (mem_asked_of_expected hp)
        | false => exact absurd rfl (mem_expected hp).2
  pollFails polled w fds timeoutMs e h _ := by
    obtain ⟨ops, hstill⟩ := h.still
    exact (hstill.of_idle (.called w)).reached.sane
  failed before rule answer after := by
    refine .of_state fun w h => ?_
    have hfail : ∀ t, t = w.called.onFail rule.fd →
        Asking cfg Encodes kernel ad r₀ w₀ (unasked before ++ (rule, answer) :: expected after)
          t := by
      rintro _ rfl
      exact h.of_idle ((Idle.called w).trans (.onFail ..))
    refine .bind (Q := fun _ t => t = w.called) (checkSocket_triple.mono (fun _ ht => ht)
      (fun _ _ ht => ht) ?_) fun _ => .bind (.modify (Q := fun _ t => t = w.called.onFail rule.fd)
      ?_) fun _ => .bind (.of_state fun t ht => (hfail t ht).error
        (List.mem_append_right _ List.mem_cons_self)) fun _ => .of_state fun t ht => ht.cancel
    · rintro e t ⟨rfl, -⟩
      obtain ⟨ops, hstill⟩ := h.still
      exact (hstill.of_idle (.called w)).reached.sane
    · rintro _ rfl
      rfl
  hungUp before rule answer after := by
    refine .of_state fun w h => .bind (.modify (Q := fun _ t => t = w.onHangUp rule.fd) ?_)
      fun _ => (h.of_idle (.onHangUp w rule.fd)).cancel
    rintro _ rfl
    rfl
  served before rule after count := by
    refine .of_state fun w ⟨h, _⟩ => (h.callback hlawful
      (List.mem_append_right _ List.mem_cons_self)).post fun _ t ht => ⟨⟨?_, ht⟩, ?_⟩
    · have hshape := h.shape
      rwa [List.map_append, List.map_cons, map_fst_unasked, map_fst_expected] at hshape
    · exact fun _ _ _ _ => ht.sane
  ends before after w h := by
    obtain ⟨ops, hstill⟩ := h.still
    have hshape := h.shape
    rw [List.map_append, map_fst_unasked, map_fst_expected] at hshape
    exact ⟨hshape, hstill.reached⟩
  skip before rule answer after w h := by
    refine h.mono ?_ fun p hp => ?_
    · rw [List.map_append, List.map_append]
      rfl
    · rcases List.mem_append.mp hp with hmem | hmem
      · exact .inr (List.mem_append_left _ hmem)
      · rcases List.mem_cons.mp hmem with rfl | hmem
        · exact .inl rfl
        · exact .inr (List.mem_append_right _ (List.mem_cons_of_mem _ hmem))

end MinnowSocket

end Minnow
