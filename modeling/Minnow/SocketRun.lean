import Minnow.SocketRules

namespace Minnow

/-!
# Runs of a socket

Whatever its owner does and its kernel answers, each step of a socket is a run of its peer.

* `MinnowSocket.tcpLoopPass_triple`, `connect_triple`, `listenAndAccept_triple` — the methods;
* `MinnowSocket.Known` — what is known of a socket in each phase;
* `MinnowSocket.Known.step` — a step of the socket is a run of its peer, in which a message received
  was in the packet that was taken.
-/

namespace MinnowSocket

open ExceptState TCPDatagramAdapter EventLoop

variable {A C : Type} {cfg : TCPConfig} {Encodes : Bytes → TCPMessage → Prop}
  {decode : A → Bytes → Option TCPMessage} {r : PeerRun} {w₀ w : World SocketFd (SocketVars A)}
  {ad : TCPDatagramAdapter A C} {kernel : Kernel SocketFd}

/-! ### The methods -/

/-- The loop serves rules of the socket. -/
structure Serves (kernel : Kernel SocketFd) (ad : TCPDatagramAdapter A C) (loop : SocketLoop A) :
    Prop where
  fdRules : loop.fdRules.Sublist (rules kernel ad)
  nonFdRules : loop.nonFdRules = []

/-- Looking at the clock. -/
theorem timestampMs_triple {P : World SocketFd (SocketVars A) → Prop}
    {Q : UInt64 → World SocketFd (SocketVars A) → Prop}
    {E : StdException → World SocketFd (SocketVars A) → Prop}
    (h : ∀ w ms, P w → Q ms w.called) : Triple P (timestampMs kernel) Q E := by
  refine FileDescriptor.call_triple fun w hw => .pure _ ?_
  rintro _ rfl
  exact h w _ hw

/-- **A pass of the loop.** -/
theorem tcpLoopPass_triple (hlawful : Lawful ad Encodes decode) (h : Linked cfg Encodes r w)
    {loop : SocketLoop A} (hloop : Serves kernel ad loop) (condition : Option TCPPeer → Bool)
    (baseTime : UInt64) :
    Triple (fun t => t = w) (tcpLoopPass kernel ad condition loop baseTime)
      (fun out t => Serves kernel ad out.2.1 ∧ Reached decode r w (Linked cfg Encodes) t)
      fun _ => Reached decode r w (Sane Encodes) := by
  have hasking : Asking cfg Encodes kernel ad r w (unasked loop.fdRules) w := by
    refine ⟨?_, ⟨[], h.still⟩, fun hp => ?_⟩
    · rw [map_fst_unasked]
      exact hloop.fdRules
    · cases (mem_unasked hp).2
  have hsound := sound cfg kernel r w hlawful
  rw [← hloop.nonFdRules] at hsound
  refine .get ?_
  rintro w rfl
  refine .ite (fun _ => .pure _ ?_) fun _ => .bind (Q := fun out t => Serves kernel ad out.2 ∧
    Reached decode r w (Linked cfg Encodes) t) ((hsound.waitNextEvent TCP_TICK_MS).mono ?_ ?_
    fun _ _ ht => ht) fun out => .get fun t ht => .ite (fun _ => .pure _ ?_) fun _ => ?_
  · rintro _ rfl
    exact ⟨hloop, h.still.reached⟩
  · rintro _ rfl
    exact hasking
  · rintro ⟨ret, loop'⟩ t ⟨hbasic, hserved, hexit⟩
    rw [hloop.nonFdRules] at hbasic
    by_cases hret : ret = .Exit
    · have hleft := hexit hret
      have hshape := hleft.shape
      rw [map_fst_asked, List.map_map] at hshape
      obtain ⟨ops, hstill⟩ := hleft.still
      refine ⟨⟨?_, List.subset_nil.mp hbasic⟩, hstill.reached⟩
      exact (List.map_id loop'.fdRules).symm ▸ hshape
    · obtain ⟨hshape, hreached⟩ := hserved hret
      exact ⟨⟨hshape, List.subset_nil.mp hbasic⟩, hreached⟩
  · rintro _ rfl
    exact ht
  · obtain ⟨hserves, ops, hlinked, hheard⟩ := ht
    rw [hlinked.tcp_eq]
    refine .ite (fun _ => .bind (Q := fun _ => Reached decode r w (Linked cfg Encodes))
      (timestampMs_triple ?_) fun nextTime => .bind (act_reached hlawful nofun nofun nofun nofun)
      fun _ => .pure _ fun t' ht' => ⟨hserves, ht'⟩) fun _ => .pure _ ?_
    · rintro t ms rfl
      exact Reached.of_idle ⟨ops, hlinked, hheard⟩ (.called t)
    · rintro _ rfl
      exact ⟨hserves, ops, hlinked, hheard⟩

/-- Nothing has passed through the descriptors, and no rule is to be cancelled. -/
structure Unused (w : World SocketFd (SocketVars A)) : Prop where
  taken_eq : (w.traffic .data).taken = []
  given_eq : (w.traffic .data).given = []
  silent : (w.traffic .tun).given = []
  uncancelled : w.cancelRequested = []

/-- Setting variables uses no descriptor. -/
theorem Unused.setVars (h : Unused w) (f : SocketVars A → SocketVars A) : Unused (setVars f w) :=
  ⟨h.taken_eq, h.given_eq, h.silent, h.uncancelled⟩

/-- A fresh peer has no history. -/
theorem Unused.linked (h : Unused w) {p : TCPPeer} (hnew : TCPPeer.new cfg = .ok p)
    (hp : w.vars.tcp = some p) : Linked cfg Encodes (PeerRun.start p) w := by
  obtain ⟨outbound, inbound, hout, hin, hsender, hreceiver, -⟩ := TCPPeer.new_spec hnew
  obtain ⟨hwf, hnil, -⟩ := ByteStream.new_spec hin
  have hinbound : p.inbound = inbound := congrArg TCPReceiver.output hreceiver
  have houtbound : p.outbound = outbound := congrArg TCPSender.input hsender
  refine ⟨⟨PeerRun.tracked_start hnew, ?_, ?_, ?_, ?_⟩, hp, h.uncancelled, fun heof => ?_⟩
  · show p.inbound.WF
    rwa [hinbound]
  · rw [h.taken_eq]
    rfl
  · show [] = _ ++ p.inbound.contents
    rw [h.given_eq, hinbound, hnil]
    rfl
  · rw [h.silent]
    exact fun packet hpacket => absurd hpacket List.not_mem_nil
  · have hopen : outbound.eof = false := (ByteStream.new_spec hout).2.2.2.1
    rw [show (PeerRun.start p).peer.outbound = outbound from houtbound, hopen] at heof
    cases heof

/-- Before anything has happened. -/
theorem Unused.sane (h : Unused w) (p : TCPPeer) : Sane Encodes (PeerRun.start p) w where
  accepted := List.nil_prefix
  assembled := by
    rw [h.given_eq]
    exact List.nil_prefix
  encoded := by
    rw [h.silent]
    exact fun packet hpacket => absurd hpacket List.not_mem_nil

/-- The peer and the loop are set up. -/
theorem initializeTCP_triple {E : StdException → World SocketFd (SocketVars A) → Prop} {p : TCPPeer}
    (hnew : TCPPeer.new cfg = .ok p) :
    Triple (fun t => t = w) (initializeTCP kernel ad cfg {})
      (fun loop t => Serves kernel ad loop ∧ t = setPeer p w) E := by
  refine .bind (SysM.attempt_eq_ok hnew) fun p' => .bind (.modify (Q := fun _ t => t = setPeer p w)
    ?_) fun _ => ?_
  · rintro _ ⟨rfl, rfl⟩
    rfl
  · exact .pure _ fun t ht => ⟨⟨List.Sublist.refl _, rfl⟩, ht⟩

/-- At the start of the peer nothing has been heard. -/
theorem Unused.reached (h : Unused w) {p : TCPPeer} (hnew : TCPPeer.new cfg = .ok p)
    (hp : w.vars.tcp = some p) (w₀ : World SocketFd (SocketVars A)) :
    Reached decode (PeerRun.start p) w₀ (Linked cfg Encodes) w :=
  ⟨[], h.linked hnew hp, fun _ hmem => absurd hmem List.not_mem_nil⟩

/-- **Connecting.** -/
theorem connect_triple (hlawful : Lawful ad Encodes decode) {p : TCPPeer}
    (hnew : TCPPeer.new cfg = .ok p) (h : Unused w) (htcp : w.vars.tcp = none) (cAd : C) :
    Triple (fun t => t = w) (connect kernel ad cfg cAd {})
      (fun begun t => Serves kernel ad begun.1 ∧
        Reached decode (PeerRun.start p) w (Linked cfg Encodes) t)
      fun _ => Reached decode (PeerRun.start p) w (Sane Encodes) := by
  refine .get ?_
  rintro w rfl
  refine .check (fun hsome => ?_) fun _ => .bind (initializeTCP_triple hnew) fun loop =>
    .of_state ?_
  · rw [htcp] at hsome
    cases hsome
  rintro _ ⟨hserves, rfl⟩
  refine .bind (.modify (Q := fun _ => Reached decode (PeerRun.start p) w (Linked cfg Encodes))
    ?_) fun _ => .bind (act_reached hlawful nofun nofun nofun nofun) fun _ => .get fun t ht =>
    .check ?_ fun _ => .bind (timestampMs_triple (Q := fun _ =>
      Reached decode (PeerRun.start p) w (Linked cfg Encodes)) ?_) fun base =>
    .pure _ fun _ ht' => ⟨hserves, ht'⟩
  · rintro _ rfl
    exact ((h.setVars _).setVars _).reached hnew rfl w
  · rintro - _ rfl
    exact ht.sane
  · rintro t ms rfl
    exact ht.of_idle (.called t)

/-- **Listening.** -/
theorem listenAndAccept_triple {p : TCPPeer} (hnew : TCPPeer.new cfg = .ok p) (h : Unused w)
    (htcp : w.vars.tcp = none) (cAd : C) :
    Triple (fun t => t = w) (listenAndAccept kernel ad cfg cAd {})
      (fun begun t => Serves kernel ad begun.1 ∧
        Reached decode (PeerRun.start p) w (Linked cfg Encodes) t)
      fun _ => Reached decode (PeerRun.start p) w (Sane Encodes) := by
  refine .get ?_
  rintro w rfl
  refine .check (fun hsome => ?_) fun _ => .bind (initializeTCP_triple hnew) fun loop =>
    .of_state ?_
  · rw [htcp] at hsome
    cases hsome
  rintro _ ⟨hserves, rfl⟩
  refine .bind (.modify (Q := fun _ => Reached decode (PeerRun.start p) w (Linked cfg Encodes))
    ?_) fun _ => .bind (timestampMs_triple (Q := fun _ =>
      Reached decode (PeerRun.start p) w (Linked cfg Encodes)) ?_) fun base =>
    .pure _ fun _ ht => ⟨hserves, ht⟩
  · rintro _ rfl
    exact ((h.setVars _).setVars _).reached hnew rfl w
  · exact fun t ms ht => ht.of_idle (.called t)

/-! ### Steps -/

/-- What is known of a socket in each phase, when its peer is to be `p`. -/
def Known (cfg : TCPConfig) (Encodes : Bytes → TCPMessage → Prop) (kernel : Kernel SocketFd)
    (ad : TCPDatagramAdapter A C) (p : TCPPeer) (r : PeerRun) (s : MinnowSocket A) : Prop :=
  match s.phase with
  | .fresh =>
    r = PeerRun.start p ∧ s.eventloop = {} ∧ s.world.vars.tcp = none ∧ Unused s.world
  | .connecting | .accepting | .running =>
    Linked cfg Encodes r s.world ∧ Serves kernel ad s.eventloop
  | .finished => Matched cfg Encodes r s.world
  | .threw _ => Sane Encodes r s.world

/-- The configuration of the peer is this one. -/
def UsesConfig (cfg : TCPConfig) : SocketOp C → Prop
  | .connect cTcp _ | .listenAndAccept cTcp _ => cTcp = cfg
  | .pass | .abort | .waitUntilClosed => True

variable {p : TCPPeer} {s s' : MinnowSocket A}

/-- In every phase what has passed through the descriptors is in the history. -/
theorem Known.sane (h : Known cfg Encodes kernel ad p r s) : Sane Encodes r s.world := by
  unfold Known at h
  cases hphase : s.phase <;> rw [hphase] at h
  case fresh =>
    obtain ⟨rfl, -, -, hunused⟩ := h
    exact hunused.sane p
  case connecting | accepting | running => exact h.1.sane
  case finished => exact h.sane
  case threw => exact h

/-- A part of the program of a socket. -/
theorem after_of_triple {β : Type} {x : SocketM A β} {next : β → MinnowSocket A → MinnowSocket A}
    {Q : β → World SocketFd (SocketVars A) → Prop}
    {E : StdException → World SocketFd (SocketVars A) → Prop} {R : MinnowSocket A → Prop}
    (h : Triple (fun t => t = s.world) x Q E)
    (hok : ∀ b w, Q b w → R (next b { s with world := w }))
    (herror : ∀ e w, E e w → R { s with world := w, phase := .threw e }) :
    R (s.after x next) := by
  have hout := h _ rfl
  unfold after
  cases hrun : x.run.run s.world with
  | mk result w =>
    rw [hrun] at hout
    cases result with
    | ok b => exact hok b w hout
    | error e => exact herror e w hout

/-- The socket went on, and its peer with it. -/
def Went (cfg : TCPConfig) (Encodes : Bytes → TCPMessage → Prop)
    (decode : A → Bytes → Option TCPMessage) (kernel : Kernel SocketFd)
    (ad : TCPDatagramAdapter A C) (p : TCPPeer) (r : PeerRun)
    (w₀ : World SocketFd (SocketVars A)) (s' : MinnowSocket A) : Prop :=
  ∃ ops, Known cfg Encodes kernel ad p (Machine.run PeerRun.step r ops) s' ∧
    Heard decode w₀ ops s'.world

/-- The thread was left by an exception. -/
theorem Went.threw {e : StdException} (h : Reached decode r w₀ (Sane Encodes) w)
    (hs : s.phase = .threw e) (hw : s.world = w) :
    Went cfg Encodes decode kernel ad p r w₀ s := by
  obtain ⟨ops, hsane, hheard⟩ := h
  subst hw
  refine ⟨ops, ?_, hheard⟩
  unfold Known
  rw [hs]
  exact hsane

/-- A loop is entered. -/
theorem Went.enter {phase : SocketPhase} {begun : SocketLoop A × UInt64}
    (hphase : phase = .connecting ∨ phase = .accepting ∨ phase = .running)
    (hserves : Serves kernel ad begun.1)
    (h : Reached decode r w₀ (Linked cfg Encodes) s.world) :
    Went cfg Encodes decode kernel ad p r w₀ (s.enter phase begun) := by
  obtain ⟨ops, hlinked, hheard⟩ := h
  refine ⟨ops, ?_, hheard⟩
  rcases hphase with rfl | rfl | rfl <;> exact ⟨hlinked, hserves⟩

/-- Nothing happens. -/
theorem Known.went (h : Known cfg Encodes kernel ad p r s) :
    Went cfg Encodes decode kernel ad p r s.world s :=
  ⟨[], h, fun _ hmem => absurd hmem List.not_mem_nil⟩

/-- **A pass before the connection is there**; the thread may be started behind it. -/
theorem passBefore_went (hlawful : Lawful ad Encodes decode)
    (hphase : s.phase = .connecting ∨ s.phase = .accepting) (h : Linked cfg Encodes r s.world)
    (hserves : Serves kernel ad s.eventloop) (condition : Option TCPPeer → Bool) :
    Went cfg Encodes decode kernel ad p r s.world (s.passBefore kernel ad condition) := by
  refine after_of_triple (tcpLoopPass_triple hlawful h hserves condition s.baseTime) ?_
    fun e t ht => .threw ht rfl rfl
  rintro ⟨goesOn, begun⟩ t ⟨hserves', ht⟩
  have hphase' : s.phase = .connecting ∨ s.phase = .accepting ∨ s.phase = .running :=
    hphase.imp_right .inl
  dsimp only at hserves' ⊢
  split
  · exact .enter hphase' hserves' ht
  · refine after_of_triple (Q := fun _ => Reached decode r s.world (Linked cfg Encodes))
      (E := fun _ => Reached decode r s.world (Sane Encodes)) (.get ?_)
      (fun base t' ht' => .enter (.inr (.inr rfl)) hserves' ht') fun e t' ht' => .threw ht' rfl rfl
    rintro _ rfl
    refine .check (fun _ => ?_) fun _ => timestampMs_triple ?_
    · rintro _ rfl
      exact ht.sane
    · rintro _ ms rfl
      exact ht.of_idle (.called _)

/-- **A pass in the thread**, which may end with it. -/
theorem passRunning_went (hlawful : Lawful ad Encodes decode) (hphase : s.phase = .running)
    (h : Linked cfg Encodes r s.world) (hserves : Serves kernel ad s.eventloop) :
    Went cfg Encodes decode kernel ad p r s.world (s.passRunning kernel ad) := by
  refine after_of_triple (tcpLoopPass_triple hlawful h hserves (fun _ => true) s.baseTime) ?_
    fun e t ht => .threw ht rfl rfl
  rintro ⟨goesOn, begun⟩ t ⟨hserves', ht⟩
  dsimp only at hserves' ⊢
  split
  · exact .enter (.inr (.inr hphase)) hserves' ht
  · refine after_of_triple (Q := fun _ => Reached decode r s.world (Matched cfg Encodes))
      (E := fun _ => Reached decode r s.world (Sane Encodes)) (.bind
      (Q := fun _ => Reached decode r s.world (Linked cfg Encodes))
      (FileDescriptor.shutdown_triple ?_ ?_) fun _ => .modify ?_) ?_
      fun e t' ht' => .threw ht' rfl rfl
    · rintro _ rfl
      exact ht.of_idle ((Idle.called _).trans (.onShutdown ..))
    · rintro _ e rfl -
      exact (ht.of_idle (.called _)).sane
    · rintro t' ⟨ops, h, hheard⟩
      exact ⟨ops, ⟨h.tracks, h.wf, h.accepted_eq, h.assembled_eq, h.encoded⟩, hheard⟩
    · rintro _ t' ⟨ops, hmatched, hheard⟩
      exact ⟨ops, hmatched, hheard⟩

/-- **Step.**  Whatever its owner does and its kernel answers, a step of a socket is a run of its
    peer. -/
theorem Known.step (hlawful : Lawful ad Encodes decode) (hnew : TCPPeer.new cfg = .ok p)
    (h : Known cfg Encodes kernel ad p r s) {op : SocketOp C} (hop : UsesConfig cfg op) :
    Went cfg Encodes decode kernel ad p r s.world (s.step kernel ad op) := by
  have hknown := h
  unfold Known at h
  -- what the owner does to its own end
  have hshutdown : Idle s.world
      ((FileDescriptor.shutdown kernel .owner .SHUT_RDWR).run.run s.world).2 := by
    have htriple : Triple (fun t => t = s.world) (FileDescriptor.shutdown kernel .owner .SHUT_RDWR)
        (fun _ => Idle s.world) fun _ => Idle s.world := by
      refine FileDescriptor.shutdown_triple ?_ ?_
      · rintro _ rfl
        exact (Idle.called _).trans (.onShutdown ..)
      · rintro _ e rfl -
        exact .called _
    have hout := htriple _ rfl
    generalize (FileDescriptor.shutdown kernel .owner .SHUT_RDWR).run.run s.world = out at hout
    obtain ⟨result, t⟩ := out
    cases result <;> exact hout
  unfold MinnowSocket.step
  split
  case h_1 cTcp cAd hphase =>
    rw [hphase] at h
    obtain ⟨rfl, hloop, htcp, hunused⟩ := h
    obtain rfl : cTcp = cfg := hop
    rw [hloop]
    exact after_of_triple (connect_triple hlawful hnew hunused htcp cAd)
      (fun begun t ht => .enter (.inl rfl) ht.1 ht.2) fun e t ht => .threw ht rfl rfl
  case h_2 cTcp cAd hphase =>
    rw [hphase] at h
    obtain ⟨rfl, hloop, htcp, hunused⟩ := h
    obtain rfl : cTcp = cfg := hop
    rw [hloop]
    exact after_of_triple (listenAndAccept_triple hnew hunused htcp cAd)
      (fun begun t ht => .enter (.inr (.inl rfl)) ht.1 ht.2) fun e t ht => .threw ht rfl rfl
  case h_3 hphase =>
    rw [hphase] at h
    exact passBefore_went hlawful (.inl hphase) h.1 h.2 connecting
  case h_4 hphase =>
    rw [hphase] at h
    exact passBefore_went hlawful (.inr hphase) h.1 h.2 accepting
  case h_5 hphase =>
    rw [hphase] at h
    exact passRunning_went hlawful hphase h.1 h.2
  case h_6 hphase =>
    rw [hphase] at h
    have habort : Idle s.world (setVars (fun v => { v with abort := true }) s.world) :=
      .flag _ (fun _ => rfl) (fun _ => rfl) fun _ => rfl
    refine ⟨[], ?_, fun _ hmem => absurd hmem List.not_mem_nil⟩
    unfold Known
    rw [hphase]
    exact ⟨h.1.of_idle habort, h.2⟩
  case h_7 hphase =>
    rw [hphase] at h
    obtain ⟨hr, hloop, htcp, hunused⟩ := h
    refine ⟨[], ?_, fun _ hmem => absurd hmem List.not_mem_nil⟩
    unfold Known
    rw [hphase]
    refine ⟨hr, hloop, hshutdown.tcp_eq.trans htcp, ?_⟩
    exact ⟨(hshutdown.taken_eq _).trans hunused.taken_eq,
      (hshutdown.given_eq _).trans hunused.given_eq, (hshutdown.given_eq _).trans hunused.silent,
      hshutdown.cancelRequested_eq.trans hunused.uncancelled⟩
  case h_8 hphase =>
    rw [hphase] at h
    refine ⟨[], ?_, fun _ hmem => absurd hmem List.not_mem_nil⟩
    unfold Known
    rw [hphase]
    exact ⟨h.1.of_idle hshutdown, h.2⟩
  case h_9 hphase =>
    rw [hphase] at h
    refine ⟨[], ?_, fun _ hmem => absurd hmem List.not_mem_nil⟩
    unfold Known
    rw [hphase]
    exact h.of_idle hshutdown
  case h_10 => exact hknown.went

/-- A socket from its constructor. -/
theorem known_new (a : A) (fds : SocketFd → FDWrapper) :
    Known cfg Encodes kernel ad p (PeerRun.start p) (new kernel a fds) := by
  have hblocking : ∀ fd, Triple (fun w : World SocketFd (SocketVars A) => w.vars.tcp = none ∧
      Unused w) (FileDescriptor.setBlocking kernel fd false) (fun _ w => w.vars.tcp = none ∧
      Unused w) fun _ w => w.vars.tcp = none ∧ Unused w := by
    intro fd
    have hidle : ∀ w w' : World SocketFd (SocketVars A), Idle w w' →
        w.vars.tcp = none ∧ Unused w → w'.vars.tcp = none ∧ Unused w' := fun w w' hidle h =>
      ⟨hidle.tcp_eq.trans h.1, (hidle.taken_eq _).trans h.2.taken_eq,
        (hidle.given_eq _).trans h.2.given_eq, (hidle.given_eq _).trans h.2.silent,
        hidle.cancelRequested_eq.trans h.2.uncancelled⟩
    exact FileDescriptor.setBlocking_triple (fun w => hidle w _ (.called w))
      (fun w => hidle w _ (.touch w fd _ (fun _ => rfl) fun _ => rfl))
      fun w e h _ => hidle w _ (.called w) h
  refine after_of_triple (((hblocking .data).bind fun _ => hblocking .owner).pre ?_) ?_ ?_
  · rintro _ rfl
    exact ⟨rfl, rfl, rfl, rfl, rfl⟩
  · exact fun _ w hw => ⟨rfl, rfl, hw⟩
  · exact fun e w hw => hw.2.sane p

end MinnowSocket

end Minnow
