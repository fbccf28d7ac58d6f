import Minnow.SocketRun
import Minnow.EndToEnd

namespace Minnow

/-!
# Two sockets from end to end

Two sockets, each with its own kernel, and a network between their devices that loses, duplicates,
delays and reorders packets at will: what a device takes is a packet that was given to the other
one at some time before, or the adapter finds no message in it.

* `Connection.Connected.step_of_credible` — a connection of two peers goes on when a message is
  received that says what one transmitted has said;
* `SocketPair.Joined` — the invariant of two sockets, with the connection of their peers;
* `SocketPair.relays` — what the owner of one socket is given is a first part of what was taken from
  the owner of the other, and all of it behind a clean end.
-/

open PeerRun

/-! ### Messages with one flag for a reset -/

/-- What is received says no more than what was transmitted. -/
theorem PeerRun.FromSender.received {h : SenderRun} {x : TCPMessage}
    (hx : FromSender h x.sender) : FromSender h x.received.sender := by
  cases hrst : (x.sender.RST || x.receiver.RST) with
  | true => exact .inl hrst
  | false =>
    have hsame : x.received.sender = x.sender := by
      show { x.sender with RST := x.sender.RST || x.receiver.RST } = x.sender
      rw [hrst, ← (Bool.or_eq_false_iff.mp hrst).1]
    rwa [hsame]

namespace Connection

variable {cfg : Side → TCPConfig} {input : Side → ByteStream} {c : Connection} {t : Side}

/-- A message that says what the sender and the receiver of the other peer may have said. -/
structure Credible (cfg : Side → TCPConfig) (c : Connection) (t : Side) (msg : TCPMessage) :
    Prop where
  sender : FromSender (c t.other).history msg.sender
  receiver : Acknowledges (cfg t).isn (c t.other).peer.receiver msg.receiver

/-- A step with such a message. -/
theorem Connected.step_of_credible (h : Connected cfg input c)
    (hnew : ∀ s, ByteStream.new (cfg s).sendCapacity = .ok (input s)) {op : PeerOp}
    (hcredible : ∀ msg, op = .receive msg → Credible cfg c t msg)
    (hbound : Bounded (c.step (t, op))) : Connected cfg input (c.step (t, op)) := by
  have hbefore := bounded_of_step hbound
  constructor
  case tracked =>
    intro s
    rcases eq_or_ne s t with rfl | hne
    · rw [step_self]
      exact (h.tracked s).step (hnew s) op
    · rw [step_of_ne hne]
      exact h.tracked s
  case direction =>
    intro s
    have htiled := (h.tracked s).tiled (hnew s)
    have hlt := hbound s
    rcases eq_or_ne s t with rfl | hne
    · -- the sender of the peer, in its own direction
      rw [accepted, step_self] at hlt
      rw [step_self, step_of_ne s.other_ne]
      refine (h.direction s).run _ htiled hlt fun msg hmem => ?_
      obtain ⟨full, hop, rfl⟩ := PeerOp.mem_senderOps hmem
      exact (hcredible full hop).receiver
    · -- the receiver, in the other
      obtain rfl : t = s.other := by
        cases s <;> cases t <;> first | rfl | exact absurd rfl hne
      have hpay := htiled.tiling.length_sent_le
      rw [accepted, step_of_ne hne] at hlt
      rw [step_of_ne hne, step_self]
      refine (h.direction s).receiverOp htiled.tiling htiled.isn_eq (by omega) op fun msg hop => ?_
      have hsender := (hcredible msg hop).sender
      rwa [Side.other_other] at hsender

/-- Some operations of one peer. -/
theorem run_side_self (c : Connection) (t : Side) (ops : List PeerOp) :
    Machine.run step c (ops.map fun op => (t, op)) t = Machine.run PeerRun.step (c t) ops := by
  induction ops generalizing c with
  | nil => rfl
  | cons op ops ih => rw [List.map_cons, Machine.run_cons, ih, step_self, Machine.run_cons]

/-- The other peer does nothing meanwhile. -/
theorem run_side_of_ne {c : Connection} {s t : Side} (hne : s ≠ t) (ops : List PeerOp) :
    Machine.run step c (ops.map fun op => (t, op)) s = c s := by
  induction ops generalizing c with
  | nil => rfl
  | cons op ops ih => rw [List.map_cons, Machine.run_cons, ih, step_of_ne hne]

/-- What stays below the bound was below it before. -/
theorem bounded_of_run {ops : List (Side × PeerOp)} (h : Bounded (Machine.run step c ops)) :
    Bounded c := by
  induction ops generalizing c with
  | nil => exact h
  | cons op ops ih => exact bounded_of_step (ih h)

/-- **A run of one peer**, while the other one does nothing. -/
theorem Connected.run_of_received (h : Connected cfg input c)
    (hnew : ∀ s, ByteStream.new (cfg s).sendCapacity = .ok (input s)) {ops : List PeerOp}
    (hreceived : ∀ msg, .receive msg ∈ ops → ∃ x ∈ (c t.other).transmitted, msg = x.received)
    (hbound : Bounded (Machine.run Connection.step c (ops.map fun op => (t, op)))) :
    Connected cfg input (Machine.run Connection.step c (ops.map fun op => (t, op))) := by
  induction ops generalizing c with
  | nil => exact h
  | cons op ops ih =>
    have hother : c.step (t, op) t.other = c t.other := step_of_ne t.other_ne op
    refine ih (h.step_of_credible hnew ?_ (bounded_of_run hbound)) (fun msg hmem => ?_) hbound
    · rintro msg rfl
      obtain ⟨x, hx, rfl⟩ := hreceived msg List.mem_cons_self
      have hacknos := (h.direction t).acknos x hx
      exact ⟨((h.tracked t.other).from_sender x hx).received, hacknos⟩
    · rw [hother]
      exact hreceived msg (List.mem_cons_of_mem _ hmem)

end Connection

/-! ### Two sockets -/

/-- The sockets at the two ends. -/
def SocketPair (A : Type) := Side → MinnowSocket A

namespace SocketPair

open MinnowSocket TCPDatagramAdapter

variable {A C : Type} (kernel : Side → Kernel SocketFd) (ad : Side → TCPDatagramAdapter A C)

/-- One socket makes a step. -/
def step (c : SocketPair A) (op : Side × SocketOp C) : SocketPair A :=
  Function.update c op.1 ((c op.1).step (kernel op.1) (ad op.1) op.2)

/-- Two sockets from their constructors. -/
def start (a : Side → A) (fds : Side → SocketFd → FDWrapper) : SocketPair A :=
  fun s => MinnowSocket.new (kernel s) (a s) (fds s)

/-- What the device of a socket takes was given to that of the other one, or says nothing; and the
    peers have their configurations. -/
structure Carried (cfg : Side → TCPConfig) (decode : A → Bytes → Option TCPMessage)
    (c : SocketPair A) (op : Side × SocketOp C) : Prop where
  config : UsesConfig (cfg op.1) op.2
  unforged : ∀ packet,
    ((step kernel ad c op op.1).world.traffic .tun).taken
      = ((c op.1).world.traffic .tun).taken ++ [packet] →
    packet ∈ ((c op.1.other).world.traffic .tun).given ∨
      decode (c op.1).world.vars.datagramAdapter packet = none

variable {kernel ad}

/-- What was taken from the owner of a socket, and what was given to it. -/
def taken (c : SocketPair A) (s : Side) : Bytes := ((c s).world.traffic .data).taken.flatten

/-- What was given to the owner of a socket. -/
def given (c : SocketPair A) (s : Side) : Bytes := ((c s).world.traffic .data).given.flatten

/-- The bound on what is taken from each owner. -/
def Bounded (c : SocketPair A) : Prop := ∀ s, (c.taken s).length < 2 ^ 31 - 2

/-- The two sockets go the way of two peers, which are connected as long as not too much is taken
    from their owners. -/
structure Joined (cfg : Side → TCPConfig) (input : Side → ByteStream) (peer : Side → TCPPeer)
    (Encodes : Bytes → TCPMessage → Prop) (kernel : Side → Kernel SocketFd)
    (ad : Side → TCPDatagramAdapter A C) (r : Connection) (c : SocketPair A) : Prop where
  known : ∀ s, Known (cfg s) Encodes (kernel s) (ad s) (peer s) (r s) (c s)
  connected : r.Bounded → Connection.Connected cfg input r

variable {cfg : Side → TCPConfig} {input : Side → ByteStream} {peer : Side → TCPPeer}
  {Encodes : Bytes → TCPMessage → Prop} {decode : A → Bytes → Option TCPMessage} {r : Connection}
  {c : SocketPair A}

@[simp] theorem step_self (c : SocketPair A) (t : Side) (op : SocketOp C) :
    step kernel ad c (t, op) t = (c t).step (kernel t) (ad t) op := Function.update_self ..

/-- The other socket does nothing meanwhile. -/
theorem step_of_ne {c : SocketPair A} {s t : Side} (hne : s ≠ t) (op : SocketOp C) :
    step kernel ad c (t, op) s = c s := Function.update_of_ne hne ..

/-- **Step.**  What a socket reads is a message that the other one has transmitted. -/
theorem Joined.step (h : Joined cfg input peer Encodes kernel ad r c)
    (hlawful : ∀ s, Lawful (ad s) Encodes decode)
    (hcode : ∀ a packet x msg, Encodes packet x → decode a packet = some msg → msg = x.received)
    (hinput : ∀ s, ByteStream.new (cfg s).sendCapacity = .ok (input s))
    (hpeer : ∀ s, TCPPeer.new (cfg s) = .ok (peer s)) {op : Side × SocketOp C}
    (hop : Carried kernel ad cfg decode c op) :
    ∃ r', Joined cfg input peer Encodes kernel ad r' (SocketPair.step kernel ad c op) := by
  obtain ⟨t, op⟩ := op
  obtain ⟨ops, hknown, hheard⟩ := (h.known t).step (hlawful t) (hpeer t) hop.config
  have hunforged := hop.unforged
  rw [step_self] at hunforged
  refine ⟨Machine.run Connection.step r (ops.map fun op => (t, op)), fun s => ?_, fun hbound => ?_⟩
  · rcases eq_or_ne s t with rfl | hne
    · rw [Connection.run_side_self, step_self]
      exact hknown
    · rw [Connection.run_side_of_ne hne, step_of_ne hne]
      exact h.known s
  · have hconnected := h.connected (Connection.bounded_of_run hbound)
    refine hconnected.run_of_received hinput (fun msg hmem => ?_) hbound
    obtain ⟨packet, htaken, hdecode⟩ := hheard msg hmem
    rcases hunforged packet htaken with hgiven | hnone
    · obtain ⟨x, hx, hencodes⟩ := (h.known t.other).sane.encoded packet hgiven
      exact ⟨x, hx, hcode _ packet x msg hencodes hdecode⟩
    · rw [hnone] at hdecode
      cases hdecode

/-- What a socket passes on to the other one. -/
structure Relays (c : SocketPair A) (s : Side) : Prop where
  /-- Nothing is made up, lost in between, repeated or reordered. -/
  given_prefix : c.given s.other <+: c.taken s
  /-- Behind a clean end nothing is missing, and the owner of the first socket has ended it. -/
  complete : (c s.other).phase.looping = true → (∀ e, (c s).phase ≠ .threw e) →
    (∃ p ∈ (c s.other).world.vars.tcp, p.inbound.isFinished = true) →
    c.given s.other = c.taken s ∧
      ((c s).phase.looping = true → (c s).world.vars.outboundShutdown = true)

/-- While a loop is passed through, the socket is where its peer is. -/
theorem known_looping {cfg : TCPConfig} {kernel : Kernel SocketFd} {ad : TCPDatagramAdapter A C}
    {peer : TCPPeer} {r : PeerRun} {s : MinnowSocket A}
    (h : Known cfg Encodes kernel ad peer r s) (hphase : s.phase.looping = true) :
    Linked cfg Encodes r s.world := by
  unfold Known at h
  cases hcase : s.phase <;> rw [hcase] at h hphase
  case connecting | accepting | running => exact h.1
  case fresh | finished | threw => cases hphase

/-- A socket that has not thrown has accepted all that was taken from its owner. -/
theorem accepted_of_known {cfg : TCPConfig} {kernel : Kernel SocketFd}
    {ad : TCPDatagramAdapter A C} {peer : TCPPeer} {r : PeerRun} {s : MinnowSocket A}
    (h : Known cfg Encodes kernel ad peer r s) (hphase : ∀ e, s.phase ≠ .threw e) :
    r.history.accepted = (s.world.traffic .data).taken.flatten := by
  unfold Known at h
  cases hcase : s.phase <;> rw [hcase] at h hphase
  case fresh =>
    obtain ⟨rfl, -, -, hunused⟩ := h
    rw [hunused.taken_eq]
    rfl
  case connecting | accepting | running => exact h.1.accepted_eq
  case finished => exact h.accepted_eq
  case threw e => exact absurd rfl (hphase e)

/-- Sockets that go the way of connected peers relay. -/
theorem Joined.relays (h : Joined cfg input peer Encodes kernel ad r c)
    (hinput : ∀ s, ByteStream.new (cfg s).sendCapacity = .ok (input s)) (hbound : Bounded c)
    (s : Side) : Relays c s := by
  have haccepted : r.Bounded := fun s =>
    lt_of_le_of_lt (h.known s).sane.accepted.length_le (hbound s)
  have hdelivers := (h.connected haccepted).delivers hinput haccepted s
  constructor
  case given_prefix =>
    exact (h.known s.other).sane.assembled.trans
      (hdelivers.assembled_prefix.trans (h.known s).sane.accepted)
  case complete =>
    rintro hlooping hphase ⟨p, hp, hfinished⟩
    have hlinked := known_looping (h.known s.other) hlooping
    obtain rfl : (r s.other).peer = p := Option.some.inj (hlinked.tcp_eq.symm.trans hp)
    obtain ⟨heof, hnil⟩ := (ByteStream.isFinished_iff hlinked.wf).mp hfinished
    obtain ⟨hclosed, hall⟩ := hdelivers.closed heof
    refine ⟨?_, fun hlooping' => (known_looping (h.known s) hlooping').outbound_open hclosed⟩
    have hgiven : (r s.other).assembled = c.given s.other := by
      rw [hlinked.assembled_eq, hnil, List.append_nil]
      rfl
    rw [← hgiven, hall]
    exact accepted_of_known (h.known s) hphase

/-- **Two sockets from end to end**, for any adapters that are lawful, whatever the owners do and
    the kernels answer. -/
theorem relays (hlawful : ∀ s, Lawful (ad s) Encodes decode)
    (hcode : ∀ a packet x msg, Encodes packet x → decode a packet = some msg → msg = x.received)
    (hpeer : ∀ s, TCPPeer.new (cfg s) = .ok (peer s)) (a : Side → A)
    (fds : Side → SocketFd → FDWrapper) {ops : List (Side × SocketOp C)}
    (hrun : Machine.Meets (step kernel ad) (Carried kernel ad cfg decode) (start kernel a fds) ops)
    (hbound : Bounded (Machine.run (step kernel ad) (start kernel a fds) ops)) (s : Side) :
    Relays (Machine.run (step kernel ad) (start kernel a fds) ops) s := by
  obtain ⟨input, hinput, hconnected⟩ := Connection.connected_start hpeer
  have hstart : Joined cfg input peer Encodes kernel ad (Connection.start peer)
      (start kernel a fds) :=
    ⟨fun s => known_new (a s) (fds s), fun _ => hconnected⟩
  obtain ⟨r, hjoined⟩ := hrun.invariant
    (P := fun c => ∃ r, Joined cfg input peer Encodes kernel ad r c)
    (fun _ op ⟨r, hr⟩ hop => hr.step hlawful hcode hinput hpeer hop) ⟨_, hstart⟩
  exact hjoined.relays hinput hbound s

/-- The adapters of `LossyTCPOverIPv4MinnowSocket`. -/
def lossyTun (db : NetDb) (kernel : Side → Kernel SocketFd) (s : Side) :
    TCPDatagramAdapter (LossyFdAdapter TCPOverIPv4Adapter) (UInt16 × UInt16 × FdAdapterConfig) :=
  LossyFdAdapter.adapterOver (TCPOverIPv4OverTunFdAdapter.adapter db (kernel s))

/-- The message that such an adapter finds in a packet, unless it loses it. -/
def lossyDecode (db : NetDb) (a : LossyFdAdapter TCPOverIPv4Adapter) (packet : Bytes) :
    Option TCPMessage :=
  TCPOverIPv4OverTunFdAdapter.decode db a.adapter packet

/-- **Sockets over lossy adapters for TUN devices.**  Whatever the two owners do, whatever the two
    kernels answer and the adapters lose, as long as a device takes packets whole: what is given to
    the owner of one socket is a first part of what was taken from the owner of the other. -/
theorem relays_lossy {db : NetDb} (hdb : db.Inverse) (hwhole : ∀ s, WholePackets (kernel s))
    (hpeer : ∀ s, TCPPeer.new (cfg s) = .ok (peer s))
    (a : Side → LossyFdAdapter TCPOverIPv4Adapter) (fds : Side → SocketFd → FDWrapper)
    {ops : List (Side × SocketOp (UInt16 × UInt16 × FdAdapterConfig))}
    (hrun : Machine.Meets (step kernel (lossyTun db kernel))
      (Carried kernel (lossyTun db kernel) cfg (lossyDecode db)) (start kernel a fds) ops)
    (hbound : Bounded (Machine.run (step kernel (lossyTun db kernel)) (start kernel a fds) ops))
    (s : Side) :
    Relays (Machine.run (step kernel (lossyTun db kernel)) (start kernel a fds) ops) s :=
  relays (fun s => LossyFdAdapter.lawful (TCPOverIPv4OverTunFdAdapter.lawful db (hwhole s)))
    (fun _ _ _ _ hencodes => TCPOverIPv4OverTunFdAdapter.decode_encodes hdb hencodes)
    hpeer a fds hrun hbound s

end SocketPair

/-! ### Three bytes from one socket to the other -/

/-- A number in decimal. -/
def NetDb.readDigits (l : List Char) : Option ℕ :=
  if l ≠ [] ∧ l.all Char.isDigit then some (Nat.ofDigitChars 10 l 0) else none

/-- The conversions in decimal, with numbers read digit by digit. -/
def NetDb.digits : NetDb :=
  { NetDb.decimal with
    getaddrinfo := fun host service =>
      ofNumbers ((host.toList.splitOn '.').mapM readDigits) (readDigits service.toList)
    stoi := fun s =>
      match readDigits s.toList with
      | some n => .ok n
      | none => .error (.runtimeError "stoi") }

/-- A number is read back from its digits. -/
theorem NetDb.readDigits_toString (n : ℕ) : readDigits (toString n).toList = some n := by
  have hlist : (toString n).toList = Nat.toDigits 10 n := by
    show (Nat.repr n).toList = _
    rw [Nat.repr, String.toList_ofList]
  rw [hlist, readDigits, if_pos, Nat.ofDigitChars_ten_toDigits]
  refine ⟨Nat.toDigits_ne_nil, List.all_eq_true.mpr fun c hc => ?_⟩
  exact Nat.isDigit_of_mem_toDigits (by decide) (by decide) hc

theorem NetDb.digits_getaddrinfo (host service : String) :
    NetDb.digits.getaddrinfo host service
      = ofNumbers ((host.toList.splitOn '.').mapM readDigits) (readDigits service.toList) := rfl

/-- Reading digits is the inverse of writing them. -/
theorem NetDb.digits_inverse : NetDb.digits.Inverse where
  readsPorts a _ := by
    refine ⟨_, _, rfl, ?_⟩
    show (match readDigits (toString a.port.toNat).toList with
      | some n => Except.ok (n : ℤ)
      | none => .error (StdException.runtimeError "stoi")) = _
    rw [readDigits_toString]
  readsBack addr port := by
    -- what is printed reads the same way
    have hback := NetDb.numeric_inverse.readsBack addr port
    have hnumeric : NetDb.numeric.inetNtoa = NetDb.decimal.dottedQuad := rfl
    have hdigits : NetDb.digits.inetNtoa = NetDb.decimal.dottedQuad := rfl
    have hport : (toString port.toNat).toNat? = some port.toNat := Nat.toNat?_repr _
    unfold Address.ofIp at hback ⊢
    rw [numeric_getaddrinfo, hnumeric, splitOn_dottedQuad, hport] at hback
    rw [digits_getaddrinfo, hdigits, splitOn_dottedQuad, readDigits_toString, ← hback]
    simp only [List.map_cons, List.map_nil, List.mapM_cons, List.mapM_nil,
      toNat?_ofList_toString, readDigits_toString]

namespace SocketPair

open MinnowSocket TCPDatagramAdapter

variable {A C : Type} {kernel : Side → Kernel SocketFd} {ad : Side → TCPDatagramAdapter A C}
  {cfg : Side → TCPConfig} {decode : A → Bytes → Option TCPMessage} {c : SocketPair A}

/-- What can be computed: the packet that was taken last was given to the other device. -/
def CarriedLast (kernel : Side → Kernel SocketFd) (ad : Side → TCPDatagramAdapter A C)
    (cfg : Side → TCPConfig) (c : SocketPair A) (op : Side × SocketOp C) : Prop :=
  UsesConfig (cfg op.1) op.2 ∧
    ∀ packet ∈ ((step kernel ad c op op.1).world.traffic .tun).taken.getLast?,
      packet ∈ ((c op.1.other).world.traffic .tun).given

instance (cfg : TCPConfig) : (op : SocketOp C) → Decidable (UsesConfig cfg op)
  | .connect _ _ | .listenAndAccept _ _ => inferInstanceAs (Decidable (_ = _))
  | .pass | .abort | .waitUntilClosed => .isTrue trivial

instance (op : Side × SocketOp C) : Decidable (CarriedLast kernel ad cfg c op) :=
  inferInstanceAs (Decidable (_ ∧ _))

/-- A packet that the other socket has written is unforged. -/
theorem CarriedLast.carried {op : Side × SocketOp C} (h : CarriedLast kernel ad cfg c op) :
    Carried kernel ad cfg decode c op := by
  refine ⟨h.1, fun packet htaken => .inl (h.2 packet ?_)⟩
  rw [htaken, List.getLast?_append]
  rfl

/-- A kernel that answers each call as it is told. -/
def scripted (polls : List (ℕ × List Revents)) (packets data : List (ℕ × Bytes))
    (now : ℕ → UInt64) : Kernel SocketFd where
  read n _ _ := .ok ((data.lookup n).getD [])
  readv n _ _ := .ok ((packets.lookup n).getD [])
  writev _ _ buffers := .ok buffers.flatten.length
  shutdown _ _ _ := .ok ⟨⟩
  close _ _ := .ok ⟨⟩
  fcntl _ _ := .ok 0
  poll n _ _ := .ok ((polls.lookup n).getD [])
  getsockopt _ _ := .error ENOTSOCK
  now
  strerror _ := "error"

/-- The scripted device takes all it is given. -/
theorem wholePackets_scripted (polls : List (ℕ × List Revents)) (packets data : List (ℕ × Bytes))
    (now : ℕ → UInt64) : WholePackets (scripted polls packets data now) := by
  intro n buffers k hk
  exact .inr (Except.ok.inj hk).le

/-- Small streams, and initial sequence numbers that can be told apart. -/
def smallConfig : Side → TCPConfig
  | .a => { rtTimeout := 100, recvCapacity := 4, sendCapacity := 4, isn := ⟨7⟩ }
  | .b => { rtTimeout := 100, recvCapacity := 4, sendCapacity := 4, isn := ⟨50⟩ }

/-- The client connects to port 80. -/
def client : FdAdapterConfig where
  source := { addr := 0x0a000001, port := 4000 }
  destination := { addr := 0x0a000002, port := 80 }

/-- The server, once it has accepted the client. -/
def server : FdAdapterConfig where
  source := client.destination
  destination := client.source

/-- The packet of a message. -/
def packetOf (config : FdAdapterConfig) (msg : TCPMessage) : Bytes :=
  match TCPOverIPv4OverTunFdAdapter.write .digits { config } msg with
  | .ok packet => packet
  | .error _ => []

/-- The first message of the client. -/
def syn : TCPMessage :=
  { sender := { seqno := ⟨7⟩, SYN := true }, receiver := { windowSize := 4 } }

/-- The answer of the server. -/
def synAck : TCPMessage :=
  { sender := { seqno := ⟨50⟩, SYN := true }, receiver := { ackno := some ⟨8⟩, windowSize := 4 } }

/-- All that the client's owner writes, in one message. -/
def threeBytes : TCPMessage :=
  { sender := { seqno := ⟨8⟩, payload := [1, 2, 3] }
    receiver := { ackno := some ⟨51⟩, windowSize := 4 } }

/-- The last message of the client. -/
def fin : TCPMessage :=
  { sender := { seqno := ⟨11⟩, FIN := true }, receiver := { ackno := some ⟨51⟩, windowSize := 4 } }

/-- What `poll` reports of the device, and of the two directions of the owner. -/
def tunIn : List Revents := [{ pollin := true }, {}, {}]

/-- The owner has something to read. -/
def dataIn : List Revents := [{}, { pollin := true }, {}]

/-- The owner has room. -/
def dataOut : List Revents := [{}, {}, { pollout := true }]

/-- The client is given three bytes by its owner, and then the end; the server gets the first
    packet only when it is sent again, and no bare acknowledgment. -/
def smallKernel : Side → Kernel SocketFd
  | .a => scripted [(8, tunIn), (13, dataIn), (17, dataIn)] [(9, packetOf server synAck)]
    [(14, [1, 2, 3])] fun n => if n < 6 then 1000 else 1100
  | .b => scripted
    [(5, tunIn), (9, tunIn), (14, tunIn), (18, dataOut), (21, dataOut), (24, dataOut)]
    [(6, packetOf client syn), (10, packetOf client threeBytes), (15, packetOf client fin)] []
    fun _ => 0

/-- The first packet written is lost, if any can be. -/
def smallAdapter : LossyFdAdapter TCPOverIPv4Adapter where
  adapter := {}
  rand n := if n = 0 then 0 else 65535

/-- The handshake, the three bytes and the end. -/
def smallRun : List (Side × SocketOp (UInt16 × UInt16 × FdAdapterConfig)) :=
  [(.a, .connect (smallConfig .a) (0, 1000, client)),
    (.b, .listenAndAccept (smallConfig .b) (0, 0, { source := { port := 80 } })),
    (.a, .pass), (.b, .pass), (.a, .pass), (.a, .pass), (.a, .pass), (.b, .pass), (.b, .pass),
    (.a, .pass), (.b, .pass), (.b, .pass), (.b, .pass), (.b, .pass)]

/-- The two sockets after this run. -/
def smallPair : SocketPair (LossyFdAdapter TCPOverIPv4Adapter) :=
  Machine.run (step smallKernel (lossyTun .digits smallKernel))
    (start smallKernel (fun _ => smallAdapter) fun _ _ => {}) smallRun

/-- In this run the three bytes arrive, though the first SYN is lost. -/
theorem relays_lossy_three : smallPair.given .b = smallPair.taken .a ∧
    smallPair.taken .a = [1, 2, 3] := by
  have hpeer : ∀ s, TCPPeer.new (smallConfig s) = .ok _ := fun s =>
    TCPPeer.new_eq_ok (by cases s <;> decide) (by cases s <;> decide)
  have hwhole : ∀ s, WholePackets (smallKernel s) := fun s => by
    cases s <;> exact wholePackets_scripted _ _ _ _
  have hcarried : Machine.Meets (step smallKernel (lossyTun .digits smallKernel))
      (CarriedLast smallKernel (lossyTun .digits smallKernel) smallConfig)
      (start smallKernel (fun _ => smallAdapter) fun _ _ => {}) smallRun := by
    decide +kernel
  have hbound : Bounded smallPair := fun s => by cases s <;> decide +kernel
  have hrelays : Relays smallPair .a := relays_lossy NetDb.digits_inverse hwhole hpeer _ _
    (hcarried.mono fun _ _ h => h.carried) hbound .a
  have hphase : (smallPair .a).phase = .running := by decide +kernel
  have hcomplete := hrelays.complete
  rw [show Side.other .a = .b from rfl] at hcomplete
  have hended : ((smallPair .b).world.vars.tcp.any fun p => p.inbound.isFinished) = true := by
    decide +kernel
  obtain ⟨p, hp, hfinished⟩ := (Option.any_eq_true _ _).mp hended
  refine ⟨(hcomplete (by decide +kernel) (fun e he => ?_) ⟨p, hp, hfinished⟩).1,
    by decide +kernel⟩
  rw [hphase] at he
  cases he

end SocketPair

end Minnow
