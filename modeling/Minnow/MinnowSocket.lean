import Minnow.DatagramAdapter
import Minnow.EventLoop
import Minnow.PeerRun

namespace Minnow

/-!
# The socket over a peer

A `TCPMinnowSocket` runs a peer with an event loop of three rules: segments come from the network,
bytes come from the owner, and bytes go to the owner.

* `MinnowSocket.rules` — the rules;
* `MinnowSocket.connect`, `listenAndAccept`, `tcpLoopPass` — the methods of the socket, with the
  loop taken apart into its passes;
* `MinnowSocket.step` — a socket with what its owner does, as a state machine.

The owner and the thread of the peer share nothing but the stream socket between them, which is a
matter of the kernel, and the flag `abort`, which a pass reads once.  A write to the network that
throws ends the loop; the peer is not used after that, and is here already past the whole operation.
Output for debugging is left out.
-/

/-- The variables of a socket. -/
structure SocketVars (A : Type) where
  /-- adapter to the underlying datagram socket -/
  datagramAdapter : A
  /-- TCP state machine -/
  tcp : Option TCPPeer := none
  /-- used by the owner to force the thread to shut down -/
  abort : Bool := false
  /-- has the incoming data to the owner been shut down? -/
  inboundShutdown : Bool := false
  /-- has the owner shut down the outbound data? -/
  outboundShutdown : Bool := false
  /-- has the outbound data been fully acknowledged? -/
  fullyAcked : Bool := false

/-- What runs over the two descriptors and the variables of a socket. -/
abbrev SocketM (A : Type) := SysM SocketFd (SocketVars A)

/-- A rule over the two descriptors of a socket. -/
abbrev SocketRule (A : Type) := FDRule SocketFd (SocketVars A)

/-- The event loop of a socket. -/
abbrev SocketLoop (A : Type) := EventLoop SocketFd (SocketVars A)

namespace MinnowSocket

variable {A C : Type}

/-- The peer is ticked every 10 ms, or later where a turn takes longer. -/
def TCP_TICK_MS : ℤ := 10

/-- The adapter, as far as the socket is concerned. -/
def onAdapter {β : Type} (x : SysM SocketFd A β) : SocketM A β :=
  SysM.zoom (·.datagramAdapter) (fun v datagramAdapter => { v with datagramAdapter }) x

/-- Change the variables of the socket. -/
def setVars (f : SocketVars A → SocketVars A) (w : World SocketFd (SocketVars A)) :
    World SocketFd (SocketVars A) :=
  w.setVars (f w.vars)

section

variable (ad : TCPDatagramAdapter A C)

/-- Hand messages to the adapter. -/
def transmit : List TCPMessage → SocketM A PUnit
  | [] => return
  | seg :: segs => do
    onAdapter (ad.write seg)
    transmit segs

/-- Something happens to the peer, and its messages are transmitted. -/
def act (op : PeerOp) : SocketM A PUnit := do
  match (← get).vars.tcp with
  | none => return
  | some p =>
    modify (setVars fun v => { v with tcp := some (op.act p).1 })
    transmit ad (op.act p).2

end

/-! ### The rules -/

variable (kernel : Kernel SocketFd) (ad : TCPDatagramAdapter A C)

/-- Rule 1: read from the filtered packet stream and hand it to the peer. -/
def receiveCallback : SocketM A PUnit := do
  if let some seg ← onAdapter ad.read then
    act ad (.receive seg)
  let w ← get
  if (w.fds .data).eof = true ∧ w.vars.fullyAcked = false ∧
      ∀ p ∈ w.vars.tcp, p.sender.sequenceNumbersInFlight = 0 then
    modify (setVars fun v => { v with fullyAcked := true })

/-- Rule 1 waits for segments while the peer is active. -/
def receiveInterest (w : World SocketFd (SocketVars A)) : Bool :=
  w.vars.tcp.any (·.active)

/-- The outbound stream ends. -/
def closeOutbound : SocketM A PUnit := do
  act ad .close
  modify (setVars fun v => { v with outboundShutdown := true })

/-- Rule 2: read from the owner into the outbound stream, as much as there is room for. -/
def pushCallback : SocketM A PUnit := do
  match (← get).vars.tcp with
  | none => return
  | some p =>
    let data ← FileDescriptor.read kernel .data p.outbound.availableCapacity.toNat
    act ad (.write data)
    if ((← get).fds .data).eof = true then closeOutbound ad
    act ad .push

/-- Rule 2 waits for the owner while the peer is active, the owner may write, and there is room. -/
def pushInterest (w : World SocketFd (SocketVars A)) : Bool :=
  w.vars.tcp.any fun p =>
    p.active && !w.vars.outboundShutdown && p.outbound.availableCapacity > 0

/-- Write from the inbound stream to the owner, and pop what was written. -/
def writeInbound : SocketM A PUnit := do
  match (← get).vars.tcp with
  | none => return
  | some p =>
    if p.inbound.bytesBuffered ≠ 0 then
      let bytesWritten ← FileDescriptor.write kernel .data [p.inbound.peek]
      act ad (.read (UInt64.ofNat bytesWritten))

/-- Rule 3: write from the inbound stream to the owner, and shut down behind its end. -/
def readCallback : SocketM A PUnit := do
  writeInbound kernel ad
  if (← get).vars.tcp.any fun p => p.inbound.isFinished || p.inbound.hasError then
    FileDescriptor.shutdown kernel .data .SHUT_WR
    modify (setVars fun v => { v with inboundShutdown := true })

/-- Rule 3 waits for room at the owner while there are bytes for it, or an end it has not been
    told. -/
def readInterest (w : World SocketFd (SocketVars A)) : Bool :=
  w.vars.tcp.any fun p =>
    p.inbound.bytesBuffered ≠ 0 ||
      ((p.inbound.isFinished || p.inbound.hasError) && !w.vars.inboundShutdown)

/-- Rule 1, at the adapter. -/
def receiveRule : SocketRule A where
  id := 0
  categoryId := 0
  interest := receiveInterest
  callback := receiveCallback ad
  fd := .tun
  direction := .In
  cancel := pure ⟨⟩
  error := pure ⟨⟩

/-- Rule 2, at the thread's end of the pair.  Where the owner has gone, the outbound stream is
    closed. -/
def pushRule : SocketRule A where
  id := 1
  categoryId := 1
  interest := pushInterest
  callback := pushCallback kernel ad
  fd := .data
  direction := .In
  cancel := closeOutbound ad
  error := act ad .setOutboundError

/-- Rule 3, at the thread's end of the pair. -/
def readRule : SocketRule A where
  id := 2
  categoryId := 2
  interest := readInterest
  callback := readCallback kernel ad
  fd := .data
  direction := .Out
  cancel := pure ⟨⟩
  error := act ad .setInboundError

/-- The rules in the order in which `_initialize_TCP` adds them. -/
def rules : List (SocketRule A) := [receiveRule ad, pushRule kernel ad, readRule kernel ad]

/-! ### The methods -/

/-- Milliseconds of the steady clock. -/
def timestampMs : SocketM A UInt64 := do
  return kernel.now (← FileDescriptor.call)

/-- Set up the peer and the event loop. -/
def initializeTCP (config : TCPConfig) (loop : SocketLoop A) : SocketM A (SocketLoop A) := do
  let p ← SysM.attempt (TCPPeer.new config)
  modify (setVars fun v => { v with tcp := some p })
  let (loop, _) ← SysM.attempt (loop.addNamedRule "receive TCP segment from the network"
    (receiveRule ad))
  let (loop, _) ← SysM.attempt (loop.addNamedRule "push bytes to TCPPeer" (pushRule kernel ad))
  let (loop, _) ← SysM.attempt (loop.addNamedRule "read bytes from inbound stream"
    (readRule kernel ad))
  return loop

/-- `connect` until its loop begins, with the time from which that counts. -/
def connect (cTcp : TCPConfig) (cAd : C) (loop : SocketLoop A) :
    SocketM A (SocketLoop A × UInt64) := do
  if (← get).vars.tcp.isSome then
    throw (.runtimeError "connect() with TCPConnection already initialized")
  let loop ← initializeTCP kernel ad cTcp loop
  modify (setVars fun v => { v with datagramAdapter := ad.setConfig cAd v.datagramAdapter })
  act ad .push
  if (← get).vars.tcp.any fun p => p.sender.sequenceNumbersInFlight ≠ 1 then
    throw (.runtimeError
      "After TCPConnection::connect(), expected sequence_numbers_in_flight() == 1")
  return (loop, ← timestampMs kernel)

/-- `connect` waits while this holds. -/
def connecting (tcp : Option TCPPeer) : Bool :=
  tcp.any fun p => p.sender.sequenceNumbersInFlight = 1

/-- `listen_and_accept` until its loop begins. -/
def listenAndAccept (cTcp : TCPConfig) (cAd : C) (loop : SocketLoop A) :
    SocketM A (SocketLoop A × UInt64) := do
  if (← get).vars.tcp.isSome then
    throw (.runtimeError "listen_and_accept() with TCPConnection already initialized")
  let loop ← initializeTCP kernel ad cTcp loop
  modify (setVars fun v =>
    { v with datagramAdapter := ad.setListening true (ad.setConfig cAd v.datagramAdapter) })
  return (loop, ← timestampMs kernel)

/-- `listen_and_accept` waits while this holds. -/
def accepting (tcp : Option TCPPeer) : Bool :=
  tcp.any fun p => !p.hasAckno || p.sender.sequenceNumbersInFlight ≠ 0

/-- One pass of `_tcp_loop`, which processes events while the condition is true; does it go on? -/
def tcpLoopPass (condition : Option TCPPeer → Bool) (loop : SocketLoop A) (baseTime : UInt64) :
    SocketM A (Bool × SocketLoop A × UInt64) := do
  if condition (← get).vars.tcp = false then return (false, loop, baseTime)
  else
    let (ret, loop) ← loop.waitNextEvent kernel TCP_TICK_MS
    let vars := (← get).vars
    if ret = .Exit ∨ vars.abort = true then return (false, loop, baseTime)
    else
      match vars.tcp with
      | none => throw (.runtimeError "_tcp_loop entered before TCPPeer initialized")
      | some p =>
        if p.active then
          let nextTime ← timestampMs kernel
          act ad (.tick (nextTime - baseTime))
          return (true, loop, nextTime)
        else return (true, loop, baseTime)

/-- `_tcp_main` before its loop. -/
def tcpMain : SocketM A UInt64 := do
  if (← get).vars.tcp.isNone then throw (.runtimeError "no TCP")
  timestampMs kernel

/-- `_tcp_main` after its loop. -/
def tcpMainEnd : SocketM A PUnit := do
  FileDescriptor.shutdown kernel .owner .SHUT_RDWR
  modify (setVars fun v => { v with tcp := none })

end MinnowSocket

/-! ### The socket as a state machine -/

/-- Where the socket stands. -/
inductive SocketPhase where
  /-- constructed -/
  | fresh
  /-- in the loop of `connect` -/
  | connecting
  /-- in the loop of `listen_and_accept` -/
  | accepting
  /-- in the loop of the thread -/
  | running
  /-- the thread has ended -/
  | finished
  | threw (e : StdException)
deriving DecidableEq, Repr

/-- Is a loop passed through? -/
def SocketPhase.looping : SocketPhase → Bool
  | .connecting | .accepting | .running => true
  | .fresh | .finished | .threw _ => false

/-- The descriptors and variables, the phase of the owner's calls, the event loop of the thread, and
    the time of its last tick. -/
structure MinnowSocket (A : Type) where
  world : World SocketFd (SocketVars A)
  phase : SocketPhase := .fresh
  eventloop : SocketLoop A := {}
  baseTime : UInt64 := 0

/-- What the owner can do, and the passes of the loop in between.  While it is in `connect` or
    `listen_and_accept` the owner can do nothing. -/
inductive SocketOp (C : Type) where
  | connect (cTcp : TCPConfig) (cAd : C)
  | listenAndAccept (cTcp : TCPConfig) (cAd : C)
  | pass
  /-- the first thing that the destructor does while the thread is running -/
  | abort
  | waitUntilClosed

namespace MinnowSocket

variable {A C : Type}

/-- A socket after a part of its program: what comes next, or the exception. -/
def after {β : Type} (s : MinnowSocket A) (x : SocketM A β)
    (next : β → MinnowSocket A → MinnowSocket A) : MinnowSocket A :=
  match x.run.run s.world with
  | (.ok b, world) => next b { s with world }
  | (.error e, world) => { s with world, phase := .threw e }

variable (kernel : Kernel SocketFd) (ad : TCPDatagramAdapter A C)

/-- The constructor: neither end of the stream socket blocks. -/
def new (a : A) (fds : SocketFd → FDWrapper) : MinnowSocket A :=
  after { world := { vars := { datagramAdapter := a }, fds } } (do
    FileDescriptor.setBlocking kernel .data false
    FileDescriptor.setBlocking kernel .owner false) fun _ s => s

/-- The loop begins. -/
def enter (phase : SocketPhase) (begun : SocketLoop A × UInt64) (s : MinnowSocket A) :
    MinnowSocket A :=
  { s with phase, eventloop := begun.1, baseTime := begun.2 }

/-- A pass in `connect` or `listen_and_accept`; the thread is started behind the last one. -/
def passBefore (condition : Option TCPPeer → Bool) (s : MinnowSocket A) : MinnowSocket A :=
  s.after (tcpLoopPass kernel ad condition s.eventloop s.baseTime) fun (goesOn, begun) s =>
    if goesOn then s.enter s.phase begun
    else (s.enter s.phase begun).after (tcpMain kernel) fun base s =>
      s.enter .running (begun.1, base)

/-- A pass in the thread. -/
def passRunning (s : MinnowSocket A) : MinnowSocket A :=
  s.after (tcpLoopPass kernel ad (fun _ => true) s.eventloop s.baseTime) fun (goesOn, begun) s =>
    if goesOn then s.enter s.phase begun
    else (s.enter s.phase begun).after (tcpMainEnd kernel) fun _ s => { s with phase := .finished }

/-- A step of the socket.  What cannot be done in its phase leaves it as it is; a socket connects
    or accepts once. -/
def step (s : MinnowSocket A) (op : SocketOp C) : MinnowSocket A :=
  match op, s.phase with
  | .connect cTcp cAd, .fresh =>
    s.after (connect kernel ad cTcp cAd s.eventloop) (enter .connecting)
  | .listenAndAccept cTcp cAd, .fresh =>
    s.after (listenAndAccept kernel ad cTcp cAd s.eventloop) (enter .accepting)
  | .pass, .connecting => s.passBefore kernel ad connecting
  | .pass, .accepting => s.passBefore kernel ad accepting
  | .pass, .running => s.passRunning kernel ad
  | .abort, .running => { s with world := setVars (fun v => { v with abort := true }) s.world }
  | .waitUntilClosed, .fresh | .waitUntilClosed, .running | .waitUntilClosed, .finished =>
    -- what this throws goes to the owner; the thread is not concerned
    { s with world := ((FileDescriptor.shutdown kernel .owner .SHUT_RDWR).run.run s.world).2 }
  | _, _ => s

end MinnowSocket

end Minnow
