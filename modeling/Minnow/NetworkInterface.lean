import Minnow.LinkLayer
import Minnow.Address
import Minnow.Library.Machine

namespace Minnow

/-!
# The network interface

An interface sends datagrams in Ethernet frames, learns the Ethernet addresses of the next hops
by ARP, and keeps datagrams waiting until it knows them.

* `NetworkInterface.sendDatagram`, `recvFrame`, `tick` — each gives an `Effect`: the interface
  after it, the frames transmitted, and the exception thrown, if any.  An exception leaves
  behind what was done before it.
* `InterfaceRun` — an interface with all it has transmitted.

The maps are functions from the keys to the values there may be.  What the interface has besides
(its name, and the port that takes the frames) plays no part, and debug output is left out.
-/

/-- An address that was learned, and for how long it has been known. -/
structure ARPEntry where
  ethernetAddr : EthernetAddress := {}
  timeElapsed : UInt64 := 0
deriving DecidableEq, Repr

/-- The members of `NetworkInterface`. -/
structure NetworkInterface where
  ethernetAddress : EthernetAddress
  ipAddress : Address
  datagramsReceived : List IPv4Datagram := []
  arpTable : UInt32 → Option ARPEntry := fun _ => none
  pendingDatagrams : UInt32 → Option (List IPv4Datagram) := fun _ => none
  pendingArpRequests : UInt32 → Option UInt64 := fun _ => none

/-- What a method does. -/
structure Effect where
  interface : NetworkInterface
  transmitted : List EthernetFrame := []
  thrown : Option StdException := none

namespace Effect

/-- Go on with a value, unless there is an exception in its place. -/
def tryWith {α : Type} (n : NetworkInterface) (x : Except StdException α) (f : α → Effect) :
    Effect :=
  match x with
  | .error e => { interface := n, thrown := some e }
  | .ok a => f a

/-- Go on from the interface left behind, unless something was thrown. -/
def andThen (e : Effect) (f : NetworkInterface → Effect) : Effect :=
  match e.thrown with
  | some _ => e
  | none =>
    let e' := f e.interface
    { e' with transmitted := e.transmitted ++ e'.transmitted }

end Effect

namespace NetworkInterface

open Function (update)

/-- An ARP message in a frame from the interface. -/
def arpFrame (n : NetworkInterface) (dst : EthernetAddress) (m : ARPMessage) :
    Except StdException EthernetFrame := do
  let payload ← serialize m.serialize
  return { header := { dst, src := n.ethernetAddress, type := EthernetHeader.TYPE_ARP }, payload }

/-- A datagram in a frame from the interface. -/
def datagramFrame (n : NetworkInterface) (dst : EthernetAddress) (d : IPv4Datagram) :
    Except StdException EthernetFrame := do
  let payload ← serialize d.serialize
  return { header := { dst, src := n.ethernetAddress, type := EthernetHeader.TYPE_IPv4 }, payload }

/-- The branch of `send_datagram` for a next hop that is not in the table. -/
def queueDatagram (n : NetworkInterface) (dgram : IPv4Datagram) (nextHopIp : UInt32) : Effect :=
  let queue := (n.pendingDatagrams nextHopIp).getD []
  let n := { n with
    pendingDatagrams := update n.pendingDatagrams nextHopIp (some (queue ++ [dgram.copy])) }
  match n.pendingArpRequests nextHopIp with
  | some _ => { interface := n }
  | none =>
    .tryWith n n.ipAddress.ipv4Numeric fun ip =>
    .tryWith n (n.arpFrame ETHERNET_BROADCAST {
      opcode := ARPMessage.OPCODE_REQUEST
      senderEthernetAddress := n.ethernetAddress
      senderIpAddress := ip
      targetEthernetAddress := {}
      targetIpAddress := nextHopIp }) fun frame =>
    { interface := { n with
        pendingArpRequests := update n.pendingArpRequests nextHopIp (some 0) }
      transmitted := [frame] }

/-- A datagram goes out if the address of its next hop is known, and is queued otherwise. -/
def sendDatagram (n : NetworkInterface) (dgram : IPv4Datagram) (nextHop : Address) : Effect :=
  .tryWith n nextHop.ipv4Numeric fun nextHopIp =>
  match n.arpTable nextHopIp with
  | some entry =>
    .tryWith n (n.datagramFrame entry.ethernetAddr dgram) fun frame =>
    { interface := n, transmitted := [frame] }
  | none => n.queueDatagram dgram nextHopIp

/-- The sender of an ARP message is remembered. -/
def learn (n : NetworkInterface) (arpMsg : ARPMessage) : NetworkInterface :=
  let entry : ARPEntry := { ethernetAddr := arpMsg.senderEthernetAddress, timeElapsed := 0 }
  { n with arpTable := update n.arpTable arpMsg.senderIpAddress (some entry) }

/-- The reply to a request that asks for the interface. -/
def answer (n : NetworkInterface) (arpMsg : ARPMessage) : Effect :=
  if arpMsg.opcode = ARPMessage.OPCODE_REQUEST then
    .tryWith n n.ipAddress.ipv4Numeric fun ip =>
    if arpMsg.targetIpAddress = ip then
      .tryWith n (n.arpFrame arpMsg.senderEthernetAddress {
        opcode := ARPMessage.OPCODE_REPLY
        senderEthernetAddress := n.ethernetAddress
        senderIpAddress := ip
        targetEthernetAddress := arpMsg.senderEthernetAddress
        targetIpAddress := arpMsg.senderIpAddress }) fun frame =>
      { interface := n, transmitted := [frame] }
    else { interface := n }
  else { interface := n }

/-- The loop that sends the datagrams of a queue, with what is in the queue behind each. -/
def sendQueue (n : NetworkInterface) (arpMsg : ARPMessage) : List IPv4Datagram → Effect
  | [] => { interface := n }
  | dgram :: rest =>
    .tryWith n (n.datagramFrame arpMsg.senderEthernetAddress dgram) fun frame =>
    let n := { n with
      pendingDatagrams := update n.pendingDatagrams arpMsg.senderIpAddress (some rest) }
    let e := sendQueue n arpMsg rest
    { e with transmitted := frame :: e.transmitted }

/-- Send all that is queued for the sender of a reply, and remove the queue. -/
def sendPending (n : NetworkInterface) (arpMsg : ARPMessage) : Effect :=
  match n.pendingDatagrams arpMsg.senderIpAddress with
  | none => { interface := n }
  | some queue =>
    (n.sendQueue arpMsg queue).andThen fun n =>
    { interface := { n with
        pendingDatagrams := update n.pendingDatagrams arpMsg.senderIpAddress none } }

/-- A reply lets go of what waited for it. -/
def release (n : NetworkInterface) (arpMsg : ARPMessage) : Effect :=
  if arpMsg.opcode = ARPMessage.OPCODE_REPLY then
    (n.sendPending arpMsg).andThen fun n =>
    { interface := { n with
        pendingArpRequests := update n.pendingArpRequests arpMsg.senderIpAddress none } }
  else { interface := n }

/-- The branch of `recv_frame` for ARP messages. -/
def recvArp (n : NetworkInterface) (payload : List Ref) : Effect :=
  .tryWith n (Parser.new payload) fun parser =>
  .tryWith n (ARPMessage.parse {} |>.run parser) fun (arpMsg, _) =>
  ((n.learn arpMsg).answer arpMsg).andThen fun n =>
  n.release arpMsg

/-- The branch of `recv_frame` for Internet datagrams. -/
def recvDatagram (n : NetworkInterface) (payload : List Ref) : Effect :=
  .tryWith n (Parser.new payload) fun parser =>
  .tryWith n (IPv4Datagram.parse {} |>.run parser) fun (dgram, _) =>
  { interface := { n with datagramsReceived := n.datagramsReceived ++ [dgram.copy] } }

/-- Frames for others are ignored; the rest is taken by type. -/
def recvFrame (n : NetworkInterface) (frame : EthernetFrame) : Effect :=
  if frame.header.dst ≠ n.ethernetAddress ∧ frame.header.dst ≠ ETHERNET_BROADCAST then
    { interface := n }
  else if frame.header.type = EthernetHeader.TYPE_ARP then n.recvArp frame.payload
  else if frame.header.type = EthernetHeader.TYPE_IPv4 then n.recvDatagram frame.payload
  else { interface := n }

/-- The time an entry has been in a map, when it is not yet to be removed. -/
def aged (time msSinceLastTick limit : UInt64) : Option UInt64 :=
  if time + msSinceLastTick ≥ limit then none else some (time + msSinceLastTick)

/-- The first loop of `tick`, over the table. -/
def expireEntries (n : NetworkInterface) (msSinceLastTick : UInt64) : NetworkInterface :=
  let left (ip : UInt32) : Option ARPEntry := do
    let entry ← n.arpTable ip
    let timeElapsed ← aged entry.timeElapsed msSinceLastTick 30000
    return { entry with timeElapsed }
  { n with
    arpTable := left
    pendingDatagrams := fun ip =>
      if (n.arpTable ip).isSome ∧ (left ip).isNone then none else n.pendingDatagrams ip }

/-- The second loop of `tick`, over the requests. -/
def expireRequests (n : NetworkInterface) (msSinceLastTick : UInt64) : NetworkInterface :=
  let left (ip : UInt32) : Option UInt64 := do
    let time ← n.pendingArpRequests ip
    aged time msSinceLastTick 5000
  { n with
    pendingArpRequests := left
    pendingDatagrams := fun ip =>
      if (n.pendingArpRequests ip).isSome ∧ (left ip).isNone then none
      else n.pendingDatagrams ip }

/-- Time passes for the entries first, then for the requests. -/
def tick (n : NetworkInterface) (msSinceLastTick : UInt64) : NetworkInterface :=
  (n.expireEntries msSinceLastTick).expireRequests msSinceLastTick

/-! ### What the methods leave -/

/-- What may throw leaves what it leaves when it does not. -/
theorem tryWith_interface {α : Type} {P : NetworkInterface → Prop} {n : NetworkInterface}
    {x : Except StdException α} {f : α → Effect} (hn : P n) (hf : ∀ a, P (f a).interface) :
    P (Effect.tryWith n x f).interface := by
  cases x with
  | error e => exact hn
  | ok a => exact hf a

/-- The same interface but for its queues and requests. -/
def SameButQueues (n n' : NetworkInterface) : Prop :=
  ∃ pendingDatagrams pendingArpRequests, n' = { n with pendingDatagrams, pendingArpRequests }

/-- Sending changes nothing but queues and requests. -/
theorem sendDatagram_interface (n : NetworkInterface) (dgram : IPv4Datagram) (nextHop : Address) :
    n.SameButQueues (n.sendDatagram dgram nextHop).interface := by
  have hself : n.SameButQueues n := ⟨n.pendingDatagrams, n.pendingArpRequests, rfl⟩
  refine tryWith_interface hself fun ip => ?_
  split
  · exact tryWith_interface hself fun frame => hself
  · dsimp only [queueDatagram]
    -- the datagram is in its queue, whatever comes after that
    have hqueued : ∀ pendingDatagrams, n.SameButQueues { n with pendingDatagrams } :=
      fun pendingDatagrams => ⟨pendingDatagrams, n.pendingArpRequests, rfl⟩
    split
    · exact hqueued _
    · exact tryWith_interface (hqueued _) fun ip => tryWith_interface (hqueued _) fun frame =>
        ⟨_, _, rfl⟩

end NetworkInterface

/-! ### Runs -/

/-- What can happen to an interface; its owner takes received datagrams off the queue. -/
inductive InterfaceOp where
  | sendDatagram (dgram : IPv4Datagram) (nextHop : Address)
  | recvFrame (frame : EthernetFrame)
  | tick (msSinceLastTick : UInt64)
  | popReceived
deriving DecidableEq, Repr

/-- The methods, as the operations call them. -/
def InterfaceOp.act (n : NetworkInterface) : InterfaceOp → Effect
  | .sendDatagram dgram nextHop => n.sendDatagram dgram nextHop
  | .recvFrame frame => n.recvFrame frame
  | .tick msSinceLastTick => { interface := n.tick msSinceLastTick }
  | .popReceived => { interface := { n with datagramsReceived := n.datagramsReceived.tail } }

/-- An interface with the frames it has transmitted. -/
structure InterfaceRun where
  interface : NetworkInterface
  transmitted : List EthernetFrame := []

namespace InterfaceRun

/-- An exception goes to the owner, who may go on to use the interface. -/
def step (r : InterfaceRun) (op : InterfaceOp) : InterfaceRun :=
  let e := op.act r.interface
  { interface := e.interface, transmitted := r.transmitted ++ e.transmitted }

/-- The run of a new interface through a sequence of operations. -/
def of (ethernetAddress : EthernetAddress) (ipAddress : Address) (ops : List InterfaceOp) :
    InterfaceRun :=
  Machine.run step { interface := { ethernetAddress, ipAddress } } ops

end InterfaceRun

end Minnow
