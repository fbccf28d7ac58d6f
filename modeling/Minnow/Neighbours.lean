import Minnow.ArpRun

namespace Minnow

/-!
# Interfaces and their neighbours

An interface that hears nothing false of its neighbours tells nothing false itself: its table is
right, its ARP messages give its own addresses, and a datagram goes to the Ethernet address of the
next hop that it was given for.

* `NetworkInterface.Truthful` — what an interface believes, and what waits at it;
* `EthernetFrame.Tells` — what a frame tells of the interface that transmits it;
* `NetworkInterface.truthful_sendDatagram`, `truthful_recvFrame`, `truthful_tick` — the methods.

It is a parameter what is known of the neighbours, and what the interface was given.
-/

open Function (update)

/-- A frame tells the addresses of the interface that transmits it, or carries a datagram to the
    next hop that it was given for. -/
def EthernetFrame.Tells (ip : UInt32) (ethernetAddress : EthernetAddress)
    (Known : UInt32 → EthernetAddress → Prop) (Given : UInt32 → IPv4Datagram → Prop)
    (frame : EthernetFrame) : Prop :=
  (frame.header.type = EthernetHeader.TYPE_ARP ∧ frame.arpMessage.senderIpAddress = ip ∧
      frame.arpMessage.senderEthernetAddress = ethernetAddress) ∨
    ∃ hop d, Known hop frame.header.dst ∧ Given hop d ∧ d.Carried frame

/-- An interface believes what is known, and lets wait what it was given. -/
structure NetworkInterface.Truthful (ip : UInt32) (ethernetAddress : EthernetAddress)
    (Known : UInt32 → EthernetAddress → Prop) (Given : UInt32 → IPv4Datagram → Prop)
    (n : NetworkInterface) : Prop where
  ethernetAddress_eq : n.ethernetAddress = ethernetAddress
  ipv4Numeric_eq : n.ipAddress.ipv4Numeric = .ok ip
  known : ∀ hop entry, n.arpTable hop = some entry → Known hop entry.ethernetAddr
  given : ∀ hop, ∀ d ∈ (n.pendingDatagrams hop).getD [], Given hop d

/-- What a method leaves and transmits. -/
structure Effect.Truthful (ip : UInt32) (ethernetAddress : EthernetAddress)
    (Known : UInt32 → EthernetAddress → Prop) (Given : UInt32 → IPv4Datagram → Prop)
    (e : Effect) : Prop where
  interface : e.interface.Truthful ip ethernetAddress Known Given
  tells : ∀ frame ∈ e.transmitted, frame.Tells ip ethernetAddress Known Given

namespace NetworkInterface

variable {ip : UInt32} {ethernetAddress : EthernetAddress} {Known : UInt32 → EthernetAddress → Prop}
  {Given : UInt32 → IPv4Datagram → Prop} {n : NetworkInterface}

/-- Without frames there is only what is left. -/
theorem Truthful.quiet (h : n.Truthful ip ethernetAddress Known Given)
    (thrown : Option StdException) :
    Effect.Truthful ip ethernetAddress Known Given { interface := n, thrown } :=
  ⟨h, fun _ hframe => absurd hframe List.not_mem_nil⟩

/-- One queue was changed, and maybe its request. -/
theorem Truthful.setQueue (h : n.Truthful ip ethernetAddress Known Given) (hop : UInt32)
    {queue : Option (List IPv4Datagram)} (hqueue : ∀ d ∈ queue.getD [], Given hop d)
    (pendingArpRequests : UInt32 → Option UInt64) :
    { n with
      pendingDatagrams := update n.pendingDatagrams hop queue
      pendingArpRequests }.Truthful ip ethernetAddress Known Given where
  ethernetAddress_eq := h.ethernetAddress_eq
  ipv4Numeric_eq := h.ipv4Numeric_eq
  known := h.known
  given hop' d hd := by
    have hd' : d ∈ (update n.pendingDatagrams hop queue hop').getD [] := hd
    by_cases heq : hop' = hop
    · subst heq
      rw [Function.update_self] at hd'
      exact hqueue d hd'
    · rw [Function.update_of_ne heq] at hd'
      exact h.given hop' d hd'

/-- What was received is of no concern. -/
theorem Truthful.setReceived (h : n.Truthful ip ethernetAddress Known Given)
    (datagramsReceived : List IPv4Datagram) :
    { n with datagramsReceived }.Truthful ip ethernetAddress Known Given :=
  ⟨h.ethernetAddress_eq, h.ipv4Numeric_eq, h.known, h.given⟩

/-- A datagram goes to an address that is known. -/
theorem tells_of_carriedTo {hop : UInt32} {dst : EthernetAddress} {d : IPv4Datagram}
    {frame : EthernetFrame} (hknown : Known hop dst) (hgiven : Given hop d)
    (hcarried : d.CarriedTo dst frame) : frame.Tells ip ethernetAddress Known Given :=
  .inr ⟨hop, d, hcarried.dst_eq ▸ hknown, hgiven, hcarried.toCarried⟩

/-- An ARP message of the interface gives its addresses. -/
theorem tells_arpFrame (h : n.Truthful ip ethernetAddress Known Given) (dst : EthernetAddress)
    {m : ARPMessage} (hm : m.supported) (hip : m.senderIpAddress = ip)
    (haddress : m.senderEthernetAddress = n.ethernetAddress) :
    ∃ frame, n.arpFrame dst m = .ok frame ∧ frame.Tells ip ethernetAddress Known Given := by
  obtain ⟨frame, hframe, htype, hmessage⟩ := n.arpFrame_eq_ok dst hm
  refine ⟨frame, hframe, .inl ⟨htype, by rw [hmessage, hip], ?_⟩⟩
  rw [hmessage, haddress, h.ethernetAddress_eq]

/-- **Waiting.**  A request gives the addresses of the interface. -/
theorem truthful_queueDatagram (h : n.Truthful ip ethernetAddress Known Given)
    {dgram : IPv4Datagram} {hop : UInt32} (hgiven : Given hop dgram.copy) :
    (n.queueDatagram dgram hop).Truthful ip ethernetAddress Known Given := by
  have hqueue : ∀ d ∈ (some ((n.pendingDatagrams hop).getD [] ++ [dgram.copy])).getD [],
      Given hop d := by
    intro d hd
    rcases List.mem_append.mp hd with hold | hnew
    · exact h.given hop d hold
    · rwa [List.mem_singleton.mp hnew]
  unfold queueDatagram
  dsimp only
  split
  · exact (h.setQueue hop hqueue n.pendingArpRequests).quiet none
  · rw [h.ipv4Numeric_eq]
    have hwaits := h.setQueue hop hqueue n.pendingArpRequests
    obtain ⟨frame, hframe, htells⟩ := tells_arpFrame hwaits ETHERNET_BROADCAST (m := {
      opcode := ARPMessage.OPCODE_REQUEST
      senderEthernetAddress := n.ethernetAddress
      senderIpAddress := ip
      targetEthernetAddress := {}
      targetIpAddress := hop }) rfl rfl rfl
    simp only [Effect.tryWith]
    rw [hframe]
    refine ⟨h.setQueue hop hqueue _, fun frame' hframe' => ?_⟩
    rwa [List.mem_singleton.mp hframe']

/-- **Sending.** -/
theorem truthful_sendDatagram (h : n.Truthful ip ethernetAddress Known Given)
    {dgram : IPv4Datagram} {nextHop : Address}
    (hgiven : ∀ hop, nextHop.ipv4Numeric = .ok hop → Given hop dgram ∧ Given hop dgram.copy) :
    (n.sendDatagram dgram nextHop).Truthful ip ethernetAddress Known Given := by
  cases hhop : nextHop.ipv4Numeric with
  | error e =>
    unfold sendDatagram
    rw [hhop]
    exact h.quiet (some e)
  | ok hop =>
    obtain ⟨hdgram, hcopy⟩ := hgiven hop hhop
    cases hentry : n.arpTable hop with
    | some entry =>
      obtain ⟨hinterface, hcarried⟩ := n.sendDatagram_entry hhop hentry dgram
      refine ⟨?_, fun frame hframe => ?_⟩
      · rw [hinterface]
        exact h
      · exact tells_of_carriedTo (h.known hop entry hentry) hdgram (hcarried frame hframe)
    | none =>
      have hsend : n.sendDatagram dgram nextHop = n.queueDatagram dgram hop := by
        unfold sendDatagram
        simp only [hhop, Effect.tryWith, hentry]
      rw [hsend]
      exact truthful_queueDatagram h hcopy

/-- A sender that is known may be remembered. -/
theorem Truthful.learn (h : n.Truthful ip ethernetAddress Known Given) {m : ARPMessage}
    (hm : Known m.senderIpAddress m.senderEthernetAddress) :
    (n.learn m).Truthful ip ethernetAddress Known Given where
  ethernetAddress_eq := h.ethernetAddress_eq
  ipv4Numeric_eq := h.ipv4Numeric_eq
  known hop entry hentry := by
    have hentry' : update n.arpTable m.senderIpAddress
        (some { ethernetAddr := m.senderEthernetAddress, timeElapsed := 0 }) hop = some entry :=
      hentry
    by_cases heq : hop = m.senderIpAddress
    · rw [heq, Function.update_self] at hentry'
      obtain rfl := Option.some.inj hentry'
      rwa [heq]
    · rw [Function.update_of_ne heq] at hentry'
      exact h.known hop entry hentry'
  given := h.given

/-- An answer gives the addresses of the interface. -/
theorem tells_answer (h : n.Truthful ip ethernetAddress Known Given) (m : ARPMessage) :
    ∀ frame ∈ (n.answer m).transmitted, frame.Tells ip ethernetAddress Known Given := by
  unfold answer
  split
  · rw [h.ipv4Numeric_eq]
    simp only [Effect.tryWith]
    split
    · obtain ⟨frame, hframe, htells⟩ := tells_arpFrame h m.senderEthernetAddress (m := {
        opcode := ARPMessage.OPCODE_REPLY
        senderEthernetAddress := n.ethernetAddress
        senderIpAddress := ip
        targetEthernetAddress := m.senderEthernetAddress
        targetIpAddress := m.senderIpAddress }) rfl rfl rfl
      rw [hframe]
      intro frame' hframe'
      rwa [List.mem_singleton.mp hframe']
    · simp
  · simp

/-- A reply lets go of what was given for its sender. -/
theorem truthful_release (h : n.Truthful ip ethernetAddress Known Given) {m : ARPMessage}
    (hm : Known m.senderIpAddress m.senderEthernetAddress) :
    (n.release m).Truthful ip ethernetAddress Known Given := by
  by_cases hreply : m.opcode = ARPMessage.OPCODE_REPLY
  · obtain ⟨sent, left, hqueue, hframes, hleft⟩ := n.release_cases m hreply
    have hgiven : ∀ d ∈ sent ++ left, Given m.senderIpAddress d :=
      hqueue ▸ h.given m.senderIpAddress
    constructor
    case interface =>
      rcases hleft with ⟨-, hinterface⟩ | ⟨-, hinterface⟩
      · rw [hinterface]
        exact h.setQueue _ (by simp) _
      · rw [hinterface]
        have hqueue' : ∀ d ∈ (some left).getD [], Given m.senderIpAddress d :=
          fun d hd => hgiven d (List.mem_append_right _ hd)
        exact h.setQueue _ hqueue' _
    case tells =>
      intro frame hframe
      obtain ⟨d, hd, hcarried⟩ := exists_of_forall₂ hframes.flip hframe
      exact tells_of_carriedTo hm (hgiven d (List.mem_append_left _ hd)) hcarried
  · unfold release
    rw [if_neg hreply]
    exact h.quiet none

/-- **Hearing** a message whose sender is known. -/
theorem truthful_hear (h : n.Truthful ip ethernetAddress Known Given) {m : ARPMessage}
    (hm : Known m.senderIpAddress m.senderEthernetAddress) :
    (n.hear m).Truthful ip ethernetAddress Known Given := by
  have hlearn := h.learn hm
  have hinterface : ((n.learn m).answer m).interface = n.learn m :=
    ((n.learn m).answer_spec m).1
  have htells := tells_answer hlearn m
  unfold hear Effect.andThen
  split
  · refine ⟨?_, htells⟩
    rw [hinterface]
    exact hlearn
  · rw [hinterface]
    obtain ⟨hleft, hsent⟩ := truthful_release hlearn hm
    exact ⟨hleft, fun frame hframe => (List.mem_append.mp hframe).elim (htells frame) (hsent frame)⟩

/-- **Receiving** a frame that tells nothing false. -/
theorem truthful_recvFrame (h : n.Truthful ip ethernetAddress Known Given) {frame : EthernetFrame}
    (hframe : frame.header.type = EthernetHeader.TYPE_ARP →
      Known frame.arpMessage.senderIpAddress frame.arpMessage.senderEthernetAddress) :
    (n.recvFrame frame).Truthful ip ethernetAddress Known Given := by
  rcases n.recvFrame_cases frame with
    ⟨thrown, hrecv⟩ | ⟨-, htype, hrecv⟩ | ⟨d, success, -, -, hrecv⟩
  · rw [hrecv]
    exact h.quiet thrown
  · rw [hrecv]
    exact truthful_hear h (hframe htype)
  · rw [hrecv]
    exact (h.setReceived _).quiet none

/-- **Time** only removes entries and queues. -/
theorem truthful_tick (h : n.Truthful ip ethernetAddress Known Given) (ms : UInt64) :
    (n.tick ms).Truthful ip ethernetAddress Known Given where
  ethernetAddress_eq := h.ethernetAddress_eq
  ipv4Numeric_eq := h.ipv4Numeric_eq
  known hop entry hentry := by
    obtain ⟨entry₀, hentry₀, -, rfl⟩ := tick_arpTable_eq_some.mp hentry
    exact h.known hop entry₀ hentry₀
  given hop d hd := by
    obtain ⟨-, -, -, -, hgone, hstays⟩ := n.tick_spec ms hop
    by_cases hexpires : n.EntryExpires ms hop ∨ n.RequestExpires ms hop
    · rw [hgone hexpires] at hd
      cases hd
    · rw [not_or] at hexpires
      rw [hstays hexpires.1 hexpires.2] at hd
      exact h.given hop d hd

/-- More was given. -/
theorem Truthful.mono (h : n.Truthful ip ethernetAddress Known Given)
    {Given' : UInt32 → IPv4Datagram → Prop} (hgiven : ∀ hop d, Given hop d → Given' hop d) :
    n.Truthful ip ethernetAddress Known Given' :=
  { h with given := fun hop d hd => hgiven hop d (h.given hop d hd) }

end NetworkInterface

/-- More was given. -/
theorem EthernetFrame.Tells.mono {ip : UInt32} {ethernetAddress : EthernetAddress}
    {Known : UInt32 → EthernetAddress → Prop} {Given Given' : UInt32 → IPv4Datagram → Prop}
    {frame : EthernetFrame} (h : frame.Tells ip ethernetAddress Known Given)
    (hgiven : ∀ hop d, Given hop d → Given' hop d) :
    frame.Tells ip ethernetAddress Known Given' :=
  h.imp_right fun ⟨hop, d, hknown, hd, hcarried⟩ => ⟨hop, d, hknown, hgiven hop d hd, hcarried⟩

end Minnow
