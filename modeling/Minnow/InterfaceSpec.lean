import Minnow.NetworkInterface
import Minnow.ArpWire

namespace Minnow

/-!
# What an interface does

One lemma for each part of an interface, with all that it can do.

* `IPv4Datagram.Carried` — a frame carries a datagram;
* `NetworkInterface.sendDatagram_known`, `sendDatagram_unknown` — a datagram is sent at once when
  the address of its next hop is known, and waits otherwise;
* `NetworkInterface.hear_reply`, `hear_other`, `release_throws` — a reply sends all that waits for
  it, unless something does that is not of version 4, and from other messages the interface learns;
* `NetworkInterface.tick_spec` — what a tick removes;
* `NetworkInterface.recvFrame_cases` — what a frame can do; `recvFrame_arp` and `recvFrame_ipv4` say
  more where no buffer is borrowed or empty;
* `Effect.Within` — what waits, and what is transmitted in frames, is of some kind.
-/

open Function (update)

/-- Of two lists that are related item by item, each item of the first has its own in the second. -/
theorem exists_of_forall₂ {α β : Type*} {R : α → β → Prop} {l : List α} {l' : List β}
    (h : List.Forall₂ R l l') {a : α} (ha : a ∈ l) : ∃ b ∈ l', R a b := by
  induction h with
  | nil => cases ha
  | cons hab _ ih =>
    rcases List.mem_cons.mp ha with rfl | ha
    · exact ⟨_, List.mem_cons_self, hab⟩
    · obtain ⟨b, hb, hab'⟩ := ih ha
      exact ⟨b, List.mem_cons_of_mem _ hb, hab'⟩

/-- A frame carries a datagram. -/
structure IPv4Datagram.Carried (d : IPv4Datagram) (frame : EthernetFrame) : Prop where
  type_eq : frame.header.type = EthernetHeader.TYPE_IPv4
  payload_eq : Minnow.serialize d.serialize = .ok frame.payload

/-- A frame carries a datagram to an address. -/
structure IPv4Datagram.CarriedTo (dst : EthernetAddress) (d : IPv4Datagram)
    (frame : EthernetFrame) : Prop extends d.Carried frame where
  dst_eq : frame.header.dst = dst

/-- Buffers are borrowed when they are written, so that a copy is written as the original is. -/
theorem IPv4Datagram.serialize_copy (d : IPv4Datagram) : d.copy.serialize = d.serialize := by
  have hbuffers : ∀ (s : Serializer) (bufs : List Ref),
      s.buffers (bufs.map fun r => { r with owned := true }) = s.buffers bufs := by
    intro s bufs
    induction bufs generalizing s with
    | nil => rfl
    | cons b bufs ih => exact ih _
  funext s
  unfold serialize copy
  simp only [hbuffers]

/-- A frame carries a datagram where it carries its copy. -/
theorem IPv4Datagram.carried_copy {d : IPv4Datagram} {frame : EthernetFrame} :
    d.copy.Carried frame ↔ d.Carried frame := by
  constructor
  · rintro ⟨htype, hpayload⟩
    exact ⟨htype, by rwa [← serialize_copy]⟩
  · rintro ⟨htype, hpayload⟩
    exact ⟨htype, by rwa [serialize_copy]⟩

/-- The message that is read of a frame, whether or not all of it is there. -/
def EthernetFrame.arpMessage (frame : EthernetFrame) : ARPMessage :=
  ARPMessage.ofBytes {} (concat frame.payload)

/-- A frame is a request for the Ethernet address of a next hop. -/
structure EthernetFrame.IsRequestFor (ip : UInt32) (frame : EthernetFrame) : Prop where
  type_eq : frame.header.type = EthernetHeader.TYPE_ARP
  opcode_eq : frame.arpMessage.opcode = ARPMessage.OPCODE_REQUEST
  target_eq : frame.arpMessage.targetIpAddress = ip

/-- A frame is a reply. -/
structure EthernetFrame.IsReply (frame : EthernetFrame) : Prop where
  type_eq : frame.header.type = EthernetHeader.TYPE_ARP
  opcode_eq : frame.arpMessage.opcode = ARPMessage.OPCODE_REPLY

namespace NetworkInterface

variable (n : NetworkInterface) (m : ARPMessage)

/-! ### Sending -/

/-- A datagram goes into a frame if and only if it is of version 4. -/
theorem datagramFrame_cases (dst : EthernetAddress) (d : IPv4Datagram) :
    (d.header.ver = 4 ∧ ∃ frame, n.datagramFrame dst d = .ok frame ∧ d.CarriedTo dst frame) ∨
      (d.header.ver ≠ 4 ∧
        n.datagramFrame dst d = .error (.runtimeError "wrong IP version")) := by
  by_cases hver : d.header.ver = 4
  · obtain ⟨payload, hpayload, -⟩ := IPv4Datagram.serialize_wire hver
    refine .inl ⟨hver, ?_⟩
    unfold datagramFrame
    rw [hpayload]
    exact ⟨_, rfl, ⟨rfl, hpayload⟩, rfl⟩
  · have hheader : d.header.serialize {} = .error (.runtimeError "wrong IP version") :=
      if_pos hver
    refine .inr ⟨hver, ?_⟩
    unfold datagramFrame Minnow.serialize IPv4Datagram.serialize
    rw [hheader]
    rfl

/-- A message that is supported goes into a frame, which tells it. -/
theorem arpFrame_eq_ok (dst : EthernetAddress) {m : ARPMessage} (h : m.supported) :
    ∃ frame, n.arpFrame dst m = .ok frame ∧ frame.header.type = EthernetHeader.TYPE_ARP ∧
      frame.arpMessage = m := by
  obtain ⟨payload, hpayload, hbytes⟩ := ARPMessage.serialize_wire h
  unfold arpFrame
  rw [hpayload]
  refine ⟨_, rfl, rfl, ?_⟩
  show ARPMessage.ofBytes {} (concat payload) = m
  rw [hbytes, ARPMessage.ofBytes_bytes h]

/-- **Sending at once.** -/
theorem sendDatagram_known {nextHop : Address} {ip : UInt32} {entry : ARPEntry}
    (hhop : nextHop.ipv4Numeric = .ok ip) (hentry : n.arpTable ip = some entry)
    {dgram : IPv4Datagram} (hver : dgram.header.ver = 4) :
    ∃ frame, dgram.CarriedTo entry.ethernetAddr frame ∧
      n.sendDatagram dgram nextHop = { interface := n, transmitted := [frame] } := by
  rcases n.datagramFrame_cases entry.ethernetAddr dgram with ⟨-, frame, hframe, hcarried⟩ | ⟨hne, -⟩
  · refine ⟨frame, hcarried, ?_⟩
    unfold sendDatagram
    simp only [hhop, Effect.tryWith, hentry, hframe]
  · exact absurd hver hne

/-- Nothing is changed where the address is known, whether or not the datagram goes into a frame. -/
theorem sendDatagram_entry {nextHop : Address} {ip : UInt32} {entry : ARPEntry}
    (hhop : nextHop.ipv4Numeric = .ok ip) (hentry : n.arpTable ip = some entry)
    (dgram : IPv4Datagram) :
    (n.sendDatagram dgram nextHop).interface = n ∧
      ∀ frame ∈ (n.sendDatagram dgram nextHop).transmitted,
        dgram.CarriedTo entry.ethernetAddr frame := by
  rcases n.datagramFrame_cases entry.ethernetAddr dgram with ⟨hver, -⟩ | ⟨-, hframe⟩
  · obtain ⟨frame, hcarried, hsend⟩ := n.sendDatagram_known hhop hentry hver
    rw [hsend]
    exact ⟨rfl, by simpa using hcarried⟩
  · unfold sendDatagram
    simp [hhop, Effect.tryWith, hentry, hframe]

/-- **Waiting.**  The datagram is put behind those that wait already; unless a request is out, one
    is sent, if the interface has an address that it can give. -/
theorem sendDatagram_unknown {nextHop : Address} {ip : UInt32}
    (hhop : nextHop.ipv4Numeric = .ok ip) (hentry : n.arpTable ip = none) (dgram : IPv4Datagram) :
    let queued := { n with
      pendingDatagrams := update n.pendingDatagrams ip
        (some ((n.pendingDatagrams ip).getD [] ++ [dgram.copy])) }
    (n.sendDatagram dgram nextHop).interface = queued ∧
        (n.sendDatagram dgram nextHop).transmitted = [] ∧
        (n.pendingArpRequests ip = none → ∃ e, n.ipAddress.ipv4Numeric = .error e) ∨
      ∃ frame, frame.IsRequestFor ip ∧ n.pendingArpRequests ip = none ∧
        n.sendDatagram dgram nextHop
          = { interface := { queued with
                pendingArpRequests := update n.pendingArpRequests ip (some 0) }
              transmitted := [frame] } := by
  intro queued
  have hsend : n.sendDatagram dgram nextHop = n.queueDatagram dgram ip := by
    unfold sendDatagram
    simp only [hhop, Effect.tryWith, hentry]
  rw [hsend]
  dsimp only [queueDatagram]
  -- the datagram is queued; what is left to see is whether a request is sent
  cases hreq : n.pendingArpRequests ip with
  | some time => exact .inl ⟨rfl, rfl, fun h => by cases h⟩
  | none =>
    cases hown : n.ipAddress.ipv4Numeric with
    | error e => exact .inl ⟨rfl, rfl, fun _ => ⟨e, rfl⟩⟩
    | ok own =>
      obtain ⟨frame, hframe, htype, harp⟩ := queued.arpFrame_eq_ok ETHERNET_BROADCAST (m := {
        opcode := ARPMessage.OPCODE_REQUEST
        senderEthernetAddress := n.ethernetAddress
        senderIpAddress := own
        targetEthernetAddress := {}
        targetIpAddress := ip }) rfl
      refine .inr ⟨frame, ⟨htype, by rw [harp], by rw [harp]⟩, rfl, ?_⟩
      simp only [Effect.tryWith]
      simp only [queued] at hframe
      rw [hframe]

/-! ### ARP messages -/

/-- The answer changes nothing; it is transmitted to a request for the interface, and throws on
    requests only, when the interface has no address that it could give. -/
theorem answer_spec :
    (n.answer m).interface = n ∧
      ((n.answer m).transmitted = [] ↔
        (m.opcode = ARPMessage.OPCODE_REQUEST → n.ipAddress.ipv4Numeric ≠ .ok m.targetIpAddress)) ∧
      (∀ frame ∈ (n.answer m).transmitted, frame.IsReply) ∧
      ((n.answer m).thrown ≠ none ↔
        m.opcode = ARPMessage.OPCODE_REQUEST ∧ ∃ e, n.ipAddress.ipv4Numeric = .error e) := by
  unfold answer
  split
  · rename_i hreq
    -- an interface without an address of its own throws before it looks at the target
    cases hnum : n.ipAddress.ipv4Numeric with
    | error e =>
      refine ⟨rfl, ?_, by simp [Effect.tryWith], ?_⟩
      · exact iff_of_true rfl fun _ h => by cases h
      · exact iff_of_true (Option.some_ne_none e) ⟨hreq, e, rfl⟩
    | ok ip =>
      have hquiet : ¬ (m.opcode = ARPMessage.OPCODE_REQUEST ∧
          ∃ e, (.ok ip : Except StdException UInt32) = .error e) := by
        rintro ⟨-, e, h⟩
        cases h
      simp only [Effect.tryWith]
      split
      · rename_i htarget
        obtain ⟨frame, hframe, htype, harp⟩ := n.arpFrame_eq_ok m.senderEthernetAddress (m := {
          opcode := ARPMessage.OPCODE_REPLY
          senderEthernetAddress := n.ethernetAddress
          senderIpAddress := ip
          targetEthernetAddress := m.senderEthernetAddress
          targetIpAddress := m.senderIpAddress }) rfl
        rw [hframe]
        have hreply : frame.IsReply := ⟨htype, by rw [harp]⟩
        refine ⟨rfl, ?_, by simpa using hreply, iff_of_false (fun h => h rfl) hquiet⟩
        refine iff_of_false (List.cons_ne_nil _ _) fun h => ?_
        exact h hreq (by rw [htarget])
      · rename_i htarget
        refine ⟨rfl, iff_of_true rfl fun _ h => ?_, by simp, iff_of_false (fun h => h rfl) hquiet⟩
        cases h
        exact htarget rfl
  · rename_i hreq
    exact ⟨rfl, iff_of_true rfl fun h => absurd h hreq, by simp,
      iff_of_false (fun h => h rfl) fun h => hreq h.1⟩

/-- **The loop over a queue** sends what is before the first datagram that is not of version 4, and
    throws at this. -/
theorem sendQueue_spec {queue : List IPv4Datagram}
    (h : n.pendingDatagrams m.senderIpAddress = some queue) :
    List.Forall₂ (IPv4Datagram.CarriedTo m.senderEthernetAddress)
        (queue.takeWhile (·.header.ver = 4)) (n.sendQueue m queue).transmitted ∧
      ((n.sendQueue m queue).thrown = none ↔ ∀ d ∈ queue, d.header.ver = 4) ∧
      (n.sendQueue m queue).interface = { n with
        pendingDatagrams := update n.pendingDatagrams m.senderIpAddress
          (some (queue.dropWhile (·.header.ver = 4))) } := by
  induction queue generalizing n with
  | nil => exact ⟨.nil, by simp [sendQueue], by simp [sendQueue, ← h]⟩
  | cons dgram rest ih =>
    rw [sendQueue]
    rcases n.datagramFrame_cases m.senderEthernetAddress dgram with
      ⟨hver, frame, hframe, hcarried⟩ | ⟨hver, hframe⟩
    · obtain ⟨hframes, hthrown, hleft⟩ := ih
        { n with pendingDatagrams := update n.pendingDatagrams m.senderIpAddress (some rest) }
        (Function.update_self _ _ _)
      have htake : (dgram :: rest).takeWhile (·.header.ver = 4)
          = dgram :: rest.takeWhile (·.header.ver = 4) :=
        List.takeWhile_cons_of_pos (decide_eq_true hver)
      have hdrop : (dgram :: rest).dropWhile (·.header.ver = 4)
          = rest.dropWhile (·.header.ver = 4) :=
        List.dropWhile_cons_of_pos (decide_eq_true hver)
      rw [hframe, htake, hdrop]
      refine ⟨.cons hcarried hframes, hthrown.trans ?_, hleft.trans ?_⟩
      · rw [List.forall_mem_cons, and_iff_right hver]
      · rw [Function.update_idem]
    · have htake : (dgram :: rest).takeWhile (·.header.ver = 4) = [] :=
        List.takeWhile_cons_of_neg (by simpa using hver)
      have hdrop : (dgram :: rest).dropWhile (·.header.ver = 4) = dgram :: rest :=
        List.dropWhile_cons_of_neg (by simpa using hver)
      rw [hframe, htake, hdrop, ← h, Function.update_eq_self]
      refine ⟨.nil, iff_of_false (Option.some_ne_none _) fun hall => ?_, rfl⟩
      exact hver (hall dgram List.mem_cons_self)

/-- Going on after an effect that did not throw. -/
theorem andThen_of_quiet {e : Effect} (h : e.thrown = none) (f : NetworkInterface → Effect) :
    e.andThen f =
      { f e.interface with transmitted := e.transmitted ++ (f e.interface).transmitted } := by
  unfold Effect.andThen
  rw [h]

/-- Nothing follows an exception. -/
theorem andThen_thrown {e : Effect} (h : e.thrown ≠ none) (f : NetworkInterface → Effect) :
    e.andThen f = e := by
  unfold Effect.andThen
  split
  · rfl
  · rename_i hquiet
    exact absurd hquiet h

/-- A queue of datagrams of version 4 is sent as a whole. -/
theorem takeWhile_version4 {queue : List IPv4Datagram} (h : ∀ d ∈ queue, d.header.ver = 4) :
    queue.takeWhile (·.header.ver = 4) = queue :=
  List.takeWhile_eq_self_iff.mpr fun d hd => decide_eq_true (h d hd)

/-- A queue of datagrams of version 4 goes out in its order, and none is left. -/
theorem sendPending_version4
    (h : ∀ d ∈ (n.pendingDatagrams m.senderIpAddress).getD [], d.header.ver = 4) :
    ∃ frames, List.Forall₂ (IPv4Datagram.CarriedTo m.senderEthernetAddress)
        ((n.pendingDatagrams m.senderIpAddress).getD []) frames ∧
      n.sendPending m = {
        interface := { n with
          pendingDatagrams := update n.pendingDatagrams m.senderIpAddress none }
        transmitted := frames } := by
  unfold sendPending
  cases hqueue : n.pendingDatagrams m.senderIpAddress with
  | none =>
    have hsame : update n.pendingDatagrams m.senderIpAddress none = n.pendingDatagrams :=
      Function.update_eq_self_iff.mpr hqueue.symm
    rw [hsame]
    exact ⟨[], .nil, rfl⟩
  | some queue =>
    rw [hqueue, Option.getD_some] at h
    obtain ⟨hframes, hthrown, hleft⟩ := n.sendQueue_spec m hqueue
    rw [takeWhile_version4 h] at hframes
    refine ⟨_, hframes, (andThen_of_quiet (hthrown.mpr h) _).trans ?_⟩
    rw [hleft, List.append_nil, Function.update_idem]

/-- **A reply** sends all that waits for it, and removes the queue and the request. -/
theorem release_version4 (hreply : m.opcode = ARPMessage.OPCODE_REPLY)
    (h : ∀ d ∈ (n.pendingDatagrams m.senderIpAddress).getD [], d.header.ver = 4) :
    ∃ frames, List.Forall₂ (IPv4Datagram.CarriedTo m.senderEthernetAddress)
        ((n.pendingDatagrams m.senderIpAddress).getD []) frames ∧
      n.release m = {
        interface := { n with
          pendingDatagrams := update n.pendingDatagrams m.senderIpAddress none
          pendingArpRequests := update n.pendingArpRequests m.senderIpAddress none }
        transmitted := frames } := by
  obtain ⟨frames, hframes, hsend⟩ := n.sendPending_version4 m h
  refine ⟨frames, hframes, ?_⟩
  unfold release
  rw [if_pos hreply, hsend, andThen_of_quiet rfl, List.append_nil]

/-- **A reply that throws** has sent what is before the datagram that is not of version 4, and has
    removed neither the queue nor the request. -/
theorem release_throws (hreply : m.opcode = ARPMessage.OPCODE_REPLY) {queue : List IPv4Datagram}
    (hqueue : n.pendingDatagrams m.senderIpAddress = some queue)
    (h : ∃ d ∈ queue, d.header.ver ≠ 4) :
    (n.release m).thrown ≠ none ∧
      List.Forall₂ (IPv4Datagram.CarriedTo m.senderEthernetAddress)
        (queue.takeWhile (·.header.ver = 4)) (n.release m).transmitted ∧
      (n.release m).interface = { n with
        pendingDatagrams := update n.pendingDatagrams m.senderIpAddress
          (some (queue.dropWhile (·.header.ver = 4))) } := by
  obtain ⟨hframes, hthrown, hleft⟩ := n.sendQueue_spec m hqueue
  have hthrows : (n.sendQueue m queue).thrown ≠ none := by
    rw [Ne, hthrown]
    push Not
    exact h
  have hsend : n.sendPending m = n.sendQueue m queue := by
    unfold sendPending
    rw [hqueue]
    exact andThen_thrown hthrows _
  unfold release
  rw [if_pos hreply, hsend, andThen_thrown hthrows]
  exact ⟨hthrows, hframes, hleft⟩

/-- **A reply**, whatever waits for it: all of it is sent, or something throws, and stays at the
    head of the queue. -/
theorem release_cases (hreply : m.opcode = ARPMessage.OPCODE_REPLY) :
    ∃ sent left, (n.pendingDatagrams m.senderIpAddress).getD [] = sent ++ left ∧
      List.Forall₂ (IPv4Datagram.CarriedTo m.senderEthernetAddress) sent
        (n.release m).transmitted ∧
      (left = [] ∧ (n.release m).interface = { n with
          pendingDatagrams := update n.pendingDatagrams m.senderIpAddress none
          pendingArpRequests := update n.pendingArpRequests m.senderIpAddress none } ∨
        left ≠ [] ∧ (n.release m).interface = { n with
          pendingDatagrams := update n.pendingDatagrams m.senderIpAddress (some left) }) := by
  by_cases hall : ∀ d ∈ (n.pendingDatagrams m.senderIpAddress).getD [], d.header.ver = 4
  · obtain ⟨frames, hframes, hrelease⟩ := n.release_version4 m hreply hall
    rw [hrelease]
    exact ⟨_, [], (List.append_nil _).symm, hframes, .inl ⟨rfl, rfl⟩⟩
  · push Not at hall
    cases hqueue : n.pendingDatagrams m.senderIpAddress with
    | none => simp [hqueue] at hall
    | some queue =>
      rw [hqueue, Option.getD_some] at hall
      obtain ⟨-, hframes, hleft⟩ := n.release_throws m hreply hqueue hall
      refine ⟨_, _, List.takeWhile_append_dropWhile.symm, hframes, .inr ⟨?_, hleft⟩⟩
      obtain ⟨d, hd, hver⟩ := hall
      intro hnil
      exact hver (of_decide_eq_true (List.dropWhile_eq_nil_iff.mp hnil d hd))

/-- Sending what waits changes nothing but the queue and the request. -/
theorem release_interface : n.SameButQueues (n.release m).interface := by
  by_cases hreply : m.opcode = ARPMessage.OPCODE_REPLY
  · obtain ⟨sent, left, -, -, ⟨-, hrelease⟩ | ⟨-, hrelease⟩⟩ := n.release_cases m hreply
    · rw [hrelease]
      exact ⟨_, _, rfl⟩
    · rw [hrelease]
      exact ⟨_, _, rfl⟩
  · unfold release
    rw [if_neg hreply]
    exact ⟨_, _, rfl⟩

/-- What a message comes to that was parsed. -/
def hear : Effect := ((n.learn m).answer m).andThen fun n => n.release m

/-- Only requests are answered, so that a reply comes to what it releases. -/
theorem hear_eq_release (hreply : m.opcode = ARPMessage.OPCODE_REPLY) :
    n.hear m = (n.learn m).release m := by
  have hne : m.opcode ≠ ARPMessage.OPCODE_REQUEST := by
    rw [hreply]
    decide
  have hanswer : (n.learn m).answer m = { interface := n.learn m } := if_neg hne
  rw [hear, hanswer, andThen_of_quiet rfl, List.nil_append]

/-- A reply is not answered, and sends all that waits for it. -/
theorem hear_reply (hreply : m.opcode = ARPMessage.OPCODE_REPLY)
    (h : ∀ d ∈ (n.pendingDatagrams m.senderIpAddress).getD [], d.header.ver = 4) :
    ∃ frames, List.Forall₂ (IPv4Datagram.CarriedTo m.senderEthernetAddress)
        ((n.pendingDatagrams m.senderIpAddress).getD []) frames ∧
      n.hear m = {
        interface := { n.learn m with
          pendingDatagrams := update n.pendingDatagrams m.senderIpAddress none
          pendingArpRequests := update n.pendingArpRequests m.senderIpAddress none }
        transmitted := frames } := by
  rw [hear_eq_release n m hreply]
  exact (n.learn m).release_version4 m hreply h

/-- A reply, whatever waits for it. -/
theorem hear_reply_cases (hreply : m.opcode = ARPMessage.OPCODE_REPLY) :
    ∃ sent left, (n.pendingDatagrams m.senderIpAddress).getD [] = sent ++ left ∧
      List.Forall₂ (IPv4Datagram.CarriedTo m.senderEthernetAddress) sent (n.hear m).transmitted ∧
      (left = [] ∧ (n.hear m).interface = { n.learn m with
          pendingDatagrams := update n.pendingDatagrams m.senderIpAddress none
          pendingArpRequests := update n.pendingArpRequests m.senderIpAddress none } ∨
        left ≠ [] ∧ (n.hear m).interface = { n.learn m with
          pendingDatagrams := update n.pendingDatagrams m.senderIpAddress (some left) }) := by
  rw [hear_eq_release n m hreply]
  exact (n.learn m).release_cases m hreply

/-- From another message the interface only learns, and what it transmits are replies. -/
theorem hear_other (hne : m.opcode ≠ ARPMessage.OPCODE_REPLY) :
    (n.hear m).interface = n.learn m ∧ ∀ frame ∈ (n.hear m).transmitted, frame.IsReply := by
  obtain ⟨hinterface, -, harp, -⟩ := (n.learn m).answer_spec m
  by_cases hquiet : ((n.learn m).answer m).thrown = none
  · have hrelease : (n.learn m).release m = { interface := n.learn m } := if_neg hne
    rw [hear, andThen_of_quiet hquiet, hinterface, hrelease, List.append_nil]
    exact ⟨rfl, harp⟩
  · rw [hear, andThen_thrown hquiet]
    exact ⟨hinterface, harp⟩

/-- Whatever is heard changes nothing but the table, queues and requests. -/
theorem hear_interface : (n.learn m).SameButQueues (n.hear m).interface := by
  by_cases hreply : m.opcode = ARPMessage.OPCODE_REPLY
  · rw [hear_eq_release n m hreply]
    exact (n.learn m).release_interface m
  · rw [(n.hear_other m hreply).1]
    exact ⟨_, _, rfl⟩

/-! ### Time -/

/-- The entry for an address is removed by a tick. -/
def EntryExpires (ms : UInt64) (ip : UInt32) : Prop :=
  ∃ entry, n.arpTable ip = some entry ∧ entry.timeElapsed + ms ≥ 30000

/-- The request for an address is removed by a tick. -/
def RequestExpires (ms : UInt64) (ip : UInt32) : Prop :=
  ∃ time, n.pendingArpRequests ip = some time ∧ time + ms ≥ 5000

/-- **A tick** removes entries and requests that expire, and with them the queues. -/
theorem tick_spec (ms : UInt64) (ip : UInt32) :
    (n.EntryExpires ms ip → (n.tick ms).arpTable ip = none) ∧
      (¬ n.EntryExpires ms ip →
        (n.tick ms).arpTable ip = (n.arpTable ip).map fun entry =>
          { entry with timeElapsed := entry.timeElapsed + ms }) ∧
      (n.RequestExpires ms ip → (n.tick ms).pendingArpRequests ip = none) ∧
      (¬ n.RequestExpires ms ip →
        (n.tick ms).pendingArpRequests ip = (n.pendingArpRequests ip).map (· + ms)) ∧
      (n.EntryExpires ms ip ∨ n.RequestExpires ms ip → (n.tick ms).pendingDatagrams ip = none) ∧
      (¬ n.EntryExpires ms ip → ¬ n.RequestExpires ms ip →
        (n.tick ms).pendingDatagrams ip = n.pendingDatagrams ip) := by
  unfold EntryExpires RequestExpires
  simp only [tick, expireRequests, expireEntries, aged]
  rcases Option.eq_none_or_eq_some (n.arpTable ip) with hentry | ⟨entry, hentry⟩ <;>
    rcases Option.eq_none_or_eq_some (n.pendingArpRequests ip) with hreq | ⟨time, hreq⟩
  · simp [hentry, hreq]
  · by_cases hr : time + ms ≥ 5000 <;> simp [hentry, hreq, hr]
  · by_cases he : entry.timeElapsed + ms ≥ 30000 <;> simp [hentry, hreq, he]
  · by_cases he : entry.timeElapsed + ms ≥ 30000 <;> by_cases hr : time + ms ≥ 5000 <;>
      simp [hentry, hreq, he, hr]

/-! ### Frames -/

/-- The buffers of a frame are owned, and none is empty. -/
def Buffered (frame : EthernetFrame) : Prop := ∀ r ∈ frame.payload, r.owned = true ∧ r.get ≠ []

/-- A frame is for the interface. -/
def IsFor (frame : EthernetFrame) : Prop :=
  frame.header.dst = n.ethernetAddress ∨ frame.header.dst = ETHERNET_BROADCAST

variable {n} {frame : EthernetFrame}

/-- Frames for others and of other types are ignored. -/
theorem recvFrame_other (h : n.IsFor frame →
    frame.header.type ≠ EthernetHeader.TYPE_ARP ∧ frame.header.type ≠ EthernetHeader.TYPE_IPv4) :
    n.recvFrame frame = { interface := n } := by
  unfold recvFrame
  split
  · rfl
  · rename_i hmine
    rw [not_and_or, not_not, not_not] at hmine
    obtain ⟨harp, hipv4⟩ := h hmine
    rw [if_neg harp, if_neg hipv4]

/-- The test of the destination, for a frame that is taken. -/
theorem not_ne_of_isFor (hmine : n.IsFor frame) :
    ¬ (frame.header.dst ≠ n.ethernetAddress ∧ frame.header.dst ≠ ETHERNET_BROADCAST) := by
  rw [not_and_or, not_not, not_not]
  exact hmine

/-- A frame that is taken and has an ARP message goes to `recvArp`. -/
theorem recvFrame_eq_recvArp (hmine : n.IsFor frame)
    (htype : frame.header.type = EthernetHeader.TYPE_ARP) :
    n.recvFrame frame = n.recvArp frame.payload := by
  unfold recvFrame
  rw [if_neg (not_ne_of_isFor hmine), if_pos htype]

/-- A frame that is taken and has a datagram goes to `recvDatagram`. -/
theorem recvFrame_eq_recvDatagram (hmine : n.IsFor frame)
    (htype : frame.header.type = EthernetHeader.TYPE_IPv4) :
    n.recvFrame frame = n.recvDatagram frame.payload := by
  have hne : frame.header.type ≠ EthernetHeader.TYPE_ARP := by
    rw [htype]
    decide
  unfold recvFrame
  rw [if_neg (not_ne_of_isFor hmine), if_neg hne, if_pos htype]

/-- The two steps of parsing are those of `parse`. -/
theorem tryWith_parse {α : Type} (n : NetworkInterface) (read : ParserM α) (payload : List Ref)
    (f : α → Effect) :
    (Effect.tryWith n (Parser.new payload) fun parser =>
      .tryWith n (read.run parser) fun result => f result.1) =
      Effect.tryWith n (parse read payload) fun result => f result.1 := by
  unfold parse
  cases Parser.new payload with
  | error e => rfl
  | ok p =>
    show Effect.tryWith n (read.run p) _ = Effect.tryWith n (read.run p >>= _) _
    cases read.run p <;> rfl

/-- The message is heard whatever the flag says of it. -/
theorem recvArp_eq (payload : List Ref) :
    n.recvArp payload = .tryWith n (parse (ARPMessage.parse {}) payload) fun result =>
      n.hear result.1 :=
  tryWith_parse n (ARPMessage.parse {}) payload n.hear

/-- The datagram is queued whatever the flag says of it. -/
theorem recvDatagram_eq (payload : List Ref) :
    n.recvDatagram payload = .tryWith n (parse (IPv4Datagram.parse {}) payload) fun result =>
      { interface := { n with
          datagramsReceived := n.datagramsReceived ++ [result.1.copy] } } :=
  tryWith_parse n (IPv4Datagram.parse {}) payload fun dgram =>
    { interface := { n with datagramsReceived := n.datagramsReceived ++ [dgram.copy] } }

/-- A message is heard when parsing it throws nothing. -/
theorem recvFrame_arp_of_parse (hmine : n.IsFor frame)
    (htype : frame.header.type = EthernetHeader.TYPE_ARP) {result : ARPMessage × Bool}
    (hparse : parse (ARPMessage.parse {}) frame.payload = .ok result) :
    n.recvFrame frame = n.hear frame.arpMessage := by
  have hresult := parse_ok_of_gives (ARPMessage.gives_parse {}) hparse
  rw [recvFrame_eq_recvArp hmine htype, recvArp_eq, hparse, hresult]
  rfl

/-- **What a frame can do**: it is a message that is heard, or a datagram that is queued, or nothing
    is done but that something may be thrown. -/
theorem recvFrame_cases (n : NetworkInterface) (frame : EthernetFrame) :
    (∃ thrown, n.recvFrame frame = { interface := n, thrown }) ∨
      (n.IsFor frame ∧ frame.header.type = EthernetHeader.TYPE_ARP ∧
        n.recvFrame frame = n.hear frame.arpMessage) ∨
      ∃ d success, frame.header.type = EthernetHeader.TYPE_IPv4 ∧
        parse (IPv4Datagram.parse {}) frame.payload = .ok (d, success) ∧
        n.recvFrame frame = { interface := { n with
          datagramsReceived := n.datagramsReceived ++ [d] } } := by
  by_cases hmine : n.IsFor frame
  swap
  · exact .inl ⟨none, recvFrame_other fun h => absurd h hmine⟩
  by_cases harp : frame.header.type = EthernetHeader.TYPE_ARP
  · cases hparse : parse (ARPMessage.parse {}) frame.payload with
    | ok result => exact .inr (.inl ⟨hmine, harp, recvFrame_arp_of_parse hmine harp hparse⟩)
    | error e =>
      refine .inl ⟨some e, ?_⟩
      rw [recvFrame_eq_recvArp hmine harp, recvArp_eq, hparse]
      rfl
  by_cases hipv4 : frame.header.type = EthernetHeader.TYPE_IPv4
  swap
  · exact .inl ⟨none, recvFrame_other fun _ => ⟨harp, hipv4⟩⟩
  rw [recvFrame_eq_recvDatagram hmine hipv4, recvDatagram_eq]
  cases hparse : parse (IPv4Datagram.parse {}) frame.payload with
  | error e => exact .inl ⟨some e, rfl⟩
  | ok result =>
    obtain ⟨d, success⟩ := result
    refine .inr (.inr ⟨d, success, hipv4, rfl, ?_⟩)
    -- a datagram that was parsed is its own copy
    dsimp only [Effect.tryWith]
    rw [(IPv4Datagram.parse_eq_ok hparse).2.1]

/-- An ARP message in buffers that can be read is heard. -/
theorem recvFrame_arp (hmine : n.IsFor frame) (htype : frame.header.type = EthernetHeader.TYPE_ARP)
    (hbuf : Buffered frame) : n.recvFrame frame = n.hear frame.arpMessage :=
  recvFrame_arp_of_parse hmine htype (parse_of_gives (ARPMessage.gives_parse {})
    (fun r hr => (hbuf r hr).1) (gapless_of_nonempty fun r hr => (hbuf r hr).2))

/-- A datagram is queued, where parsing it is defined. -/
theorem recvFrame_ipv4 (hmine : n.IsFor frame)
    (htype : frame.header.type = EthernetHeader.TYPE_IPv4) (hbuf : Buffered frame) :
    if IPv4Datagram.KeepsNone frame.payload then
      n.recvFrame frame
        = { interface := n, thrown := some (.undefinedBehaviour "front() of an empty deque") }
    else ∃ d : IPv4Datagram, n.recvFrame frame = { interface := { n with
      datagramsReceived := n.datagramsReceived ++ [d.copy] } } := by
  rw [recvFrame_eq_recvDatagram hmine htype]
  unfold recvDatagram
  rcases Parser.new_cases frame.payload with ⟨⟨p, hnew, hread⟩, -⟩ | ⟨-, r, hr, hborrowed⟩
  swap
  · rw [(hbuf r hr).1] at hborrowed
    cases hborrowed
  rcases IPv4Datagram.parse_spec hread with ⟨e, -, ⟨-, hgap⟩, -⟩ | hspec
  · -- an empty buffer, which there is none of
    exact absurd (gapless_of_nonempty fun r hr => (hbuf r hr).2) hgap
  split at hspec
  · rename_i hnone
    rw [if_pos hnone]
    simp only [hnew, Effect.tryWith, hspec]
  · rename_i hsome
    rw [if_neg hsome]
    obtain ⟨d, p', hrun, -⟩ := hspec
    refine ⟨d, ?_⟩
    simp only [hnew, Effect.tryWith, hrun]

end NetworkInterface

/-! ### What waits and what is transmitted -/

namespace NetworkInterface

/-- A datagram waits for some next hop. -/
def Waits (n : NetworkInterface) (d : IPv4Datagram) : Prop :=
  ∃ ip queue, n.pendingDatagrams ip = some queue ∧ d ∈ queue

end NetworkInterface

/-- What is left to wait, and what was transmitted, is of some kind. -/
structure Effect.Within (P : IPv4Datagram → Prop) (e : Effect) : Prop where
  waits : ∀ d, e.interface.Waits d → P d
  transmitted : ∀ frame ∈ e.transmitted, frame.header.type = EthernetHeader.TYPE_IPv4 →
    ∃ d, P d ∧ d.Carried frame

namespace NetworkInterface

variable {P : IPv4Datagram → Prop} {n : NetworkInterface}

/-- Without frames there is only what waits. -/
theorem within_quiet {e : Effect} (hnone : e.transmitted = [])
    (h : ∀ d, e.interface.Waits d → P d) : e.Within P where
  waits := h
  transmitted := by simp [hnone]

/-- Two parts that keep to the kind, one after the other. -/
theorem within_andThen {e : Effect} {f : NetworkInterface → Effect} (h : e.Within P)
    (hf : (∀ d, e.interface.Waits d → P d) → (f e.interface).Within P) :
    (e.andThen f).Within P := by
  unfold Effect.andThen
  split
  · exact h
  · have h' := hf h.waits
    refine ⟨h'.waits, fun frame hframe htype => ?_⟩
    rcases List.mem_append.mp hframe with hold | hnew
    · exact h.transmitted frame hold htype
    · exact h'.transmitted frame hnew htype

/-- A queue that was changed is still of the kind, when what is in it now is. -/
theorem waits_update {ip : UInt32} (queue : Option (List IPv4Datagram))
    (h : ∀ d, n.Waits d → P d) (hqueue : ∀ d ∈ queue.getD [], P d) {n' : NetworkInterface}
    (hn' : n'.pendingDatagrams = update n.pendingDatagrams ip queue) : ∀ d, n'.Waits d → P d := by
  rintro d ⟨ip', queue', hpend, hd⟩
  rw [hn'] at hpend
  -- it waits in the queue that was changed, or in another one
  by_cases heq : ip' = ip
  · rw [heq, Function.update_self] at hpend
    rw [hpend] at hqueue
    exact hqueue d hd
  · rw [Function.update_of_ne heq] at hpend
    exact h d ⟨ip', queue', hpend, hd⟩

/-- What is in a queue waits. -/
theorem waits_getD (h : ∀ d, n.Waits d → P d) (ip : UInt32) :
    ∀ d ∈ (n.pendingDatagrams ip).getD [], P d := by
  intro d hd
  cases hqueue : n.pendingDatagrams ip with
  | none => simp [hqueue] at hd
  | some queue =>
    rw [hqueue] at hd
    exact h d ⟨ip, queue, hqueue, hd⟩

/-- A datagram of the kind is sent, or its copy is queued. -/
theorem within_sendDatagram (h : ∀ d, n.Waits d → P d) {dgram : IPv4Datagram} (hd : P dgram)
    (hcopy : P dgram.copy) (nextHop : Address) : (n.sendDatagram dgram nextHop).Within P := by
  cases hhop : nextHop.ipv4Numeric with
  | error e =>
    unfold sendDatagram
    rw [hhop]
    exact within_quiet rfl h
  | ok ip =>
    cases hentry : n.arpTable ip with
    | some entry =>
      obtain ⟨hinterface, hcarried⟩ := n.sendDatagram_entry hhop hentry dgram
      refine ⟨?_, fun frame hframe _ => ⟨dgram, hd, (hcarried frame hframe).toCarried⟩⟩
      rw [hinterface]
      exact h
    | none =>
      have hqueue :
          ∀ d ∈ (some ((n.pendingDatagrams ip).getD [] ++ [dgram.copy])).getD [], P d := by
        intro d hd'
        rcases List.mem_append.mp hd' with hold | hnew
        · exact waits_getD h ip d hold
        · rwa [List.mem_singleton.mp hnew]
      rcases n.sendDatagram_unknown hhop hentry dgram with
        ⟨hinterface, hnone, -⟩ | ⟨frame, hrequest, -, hsend⟩
      · exact within_quiet hnone (waits_update _ h hqueue (by rw [hinterface]))
      · -- the frame is a request
        rw [hsend]
        refine ⟨waits_update _ h hqueue rfl, fun frame' hframe' htype' => ?_⟩
        rw [List.mem_singleton.mp hframe', hrequest.type_eq] at htype'
        exact absurd htype' (by decide)

/-- Sending a queue of such datagrams keeps to the kind. -/
theorem within_sendQueue (m : ARPMessage) {queue : List IPv4Datagram} (h : ∀ d, n.Waits d → P d)
    (hqueue : ∀ d ∈ queue, P d) : (n.sendQueue m queue).Within P := by
  induction queue generalizing n with
  | nil => exact within_quiet rfl h
  | cons dgram rest ih =>
    rw [sendQueue]
    rcases n.datagramFrame_cases m.senderEthernetAddress dgram with
      ⟨-, frame, hframe, hcarried⟩ | ⟨-, hframe⟩
    · have hrest : ∀ d ∈ rest, P d := fun d hd => hqueue d (List.mem_cons_of_mem _ hd)
      have htail := ih (n := { n with
        pendingDatagrams := update n.pendingDatagrams m.senderIpAddress (some rest) })
        (waits_update (some rest) h hrest rfl) hrest
      rw [hframe]
      refine ⟨htail.waits, fun frame' hframe' htype => ?_⟩
      rcases List.mem_cons.mp hframe' with rfl | hlater
      · exact ⟨dgram, hqueue dgram List.mem_cons_self, hcarried.toCarried⟩
      · exact htail.transmitted frame' hlater htype
    · rw [hframe]
      exact within_quiet rfl h

/-- Sending what waits for a next hop keeps to the kind. -/
theorem within_release (m : ARPMessage) (h : ∀ d, n.Waits d → P d) : (n.release m).Within P := by
  have hsend : (n.sendPending m).Within P := by
    unfold sendPending
    split
    · exact within_quiet rfl h
    · rename_i queue hqueue
      have hmem : ∀ d ∈ queue, P d := fun d hd => h d ⟨_, queue, hqueue, hd⟩
      refine within_andThen (within_sendQueue m h hmem) fun h' => ?_
      exact within_quiet rfl (waits_update none h' (by simp) rfl)
  unfold release
  split
  · refine within_andThen hsend fun h' => ?_
    exact within_quiet rfl h'
  · exact within_quiet rfl h

/-- Receiving lets nothing wait that did not, and transmits nothing else. -/
theorem within_recvFrame (h : ∀ d, n.Waits d → P d) (frame : EthernetFrame) :
    (n.recvFrame frame).Within P := by
  rcases n.recvFrame_cases frame with
    ⟨thrown, hrecv⟩ | ⟨-, -, hrecv⟩ | ⟨d, success, -, -, hrecv⟩
  · rw [hrecv]
    exact within_quiet rfl h
  · rw [hrecv]
    obtain ⟨hinterface, -, harp, -⟩ := (n.learn frame.arpMessage).answer_spec frame.arpMessage
    have hlearn : ∀ d, (n.learn frame.arpMessage).Waits d → P d := h
    refine within_andThen ⟨?_, fun frame' hframe' htype => ?_⟩ (within_release frame.arpMessage)
    · rw [hinterface]
      exact hlearn
    · rw [(harp frame' hframe').type_eq] at htype
      exact absurd htype (by decide)
  · rw [hrecv]
    exact within_quiet rfl h

/-- Time only lets datagrams go. -/
theorem waits_tick {ms : UInt64} {d : IPv4Datagram} (h : (n.tick ms).Waits d) : n.Waits d := by
  obtain ⟨ip, queue, hqueue, hd⟩ := h
  obtain ⟨-, -, -, -, hgone, hstays⟩ := n.tick_spec ms ip
  by_cases hexpires : n.EntryExpires ms ip ∨ n.RequestExpires ms ip
  · rw [hgone hexpires] at hqueue
    cases hqueue
  · rw [not_or] at hexpires
    rw [hstays hexpires.1 hexpires.2] at hqueue
    exact ⟨ip, queue, hqueue, hd⟩

end NetworkInterface

end Minnow
