import Minnow.ArpFifo

namespace Minnow

/-!
# Requests and time

Requests for a next hop are at least 5000 ms apart: the last one is still out, or its sender has
been heard, or as much time has passed.

* `ArpRun` — an interface with the time, the messages that it has processed, and the frames that
  it has transmitted;
* `NetworkInterface.HopCase` — what an operation can do for a next hop;
* `ArpRun.Spaced` — what is known of the requests for a next hop, kept by `spaced_step`;
* `ArpRun.requests_apart` — hence the requests of every run are apart.
-/

open Function (update)

namespace InterfaceOp

/-- The message that an operation makes the interface process. -/
def heard (n : NetworkInterface) : InterfaceOp → Option ARPMessage
  | .recvFrame frame =>
    if n.IsFor frame ∧ frame.header.type = EthernetHeader.TYPE_ARP then
      (parse (ARPMessage.parse {}) frame.payload).toOption.map (·.1)
    else none
  | _ => none

/-- The time that passes, in milliseconds. -/
def duration : InterfaceOp → ℕ
  | .tick ms => ms.toNat
  | _ => 0

end InterfaceOp

instance (ip : UInt32) (frame : EthernetFrame) : Decidable (frame.IsRequestFor ip) :=
  decidable_of_iff (frame.header.type = EthernetHeader.TYPE_ARP ∧
      frame.arpMessage.opcode = ARPMessage.OPCODE_REQUEST ∧ frame.arpMessage.targetIpAddress = ip)
    ⟨fun h => ⟨h.1, h.2.1, h.2.2⟩, fun h => ⟨h.type_eq, h.opcode_eq, h.target_eq⟩⟩

/-- The requests for a next hop. -/
def Effect.requestsFor (ip : UInt32) (e : Effect) : List EthernetFrame :=
  e.transmitted.filter fun frame => frame.IsRequestFor ip

/-- An interface with the messages and frames of its past, each with its time. -/
structure ArpRun where
  interface : NetworkInterface
  /-- the time that has passed -/
  time : ℕ := 0
  /-- the messages that were processed -/
  heard : List (ℕ × ARPMessage) := []
  transmitted : List (ℕ × EthernetFrame) := []

namespace ArpRun

/-- What is heard and transmitted in a step is marked with the time at its begin. -/
def step (x : ArpRun) (op : InterfaceOp) : ArpRun :=
  let e := op.act x.interface
  { interface := e.interface
    time := x.time + op.duration
    heard := x.heard ++ (op.heard x.interface).toList.map (x.time, ·)
    transmitted := x.transmitted ++ e.transmitted.map (x.time, ·) }

/-- The run of a new interface through a sequence of operations. -/
def of (ethernetAddress : EthernetAddress) (ipAddress : Address) (ops : List InterfaceOp) :
    ArpRun :=
  Machine.run step { interface := { ethernetAddress, ipAddress } } ops

/-- The times of the requests for a next hop. -/
def requests (x : ArpRun) (ip : UInt32) : List ℕ :=
  (x.transmitted.filter fun sent => sent.2.IsRequestFor ip).map (·.1)

end ArpRun

/-! ### What an operation does for a next hop -/

namespace NetworkInterface

variable {n : NetworkInterface} {ip : UInt32}

/-- A message that is heard was parsed of a frame for the interface. -/
theorem heard_eq_some {op : InterfaceOp} {m : ARPMessage} (h : op.heard n = some m) :
    op.act n = n.hear m ∧
      ∃ frame, op = .recvFrame frame ∧ HopRun.IsFrom m.senderIpAddress n frame := by
  cases op with
  | recvFrame frame =>
    simp only [InterfaceOp.heard] at h
    split at h
    · rename_i hmine
      cases hparse : parse (ARPMessage.parse {}) frame.payload with
      | error e =>
        rw [hparse] at h
        cases h
      | ok result =>
        rw [hparse] at h
        obtain rfl : result.1 = m := Option.some.inj h
        have hresult := parse_ok_of_gives (ARPMessage.gives_parse {}) hparse
        have hmessage : frame.arpMessage = result.1 := by
          rw [hresult]
          rfl
        refine ⟨?_, frame, rfl, hmine.1, hmine.2, by rw [hmessage]⟩
        rw [← hmessage]
        exact recvFrame_arp_of_parse hmine.1 hmine.2 hparse
    · cases h
  | sendDatagram | tick | popReceived => cases h

/-- A frame without a message that is heard changes no map, and nothing is transmitted. -/
theorem recvFrame_of_not_heard {frame : EthernetFrame}
    (h : InterfaceOp.heard n (.recvFrame frame) = none) (ip : UInt32) :
    SameFor ip n (n.recvFrame frame).interface ∧ (n.recvFrame frame).transmitted = [] := by
  simp only [InterfaceOp.heard] at h
  rcases n.recvFrame_cases frame with
    ⟨thrown, hrecv⟩ | ⟨hmine, htype, -⟩ | ⟨d, success, -, -, hrecv⟩
  · rw [hrecv]
    exact ⟨.refl n, rfl⟩
  · rw [if_pos ⟨hmine, htype⟩] at h
    -- parsing throws before anything is done
    cases hparse : parse (ARPMessage.parse {}) frame.payload with
    | error e =>
      rw [recvFrame_eq_recvArp hmine htype, recvArp_eq, hparse]
      exact ⟨.refl n, rfl⟩
    | ok result =>
      rw [hparse] at h
      cases h
  · rw [hrecv]
    exact ⟨⟨rfl, rfl, rfl⟩, rfl⟩

/-- Frames that are no requests for the address. -/
theorem requestsFor_eq_nil {e : Effect} (h : ∀ frame ∈ e.transmitted, ¬ frame.IsRequestFor ip) :
    e.requestsFor ip = [] :=
  List.filter_eq_nil_iff.mpr fun frame hframe => by simpa using h frame hframe

/-- A frame that carries a datagram is no request. -/
theorem not_isRequestFor_of_carried {d : IPv4Datagram} {frame : EthernetFrame}
    (h : d.Carried frame) : ¬ frame.IsRequestFor ip := by
  intro hrequest
  have htype := hrequest.type_eq
  rw [h.type_eq] at htype
  exact absurd htype (by decide)

/-- **What is heard from a next hop**: its address is known, and either nothing is let go, or the
    queue and the request are removed, or a queue that throws is left, with its request. -/
theorem hear_sender (n : NetworkInterface) (m : ARPMessage) :
    (n.hear m).interface.arpTable m.senderIpAddress
        = some { ethernetAddr := m.senderEthernetAddress, timeElapsed := 0 } ∧
      ((n.hear m).interface.pendingDatagrams m.senderIpAddress = none ∧
          (n.hear m).interface.pendingArpRequests m.senderIpAddress = none ∨
        (n.hear m).interface.pendingArpRequests m.senderIpAddress
            = n.pendingArpRequests m.senderIpAddress ∧
          ((n.hear m).interface.pendingDatagrams m.senderIpAddress
              = n.pendingDatagrams m.senderIpAddress ∨
            (n.pendingDatagrams m.senderIpAddress).isSome ∧ ∃ left, left ≠ [] ∧
              (n.hear m).interface.pendingDatagrams m.senderIpAddress = some left)) := by
  have hlearn : (n.learn m).arpTable m.senderIpAddress
      = some { ethernetAddr := m.senderEthernetAddress, timeElapsed := 0 } :=
    Function.update_self _ _ _
  by_cases hreply : m.opcode = ARPMessage.OPCODE_REPLY
  · obtain ⟨sent, left, hqueue, -, ⟨-, hhear⟩ | ⟨hne, hhear⟩⟩ := n.hear_reply_cases m hreply
    · rw [hhear]
      exact ⟨hlearn, .inl ⟨Function.update_self _ _ _, Function.update_self _ _ _⟩⟩
    · rw [hhear]
      refine ⟨hlearn, .inr ⟨rfl, .inr ⟨?_, left, hne, Function.update_self _ _ _⟩⟩⟩
      refine Option.isSome_iff_ne_none.mpr fun hnone => ?_
      rw [hnone] at hqueue
      exact hne (List.append_eq_nil_iff.mp hqueue.symm).2
  · rw [(n.hear_other m hreply).1]
    exact ⟨hlearn, .inr ⟨rfl, .inl rfl⟩⟩

/-! Entries and requests after a tick -/

/-- Entries stay for less than 30 seconds. -/
theorem tick_arpTable_eq_some {ms : UInt64} {entry : ARPEntry} :
    (n.tick ms).arpTable ip = some entry ↔ ∃ entry₀, n.arpTable ip = some entry₀ ∧
      entry₀.timeElapsed + ms < 30000 ∧
        entry = { entry₀ with timeElapsed := entry₀.timeElapsed + ms } := by
  simp only [tick, expireRequests, expireEntries, aged]
  rcases Option.eq_none_or_eq_some (n.arpTable ip) with hentry | ⟨entry₀, hentry⟩
  · simp [hentry]
  · by_cases hlimit : entry₀.timeElapsed + ms ≥ 30000
    · simp [hentry, hlimit]
    · have hlt : entry₀.timeElapsed + ms < 30000 := UInt64.not_le.mp hlimit
      simp [hentry, hlimit, hlt, eq_comm]

/-- Entries go when they expire. -/
theorem tick_arpTable_eq_none {ms : UInt64} :
    (n.tick ms).arpTable ip = none ↔ n.arpTable ip = none ∨ n.EntryExpires ms ip := by
  simp only [tick, expireRequests, expireEntries, aged, EntryExpires]
  cases n.arpTable ip <;> simp

/-- Requests are remembered for less than 5 seconds. -/
theorem tick_pendingArpRequests_eq_some {ms time : UInt64} :
    (n.tick ms).pendingArpRequests ip = some time ↔ ∃ time₀, n.pendingArpRequests ip = some time₀ ∧
      ¬ time₀ + ms ≥ 5000 ∧ time = time₀ + ms := by
  simp only [tick, expireRequests, expireEntries, aged]
  cases n.pendingArpRequests ip <;> simp [eq_comm]

/-- Requests are forgotten when they expire. -/
theorem tick_pendingArpRequests_eq_none {ms : UInt64} :
    (n.tick ms).pendingArpRequests ip = none ↔
      n.pendingArpRequests ip = none ∨ n.RequestExpires ms ip := by
  simp only [tick, expireRequests, expireEntries, aged, RequestExpires]
  cases n.pendingArpRequests ip <;> simp

/-- Nothing that is heard makes the interface send a request. -/
theorem requestsFor_hear (m : ARPMessage) : (n.hear m).requestsFor ip = [] := by
  apply requestsFor_eq_nil
  intro frame hframe
  by_cases hreply : m.opcode = ARPMessage.OPCODE_REPLY
  · obtain ⟨sent, left, -, hframes, -⟩ := n.hear_reply_cases m hreply
    obtain ⟨d, -, hcarried⟩ := exists_of_forall₂ hframes.flip hframe
    exact not_isRequestFor_of_carried hcarried.toCarried
  · intro hrequest
    have hopcode := ((n.hear_other m hreply).2 frame hframe).opcode_eq
    rw [hrequest.opcode_eq] at hopcode
    exact absurd hopcode (by decide)

/-- The interface with a datagram put behind those that wait for a next hop. -/
def queued (n : NetworkInterface) (ip : UInt32) (dgram : IPv4Datagram) : NetworkInterface :=
  { n with
    pendingDatagrams := update n.pendingDatagrams ip
      (some ((n.pendingDatagrams ip).getD [] ++ [dgram.copy])) }

@[simp] theorem queued_pendingDatagrams (n : NetworkInterface) (ip : UInt32)
    (dgram : IPv4Datagram) : (n.queued ip dgram).pendingDatagrams ip
      = some ((n.pendingDatagrams ip).getD [] ++ [dgram.copy]) :=
  Function.update_self _ _ _

/-- **What an operation can do for a next hop.** -/
inductive HopCase (ip : UInt32) (n : NetworkInterface) (op : InterfaceOp) : Prop
  /-- it is of no concern to it -/
  | other (hduration : op.duration = 0) (hheard : ∀ m, op.heard n = some m → m.senderIpAddress ≠ ip)
      (hsame : SameFor ip n (op.act n).interface) (hnone : (op.act n).requestsFor ip = [])
  /-- a datagram waits for it, and no request is sent -/
  | queued (dgram : IPv4Datagram) (nextHop : Address) (hop : op = .sendDatagram dgram nextHop)
      (hhop : nextHop.ipv4Numeric = .ok ip) (hunknown : n.arpTable ip = none)
      (hinterface : (op.act n).interface = n.queued ip dgram) (hnone : (op.act n).transmitted = [])
      (hout : n.pendingArpRequests ip = none → ∃ e, n.ipAddress.ipv4Numeric = .error e)
  /-- a datagram waits for it, and a request is sent -/
  | requested (dgram : IPv4Datagram) (nextHop : Address) (hop : op = .sendDatagram dgram nextHop)
      (hhop : nextHop.ipv4Numeric = .ok ip) (hunknown : n.arpTable ip = none)
      (hquiet : n.pendingArpRequests ip = none)
      (hinterface : (op.act n).interface = { n.queued ip dgram with
        pendingArpRequests := update n.pendingArpRequests ip (some 0) })
      (hrequest : ∃ frame, frame.IsRequestFor ip ∧ (op.act n).transmitted = [frame])
  /-- a message comes from it -/
  | heard (m : ARPMessage) (hheard : op.heard n = some m) (hsender : m.senderIpAddress = ip)
  /-- time passes -/
  | tick (ms : UInt64) (hop : op = .tick ms)

/-- What sending a datagram means to a next hop. -/
theorem hopCase_sendDatagram (n : NetworkInterface) (ip : UInt32) (dgram : IPv4Datagram)
    (nextHop : Address) : HopCase ip n (.sendDatagram dgram nextHop) := by
  have hother : nextHop.ipv4Numeric ≠ .ok ip →
      (n.sendDatagram dgram nextHop).requestsFor ip = [] →
      HopCase ip n (.sendDatagram dgram nextHop) := fun hne hnone =>
    .other rfl (fun _ h => by cases h) (sameFor_sendDatagram dgram hne) hnone
  cases hhop : nextHop.ipv4Numeric with
  | error e =>
    refine hother (by simp [hhop]) ?_
    unfold sendDatagram
    rw [hhop]
    rfl
  | ok ip' =>
    cases hentry : n.arpTable ip' with
    | some entry =>
      -- what is transmitted is the datagram
      obtain ⟨hinterface, hcarried⟩ := n.sendDatagram_entry hhop hentry dgram
      refine .other rfl (fun _ h => by cases h) ?_ (requestsFor_eq_nil fun frame hframe =>
        not_isRequestFor_of_carried (hcarried frame hframe).toCarried)
      simp only [InterfaceOp.act, hinterface]
      exact .refl n
    | none =>
      rcases n.sendDatagram_unknown hhop hentry dgram with
        ⟨hinterface, hnone, hout⟩ | ⟨frame, hrequest, hquiet, hsend⟩
      · by_cases hip : ip' = ip
        · subst hip
          exact .queued dgram nextHop rfl hhop hentry hinterface hnone hout
        · refine hother (by simpa [hhop] using hip) ?_
          rw [Effect.requestsFor, hnone]
          rfl
      · by_cases hip : ip' = ip
        · subst hip
          refine .requested dgram nextHop rfl hhop hentry hquiet ?_ ⟨frame, hrequest, ?_⟩
          · simp only [InterfaceOp.act, hsend]
            rfl
          · simp only [InterfaceOp.act, hsend]
        · refine hother (by simpa [hhop] using hip) (requestsFor_eq_nil ?_)
          intro frame' hframe' h
          apply hip
          rw [hsend] at hframe'
          rw [List.mem_singleton.mp hframe'] at h
          exact hrequest.target_eq.symm.trans h.target_eq

/-- **One operation.** -/
theorem hopCase (n : NetworkInterface) (ip : UInt32) (op : InterfaceOp) : HopCase ip n op := by
  cases op with
  | sendDatagram dgram nextHop => exact n.hopCase_sendDatagram ip dgram nextHop
  | recvFrame frame =>
    cases hheard : InterfaceOp.heard n (.recvFrame frame) with
    | none =>
      obtain ⟨hsame, hnone⟩ := recvFrame_of_not_heard hheard ip
      refine .other rfl (fun m h => ?_) hsame (requestsFor_eq_nil fun frame' hframe' => ?_)
      · rw [hheard] at h
        cases h
      · rw [InterfaceOp.act, hnone] at hframe'
        cases hframe'
    | some m =>
      by_cases hsender : m.senderIpAddress = ip
      · exact .heard m hheard hsender
      · have hact := (heard_eq_some hheard).1
        refine .other rfl (fun m' h => ?_) ?_ ?_
        · rw [hheard] at h
          cases h
          exact hsender
        · rw [hact]
          exact sameFor_hear hsender
        · rw [hact]
          exact requestsFor_hear m
  | tick ms => exact .tick ms rfl
  | popReceived => exact .other rfl (fun _ h => by cases h) ⟨rfl, rfl, rfl⟩ rfl

end NetworkInterface

namespace ArpRun

/-! ### Requests -/

variable {ip : UInt32} {x : ArpRun}

/-- The requests of a step follow those before it. -/
theorem requests_step (x : ArpRun) (ip : UInt32) (op : InterfaceOp) :
    (step x op).requests ip
      = x.requests ip ++ ((op.act x.interface).requestsFor ip).map fun _ => x.time := by
  simp only [requests, step, Effect.requestsFor, List.filter_append, List.map_append,
    List.filter_map, List.map_map]
  rfl

/-- A step without a request for the address adds none. -/
theorem requests_of_none {op : InterfaceOp} (h : (op.act x.interface).requestsFor ip = []) :
    (step x op).requests ip = x.requests ip := by
  rw [requests_step, h, List.map_nil, List.append_nil]

/-- A step that transmits nothing adds no request. -/
theorem requests_of_quiet {op : InterfaceOp} (h : (op.act x.interface).transmitted = []) :
    (step x op).requests ip = x.requests ip := by
  apply requests_of_none
  rw [Effect.requestsFor, h, List.filter_nil]

/-- A step that transmits one request for the address adds it, with the time. -/
theorem requests_of_request {op : InterfaceOp} (h : ∃ frame, frame.IsRequestFor ip ∧
    (op.act x.interface).transmitted = [frame]) :
    (step x op).requests ip = x.requests ip ++ [x.time] := by
  obtain ⟨frame, hrequest, hsent⟩ := h
  have hone : [frame].filter (fun frame => frame.IsRequestFor ip) = [frame] := by
    simpa using hrequest
  rw [requests_step, Effect.requestsFor, hsent, hone]
  rfl

/-- What a message is answered with is no request. -/
theorem requests_of_heard {op : InterfaceOp} {m : ARPMessage}
    (h : op.heard x.interface = some m) : (step x op).requests ip = x.requests ip := by
  apply requests_of_none
  rw [(NetworkInterface.heard_eq_some h).1]
  exact NetworkInterface.requestsFor_hear m

/-- The requests are apart, and the next one is not sent too soon: neither what is recorded of the
    last one nor what has been learned since is older than it, as far as the code can tell. -/
structure Spaced (ip : UInt32) (x : ArpRun) : Prop where
  apart : (x.requests ip).Pairwise fun s t => s + 5000 ≤ t
  out : ∀ s ∈ x.requests ip, ∀ time, x.interface.pendingArpRequests ip = some time →
    s + time.toNat ≤ x.time
  known : ∀ s ∈ x.requests ip, ∀ entry, x.interface.arpTable ip = some entry →
    s + entry.timeElapsed.toNat ≤ x.time
  unknown : ∀ s ∈ x.requests ip, x.interface.arpTable ip = none →
    x.interface.pendingArpRequests ip = none → s + 5000 ≤ x.time

/-- No request is of the future. -/
theorem Spaced.le_time (h : Spaced ip x) {s : ℕ} (hs : s ∈ x.requests ip) : s ≤ x.time := by
  cases hreq : x.interface.pendingArpRequests ip with
  | some time =>
    have hout := h.out s hs time hreq
    omega
  | none =>
    cases hentry : x.interface.arpTable ip with
    | some entry =>
      have hknown := h.known s hs entry hentry
      omega
    | none =>
      have hunknown := h.unknown s hs hentry hreq
      omega

/-- **Time.**  The sums of the code may wrap around, but then they are less. -/
theorem spaced_tick (ms : UInt64) (h : Spaced ip x) : Spaced ip (step x (.tick ms)) := by
  have hrequests : (step x (.tick ms)).requests ip = x.requests ip := requests_of_none rfl
  have htime : (step x (.tick ms)).time = x.time + ms.toNat := rfl
  have htick : (step x (.tick ms)).interface = x.interface.tick ms := rfl
  constructor
  · rw [hrequests]
    exact h.apart
  · intro s hs time hsome
    rw [hrequests] at hs
    rw [htick, NetworkInterface.tick_pendingArpRequests_eq_some] at hsome
    obtain ⟨time₀, hsome₀, -, rfl⟩ := hsome
    have hout := h.out s hs time₀ hsome₀
    have hsum := HopRun.toNat_add_le time₀ ms
    omega
  · intro s hs entry hsome
    rw [hrequests] at hs
    rw [htick, NetworkInterface.tick_arpTable_eq_some] at hsome
    obtain ⟨entry₀, hsome₀, -, rfl⟩ := hsome
    have hknown := h.known s hs entry₀ hsome₀
    have hsum := HopRun.toNat_add_le entry₀.timeElapsed ms
    dsimp only
    omega
  · intro s hs hentry hreq
    rw [hrequests] at hs
    rw [htick, NetworkInterface.tick_arpTable_eq_none] at hentry
    rw [htick, NetworkInterface.tick_pendingArpRequests_eq_none] at hreq
    -- what is removed has been there for long enough
    rcases hreq with hreq | ⟨time, hsome, hlimit⟩
    · rcases hentry with hentry | ⟨entry, hsome, hlimit⟩
      · have hunknown := h.unknown s hs hentry hreq
        omega
      · have hknown := h.known s hs entry hsome
        have hsum := HopRun.toNat_add_le entry.timeElapsed ms
        have hlimit' : 30000 ≤ (entry.timeElapsed + ms).toNat := hlimit
        omega
    · have hout := h.out s hs time hsome
      have hsum := HopRun.toNat_add_le time ms
      have hlimit' : 5000 ≤ (time + ms).toNat := hlimit
      omega

/-- Nothing happens that concerns the requests for a next hop. -/
theorem Spaced.same (h : Spaced ip x) {x' : ArpRun} (hrequests : x'.requests ip = x.requests ip)
    (htime : x'.time = x.time) (htable : x'.interface.arpTable ip = x.interface.arpTable ip)
    (hout : x'.interface.pendingArpRequests ip = x.interface.pendingArpRequests ip) :
    Spaced ip x' := by
  refine ⟨?_, ?_, ?_, ?_⟩ <;> rw [hrequests]
  · exact h.apart
  · rw [htime, hout]
    exact h.out
  · rw [htime, htable]
    exact h.known
  · rw [htime, htable, hout]
    exact h.unknown

/-- Only ticks take time. -/
theorem time_step_of {op : InterfaceOp} (h : op.duration = 0) : (step x op).time = x.time := by
  show x.time + op.duration = x.time
  rw [h, Nat.add_zero]

/-- **Step.**  Requests for one address stay apart. -/
theorem spaced_step (op : InterfaceOp) (h : Spaced ip x) : Spaced ip (step x op) := by
  have hinterface : (step x op).interface = (op.act x.interface).interface := rfl
  cases x.interface.hopCase ip op with
  | other hduration _ hsame hnone =>
    exact h.same (requests_of_none hnone) (time_step_of hduration) hsame.arpTable
      hsame.pendingArpRequests
  | queued dgram nextHop hop _ _ hqueued hnone _ =>
    apply h.same (requests_of_quiet hnone) (time_step_of (by rw [hop]; rfl))
    · rw [hinterface, hqueued]
      rfl
    · rw [hinterface, hqueued]
      rfl
  | requested dgram nextHop hop _ hunknown hquiet hqueued hrequest =>
    have hrequests : (step x op).requests ip = x.requests ip ++ [x.time] :=
      requests_of_request hrequest
    have hold := fun s hs => h.unknown s hs hunknown hquiet
    have hle : ∀ s ∈ x.requests ip ++ [x.time], s ≤ x.time := by
      intro s hs
      rcases List.mem_append.mp hs with hs | hs
      · exact h.le_time hs
      · exact (List.mem_singleton.mp hs).le
    have htime : (step x op).time = x.time := time_step_of (by rw [hop]; rfl)
    refine ⟨?_, ?_, ?_, ?_⟩ <;> rw [hrequests]
    · refine List.pairwise_append.mpr ⟨h.apart, List.pairwise_singleton _ _, fun s hs t ht => ?_⟩
      rw [List.mem_singleton.mp ht]
      exact hold s hs
    · intro s hs time hsome
      rw [hinterface, hqueued] at hsome
      obtain rfl : 0 = time := by simpa using hsome
      rw [htime]
      exact hle s hs
    · intro s hs entry hsome
      rw [hinterface, hqueued] at hsome
      exact absurd (hunknown.symm.trans hsome) (by simp)
    · intro s hs _ hnone
      rw [hinterface, hqueued] at hnone
      simp at hnone
  | heard m hheard hsender =>
    obtain ⟨hact, frame, hop, -⟩ := NetworkInterface.heard_eq_some hheard
    have hrequests : (step x op).requests ip = x.requests ip := requests_of_heard hheard
    obtain ⟨hknown, hrest⟩ := x.interface.hear_sender m
    have htime : (step x op).time = x.time := time_step_of (by rw [hop]; rfl)
    rw [hact] at hinterface
    rw [hsender, ← hinterface] at hknown hrest
    refine ⟨?_, ?_, ?_, ?_⟩ <;> rw [hrequests]
    · exact h.apart
    · intro s hs time hsome
      rcases hrest with ⟨-, hnone⟩ | ⟨hsame, -⟩
      · rw [hnone] at hsome
        cases hsome
      · rw [hsame] at hsome
        rw [htime]
        exact h.out s hs time hsome
    · intro s hs entry hsome
      rw [hknown] at hsome
      cases hsome
      rw [htime]
      exact h.le_time hs
    · intro s _ hnone
      rw [hknown] at hnone
      cases hnone
  | tick ms hop =>
    rw [hop]
    exact spaced_tick ms h

/-- **Requests are apart** in every run. -/
theorem requests_apart (ethernetAddress : EthernetAddress) (ipAddress : Address)
    (ops : List InterfaceOp) (ip : UInt32) :
    ((of ethernetAddress ipAddress ops).requests ip).Pairwise fun s t => s + 5000 ≤ t := by
  have hspaced : Spaced ip (of ethernetAddress ipAddress ops) := by
    refine Machine.run_invariant (fun _ op => spaced_step op) ?_ ops
    exact ⟨.nil, by simp [requests], by simp [requests], by simp [requests]⟩
  exact hspaced.apart

end ArpRun

end Minnow
