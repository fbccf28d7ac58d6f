import Minnow.InterfaceSpec
import Minnow.Router

namespace Minnow

/-!
# Runs of a router

Frames arrive at the interfaces of a router, which routes and is told the time, in any order.

* `RouterRun.of` — a run, with what it has received, called and transmitted;
* `RouterRun.Traced` — every datagram that waits, and every one that was transmitted in a frame, was
  given to the interface by a call of `route`, for a datagram that had arrived; `traced_of` shows
  this of all runs that begin with new interfaces.
-/

/-- What can happen to a router. -/
inductive RouterOp where
  | recvFrame (i : ℕ) (frame : EthernetFrame)
  | route
  | tick (i : ℕ) (msSinceLastTick : UInt64)
deriving DecidableEq, Repr

/-- What an operation does; an exception goes to the owner. -/
structure RouterEffect extends Routed where
  thrown : Option StdException := none

namespace RouterOp

/-- There is nothing to call where there is no interface. -/
def act (r : Router) : RouterOp → RouterEffect
  | recvFrame i frame =>
    match r.interfaces[i]? with
    | none => { router := r }
    | some interface =>
      let e := interface.recvFrame frame
      { router := r.setInterface i e.interface
        transmitted := e.transmitted.map fun frame => (i, frame)
        thrown := e.thrown }
  | route => { r.route with }
  | tick i msSinceLastTick =>
    match r.interfaces[i]? with
    | none => { router := r }
    | some interface => { router := r.setInterface i (interface.tick msSinceLastTick) }

variable {r : Router} {i : ℕ} {interface : NetworkInterface}

/-- A frame for an interface that there is not is lost. -/
theorem act_recvFrame_none (hi : r.interfaces[i]? = none) (frame : EthernetFrame) :
    act r (recvFrame i frame) = { router := r } := by
  simp only [act, hi]

/-- A frame goes to its interface. -/
theorem act_recvFrame_some (hi : r.interfaces[i]? = some interface) (frame : EthernetFrame) :
    act r (recvFrame i frame) =
      { router := r.setInterface i (interface.recvFrame frame).interface
        transmitted := (interface.recvFrame frame).transmitted.map fun frame => (i, frame)
        thrown := (interface.recvFrame frame).thrown } := by
  simp only [act, hi]

/-- Time for an interface that there is not. -/
theorem act_tick_none (hi : r.interfaces[i]? = none) (ms : UInt64) :
    act r (tick i ms) = { router := r } := by
  simp only [act, hi]

/-- Time passes for one interface. -/
theorem act_tick_some (hi : r.interfaces[i]? = some interface) (ms : UInt64) :
    act r (tick i ms) = { router := r.setInterface i (interface.tick ms) } := by
  simp only [act, hi]

/-- The frame that an operation delivers. -/
def delivers : RouterOp → Option (ℕ × EthernetFrame)
  | recvFrame i frame => some (i, frame)
  | _ => none

end RouterOp

/-- A router with all that it has received, called and transmitted. -/
structure RouterRun where
  router : Router
  received : List (ℕ × EthernetFrame) := []
  calls : List SendCall := []
  transmitted : List (ℕ × EthernetFrame) := []

namespace RouterRun

/-- The owner may go on after an exception. -/
def step (x : RouterRun) (op : RouterOp) : RouterRun :=
  let e := op.act x.router
  { router := e.router
    received := x.received ++ op.delivers.toList
    calls := x.calls ++ e.calls
    transmitted := x.transmitted ++ e.transmitted }

/-- The run of a router through a sequence of operations. -/
def of (r : Router) (ops : List RouterOp) : RouterRun := Machine.run step { router := r } ops

end RouterRun

/-! ### Where it comes from -/

/-- A datagram was given to an interface by one of the calls; what waits is a copy. -/
def GivenBy (calls : List SendCall) (i : ℕ) (d : IPv4Datagram) : Prop :=
  ∃ call ∈ calls, call.interfaceNum = i ∧ (d = call.dgram ∨ d = call.dgram.copy)

/-- What was given stays given by more calls. -/
theorem GivenBy.mono {calls : List SendCall} {i : ℕ} {d : IPv4Datagram} (h : GivenBy calls i d)
    (later : List SendCall) : GivenBy (calls ++ later) i d := by
  obtain ⟨call, hcall, hgiven⟩ := h
  exact ⟨call, List.mem_append_left _ hcall, hgiven⟩

/-- What waits at the interfaces of a router was given to them by the calls. -/
def Router.WaitsFor (calls : List SendCall) (r : Router) : Prop :=
  ∀ i interface, r.interfaces[i]? = some interface → ∀ d, interface.Waits d → GivenBy calls i d

/-- What was transmitted as datagrams was given to the interfaces by the calls. -/
def TransmitsFor (calls : List SendCall) (transmitted : List (ℕ × EthernetFrame)) : Prop :=
  ∀ i frame, (i, frame) ∈ transmitted → frame.header.type = EthernetHeader.TYPE_IPv4 →
    ∃ d, GivenBy calls i d ∧ d.Carried frame

/-- What was transmitted for some calls was so for more. -/
theorem TransmitsFor.mono {calls : List SendCall} {transmitted : List (ℕ × EthernetFrame)}
    (h : TransmitsFor calls transmitted) (later : List SendCall) :
    TransmitsFor (calls ++ later) transmitted := by
  intro i frame hmem htype
  obtain ⟨d, hgiven, hcarried⟩ := h i frame hmem htype
  exact ⟨d, hgiven.mono later, hcarried⟩

/-- More is transmitted for the same calls. -/
theorem TransmitsFor.append {calls : List SendCall} {transmitted later : List (ℕ × EthernetFrame)}
    (h : TransmitsFor calls transmitted) (h' : TransmitsFor calls later) :
    TransmitsFor calls (transmitted ++ later) := by
  intro i frame hmem
  rcases List.mem_append.mp hmem with hold | hnew
  · exact h i frame hold
  · exact h' i frame hnew

namespace Router

variable {calls : List SendCall} {r : Router}

/-- What waits after some calls may wait after more. -/
theorem WaitsFor.mono (h : r.WaitsFor calls) (later : List SendCall) :
    r.WaitsFor (calls ++ later) :=
  fun i interface hi d hd => (h i interface hi d hd).mono later

/-- A method of one interface leaves the others alone. -/
theorem WaitsFor.setInterface (h : r.WaitsFor calls) {i : ℕ} {interface : NetworkInterface}
    (hi : ∀ d, interface.Waits d → GivenBy calls i d) :
    (r.setInterface i interface).WaitsFor calls := by
  intro j other hj d hd
  have hset : (r.interfaces.set i interface)[j]? = some other := hj
  by_cases hij : i = j
  · -- the interface whose method it was
    subst hij
    obtain ⟨hlt, heq⟩ := List.getElem?_eq_some_iff.mp hset
    rw [List.getElem_set_self] at heq
    rw [← heq] at hd
    exact hi d hd
  · rw [List.getElem?_set_ne hij] at hset
    exact h j other hset d hd

/-- The frames of one interface. -/
theorem transmitsFor_map {i : ℕ} {e : Effect} (h : e.Within (GivenBy calls i)) :
    TransmitsFor calls (e.transmitted.map fun frame => (i, frame)) := by
  intro j frame hmem htype
  obtain ⟨frame', hframe, heq⟩ := List.mem_map.mp hmem
  cases heq
  exact h.transmitted frame hframe htype

/-- What a part of `route` leaves and transmits, after some calls, was given to the interfaces by
    these calls and its own. -/
structure Traced (calls : List SendCall) (x : Routed) : Prop where
  waits : x.router.WaitsFor (calls ++ x.calls)
  transmitted : TransmitsFor (calls ++ x.calls) x.transmitted

/-- A part of `route` that does nothing. -/
theorem traced_quiet (h : r.WaitsFor calls) : Traced calls { router := r } where
  waits := h.mono []
  transmitted := by
    intro i frame hmem
    cases hmem

/-- One part of `route` after the other. -/
theorem Traced.andThen {x : Routed} {f : Router → Routed} (h : Traced calls x)
    (hf : x.router.WaitsFor (calls ++ x.calls) → Traced (calls ++ x.calls) (f x.router)) :
    Traced calls (x.andThen f) := by
  -- the calls of both parts are behind those made before
  obtain ⟨hwaits, htransmitted⟩ := hf h.waits
  rw [List.append_assoc] at hwaits htransmitted
  have hfirst := h.transmitted.mono (f x.router).calls
  rw [List.append_assoc] at hfirst
  exact ⟨hwaits, hfirst.append htransmitted⟩

/-- A call gives its datagram to one interface. -/
theorem traced_sendOut (h : r.WaitsFor calls) (call : SendCall) :
    Traced calls (r.sendOut call) := by
  unfold sendOut
  cases hi : r.interfaces[call.interfaceNum]? with
  | none => exact traced_quiet h
  | some interface =>
    have hcall : call ∈ calls ++ [call] := by simp
    have hwithin := NetworkInterface.within_sendDatagram
      (P := GivenBy (calls ++ [call]) call.interfaceNum)
      (fun d hd => (h _ interface hi d hd).mono [call])
      ⟨call, hcall, rfl, .inl rfl⟩ ⟨call, hcall, rfl, .inr rfl⟩ call.nextHop
    exact ⟨(h.mono [call]).setInterface hwithin.waits, transmitsFor_map hwithin⟩

/-- A datagram is given to the interface of its route, or to none. -/
theorem traced_forward (h : r.WaitsFor calls) (dgram : IPv4Datagram) :
    Traced calls (r.forward dgram) := by
  unfold forward
  split
  · exact traced_quiet h
  · dsimp only
    split
    · exact traced_quiet h
    · exact traced_sendOut h _

/-- The datagrams of one queue. -/
theorem traced_drain (i n : ℕ) (h : r.WaitsFor calls) : Traced calls (drain i n r) := by
  induction n generalizing r calls with
  | zero => exact traced_quiet h
  | succ n ih =>
    unfold drain
    cases hi : r.interfaces[i]? with
    | none => exact traced_quiet h
    | some interface =>
      dsimp only
      cases interface.datagramsReceived with
      | nil => exact traced_quiet h
      | cons dgram rest =>
        -- taking a datagram out touches nothing that waits
        have htaken :
            (r.setInterface i { interface with datagramsReceived := rest }).WaitsFor calls :=
          h.setInterface fun d hd => h i interface hi d hd
        exact (traced_forward htaken dgram).andThen ih

/-- The datagrams of all queues. -/
theorem traced_route (h : r.WaitsFor calls) : Traced calls r.route := by
  unfold route
  generalize List.range r.interfaces.length = is
  -- the induction is on the interfaces that are left
  have hall : ∀ x : Routed, Traced calls x →
      Traced calls (is.foldl (fun x i => x.andThen fun r => r.routeFrom i) x) := by
    induction is with
    | nil => exact fun x hx => hx
    | cons i is ih => exact fun x hx => ih _ (hx.andThen fun h' => traced_drain i _ h')
  exact hall _ (traced_quiet h)

end Router

/-! ### What arrives -/

/-- A frame was received that parses as a datagram, with success or without. -/
def Arrived (received : List (ℕ × EthernetFrame)) (d : IPv4Datagram) (success : Bool) : Prop :=
  ∃ i frame, (i, frame) ∈ received ∧
    parse (IPv4Datagram.parse {}) frame.payload = .ok (d, success)

/-- What has arrived stays arrived. -/
theorem Arrived.mono {received : List (ℕ × EthernetFrame)} {d : IPv4Datagram} {success : Bool}
    (h : Arrived received d success) (later : List (ℕ × EthernetFrame)) :
    Arrived (received ++ later) d success := by
  obtain ⟨i, frame, hmem, hparse⟩ := h
  exact ⟨i, frame, List.mem_append_left _ hmem, hparse⟩

namespace NetworkInterface

/-- Receiving a frame puts at most one datagram into the queue: the one it was parsed as. -/
theorem recvFrame_received (n : NetworkInterface) (frame : EthernetFrame) :
    (n.recvFrame frame).interface.datagramsReceived = n.datagramsReceived ∨
      ∃ d success, parse (IPv4Datagram.parse {}) frame.payload = .ok (d, success) ∧
        (n.recvFrame frame).interface.datagramsReceived = n.datagramsReceived ++ [d] := by
  rcases n.recvFrame_cases frame with
    ⟨thrown, hrecv⟩ | ⟨-, -, hrecv⟩ | ⟨d, success, -, hparse, hrecv⟩
  · rw [hrecv]
    exact .inl rfl
  · obtain ⟨pending, requests, hhear⟩ := n.hear_interface frame.arpMessage
    rw [hrecv, hhear]
    exact .inl rfl
  · rw [hrecv]
    exact .inr ⟨d, success, hparse, rfl⟩

end NetworkInterface

/-- A router whose interfaces are new. -/
def Router.IsNew (r : Router) : Prop :=
  ∀ interface ∈ r.interfaces, ∃ ethernetAddress ipAddress,
    interface = { ethernetAddress, ipAddress }

namespace RouterRun

/-- **Provenance.**  The datagrams to be routed have arrived, the calls are for datagrams that have,
    and what waits or was transmitted was given to the interfaces by the calls. -/
structure Traced (table : List RouteEntry) (x : RouterRun) : Prop where
  table_eq : x.router.routingTable = table
  queued : ∀ queue ∈ x.router.received, ∀ d ∈ queue, ∃ success, Arrived x.received d success
  called : ∀ call ∈ x.calls, ∃ d success, Arrived x.received d success ∧
    forwarded table d = some call
  waits : x.router.WaitsFor x.calls
  transmitted : TransmitsFor x.calls x.transmitted

variable {table : List RouteEntry}

/-- The datagrams of one interface, after a method of it. -/
theorem mem_received_setInterface {r : Router} {i : ℕ} {interface : NetworkInterface}
    {queue : List IPv4Datagram} (h : queue ∈ (r.setInterface i interface).received) :
    queue = interface.datagramsReceived ∨ queue ∈ r.received := by
  rw [Router.received_setInterface] at h
  exact (List.mem_or_eq_of_mem_set h).symm

/-- Where there is no interface, at most a frame is lost. -/
theorem Traced.lost {x : RouterRun} (h : x.Traced table) (later : List (ℕ × EthernetFrame)) :
    Traced table { x with received := x.received ++ later } where
  table_eq := h.table_eq
  queued := by
    intro queue hqueue d hd
    obtain ⟨success, harrived⟩ := h.queued queue hqueue d hd
    exact ⟨success, harrived.mono later⟩
  called := by
    intro call hcall
    obtain ⟨d, success, harrived, hforwarded⟩ := h.called call hcall
    exact ⟨d, success, harrived.mono later, hforwarded⟩
  waits := h.waits
  transmitted := h.transmitted

/-- A method of one interface, which lets nothing wait that did not, and takes in what arrives. -/
theorem Traced.method {x : RouterRun} (h : x.Traced table) {i : ℕ} {interface : NetworkInterface}
    (hi : x.router.interfaces[i]? = some interface) {e : Effect}
    (hwithin : e.Within (GivenBy x.calls i))
    (hqueue : ∀ d ∈ e.interface.datagramsReceived, d ∈ interface.datagramsReceived ∨
      ∃ success, Arrived x.received d success) :
    Traced table { x with
      router := x.router.setInterface i e.interface
      transmitted := x.transmitted ++ e.transmitted.map fun frame => (i, frame) } where
  table_eq := h.table_eq
  queued := by
    intro queue hmem d hd
    have hinterface : interface.datagramsReceived ∈ x.router.received :=
      List.mem_map_of_mem (List.mem_of_getElem? hi)
    rcases mem_received_setInterface hmem with rfl | hother
    · -- the queue of the interface, with what the method put into it
      rcases hqueue d hd with hold | harrived
      · exact h.queued _ hinterface d hold
      · exact harrived
    · exact h.queued queue hother d hd
  called := h.called
  waits := h.waits.setInterface hwithin.waits
  transmitted := h.transmitted.append (Router.transmitsFor_map hwithin)

/-- `route` empties the queues, and its calls are for what was in them. -/
theorem Traced.route {x : RouterRun} (h : x.Traced table)
    (hlen : ∀ route ∈ table, route.prefixLength.toNat ≤ 32) :
    Traced table { x with
      router := x.router.route.router
      calls := x.calls ++ x.router.route.calls
      transmitted := x.transmitted ++ x.router.route.transmitted } := by
  obtain rfl := h.table_eq
  obtain ⟨hcalls, hreceived, htable⟩ := Router.routes_route hlen
  have hroute := Router.traced_route h.waits
  refine ⟨htable, ?_, ?_, hroute.waits, (h.transmitted.mono _).append hroute.transmitted⟩
  · -- nothing is left in the queues
    intro queue hqueue d hd
    have hqueue' : queue ∈ x.router.route.router.received := hqueue
    rw [hreceived] at hqueue'
    rw [List.eq_of_mem_replicate hqueue'] at hd
    cases hd
  · intro call hcall
    rcases List.mem_append.mp hcall with hold | hnew
    · exact h.called call hold
    · rw [hcalls, List.mem_filterMap] at hnew
      obtain ⟨d, hd, hforwarded⟩ := hnew
      obtain ⟨queue, hqueue, hd⟩ := List.mem_flatten.mp hd
      obtain ⟨success, harrived⟩ := h.queued queue hqueue d hd
      exact ⟨d, success, harrived, hforwarded⟩

/-- **Step.**  What an operation calls or transmits comes from what has arrived. -/
theorem traced_step (hlen : ∀ route ∈ table, route.prefixLength.toNat ≤ 32) (x : RouterRun)
    (op : RouterOp) (h : x.Traced table) : (x.step op).Traced table := by
  have hcalls : x.calls ++ [] = x.calls := List.append_nil _
  have hreceived : x.received ++ [] = x.received := List.append_nil _
  have htransmitted : x.transmitted ++ [] = x.transmitted := List.append_nil _
  cases op with
  | recvFrame i frame =>
    have hlost := h.lost [(i, frame)]
    cases hi : x.router.interfaces[i]? with
    | none =>
      simp only [step, RouterOp.act_recvFrame_none hi, hcalls, htransmitted]
      exact hlost
    | some interface =>
      simp only [step, RouterOp.act_recvFrame_some hi, hcalls]
      refine hlost.method hi (NetworkInterface.within_recvFrame (h.waits i interface hi) frame) ?_
      intro d hd
      rcases interface.recvFrame_received frame with hsame | ⟨new, success, hparse, hnew⟩
      · rw [hsame] at hd
        exact .inl hd
      · -- what is new has arrived in this frame
        rw [hnew] at hd
        refine (List.mem_append.mp hd).imp_right fun hd => ?_
        rw [List.mem_singleton.mp hd]
        exact ⟨success, i, frame, by simp, hparse⟩
  | route =>
    show Traced table { router := _, received := x.received ++ [], calls := _, transmitted := _ }
    rw [hreceived]
    exact h.route hlen
  | tick i ms =>
    have hnone : x.received ++ (RouterOp.tick i ms).delivers.toList = x.received := hreceived
    cases hi : x.router.interfaces[i]? with
    | none =>
      simp only [step, RouterOp.act_tick_none hi, hcalls, hnone, htransmitted]
      exact h
    | some interface =>
      simp only [step, RouterOp.act_tick_some hi, hcalls, hnone]
      exact h.method (e := { interface := interface.tick ms }) hi
        (NetworkInterface.within_quiet rfl fun d hd =>
          h.waits i interface hi d (NetworkInterface.waits_tick hd)) fun d hd => .inl hd

/-- **Run.**  From a new router on, all that is sent out comes from what has arrived. -/
theorem traced_of {r : Router} (hnew : r.IsNew)
    (hlen : ∀ route ∈ r.routingTable, route.prefixLength.toNat ≤ 32) (ops : List RouterOp) :
    (of r ops).Traced r.routingTable := by
  refine Machine.run_invariant (traced_step hlen) ⟨rfl, ?_, ?_, ?_, ?_⟩ ops
  · intro queue hqueue d hd
    obtain ⟨interface, hinterface, rfl⟩ := List.mem_map.mp hqueue
    obtain ⟨ethernetAddress, ipAddress, rfl⟩ := hnew interface hinterface
    cases hd
  · intro call hcall
    cases hcall
  · rintro i interface hi d ⟨ip, queue, hqueue, -⟩
    obtain ⟨ethernetAddress, ipAddress, rfl⟩ := hnew interface (List.mem_of_getElem? hi)
    cases hqueue
  · intro i frame hmem
    cases hmem

end RouterRun

/-! ### A run -/

/-- A new router between the networks `10.0.0.0/24` and `10.0.1.0/24`. -/
def Router.twoNetworks : Router where
  routingTable := [
    { routePrefix := 0x0a000000, prefixLength := 24, interfaceNum := 0 },
    { routePrefix := 0x0a000100, prefixLength := 24, interfaceNum := 1 }]
  interfaces := [
    { ethernetAddress := ⟨2, 0, 0, 0, 0, 1⟩, ipAddress := { addr := 0x0a000001 } },
    { ethernetAddress := ⟨2, 0, 0, 0, 0, 2⟩, ipAddress := { addr := 0x0a000101 } }]
  interfaceNum_lt := by decide

/-- Its interfaces have done nothing yet. -/
theorem Router.isNew_twoNetworks : Router.twoNetworks.IsNew := by
  intro interface hmem
  rcases List.mem_cons.mp hmem with rfl | hmem
  · exact ⟨_, _, rfl⟩
  · rw [List.mem_singleton.mp hmem]
    exact ⟨_, _, rfl⟩

namespace RouterRun

/-- The header of a datagram for `10.0.1.2`, with its checksum. -/
def relayedHeader : IPv4Header :=
  { len := 20, ttl := 64, cksum := 0x25e1, src := 0x0a000002, dst := 0x0a000102 }

/-- A reply of `10.0.1.2`. -/
def relayReply : EthernetFrame where
  header := { dst := ⟨2, 0, 0, 0, 0, 2⟩, type := EthernetHeader.TYPE_ARP }
  payload := [{ get := [0, 1, 8, 0, 6, 4, 0, 2, 2, 0, 0, 0, 0, 3, 10, 0, 1, 2,
    2, 0, 0, 0, 0, 2, 10, 0, 1, 1] }]

/-- Datagrams without payload come in at one interface and are routed, and the reply comes in at the
    other. -/
def relaying (headers : List IPv4Header) : List RouterOp :=
  headers.map (fun header => .recvFrame 0
    { header := { dst := ⟨2, 0, 0, 0, 0, 1⟩, type := EthernetHeader.TYPE_IPv4 }
      payload := [{ get := header.bytes }] }) ++
  [.route, .recvFrame 1 relayReply]

end RouterRun

end Minnow
