import Minnow.NetworkInterface
import Minnow.Library.LastMax

namespace Minnow

/-!
# The router

A router takes the datagrams that its interfaces have received, and sends each out of the
interface that the routing table names for its destination.

The interfaces are distinct objects, and sending on one of them does not call the router again.
What `route` does is `Routed`: the router after it, the calls of `send_datagram` in order, and the
frames they transmitted.  Debug output is left out.

* `matchesRoute_iff` — the comparison under a mask is one of the top bits;
* `bestRoute_eq` — the loop over the table finds the longest match, and the last one of these;
* `Router.route_forwards` — the calls of `send_datagram` are those of the datagrams received, in
  order, and nothing is left in the queues.
-/

/-- Routing table entry -/
structure RouteEntry where
  routePrefix : UInt32 := 0
  prefixLength : UInt8 := 0
  /-- empty for direct -/
  nextHop : Option Address := none
  interfaceNum : ℕ := 0
deriving DecidableEq, Repr

/-- Does a destination match a route's prefix?  No shift is defined for a length above 32. -/
def matchesRoute (destIp routePrefix : UInt32) (prefixLength : UInt8) : Bool :=
  if prefixLength = 0 then true
  else if prefixLength = 32 then destIp = routePrefix
  else
    let mask : UInt32 := (~~~ ((1 <<< UInt64.ofNat (32 - prefixLength.toNat)) - 1 : UInt64)).toUInt32
    destIp &&& mask = routePrefix &&& mask

/-- One round of the loop over the table, which keeps the best route and its length. -/
def considerRoute (destIp : UInt32) (best : Option RouteEntry × UInt8) (route : RouteEntry) :
    Option RouteEntry × UInt8 :=
  if matchesRoute destIp route.routePrefix route.prefixLength then
    if route.prefixLength ≥ best.2 then (some route, route.prefixLength) else best
  else best

/-- The route with the longest matching prefix; among equals the last one. -/
def bestRoute (routingTable : List RouteEntry) (destIp : UInt32) : Option RouteEntry :=
  (routingTable.foldl (considerRoute destIp) (none, 0)).1

/-- The routes and the interfaces; each route leads to one of them. -/
structure Router where
  routingTable : List RouteEntry := []
  interfaces : List NetworkInterface := []
  interfaceNum_lt : ∀ route ∈ routingTable, route.interfaceNum < interfaces.length

/-- A call of `send_datagram`. -/
structure SendCall where
  interfaceNum : ℕ
  dgram : IPv4Datagram
  nextHop : Address
deriving DecidableEq, Repr

/-- What the router does. -/
structure Routed where
  router : Router
  calls : List SendCall := []
  transmitted : List (ℕ × EthernetFrame) := []

/-- Go on from the router left behind. -/
def Routed.andThen (x : Routed) (f : Router → Routed) : Routed :=
  let y := f x.router
  { y with calls := x.calls ++ y.calls, transmitted := x.transmitted ++ y.transmitted }

namespace Router

/-- A router without interfaces. -/
def new : Router := { interfaceNum_lt := by simp }

/-- Add an interface, which gets the next index. -/
def addInterface (r : Router) (interface : NetworkInterface) : Router × ℕ :=
  ({ r with
      interfaces := r.interfaces ++ [interface]
      interfaceNum_lt := fun route hroute => by
        have := r.interfaceNum_lt route hroute
        rw [List.length_append]
        omega },
    r.interfaces.length)

/-- Add a route. -/
def addRoute (r : Router) (routePrefix : UInt32) (prefixLength : UInt8) (nextHop : Option Address)
    (interfaceNum : ℕ) : Except StdException Router :=
  if h : interfaceNum ≥ r.interfaces.length then
    .error (.runtimeError ("Invalid interface number: " ++ toString interfaceNum))
  else
    .ok { r with
      routingTable := r.routingTable ++ [{ routePrefix, prefixLength, nextHop, interfaceNum }]
      interfaceNum_lt := fun route hroute => by
        rcases List.mem_append.mp hroute with hold | hnew
        · exact r.interfaceNum_lt route hold
        · rw [List.mem_singleton.mp hnew]
          exact not_le.mp h }

/-- The router after a method of one of its interfaces. -/
def setInterface (r : Router) (i : ℕ) (interface : NetworkInterface) : Router :=
  { r with
    interfaces := r.interfaces.set i interface
    interfaceNum_lt := fun route hroute => by
      rw [List.length_set]
      exact r.interfaceNum_lt route hroute }

/-- Send a datagram out of an interface; an exception is caught. -/
def sendOut (r : Router) (call : SendCall) : Routed :=
  match r.interfaces[call.interfaceNum]? with
  | none => { router := r }
  | some interface =>
    let e := interface.sendDatagram call.dgram call.nextHop
    { router := r.setInterface call.interfaceNum e.interface
      calls := [call]
      transmitted := e.transmitted.map fun frame => (call.interfaceNum, frame) }

/-- The body of the loop over the datagrams of a queue. -/
def forward (r : Router) (dgram : IPv4Datagram) : Routed :=
  if dgram.header.ttl ≤ 1 then { router := r }
  else
    let dgram := { dgram with header := { dgram.header with ttl := dgram.header.ttl - 1 } }
    match bestRoute r.routingTable dgram.header.dst with
    | none => { router := r }
    | some route =>
      let nextHop := route.nextHop.getD (.fromIpv4Numeric dgram.header.dst)
      r.sendOut { interfaceNum := route.interfaceNum, dgram, nextHop }

/-- The loop over the queue of an interface, for at most so many datagrams. -/
def drain (i : ℕ) : ℕ → Router → Routed
  | 0, r => { router := r }
  | n + 1, r =>
    match r.interfaces[i]? with
    | none => { router := r }
    | some interface =>
      match interface.datagramsReceived with
      | [] => { router := r }
      | dgram :: rest =>
        let r := r.setInterface i { interface with datagramsReceived := rest }
        (r.forward dgram).andThen (drain i n)

/-- The datagrams in the queues of the interfaces. -/
def received (r : Router) : List (List IPv4Datagram) := r.interfaces.map (·.datagramsReceived)

/-- The body of the loop over the interfaces.  Sending adds nothing to a queue, so as many passes
    as there are datagrams are enough (`drain_spec`). -/
def routeFrom (r : Router) (i : ℕ) : Routed := drain i (r.received.getD i []).length r

/-- Route every incoming datagram to its proper outgoing interface. -/
def route (r : Router) : Routed :=
  (List.range r.interfaces.length).foldl (fun x i => x.andThen fun r => r.routeFrom i)
    { router := r }

end Router

/-! ### The routing table -/

/-- The top bits of a destination are those of a route's prefix. -/
def TopBits (destIp : UInt32) (route : RouteEntry) : Prop :=
  destIp.toNat / 2 ^ (32 - route.prefixLength.toNat)
    = route.routePrefix.toNat / 2 ^ (32 - route.prefixLength.toNat)

instance (destIp : UInt32) (route : RouteEntry) : Decidable (TopBits destIp route) :=
  inferInstanceAs (Decidable (_ = _))

/-- The match with the longest prefix, the one added last where several have it. -/
def longestMatch (routingTable : List RouteEntry) (destIp : UInt32) : Option RouteEntry :=
  routingTable.lastMax (fun route => decide (TopBits destIp route)) (·.prefixLength.toNat)

/-- The mask without the low `k` bits. -/
theorem toNat_mask {k : ℕ} (hk : k < 32) :
    (~~~ ((1 <<< UInt64.ofNat k) - 1 : UInt64)).toUInt32.toNat = 2 ^ 32 - 2 ^ k := by
  have hpow : 2 ^ k < 2 ^ 32 := Nat.pow_lt_pow_right (by norm_num) hk
  have hpos : 0 < 2 ^ k := Nat.two_pow_pos k
  have hmod : (UInt64.ofNat k).toNat % 64 = k := by
    rw [UInt64.toNat_ofNat']
    omega
  have hshift : (1 <<< UInt64.ofNat k : UInt64).toNat = 2 ^ k := by
    rw [UInt64.toNat_shiftLeft, hmod, UInt64.toNat_one, Nat.one_shiftLeft,
      Nat.mod_eq_of_lt (by omega)]
  have hle : (1 : UInt64) ≤ 1 <<< UInt64.ofNat k := by
    rw [UInt64.le_iff_toNat_le, hshift]
    exact hpos
  have hones : ((1 <<< UInt64.ofNat k) - 1 : UInt64).toNat = 2 ^ k - 1 := by
    rw [UInt64.toNat_sub_of_le _ _ hle, hshift, UInt64.toNat_one]
  rw [UInt64.toNat_toUInt32, UInt64.toNat_not, hones]
  have hsize : UInt64.size = 2 ^ 64 := rfl
  omega

/-- Under that mask the quotient by `2 ^ k` is left. -/
theorem and_mask {x k : ℕ} (hk : k < 32) (hx : x < 2 ^ 32) :
    x &&& (2 ^ 32 - 2 ^ k) = x / 2 ^ k * 2 ^ k := by
  have hpow : 2 ^ k < 2 ^ 32 := Nat.pow_lt_pow_right (by norm_num) hk
  have hpos : 0 < 2 ^ k := Nat.two_pow_pos k
  have hmask : 2 ^ 32 - 2 ^ k = 2 ^ 32 - (2 ^ k - 1 + 1) := by omega
  apply Nat.eq_of_testBit_eq
  intro i
  rw [Nat.testBit_and, hmask, Nat.testBit_two_pow_sub_succ (by omega), Nat.testBit_two_pow_sub_one,
    Nat.testBit_mul_two_pow, Nat.testBit_div_two_pow]
  by_cases hik : k ≤ i
  · by_cases hi : i < 32
    · simp [hi, hik, Nat.sub_add_cancel hik]
    · -- `x` has no such bit
      have hbit : x.testBit i = false :=
        Nat.testBit_lt_two_pow (hx.trans_le (Nat.pow_le_pow_right (by norm_num) (by omega)))
      simp [hi, hik, Nat.sub_add_cancel hik, hbit]
  · simp [hik, not_le.mp hik]

/-- Two addresses agree under the mask if they agree in the bits above it. -/
theorem and_mask_eq_iff {k : ℕ} (hk : k < 32) (x y : UInt32) :
    (x &&& (~~~ ((1 <<< UInt64.ofNat k) - 1 : UInt64)).toUInt32
        = y &&& (~~~ ((1 <<< UInt64.ofNat k) - 1 : UInt64)).toUInt32) ↔
      x.toNat / 2 ^ k = y.toNat / 2 ^ k := by
  rw [← UInt32.toNat_inj, UInt32.toNat_and, UInt32.toNat_and, toNat_mask hk,
    and_mask hk x.toNat_lt, and_mask hk y.toNat_lt]
  exact Nat.mul_left_inj (Nat.two_pow_pos k).ne'

/-- **The mask.** -/
theorem matchesRoute_iff {destIp : UInt32} {route : RouteEntry}
    (hlen : route.prefixLength.toNat ≤ 32) :
    matchesRoute destIp route.routePrefix route.prefixLength = true ↔ TopBits destIp route := by
  have hdest := destIp.toNat_lt
  have hprefix := route.routePrefix.toNat_lt
  unfold matchesRoute TopBits
  split
  · rename_i hzero
    rw [hzero]
    refine iff_of_true rfl ?_
    show _ / 2 ^ 32 = _ / 2 ^ 32
    rw [Nat.div_eq_of_lt hdest, Nat.div_eq_of_lt hprefix]
  · rename_i hzero
    have hpos : route.prefixLength.toNat ≠ 0 := fun h => hzero (UInt8.toNat_inj.mp h)
    split
    · rename_i hall
      rw [hall, decide_eq_true_eq, ← UInt32.toNat_inj]
      show _ ↔ _ / 1 = _ / 1
      rw [Nat.div_one, Nat.div_one]
    · rw [decide_eq_true_eq]
      exact and_mask_eq_iff (by omega) _ _

/-- A route that is added wins, unless it does not match or there is one with a longer prefix. -/
theorem longestMatch_concat (routes : List RouteEntry) (route : RouteEntry) (destIp : UInt32) :
    longestMatch (routes ++ [route]) destIp
      = if TopBits destIp route then
          match longestMatch routes destIp with
          | none => some route
          | some best =>
            if route.prefixLength.toNat < best.prefixLength.toNat then some best else some route
        else longestMatch routes destIp := by
  unfold longestMatch
  split
  · rename_i htop
    refine (List.lastMax_concat_of ?_).trans ?_
    · exact decide_eq_true htop
    · cases routes.lastMax _ fun route : RouteEntry => route.prefixLength.toNat <;> rfl
  · rename_i htop
    refine List.lastMax_concat_of_not ?_
    exact decide_eq_false htop

/-- **The longest match**: no matching route has a longer prefix, nor one of the same length that
    was added later. -/
theorem longestMatch_eq_some_iff {routingTable : List RouteEntry} {destIp : UInt32}
    {route : RouteEntry} :
    longestMatch routingTable destIp = some route ↔ TopBits destIp route ∧
      ∃ before later, routingTable = before ++ route :: later ∧
        (∀ route' ∈ before, TopBits destIp route' →
          route'.prefixLength.toNat ≤ route.prefixLength.toNat) ∧
        ∀ route' ∈ later, TopBits destIp route' →
          route'.prefixLength.toNat < route.prefixLength.toNat := by
  rw [longestMatch, List.lastMax_eq_some_iff]
  simp only [decide_eq_true_eq]

/-- **The loop over the table.** -/
theorem bestRoute_eq {routingTable : List RouteEntry} {destIp : UInt32}
    (hlen : ∀ route ∈ routingTable, route.prefixLength.toNat ≤ 32) :
    bestRoute routingTable destIp = longestMatch routingTable destIp := by
  suffices hsuff : routingTable.foldl (considerRoute destIp) (none, 0)
      = (longestMatch routingTable destIp,
        ((longestMatch routingTable destIp).map (·.prefixLength)).getD 0) by
    rw [bestRoute, hsuff]
  induction routingTable using List.reverseRecOn with
  | nil => rfl
  | append_singleton routes route ih =>
    have hroute := @matchesRoute_iff destIp route (hlen route (by simp))
    rw [List.foldl_concat, ih fun route' h => hlen route' (List.mem_append_left _ h),
      considerRoute, longestMatch_concat]
    by_cases htop : TopBits destIp route
    · rw [if_pos (hroute.mpr htop), if_pos htop]
      cases longestMatch routes destIp with
      | none => exact if_pos UInt8.zero_le
      | some best =>
        by_cases hlt : route.prefixLength.toNat < best.prefixLength.toNat
        · simp [hlt, UInt8.le_iff_toNat_le]
        · simp [hlt, UInt8.le_iff_toNat_le, not_lt.mp hlt]
    · rw [if_neg (fun h => htop (hroute.mp h)), if_neg htop]

/-! ### Routing -/

/-- The call that a datagram received is to lead to, if any. -/
def forwarded (routingTable : List RouteEntry) (dgram : IPv4Datagram) : Option SendCall :=
  if dgram.header.ttl ≤ 1 then none
  else
    (longestMatch routingTable dgram.header.dst).map fun route =>
      { interfaceNum := route.interfaceNum
        dgram := { dgram with header := { dgram.header with ttl := dgram.header.ttl - 1 } }
        nextHop := route.nextHop.getD (.fromIpv4Numeric dgram.header.dst) }

/-- Sending touches no queue of datagrams received. -/
theorem NetworkInterface.datagramsReceived_sendDatagram (n : NetworkInterface)
    (dgram : IPv4Datagram) (nextHop : Address) :
    (n.sendDatagram dgram nextHop).interface.datagramsReceived = n.datagramsReceived := by
  obtain ⟨pending, requests, heq⟩ := n.sendDatagram_interface dgram nextHop
  rw [heq]

namespace Router

/-- What one part of `route` does: its calls, and the queues it leaves; the table stays. -/
structure Routes (r : Router) (x : Routed) (calls : List SendCall)
    (received : List (List IPv4Datagram)) : Prop where
  calls_eq : x.calls = calls
  received_eq : x.router.received = received
  table_eq : x.router.routingTable = r.routingTable

variable {r : Router}

/-- One part of `route` after the other. -/
theorem Routes.andThen {x : Routed} {f : Router → Routed} {calls calls' : List SendCall}
    {received received' : List (List IPv4Datagram)} (h : Routes r x calls received)
    (h' : Routes x.router (f x.router) calls' received') :
    Routes r (x.andThen f) (calls ++ calls') received' where
  calls_eq := by rw [Routed.andThen, h.calls_eq, h'.calls_eq]
  received_eq := h'.received_eq
  table_eq := h'.table_eq.trans h.table_eq

/-- The queues after one interface was changed. -/
theorem received_setInterface (i : ℕ) (interface : NetworkInterface) :
    (r.setInterface i interface).received = r.received.set i interface.datagramsReceived :=
  List.map_set

/-- A call is made, and touches no queue. -/
theorem routes_sendOut {call : SendCall} (h : call.interfaceNum < r.interfaces.length) :
    Routes r (r.sendOut call) [call] r.received := by
  unfold sendOut
  rw [List.getElem?_eq_getElem h]
  refine ⟨rfl, ?_, rfl⟩
  have hlt : call.interfaceNum < r.received.length := by rwa [received, List.length_map]
  have hsame : r.interfaces[call.interfaceNum].datagramsReceived = r.received[call.interfaceNum] :=
    (List.getElem_map _).symm
  rw [received_setInterface, NetworkInterface.datagramsReceived_sendDatagram, hsame,
    List.set_getElem_self hlt]

/-- **One datagram.** -/
theorem routes_forward (hlen : ∀ route ∈ r.routingTable, route.prefixLength.toNat ≤ 32)
    (dgram : IPv4Datagram) :
    Routes r (r.forward dgram) (forwarded r.routingTable dgram).toList r.received := by
  unfold forward forwarded
  split
  · exact ⟨rfl, rfl, rfl⟩
  · dsimp only
    rw [bestRoute_eq hlen]
    cases hbest : longestMatch r.routingTable dgram.header.dst with
    | none => exact ⟨rfl, rfl, rfl⟩
    | some route =>
      -- the route is one of the table
      obtain ⟨-, before, later, htable, -⟩ := longestMatch_eq_some_iff.mp hbest
      exact routes_sendOut (r.interfaceNum_lt route (by rw [htable]; simp))

/-- **One queue.**  The loop takes one datagram after the other, until there is none. -/
theorem routes_drain {i n : ℕ} {queue : List IPv4Datagram}
    (hlen : ∀ route ∈ r.routingTable, route.prefixLength.toNat ≤ 32)
    (hqueue : r.received[i]? = some queue) (hn : queue.length ≤ n) :
    Routes r (drain i n r) (queue.filterMap (forwarded r.routingTable)) (r.received.set i []) := by
  induction n generalizing r queue with
  | zero =>
    obtain rfl : queue = [] := List.length_eq_zero_iff.mp (Nat.le_zero.mp hn)
    obtain ⟨hlt, hi⟩ := List.getElem?_eq_some_iff.mp hqueue
    refine ⟨rfl, ?_, rfl⟩
    show r.received = _
    rw [← hi, List.set_getElem_self hlt]
  | succ n ih =>
    obtain ⟨interface, hinterface, hreceived⟩ :=
      Option.map_eq_some_iff.mp (List.getElem?_map.symm.trans hqueue)
    subst hreceived
    unfold drain
    rw [hinterface]
    dsimp only
    cases hdgrams : interface.datagramsReceived with
    | nil =>
      obtain ⟨hlt, hi⟩ := List.getElem?_eq_some_iff.mp hqueue
      refine ⟨rfl, ?_, rfl⟩
      show r.received = _
      rw [← hdgrams, ← hi, List.set_getElem_self hlt]
    | cons dgram rest =>
      dsimp only
      set r₀ := r.setInterface i { interface with datagramsReceived := rest } with hr₀
      have hreceived₀ : r₀.received = r.received.set i rest := received_setInterface _ _
      have hforward := routes_forward (r := r₀) hlen dgram
      -- the datagrams behind it are still there, and the table is the same
      have htable := hforward.table_eq
      have hlt : i < r.received.length := (List.getElem?_eq_some_iff.mp hqueue).1
      have hrest : (r₀.forward dgram).router.received[i]? = some rest := by
        rw [hforward.received_eq, hreceived₀, List.getElem?_set_self hlt]
      rw [hdgrams, List.length_cons] at hn
      have hdrain := ih (by rwa [htable]) hrest (by omega)
      rw [htable] at hdrain
      obtain ⟨hcalls, hleft, htable'⟩ := hforward.andThen hdrain
      refine ⟨?_, ?_, htable'⟩
      · rw [hcalls, List.filterMap_cons]
        show (forwarded r.routingTable dgram).toList ++ _ = _
        cases forwarded r.routingTable dgram <;> rfl
      · rw [hleft, hforward.received_eq, hreceived₀, List.set_set]

/-- **All queues up to the `k`-th.** -/
theorem routes_range (hlen : ∀ route ∈ r.routingTable, route.prefixLength.toNat ≤ 32) {k : ℕ}
    (hk : k ≤ r.received.length) :
    Routes r ((List.range k).foldl (fun x i => x.andThen fun r => r.routeFrom i) { router := r })
      ((r.received.take k).flatten.filterMap (forwarded r.routingTable))
      (List.replicate k [] ++ r.received.drop k) := by
  induction k with
  | zero => exact ⟨rfl, rfl, rfl⟩
  | succ k ih =>
    have hpre := ih (by omega)
    rw [List.range_succ, List.foldl_concat]
    set x : Routed := (List.range k).foldl (fun x i => x.andThen fun r => r.routeFrom i)
      { router := r }
    -- the queue that is next is as it was at the beginning
    have hqueue : x.router.received[k]? = some r.received[k] := by
      rw [hpre.received_eq, List.getElem?_append_right (by simp), List.length_replicate,
        Nat.sub_self, List.getElem?_drop, Nat.add_zero, List.getElem?_eq_getElem]
    have hlen' : ∀ route ∈ x.router.routingTable, route.prefixLength.toNat ≤ 32 := by
      rwa [hpre.table_eq]
    have hdrain : Routes x.router (x.router.routeFrom k) _ _ := routes_drain hlen' hqueue (by
      rw [List.getD_eq_getElem?_getD, hqueue, Option.getD_some])
    rw [hpre.table_eq] at hdrain
    obtain ⟨hcalls, hleft, htable⟩ := hpre.andThen (f := fun r => r.routeFrom k) hdrain
    refine ⟨?_, ?_, htable⟩
    · rw [hcalls, List.take_succ_eq_append_getElem (by omega), List.flatten_append,
        List.filterMap_append, List.flatten_singleton]
    · rw [hleft, hpre.received_eq, List.set_append_right _ _ (by simp), List.length_replicate,
        Nat.sub_self, List.drop_eq_getElem_cons (by omega), List.set_cons_zero,
        List.replicate_succ', List.append_assoc]
      rfl

/-- **All queues.** -/
theorem routes_route (hlen : ∀ route ∈ r.routingTable, route.prefixLength.toNat ≤ 32) :
    Routes r r.route (r.received.flatten.filterMap (forwarded r.routingTable))
      (List.replicate r.received.length []) := by
  have hlength : r.received.length = r.interfaces.length := List.length_map _
  have hrange := routes_range hlen (k := r.interfaces.length) hlength.ge
  rw [← hlength, List.take_length, List.drop_length, List.append_nil, hlength] at hrange
  rw [route, hlength]
  exact hrange

/-- **Routing.**  The calls of `send_datagram` are those that the datagrams received lead to,
    interface by interface and in the order of the queues, and no datagram is left in a queue. -/
theorem route_forwards (r : Router)
    (hlen : ∀ route ∈ r.routingTable, route.prefixLength.toNat ≤ 32) :
    r.route.calls
        = (r.interfaces.flatMap (·.datagramsReceived)).filterMap (forwarded r.routingTable) ∧
      ∀ interface ∈ r.route.router.interfaces, interface.datagramsReceived = [] := by
  obtain ⟨hcalls, hreceived, -⟩ := routes_route hlen
  constructor
  · rw [hcalls, received, List.flatMap_def]
  · intro interface hmem
    have hqueue : interface.datagramsReceived ∈ r.route.router.received :=
      List.mem_map_of_mem hmem
    rw [hreceived] at hqueue
    exact List.eq_of_mem_replicate hqueue

/-- Of three routes that match, two have a prefix of 8 bits: the second of them is taken.  A
    datagram for which only the default route is left goes to its gateway, and one whose time is up
    goes nowhere. -/
theorem route_forwards_three :
    let interface : NetworkInterface := { ethernetAddress := {}, ipAddress := {} }
    let dgram (ttl : UInt8) (dst : UInt32) : IPv4Datagram := { header := { ttl, dst } }
    let r : Router :=
      { routingTable := [
          { routePrefix := 0x0a000000, prefixLength := 8, interfaceNum := 0 },
          { routePrefix := 0x0a636363, prefixLength := 8, interfaceNum := 1 },
          { nextHop := some { addr := 0xab434c01 }, interfaceNum := 0 }]
        interfaces := [interface, { interface with
          datagramsReceived := [dgram 9 0x0a000002, dgram 1 0x0a000003, dgram 7 0x01020304] }]
        interfaceNum_lt := by decide }
    r.route.calls = [⟨1, dgram 8 0x0a000002, { addr := 0x0a000002 }⟩,
        ⟨0, dgram 6 0x01020304, { addr := 0xab434c01 }⟩] ∧
      ∀ interface ∈ r.route.router.interfaces, interface.datagramsReceived = [] := by
  intro interface dgram r
  obtain ⟨hcalls, hempty⟩ := route_forwards r (by decide)
  exact ⟨hcalls.trans (by decide), hempty⟩

end Router

end Minnow
