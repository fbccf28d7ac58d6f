import Minnow.Internet
import Minnow.EndToEnd

namespace Minnow

/-!
# Runs of hosts and routers

In every run of hosts and routers over segments that lose, duplicate, delay and reorder frames:

* `Plan.tables_right` — what an interface believes of an IP address is right;
* `Plan.received_travelled` — a datagram that is received has made its way from a host, hop by hop
  along the best routes, with nothing changed but its time to live, and the checksum with it.

`Plan.Honest` is the invariant: what is said of the neighbours is right, and what waits, was
transmitted or was received is on the way of a datagram.
-/

/-- A packet after so many hops. -/
structure Packet.Travelled (origin : Packet) (k : ℕ) (x : Packet) : Prop where
  payload_eq : x.payload = origin.payload
  header_eq : x.header = { origin.header with ttl := x.header.ttl, cksum := x.header.cksum }
  ttl_eq : x.header.ttl.toNat + k = origin.header.ttl.toNat
  alive : k = 0 ∨ 0 < x.header.ttl.toNat

/-- Parsing a packet leaves it where it is. -/
theorem Packet.Travelled.read {origin x : Packet} {k : ℕ} (h : origin.Travelled k x) :
    origin.Travelled k x.read where
  payload_eq := h.payload_eq
  header_eq := by
    have hheader := h.header_eq
    show ({ x.header with cksum := x.header.checksum } : IPv4Header)
      = { origin.header with ttl := x.header.ttl, cksum := x.header.checksum }
    generalize x.header.checksum = cksum
    rw [hheader]
  ttl_eq := h.ttl_eq
  alive := h.alive

/-- One hop more, for a packet that has the time. -/
theorem Packet.Travelled.hop {origin x : Packet} {k : ℕ} (h : origin.Travelled k x)
    (httl : 1 < x.header.ttl) : origin.Travelled (k + 1) x.hop := by
  have hlt : 1 < x.header.ttl.toNat := UInt8.lt_iff_toNat_lt.mp httl
  have hpred : x.hop.header.ttl.toNat = x.header.ttl.toNat - 1 :=
    UInt8.toNat_sub_of_le _ _ (UInt8.le_iff_toNat_le.mpr hlt.le)
  have httl_eq := h.ttl_eq
  refine ⟨h.payload_eq, ?_, by omega, .inr (by omega)⟩
  show ({ x.header with ttl := x.header.ttl - 1 } : IPv4Header) = _
  rw [h.header_eq]
  rfl

/-- A datagram is passed on by at most 254 routers. -/
theorem Packet.Travelled.hops_le {origin x : Packet} {k : ℕ} (h : origin.Travelled k x) :
    k ≤ 254 := by
  have hlt := origin.header.ttl.toNat_lt
  have httl := h.ttl_eq
  rcases h.alive with hzero | halive <;> omega

/-- A copy is the same packet. -/
theorem IPv4Datagram.packet_copy (d : IPv4Datagram) : d.copy.packet = d.packet := by
  have hbytes : concat (d.payload.map fun r => { r with owned := true }) = concat d.payload := by
    rw [concat, List.map_map]
    rfl
  exact congrArg (Packet.mk d.header) hbytes

namespace Plan

variable {η ρ σ : Type} {p : Plan η ρ σ} {sent sent' : List (η × IPv4Datagram × Address)}
  {origin x : Packet} {k : ℕ} {s t : Station η ρ} {ip ip' : UInt32}
  {ethernetAddress : EthernetAddress} {n : NetworkInterface}

/-! ### The way of a datagram -/

/-- A journey changes the time to live, and the checksum, and nothing else. -/
theorem Journey.travelled (h : p.Journey sent origin k s ip x) : origin.Travelled k x := by
  induction h with
  | sent _ _ horigin => exact ⟨rfl, rfl, rfl, .inl rfl⟩
  | routed _ _ _ httl _ _ ih => exact ih.read.hop httl

/-- What hosts send well formed stays so. -/
theorem Journey.wellFormed (h : p.Journey sent origin k s ip x)
    (hsent : ∀ y ∈ sent, y.2.1.packet.WellFormed) : x.WellFormed := by
  induction h with
  | sent hmem _ horigin =>
    rw [← horigin]
    exact hsent _ hmem
  | routed _ _ _ _ _ _ ih => exact ih.read.hop

/-- A journey may have more company. -/
theorem Journey.mono (h : p.Journey sent origin k s ip x) (hsent : sent ⊆ sent') :
    p.Journey sent' origin k s ip x := by
  induction h with
  | sent hmem hhop horigin => exact .sent (hsent hmem) hhop horigin
  | routed _ hsegment hstands httl hroute hhop ih =>
    exact .routed ih hsegment hstands httl hroute hhop

/-- A datagram came to be handed to an interface for a next hop. -/
def Given (p : Plan η ρ σ) (sent : List (η × IPv4Datagram × Address)) (s : Station η ρ)
    (hop : UInt32) (d : IPv4Datagram) : Prop :=
  ∃ origin k, p.Journey sent origin k s hop d.packet

/-- What was given before more was sent. -/
theorem Given.mono {d : IPv4Datagram} (h : p.Given sent s ip d) (hsent : sent ⊆ sent') :
    p.Given sent' s ip d := by
  obtain ⟨origin, k, hjourney⟩ := h
  exact ⟨origin, k, hjourney.mono hsent⟩

/-- A copy counts as given. -/
theorem Given.copy {d : IPv4Datagram} (h : p.Given sent s ip d) : p.Given sent s ip d.copy := by
  obtain ⟨origin, k, hjourney⟩ := h
  exact ⟨origin, k, d.packet_copy.symm ▸ hjourney⟩

/-! ### One station -/

/-- What is known of the interface of a station. -/
structure Attached (p : Plan η ρ σ) (sent : List (η × IPv4Datagram × Address)) (s : Station η ρ)
    (n : NetworkInterface) : Prop where
  truthful : ∃ ip ethernetAddress, p.Stands s ip ethernetAddress ∧
    n.Truthful ip ethernetAddress (p.Neighbour s) (p.Given sent s)
  received : ∀ d ∈ n.datagramsReceived, ∃ origin k, p.Arrives sent origin k s d.packet

/-- What is known of a frame that a station has transmitted. -/
def Tells (p : Plan η ρ σ) (sent : List (η × IPv4Datagram × Address)) (s : Station η ρ)
    (frame : EthernetFrame) : Prop :=
  ∃ ip ethernetAddress, p.Stands s ip ethernetAddress ∧
    frame.Tells ip ethernetAddress (p.Neighbour s) (p.Given sent s)

/-- What is known stays known when more is sent. -/
theorem Attached.mono (h : p.Attached sent s n) (hsent : sent ⊆ sent') :
    p.Attached sent' s n := by
  obtain ⟨⟨ip, ethernetAddress, hstands, htruthful⟩, hreceived⟩ := h
  refine ⟨⟨ip, ethernetAddress, hstands, htruthful.mono fun hop d hd => hd.mono hsent⟩,
    fun d hd => ?_⟩
  obtain ⟨origin, k, s', ip', ethernetAddress', y, hsegment, hstands', hjourney, hread⟩ :=
    hreceived d hd
  exact ⟨origin, k, s', ip', ethernetAddress', y, hsegment, hstands', hjourney.mono hsent, hread⟩

/-- What was told stays told when more is sent. -/
theorem Tells.mono {frame : EthernetFrame} (h : p.Tells sent s frame) (hsent : sent ⊆ sent') :
    p.Tells sent' s frame := by
  obtain ⟨ip, ethernetAddress, hstands, htells⟩ := h
  exact ⟨ip, ethernetAddress, hstands, htells.mono fun hop d hd => hd.mono hsent⟩

/-- What a method of an interface leaves and transmits. -/
structure Does (p : Plan η ρ σ) (sent : List (η × IPv4Datagram × Address)) (s : Station η ρ)
    (e : Effect) : Prop where
  attached : p.Attached sent s e.interface
  tells : ∀ frame ∈ e.transmitted, p.Tells sent s frame

/-- A truthful method with good datagrams in its queue is what a station does. -/
theorem does_of_truthful {e : Effect} (hstands : p.Stands s ip ethernetAddress)
    (htruthful : e.Truthful ip ethernetAddress (p.Neighbour s) (p.Given sent s))
    (hreceived : ∀ d ∈ e.interface.datagramsReceived,
      ∃ origin k, p.Arrives sent origin k s d.packet) : p.Does sent s e :=
  ⟨⟨⟨ip, ethernetAddress, hstands, htruthful.interface⟩, hreceived⟩,
    fun frame hframe => ⟨ip, ethernetAddress, hstands, htruthful.tells frame hframe⟩⟩

/-- **Sending** a datagram that is on its way. -/
theorem Attached.sendDatagram (h : p.Attached sent s n) {dgram : IPv4Datagram} {nextHop : Address}
    (hgiven : ∀ hop, nextHop.ipv4Numeric = .ok hop → p.Given sent s hop dgram) :
    p.Does sent s (n.sendDatagram dgram nextHop) := by
  obtain ⟨⟨ip, ethernetAddress, hstands, htruthful⟩, hreceived⟩ := h
  refine does_of_truthful hstands (NetworkInterface.truthful_sendDatagram htruthful
    fun hop hhop => ⟨hgiven hop hhop, (hgiven hop hhop).copy⟩) ?_
  rw [n.datagramsReceived_sendDatagram]
  exact hreceived

/-- **Receiving** a frame of the same segment. -/
theorem Attached.recvFrame (hp : p.Proper) (h : p.Attached sent t n)
    (hsent : ∀ y ∈ sent, y.2.1.packet.WellFormed) {frame frame' : EthernetFrame}
    (hsegment : p.segment s = p.segment t) (hsame : frame.SameBytes frame')
    (htells : p.Tells sent s frame') : p.Does sent t (n.recvFrame frame) := by
  obtain ⟨⟨ip, ethernetAddress, hstands, htruthful⟩, hreceived⟩ := h
  obtain ⟨ip', ethernetAddress', hstands', htells⟩ := htells
  have hmessage : frame.arpMessage = frame'.arpMessage :=
    congrArg (ARPMessage.ofBytes {}) hsame.payload_eq
  refine does_of_truthful hstands (NetworkInterface.truthful_recvFrame htruthful fun htype => ?_) ?_
  · -- the sender of an ARP message is on the segment
    rcases htells with ⟨-, hip, haddress⟩ | ⟨hop, d, -, -, hcarried⟩
    · rw [hmessage, hip, haddress]
      exact ⟨s, hsegment, hstands'⟩
    · rw [hsame.header_eq, hcarried.type_eq] at htype
      exact absurd htype (by decide)
  · by_cases hmine : n.IsFor frame
    swap
    · rw [NetworkInterface.recvFrame_other fun h => absurd h hmine]
      exact hreceived
    rcases n.recvFrame_cases frame with
      ⟨thrown, hrecv⟩ | ⟨-, -, hrecv⟩ | ⟨d, success, htype, hparse, hrecv⟩
    · rw [hrecv]
      exact hreceived
    · obtain ⟨pending, requests, hhear⟩ := n.hear_interface frame.arpMessage
      rw [hrecv, hhear]
      exact hreceived
    · -- a datagram, for the station that it goes to
      rcases htells with ⟨htype', -⟩ | ⟨hop, d₀, ⟨u, hsegment', hstandsu⟩, hgiven, hcarried⟩
      · rw [hsame.header_eq, htype'] at htype
        exact absurd htype (by decide)
      obtain ⟨origin, k, hjourney⟩ := hgiven
      have hwf := hjourney.wellFormed hsent
      have hdst : frame'.header.dst = ethernetAddress := by
        rw [← hsame.header_eq, ← htruthful.ethernetAddress_eq]
        refine hmine.resolve_right fun hbroadcast => ?_
        obtain ⟨nu, hnu, -, haddress⟩ := hstandsu
        obtain ⟨address, ipAddress, ipu, rfl, -, hne⟩ := hp.fresh u nu hnu
        exact hne (haddress.trans (hsame.header_eq ▸ hbroadcast))
      rw [hdst] at hstandsu
      obtain rfl := hp.distinct u t _ _ _ hstandsu hstands (hsegment'.trans hsegment)
      have hread : d.packet = d₀.packet.read := IPv4Datagram.packet_of_parse hwf
        (hsame.payload_eq.trans (hcarried.concat_eq hwf.fits.ver_eq)) hparse
      rw [hrecv]
      intro d' hd'
      rcases List.mem_append.mp hd' with hold | hnew
      · exact hreceived d' hold
      · obtain rfl := List.mem_singleton.mp hnew
        exact ⟨origin, k, s, hop, _, _, hsegment, hstandsu, hjourney, hread⟩

/-- Time passes. -/
theorem Attached.tick (h : p.Attached sent s n) (ms : UInt64) : p.Attached sent s (n.tick ms) := by
  obtain ⟨⟨ip, ethernetAddress, hstands, htruthful⟩, hreceived⟩ := h
  exact ⟨⟨ip, ethernetAddress, hstands, NetworkInterface.truthful_tick htruthful ms⟩, hreceived⟩

/-- Datagrams are taken off the queue. -/
theorem Attached.setReceived (h : p.Attached sent s n) {datagramsReceived : List IPv4Datagram}
    (hsubset : datagramsReceived ⊆ n.datagramsReceived) :
    p.Attached sent s { n with datagramsReceived } := by
  obtain ⟨⟨ip, ethernetAddress, hstands, htruthful⟩, hreceived⟩ := h
  exact ⟨⟨ip, ethernetAddress, hstands, htruthful.setReceived _⟩,
    fun d hd => hreceived d (hsubset hd)⟩

/-! ### One router -/

/-- What is known of a router. -/
structure Routes (p : Plan η ρ σ) (sent : List (η × IPv4Datagram × Address)) (r : ρ)
    (router : Router) : Prop where
  attached : ∀ i n, router.interfaces[i]? = some n → p.Attached sent (.port r i) n
  table_eq : router.routingTable = (p.router r).routingTable

/-- What a part of `route` leaves and transmits. -/
structure Forwards (p : Plan η ρ σ) (sent : List (η × IPv4Datagram × Address)) (r : ρ)
    (y : Routed) : Prop where
  routes : p.Routes sent r y.router
  tells : ∀ i frame, (i, frame) ∈ y.transmitted → p.Tells sent (.port r i) frame

variable {r : ρ} {router : Router}

/-- A part of `route` that transmits nothing. -/
theorem Routes.quiet (h : p.Routes sent r router) (calls : List SendCall) :
    p.Forwards sent r { router, calls } :=
  ⟨h, fun _ _ hmem => absurd hmem List.not_mem_nil⟩

/-- One part of `route` after the other. -/
theorem Forwards.andThen {y : Routed} {f : Router → Routed} (h : p.Forwards sent r y)
    (hf : p.Routes sent r y.router → p.Forwards sent r (f y.router)) :
    p.Forwards sent r (y.andThen f) := by
  obtain ⟨hroutes, htells⟩ := hf h.routes
  refine ⟨hroutes, fun i frame hmem => ?_⟩
  rcases List.mem_append.mp hmem with hold | hnew
  · exact h.tells i frame hold
  · exact htells i frame hnew

/-- A method of one interface. -/
theorem Routes.setInterface (h : p.Routes sent r router) {i : ℕ}
    (hn : p.Attached sent (.port r i) n) : p.Routes sent r (router.setInterface i n) where
  attached j m hm := by
    have hm' : (router.interfaces.set i n)[j]? = some m := hm
    rw [List.getElem?_set] at hm'
    split at hm'
    · rename_i heq
      subst heq
      split at hm'
      · obtain rfl := Option.some.inj hm'
        exact hn
      · cases hm'
    · exact h.attached j m hm'
  table_eq := h.table_eq

/-- A datagram is handed to an interface. -/
theorem Routes.sendOut (h : p.Routes sent r router) (call : SendCall)
    (hgiven : ∀ hop, call.nextHop.ipv4Numeric = .ok hop →
      p.Given sent (.port r call.interfaceNum) hop call.dgram) :
    p.Forwards sent r (router.sendOut call) := by
  unfold Router.sendOut
  cases hinterface : router.interfaces[call.interfaceNum]? with
  | none => exact h.quiet []
  | some interface =>
    obtain ⟨hattached, htells⟩ := (h.attached _ interface hinterface).sendDatagram hgiven
    refine ⟨h.setInterface hattached, fun j frame hmem => ?_⟩
    obtain ⟨frame', hframe', heq⟩ := List.mem_map.mp hmem
    obtain ⟨rfl, rfl⟩ := Prod.mk.inj heq
    exact htells frame' hframe'

/-- **One datagram**, which has arrived at one of the interfaces. -/
theorem Routes.forward (hp : p.Proper) (h : p.Routes sent r router) {i : ℕ} {dgram : IPv4Datagram}
    (harrives : p.Arrives sent origin k (.port r i) dgram.packet) :
    p.Forwards sent r (router.forward dgram) := by
  have hlen : ∀ route ∈ router.routingTable, route.prefixLength.toNat ≤ 32 := by
    rw [h.table_eq]
    exact hp.prefixLength_le r
  unfold Router.forward
  split
  · exact h.quiet []
  rename_i httl
  dsimp only
  rw [bestRoute_eq hlen]
  cases hbest : longestMatch router.routingTable dgram.header.dst with
  | none => exact h.quiet []
  | some route =>
    refine h.sendOut _ fun hop hhop => ⟨origin, k + 1, ?_⟩
    obtain ⟨s, ip, ethernetAddress, y, hsegment, hstands, hjourney, hread⟩ := harrives
    have hheader : dgram.header = { y.header with cksum := y.header.checksum } :=
      congrArg Packet.header hread
    have hdst : dgram.header.dst = y.header.dst := by rw [hheader]
    have hlive : 1 < y.header.ttl := by
      rw [hheader] at httl
      exact UInt8.not_le.mp httl
    rw [h.table_eq, hdst] at hbest
    rw [hdst] at hhop
    have hpacket : IPv4Datagram.packet { dgram with
        header := { dgram.header with ttl := dgram.header.ttl - 1 } } = y.read.hop := by
      rw [← hread]
      rfl
    rw [hpacket]
    exact hjourney.routed hsegment hstands hlive hbest hhop

/-- **One queue.** -/
theorem Routes.drain (hp : p.Proper) (h : p.Routes sent r router) (i m : ℕ) :
    p.Forwards sent r (Router.drain i m router) := by
  induction m generalizing router with
  | zero => exact h.quiet []
  | succ m ih =>
    unfold Router.drain
    cases hinterface : router.interfaces[i]? with
    | none => exact h.quiet []
    | some interface =>
      dsimp only
      have hattached := h.attached i interface hinterface
      cases hdgrams : interface.datagramsReceived with
      | nil => exact h.quiet []
      | cons dgram rest =>
        obtain ⟨origin, k, harrives⟩ := hattached.received dgram (hdgrams ▸ List.mem_cons_self)
        have hrest : p.Attached sent (.port r i) { interface with datagramsReceived := rest } :=
          hattached.setReceived (hdgrams ▸ List.subset_cons_self dgram rest)
        exact ((h.setInterface hrest).forward hp harrives).andThen fun h' => ih h'

/-- **All queues.** -/
theorem Routes.route (hp : p.Proper) (h : p.Routes sent r router) :
    p.Forwards sent r router.route := by
  have hall : ∀ (is : List ℕ) (y : Routed), p.Forwards sent r y →
      p.Forwards sent r (is.foldl (fun y i => y.andThen fun r => r.routeFrom i) y) := by
    intro is
    induction is with
    | nil => exact fun y hy => hy
    | cons i is ih => exact fun y hy => ih _ (hy.andThen fun h' => h'.drain hp i _)
  exact hall _ _ (h.quiet [])

/-! ### Runs -/

/-- **The invariant.** -/
structure Honest (p : Plan η ρ σ) (c : Internet η ρ) : Prop where
  attached : ∀ s n, c.at? s = some n → p.Attached c.sent s n
  table_eq : ∀ r, (c.router r).routingTable = (p.router r).routingTable
  tells : ∀ s frame, (s, frame) ∈ c.transmitted → p.Tells c.sent s frame
  wellFormed : ∀ y ∈ c.sent, y.2.1.packet.WellFormed

/-- At the beginning nobody has learned or told anything. -/
theorem honest_start (hp : p.Proper) : p.Honest p.start where
  attached s n hn := by
    obtain ⟨ethernetAddress, ipAddress, ip, rfl, hip, -⟩ := hp.fresh s n hn
    refine ⟨⟨ip, ethernetAddress, ⟨_, hn, hip, rfl⟩, rfl, hip, ?_, ?_⟩, ?_⟩
    · nofun
    · exact fun hop d hd => absurd hd List.not_mem_nil
    · exact fun d hd => absurd hd List.not_mem_nil
  table_eq _ := rfl
  tells _ _ hmem := absurd hmem List.not_mem_nil
  wellFormed _ hmem := absurd hmem List.not_mem_nil

variable {c : Internet η ρ}

/-- What is known of the ports of a router. -/
theorem Honest.routes (h : p.Honest c) (r : ρ) : p.Routes c.sent r (c.router r) :=
  ⟨fun i n hn => h.attached (.port r i) n hn, h.table_eq r⟩

/-- What arrives was told on the same segment. -/
theorem Honest.recvFrame (hp : p.Proper) (h : p.Honest c) {op : InternetOp η ρ}
    (hop : p.Carries c op) {frame : EthernetFrame} (hdelivers : op.delivers = some (t, frame))
    (hn : c.at? t = some n) : p.Does c.sent t (n.recvFrame frame) := by
  obtain ⟨⟨s, frame'⟩, hmem, hsegment, hsame⟩ := hop.unforged (t, frame) hdelivers
  exact (h.attached t n hn).recvFrame hp h.wellFormed hsegment hsame (h.tells s frame' hmem)

/-- What the owner of a host does, or what arrives at it. -/
theorem Honest.hostDoes (hp : p.Proper) (h : p.Honest c) {host : η} {op : InterfaceOp}
    (hop : p.Carries c (.host host op)) {sent : List (η × IPv4Datagram × Address)}
    (hsent : sent = c.sent ++ op.sends.toList.map (host, ·)) :
    p.Does sent (.host host) (op.act (c.host host)) := by
  have hattached := h.attached (.host host) (c.host host) rfl
  subst hsent
  cases op with
  | sendDatagram dgram nextHop =>
    refine (hattached.mono (List.subset_append_left _ _)).sendDatagram fun hop hhop => ?_
    exact ⟨dgram.packet, 0, .sent (List.mem_append_right _ List.mem_cons_self) hhop rfl⟩
  | recvFrame frame =>
    show p.Does (c.sent ++ []) _ _
    rw [List.append_nil]
    exact h.recvFrame hp hop rfl rfl
  | tick ms =>
    refine ⟨(hattached.tick ms).mono (List.subset_append_left _ _), ?_⟩
    exact fun frame hframe => absurd hframe List.not_mem_nil
  | popReceived =>
    have hpop := hattached.setReceived (List.tail_subset (c.host host).datagramsReceived)
    refine ⟨hpop.mono (List.subset_append_left _ _), ?_⟩
    exact fun frame hframe => absurd hframe List.not_mem_nil

/-- What the owner of a router does, or what arrives at it. -/
theorem Honest.routerDoes (hp : p.Proper) (h : p.Honest c) {r : ρ} {op : RouterOp}
    (hop : p.Carries c (.router r op)) :
    p.Forwards c.sent r (op.act (c.router r)).toRouted := by
  have hroutes := h.routes r
  cases op with
  | recvFrame i frame =>
    cases hi : (c.router r).interfaces[i]? with
    | none =>
      rw [RouterOp.act_recvFrame_none hi]
      exact hroutes.quiet []
    | some interface =>
      rw [RouterOp.act_recvFrame_some hi]
      obtain ⟨hattached, htells⟩ := h.recvFrame hp hop rfl (t := .port r i) hi
      refine ⟨hroutes.setInterface hattached, fun j frame' hmem => ?_⟩
      obtain ⟨frame'', hframe'', heq⟩ := List.mem_map.mp hmem
      obtain ⟨rfl, rfl⟩ := Prod.mk.inj heq
      exact htells frame'' hframe''
  | route => exact hroutes.route hp
  | tick i ms =>
    cases hi : (c.router r).interfaces[i]? with
    | none =>
      rw [RouterOp.act_tick_none hi]
      exact hroutes.quiet []
    | some interface =>
      rw [RouterOp.act_tick_some hi]
      exact (hroutes.setInterface ((hroutes.attached i interface hi).tick ms)).quiet []

variable [DecidableEq η] [DecidableEq ρ]

/-- **Step.** -/
theorem Honest.step (hp : p.Proper) (h : p.Honest c) {op : InternetOp η ρ}
    (hop : p.Carries c op) : p.Honest (c.step op) := by
  cases op with
  | host host op =>
    obtain ⟨hattached, htells⟩ := h.hostDoes hp hop rfl
    have hgrow : c.sent ⊆ c.sent ++ op.sends.toList.map (host, ·) := List.subset_append_left _ _
    constructor
    case attached =>
      intro s n hn
      cases s with
      | host host' =>
        have hn' : Function.update c.host host (op.act (c.host host)).interface host' = n :=
          Option.some.inj hn
        by_cases heq : host' = host
        · subst heq
          rw [Function.update_self] at hn'
          exact hn' ▸ hattached
        · rw [Function.update_of_ne heq] at hn'
          exact (h.attached (.host host') n (congrArg some hn')).mono hgrow
      | port r i => exact (h.attached (.port r i) n hn).mono hgrow
    case table_eq => exact h.table_eq
    case tells =>
      intro s frame hmem
      rcases List.mem_append.mp hmem with hold | hnew
      · exact (h.tells s frame hold).mono hgrow
      · obtain ⟨frame', hframe', heq⟩ := List.mem_map.mp hnew
        obtain ⟨rfl, rfl⟩ := Prod.mk.inj heq
        exact htells frame' hframe'
    case wellFormed =>
      intro y hy
      rcases List.mem_append.mp hy with hold | hnew
      · exact h.wellFormed y hold
      · obtain ⟨z, hz, rfl⟩ := List.mem_map.mp hnew
        refine hop.wellFormed z.1 ?_
        exact Option.mem_map.mpr ⟨z, Option.mem_toList.mp hz, rfl⟩
  | router r op =>
    obtain ⟨⟨hattached, htable⟩, htells⟩ := h.routerDoes hp hop
    constructor
    case attached =>
      intro s n hn
      cases s with
      | host host => exact h.attached (.host host) n hn
      | port r' i =>
        have hn' : (Function.update c.router r (op.act (c.router r)).router r').interfaces[i]?
          = some n := hn
        by_cases heq : r' = r
        · subst heq
          rw [Function.update_self] at hn'
          exact hattached i n hn'
        · rw [Function.update_of_ne heq] at hn'
          exact h.attached (.port r' i) n hn'
    case table_eq =>
      intro r'
      show (Function.update c.router r (op.act (c.router r)).router r').routingTable = _
      by_cases heq : r' = r
      · subst heq
        rw [Function.update_self]
        exact htable
      · rw [Function.update_of_ne heq]
        exact h.table_eq r'
    case tells =>
      intro s frame hmem
      rcases List.mem_append.mp hmem with hold | hnew
      · exact h.tells s frame hold
      · obtain ⟨⟨i, frame'⟩, hframe', heq⟩ := List.mem_map.mp hnew
        obtain ⟨rfl, rfl⟩ := Prod.mk.inj heq
        exact htells i frame' hframe'
    case wellFormed => exact h.wellFormed

/-- **Run.**  The invariant holds after any operations. -/
theorem honest_of (hp : p.Proper) {ops : List (InternetOp η ρ)}
    (hrun : Machine.Meets Internet.step p.Carries p.start ops) :
    p.Honest (Machine.run Internet.step p.start ops) :=
  hrun.invariant (fun _ _ h hop => h.step hp hop) (honest_start hp)

/-- **Right bindings.**  What is in a table is the Ethernet address of a station on the segment
    that has the IP address. -/
theorem tables_right (hp : p.Proper) {ops : List (InternetOp η ρ)}
    (hrun : Machine.Meets Internet.step p.Carries p.start ops)
    (hn : (Machine.run Internet.step p.start ops).at? s = some n) {entry : ARPEntry}
    (hentry : n.arpTable ip = some entry) :
    ∃ t, p.segment t = p.segment s ∧ p.Stands t ip entry.ethernetAddr := by
  obtain ⟨⟨ip', ethernetAddress, hstands, htruthful⟩, -⟩ := (honest_of hp hrun).attached s n hn
  exact htruthful.known ip entry hentry

/-- **From hop to hop.**  What is received was sent by a host, and has made its way to the station
    along the best routes; nothing in it has changed but the time to live, and the checksum. -/
theorem received_travelled (hp : p.Proper) {ops : List (InternetOp η ρ)}
    (hrun : Machine.Meets Internet.step p.Carries p.start ops)
    (hn : (Machine.run Internet.step p.start ops).at? s = some n) {d : IPv4Datagram}
    (hd : d ∈ n.datagramsReceived) :
    ∃ origin k, p.Arrives (Machine.run Internet.step p.start ops).sent origin k s d.packet ∧
      origin.Travelled k d.packet ∧ k ≤ 254 := by
  obtain ⟨origin, k, harrives⟩ := ((honest_of hp hrun).attached s n hn).received d hd
  refine ⟨origin, k, harrives, ?_⟩
  obtain ⟨s', ip, ethernetAddress, y, -, -, hjourney, hread⟩ := harrives
  have htravelled := hjourney.travelled.read
  rw [hread]
  exact ⟨htravelled, htravelled.hops_le⟩

/-! ### A datagram that is passed on once -/

instance (x : Packet) : Decidable x.WellFormed :=
  decidable_of_iff ((x.header.ver = 4 ∧ x.header.hlen.toNat < 16 ∧
      x.header.offset.toNat < 2 ^ 13) ∧ x.header.hlen = 5 ∧
      x.header.len.toNat = IPv4Header.LENGTH + x.payload.length)
    ⟨fun h => ⟨⟨h.1.1, h.1.2.1, h.1.2.2⟩, h.2.1, h.2.2⟩,
      fun h => ⟨⟨h.1.ver_eq, h.1.hlen_lt, h.1.offset_lt⟩, h.2, h.3⟩⟩

instance [DecidableEq σ] (c : Internet η ρ) (op : InternetOp η ρ) : Decidable (p.Carries c op) :=
  decidable_of_iff ((∀ arrival ∈ op.delivers, ∃ sent ∈ c.transmitted,
      p.segment sent.1 = p.segment arrival.1 ∧ arrival.2.SameBytes sent.2) ∧
      ∀ dgram ∈ op.dgram, dgram.packet.WellFormed)
    ⟨fun h => ⟨h.1, h.2⟩, fun h => ⟨h.1, h.2⟩⟩

/-- Two hosts, with a router in between. -/
def twoHosts : Plan Side Unit Side where
  host
    | .a => { ethernetAddress := ⟨2, 0, 0, 0, 0, 10⟩, ipAddress := { addr := 0x0a000002 } }
    | .b => { ethernetAddress := ⟨2, 0, 0, 0, 0, 11⟩, ipAddress := { addr := 0x0a000102 } }
  router _ := .twoNetworks
  segment
    | .host s => s
    | .port _ i => if i = 0 then .a else .b

/-- There are four interfaces. -/
theorem twoHosts_stations {s : Station Side Unit} {n : NetworkInterface}
    (h : twoHosts.start.at? s = some n) :
    s ∈ [.host .a, .host .b, .port () 0, .port () 1] := by
  match s with
  | .host .a | .host .b | .port () 0 | .port () 1 => decide
  | .port () (i + 2) => cases h

/-- They have addresses of their own. -/
theorem proper_twoHosts : twoHosts.Proper where
  fresh s n hn := by
    have hs := twoHosts_stations hn
    simp only [List.mem_cons, List.not_mem_nil, or_false] at hs
    rcases hs with rfl | rfl | rfl | rfl <;> cases hn <;> exact ⟨_, _, _, rfl, rfl, by decide⟩
  distinct := by
    rintro s t ip ip' _ ⟨n, hn, -, rfl⟩ ⟨n', hn', -, haddress⟩ -
    have hall : ∀ s ∈ [Station.host .a, .host .b, .port () 0, .port () 1],
        ∀ t ∈ [Station.host .a, .host .b, .port () 0, .port () 1],
          (twoHosts.start.at? s).map (·.ethernetAddress)
            = (twoHosts.start.at? t).map (·.ethernetAddress) → s = t := by
      decide
    refine hall s (twoHosts_stations hn) t (twoHosts_stations hn') ?_
    rw [hn, hn', Option.map_some, Option.map_some, haddress]
  prefixLength_le r := by cases r; decide

/-- A datagram for the second host. -/
def smallDgram : IPv4Datagram where
  header := { len := 23, ttl := 64, src := 0x0a000002, dst := 0x0a000102 }
  payload := [{ get := [1, 2, 3] }]

/-- A frame that was transmitted, in buffers of its own. -/
def copied (frame : EthernetFrame) : EthernetFrame :=
  { frame with payload := frame.payload.map fun r => { r with owned := true } }

/-- What can happen with the frame that was transmitted last. -/
def script : List (EthernetFrame → InternetOp Side Unit) :=
  [fun _ => .host .a (.sendDatagram smallDgram { addr := 0x0a000001 }),
    fun request => .router () (.recvFrame 0 request), fun reply => .host .a (.recvFrame reply),
    fun dgram => .router () (.recvFrame 0 dgram), fun _ => .router () .route,
    fun request => .host .b (.recvFrame request), fun reply => .router () (.recvFrame 1 reply),
    fun dgram => .host .b (.recvFrame dgram)]

/-- The operations of a script, each with the frame transmitted last before it. -/
def follow (c : Internet Side Unit) :
    List (EthernetFrame → InternetOp Side Unit) → List (InternetOp Side Unit)
  | [] => []
  | f :: fs =>
    let op := f ((c.transmitted.getLast?.map fun sent => copied sent.2).getD {})
    op :: follow (c.step op) fs

/-- The operations of this script. -/
def ops : List (InternetOp Side Unit) := follow twoHosts.start script

/-- Only frames that were transmitted arrive, and the datagram is well formed. -/
theorem meets_ops : Machine.Meets Internet.step twoHosts.Carries twoHosts.start ops := by
  decide +kernel

/-- The interface of the second host behind it. -/
theorem at?_ops : (Machine.run Internet.step twoHosts.start ops).at? (.host .b)
    = some ((Machine.run Internet.step twoHosts.start ops).host .b) := rfl

/-- The second host has learned the address of the router, and it is right. -/
theorem tables_right_twoHosts :
    ∃ t, twoHosts.segment t = .b ∧ twoHosts.Stands t 0x0a000101 ⟨2, 0, 0, 0, 0, 2⟩ := by
  have hentry : ((Machine.run Internet.step twoHosts.start ops).host .b).arpTable 0x0a000101
      = some { ethernetAddr := ⟨2, 0, 0, 0, 0, 2⟩, timeElapsed := 0 } := by
    decide +kernel
  exact tables_right proper_twoHosts meets_ops at?_ops hentry

/-- The datagram arrives at the second host, and has made one hop. -/
theorem received_travelled_twoHosts : ∃ origin k,
    twoHosts.Arrives (Machine.run Internet.step twoHosts.start ops).sent origin k (.host .b)
      smallDgram.packet.read.hop.read ∧
      origin.Travelled k smallDgram.packet.read.hop.read ∧ k ≤ 254 := by
  have hd : { smallDgram with header := smallDgram.packet.read.hop.read.header } ∈
      ((Machine.run Internet.step twoHosts.start ops).host .b).datagramsReceived := by
    decide +kernel
  exact received_travelled proper_twoHosts meets_ops at?_ops hd

end Plan

end Minnow
