import Minnow.Neighbours
import Minnow.RouterRun
import Minnow.WireFormat

namespace Minnow

/-!
# Hosts and routers

Hosts, which have one interface each, and routers are attached to segments.  A segment loses,
duplicates, delays and reorders frames at will, but a frame that arrives was transmitted on the
same segment at some time before.

* `Internet.step` — the owner of a host or a router does something, or a frame arrives;
* `Plan.Carries` — what is asked of the segments, and of the datagrams that the hosts send;
* `Plan.Journey` — the way of a datagram from hop to hop, with no word of frames, tables of
  Ethernet addresses or queues.
-/

/-! ### Datagrams -/

/-- A datagram without its buffers. -/
structure Packet where
  header : IPv4Header
  payload : Bytes
deriving DecidableEq, Repr

/-- What a datagram is on the wire, however it is cut. -/
def IPv4Datagram.packet (d : IPv4Datagram) : Packet := ⟨d.header, concat d.payload⟩

namespace Packet

/-- A header without options that fits in its bits and gives the length of the datagram. -/
structure WellFormed (x : Packet) : Prop where
  fits : x.header.Fits
  hlen_eq : x.header.hlen = 5
  len_eq : x.header.len.toNat = IPv4Header.LENGTH + x.payload.length

/-- As it is read of a frame: the checksum is recomputed, whatever it was. -/
def read (x : Packet) : Packet :=
  { x with header := { x.header with cksum := x.header.checksum } }

/-- As a router sends it on. -/
def hop (x : Packet) : Packet := { x with header := { x.header with ttl := x.header.ttl - 1 } }

/-- Parsing leaves a packet well formed. -/
theorem WellFormed.read {x : Packet} (h : x.WellFormed) : x.read.WellFormed :=
  ⟨⟨h.fits.ver_eq, h.fits.hlen_lt, h.fits.offset_lt⟩, h.hlen_eq, h.len_eq⟩

/-- A hop leaves a packet well formed. -/
theorem WellFormed.hop {x : Packet} (h : x.WellFormed) : x.hop.WellFormed :=
  ⟨⟨h.fits.ver_eq, h.fits.hlen_lt, h.fits.offset_lt⟩, h.hlen_eq, h.len_eq⟩

/-- The length in the header leaves room for all of the payload. -/
theorem WellFormed.payloadLength_eq {x : Packet} (h : x.WellFormed) :
    x.header.payloadLength.toNat = x.payload.length := by
  have hfour : (4 * x.header.hlen.toUInt16).toNat = 20 := by
    rw [h.hlen_eq]
    rfl
  have hle : 4 * x.header.hlen.toUInt16 ≤ x.header.len := by
    rw [UInt16.le_iff_toNat_le, hfour, h.len_eq]
    exact Nat.le_add_right _ _
  unfold IPv4Header.payloadLength
  rw [UInt16.toNat_sub_of_le _ _ hle, hfour, h.len_eq]
  exact Nat.add_sub_cancel_left _ _

end Packet

/-- The bytes of a datagram in a frame. -/
theorem IPv4Datagram.Carried.concat_eq {d : IPv4Datagram} {frame : EthernetFrame}
    (h : d.Carried frame) (hver : d.header.ver = 4) :
    concat frame.payload = d.packet.header.bytes ++ d.packet.payload := by
  obtain ⟨out, hout, hconcat, -⟩ := IPv4Datagram.serialize_wire hver
  have hpayload := h.payload_eq
  rw [hout] at hpayload
  cases hpayload
  exact hconcat

/-- **Reading a datagram** of the bytes it was written as, in whatever buffers these are. -/
theorem IPv4Datagram.packet_of_parse {x : Packet} (h : x.WellFormed) {wire : List Ref}
    (hwire : concat wire = x.header.bytes ++ x.payload) {d : IPv4Datagram} {success : Bool}
    (hparse : Minnow.parse (IPv4Datagram.parse {}) wire = .ok (d, success)) :
    d.packet = x.read := by
  have hlength := x.header.length_bytes
  unfold IPv4Header.LENGTH at hlength
  have hof : IPv4Header.ofBytes {} (concat wire) = x.header := by
    rw [hwire, IPv4Header.ofBytes_bytes h.fits]
  have hcomplete : IPv4Header.Complete (concat wire) := by
    unfold IPv4Header.Complete
    rw [hof, h.fits.ver_eq, h.hlen_eq, hwire, List.length_append, hlength]
    exact ⟨Nat.le_add_right _ _, rfl, by decide⟩
  have hend : IPv4Header.headerEnd (concat wire) = 20 := by
    unfold IPv4Header.headerEnd
    rw [if_pos hcomplete, hof, h.hlen_eq, hwire, List.length_append, hlength]
    exact Nat.min_eq_left (Nat.le_add_right _ _)
  have hbehind : behindHeader (concat wire) = x.payload := by
    unfold behindHeader
    rw [hend, hwire, ← hlength, List.drop_left]
  have hall : (behindHeader (concat wire)).length ≤ lengthIn (concat wire) := by
    unfold lengthIn
    rw [hbehind, hof]
    exact h.payloadLength_eq.ge
  unfold Minnow.parse at hparse
  rcases Parser.new_cases wire with ⟨⟨p, hnew, hread⟩, -⟩ | ⟨⟨what, hnew⟩, -⟩
  swap
  · rw [hnew] at hparse
    cases hparse
  rw [hnew] at hparse
  rcases parse_spec hread with ⟨e, hrun, -⟩ | hspec
  · simp only [bind, Except.bind, hrun] at hparse
    cases hparse
  split at hspec
  · simp only [bind, Except.bind, hspec] at hparse
    cases hparse
  · obtain ⟨d', p', hrun, hheader, hpayload, -⟩ := hspec
    simp only [bind, Except.bind, hrun] at hparse
    cases hparse
    rw [IPv4Header.parsed, if_pos hcomplete, hof] at hheader
    rw [payloadFrom, if_pos hall, hbehind] at hpayload
    exact congrArg₂ Packet.mk hheader hpayload

/-! ### Stations -/

/-- An interface is that of a host, or one of those of a router. -/
inductive Station (η ρ : Type) where
  | host (h : η)
  | port (r : ρ) (i : ℕ)
deriving DecidableEq, Repr

/-- Hosts and routers, with what the owners of the hosts have handed to `send_datagram`, and the
    frames that were transmitted. -/
structure Internet (η ρ : Type) where
  host : η → NetworkInterface
  router : ρ → Router
  sent : List (η × IPv4Datagram × Address) := []
  transmitted : List (Station η ρ × EthernetFrame) := []

/-- What can happen. -/
inductive InternetOp (η ρ : Type) where
  | host (h : η) (op : InterfaceOp)
  | router (r : ρ) (op : RouterOp)

/-- What an operation hands to `send_datagram`. -/
def InterfaceOp.sends : InterfaceOp → Option (IPv4Datagram × Address)
  | .sendDatagram dgram nextHop => some (dgram, nextHop)
  | _ => none

/-- A frame has the bytes of another one, maybe in other buffers. -/
structure EthernetFrame.SameBytes (frame frame' : EthernetFrame) : Prop where
  header_eq : frame.header = frame'.header
  payload_eq : concat frame.payload = concat frame'.payload

instance (frame frame' : EthernetFrame) : Decidable (frame.SameBytes frame') :=
  decidable_of_iff (frame.header = frame'.header ∧ concat frame.payload = concat frame'.payload)
    ⟨fun h => ⟨h.1, h.2⟩, fun h => ⟨h.1, h.2⟩⟩

variable {η ρ σ : Type}

/-- The frame that arrives, and where. -/
def InternetOp.delivers : InternetOp η ρ → Option (Station η ρ × EthernetFrame)
  | .host h (.recvFrame frame) => some (.host h, frame)
  | .router r (.recvFrame i frame) => some (.port r i, frame)
  | _ => none

/-- The datagram that the owner of a host sends. -/
def InternetOp.dgram : InternetOp η ρ → Option IPv4Datagram
  | .host _ op => op.sends.map (·.1)
  | .router _ _ => none

namespace Internet

/-- The interface of a station, if there is one. -/
def at? (c : Internet η ρ) : Station η ρ → Option NetworkInterface
  | .host h => some (c.host h)
  | .port r i => (c.router r).interfaces[i]?

variable [DecidableEq η] [DecidableEq ρ]

/-- An exception goes to the owner, who may go on. -/
def step (c : Internet η ρ) : InternetOp η ρ → Internet η ρ
  | .host h op =>
    let e := op.act (c.host h)
    { c with
      host := Function.update c.host h e.interface
      sent := c.sent ++ op.sends.toList.map (h, ·)
      transmitted := c.transmitted ++ e.transmitted.map (.host h, ·) }
  | .router r op =>
    let e := op.act (c.router r)
    { c with
      router := Function.update c.router r e.router
      transmitted := c.transmitted ++ e.transmitted.map fun sent => (.port r sent.1, sent.2) }

end Internet

/-- New hosts and routers, and the segments that their interfaces are attached to. -/
structure Plan (η ρ σ : Type) where
  host : η → NetworkInterface
  router : ρ → Router
  segment : Station η ρ → σ

namespace Plan

variable (p : Plan η ρ σ)

/-- Nothing has happened yet. -/
def start : Internet η ρ := { host := p.host, router := p.router }

/-- The addresses of a station. -/
def Stands (s : Station η ρ) (ip : UInt32) (ethernetAddress : EthernetAddress) : Prop :=
  ∃ n, p.start.at? s = some n ∧ n.ipAddress.ipv4Numeric = .ok ip ∧
    n.ethernetAddress = ethernetAddress

/-- Every interface is new and has addresses of its own; no Ethernet address is the one for
    broadcasts, or given twice on a segment. -/
structure Proper : Prop where
  fresh : ∀ s n, p.start.at? s = some n → ∃ ethernetAddress ipAddress ip,
    n = { ethernetAddress, ipAddress } ∧ ipAddress.ipv4Numeric = .ok ip ∧
      ethernetAddress ≠ ETHERNET_BROADCAST
  distinct : ∀ s t ip ip' ethernetAddress, p.Stands s ip ethernetAddress →
    p.Stands t ip' ethernetAddress → p.segment s = p.segment t → s = t
  prefixLength_le : ∀ r, ∀ route ∈ (p.router r).routingTable, route.prefixLength.toNat ≤ 32

/-- What arrives was transmitted on the same segment, and the hosts send well-formed datagrams. -/
structure Carries (c : Internet η ρ) (op : InternetOp η ρ) : Prop where
  unforged : ∀ arrival ∈ op.delivers, ∃ sent ∈ c.transmitted,
    p.segment sent.1 = p.segment arrival.1 ∧ arrival.2.SameBytes sent.2
  wellFormed : ∀ dgram ∈ op.dgram, dgram.packet.WellFormed

/-- The stations that a station can be heard by. -/
def Neighbour (s : Station η ρ) (ip : UInt32) (ethernetAddress : EthernetAddress) : Prop :=
  ∃ t, p.segment t = p.segment s ∧ p.Stands t ip ethernetAddress

/-- **The way of a datagram**: after so many hops it is handed to an interface, for a next hop. -/
inductive Journey (sent : List (η × IPv4Datagram × Address)) (origin : Packet) :
    ℕ → Station η ρ → UInt32 → Packet → Prop
  /-- it is sent by the owner of a host -/
  | sent {h : η} {dgram : IPv4Datagram} {nextHop : Address} {ip : UInt32}
      (hmem : (h, dgram, nextHop) ∈ sent) (hhop : nextHop.ipv4Numeric = .ok ip)
      (horigin : dgram.packet = origin) : Journey sent origin 0 (.host h) ip origin
  /-- it is read at the next hop, which is a router and sends it on along the best route -/
  | routed {k : ℕ} {s : Station η ρ} {ip ip' : UInt32} {x : Packet} {r : ρ} {i : ℕ}
      {ethernetAddress : EthernetAddress} {route : RouteEntry} (h : Journey sent origin k s ip x)
      (hsegment : p.segment s = p.segment (.port r i))
      (hstands : p.Stands (.port r i) ip ethernetAddress) (httl : 1 < x.header.ttl)
      (hroute : longestMatch (p.router r).routingTable x.header.dst = some route)
      (hhop : (route.nextHop.getD (.fromIpv4Numeric x.header.dst)).ipv4Numeric = .ok ip') :
      Journey sent origin (k + 1) (.port r route.interfaceNum) ip' x.read.hop

/-- A datagram arrives at a next hop as it was handed to an interface on the same segment. -/
def Arrives (sent : List (η × IPv4Datagram × Address)) (origin : Packet) (k : ℕ)
    (t : Station η ρ) (x : Packet) : Prop :=
  ∃ s ip ethernetAddress y, p.segment s = p.segment t ∧ p.Stands t ip ethernetAddress ∧
    p.Journey sent origin k s ip y ∧ x = y.read

end Plan

end Minnow
