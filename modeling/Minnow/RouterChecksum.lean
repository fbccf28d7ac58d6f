import Minnow.RouterRun

namespace Minnow

/-!
# The checksum of what a router forwards

`route` takes one from the time to live of a datagram, and leaves its checksum as it was.

* `IPv4Header.checksum_ttl_ne` — with one less to live the checksum of a header is another;
* `RouterRun.transmitted_arrived` — every frame of a run that has a datagram in it is transmitted
  for one that has arrived;
* `RouterRun.Forwards.parse_wire` — in the frame for a datagram all is as it should be, but for the
  checksum, at which the receiver notes an error.
-/

namespace IPv4Header

/-- What is read of a header fits in one. -/
theorem fits_ofBytes {h : IPv4Header} {b : Bytes} (hver : (h.ofBytes b).ver = 4) :
    (h.ofBytes b).Fits where
  ver_eq := hver
  hlen_lt := by
    show (field8 b 0 0 &&& 0x0f).toNat < 16
    rw [UInt8.toNat_and]
    exact Nat.and_lt_two_pow _ (n := 4) (by decide)
  offset_lt := by
    show (field16 b 6 0 &&& 0x1fff).toNat < 2 ^ 13
    rw [UInt16.toNat_and]
    exact Nat.and_lt_two_pow _ (by decide)

/-- A time to live of one less is one word of `0x100` less in the sum, which is no multiple of
    `0xffff`. -/
theorem checksum_ttl_ne {h : IPv4Header} (httl : ¬ h.ttl ≤ 1) :
    { h with ttl := h.ttl - 1 }.checksum ≠ h.checksum := by
  intro heq
  have hgt : 1 < h.ttl.toNat := not_le.mp httl
  have hpred : (h.ttl - 1).toNat = h.ttl.toNat - 1 :=
    UInt8.toNat_sub_of_le _ _ (UInt8.le_iff_toNat_le.mpr hgt.le)
  -- the sum of all other words
  set W := { h with ttl := 0, cksum := 0 }.wordSum
  have hbefore : { h with cksum := 0 }.wordSum = W + 256 * h.ttl.toNat + 0 := wordSum_eq _
  have hafter : { h with ttl := h.ttl - 1, cksum := 0 }.wordSum
      = W + 256 * (h.ttl - 1).toNat + 0 := wordSum_eq _
  have hnat := congrArg UInt16.toNat heq
  rw [toNat_checksum, toNat_checksum, hbefore, hafter, hpred] at hnat
  have hle₁ := OnesComplement.fold_le (W + 256 * h.ttl.toNat + 0)
  have hle₂ := OnesComplement.fold_le (W + 256 * (h.ttl.toNat - 1) + 0)
  have hfold : OnesComplement.fold (W + 256 * (h.ttl.toNat - 1) + 0)
      = OnesComplement.fold (W + 256 * h.ttl.toNat + 0) := by omega
  rw [OnesComplement.fold_eq_fold_iff (by omega) (by omega)] at hfold
  unfold Nat.ModEq at hfold
  omega

end IPv4Header

/-- A datagram that was accepted has a header that fits in one, with the right checksum. -/
theorem IPv4Datagram.accepted_header {payload : List Ref} {d : IPv4Datagram}
    (h : Minnow.parse (IPv4Datagram.parse {}) payload = .ok (d, true)) :
    d.header.Fits ∧ d.header.checksum = d.header.cksum := by
  obtain ⟨hheader, -, hsuccess⟩ := parse_eq_ok h
  have haccepted : ¬ Rejected (concat payload) := by simpa using hsuccess.symm
  unfold Rejected at haccepted
  rw [not_or, not_not, not_not] at haccepted
  obtain ⟨hcomplete, hcksum⟩ := haccepted
  -- the checksum that was computed is the one that was read
  have hread : d.header = IPv4Header.ofBytes {} (concat payload) := by
    rw [hheader, IPv4Header.parsed, if_pos hcomplete, hcksum]
  rw [hread]
  exact ⟨IPv4Header.fits_ofBytes hcomplete.2.1, hcksum⟩

/-! ### What is transmitted for a datagram -/

/-- What a datagram is to be after one more hop: accepted, with one less to live and the checksum
    computed for that, and otherwise the same. -/
def IPv4Datagram.Repeats (dgram : IPv4Datagram) (wire : List Ref) : Prop :=
  ∃ d, Minnow.parse (IPv4Datagram.parse {}) wire = .ok (d, true) ∧
    { dgram.header with ttl := dgram.header.ttl - 1 }.computeChecksum = .ok d.header ∧
    concat d.payload = concat dgram.payload

namespace RouterRun

/-- A frame was transmitted for a datagram that has time to live: by a call of `route` that passes
    it on, whether at once or after the datagram has waited. -/
def TransmittedFor (x : RouterRun) (dgram : IPv4Datagram) (frame : EthernetFrame) : Prop :=
  ¬ dgram.header.ttl ≤ 1 ∧ ∃ call ∈ x.calls,
    call.dgram = { dgram with header := { dgram.header with ttl := dgram.header.ttl - 1 } } ∧
    (call.interfaceNum, frame) ∈ x.transmitted ∧ call.dgram.Carried frame

/-- A frame was transmitted for a datagram that was accepted, without options and of the length
    that its header says. -/
structure Forwards (x : RouterRun) (dgram : IPv4Datagram) (frame : EthernetFrame) : Prop where
  arrived : Arrived x.received dgram true
  hlen_eq : dgram.header.hlen = 5
  len_eq : dgram.header.len.toNat = IPv4Header.LENGTH + (concat dgram.payload).length
  transmitted : x.TransmittedFor dgram frame

/-- **Valid checksums.**  Whoever has the bytes of a frame in buffers reads the datagram that the
    frame was transmitted for. -/
def KeepsChecksums (x : RouterRun) : Prop :=
  ∀ dgram frame, x.Forwards dgram frame →
    ∀ wire : List Ref, (∀ r ∈ wire, r.owned = true ∧ r.get ≠ []) →
      concat wire = concat frame.payload → dgram.Repeats wire

/-- **Provenance**: a frame with a datagram in it was transmitted for a datagram that has arrived,
    by a call for its route. -/
theorem transmitted_arrived {r : Router} (hnew : r.IsNew)
    (hlen : ∀ route ∈ r.routingTable, route.prefixLength.toNat ≤ 32) (ops : List RouterOp)
    {i : ℕ} {frame : EthernetFrame} (hmem : (i, frame) ∈ (of r ops).transmitted)
    (htype : frame.header.type = EthernetHeader.TYPE_IPv4) :
    ∃ dgram success call, Arrived (of r ops).received dgram success ∧
      forwarded r.routingTable dgram = some call ∧ call.interfaceNum = i ∧
      (of r ops).TransmittedFor dgram frame := by
  have htraced := traced_of hnew hlen ops
  obtain ⟨d, ⟨call, hcall, rfl, hd⟩, hcarried⟩ := htraced.transmitted i frame hmem htype
  -- what had to wait is a copy
  have hcarried' : call.dgram.Carried frame := by
    rcases hd with rfl | rfl
    · exact hcarried
    · exact IPv4Datagram.carried_copy.mp hcarried
  obtain ⟨dgram, success, harrived, hforwarded⟩ := htraced.called call hcall
  refine ⟨dgram, success, call, harrived, hforwarded, rfl, ?_⟩
  unfold forwarded at hforwarded
  split at hforwarded
  · cases hforwarded
  · rename_i httl
    obtain ⟨route, -, hroute⟩ := Option.map_eq_some_iff.mp hforwarded
    exact ⟨httl, call, hcall, by rw [← hroute], hmem, hcarried'⟩

/-- The receiver of a frame reads all fields as they are to be, and raises its flag. -/
theorem Forwards.parse_wire {x : RouterRun} {dgram : IPv4Datagram} {frame : EthernetFrame}
    (h : x.Forwards dgram frame) {wire : List Ref}
    (hbuf : ∀ r ∈ wire, r.owned = true ∧ r.get ≠ [])
    (hwire : concat wire = concat frame.payload) :
    ∃ d, parse (IPv4Datagram.parse {}) wire = .ok (d, false) ∧
      { dgram.header with ttl := dgram.header.ttl - 1 }.computeChecksum = .ok d.header ∧
      concat d.payload = concat dgram.payload := by
  obtain ⟨⟨i, frame₀, -, hparse⟩, hhlen, hlen, httl, call, -, hcall, -, hcarried⟩ := h
  obtain ⟨hfits, hcksum⟩ := IPv4Datagram.accepted_header hparse
  set hop : IPv4Header := { dgram.header with ttl := dgram.header.ttl - 1 } with hhop
  have hver : call.dgram.header.ver = 4 := by
    rw [hcall]
    exact hfits.ver_eq
  -- the bytes of the frame
  have hbytes : concat wire = hop.bytes ++ concat dgram.payload := by
    obtain ⟨out, hout, hconcat, -⟩ := IPv4Datagram.serialize_wire hver
    have hpayload := hcarried.payload_eq
    rw [hout] at hpayload
    cases hpayload
    rw [hwire, hconcat, hcall]
  -- the length in the header leaves room for all of the payload
  have hroom : (concat dgram.payload).length ≤ hop.payloadLength.toNat := by
    have hfour : (4 * hop.hlen.toUInt16).toNat = 20 := by
      show (4 * dgram.header.hlen.toUInt16).toNat = 20
      rw [hhlen]
      rfl
    have hle : 4 * hop.hlen.toUInt16 ≤ hop.len := by
      rw [UInt16.le_iff_toNat_le, hfour]
      show 20 ≤ dgram.header.len.toNat
      rw [hlen]
      exact Nat.le_add_right _ _
    unfold IPv4Header.payloadLength
    rw [UInt16.toNat_sub_of_le _ _ hle, hfour]
    show _ ≤ dgram.header.len.toNat - 20
    rw [hlen]
    exact (Nat.add_sub_cancel_left _ _).ge
  have hfits' : hop.Fits := ⟨hfits.ver_eq, hfits.hlen_lt, hfits.offset_lt⟩
  obtain ⟨d, hd, hheader, hpayload, -, -⟩ := IPv4Datagram.parse_wire hfits' hhlen
    (fun r hr => (hbuf r hr).1) (gapless_of_nonempty fun r hr => (hbuf r hr).2) hbytes hroom
  -- the checksum in the frame is the one of the datagram that arrived
  have hwrong : hop.checksum ≠ hop.cksum := by
    show hop.checksum ≠ dgram.header.cksum
    rw [← hcksum]
    exact IPv4Header.checksum_ttl_ne httl
  rw [decide_eq_false hwrong] at hd
  refine ⟨d, hd, ?_, hpayload⟩
  rw [IPv4Header.computeChecksum_eq hfits'.ver_eq, hheader]

/-! ### A run -/

/-- The frame transmitted for a datagram that was relayed. -/
def relayedFrame : EthernetFrame where
  header :=
    { dst := ⟨2, 0, 0, 0, 0, 3⟩, src := ⟨2, 0, 0, 0, 0, 2⟩, type := EthernetHeader.TYPE_IPv4 }
  payload := [{ get := { relayedHeader with ttl := 63 }.bytes }]

theorem forwards_relaying :
    (of .twoNetworks (relaying [relayedHeader])).Forwards { header := relayedHeader }
      relayedFrame where
  arrived := ⟨0, _, List.mem_cons_self, by decide +kernel⟩
  hlen_eq := rfl
  len_eq := rfl
  transmitted := by
    have hcall : (⟨1, { header := { relayedHeader with ttl := 63 } }, { addr := 0x0a000102 }⟩ :
        SendCall) ∈ (of .twoNetworks (relaying [relayedHeader])).calls := by
      decide +kernel
    have hmem :
        (1, relayedFrame) ∈ (of .twoNetworks (relaying [relayedHeader])).transmitted := by
      decide +kernel
    exact ⟨by decide, _, hcall, rfl, hmem, rfl, by decide +kernel⟩

/-- **No checksum is valid** in a frame that a router transmits for a datagram that it accepted. -/
theorem forwards_not_repeats (r : Router) (ops : List RouterOp) {dgram : IPv4Datagram}
    {frame : EthernetFrame} (h : (of r ops).Forwards dgram frame) {wire : List Ref}
    (hbuf : ∀ r ∈ wire, r.owned = true ∧ r.get ≠ [])
    (hwire : concat wire = concat frame.payload) : ¬ dgram.Repeats wire := by
  rintro ⟨d, hd, -⟩
  obtain ⟨d', hd', -⟩ := h.parse_wire hbuf hwire
  rw [hd'] at hd
  cases hd

theorem forwards_not_repeats_relaying :
    ¬ IPv4Datagram.Repeats { header := relayedHeader } relayedFrame.payload :=
  forwards_not_repeats .twoNetworks (relaying [relayedHeader]) forwards_relaying (by decide) rfl

/-- **The checksum is not kept valid**, from a new router on. -/
theorem not_keepsChecksums : ¬ ∀ (r : Router) (ops : List RouterOp), r.IsNew →
    (∀ route ∈ r.routingTable, route.prefixLength.toNat ≤ 32) → (of r ops).KeepsChecksums := by
  intro hkeeps
  have hrepeats := hkeeps .twoNetworks (relaying [relayedHeader]) Router.isNew_twoNetworks
    (by decide) _ _ forwards_relaying relayedFrame.payload (by decide) rfl
  obtain ⟨d, hd, -⟩ := hrepeats
  have hbuf : ∀ r ∈ relayedFrame.payload, r.owned = true ∧ r.get ≠ [] := by decide
  obtain ⟨d', hd', -⟩ := forwards_relaying.parse_wire hbuf rfl
  rw [hd'] at hd
  cases hd

end RouterRun

end Minnow
