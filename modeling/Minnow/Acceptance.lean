import Minnow.BufferSplit
import Minnow.TCPSegment

namespace Minnow

/-!
# What the parsers accept

A datagram or a segment should be accepted only if it is all there: its header, and the payload
that the header announces.

* `IPv4Datagram.accepts_all_there_iff` — the IPv4 parser compares the total length with nothing.
  A datagram that is accepted is all there iff its lengths are consistent and nothing has to be
  cut off behind it, or the cut is made between two buffers;
* `TCPSegment.accepts_header_iff` — the TCP parser checks the data offset from below only.  A
  segment that is accepted has all of its header iff the data offset stays within the bytes.
-/

/-- Where no bytes are, there is no gap. -/
theorem gapless_of_concat_eq_nil {payload : List Ref} (h : concat payload = []) :
    Gapless payload := by
  induction payload with
  | nil => trivial
  | cons r rest ih =>
    rw [concat_cons, List.append_eq_nil_iff] at h
    exact ⟨fun _ => h.2, ih h.2⟩

namespace IPv4Datagram

/-! ### Datagrams -/

/-- The first buffer holds the header without its options, and nothing else. -/
def HeaderApart (payload : List Ref) : Prop :=
  ∀ front ∈ payload.head?, front.get = (concat payload).take IPv4Header.LENGTH

instance : DecidablePred HeaderApart := fun payload =>
  inferInstanceAs (Decidable (∀ front ∈ payload.head?, _))

/-- A header with a buffer of its own is read without meeting an empty buffer, whatever the
    buffers behind it are. -/
theorem HeaderApart.reads {payload : List Ref} (h : HeaderApart payload) (e : StdException) :
    ¬ ReadsEmptyBefore payload IPv4Header.LENGTH e := by
  rintro ⟨⟨-, hgap⟩, pos, hpos, gone, r, rest, rfl, hgone, hr⟩
  apply hgap
  -- the empty buffer is met before the end of the header, so that all bytes are in the first one
  cases gone with
  | nil =>
    have hfront : r.get = (concat (r :: rest)).take IPv4Header.LENGTH := h r rfl
    rw [hr, eq_comm, List.take_eq_nil_iff] at hfront
    exact gapless_of_concat_eq_nil (hfront.resolve_left (by decide))
  | cons front gone =>
    have hfront : front.get = (concat (front :: (gone ++ r :: rest))).take IPv4Header.LENGTH :=
      h front rfl
    have hlen := congrArg List.length hfront
    rw [List.length_take, concat_cons, List.length_append] at hlen
    rw [concat_cons, List.length_append] at hgone
    have hnil : concat (gone ++ r :: rest) = [] := List.length_eq_zero_iff.mp (by omega)
    exact ⟨fun _ => hnil, gapless_of_concat_eq_nil hnil⟩

/-- The datagram parsed from some bytes is all there: header and payload lie within them, and the
    payload is what is between the header and the total length. -/
structure AllThere (b : Bytes) (d : IPv4Datagram) : Prop where
  header_le : 4 * d.header.hlen.toNat ≤ d.header.len.toNat
  len_le : d.header.len.toNat ≤ b.length
  payload_eq : concat d.payload = (b.take d.header.len.toNat).drop (4 * d.header.hlen.toNat)
  length_eq : (concat d.payload).length = d.header.payloadLength.toNat
  payloadLength_eq :
    d.header.payloadLength.toNat = d.header.len.toNat - 4 * d.header.hlen.toNat

/-- The lengths in a header fit the bytes, and the payload can be cut out of them: nothing is
    behind it, or it is empty, or it begins and ends where a buffer does. -/
def Consistent (payload : List Ref) : Prop :=
  let b := concat payload
  let header := IPv4Header.ofBytes {} b
  4 * header.hlen.toNat ≤ header.len.toNat ∧ header.len.toNat ≤ b.length ∧
    (header.len.toNat = b.length ∨ header.len.toNat = 4 * header.hlen.toNat ∨
      (leftOf payload).2 = 0 ∧ wholeLength (lengthIn b) (leftOf payload).1 = lengthIn b)

instance (payload : List Ref) : Decidable (Consistent payload) := by
  unfold Consistent
  infer_instance

/-- The payload length by a header of which the lengths are in order, and of any other. -/
theorem toNat_payloadLength (h : IPv4Header) (hhlen : h.hlen.toNat < 16) :
    h.payloadLength.toNat = if 4 * h.hlen.toNat ≤ h.len.toNat
      then h.len.toNat - 4 * h.hlen.toNat else 2 ^ 16 + h.len.toNat - 4 * h.hlen.toNat := by
  have hlen := h.len.toNat_lt
  have hfour : (4 * h.hlen.toUInt16).toNat = 4 * h.hlen.toNat := by
    rw [UInt16.toNat_mul, UInt8.toNat_toUInt16]
    exact Nat.mod_eq_of_lt (by show 4 * _ < 2 ^ 16; omega)
  rw [IPv4Header.payloadLength, UInt16.toNat_sub, hfour]
  split <;> omega

theorem toNat_hlen_lt (b : Bytes) : (IPv4Header.ofBytes {} b).hlen.toNat < 16 := by
  have hand : (IPv4Header.ofBytes {} b).hlen.toNat = (field8 b 0 0).toNat &&& 15 :=
    UInt8.toNat_and _ _
  have hle : (field8 b 0 0).toNat &&& 15 ≤ 15 := Nat.and_le_right
  omega

/-- Parsing leaves the lengths as they are in the bytes. -/
theorem parsed_lengths (b : Bytes) :
    (IPv4Header.parsed {} b).hlen = (IPv4Header.ofBytes {} b).hlen ∧
      (IPv4Header.parsed {} b).len = (IPv4Header.ofBytes {} b).len ∧
      (IPv4Header.parsed {} b).payloadLength.toNat = lengthIn b := by
  unfold IPv4Header.parsed
  split <;> exact ⟨rfl, rfl, rfl⟩

/-- A datagram cut out of bytes with a complete header is all there exactly if the lengths are
    consistent. -/
theorem allThere_iff {payload : List Ref} {d : IPv4Datagram}
    (hcomplete : IPv4Header.Complete (concat payload))
    (hheader : d.header = IPv4Header.parsed {} (concat payload))
    (hpayload : concat d.payload = payloadFrom (concat payload) (keptOf payload)) :
    AllThere (concat payload) d ↔ Consistent payload := by
  obtain ⟨hhlen, hlen, hplen⟩ := parsed_lengths (concat payload)
  have hlt := toNat_hlen_lt (concat payload)
  have hpl : lengthIn (concat payload) = _ :=
    toNat_payloadLength (IPv4Header.ofBytes {} (concat payload)) hlt
  have hend : IPv4Header.headerEnd (concat payload)
      = min (4 * (IPv4Header.ofBytes {} (concat payload)).hlen.toNat) (concat payload).length :=
    if_pos hcomplete
  have hwhole : wholeLength (lengthIn (concat payload)) (leftOf payload).1
      ≤ lengthIn (concat payload) := wholeLength_le _ _
  have hkept : keptOf payload
      = wholeLength (lengthIn (concat payload)) (leftOf payload).1 - (leftOf payload).2 := rfl
  rw [← hheader] at hhlen hlen hplen
  unfold Consistent
  dsimp only
  rw [← hhlen] at hpl hend ⊢
  rw [← hlen] at hpl ⊢
  -- the four lengths, and how many bytes are kept
  have hcut : (concat d.payload).length =
      if (concat payload).length - IPv4Header.headerEnd (concat payload)
        ≤ lengthIn (concat payload)
      then (concat payload).length - IPv4Header.headerEnd (concat payload)
      else min (keptOf payload)
        ((concat payload).length - IPv4Header.headerEnd (concat payload)) := by
    rw [hpayload, payloadFrom, behindHeader, List.length_drop]
    split
    · rw [List.length_drop]
    · rw [List.length_take, List.length_drop]
  constructor
  · rintro ⟨hheaderle, hlenle, -, hlength, -⟩
    rw [if_pos hheaderle] at hpl
    rw [hcut, hplen] at hlength
    refine ⟨hheaderle, hlenle, ?_⟩
    split at hlength <;> omega
  · rintro ⟨hheaderle, hlenle, hroom⟩
    rw [if_pos hheaderle] at hpl
    have hend' : IPv4Header.headerEnd (concat payload) = 4 * d.header.hlen.toNat := by omega
    have hbytes : concat d.payload = ((concat payload).drop (4 * d.header.hlen.toNat)).take
        (d.header.len.toNat - 4 * d.header.hlen.toNat) := by
      rw [hpayload, payloadFrom, behindHeader, List.length_drop, hend']
      split
      · -- nothing is behind the datagram
        rw [List.take_of_length_le]
        rw [List.length_drop]
        omega
      · congr 1
        omega
    refine ⟨hheaderle, hlenle, ?_, ?_, by rw [hplen, hpl]⟩
    · rw [hbytes, List.drop_take]
    · rw [hbytes, List.length_take, List.length_drop, hplen, hpl]
      omega

/-- Parsing has a defined outcome, and what is accepted is all there. -/
structure AcceptsAllThere (payload : List Ref) : Prop where
  defined : ∀ e, Minnow.parse (parse {}) payload = .error e → ¬ e.IsUndefined
  allThere : ∀ d, Minnow.parse (parse {}) payload = .ok (d, true) → AllThere (concat payload) d

/-- **The datagrams accepted**, in buffers of which the first is the header: the outcome is defined,
    and whatever is accepted is all there, if and only if a buffer is kept where some bytes are to
    be cut off, and the bytes are rejected or consistent. -/
theorem accepts_all_there_iff {payload : List Ref} (howned : ∀ r ∈ payload, r.owned = true)
    (hapart : HeaderApart payload) :
    AcceptsAllThere payload ↔
      ¬ KeepsNone payload ∧ (Rejected (concat payload) ∨ Consistent payload) := by
  have houtcome := parse_outcome_of_reads howned hapart.reads
  unfold outcome at houtcome
  cases hparse : Minnow.parse (parse {}) payload with
  | error e =>
    -- there is no outcome when no buffer is kept
    rw [hparse] at houtcome
    dsimp only at houtcome
    split at houtcome
    · rename_i hnone
      refine iff_of_false (fun h => h.defined e hparse ?_) fun h => h.1 hnone
      exact ⟨_, Except.error.inj houtcome⟩
    · cases houtcome
  | ok result =>
    obtain ⟨d, success⟩ := result
    rw [hparse] at houtcome
    dsimp only at houtcome
    split at houtcome
    · cases houtcome
    · rename_i hsome
      have hview := Except.ok.inj houtcome
      have hheader : d.header = IPv4Header.parsed {} (concat payload) := congrArg (·.1) hview
      have hpayload : concat d.payload = payloadFrom (concat payload) (keptOf payload) :=
        congrArg (·.2.1) hview
      have hsuccess : success = !decide (Rejected (concat payload)) := congrArg (·.2.2) hview
      have hdefined : ∀ e, Minnow.parse (parse {}) payload = .error e → ¬ e.IsUndefined := by
        intro e he
        rw [hparse] at he
        cases he
      rw [and_iff_right hsome]
      by_cases hrejected : Rejected (concat payload)
      · refine iff_of_true ⟨hdefined, fun d' hd' => ?_⟩ (.inl hrejected)
        rw [hparse, hsuccess, decide_eq_true hrejected] at hd'
        cases hd'
      · have hcomplete : IPv4Header.Complete (concat payload) := by
          by_contra hnot
          exact hrejected (.inl hnot)
        rw [or_iff_right hrejected, ← allThere_iff hcomplete hheader hpayload]
        constructor
        · intro h
          apply h.allThere
          rw [hparse, hsuccess, decide_eq_false hrejected]
          rfl
        · refine fun hall => ⟨hdefined, fun d' hd' => ?_⟩
          rw [hparse] at hd'
          cases hd'
          exact hall

/-- With header and payload in buffers of their own, and 6 bytes behind the datagram. -/
theorem accepts_all_there_iff_padded : AcceptsAllThere (paddedAt 4) ↔
    ¬ KeepsNone (paddedAt 4) ∧ (Rejected (concat (paddedAt 4)) ∨ Consistent (paddedAt 4)) :=
  accepts_all_there_iff (by decide) (by decide)

/-- The first 22 bytes of a datagram of 24, the header in a buffer of its own. -/
def shortCapture : List Ref := [{ get := padded.take 20 }, { get := (padded.drop 20).take 2 }]

/-- It is accepted, with half of its payload. -/
theorem short_capture_accepted :
    ¬ ∀ payload : List Ref, (∀ r ∈ payload, r.owned = true) → HeaderApart payload →
      ∀ d, Minnow.parse (parse {}) payload = .ok (d, true) → AllThere (concat payload) d := by
  intro h
  have haccepted : Minnow.parse (parse {}) shortCapture
      = .ok ({ header := IPv4Header.ofBytes {} padded, payload := [{ get := [1, 2] }] }, true) := by
    decide +kernel
  have hle := (h shortCapture (by decide) (by decide) _ haccepted).len_le
  revert hle
  decide +kernel

end IPv4Datagram

namespace TCPSegment

/-! ### Segments -/

/-- The segment parsed from some bytes has its header within them: the checksum of the bytes is
    right, the data offset is at least the length of a header and at most that of the bytes, and
    the payload is what is behind it. -/
structure HeaderFits (pseudo : UInt32) (b : Bytes) (seg : TCPSegment) : Prop where
  verifies : Verifies pseudo b
  offset_ge : HEADER_LENGTH ≤ 4 * (dataOffset b).toNat
  offset_le : 4 * (dataOffset b).toNat ≤ b.length
  payload_eq : seg.message.sender.payload = b.drop (4 * (dataOffset b).toNat)

/-- The segment left of bytes that are not rejected has its header within them exactly if the
    data offset stays within them. -/
theorem headerFits_iff {pseudo : UInt32} {b : Bytes} (h : ¬ Rejected pseudo b)
    (seg₀ : TCPSegment) :
    HeaderFits pseudo b (seg₀.parsed pseudo b) ↔ 4 * (dataOffset b).toNat ≤ b.length := by
  rw [Rejected, not_or, not_or, not_not, not_lt, not_lt] at h
  obtain ⟨hverifies, hlong, hlarge⟩ := h
  have hwords : HEADER_LENGTH >>> 2 = 5 := rfl
  have hlength : HEADER_LENGTH = 20 := rfl
  have hread : readTo widths b.length = HEADER_LENGTH := readTo_of_le hlong
  constructor
  · exact fun hfits => hfits.offset_le
  · intro hle
    refine ⟨hverifies, by omega, hle, ?_⟩
    have hend : headerEnd b = 4 * (dataOffset b).toNat := by
      unfold headerEnd
      omega
    rw [parsed, if_neg (not_not.mpr hverifies), if_neg (not_lt.mpr hlarge), hend]
    rfl

/-- **The segments accepted**: whatever is accepted has its header within the bytes if and only
    if the bytes are rejected, or the data offset stays within them. -/
theorem accepts_header_iff {payload : List Ref}
    (howned : ∀ r ∈ payload, r.owned = true ∧ r.get ≠ []) (seg₀ : TCPSegment)
    (pseudo : UInt32) :
    (∀ seg, Minnow.parse (seg₀.parse pseudo) payload = .ok (seg, true) →
        HeaderFits pseudo (concat payload) seg) ↔
      Rejected pseudo (concat payload) ∨
        4 * (dataOffset (concat payload)).toNat ≤ (concat payload).length := by
  have hparse := parse_of_gives (gives_parse payload seg₀ pseudo)
    (fun r hr => (howned r hr).1) (gapless_of_nonempty fun r hr => (howned r hr).2)
  by_cases hrejected : Rejected pseudo (concat payload)
  · rw [decide_eq_true hrejected] at hparse
    refine iff_of_true (fun seg hseg => ?_) (.inl hrejected)
    rw [hparse] at hseg
    cases hseg
  · rw [decide_eq_false hrejected] at hparse
    rw [or_iff_right hrejected, ← headerFits_iff hrejected seg₀]
    constructor
    · exact fun h => h _ hparse
    · intro hfits seg hseg
      rw [hparse] at hseg
      cases hseg
      exact hfits

/-- A header of 20 bytes that announces options of 40 more, with a checksum that is right. -/
def optionsMissing : Bytes :=
  [0, 0, 0, 0, 0, 0, 0, 0, 0, 0, 0, 0, 0xf0, 0, 0, 0, 0x0f, 0xff, 0, 0]

theorem accepts_header_iff_options_missing :
    (∀ seg, Minnow.parse (({} : TCPSegment).parse 0) [{ get := optionsMissing }]
        = .ok (seg, true) → HeaderFits 0 (concat [{ get := optionsMissing }]) seg) ↔
      Rejected 0 (concat [{ get := optionsMissing }]) ∨
        4 * (dataOffset (concat [{ get := optionsMissing }])).toNat
          ≤ (concat [{ get := optionsMissing }]).length :=
  accepts_header_iff (by decide) {} 0

/-- It is accepted, with an empty payload. -/
theorem options_missing_accepted :
    ¬ ∀ (payload : List Ref) (pseudo : UInt32), (∀ r ∈ payload, r.owned = true ∧ r.get ≠ []) →
      ∀ seg, Minnow.parse (({} : TCPSegment).parse pseudo) payload = .ok (seg, true) →
        HeaderFits pseudo (concat payload) seg := by
  intro h
  have haccepted : Minnow.parse (({} : TCPSegment).parse 0) [{ get := optionsMissing }]
      = .ok (({} : TCPSegment).ofBytes optionsMissing, true) := by
    decide +kernel
  have hle := (h _ 0 (by decide) _ haccepted).offset_le
  revert hle
  decide +kernel

end TCPSegment

end Minnow
