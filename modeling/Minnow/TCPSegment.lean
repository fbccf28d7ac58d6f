import Minnow.WireFormat
import Minnow.TCPMessage

namespace Minnow

/-!
# TCP segments

A segment is a message with the ports of the two ends and a checksum.

* `TCPSegment.parse` / `TCPSegment.gives_parse` — what is read is `TCPSegment.parsed`, and the
  flag is raised on a checksum that is wrong, on bytes that end within the header, and on a data
  offset that is too small;
* `TCPSegment.serialize_wire` — what is written are the fields of the header and the payload;
* `TCPSegment.verifies_computeChecksum` — what is written with its checksum verifies;
* `TCPSegment.parsed_bytes` — and is read back as it was, a reset being one for both ends.

The parts of a message may be borrowed; nothing here depends on whether they are.
-/

/-- The part of a header that UDP has as well. -/
structure UserDatagramInfo where
  srcPort : UInt16 := 0
  dstPort : UInt16 := 0
  cksum : UInt16 := 0
deriving DecidableEq, Repr

/-- A message, and what a datagram protocol adds to it. -/
structure TCPSegment where
  message : TCPMessage := {}
  udinfo : UserDatagramInfo := {}
deriving DecidableEq, Repr

/-- `add` of a range of views. -/
def InternetChecksum.addViews (check : InternetChecksum) (data : List Bytes) : InternetChecksum :=
  data.foldl add check

namespace TCPSegment

/-- The length of a header without options. -/
def HEADER_LENGTH : ℕ := 20

open Minnow.Parser in
/-- The part of `parse` that verifies the checksum of all there is. -/
def checkBuffer (datagramLayerPseudoChecksum : UInt32) : ParserM InternetChecksum := do
  return ({ sum := datagramLayerPseudoChecksum } : InternetChecksum).addViews (← buffer)

open Minnow.Parser in
/-- The part of `parse` that reads the header, with its data offset. -/
def parseFields (seg : TCPSegment) : ParserM (TCPSegment × UInt8) := do
  let srcPort ← integer16 seg.udinfo.srcPort
  let dstPort ← integer16 seg.udinfo.dstPort
  let seqno ← integer32 0
  -- one variable is used for both numbers, and another for both of the next two bytes
  let ackno ← integer32 seqno
  let octet ← integer8 0
  let flags ← integer8 octet
  let windowSize ← integer16 seg.message.receiver.windowSize
  let cksum ← integer16 seg.udinfo.cksum
  let _urgent ← integer16 0
  let RST : Bool := flags &&& 0x04 ≠ 0
  return ({
    message := {
      sender := { seg.message.sender with
        seqno := ⟨seqno⟩, SYN := flags &&& 0x02 ≠ 0, FIN := flags &&& 0x01 ≠ 0, RST }
      receiver := { ackno := if flags &&& 0x10 = 0 then none else some ⟨ackno⟩, windowSize, RST } }
    udinfo := { srcPort, dstPort, cksum } }, octet >>> 4)

/-- Replace the payload of the message. -/
def setPayload (seg : TCPSegment) (payload : Bytes) : TCPSegment :=
  { seg with message := { seg.message with sender := { seg.message.sender with payload } } }

open Minnow.Parser in
/-- The checksum over all bytes is looked at first, then the fields, and the data offset before the
    options are skipped. -/
def parse (seg : TCPSegment) (datagramLayerPseudoChecksum : UInt32) : ParserM TCPSegment := do
  let check ← checkBuffer datagramLayerPseudoChecksum
  if check.value ≠ 0 then
    setError
    return seg
  let (seg, dataOffset) ← seg.parseFields
  if dataOffset.toNat < HEADER_LENGTH >>> 2 then
    setError
    return seg
  removePrefix (dataOffset.toNat * 4 - HEADER_LENGTH)
  let payload ← concatenateAllRemaining
  return seg.setPayload payload

/-- The byte of flags. -/
def flags (seg : TCPSegment) : UInt8 :=
  let reset := seg.message.sender.RST ∨ seg.message.receiver.RST
  (if seg.message.receiver.ackno.isSome then 0x10 else 0) ||| (if reset then 0x04 else 0)
    ||| (if seg.message.sender.SYN then 0x02 else 0) ||| (if seg.message.sender.FIN then 0x01 else 0)

/-- The header without options, and the payload behind it. -/
def serialize (seg : TCPSegment) (serializer : Serializer) : Serializer :=
  let serializer := serializer
    |>.integer16 seg.udinfo.srcPort
    |>.integer16 seg.udinfo.dstPort
    |>.integer32 seg.message.sender.seqno.rawValue
    |>.integer32 (seg.message.receiver.ackno.getD ⟨0⟩).rawValue
    |>.integer8 (UInt8.ofNat ((HEADER_LENGTH >>> 2) <<< 4))
    |>.integer8 seg.flags
    |>.integer16 seg.message.receiver.windowSize
    |>.integer16 seg.udinfo.cksum
    |>.integer16 0
  serializer.buffer { get := seg.message.sender.payload }

/-- Replace the checksum. -/
def setCksum (seg : TCPSegment) (cksum : UInt16) : TCPSegment :=
  { seg with udinfo := { seg.udinfo with cksum } }

/-- The checksum over what is written with a checksum of zero. -/
def computeChecksum (seg : TCPSegment) (datagramLayerPseudoChecksum : UInt32) : TCPSegment :=
  let check : InternetChecksum := { sum := datagramLayerPseudoChecksum }
  seg.setCksum (check.addAll ((seg.setCksum 0).serialize {}).finish).value

/-- The widths of the fields. -/
def widths : List ℕ := [2, 2, 4, 4, 1, 1, 2, 2, 2]

/-- The fields in some bytes; one that is not there keeps the value its variable had. -/
def ofBytes (seg : TCPSegment) (b : Bytes) : TCPSegment :=
  let seqno := field32 b 4 0
  let ackno := field32 b 8 seqno
  let flags := field8 b 13 (field8 b 12 0)
  let RST : Bool := flags &&& 0x04 ≠ 0
  { message := {
      sender := { seg.message.sender with
        seqno := ⟨seqno⟩, SYN := flags &&& 0x02 ≠ 0, FIN := flags &&& 0x01 ≠ 0, RST }
      receiver := {
        ackno := if flags &&& 0x10 = 0 then none else some ⟨ackno⟩
        windowSize := field16 b 14 seg.message.receiver.windowSize
        RST } }
    udinfo := {
      srcPort := field16 b 0 seg.udinfo.srcPort
      dstPort := field16 b 2 seg.udinfo.dstPort
      cksum := field16 b 16 seg.udinfo.cksum } }

/-- The length of the header in words, as it says itself. -/
def dataOffset (b : Bytes) : UInt8 := field8 b 12 0 >>> 4

/-- The checksum of the bytes is right. -/
def Verifies (pseudo : UInt32) (b : Bytes) : Prop :=
  (({ sum := pseudo } : InternetChecksum).add b).value = 0

instance (pseudo : UInt32) (b : Bytes) : Decidable (Verifies pseudo b) :=
  inferInstanceAs (Decidable (_ = _))

/-- Where the payload begins, unless the bytes end before. -/
def headerEnd (b : Bytes) : ℕ :=
  min (readTo widths b.length + ((dataOffset b).toNat * 4 - HEADER_LENGTH)) b.length

/-- The segment that `parse` leaves. -/
def parsed (seg : TCPSegment) (pseudo : UInt32) (b : Bytes) : TCPSegment :=
  if ¬ Verifies pseudo b then seg
  else if (dataOffset b).toNat < HEADER_LENGTH >>> 2 then seg.ofBytes b
  else (seg.ofBytes b).setPayload (b.drop (headerEnd b))

/-- The flag that `parse` leaves. -/
def Rejected (pseudo : UInt32) (b : Bytes) : Prop :=
  ¬ Verifies pseudo b ∨ b.length < HEADER_LENGTH ∨ (dataOffset b).toNat < HEADER_LENGTH >>> 2

instance (pseudo : UInt32) (b : Bytes) : Decidable (Rejected pseudo b) := by
  unfold Rejected
  infer_instance

/-! ### Reading -/

section

open StateExcept

variable {payload : List Ref}

/-- Views are added as their bytes one after the other. -/
theorem add_flatten (check : InternetChecksum) (data : List Bytes) :
    check.addViews data = check.add data.flatten := by
  induction data generalizing check with
  | nil => rfl
  | cons view data ih =>
    show (check.add view).addViews data = _
    rw [ih, List.flatten_cons]
    exact List.foldl_append.symm

/-- The checksum of all bytes, of which none is used up. -/
theorem gives_checkBuffer (E : StdException → Prop) (pseudo : UInt32) :
    Gives (Parser.Read payload []) E (checkBuffer pseudo)
      (({ sum := pseudo } : InternetChecksum).add (concat payload)) (Parser.Read payload []) := by
  intro p hp
  obtain ⟨views, hviews, hflat⟩ := BufferList.At.views hp.input_at
  have hbytes : views.flatten = concat payload := hflat
  refine .inl ⟨p, ?_, hp⟩
  rw [← hbytes, ← add_flatten]
  show ((p.input.views >>= fun views => _) >>= _) = _
  rw [hviews]
  rfl

/-- The fields are read as `ofBytes` has them. -/
theorem gives_parseFields (seg : TCPSegment) :
    Gives (Parser.Read payload []) (ReadsEmpty payload) seg.parseFields
      (seg.ofBytes (concat payload), dataOffset (concat payload)) (Parser.Read payload widths) :=
  (Parser.gives_integer16 _ _).bind <|
  (Parser.gives_integer16 _ _).bind <|
  (Parser.gives_integer32 _ _).bind <|
  (Parser.gives_integer32 _ _).bind <|
  (Parser.gives_integer8 _ _).bind <|
  (Parser.gives_integer8 _ _).bind <|
  (Parser.gives_integer16 _ _).bind <|
  (Parser.gives_integer16 _ _).bind <|
  (Parser.gives_integer16 _ _).bind <|
  .pure _

/-- **Reading a segment.** -/
theorem gives_parse (payload : List Ref) (seg : TCPSegment) (pseudo : UInt32) :
    Gives (Parser.Read payload []) (ReadsEmpty payload) (seg.parse pseudo)
      (seg.parsed pseudo (concat payload))
      fun p => p.error = decide (Rejected pseudo (concat payload)) := by
  -- every rejection ends the parse with the error flag raised
  have hraise : ∀ (P : Parser → Prop) (a : TCPSegment),
      Rejected pseudo (concat payload) → Gives P (ReadsEmpty payload)
        (do
          Parser.setError
          return a) a fun p => p.error = decide (Rejected pseudo (concat payload)) := by
    intro P a hrejected
    rw [decide_eq_true hrejected]
    exact Gives.bind (.modify fun p _ => rfl) (.pure a)
  refine (gives_checkBuffer _ pseudo).bind (.ite (fun hbad => ?_) (fun hgood => ?_))
  · have hparsed : seg.parsed pseudo (concat payload) = seg := if_pos hbad
    rw [hparsed]
    exact hraise _ seg (.inl hbad)
  refine (gives_parseFields seg).bind (.ite (fun hsmall => ?_) (fun hlarge => ?_))
  · have hparsed : seg.parsed pseudo (concat payload) = seg.ofBytes (concat payload) :=
      (if_neg hgood).trans (if_pos hsmall)
    rw [hparsed]
    exact hraise _ _ (.inr (.inr hsmall))
  · have hparsed : seg.parsed pseudo (concat payload) = _ :=
      (if_neg hgood).trans (if_neg hlarge)
    have hflag : decide (Rejected pseudo (concat payload))
        = decide ((concat payload).length < widths.sum) := by
      rw [decide_eq_decide]
      exact (or_iff_right hgood).trans (or_iff_left hlarge)
    rw [hparsed, hflag]
    refine Gives.mono (fun p hp => hp.noted) (fun _ h => h) ?_
    exact (Parser.gives_removePrefix _ _ _ _).bind
      ((Parser.gives_concatenateAllRemaining _ _ _).bind (.pure _))

end

/-! ### Writing -/

/-- What `serialize` writes before the payload. -/
def fields (seg : TCPSegment) : List (ℕ × ℕ) :=
  [(2, seg.udinfo.srcPort.toNat),
    (2, seg.udinfo.dstPort.toNat),
    (4, seg.message.sender.seqno.rawValue.toNat),
    (4, (seg.message.receiver.ackno.getD ⟨0⟩).rawValue.toNat),
    (1, (UInt8.ofNat ((HEADER_LENGTH >>> 2) <<< 4)).toNat),
    (1, seg.flags.toNat),
    (2, seg.message.receiver.windowSize.toNat),
    (2, seg.udinfo.cksum.toNat),
    (2, (0 : UInt16).toNat)]

/-- The bytes of the segment on the wire. -/
def bytes (seg : TCPSegment) : Bytes := numbers seg.fields ++ seg.message.sender.payload

/-- A header without options has twenty bytes. -/
theorem length_bytes (seg : TCPSegment) :
    seg.bytes.length = HEADER_LENGTH + seg.message.sender.payload.length := by
  rw [bytes, List.length_append, length_numbers]
  rfl

/-- **What is written.** -/
theorem serialize_wire (seg : TCPSegment) : concat (seg.serialize {}).finish = seg.bytes := by
  unfold serialize bytes fields
  rw [Serializer.concat_finish, Serializer.content_buffer]
  simp only [Serializer.content, Serializer.integer8, Serializer.integer16, Serializer.integer32,
    Serializer.integer_eq, numbers_cons, numbers_nil, concat_nil, List.nil_append, List.append_nil,
    List.append_assoc]

/-- The checksum is a word of the sum. -/
theorem wordSum_setCksum (seg : TCPSegment) (cksum : UInt16) :
    OnesComplement.wordSum false (seg.setCksum cksum).bytes
      = OnesComplement.wordSum false (seg.setCksum 0).bytes + cksum.toNat := by
  have hsplit : ∀ cksum : UInt16, (seg.setCksum cksum).bytes
      = numbers (seg.fields.take 7) ++ (number 2 cksum.toNat ++
        (number 2 (0 : UInt16).toNat ++ seg.message.sender.payload)) := by
    intro cksum
    show numbers (seg.fields.take 7 ++ [(2, cksum.toNat), (2, (0 : UInt16).toNat)])
      ++ seg.message.sender.payload = _
    simp [numbers_append]
  have hbefore : (numbers (seg.fields.take 7)).length.bodd = false := by
    have hlength : (numbers (seg.fields.take 7)).length = 16 := length_numbers _
    rw [hlength]
    rfl
  have hword : cksum.toNat % 65536 = cksum.toNat := Nat.mod_eq_of_lt cksum.toNat_lt
  rw [hsplit, hsplit, wordSum_append_number hbefore, wordSum_append_number hbefore, hword,
    UInt16.toNat_zero, Nat.zero_mod]
  omega

/-- **A checksum that was computed verifies.** -/
theorem verifies_computeChecksum (seg : TCPSegment) {pseudo : UInt32}
    (hroom : pseudo.toNat + 65280 * (seg.message.sender.payload.length + 22) < 2 ^ 32) :
    Verifies pseudo (seg.computeChecksum pseudo).bytes := by
  -- the sum of all but the checksum, and the sum of all
  set rest := OnesComplement.wordSum false (seg.setCksum 0).bytes with hrest
  set check : InternetChecksum := { sum := pseudo }
  have hle : rest ≤ 65280 * (HEADER_LENGTH + seg.message.sender.payload.length) := by
    have hlength := (seg.setCksum 0).length_bytes
    exact (OnesComplement.wordSum_le false _).trans_eq (congrArg _ hlength)
  have hlength : HEADER_LENGTH = 20 := rfl
  have hcksum : (check.addAll ((seg.setCksum 0).serialize {}).finish).value.toNat
      = 65535 - OnesComplement.fold (pseudo.toNat + rest) := by
    have hroom₀ : check.Room (seg.setCksum 0).bytes := by
      show pseudo.toNat + rest < 2 ^ 32
      omega
    rw [InternetChecksum.addAll_eq, serialize_wire, InternetChecksum.toNat_value_add hroom₀]
  have hall : OnesComplement.wordSum false (seg.computeChecksum pseudo).bytes
      = rest + (65535 - OnesComplement.fold (pseudo.toNat + rest)) := by
    rw [computeChecksum, wordSum_setCksum, hcksum]
  have hroom₁ : check.Room (seg.computeChecksum pseudo).bytes := by
    show pseudo.toNat + OnesComplement.wordSum false (seg.computeChecksum pseudo).bytes < 2 ^ 32
    rw [hall]
    omega
  show (check.add (seg.computeChecksum pseudo).bytes).value = 0
  rw [InternetChecksum.value_eq_zero_iff, (InternetChecksum.sum_add hroom₁).1]
  show OnesComplement.fold (pseudo.toNat + OnesComplement.wordSum false _) = 65535
  rw [hall, ← Nat.add_assoc, OnesComplement.fold_add_complement]

/-- The flags do not get in each other's way. -/
theorem flags_split (seg : TCPSegment) :
    (seg.flags &&& 0x10 = 0 ↔ seg.message.receiver.ackno.isSome = false) ∧
      decide (seg.flags &&& 0x04 ≠ 0)
        = decide (seg.message.sender.RST ∨ seg.message.receiver.RST) ∧
      decide (seg.flags &&& 0x02 ≠ 0) = seg.message.sender.SYN ∧
      decide (seg.flags &&& 0x01 ≠ 0) = seg.message.sender.FIN := by
  unfold flags
  generalize seg.message.receiver.ackno.isSome = ack
  generalize seg.message.sender.RST = reset
  generalize seg.message.receiver.RST = reset'
  generalize seg.message.sender.SYN = syn
  generalize seg.message.sender.FIN = fin
  revert ack reset reset' syn fin
  decide

/-- **A segment on the wire** is read back, when a reset is one for both ends. -/
theorem ofBytes_bytes {seg : TCPSegment}
    (hreset : seg.message.sender.RST = seg.message.receiver.RST) (seg₀ : TCPSegment) :
    (seg₀.ofBytes seg.bytes).setPayload seg.message.sender.payload = seg := by
  obtain ⟨hack, hrst, hsyn, hfin⟩ := seg.flags_split
  have hsrc : field16 seg.bytes 0 seg₀.udinfo.srcPort = seg.udinfo.srcPort :=
    field16_numbers 0 rfl _ _
  have hdst : field16 seg.bytes 2 seg₀.udinfo.dstPort = seg.udinfo.dstPort :=
    field16_numbers 1 rfl _ _
  have hseqno : field32 seg.bytes 4 0 = seg.message.sender.seqno.rawValue :=
    field32_numbers 2 rfl _ _
  have hackno : ∀ out, field32 seg.bytes 8 out
      = (seg.message.receiver.ackno.getD ⟨0⟩).rawValue := fun out => field32_numbers 3 rfl _ _
  have hflags : ∀ out, field8 seg.bytes 13 out = seg.flags := fun out => field8_numbers 5 rfl _ _
  have hwindow : field16 seg.bytes 14 seg₀.message.receiver.windowSize
      = seg.message.receiver.windowSize := field16_numbers 6 rfl _ _
  have hcksum : field16 seg.bytes 16 seg₀.udinfo.cksum = seg.udinfo.cksum :=
    field16_numbers 7 rfl _ _
  -- the flag tells whether there is an ackno
  have hoption : (if seg.flags &&& 0x10 = 0 then none
      else some (⟨(seg.message.receiver.ackno.getD ⟨0⟩).rawValue⟩ : Wrap32))
        = seg.message.receiver.ackno := by
    cases hcase : seg.message.receiver.ackno with
    | none =>
      rw [hcase] at hack
      exact if_pos (hack.mpr rfl)
    | some ackno =>
      rw [hcase] at hack
      exact if_neg fun h => by cases hack.mp h
  unfold ofBytes setPayload
  simp only [hsrc, hdst, hseqno, hackno, hflags, hwindow, hcksum, hoption, hrst, hsyn, hfin]
  obtain ⟨⟨⟨seqno, SYN, payload, FIN, RST⟩, ⟨ackno, windowSize, RST'⟩⟩, udinfo⟩ := seg
  cases hreset
  simp

/-- The data offset of what is written is that of a header without options. -/
theorem dataOffset_bytes (seg : TCPSegment) : dataOffset seg.bytes = 5 := by
  have hoctet : field8 seg.bytes 12 0 = UInt8.ofNat ((HEADER_LENGTH >>> 2) <<< 4) :=
    field8_numbers 4 rfl _ _
  rw [dataOffset, hoctet]
  decide

/-- What was written with a checksum that verifies is read back. -/
theorem parsed_bytes {seg : TCPSegment} {pseudo : UInt32}
    (hreset : seg.message.sender.RST = seg.message.receiver.RST)
    (hverifies : Verifies pseudo seg.bytes) (seg₀ : TCPSegment) :
    seg₀.parsed pseudo seg.bytes = seg ∧ ¬ Rejected pseudo seg.bytes := by
  have hoffset := dataOffset_bytes seg
  have hlength := length_bytes seg
  have hread : readTo widths seg.bytes.length = HEADER_LENGTH :=
    readTo_of_le (by rw [hlength]; exact Nat.le_add_right _ _)
  have hend : headerEnd seg.bytes = HEADER_LENGTH := by
    unfold headerEnd
    rw [hread, hoffset, hlength]
    exact Nat.min_eq_left (Nat.le_add_right _ _)
  -- the payload begins where the fields end, as there are no options
  have hpayload : seg.bytes.drop HEADER_LENGTH = seg.message.sender.payload := by
    have hheader : (numbers seg.fields).length = HEADER_LENGTH := length_numbers _
    rw [← hheader]
    exact List.drop_left
  constructor
  · rw [parsed, if_neg (not_not.mpr hverifies), if_neg (by rw [hoffset]; decide), hend, hpayload,
      ofBytes_bytes hreset]
  · rintro (hbad | hshort | hsmall)
    · exact hbad hverifies
    · omega
    · rw [hoffset] at hsmall
      revert hsmall
      decide

/-- **Round trip.**  Buffers that hold what was written are parsed to it, however it was cut. -/
theorem parse_wire {seg : TCPSegment} {pseudo : UInt32}
    (hreset : seg.message.sender.RST = seg.message.receiver.RST)
    (hverifies : Verifies pseudo seg.bytes) {payload : List Ref}
    (howned : ∀ r ∈ payload, r.owned = true) (hgap : Gapless payload)
    (hbytes : concat payload = seg.bytes) (seg₀ : TCPSegment) :
    Minnow.parse (seg₀.parse pseudo) payload = .ok (seg, true) := by
  obtain ⟨hparsed, haccepted⟩ := parsed_bytes hreset hverifies seg₀
  rw [parse_of_gives (gives_parse payload seg₀ pseudo) howned hgap, hbytes, hparsed,
    decide_eq_false haccepted]
  rfl

end TCPSegment

end Minnow
