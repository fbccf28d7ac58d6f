import Minnow.Serializer

namespace Minnow

/-!
# Internet datagrams

* `InternetChecksum` — the checksum of the header; `InternetChecksum.valueLoop_le` shows that
  the loop of `value` ends.
* `IPv4Header.parse` / `IPv4Header.gives_parse` — what is read is `IPv4Header.ofBytes`, whether
  or not it is accepted, and reading stops at `headerEnd`.
* `IPv4Datagram.parse_spec` — the datagram that a parser leaves, and when there is none.
-/

/-! ### The checksum -/

/-- The sum so far, wide enough not to overflow, and where the next byte belongs. -/
structure InternetChecksum where
  sum : UInt32 := 0
  /-- whether an odd number of bytes was added -/
  parity : Bool := false
deriving DecidableEq, Repr

namespace InternetChecksum

/-- A byte is the upper half of a 16-bit word, or the lower one of the word begun before it. -/
def addByte (check : InternetChecksum) (i : UInt8) : InternetChecksum :=
  let val := if ¬ check.parity then i.toUInt16 <<< 8 else i.toUInt16
  { sum := check.sum + val.toUInt32, parity := !check.parity }

/-- The bytes, one after the other. -/
def add (check : InternetChecksum) (data : Bytes) : InternetChecksum := data.foldl addByte check

/-- `add` of a range of buffers. -/
def addAll (check : InternetChecksum) (data : List Ref) : InternetChecksum :=
  data.foldl (fun check x => check.add x.get) check

/-- The loop of `value`, for at most so many rounds. -/
def valueLoop : ℕ → UInt32 → UInt32
  | 0, ret => ret
  | n + 1, ret =>
    if ret > 0xffff then valueLoop n ((ret >>> 16) + ret.toUInt16.toUInt32) else ret

/-- Two rounds are enough (`valueLoop_le`). -/
def value (check : InternetChecksum) : UInt16 := ~~~ (valueLoop 2 check.sum).toUInt16

/-- A round in numbers. -/
theorem toNat_round (ret : UInt32) :
    ((ret >>> 16) + ret.toUInt16.toUInt32).toNat = ret.toNat / 2 ^ 16 + ret.toNat % 2 ^ 16 := by
  have hret := ret.toNat_lt
  have hhigh : (ret >>> 16).toNat = ret.toNat / 2 ^ 16 := by
    rw [UInt32.toNat_shiftRight, Nat.shiftRight_eq_div_pow]
    rfl
  have hlow : ret.toUInt16.toUInt32.toNat = ret.toNat % 2 ^ 16 := by simp
  rw [UInt32.toNat_add, hhigh, hlow]
  omega

/-- After two rounds the loop is at its end. -/
theorem valueLoop_le (ret : UInt32) : valueLoop 2 ret ≤ 0xffff := by
  have hret := ret.toNat_lt
  rw [valueLoop]
  split
  · rw [valueLoop]
    split
    · rw [valueLoop, UInt32.le_iff_toNat_le, toNat_round, toNat_round]
      show _ ≤ 0xffff
      omega
    · rename_i hle
      exact UInt32.not_lt.mp hle
  · rename_i hle
    exact UInt32.not_lt.mp hle

end InternetChecksum

/-! ### The header -/

/-- The members and their defaults, as `ipv4_header.hh` has them. -/
structure IPv4Header where
  ver : UInt8 := 4
  hlen : UInt8 := 5
  tos : UInt8 := 0
  len : UInt16 := 0
  id : UInt16 := 0
  df : Bool := true
  mf : Bool := false
  offset : UInt16 := 0
  ttl : UInt8 := 128
  proto : UInt8 := 6
  cksum : UInt16 := 0
  src : UInt32 := 0
  dst : UInt32 := 0
deriving DecidableEq, Repr

namespace IPv4Header

/-- The length of a header without options. -/
def LENGTH : ℕ := 20

/-- Protocol number for TCP. -/
def PROTO_TCP : UInt8 := 6

/-- The difference is taken modulo `2 ^ 16`. -/
def payloadLength (h : IPv4Header) : UInt16 := h.len - 4 * h.hlen.toUInt16

/-- The header's contribution to the checksum of a segment. -/
def pseudoChecksum (h : IPv4Header) : UInt32 :=
  let pcksum := (h.src >>> 16) + h.src.toUInt16.toUInt32
  let pcksum := pcksum + ((h.dst >>> 16) + h.dst.toUInt16.toUInt32)
  let pcksum := pcksum + h.proto.toUInt32
  pcksum + h.payloadLength.toUInt32

/-- `serialize` after its consistency check. -/
def serializeFields (h : IPv4Header) (serializer : Serializer) : Serializer :=
  let firstByte := ((h.ver.toUInt32 <<< 4) ||| (h.hlen.toUInt32 &&& 0xf)).toUInt8
  let foVal : UInt16 :=
    (if h.df then 0x4000 else 0) ||| (if h.mf then 0x2000 else 0) ||| (h.offset &&& 0x1fff)
  serializer
    |>.integer8 firstByte
    |>.integer8 h.tos
    |>.integer16 h.len
    |>.integer16 h.id
    |>.integer16 foVal
    |>.integer8 h.ttl
    |>.integer8 h.proto
    |>.integer16 h.cksum
    |>.integer32 h.src
    |>.integer32 h.dst

/-- Only headers of version 4 are written. -/
def serialize (h : IPv4Header) (serializer : Serializer) : Except StdException Serializer :=
  if h.ver ≠ 4 then .error (.runtimeError "wrong IP version")
  else .ok (h.serializeFields serializer)

/-- The checksum over what is written with a checksum of zero. -/
def computeChecksum (h : IPv4Header) : Except StdException IPv4Header := do
  let s ← { h with cksum := 0 }.serialize {}
  let check := ({} : InternetChecksum).addAll s.finish
  return { h with cksum := check.value }

open Minnow.Parser in
/-- The loop-free part of `parse` that reads the fields. -/
def parseFields (h : IPv4Header) : ParserM IPv4Header := do
  let firstByte ← integer8 0
  let tos ← integer8 h.tos
  let len ← integer16 h.len
  let id ← integer16 h.id
  let foVal ← integer16 0
  let ttl ← integer8 h.ttl
  let proto ← integer8 h.proto
  let cksum ← integer16 h.cksum
  let src ← integer32 h.src
  let dst ← integer32 h.dst
  return {
    ver := firstByte >>> 4
    hlen := firstByte &&& 0x0f
    df := foVal &&& 0x4000 ≠ 0
    mf := foVal &&& 0x2000 ≠ 0
    offset := foVal &&& 0x1fff
    tos, len, id, ttl, proto, cksum, src, dst }

open Minnow.Parser in
/-- The part of `parse` that verifies the checksum, past the options. -/
def verify (h : IPv4Header) : ParserM IPv4Header := do
  removePrefix (h.hlen.toNat * 4 - LENGTH)
  let givenCksum := h.cksum
  let h ← h.computeChecksum
  setErrorIf (h.cksum ≠ givenCksum)
  return h

open Minnow.Parser in
/-- The fields, the checks of version and length, and behind them the checksum over the fields
    read. -/
def parse (h : IPv4Header) : ParserM IPv4Header := do
  let h ← h.parseFields
  setErrorIf (h.ver ≠ 4)
  setErrorIf (h.hlen < 5)
  if ← (do return (← get).hasError) then return h
  h.verify

/-- The widths of the fields. -/
def widths : List ℕ := [1, 1, 2, 2, 2, 1, 1, 2, 4, 4]

/-- The fields in some bytes; one that is not there keeps the value it had. -/
def ofBytes (h : IPv4Header) (b : Bytes) : IPv4Header :=
  let firstByte := field8 b 0 0
  let foVal := field16 b 6 0
  { ver := firstByte >>> 4
    hlen := firstByte &&& 0x0f
    tos := field8 b 1 h.tos
    len := field16 b 2 h.len
    id := field16 b 4 h.id
    df := foVal &&& 0x4000 ≠ 0
    mf := foVal &&& 0x2000 ≠ 0
    offset := foVal &&& 0x1fff
    ttl := field8 b 8 h.ttl
    proto := field8 b 9 h.proto
    cksum := field16 b 10 h.cksum
    src := field32 b 12 h.src
    dst := field32 b 16 h.dst }

/-- The bytes begin with a header that `parse` goes on to verify. -/
def Complete (b : Bytes) : Prop :=
  LENGTH ≤ b.length ∧ (ofBytes {} b).ver = 4 ∧ ¬ (ofBytes {} b).hlen < 5

instance (b : Bytes) : Decidable (Complete b) := by
  unfold Complete
  infer_instance

/-- Where reading a header ends: behind its options, or at the last field that is there. -/
def headerEnd (b : Bytes) : ℕ :=
  if Complete b then min (4 * (ofBytes {} b).hlen.toNat) b.length else readTo widths b.length

/-- The value that `compute_checksum` gives to the field. -/
def checksum (h : IPv4Header) : UInt16 :=
  (({} : InternetChecksum).addAll ({ h with cksum := 0 }.serializeFields {}).finish).value

/-- The header that `parse` leaves. -/
def parsed (h : IPv4Header) (b : Bytes) : IPv4Header :=
  if Complete b then { h.ofBytes b with cksum := (h.ofBytes b).checksum } else h.ofBytes b

/-! ### What is read of a header -/

section

open StateExcept

variable {payload : List Ref}

/-- The fields are read as `ofBytes` has them. -/
theorem gives_parseFields (h : IPv4Header) :
    Gives (Parser.Read payload []) (ReadsEmptyBefore payload LENGTH) h.parseFields
      (h.ofBytes (concat payload)) (Parser.Read payload widths) :=
  (Parser.gives_integer8_before _ _ (by decide)).bind <|
  (Parser.gives_integer8_before _ _ (by decide)).bind <|
  (Parser.gives_integer16_before _ _ (by decide)).bind <|
  (Parser.gives_integer16_before _ _ (by decide)).bind <|
  (Parser.gives_integer16_before _ _ (by decide)).bind <|
  (Parser.gives_integer8_before _ _ (by decide)).bind <|
  (Parser.gives_integer8_before _ _ (by decide)).bind <|
  (Parser.gives_integer16_before _ _ (by decide)).bind <|
  (Parser.gives_integer32_before _ _ (by decide)).bind <|
  (Parser.gives_integer32_before _ _ (by decide)).bind <|
  .pure _

/-- Neither checksum depends on what the field was before. -/
theorem checksum_setCksum (h : IPv4Header) (cksum : UInt16) :
    { h with cksum }.checksum = h.checksum := rfl

theorem pseudoChecksum_setCksum (h : IPv4Header) (cksum : UInt16) :
    { h with cksum }.pseudoChecksum = h.pseudoChecksum := rfl

/-- The checksum of a header of version 4, and nothing else, is computed. -/
theorem computeChecksum_eq {h : IPv4Header} (hver : h.ver = 4) :
    h.computeChecksum = .ok { h with cksum := h.checksum } := by
  have hserialize : { h with cksum := 0 }.serialize {}
      = .ok ({ h with cksum := 0 }.serializeFields {}) := if_neg (not_not.mpr hver)
  unfold computeChecksum
  rw [hserialize]
  rfl

/-- The checksum is compared once the flag has not been raised before. -/
theorem gives_verify (payload : List Ref) {h : IPv4Header} (hver : h.ver = 4)
    (hhlen : ¬ h.hlen < 5) :
    Gives (Parser.Noted payload LENGTH false) (ReadsEmptyBefore payload LENGTH) h.verify
      { h with cksum := h.checksum }
      (Parser.Noted payload (min (4 * h.hlen.toNat) (concat payload).length)
        (h.checksum ≠ h.cksum)) := by
  have hend : LENGTH + (h.hlen.toNat * 4 - LENGTH) = 4 * h.hlen.toNat := by
    have : 5 ≤ h.hlen.toNat := not_lt.mp hhlen
    unfold LENGTH
    omega
  refine (Parser.gives_removePrefix _ _ _ _).bind ?_
  rw [hend, computeChecksum_eq hver]
  exact Gives.bind (.pure _) ((Parser.gives_setErrorIf _ _ _ _).bind (.pure _))

/-- **Reading a header.**  The fields are those in the bytes, whether or not the header is
    accepted; a checksum is computed for one that is complete. -/
theorem gives_parse (payload : List Ref) (h : IPv4Header) :
    Gives (Parser.Read payload []) (ReadsEmptyBefore payload LENGTH) h.parse (h.parsed (concat payload))
      (Parser.Noted payload (headerEnd (concat payload))
        (decide (¬ Complete (concat payload) ∨
          (h.ofBytes (concat payload)).checksum ≠ (h.ofBytes (concat payload)).cksum))) := by
  -- the flag after the consistency checks
  have hflag : (decide ((concat payload).length < LENGTH) ||
      decide ((h.ofBytes (concat payload)).ver ≠ 4) ||
      decide ((h.ofBytes (concat payload)).hlen < 5)) = decide (¬ Complete (concat payload)) := by
    rw [← Bool.decide_or, ← Bool.decide_or, decide_eq_decide]
    show _ ↔ ¬ (_ ∧ _ ∧ _)
    rw [not_and_or, not_and_or, not_le, not_not, or_assoc]
    rfl
  have hread : ∀ a Q, Gives (Parser.Noted payload (readTo widths (concat payload).length)
        (decide (¬ Complete (concat payload)))) (ReadsEmptyBefore payload LENGTH)
        (do
          if ← (do return (← get).hasError) then return h.ofBytes (concat payload)
          (h.ofBytes (concat payload)).verify) a Q →
      Gives (Parser.Read payload []) (ReadsEmptyBefore payload LENGTH) h.parse a Q := by
    intro a Q hrest
    rw [← hflag] at hrest
    refine (gives_parseFields h).bind (Gives.mono (fun p hp => hp.noted) (fun _ h => h) ?_)
    exact (Parser.gives_setErrorIf _ _ _ _).bind ((Parser.gives_setErrorIf _ _ _ _).bind hrest)
  by_cases hcomplete : Complete (concat payload)
  · have hall : readTo widths (concat payload).length = LENGTH := readTo_of_le hcomplete.1
    have hverify := gives_verify payload (h := h.ofBytes (concat payload))
      hcomplete.2.1 hcomplete.2.2
    refine hread _ _ ?_
    simp only [parsed, headerEnd, hcomplete, not_true_eq_false, decide_false, false_or, if_true,
      hall]
    exact (Parser.gives_hasError _ _ _).bind hverify
  · refine hread _ _ ?_
    simp only [parsed, headerEnd, hcomplete, not_false_eq_true, decide_true, true_or, if_false]
    exact (Parser.gives_hasError _ _ _).bind (.pure _)

end

end IPv4Header

/-! ### Datagrams -/

/-- A header, and the payload in the buffers it was parsed from. -/
structure IPv4Datagram where
  header : IPv4Header := {}
  payload : List Ref := []
deriving DecidableEq, Repr

namespace IPv4Datagram

open Minnow.Parser in
/-- The header, and of what is behind it as much as its length field promises. -/
def parse (d : IPv4Datagram) : ParserM IPv4Datagram := do
  let header ← d.header.parse
  truncate header.payloadLength.toNat
  let payload ← allRemaining
  return { d with header, payload }

/-- The header is written, and the buffers are handed on as they are. -/
def serialize (d : IPv4Datagram) (serializer : Serializer) : Except StdException Serializer := do
  let serializer ← d.header.serialize serializer
  return serializer.buffers d.payload

/-- A copy owns its buffers. -/
def copy (d : IPv4Datagram) : IPv4Datagram :=
  { d with payload := d.payload.map fun r => { r with owned := true } }

/-- The length of the payload of a datagram, as far as its header is there to say it. -/
def lengthIn (b : Bytes) : ℕ := (IPv4Header.ofBytes {} b).payloadLength.toNat

/-- The bytes behind the header, of which some may not belong to the datagram. -/
def behindHeader (b : Bytes) : Bytes := b.drop (IPv4Header.headerEnd b)

/-- The buffers that are left when the header was read, and how much of the first one was. -/
def leftOf (payload : List Ref) : List Ref × ℕ :=
  locate payload (IPv4Header.headerEnd (concat payload))

/-- Moving out the payload takes the front of an empty deque: there is something to be cut off, and
    the first buffer left is longer than the payload is by the header. -/
def KeepsNone (payload : List Ref) : Prop :=
  0 < lengthIn (concat payload) ∧
    lengthIn (concat payload) < (behindHeader (concat payload)).length ∧
    ∀ r ∈ (leftOf payload).1.head?, lengthIn (concat payload) < r.get.length

/-- How many bytes behind the header are in the whole buffers that the length of the payload has
    room for, when the part that was read of the first buffer counts as well. -/
def keptOf (payload : List Ref) : ℕ :=
  wholeLength (lengthIn (concat payload)) (leftOf payload).1 - (leftOf payload).2

/-- The payload that a parser leaves, of which `kept` bytes are kept if some are to be cut off. -/
def payloadFrom (b : Bytes) (kept : ℕ) : Bytes :=
  if (behindHeader b).length ≤ lengthIn b then behindHeader b else (behindHeader b).take kept

/-- Whether an error is noted. -/
def Rejected (b : Bytes) : Prop :=
  ¬ IPv4Header.Complete b ∨
    (IPv4Header.ofBytes {} b).checksum ≠ (IPv4Header.ofBytes {} b).cksum

instance : DecidablePred Rejected := fun b => by
  unfold Rejected
  infer_instance

instance : DecidablePred KeepsNone := fun payload => by
  unfold KeepsNone
  infer_instance

/-- **Parsing a datagram** throws nothing: it ends with a datagram, accepted or not, where it does
    not take the front of an empty buffer or of an empty deque. -/
theorem parse_spec {payload : List Ref} {p : Parser} (hp : p.Read payload []) :
    (∃ e, (parse {}).run p = .error e ∧ ReadsEmptyBefore payload IPv4Header.LENGTH e) ∨
      if KeepsNone payload then
        (parse {}).run p = .error (.undefinedBehaviour "front() of an empty deque")
      else ∃ d p', (parse {}).run p = .ok (d, p') ∧
        d.header = IPv4Header.parsed {} (concat payload) ∧
        concat d.payload = payloadFrom (concat payload) (keptOf payload) ∧
        (∀ r ∈ d.payload, r.owned = true) ∧
        ((behindHeader (concat payload)).length ≤ lengthIn (concat payload) → Gapless payload →
          Gapless d.payload) ∧
        p'.error = decide (Rejected (concat payload)) := by
  rcases IPv4Header.gives_parse payload {} p hp with ⟨p', hrun, hat, herr⟩ | ⟨e, hrun, hempty⟩
  swap
  · refine .inl ⟨e, ?_, hempty⟩
    rw [parse, StateT.run_bind, hrun]
    rfl
  -- the rest works on the buffers alone
  right
  have hlen : (IPv4Header.parsed {} (concat payload)).payloadLength.toNat
      = lengthIn (concat payload) := by
    unfold IPv4Header.parsed
    split <;> rfl
  obtain ⟨b, htrunc, hdump⟩ := BufferList.At.dumpAll_truncate hat (lengthIn (concat payload))
  have hsize : p'.input.size = (behindHeader (concat payload)).length := by
    rw [behindHeader, List.length_drop, ← BufferList.At.length_eq hat, Nat.add_sub_cancel_left]
  have hleft : 0 < p'.input.size → leftOf payload = (p'.input.buffer, p'.input.skip) :=
    BufferList.At.located hat
  have hcut : KeepsNone payload ↔ 0 < lengthIn (concat payload) ∧
      lengthIn (concat payload) < p'.input.size ∧
      ∀ r ∈ p'.input.buffer.head?, lengthIn (concat payload) < r.get.length := by
    rw [KeepsNone, ← hsize]
    refine and_congr_right fun _ => and_congr_right fun hlt => ?_
    rw [hleft (Nat.zero_lt_of_lt hlt)]
  have htruncate : (Parser.truncate (lengthIn (concat payload))).run p'
      = .ok (⟨⟩, { p' with input := b }) := by
    show (p'.input.truncate _ >>= fun input => _) = _
    rw [htrunc]
    rfl
  rw [parse, StateT.run_bind, hrun]
  show if _ then (Parser.truncate _ >>= fun _ => _).run p' = _
    else ∃ d q, (Parser.truncate _ >>= fun _ => _).run p' = _ ∧ _
  rw [hlen, StateT.run_bind, htruncate]
  simp only [hcut]
  split at hdump
  · rename_i hnone
    rw [if_pos hnone]
    show (b.dumpAll >>= fun out => _) >>= _ = _
    rw [hdump]
    rfl
  · rename_i hsome
    rw [if_neg hsome]
    obtain ⟨out, hout, howned, hbytes, hgap⟩ := hdump
    refine ⟨{ header := IPv4Header.parsed {} (concat payload), payload := out.1 },
      { p' with input := out.2 }, ?_, rfl, ?_, howned, hsize ▸ hgap, herr⟩
    · show (b.dumpAll >>= fun out => _) >>= _ = _
      rw [hout]
      rfl
    · rw [hbytes, payloadFrom, ← hsize]
      split
      · rfl
      · rename_i hlong
        rw [keptOf, hleft (by omega)]
        rfl

/-- Parsing a datagram ends, where it is defined. -/
theorem parse_cases {payload : List Ref} {p : Parser} (hp : p.Read payload []) :
    (∃ e, (parse {}).run p = .error e ∧ e.IsUndefined) ∨
      ∃ d p', (parse {}).run p = .ok (d, p') := by
  rcases parse_spec hp with ⟨e, hrun, ⟨hundef, -⟩, -⟩ | h
  · exact .inl ⟨e, hrun, hundef⟩
  split at h
  · exact .inl ⟨_, h, _, rfl⟩
  · obtain ⟨d, p', hrun, -⟩ := h
    exact .inr ⟨d, p', hrun⟩

/-- What a datagram is that was parsed; its buffers are its own. -/
theorem parse_eq_ok {payload : List Ref} {d : IPv4Datagram} {success : Bool}
    (h : Minnow.parse (parse {}) payload = .ok (d, success)) :
    d.header = IPv4Header.parsed {} (concat payload) ∧ d.copy = d ∧
      success = !decide (Rejected (concat payload)) := by
  unfold Minnow.parse at h
  rcases Parser.new_cases payload with ⟨⟨p, hnew, hread⟩, -⟩ | ⟨⟨what, hnew⟩, -⟩
  swap
  · rw [hnew] at h
    cases h
  rw [hnew] at h
  rcases parse_spec hread with ⟨e, hrun, -⟩ | hspec
  · simp only [bind, Except.bind, hrun] at h
    cases h
  split at hspec
  · simp only [bind, Except.bind, hspec] at h
    cases h
  · obtain ⟨d', p', hrun, hheader, -, howned, -, herr⟩ := hspec
    simp only [bind, Except.bind, hrun] at h
    cases h
    -- what was moved out of the parser is owned, so that a copy is no different
    have hsame : d.payload.map (fun r => { r with owned := true }) = d.payload := by
      refine (List.map_congr_left fun r hr => ?_).trans (List.map_id _)
      obtain ⟨get, owned⟩ := r
      rw [id, ← howned _ hr]
    refine ⟨hheader, ?_, congrArg _ herr⟩
    unfold copy
    rw [hsame]

end IPv4Datagram

end Minnow
