import Minnow.TCPMessage
import Minnow.ReassemblerSlices

namespace Minnow

/-!
# The TCP receiver

The receiver unwraps the sequence numbers of incoming segments, hands the payloads to its
reassembler, and tells the peer's sender which sequence number it needs next and how much room
it has.

The second half describes what it makes of the messages of one sender: segments of one stream
`S` that starts at the ISN, empty messages, and resets.  `Genuine` says what such a message is,
`receive_spec` that the receiver writes a slice of `S` that continues its output.
-/

/-- The reassembler, and the initial sequence number once a SYN has been received. -/
structure TCPReceiver where
  reassembler : Reassembler
  isn : Wrap32 := ⟨0⟩
  isnSet : Bool := false
deriving DecidableEq, Repr

namespace TCPReceiver

/-- Construct with given reassembler. -/
def new (reassembler : Reassembler) : TCPReceiver := { reassembler }

/-- The inbound stream, which the receiver writes and its owner reads. -/
def output (r : TCPReceiver) : ByteStream := r.reassembler.output

/-- Replace the inbound stream: what the owner does to it through `reader()`. -/
def setOutput (r : TCPReceiver) (output : ByteStream) : TCPReceiver :=
  { r with reassembler := { r.reassembler with output } }

/-- Insert the payload of a message into the reassembler at the correct stream index. -/
def receive (r : TCPReceiver) (message : TCPSenderMessage) : TCPReceiver :=
  if message.RST then r.setOutput r.output.setError
  else
    -- the first segment with SYN sets the ISN
    let r := if message.SYN ∧ ¬ r.isnSet then { r with isn := message.seqno, isnSet := true } else r
    if ¬ r.isnSet then r
    else
      let checkpoint := r.output.bytesPushed
      let absSeqno := message.seqno.unwrap r.isn checkpoint
      let streamIndex := absSeqno - 1 + (if message.SYN then 1 else 0)
      { r with reassembler := r.reassembler.insert streamIndex message.payload message.FIN }

/-- The message to the peer's sender. -/
def send (r : TCPReceiver) : TCPReceiverMessage :=
  let absAckno := r.output.bytesPushed + 1
  let absAckno := if r.output.isClosed then absAckno + 1 else absAckno
  let window := r.output.availableCapacity
  { ackno := if r.isnSet then some (Wrap32.wrap absAckno r.isn) else none
    windowSize := if window > 0xFFFF then 0xFFFF else window.toUInt16
    RST := r.output.hasError }

/-! ### What is acknowledged -/

/-- The number of bytes written to the inbound stream. -/
def next (r : TCPReceiver) : ℕ := r.reassembler.nextByteIndex.toNat

/-- The exact position the receiver acknowledges: behind the SYN, the bytes written and, once the
    stream is closed, the FIN. -/
def ackPos (r : TCPReceiver) : ℕ := r.next + 1 + r.output.eof.toNat

/-- The position acknowledged, once there is an initial sequence number. -/
theorem ackno_send (r : TCPReceiver) :
    r.send.ackno = if r.isnSet then some (Wrap32.ofPos r.ackPos r.isn) else none := by
  have hnext : r.output.bytesPushed = UInt64.ofNat r.next := UInt64.ofNat_toNat.symm
  have habs : (if r.output.isClosed then r.output.bytesPushed + 1 + 1
      else r.output.bytesPushed + 1) = UInt64.ofNat r.ackPos := by
    rw [hnext, ackPos, ByteStream.isClosed]
    cases r.output.eof <;> simp [UInt64.ofNat_add]
  show (if r.isnSet then some (Wrap32.wrap (if r.output.isClosed then r.output.bytesPushed + 1 + 1
    else r.output.bytesPushed + 1) r.isn) else none) = _
  rw [habs, Wrap32.wrap_ofNat]

/-! ### What a genuine message does -/

/-- A message at position `p` of the sequence numbers of the stream `S`, which starts at `isn`
    and of which the end may be `known`: the SYN at position 0, the payload a slice of `S`, the
    FIN behind the last byte.  A message without SYN at position 0 is empty. -/
structure Genuine (isn : Wrap32) (S : Bytes) (known : Bool) (m : TCPSenderMessage) (p : ℕ) :
    Prop where
  seqno_eq : m.seqno = Wrap32.ofPos p isn
  pos_le : p ≤ S.length + 2
  syn : m.SYN = true → p = 0
  empty : p = 0 → m.SYN = false → m.payload = [] ∧ m.FIN = false
  slice : IsSlice S (p - 1) m.payload
  fin : m.FIN = true → known = true ∧ p - 1 + m.payload.length = S.length

namespace Genuine

variable {isn : Wrap32} {S : Bytes} {known : Bool} {m : TCPSenderMessage} {p : ℕ}

/-- An empty message is genuine at any position. -/
theorem of_empty {seqno : Wrap32} (hseq : seqno = Wrap32.ofPos p isn) (hp : p ≤ S.length + 2) :
    Genuine isn S known { seqno } p where
  seqno_eq := hseq
  pos_le := hp
  syn := by simp
  empty _ _ := ⟨rfl, rfl⟩
  slice := isSlice_nil S (p - 1)
  fin := by simp

end Genuine

/-- What a receiver knows of the stream `S` that starts at `isn`. -/
structure Assembling (isn : Wrap32) (S : Bytes) (known : Bool) (r : TCPReceiver) : Prop where
  slices : r.reassembler.Slices S known
  isn_eq : r.isnSet = true → r.isn = isn

namespace Assembling

variable {isn : Wrap32} {S : Bytes} {known : Bool} {r : TCPReceiver}

/-- What more the stream has, as long as its end is not known. -/
theorem append (h : Assembling isn S false r) (T : Bytes) (known : Bool) :
    Assembling isn (S ++ T) known r :=
  ⟨h.slices.append T known, h.isn_eq⟩

/-- An error leaves what is assembled. -/
theorem setError (h : Assembling isn S known r) :
    Assembling isn S known (r.setOutput r.output.setError) :=
  ⟨{ h.slices with wf := { h.slices.wf with output := h.slices.wf.output.setError } }, h.isn_eq⟩

/-- Reading leaves what is assembled. -/
theorem pop (h : Assembling isn S known r) (len : UInt64) :
    Assembling isn S known (r.setOutput (r.output.pop len)) :=
  ⟨h.slices.pop len, h.isn_eq⟩

end Assembling

/-- The receiver has gone from `r` to `r'` and has written the bytes `written`. -/
structure Received (isn : Wrap32) (S : Bytes) (known : Bool) (r : TCPReceiver)
    (m : TCPSenderMessage) (r' : TCPReceiver) (written : Bytes) : Prop where
  assembling : Assembling isn S known r'
  contents_eq : r'.output.contents = r.output.contents ++ written
  next_eq : r'.next = r.next + written.length
  written_eq : ∀ i b, written[i]? = some b → S[r.next + i]? = some b
  eof : r.output.eof = true → r'.output.eof = true
  isnSet : r.isnSet = true → r'.isnSet = true
  isnSet_of : r'.isnSet = true → r.isnSet = true ∨ m.RST = false ∧ m.SYN = true

variable {isn : Wrap32} {S : Bytes} {known : Bool} {r : TCPReceiver} {m : TCPSenderMessage}

/-- A receiver that only changed flags has written nothing. -/
theorem Received.of_nothing {r' : TCPReceiver} (h : Assembling isn S known r')
    (hcont : r'.output.contents = r.output.contents) (hnext : r'.next = r.next)
    (heof : r'.output.eof = r.output.eof) (hset : r'.isnSet = r.isnSet) :
    Received isn S known r m r' [] where
  assembling := h
  contents_eq := by rw [hcont, List.append_nil]
  next_eq := hnext
  written_eq := by simp
  eof := fun h => heof.trans h
  isnSet := fun h => hset.trans h
  isnSet_of := fun h => .inl (hset.symm.trans h)

/-- The stream index that a genuine message is inserted at. -/
theorem Genuine.toNat_streamIndex {p : ℕ} (hm : Genuine isn S known m p) (checkpoint : UInt64)
    (hp : p < 2 ^ 31) (hc : checkpoint.toNat < 2 ^ 31) :
    (m.seqno.unwrap isn checkpoint - 1 + (if m.SYN then 1 else 0)).toNat
      = if p = 0 ∧ m.SYN = false then 2 ^ 64 - 1 else p - 1 := by
  have habs : m.seqno.unwrap isn checkpoint = UInt64.ofNat p := by
    rw [← UInt64.toNat_inj, hm.seqno_eq, toNat_ofNat_of_lt (by omega)]
    exact Wrap32.unwrap_ofPos_of_near (by omega) (by omega) (by omega)
  rw [habs]
  cases hsyn : m.SYN with
  | true =>
    rw [hm.syn hsyn]
    decide
  | false =>
    rcases Nat.eq_zero_or_pos p with rfl | hpos
    · decide
    · have hone : (1 : UInt64) ≤ UInt64.ofNat p := by
        rw [UInt64.le_iff_toNat_le, toNat_ofNat_of_lt (by omega)]
        exact hpos
      rw [if_neg Bool.false_ne_true, if_neg (fun hboth => hpos.ne' hboth.1), UInt64.add_zero,
        UInt64.toNat_sub_of_le _ _ hone, toNat_ofNat_of_lt (by omega)]
      rfl

/-- **A genuine message** makes the receiver write a slice of the stream that continues its
    output. -/
theorem receive_spec (h : Assembling isn S known r) (hS : S.length + 2 < 2 ^ 31)
    (hm : m.RST = true ∨ ∃ p, Genuine isn S known m p) :
    ∃ written, Received isn S known r m (r.receive m) written := by
  unfold receive
  by_cases hrst : m.RST = true
  · rw [if_pos hrst]
    exact ⟨[], .of_nothing h.setError rfl rfl rfl rfl⟩
  rw [if_neg hrst]
  obtain ⟨p, hm⟩ := hm.resolve_left hrst
  set r₀ : TCPReceiver :=
    if m.SYN = true ∧ ¬ r.isnSet = true then { r with isn := m.seqno, isnSet := true } else r
    with hr₀
  -- the message with the SYN carries the ISN
  have hstart : Assembling isn S known r₀ ∧ r₀.reassembler = r.reassembler ∧
      (r.isnSet = true → r₀.isnSet = true) ∧
      (r₀.isnSet = true → r.isnSet = true ∨ m.RST = false ∧ m.SYN = true) := by
    rw [hr₀]
    split
    · rename_i hsyn
      refine ⟨⟨h.slices, fun _ => ?_⟩, rfl, fun _ => rfl,
        fun _ => .inr ⟨by simpa using hrst, hsyn.1⟩⟩
      show m.seqno = isn
      rw [hm.seqno_eq, hm.syn hsyn.1, Wrap32.ofPos_zero]
    · exact ⟨h, rfl, id, .inl⟩
  obtain ⟨h₀, hsame, hset, hset_of⟩ := hstart
  clear_value r₀
  have hout : r₀.output = r.output := congrArg Reassembler.output hsame
  have hnext₀ : r₀.next = r.next := by rw [next, next, hsame]
  by_cases hdeaf : r₀.isnSet = true
  · rw [if_neg (not_not.mpr hdeaf)]
    have hle := h₀.slices.next_le
    have hpos := hm.pos_le
    have hindex := hm.toNat_streamIndex r₀.output.bytesPushed (by omega)
      (lt_of_le_of_lt hle (by omega))
    rw [h₀.isn_eq hdeaf]
    dsimp only
    generalize m.seqno.unwrap isn r₀.output.bytesPushed - 1 + (if m.SYN then 1 else 0) = f
      at hindex ⊢
    have hslice : IsSlice S f.toNat m.payload := by
      rw [hindex]
      split
      · rename_i hempty
        rw [(hm.empty hempty.1 hempty.2).1]
        exact isSlice_nil S _
      · exact hm.slice
    have hlast : m.FIN = true → known = true ∧ f.toNat + m.payload.length = S.length := by
      intro hfin
      rw [hindex, if_neg]
      · exact hm.fin hfin
      · rintro ⟨hzero, hsyn⟩
        rw [(hm.empty hzero hsyn).2] at hfin
        cases hfin
    obtain ⟨written, he⟩ := h₀.slices.insert (by rw [maxSize]; omega) hslice hlast
    refine ⟨written, ⟨he.slices, fun _ => rfl⟩, ?_, ?_, ?_, ?_, fun _ => hdeaf, hset_of⟩
    · rw [← hout]
      exact he.contents_eq
    · rw [← hnext₀]
      exact he.next_eq
    · rw [← hnext₀]
      exact he.written_eq
    · rw [← hout]
      exact fun heof => he.eof_iff.mpr (.inl heof)
  · rw [if_pos hdeaf]
    refine ⟨[], .of_nothing h₀ ?_ hnext₀ ?_ ?_⟩
    · rw [hout]
    · rw [hout]
    · rw [Bool.eq_iff_iff]
      exact ⟨fun hset' => absurd hset' hdeaf, hset⟩

end TCPReceiver

end Minnow
