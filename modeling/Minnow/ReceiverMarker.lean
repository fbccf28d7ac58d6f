import Minnow.ReassemblerMarker

namespace Minnow

/-!
# Segments at the ISN

A segment that has the sequence number of the SYN, but no SYN, has no byte at a valid stream index,
and its payload is ignored.  Its FIN is not: it sets the marker of the last byte to an index that
no byte has, and the end of the stream that was marked before is lost.

* `ReceiverRun.Alike` — two receivers are the same but for markers that are missed, kept by
  `alike_step`;
* `ReceiverRun.step_atIsn` — what such a segment does;
* `ReceiverRun.separable_of_awaits` — a marker that bytes can still end at can be told from another,
  by a continuation that writes byte after byte;
* `ReceiverRun.not_separable_mark_iff` — two markers cannot be told apart exactly when they are the
  same, or both are missed;
* `ReceiverRun.ignored_iff` — hence the segment has no effect if and only if its FIN is clear, or it
  sets the marker to what it is, or both markers are missed.
-/

open IntervalMap

namespace TCPReceiver

/-- The stream index that the payload of a message is inserted at. -/
def streamIndex (r : TCPReceiver) (m : TCPSenderMessage) : UInt64 :=
  m.seqno.unwrap (if r.isnSet then r.isn else m.seqno) r.output.bytesPushed - 1
    + (if m.SYN then 1 else 0)

/-- What a message does, in one expression. -/
theorem receive_eq (r : TCPReceiver) (m : TCPSenderMessage) :
    r.receive m =
      if m.RST then r.setOutput r.output.setError
      else if r.isnSet ∨ m.SYN then
        { reassembler := r.reassembler.insert (r.streamIndex m) m.payload m.FIN
          isn := if r.isnSet then r.isn else m.seqno
          isnSet := true }
      else r := by
  obtain ⟨reassembler, isn, isnSet⟩ := r
  obtain ⟨seqno, SYN, payload, FIN, RST⟩ := m
  cases RST <;> cases SYN <;> cases isnSet <;> rfl

/-- Once the ISN is set, a message without RST is inserted. -/
theorem receive_of_isnSet {r : TCPReceiver} {m : TCPSenderMessage} (hset : r.isnSet = true)
    (hrst : m.RST = false) :
    r.receive m =
      { r with reassembler := r.reassembler.insert (r.streamIndex m) m.payload m.FIN } := by
  have hreset : ¬ m.RST = true := by simp [hrst]
  rw [receive_eq, if_neg hreset, if_pos (.inl hset), if_pos hset, hset]

/-- The stream index of a segment behind the SYN. -/
theorem streamIndex_of_isnSet {r : TCPReceiver} {m : TCPSenderMessage} (hset : r.isnSet = true)
    (hsyn : m.SYN = false) :
    r.streamIndex m = m.seqno.unwrap r.isn r.output.bytesPushed - 1 := by
  rw [streamIndex, if_pos hset, hsyn]
  exact UInt64.add_zero _

end TCPReceiver

/-- A payload is a string, which cannot be longer than this. -/
def ReceiverOp.Sized : ReceiverOp → Prop
  | .receive message => message.payload.length ≤ maxSize
  | _ => True

instance : DecidablePred ReceiverOp.Sized
  | .receive message => inferInstanceAs (Decidable (message.payload.length ≤ maxSize))
  | .pop _ => inferInstanceAs (Decidable True)
  | .read _ => inferInstanceAs (Decidable True)

namespace ReceiverRun

variable {r r' : ReceiverRun} {op : ReceiverOp}

/-- What can be seen of a receiver: what it sends, the bytes that were read, those that are there to
    be read, and whether the stream is closed. -/
def seen (r : ReceiverRun) : TCPReceiverMessage × Bytes × Bytes × Bool :=
  (r.receiver.send, r.read, r.output.contents, r.output.isClosed)

/-- What is kept of the reassembler in any run. -/
theorem kept_step (h : r.receiver.reassembler.Kept) (hop : op.Sized) :
    (r.step op).receiver.reassembler.Kept := by
  cases op with
  | receive m =>
    show (r.receiver.receive m).reassembler.Kept
    rw [TCPReceiver.receive_eq]
    split
    · exact h.setError
    · split
      · exact h.insert _ hop _
      · exact h
  | pop len => exact h.readFrom (ByteStream.readFrom_pop h.output len)
  | read len => exact h.readFrom (ByteStream.readBytes_spec h.output len).2

/-- Two runs are the same, but for markers that are missed. -/
structure Alike (r r' : ReceiverRun) : Prop where
  reassembler : Reassembler.Alike r.receiver.reassembler r'.receiver.reassembler
  isn : r'.receiver.isn = r.receiver.isn
  isnSet : r'.receiver.isnSet = r.receiver.isnSet
  read : r'.read = r.read

/-- A run is like itself. -/
theorem Alike.refl (r : ReceiverRun) : Alike r r :=
  ⟨.inl rfl, rfl, rfl, rfl⟩

/-- Runs that are alike have the same output. -/
theorem Alike.output_eq (h : Alike r r') : r'.output = r.output := h.reassembler.output_eq

/-- Runs that are alike cannot be told from each other. -/
theorem Alike.seen_eq (h : Alike r r') : r'.seen = r.seen := by
  have hout : r'.receiver.output = r.receiver.output := h.output_eq
  have hsend : r'.receiver.send = r.receiver.send := by
    rw [TCPReceiver.send, TCPReceiver.send, hout, h.isn, h.isnSet]
  rw [seen, seen, hsend, h.read, h.output_eq]

/-- **One step** keeps runs alike. -/
theorem alike_step (h : Alike r r') (hkept : r.receiver.reassembler.Kept) (hop : op.Sized) :
    Alike (r.step op) (r'.step op) := by
  have hout : r'.receiver.output = r.receiver.output := h.output_eq
  cases op with
  | receive m =>
    have hindex : r'.receiver.streamIndex m = r.receiver.streamIndex m := by
      rw [TCPReceiver.streamIndex, TCPReceiver.streamIndex, hout, h.isn, h.isnSet]
    have hreceive : Reassembler.Alike (r.receiver.receive m).reassembler
          (r'.receiver.receive m).reassembler ∧
        (r'.receiver.receive m).isn = (r.receiver.receive m).isn ∧
        (r'.receiver.receive m).isnSet = (r.receiver.receive m).isnSet := by
      rw [TCPReceiver.receive_eq, TCPReceiver.receive_eq, hindex, h.isnSet, h.isn]
      split
      · exact ⟨h.reassembler.setError, h.isn, h.isnSet⟩
      · split
        · exact ⟨h.reassembler.insert hkept _ hop _, rfl, rfl⟩
        · exact ⟨h.reassembler, h.isn, h.isnSet⟩
    exact ⟨hreceive.1, hreceive.2.1, hreceive.2.2, h.read⟩
  | pop len =>
    refine ⟨?_, h.isn, h.isnSet, ?_⟩
    · have hpop := h.reassembler.readFrom hkept (ByteStream.readFrom_pop hkept.output len)
      show Reassembler.Alike _ { r'.receiver.reassembler with output := r'.receiver.output.pop len }
      rw [hout]
      exact hpop
    · show r'.read ++ r'.output.contents.take len.toNat = _
      rw [h.read, h.output_eq]
      rfl
  | read len =>
    refine ⟨?_, h.isn, h.isnSet, ?_⟩
    · have hread := h.reassembler.readFrom hkept (ByteStream.readBytes_spec hkept.output len).2
      show Reassembler.Alike _
        { r'.receiver.reassembler with output := (r'.receiver.output.readBytes len).2 }
      rw [hout]
      exact hread
    · show r'.read ++ (r'.output.readBytes len).1 = _
      rw [h.read, h.output_eq]
      rfl

/-! ### Two kinds of segments -/

/-- The run with another reassembler. -/
def setReassembler (r : ReceiverRun) (reassembler : Reassembler) : ReceiverRun :=
  { r with receiver := { r.receiver with reassembler } }

/-- The run with another marker of the last byte. -/
def mark (r : ReceiverRun) (marker : UInt64) : ReceiverRun :=
  r.setReassembler (r.receiver.reassembler.mark marker)

/-- A segment that claims the sequence number of the SYN, but is none; no byte of it has a valid
    stream index. -/
structure AtIsn (r : ReceiverRun) (m : TCPSenderMessage) : Prop where
  seqno_eq : m.seqno = r.receiver.isn
  not_syn : m.SYN = false
  not_rst : m.RST = false
  short : m.payload.length ≤ 1

/-- Where such a segment ends: at the index `-2` when it is empty, and at `-1` when it has a
    byte. -/
def endMarker (m : TCPSenderMessage) : UInt64 :=
  if m.payload = [] then 0xFFFFFFFFFFFFFFFE else 0xFFFFFFFFFFFFFFFF

/-- **A segment at the ISN** leaves everything as it is, but for the marker when it has a FIN. -/
theorem step_atIsn {m : TCPSenderMessage} (h : r.AtIsn m) (hkept : r.receiver.reassembler.Kept)
    (hset : r.receiver.isnSet = true) (hnear : r.output.bytesPushed.toNat < 2 ^ 31) :
    r.step (.receive m) = if m.FIN then r.mark (endMarker m) else r := by
  have hshort := h.short
  have hnear' : r.receiver.reassembler.nextByteIndex.toNat < 2 ^ 31 := hnear
  -- it stands at the beginning of the sequence numbers, so that its index wraps around
  have hunwrap : m.seqno.unwrap r.receiver.isn r.receiver.output.bytesPushed = 0 := by
    rw [h.seqno_eq, ← UInt64.toNat_inj]
    have hzero := Wrap32.unwrap_ofPos_of_near (z := r.receiver.isn) (n := 0)
      (c := r.receiver.output.bytesPushed) (by omega) (by rwa [Nat.zero_add]) (by omega)
    rwa [Wrap32.ofPos_zero] at hzero
  have hindex : r.receiver.streamIndex m = 0xFFFFFFFFFFFFFFFF := by
    rw [TCPReceiver.streamIndex_of_isnSet hset h.not_syn, hunwrap]
    rfl
  have hlast : (0xFFFFFFFFFFFFFFFF : UInt64).toNat = 2 ^ 64 - 1 := rfl
  have hinsert : r.receiver.reassembler.insert 0xFFFFFFFFFFFFFFFF m.payload m.FIN
      = r.receiver.reassembler.noteLast 0xFFFFFFFFFFFFFFFF m.payload m.FIN := by
    rcases Reassembler.insert_cases_sized hkept.output (hshort.trans (by decide))
      0xFFFFFFFFFFFFFFFF m.FIN with ⟨-, -, hnext, -⟩ | hnote | ⟨hroom, hbefore, -⟩
    · rw [← hnext, hlast] at hnear'
      omega
    · exact hnote
    · rw [hlast] at hbefore
      omega
  have hend : 0xFFFFFFFFFFFFFFFF + Reassembler.length m.payload - 1 = endMarker m := by
    rw [endMarker]
    match m.payload, hshort with
    | [], _ => rfl
    | [_], _ =>
      rw [if_neg (List.cons_ne_nil _ _)]
      exact UInt64.add_sub_cancel _ _
  show { r with receiver := r.receiver.receive m } = _
  rw [TCPReceiver.receive_of_isnSet hset h.not_rst, hindex, hinsert, Reassembler.noteLast, hend]
  by_cases hfin : m.FIN = true
  · rw [if_pos hfin, if_pos hfin]
    rfl
  · rw [if_neg hfin, if_neg hfin]

/-- A segment that brings bytes from an index on. -/
def segmentAt (r : ReceiverRun) (index : UInt64) (payload : Bytes) : TCPSenderMessage :=
  { seqno := Wrap32.ofPos (index.toNat + 1) r.receiver.isn, payload }

/-- Its bytes are inserted at that index, when it is the next one or the one before. -/
theorem step_segmentAt (hset : r.receiver.isnSet = true) (index : UInt64)
    (hindex : index.toNat + 1 < 2 ^ 64)
    (hle : index.toNat ≤ r.receiver.reassembler.nextByteIndex.toNat)
    (hnext : r.receiver.reassembler.nextByteIndex.toNat ≤ index.toNat + 1) (payload : Bytes) :
    r.step (.receive (r.segmentAt index payload)) =
      r.setReassembler (r.receiver.reassembler.insert index payload false) := by
  have hunwrap : (Wrap32.ofPos (index.toNat + 1) r.receiver.isn).unwrap r.receiver.isn
      r.receiver.reassembler.nextByteIndex = index + 1 := by
    rw [← UInt64.toNat_inj, toNat_add_of_lt hindex]
    exact Wrap32.unwrap_ofPos_of_near hindex (by omega) (by omega)
  have hstream : r.receiver.streamIndex (r.segmentAt index payload) = index := by
    rw [TCPReceiver.streamIndex_of_isnSet hset rfl]
    show (Wrap32.ofPos (index.toNat + 1) r.receiver.isn).unwrap r.receiver.isn
      r.receiver.reassembler.nextByteIndex - 1 = index
    rw [hunwrap]
    exact UInt64.add_sub_cancel _ _
  show { r with receiver := r.receiver.receive (r.segmentAt index payload) } = _
  rw [TCPReceiver.receive_of_isnSet hset rfl, hstream]
  rfl

/-! ### Telling markers apart -/

/-- Some segments and reads take the two runs to states that look different. -/
def Separable (r r' : ReceiverRun) : Prop :=
  Machine.Separable step ReceiverOp.Sized seen r r'

/-- Whether the stream has ended can be seen. -/
theorem seen_ne (h : r'.output.eof ≠ r.output.eof) : r.seen ≠ r'.seen := by
  intro hseen
  apply h
  exact (congrArg (fun look => look.2.2.2) hseen).symm

/-- One byte more arrives, where there is room. -/
theorem awaits_step {marker : UInt64} (h : r.receiver.reassembler.Awaits)
    (hset : r.receiver.isnSet = true) (hne : r.receiver.reassembler.lastByte ≠ marker)
    (hfree : 0 < r.receiver.reassembler.availableCapacity.toNat) :
    let op : ReceiverOp :=
      .receive (r.segmentAt r.receiver.reassembler.nextByteIndex [0])
    op.Sized ∧ (((r.mark marker).step op).seen ≠ (r.step op).seen ∨
      (r.mark marker).step op = (r.step op).mark marker ∧
        (r.step op).receiver.reassembler.Awaits ∧ (r.step op).receiver.isnSet = true ∧
        (r.step op).receiver.reassembler.lastByte = r.receiver.reassembler.lastByte ∧
        r.receiver.reassembler.nextByteIndex.toNat
          < (r.step op).receiver.reassembler.nextByteIndex.toNat) := by
  intro op
  have hle := h.next_le
  have hlt := h.lastByte_lt
  have hstep : r.step op = _ :=
    step_segmentAt hset r.receiver.reassembler.nextByteIndex (by omega) le_rfl (Nat.le_succ _) [0]
  have hstep' : (r.mark marker).step op = _ :=
    step_segmentAt (r := r.mark marker) hset r.receiver.reassembler.nextByteIndex (by omega) le_rfl
      (Nat.le_succ _) [0]
  refine ⟨(by decide : ([0] : Bytes).length ≤ maxSize), ?_⟩
  rw [hstep, hstep']
  rcases h.insert hne hfree 0 with hdiffer | ⟨hmark, hawaits, hgrows⟩
  · exact .inl (seen_ne hdiffer.symm)
  · refine .inr ⟨?_, hawaits, hset, Reassembler.lastByte_insert_false _ _ _, hgrows⟩
    exact congrArg r.setReassembler hmark

/-- **A marker that is awaited** can be told from any other: one byte after the other is written,
    and one is read where there is no room. -/
theorem separable_of_awaits {marker : UInt64} (h : r.receiver.reassembler.Awaits)
    (hset : r.receiver.isnSet = true) (hne : r.receiver.reassembler.lastByte ≠ marker) :
    Separable r (r.mark marker) := by
  -- the bytes up to the marker are counted down
  induction hleft : r.receiver.reassembler.lastByte.toNat
    - r.receiver.reassembler.nextByteIndex.toNat using Nat.strong_induction_on generalizing r with
  | _ left ih =>
  -- one byte more, where there is room
  have hbyte : ∀ r₁ : ReceiverRun, r₁.receiver.reassembler.Awaits → r₁.receiver.isnSet = true →
      r₁.receiver.reassembler.lastByte ≠ marker →
      r₁.receiver.reassembler.lastByte.toNat - r₁.receiver.reassembler.nextByteIndex.toNat = left →
      0 < r₁.receiver.reassembler.availableCapacity.toNat → Separable r₁ (r₁.mark marker) := by
    intro r₁ h₁ hset₁ hne₁ hleft₁ hfree
    obtain ⟨hsized, hstep⟩ := awaits_step h₁ hset₁ hne₁ hfree
    apply Machine.Separable.of_step hsized
    rcases hstep with hdiffer | ⟨hmark, hawaits, hset₂, hlast, hgrows⟩
    · exact Machine.separable_of_ne hdiffer.symm
    · rw [hmark]
      have hle := hawaits.next_le
      rw [hlast] at hle
      exact ih _ (by rw [hlast]; omega) hawaits hset₂ (by rwa [hlast]) rfl
  by_cases hfull : r.receiver.reassembler.availableCapacity.toNat = 0
  · -- one byte is read
    obtain ⟨hawaits, havail⟩ := h.pop hfull
    have hnext : (r.step (.pop 1)).receiver.reassembler.nextByteIndex
        = r.receiver.reassembler.nextByteIndex :=
      (ByteStream.readFrom_pop h.kept.output 1).pushed_eq
    apply Machine.Separable.of_step (i := .pop 1) trivial
    refine hbyte (r.step (.pop 1)) hawaits hset hne ?_ (by exact havail.symm ▸ Nat.one_pos)
    rw [hnext]
    exact hleft
  · exact hbyte r h hset hne hleft (by omega)

/-- **A marker that is not missed** can be told from any other. -/
theorem separable_of_not_missed {marker : UInt64} (hkept : r.receiver.reassembler.Kept)
    (hset : r.receiver.isnSet = true) (hnear : r.output.bytesPushed.toNat < 2 ^ 31)
    (hne : r.receiver.reassembler.lastByte ≠ marker)
    (hnot : ¬ Reassembler.Missed r.receiver.reassembler r.receiver.reassembler.lastByte) :
    Separable r (r.mark marker) := by
  have hnear' : r.receiver.reassembler.nextByteIndex.toNat < 2 ^ 31 := hnear
  have havail : r.receiver.reassembler.availableCapacity.toNat ≤ maxSize :=
    hkept.output.available_le.trans hkept.output.capacity_le
  rw [maxSize] at havail
  obtain ⟨hopen, hawaits | ⟨hnext, hfull⟩⟩ :=
    Reassembler.awaits_of_not_missed hkept (by omega) hnot
  · exact separable_of_awaits hawaits hset hne
  -- two bytes, of which the first is written already and the second does not fit
  have hdiffer := Reassembler.insert_unlike_full (hkept.wf hopen) hopen hne hnext hfull (by omega)
    0 0
  have hstep := step_segmentAt hset r.receiver.reassembler.lastByte (by omega) (by omega) hnext.ge
    [0, 0]
  have hstep' := step_segmentAt (r := r.mark marker) hset r.receiver.reassembler.lastByte (by omega)
    (Nat.le_of_succ_le hnext.le) hnext.ge [0, 0]
  have hsized : ([0, 0] : Bytes).length ≤ maxSize := by decide
  apply Machine.Separable.of_step
    (i := .receive (r.segmentAt r.receiver.reassembler.lastByte [0, 0])) hsized
  apply Machine.separable_of_ne
  rw [hstep]
  apply seen_ne
  exact fun heof => hdiffer ((congrArg (fun r => r.output.eof) hstep').symm.trans heof)

/-- Markers that are missed make no difference that can be seen. -/
theorem not_separable_of_alike (h : Alike r r') (hkept : r.receiver.reassembler.Kept) :
    ¬ Separable r r' := by
  refine Machine.not_separable_of_related
    (R := fun r r' : ReceiverRun => r.receiver.reassembler.Kept ∧ Alike r r') ?_ ?_ ⟨hkept, h⟩
  · rintro r r' op hop ⟨hkept, halike⟩
    exact ⟨kept_step hkept hop, alike_step halike hkept hop⟩
  · rintro r r' ⟨-, halike⟩
    exact halike.seen_eq.symm

/-- Runs are alike where no byte can end at their markers. -/
theorem alike_mark {marker : UInt64}
    (h : Reassembler.Missed r.receiver.reassembler r.receiver.reassembler.lastByte)
    (h' : Reassembler.Missed r.receiver.reassembler marker) : Alike r (r.mark marker) :=
  ⟨.inr ⟨marker, rfl, h, h'⟩, rfl, rfl, rfl⟩

/-- **Another marker** cannot be told from the one that is set exactly when it is the same, or both
    are missed. -/
theorem not_separable_mark_iff {marker : UInt64} (hkept : r.receiver.reassembler.Kept)
    (hset : r.receiver.isnSet = true) (hnear : r.output.bytesPushed.toNat < 2 ^ 31) :
    ¬ Separable r (r.mark marker) ↔ r.receiver.reassembler.lastByte = marker ∨
      Reassembler.Missed r.receiver.reassembler r.receiver.reassembler.lastByte ∧
        Reassembler.Missed r.receiver.reassembler marker := by
  constructor
  · intro hsame
    rw [or_iff_not_imp_left]
    intro hne
    refine ⟨?_, ?_⟩ <;> by_contra hnot
    · exact hsame (separable_of_not_missed hkept hset hnear hne hnot)
    · -- the two markers in exchange
      have hnot' : ¬ Reassembler.Missed (r.receiver.reassembler.mark marker) marker :=
        fun hmissed => hnot (hmissed.mark r.receiver.reassembler.lastByte)
      have hback : Separable (r.mark marker) r :=
        separable_of_not_missed (r := r.mark marker) (hkept.mark marker) hset hnear
          (Ne.symm hne) hnot'
      exact hsame hback.symm
  · rintro (rfl | ⟨hmissed, hmissed'⟩)
    · exact not_separable_of_alike (.refl r) hkept
    · exact not_separable_of_alike (alike_mark hmissed hmissed') hkept

/-- Whatever follows, nothing that is seen differs from what is seen without the message. -/
def NoEffect (r : ReceiverRun) (m : TCPSenderMessage) : Prop :=
  ∀ ops : List ReceiverOp, (∀ op ∈ ops, op.Sized) →
    (Machine.run step r (.receive m :: ops)).seen = (Machine.run step r ops).seen

/-- A segment has no effect if nothing that follows tells whether it was received. -/
theorem noEffect_iff {m : TCPSenderMessage} :
    r.NoEffect m ↔ ¬ Separable r (r.step (.receive m)) := by
  constructor
  · rintro h ⟨ops, hops, hne⟩
    exact hne (h ops hops).symm
  · intro h ops hops
    by_contra hne
    exact h ⟨ops, hops, Ne.symm hne⟩

/-- **A segment at the ISN**, without SYN, has no effect if and only if it has no FIN, or the marker
    is already where it ends, or no bytes that are written can end at the one or the other. -/
theorem ignored_iff {capacity : UInt64} {output : ByteStream}
    (hnew : ByteStream.new capacity = .ok output) {ops : List ReceiverOp}
    (hops : ∀ op ∈ ops, op.Sized) (m : TCPSenderMessage) :
    let r := Machine.run step (start output) ops
    let reassembler := r.receiver.reassembler
    r.receiver.isnSet = true → r.output.bytesPushed.toNat < 2 ^ 31 → r.AtIsn m →
      (r.NoEffect m ↔ m.FIN = false ∨ reassembler.lastByte = endMarker m ∨
        Reassembler.Missed reassembler reassembler.lastByte ∧
          Reassembler.Missed reassembler (endMarker m)) := by
  intro r reassembler hset hnear hm
  have hkept : reassembler.Kept :=
    (Machine.meets_of_forall hops).invariant
      (P := fun r : ReceiverRun => r.receiver.reassembler.Kept)
      (fun _ _ hkept hop => kept_step hkept hop) (.new hnew)
  clear_value r
  rw [noEffect_iff, step_atIsn hm hkept hset hnear]
  by_cases hfin : m.FIN = true
  · have hlast : m.FIN ≠ false := by simp [hfin]
    rw [if_pos hfin, or_iff_right hlast]
    exact not_separable_mark_iff hkept hset hnear
  · have hclear : m.FIN = false := by simpa using hfin
    rw [if_neg hfin]
    exact iff_of_true (not_separable_of_alike (.refl r) hkept) (.inl hclear)

/-- A byte with an invalid stream index, right after the SYN. -/
theorem ignored_iff_byte :
    (Machine.run step (start (ByteStream.empty 4))
      [.receive { seqno := ⟨23452⟩, SYN := true }]).NoEffect
        { seqno := ⟨23452⟩, payload := [97] } :=
  (ignored_iff (@ByteStream.new_eq_ok 4 (by decide)) (by decide) _ (by decide) (by decide)
    ⟨by decide, rfl, rfl, by decide⟩).mpr (.inl rfl)

/-- The second byte of two has arrived, with the FIN.  An empty segment at the ISN with a FIN makes
    the receiver forget that the stream ends there, and the first byte does not close it. -/
theorem end_forgotten :
    let r := Machine.run step (start (ByteStream.empty 4))
      [.receive { seqno := ⟨7⟩, SYN := true },
        .receive { seqno := ⟨9⟩, payload := [2], FIN := true }]
    let m : TCPSenderMessage := { seqno := ⟨7⟩, FIN := true }
    r.receiver.isnSet = true ∧ r.output.bytesPushed.toNat < 2 ^ 31 ∧ r.AtIsn m ∧
      ¬ r.NoEffect m := by
  intro r m
  refine ⟨by decide, by decide, ⟨by decide, rfl, rfl, by decide⟩, fun h => ?_⟩
  have hseen := h [.receive { seqno := ⟨8⟩, payload := [1] }] (by decide)
  revert hseen
  decide

end ReceiverRun

end Minnow
