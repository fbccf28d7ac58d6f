import Minnow.TCPReceiver
import Minnow.Library.Machine

namespace Minnow

/-!
# What the receiver promises

The acknowledgment and the right edge of the window that a receiver advertises, for any messages
that arrive, genuine or not.

* `ByteStream.WrittenInto`, `Reassembler.insert_writes` — whatever is inserted, the output is only
  written to, and perhaps closed;
* `ReceiverRun` — a receiver and the bytes that the owner of the inbound stream took from it;
* `ReceiverRun.Advances` — from one state to a later one the ISN stays, and neither the
  acknowledgment nor the right edge moves back;
* `ReceiverRun.never_moves_back` — so it is between any two states of a run.
-/

/-! ### What an insertion does to the output -/

namespace ByteStream

/-- The bytes `written` were written behind those of `s`, and the stream perhaps closed, which
    left `s'`. -/
structure WrittenInto (s s' : ByteStream) (written : Bytes) : Prop where
  wf : s'.WF
  contents_eq : s'.contents = s.contents ++ written
  capacity_eq : s'.capacity = s.capacity
  popped_eq : s'.bytePopped = s.bytePopped
  eof : s.eof = true → s'.eof = true

namespace WrittenInto

variable {s s' : ByteStream} {written : Bytes}

/-- Nothing was written. -/
theorem refl (h : s.WF) : WrittenInto s s [] where
  wf := h
  contents_eq := (List.append_nil _).symm
  capacity_eq := rfl
  popped_eq := rfl
  eof := id

/-- What the stream has room for is written. -/
theorem push (h : s.WF) (data : Bytes) : WrittenInto s (s.push data) (s.accepted data) := by
  obtain ⟨hwf, hcontents, hcap, heof, -, hpopped, -⟩ := push_spec h data
  exact ⟨hwf, hcontents, hcap, hpopped, heof.trans⟩

/-- Closing writes nothing. -/
theorem close (h : WrittenInto s s' written) : WrittenInto s s'.close written where
  wf := h.wf.close
  contents_eq := h.contents_eq
  capacity_eq := h.capacity_eq
  popped_eq := h.popped_eq
  eof _ := rfl

end WrittenInto

end ByteStream

namespace Reassembler

open ByteStream

/-- Storing a substring writes to the output, and closes it, but nothing else. -/
theorem store_writes {r : Reassembler} (h : r.output.WF) (f : UInt64) (d : Bytes) :
    ∃ written, WrittenInto r.output (r.store f d).output written := by
  unfold store
  dsimp only
  split
  · exact ⟨[], .refl h⟩
  · rename_i key substring rest hentries
    split
    · have hpush := WrittenInto.push h substring
      refine ⟨r.output.accepted substring, ?_⟩
      split
      · exact hpush.close
      · exact hpush
    · exact ⟨[], .refl h⟩

/-- Whatever is inserted where: the output is written to, and perhaps closed. -/
theorem insert_writes {r : Reassembler} (h : r.output.WF) (f : UInt64) (d : Bytes) (last : Bool) :
    ∃ written, WrittenInto r.output (r.insert f d last).output written := by
  unfold insert
  split
  · exact ⟨[], (WrittenInto.refl h).close⟩
  dsimp only
  -- noting where the last byte is leaves the output as it is
  have hnote : ∀ r₀ : Reassembler, r₀.output = r.output →
      ∃ written, WrittenInto r.output (if f < r₀.nextByteIndex + r₀.availableCapacity ∧
        f + length d > r₀.nextByteIndex then r₀.store f d else r₀).output written := by
    intro r₀ hsame
    split
    · rw [← hsame]
      exact store_writes (hsame.symm ▸ h) f d
    · rw [hsame]
      exact ⟨[], .refl h⟩
  apply hnote
  split <;> rfl

end Reassembler

namespace TCPReceiver

/-- **Any message** makes the receiver write to its output, and leaves an ISN that was set. -/
theorem receive_writes {r : TCPReceiver} (h : r.output.WF) (m : TCPSenderMessage) :
    (∃ written, ByteStream.WrittenInto r.output (r.receive m).output written) ∧
      (r.isnSet = true → (r.receive m).isnSet = true ∧ (r.receive m).isn = r.isn) := by
  unfold receive
  split
  · exact ⟨⟨[], h.setError, (List.append_nil _).symm, rfl, rfl, id⟩, fun hset => ⟨hset, rfl⟩⟩
  set r₀ : TCPReceiver :=
    if m.SYN = true ∧ ¬ r.isnSet = true then { r with isn := m.seqno, isnSet := true } else r
    with hr₀
  -- a SYN counts only where no ISN was set
  have hstart : r₀.reassembler = r.reassembler ∧
      (r.isnSet = true → r₀.isnSet = true ∧ r₀.isn = r.isn) := by
    rw [hr₀]
    split
    · rename_i hsyn
      exact ⟨rfl, fun hset => absurd hset hsyn.2⟩
    · exact ⟨rfl, fun hset => ⟨hset, rfl⟩⟩
  obtain ⟨hsame, hisn⟩ := hstart
  clear_value r₀
  have hout : r₀.output = r.output := congrArg Reassembler.output hsame
  have hwf : r₀.output.WF := by rwa [hout]
  by_cases hdeaf : r₀.isnSet = true
  · rw [if_neg (not_not.mpr hdeaf), ← hout]
    exact ⟨Reassembler.insert_writes hwf _ _ _, hisn⟩
  · rw [if_pos hdeaf, hout]
    exact ⟨⟨[], .refl h⟩, hisn⟩

/-- The advertised window: the room in the stream, as far as 16 bits show it. -/
theorem toNat_windowSize_send (r : TCPReceiver) :
    r.send.windowSize.toNat = min r.output.availableCapacity.toNat 65535 := by
  show (if r.output.availableCapacity > 0xFFFF then 0xFFFF
    else r.output.availableCapacity.toUInt16 : UInt16).toNat = _
  have hmax : (0xFFFF : UInt64).toNat = 65535 := rfl
  split
  · rename_i hlarge
    have hlt := UInt64.lt_iff_toNat_lt.mp hlarge
    show 65535 = _
    omega
  · rename_i hsmall
    have hle := Nat.not_lt.mp (fun hlt => hsmall (UInt64.lt_iff_toNat_lt.mpr hlt))
    rw [UInt64.toNat_toUInt16]
    omega

end TCPReceiver

/-! ### Runs -/

/-- A receiver with the bytes that were read. -/
structure ReceiverRun where
  receiver : TCPReceiver
  /-- everything the owner of the inbound stream has taken from it -/
  read : Bytes := []

/-- A message arrives, or the owner reads. -/
inductive ReceiverOp where
  | receive (message : TCPSenderMessage)
  | pop (len : UInt64)
  | read (len : UInt64)

namespace ReceiverRun

open ByteStream

/-- The inbound stream. -/
def output (r : ReceiverRun) : ByteStream := r.receiver.output

/-- The method; what is taken from the stream is added to `read`. -/
def step (r : ReceiverRun) : ReceiverOp → ReceiverRun
  | .receive message => { r with receiver := r.receiver.receive message }
  | .pop len =>
    { receiver := r.receiver.setOutput (r.output.pop len)
      read := r.read ++ r.output.contents.take len.toNat }
  | .read len =>
    let (out, reader) := r.output.readBytes len
    { receiver := r.receiver.setOutput reader, read := r.read ++ out }

/-- The receiver before anything has arrived. -/
def start (output : ByteStream) : ReceiverRun := { receiver := .new (.new output) }

/-- How many bytes were ever pushed to the inbound stream; `bytes_pushed` counts them in
    64 bits. -/
def pushed (r : ReceiverRun) : ℕ := r.read.length + r.output.contents.length

/-- The absolute acknowledgment: the bytes pushed behind the SYN, and 1 once the stream is
    closed. -/
def absAckno (r : ReceiverRun) : ℕ := r.pushed + 1 + r.output.isClosed.toNat

/-- The window that `send` advertises. -/
def window (r : ReceiverRun) : ℕ := r.receiver.send.windowSize.toNat

/-- What the run keeps of the inbound stream. -/
structure Counted (capacity : UInt64) (r : ReceiverRun) : Prop where
  wf : r.output.WF
  capacity_eq : r.output.capacity = capacity
  popped_eq : r.output.bytePopped = UInt64.ofNat r.read.length

/-- What lies between a state and a later one. -/
structure Advances (r r' : ReceiverRun) : Prop where
  isn : r.receiver.isnSet = true → r'.receiver.isnSet = true ∧ r'.receiver.isn = r.receiver.isn
  ack : r.absAckno ≤ r'.absAckno
  edge : r.absAckno + r.window ≤ r'.absAckno + r'.window

variable {capacity : UInt64} {r r' r'' : ReceiverRun}

/-- Nothing has happened. -/
theorem Advances.refl (r : ReceiverRun) : Advances r r :=
  ⟨fun h => ⟨h, rfl⟩, le_rfl, le_rfl⟩

/-- One thing after the other. -/
theorem Advances.trans (h : Advances r r') (h' : Advances r' r'') : Advances r r'' where
  isn hset := by
    obtain ⟨hset', hisn⟩ := h.isn hset
    exact ⟨(h'.isn hset').1, (h'.isn hset').2.trans hisn⟩
  ack := h.ack.trans h'.ack
  edge := h.edge.trans h'.edge

/-- Nothing was pushed or read. -/
theorem Counted.start {output : ByteStream} (hnew : ByteStream.new capacity = .ok output) :
    Counted capacity (start output) := by
  obtain ⟨hwf, -, hcap, -, -, -, hpopped⟩ := new_spec hnew
  exact ⟨hwf, hcap, hpopped⟩

namespace Counted

/-- The counter of `bytes_pushed`, and with it the ackno, are those of the exact count. -/
theorem bytesPushed_eq (h : Counted capacity r) : r.output.bytesPushed = UInt64.ofNat r.pushed := by
  have hbuf : r.output.capacity - r.output.availableCapacity
      = UInt64.ofNat r.output.contents.length := by
    rw [← UInt64.toNat_inj, ← toNat_bytesBuffered h.wf, UInt64.ofNat_toNat]
    rfl
  rw [bytesPushed, h.wf.pushed_eq, h.popped_eq, hbuf, pushed, UInt64.ofNat_add]

/-- Once there is an initial sequence number, the number acknowledged is the next one expected. -/
theorem ackno_send (h : Counted capacity r) :
    r.receiver.send.ackno
      = if r.receiver.isnSet then some (Wrap32.wrap (UInt64.ofNat r.absAckno) r.receiver.isn)
        else none := by
  have habs : (if r.output.isClosed then r.output.bytesPushed + 1 + 1
      else r.output.bytesPushed + 1) = UInt64.ofNat r.absAckno := by
    rw [h.bytesPushed_eq, absAckno]
    cases r.output.isClosed <;> simp [UInt64.ofNat_add]
  show (if r.receiver.isnSet then some (Wrap32.wrap (if r.output.isClosed
    then r.output.bytesPushed + 1 + 1 else r.output.bytesPushed + 1) r.receiver.isn) else none) = _
  rw [habs]

/-- Buffered bytes and window fit into the capacity. -/
theorem window_le (h : Counted capacity r) :
    r.output.bytesBuffered.toNat + r.window ≤ capacity.toNat := by
  have hlen := length_contents h.wf
  have hcap := h.capacity_eq
  have hwindow : r.window = min r.output.availableCapacity.toNat 65535 :=
    TCPReceiver.toNat_windowSize_send r.receiver
  rw [toNat_bytesBuffered h.wf, hwindow, ← hcap]
  omega

/-- Both edges, where the numbers they are made of are known to have moved forward: `n` bytes
    more were pushed, and the room went down by no more than that. -/
theorem advances (h : Counted capacity r) (h' : Counted capacity r')
    (hisn : r.receiver.isnSet = true →
      r'.receiver.isnSet = true ∧ r'.receiver.isn = r.receiver.isn)
    (hpushed : r.pushed ≤ r'.pushed) (hread : r.read.length ≤ r'.read.length)
    (heof : r.output.eof = true → r'.output.eof = true) : Advances r r' := by
  have hflag : r.output.isClosed.toNat ≤ r'.output.isClosed.toNat := by
    show r.output.eof.toNat ≤ r'.output.eof.toNat
    exact Bool.toNat_le_toNat heof
  have hlen := length_contents h.wf
  have hlen' := length_contents h'.wf
  rw [h.capacity_eq] at hlen
  rw [h'.capacity_eq] at hlen'
  have hwindow : r.window = min r.output.availableCapacity.toNat 65535 :=
    TCPReceiver.toNat_windowSize_send r.receiver
  have hwindow' : r'.window = min r'.output.availableCapacity.toNat 65535 :=
    TCPReceiver.toNat_windowSize_send r'.receiver
  simp only [pushed] at hpushed
  refine ⟨hisn, ?_, ?_⟩
  · simp only [absAckno, pushed]
    omega
  · simp only [absAckno, pushed, hwindow, hwindow']
    omega

/-- Whatever the owner takes off the front of the stream makes room. -/
theorem taken (h : Counted capacity r) {reader : ByteStream} {out : Bytes}
    (hread : ReadFrom r.output reader out) :
    let r' : ReceiverRun := { receiver := r.receiver.setOutput reader, read := r.read ++ out }
    Counted capacity r' ∧ Advances r r' := by
  intro r'
  have h' : Counted capacity r' := by
    refine ⟨hread.wf, hread.capacity_eq.trans h.capacity_eq, ?_⟩
    show reader.bytePopped = UInt64.ofNat (r.read ++ out).length
    rw [hread.popped_eq, h.popped_eq, List.length_append, UInt64.ofNat_add]
  refine ⟨h', h.advances h' (fun hset => ⟨hset, rfl⟩) ?_ ?_ hread.eof_eq.trans⟩
  · show r.read.length + r.output.contents.length ≤ (r.read ++ out).length + reader.contents.length
    rw [hread.contents_eq, List.length_append, List.length_append]
    omega
  · show r.read.length ≤ (r.read ++ out).length
    rw [List.length_append]
    omega

/-- **One step**, whatever arrives and however much is read. -/
theorem step (h : Counted capacity r) (op : ReceiverOp) :
    Counted capacity (r.step op) ∧ Advances r (r.step op) := by
  cases op with
  | receive message =>
    obtain ⟨⟨written, hwritten⟩, hisn⟩ := TCPReceiver.receive_writes h.wf message
    have h' : Counted capacity (r.step (.receive message)) :=
      ⟨hwritten.wf, hwritten.capacity_eq.trans h.capacity_eq,
        hwritten.popped_eq.trans h.popped_eq⟩
    refine ⟨h', h.advances h' hisn ?_ le_rfl hwritten.eof⟩
    show r.read.length + r.output.contents.length
      ≤ r.read.length + (r.receiver.receive message).output.contents.length
    rw [hwritten.contents_eq, List.length_append]
    show r.read.length + r.receiver.output.contents.length ≤ _
    omega
  | pop len => exact h.taken (readFrom_pop h.wf len)
  | read len =>
    obtain ⟨hout, hread⟩ := readBytes_spec h.wf len
    rw [← hout] at hread
    exact h.taken hread

/-- **Run.**  A receiver stays counted, and goes forward. -/
theorem run (h : Counted capacity r) (ops : List ReceiverOp) :
    Counted capacity (Machine.run ReceiverRun.step r ops) ∧
      Advances r (Machine.run ReceiverRun.step r ops) :=
  Machine.run_invariant (P := fun s => Counted capacity s ∧ Advances r s)
    (fun _ op hs => ⟨(hs.1.step op).1, hs.2.trans (hs.1.step op).2⟩) ⟨h, .refl r⟩ ops

end Counted

/-- **Nothing moves back.**  Between any two states of a run, whatever messages arrive and however
    much is read: the ISN stays once it is set, and neither the acknowledgment nor the right edge
    of the window decreases.  The ackno that `send` reports is the wrap of that acknowledgment, and
    buffered bytes and window fit into the capacity. -/
theorem never_moves_back {capacity : UInt64} {output : ByteStream}
    (hnew : ByteStream.new capacity = .ok output) (ops ops' : List ReceiverOp) :
    let r := Machine.run step (start output) ops
    let r' := Machine.run step r ops'
    (r.receiver.isnSet = true →
        r'.receiver.isnSet = true ∧ r'.receiver.isn = r.receiver.isn) ∧
      r.output.bytesPushed = UInt64.ofNat r.pushed ∧
      r.receiver.send.ackno
        = (if r.receiver.isnSet then some (Wrap32.wrap (UInt64.ofNat r.absAckno) r.receiver.isn)
          else none) ∧
      r.absAckno ≤ r'.absAckno ∧
      r.absAckno + r.window ≤ r'.absAckno + r'.window ∧
      r.output.bytesBuffered.toNat + r.window ≤ capacity.toNat := by
  intro r r'
  obtain ⟨hcounted, -⟩ := (Counted.start hnew).run ops
  obtain ⟨-, hadvances⟩ := hcounted.run ops'
  exact ⟨hadvances.isn, hcounted.bytesPushed_eq, hcounted.ackno_send, hadvances.ack,
    hadvances.edge, hcounted.window_le⟩

/-- Three bytes after the SYN fill the stream; the owner takes two of them; a forged SYN and the
    FIN follow. -/
theorem never_moves_back_full :
    let r := Machine.run step (start (empty 3))
      [.receive { seqno := ⟨7⟩, SYN := true, payload := [1, 2, 3, 4] }]
    let r' := Machine.run step r
      [.read 2, .receive { seqno := ⟨99⟩, SYN := true }, .receive { seqno := ⟨11⟩, FIN := true }]
    r'.receiver.isn = r.receiver.isn ∧ r.absAckno + r.window ≤ r'.absAckno + r'.window := by
  obtain ⟨hisn, -, -, -, hedge, -⟩ := never_moves_back (@new_eq_ok 3 (by decide))
    [.receive { seqno := ⟨7⟩, SYN := true, payload := [1, 2, 3, 4] }]
    [.read 2, .receive { seqno := ⟨99⟩, SYN := true }, .receive { seqno := ⟨11⟩, FIN := true }]
  exact ⟨(hisn (by decide)).2, hedge⟩

end ReceiverRun

end Minnow
