import Minnow.ByteStream
import Minnow.Library.BoundedQueue
import Minnow.Library.Machine

namespace Minnow

/-!
# The byte stream is a bounded queue

The ring buffer is indexed without checks, and its indices are taken modulo its capacity, which
may be 0.  Here each operation has its checks written out: an index outside of the buffer, a
modulus 0, and a loop that would go on are errors.

* `ByteStream.pushChecked_eq` etc. — on a well-formed stream no check fails;
* `ByteStream.Implements` — a stream stands for a `BoundedQueue`;
* `ByteStream.bounded_fifo` — every run of a stream is the run of the queue it stands for.
-/

namespace ByteStream

/-! ### Operations with their checks -/

/-- The index of `buf_[ index ]`, when there is such an element. -/
def checkIndex (s : ByteStream) (index : UInt64) : Except StdException ℕ :=
  if index.toNat < s.buf.length then .ok index.toNat
  else .error (.undefinedBehaviour "buf_[] out of range")

/-- `x % capacity_`, when that is a number. -/
def checkMod (s : ByteStream) (x : UInt64) : Except StdException UInt64 :=
  if s.capacity = 0 then .error (.undefinedBehaviour "modulo by zero") else .ok (x % s.capacity)

/-- Write a byte, if the index is within the buffer and there is something to divide by. -/
def putByteChecked (s : ByteStream) (c : UInt8) : Except StdException ByteStream := do
  let index ← s.checkIndex s.bufEnd
  let bufEnd ← s.checkMod (s.bufEnd + 1)
  return { s with buf := s.buf.set index c, bufEnd }

/-- `push`, with what it needs to be defined. -/
def pushChecked (s : ByteStream) (data : Bytes) : Except StdException ByteStream :=
  if s.eof then .ok s
  else
    let len := UInt64.ofNat (min data.length s.availableCapacity.toNat)
    if len = 0 then .ok s
    else do
      let s ← (data.take len.toNat).foldlM putByteChecked s
      return { s with
        availableCapacity := s.availableCapacity - len
        bytePushed := s.bytePushed + len }

/-- `peek`, with what it needs to be defined. -/
def peekChecked (s : ByteStream) : Except StdException Bytes :=
  if s.bytesBuffered = 0 then .ok []
  else do
    let index ← s.checkIndex s.bufStart
    return [s.buf.getD index default]

/-- `pop`, with what it needs to be defined. -/
def popChecked (s : ByteStream) (len : UInt64) : Except StdException ByteStream :=
  if s.bytesBuffered = 0 then .ok s
  else do
    let len := min s.bytesBuffered len
    let bufStart ← s.checkMod (s.bufStart + len)
    return { s with
      bufStart
      bytePopped := s.bytePopped + len
      availableCapacity := s.availableCapacity + len }

/-- The loop of `read`, for `fuel` passes. -/
def readLoopChecked (maxLen : ℕ) :
    ℕ → Bytes → ByteStream → Except StdException (Bytes × ByteStream)
  | 0, out, reader =>
    if reader.bytesBuffered ≠ 0 ∧ out.length < maxLen then
      .error (.undefinedBehaviour "the loop goes on")
    else .ok (out, reader)
  | fuel + 1, out, reader =>
    if reader.bytesBuffered ≠ 0 ∧ out.length < maxLen then do
      let view ← reader.peekChecked
      if view.isEmpty then
        .error (.runtimeError "Reader::peek() returned empty string_view")
      else
        let view := view.take (maxLen - out.length)
        let reader ← reader.popChecked (UInt64.ofNat view.length)
        readLoopChecked maxLen fuel (out ++ view) reader
    else .ok (out, reader)

/-- The free function `read`, over these methods. -/
def readChecked (reader : ByteStream) (maxLen : UInt64) :
    Except StdException (Bytes × ByteStream) :=
  readLoopChecked maxLen.toNat maxLen.toNat [] reader

/-! ### No check fails -/

/-- Within a well-formed ring buffer a byte is written. -/
theorem putByteChecked_eq {s : ByteStream} (hbuf : s.buf.length = s.capacity.toNat)
    (hend : s.bufEnd.toNat < s.capacity.toNat) (c : UInt8) :
    s.putByteChecked c = .ok (s.putByte c) := by
  have hindex : s.checkIndex s.bufEnd = .ok s.bufEnd.toNat := if_pos (hbuf ▸ hend)
  have hmod : s.checkMod (s.bufEnd + 1) = .ok ((s.bufEnd + 1) % s.capacity) := by
    refine if_neg fun hzero => ?_
    rw [hzero, UInt64.toNat_zero] at hend
    exact Nat.not_lt_zero _ hend
  unfold putByteChecked
  rw [hindex, hmod]
  rfl

/-- The loop of `push`: the end index is in range, and stays so. -/
theorem foldlM_putByteChecked_eq (l : Bytes) {s : ByteStream}
    (hbuf : s.buf.length = s.capacity.toNat) (hend : s.bufEnd.toNat < s.capacity.toNat) :
    l.foldlM putByteChecked s = .ok (l.foldl putByte s) := by
  induction l generalizing s with
  | nil => rfl
  | cons c l ih =>
    rw [List.foldlM_cons, putByteChecked_eq hbuf hend, List.foldl_cons]
    apply ih
    · show (s.buf.set _ c).length = s.capacity.toNat
      rw [List.length_set, hbuf]
    · show ((s.bufEnd + 1) % s.capacity).toNat < s.capacity.toNat
      rw [UInt64.toNat_mod]
      exact Nat.mod_lt _ (by omega)

/-- Pushing is always defined. -/
theorem pushChecked_eq {s : ByteStream} (h : s.WF) (data : Bytes) :
    s.pushChecked data = .ok (s.push data) := by
  unfold pushChecked push
  split
  · rfl
  dsimp only
  split
  · rfl
  · rename_i hlen
    -- something fits, so that the capacity is not 0
    have hpos : 0 < s.capacity.toNat := by
      by_contra hzero
      have hav := h.available_le
      have hmin : min data.length s.availableCapacity.toNat = 0 := by omega
      rw [hmin] at hlen
      exact hlen rfl
    have hend : s.bufEnd.toNat < s.capacity.toNat := by
      rw [h.end_eq]
      exact Nat.mod_lt _ hpos
    rw [foldlM_putByteChecked_eq _ h.length_buf hend]
    rfl

/-- Where something is buffered, the capacity is not 0. -/
theorem capacity_pos {s : ByteStream} (hbuf : s.bytesBuffered ≠ 0) (h : s.WF) :
    0 < s.capacity.toNat := by
  have hlen : s.bytesBuffered.toNat ≤ s.capacity.toNat := by
    rw [bytesBuffered, UInt64.toNat_sub_of_le _ _ (UInt64.le_iff_toNat_le.mpr h.available_le)]
    omega
  have hne : s.bytesBuffered.toNat ≠ 0 := fun hzero => hbuf (UInt64.toNat_inj.mp hzero)
  omega

/-- Peeking is always defined. -/
theorem peekChecked_eq {s : ByteStream} (h : s.WF) : s.peekChecked = .ok s.peek := by
  unfold peekChecked peek
  split
  · rfl
  · rename_i hbuf
    have hindex : s.checkIndex s.bufStart = .ok s.bufStart.toNat := by
      refine if_pos ?_
      rw [h.length_buf]
      exact h.start_lt (capacity_pos hbuf h)
    rw [hindex]
    rfl

/-- Popping is always defined. -/
theorem popChecked_eq {s : ByteStream} (h : s.WF) (len : UInt64) :
    s.popChecked len = .ok (s.pop len) := by
  unfold popChecked pop
  split
  · rfl
  · rename_i hbuf
    have hmod : ∀ x, s.checkMod x = .ok (x % s.capacity) := by
      refine fun x => if_neg fun hzero => ?_
      have hpos := capacity_pos hbuf h
      rw [hzero, UInt64.toNat_zero] at hpos
      exact Nat.not_lt_zero _ hpos
    simp only [hmod]
    rfl

/-- The loop of `read` comes to its end, and no check fails on the way. -/
theorem readLoopChecked_eq (maxLen fuel : ℕ) (out : Bytes) {s : ByteStream} (h : s.WF)
    (hfuel : maxLen ≤ out.length + fuel) :
    readLoopChecked maxLen fuel out s = readLoop maxLen fuel out s := by
  induction fuel generalizing out s with
  | zero =>
    rw [readLoopChecked, readLoop, if_neg]
    omega
  | succ fuel ih =>
    unfold readLoopChecked readLoop
    split
    · rename_i hcond
      -- the view is not empty, so that a pass makes the string longer
      have hview : s.peek.isEmpty = false := by simp [peek, hcond.1]
      have hone : 0 < s.peek.length := by
        rw [List.length_pos_iff]
        simpa using hview
      simp only [peekChecked_eq h, popChecked_eq h, bind, Except.bind, hview, Bool.false_eq_true,
        if_false]
      refine ih _ (pop_spec h _).1 ?_
      rw [List.length_append, List.length_take]
      omega
    · rfl

/-- Reading is always defined. -/
theorem readChecked_eq {s : ByteStream} (h : s.WF) (maxLen : UInt64) :
    s.readChecked maxLen = .ok (s.readBytes maxLen) := by
  rw [← read_eq_ok]
  exact readLoopChecked_eq _ _ _ h (by simp)

/-! ### The queue a stream stands for -/

/-- What the stream shows of its queue. -/
structure Implements (s : ByteStream) (q : BoundedQueue UInt8) : Prop where
  wf : s.WF
  contents_eq : s.contents = q.queue
  capacity_eq : s.capacity.toNat = q.capacity
  buffered_eq : s.bytesBuffered.toNat = q.queue.length
  available_eq : s.availableCapacity.toNat = q.capacity - q.queue.length
  closed_eq : s.isClosed = q.closed
  pushed_eq : s.bytesPushed = UInt64.ofNat q.accepted.length
  popped_eq : s.bytesPopped = UInt64.ofNat q.removed.length

/-- The room is what is not held. -/
theorem available_of_contents {s : ByteStream} (h : s.WF) :
    s.availableCapacity.toNat = s.capacity.toNat - s.contents.length := by
  have hle := h.available_le
  rw [contents, CyclicBuffer.length_window]
  omega

/-- A well-formed stream with these bytes, of this capacity, flag and counts. -/
theorem Implements.of_contents {s : ByteStream} {q : BoundedQueue UInt8} (h : s.WF)
    (hcontents : s.contents = q.queue) (hcap : s.capacity.toNat = q.capacity)
    (hclosed : s.eof = q.closed) (hpushed : s.bytePushed = UInt64.ofNat q.accepted.length)
    (hpopped : s.bytePopped = UInt64.ofNat q.removed.length) : s.Implements q where
  wf := h
  contents_eq := hcontents
  capacity_eq := hcap
  buffered_eq := by rw [toNat_bytesBuffered h, hcontents]
  available_eq := by rw [available_of_contents h, hcontents, hcap]
  closed_eq := hclosed
  pushed_eq := hpushed
  popped_eq := hpopped

namespace Implements

variable {s : ByteStream} {q : BoundedQueue UInt8}

/-- A new stream is an empty queue. -/
theorem start {capacity : UInt64} (hnew : ByteStream.new capacity = .ok s) :
    s.Implements (BoundedQueue.new capacity.toNat) := by
  obtain ⟨hwf, hcontents, hcap, heof, -, hpushed, hpopped⟩ := new_spec hnew
  exact .of_contents hwf hcontents (congrArg UInt64.toNat hcap) heof hpushed hpopped

/-- Bytes are accepted as far as there is room. -/
theorem push (h : s.Implements q) (data : Bytes) : (s.push data).Implements (q.push data) := by
  obtain ⟨hwf, hcontents, hcap, heof, -, hpopped, hpushed⟩ := push_spec h.wf data
  have hroom : s.availableCapacity.toNat = q.room := h.available_eq
  have hclosed : s.eof = q.closed := h.closed_eq
  have hacc : (q.push data).queue = q.queue ++ s.accepted data ∧
      (q.push data).accepted = q.accepted ++ s.accepted data ∧
      (q.push data).removed = q.removed ∧ (q.push data).capacity = q.capacity ∧
      (q.push data).closed = q.closed := by
    unfold BoundedQueue.push accepted
    rw [hclosed, hroom]
    split
    · simp
    · exact ⟨rfl, rfl, rfl, rfl, rfl⟩
  obtain ⟨hqueue, haccepted, hremoved, hcapacity, hflag⟩ := hacc
  refine .of_contents hwf ?_ ?_ ?_ ?_ ?_
  · rw [hcontents, hqueue, h.contents_eq]
  · rw [hcap, hcapacity, h.capacity_eq]
  · rw [heof, hflag, hclosed]
  · have hcount : s.bytePushed = UInt64.ofNat q.accepted.length := h.pushed_eq
    rw [hpushed, haccepted, hcount, List.length_append, UInt64.ofNat_add]
  · rw [hpopped, hremoved]
    exact h.popped_eq

/-- Both are closed. -/
theorem close (h : s.Implements q) : s.close.Implements q.close :=
  .of_contents h.wf.close h.contents_eq h.capacity_eq rfl h.pushed_eq h.popped_eq

/-- Bytes taken off the front of the stream are those taken off the queue. -/
theorem take (h : s.Implements q) {s' : ByteStream} {n : ℕ}
    (hread : ReadFrom s s' (s.contents.take n)) : s'.Implements (q.take n) := by
  have hdrop : s'.contents = s.contents.drop n := by
    have heq := hread.contents_eq
    rw [← List.take_append_drop n s.contents, List.take_append_drop n s.contents] at heq
    exact (List.append_cancel_left ((List.take_append_drop n s.contents).trans heq)).symm
  refine .of_contents hread.wf ?_ ?_ ?_ ?_ ?_
  · rw [hdrop, h.contents_eq]
    rfl
  · rw [hread.capacity_eq, h.capacity_eq]
    rfl
  · rw [hread.eof_eq]
    exact h.closed_eq
  · rw [hread.pushed_eq]
    exact h.pushed_eq
  · have hcount : s.bytePopped = UInt64.ofNat q.removed.length := h.popped_eq
    rw [hread.popped_eq, hcount, h.contents_eq, ← UInt64.ofNat_add, ← List.length_append]
    rfl

/-- The two counts differ by what is buffered. -/
theorem pushed_sub_popped (h : s.Implements q) :
    s.bytesPushed - s.bytesPopped = s.bytesBuffered := by
  have hpushed := h.wf.pushed_eq
  rw [bytesPushed, bytesPopped, bytesBuffered, hpushed, add_sub_cancel_left]

/-- The view is of the first byte, when there is one. -/
theorem peek_spec (h : s.Implements q) :
    s.peek <+: q.queue ∧ (s.peek = [] ↔ s.bytesBuffered = 0) := by
  constructor
  · rw [peek_eq h.wf, h.contents_eq]
    exact List.take_prefix 1 q.queue
  · rw [bytesBuffered_eq_zero h.wf, peek_eq h.wf]
    cases s.contents <;> simp

/-- Finished means closed, and all that was accepted removed. -/
theorem isFinished_iff (h : s.Implements q) :
    s.isFinished = true ↔ q.closed = true ∧ q.removed = q.accepted := by
  rw [q.removed_eq_iff, ← h.contents_eq, ← h.closed_eq, isFinished, Bool.and_eq_true, beq_iff_eq,
    bytesBuffered_eq_zero h.wf]
  rfl

end Implements

/-! ### Runs -/

/-- What the owners of the two ends can do. -/
inductive Op where
  | push (data : Bytes)
  | close
  | peek
  | pop (len : UInt64)
  | read (len : UInt64)
deriving DecidableEq, Repr

namespace Op

/-- The operation with its checks, and the bytes it shows or returns. -/
def act (s : ByteStream) : Op → Except StdException (Bytes × ByteStream)
  | .push data => do return ([], ← s.pushChecked data)
  | .close => .ok ([], s.close)
  | .peek => do return (← s.peekChecked, s)
  | .pop len => do return ([], ← s.popChecked len)
  | .read len => s.readChecked len

/-- What the operation does to the queue. -/
def onQueue (q : BoundedQueue UInt8) : Op → BoundedQueue UInt8
  | .push data => q.push data
  | .close => q.close
  | .peek => q
  | .pop len => q.take len.toNat
  | .read len => q.take len.toNat

/-- What the operation is to show or return: `peek` some of the first bytes, `read` the first
    `len` bytes. -/
def Returns (q : BoundedQueue UInt8) (out : Bytes) : Op → Prop
  | .peek => out <+: q.queue ∧ (out = [] ↔ q.queue = [])
  | .read len => out = q.queue.take len.toNat
  | _ => out = []

end Op

/-- A run of operations. -/
def run (s : ByteStream) : List Op → Except StdException ByteStream
  | [] => .ok s
  | op :: ops => do
    let (_, s) ← op.act s
    run s ops

/-- **One operation** of the stream is the one of its queue. -/
theorem Implements.act {s : ByteStream} {q : BoundedQueue UInt8} (h : s.Implements q) (op : Op) :
    ∃ out s', op.act s = .ok (out, s') ∧ op.Returns q out ∧ s'.Implements (op.onQueue q) := by
  cases op with
  | push data =>
    refine ⟨[], s.push data, ?_, rfl, h.push data⟩
    rw [Op.act, pushChecked_eq h.wf]
    rfl
  | close => exact ⟨[], s.close, rfl, rfl, h.close⟩
  | peek =>
    obtain ⟨hfront, hempty⟩ := h.peek_spec
    refine ⟨s.peek, s, ?_, ⟨hfront, ?_⟩, h⟩
    · rw [Op.act, peekChecked_eq h.wf]
      rfl
    · rw [hempty, bytesBuffered_eq_zero h.wf, h.contents_eq]
  | pop len =>
    refine ⟨[], s.pop len, ?_, rfl, h.take (readFrom_pop h.wf len)⟩
    rw [Op.act, popChecked_eq h.wf]
    rfl
  | read len =>
    obtain ⟨hout, hread⟩ := readBytes_spec h.wf len
    refine ⟨(s.readBytes len).1, (s.readBytes len).2, readChecked_eq h.wf len, ?_, h.take hread⟩
    rw [hout, h.contents_eq]
    rfl

/-- **Run.**  Whatever is called, no call is undefined and the stream goes on implementing the
    queue. -/
theorem Implements.run {s : ByteStream} {q : BoundedQueue UInt8} (h : s.Implements q)
    (ops : List Op) :
    ∃ s', s.run ops = .ok s' ∧ s'.Implements (Machine.run Op.onQueue q ops) := by
  induction ops generalizing s q with
  | nil => exact ⟨s, rfl, h⟩
  | cons op ops ih =>
    obtain ⟨out, s', hact, -, hs'⟩ := h.act op
    obtain ⟨s'', hrun, hs''⟩ := ih hs'
    refine ⟨s'', ?_, hs''⟩
    rw [ByteStream.run, hact]
    exact hrun

/-- No operation changes how much fits into the queue. -/
theorem Op.capacity_onQueue (q : BoundedQueue UInt8) (op : Op) :
    (op.onQueue q).capacity = q.capacity := by
  cases op with
  | push data =>
    show (q.push data).capacity = q.capacity
    unfold BoundedQueue.push
    split <;> rfl
  | close | peek | pop _ | read _ => rfl

/-- **A byte stream is a bounded queue.**  No check fails in any run of it; where a run ends, the
    stream stands for the queue after the same operations, and so does what the next operation
    shows or returns. -/
theorem bounded_fifo {capacity : UInt64} {s₀ : ByteStream}
    (hnew : ByteStream.new capacity = .ok s₀) (ops : List Op) :
    ∃ s, s₀.run ops = .ok s ∧
      let q := Machine.run Op.onQueue (BoundedQueue.new capacity.toNat) ops
      s.contents = q.queue ∧
      s.bytesPushed - s.bytesPopped = s.bytesBuffered ∧
      s.bytesPushed = UInt64.ofNat q.accepted.length ∧
      s.bytesPopped = UInt64.ofNat q.removed.length ∧
      s.bytesBuffered.toNat = q.queue.length ∧
      s.bytesBuffered ≤ capacity ∧
      s.availableCapacity = capacity - s.bytesBuffered ∧
      s.availableCapacity.toNat = q.room ∧
      (s.peek = [] ↔ s.bytesBuffered = 0) ∧
      (s.isFinished = true ↔ q.closed = true ∧ q.removed = q.accepted) ∧
      q.removed <+: q.accepted ∧
      ∀ op : Op, ∃ out s', op.act s = .ok (out, s') ∧ op.Returns q out ∧
        s'.contents = (op.onQueue q).queue := by
  obtain ⟨s, hrun, h⟩ := (Implements.start hnew).run ops
  have hcapacity : (Machine.run Op.onQueue (BoundedQueue.new capacity.toNat) ops).capacity
      = capacity.toNat :=
    Machine.run_invariant (P := fun q => q.capacity = capacity.toNat)
      (fun q op hq => (Op.capacity_onQueue q op).trans hq) rfl ops
  have hcap : s.capacity = capacity := UInt64.toNat_inj.mp (h.capacity_eq.trans hcapacity)
  refine ⟨s, hrun, h.contents_eq, h.pushed_sub_popped, h.pushed_eq, h.popped_eq, h.buffered_eq,
    ?_, ?_, h.available_eq, h.peek_spec.2, h.isFinished_iff, BoundedQueue.removed_prefix _,
    fun op => ?_⟩
  · -- what is buffered is the queue, which is no longer than its capacity
    have hlength := (Machine.run Op.onQueue (BoundedQueue.new capacity.toNat) ops).length_le
    rw [UInt64.le_iff_toNat_le, h.buffered_eq]
    omega
  · rw [bytesBuffered, hcap, sub_sub_cancel]
  · obtain ⟨out, s', hact, hreturns, hs'⟩ := h.act op
    exact ⟨out, s', hact, hreturns, hs'.contents_eq⟩

/-- A stream of two bytes, filled, wrapped around and closed. -/
theorem bounded_fifo_two :
    ∃ s, (empty 2).run [.push [1, 2, 3], .pop 1, .push [4], .close, .push [5], .read 9] = .ok s ∧
      s.bytesPushed = 3 ∧ s.bytesPopped = 3 ∧ s.isFinished = true := by
  obtain ⟨s, hrun, -, -, hpushed, hpopped, -, -, -, -, -, hfinished, -⟩ :=
    bounded_fifo (@new_eq_ok 2 (by decide))
      [.push [1, 2, 3], .pop 1, .push [4], .close, .push [5], .read 9]
  exact ⟨s, hrun, hpushed.trans (by decide), hpopped.trans (by decide),
    hfinished.mpr (by decide)⟩

end ByteStream

end Minnow
