import Minnow.Basic
import Minnow.Library.CyclicBuffer

namespace Minnow

/-!
# The byte stream

A `ByteStream` is a ring buffer of `capacity` bytes with a start index, an end index and a
separately maintained count of free bytes.  `Writer` and `Reader` are views of the same object,
so their methods are functions on `ByteStream`.

The second half relates the ring to what it stands for, the queue of bytes written and not yet
read (`contents`):

* `WF` — the invariant tying indices, counter and buffer, kept by every operation;
* `contents_push`, `contents_pop` — pushing appends what fits, popping drops from the front;
* `read_eq_ok` — the byte-at-a-time helper `read` never throws, and takes a prefix of the queue.
-/

/-- The members of `ByteStream`: a ring buffer of `capacity` bytes, where the next byte is read and
    written, and how many were. -/
structure ByteStream where
  capacity : UInt64
  availableCapacity : UInt64
  error : Bool := false
  buf : Bytes
  bufStart : UInt64 := 0
  bufEnd : UInt64 := 0
  bytePopped : UInt64 := 0
  bytePushed : UInt64 := 0
  eof : Bool := false
deriving DecidableEq, Repr

namespace ByteStream

/-- A stream before anything was written. -/
def empty (capacity : UInt64) : ByteStream :=
  { capacity, availableCapacity := capacity, buf := List.replicate capacity.toNat 0 }

/-- The constructor; `buf_.resize( capacity_ )` throws when no vector can be that large. -/
def new (capacity : UInt64) : Except StdException ByteStream :=
  if capacity.toNat ≤ maxSize then .ok (empty capacity)
  else .error (.lengthError "vector::_M_default_append")

/-- `set_error()` -/
def setError (s : ByteStream) : ByteStream := { s with error := true }

/-- `has_error()` -/
def hasError (s : ByteStream) : Bool := s.error

/-! ### `Writer` -/

/-- `is_closed()`: no more bytes will be pushed. -/
def isClosed (s : ByteStream) : Bool := s.eof

/-- `bytes_pushed()`, modulo `2^64`. -/
def bytesPushed (s : ByteStream) : UInt64 := s.bytePushed

/-- The body of the loop in `Writer::push`. -/
def putByte (s : ByteStream) (c : UInt8) : ByteStream :=
  { s with buf := s.buf.set s.bufEnd.toNat c, bufEnd := (s.bufEnd + 1) % s.capacity }

/-- Push data to the stream, but only as much as the available capacity allows. -/
def push (s : ByteStream) (data : Bytes) : ByteStream :=
  if s.eof then s
  else
    let len := UInt64.ofNat (min data.length s.availableCapacity.toNat)
    if len = 0 then s
    else
      let s := (data.take len.toNat).foldl putByte s
      { s with
        availableCapacity := s.availableCapacity - len
        bytePushed := s.bytePushed + len }

/-- `close()` -/
def close (s : ByteStream) : ByteStream := { s with eof := true }

/-! ### `Reader` -/

/-- `bytes_buffered()`: what the capacity has no room for. -/
def bytesBuffered (s : ByteStream) : UInt64 := s.capacity - s.availableCapacity

/-- `bytes_popped()`, modulo `2^64`. -/
def bytesPopped (s : ByteStream) : UInt64 := s.bytePopped

/-- `is_finished()`: closed, and all bytes popped. -/
def isFinished (s : ByteStream) : Bool := s.eof && s.bytesBuffered == 0

/-- A view of the first buffered byte, or of nothing. -/
def peek (s : ByteStream) : Bytes :=
  if s.bytesBuffered = 0 then [] else [s.buf.getD s.bufStart.toNat default]

/-- `pop( len )`: forget the next `len` bytes, or all there are. -/
def pop (s : ByteStream) (len : UInt64) : ByteStream :=
  if s.bytesBuffered = 0 then s
  else
    let len := min s.bytesBuffered len
    { s with
      bufStart := (s.bufStart + len) % s.capacity
      bytePopped := s.bytePopped + len
      availableCapacity := s.availableCapacity + len }

/-- The loop of `read`, `fuel` bounding the number of passes. -/
def readLoop (maxLen : ℕ) : ℕ → Bytes → ByteStream → Except StdException (Bytes × ByteStream)
  | 0, out, reader => .ok (out, reader)
  | fuel + 1, out, reader =>
    if reader.bytesBuffered ≠ 0 ∧ out.length < maxLen then
      let view := reader.peek
      if view.isEmpty then
        .error (.runtimeError "Reader::peek() returned empty string_view")
      else
        let view := view.take (maxLen - out.length)
        readLoop maxLen fuel (out ++ view) (reader.pop (UInt64.ofNat view.length))
    else .ok (out, reader)

/-- `read`: peeks and pops up to `maxLen` bytes into a string.  Each pass of the loop appends at
    least one byte, so `maxLen` passes are enough (`readLoop_exit`). -/
def read (reader : ByteStream) (maxLen : UInt64) : Except StdException (Bytes × ByteStream) :=
  readLoop maxLen.toNat maxLen.toNat [] reader

/-! ### The queue a stream stands for -/

/-- The bytes written and not yet read, oldest first. -/
def contents (s : ByteStream) : Bytes :=
  CyclicBuffer.window s.buf s.bufStart.toNat (s.capacity.toNat - s.availableCapacity.toNat)

/-- The representation invariant of the ring. -/
structure WF (s : ByteStream) : Prop where
  capacity_le : s.capacity.toNat ≤ maxSize
  length_buf : s.buf.length = s.capacity.toNat
  available_le : s.availableCapacity.toNat ≤ s.capacity.toNat
  start_lt : 0 < s.capacity.toNat → s.bufStart.toNat < s.capacity.toNat
  end_eq : s.bufEnd.toNat
    = (s.bufStart.toNat + (s.capacity.toNat - s.availableCapacity.toNat)) % s.capacity.toNat
  pushed_eq : s.bytePushed = s.bytePopped + (s.capacity - s.availableCapacity)

/-- `bytes_buffered()` counts what the ring buffer holds. -/
theorem toNat_bytesBuffered {s : ByteStream} (h : s.WF) :
    s.bytesBuffered.toNat = s.contents.length := by
  rw [bytesBuffered, contents, CyclicBuffer.length_window,
    UInt64.toNat_sub_of_le _ _ (UInt64.le_iff_toNat_le.mpr h.available_le)]

/-- Buffered bytes and free bytes add up to the capacity. -/
theorem length_contents {s : ByteStream} (h : s.WF) :
    s.contents.length + s.availableCapacity.toNat = s.capacity.toNat := by
  have := h.available_le
  rw [contents, CyclicBuffer.length_window]
  omega

/-- Nothing is counted where nothing is held. -/
theorem bytesBuffered_eq_zero {s : ByteStream} (h : s.WF) :
    s.bytesBuffered = 0 ↔ s.contents = [] := by
  rw [← UInt64.toNat_inj, toNat_bytesBuffered h, UInt64.toNat_zero, List.length_eq_zero_iff]

/-- A stream is finished when it is closed and holds nothing. -/
theorem isFinished_iff {s : ByteStream} (h : s.WF) :
    s.isFinished = true ↔ s.eof = true ∧ s.contents = [] := by
  rw [isFinished, Bool.and_eq_true, beq_iff_eq, bytesBuffered_eq_zero h]

/-- A capacity that a string can have gives an empty stream. -/
theorem new_eq_ok {capacity : UInt64} (h : capacity.toNat ≤ maxSize) :
    new capacity = .ok (empty capacity) :=
  if_pos h

/-- A fresh stream is well formed, empty, open and without error. -/
theorem new_spec {capacity : UInt64} {s : ByteStream} (h : new capacity = .ok s) :
    s.WF ∧ s.contents = [] ∧ s.capacity = capacity ∧ s.eof = false ∧ s.error = false ∧
      s.bytePushed = 0 ∧ s.bytePopped = 0 := by
  unfold new at h
  split at h
  · rename_i hcap
    cases h
    refine ⟨⟨hcap, by simp [empty], le_rfl, fun hpos => hpos, by simp [empty],
      by simp [empty]⟩, ?_⟩
    simp [contents, empty]
  · cases h

/-- `setError` keeps the ring buffer well formed. -/
theorem WF.setError {s : ByteStream} (h : s.WF) : s.setError.WF :=
  ⟨h.capacity_le, h.length_buf, h.available_le, h.start_lt, h.end_eq, h.pushed_eq⟩

/-- `close` keeps the ring buffer well formed. -/
theorem WF.close {s : ByteStream} (h : s.WF) : s.close.WF :=
  ⟨h.capacity_le, h.length_buf, h.available_le, h.start_lt, h.end_eq, h.pushed_eq⟩

/-- A reader changes neither flag. -/
@[simp] theorem eof_pop (s : ByteStream) (len : UInt64) : (s.pop len).eof = s.eof := by
  unfold pop
  split <;> rfl

@[simp] theorem error_pop (s : ByteStream) (len : UInt64) : (s.pop len).error = s.error := by
  unfold pop
  split <;> rfl

/-! ### Pushing -/

/-- The bytes of `data` that a push of it writes: what fits, unless the stream is closed. -/
def accepted (s : ByteStream) (data : Bytes) : Bytes :=
  if s.eof then [] else data.take s.availableCapacity.toNat

/-- Writing one byte behind a window of `n` bytes extends the window by that byte. -/
theorem putByte_spec {s : ByteStream} {n : ℕ} (c : UInt8) (hcap : s.capacity.toNat ≤ maxSize)
    (hbuf : s.buf.length = s.capacity.toNat)
    (hend : s.bufEnd.toNat = (s.bufStart.toNat + n) % s.capacity.toNat)
    (hn : n < s.capacity.toNat) :
    (s.putByte c).buf.length = s.capacity.toNat ∧
      (s.putByte c).bufEnd.toNat = (s.bufStart.toNat + (n + 1)) % s.capacity.toNat ∧
      CyclicBuffer.window (s.putByte c).buf s.bufStart.toNat (n + 1)
        = CyclicBuffer.window s.buf s.bufStart.toNat n ++ [c] := by
  have hlt : s.bufEnd.toNat < s.capacity.toNat := by
    rw [hend]
    exact Nat.mod_lt _ (by omega)
  have hone : (s.bufEnd + 1).toNat = s.bufEnd.toNat + 1 := by
    apply toNat_add_of_lt
    simp only [maxSize] at hcap
    simp only [UInt64.toNat_one]
    omega
  refine ⟨?_, ?_, ?_⟩
  · rw [putByte, List.length_set, hbuf]
  · -- the end index goes around with the window
    show ((s.bufEnd + 1) % s.capacity).toNat = _
    rw [UInt64.toNat_mod, hone, hend, Nat.mod_add_mod, add_assoc]
  · show CyclicBuffer.window (s.buf.set s.bufEnd.toNat c) _ _ = _
    rw [hend, ← hbuf]
    exact CyclicBuffer.window_set s.buf s.bufStart.toNat c (by omega)

/-- The loop of `push` writes the bytes one behind the other and touches only the buffer and
    the end index. -/
theorem foldl_putByte_spec (l : Bytes) (s : ByteStream) (n : ℕ)
    (hcap : s.capacity.toNat ≤ maxSize) (hbuf : s.buf.length = s.capacity.toNat)
    (hend : s.bufEnd.toNat = (s.bufStart.toNat + n) % s.capacity.toNat)
    (hfit : n + l.length ≤ s.capacity.toNat) :
    ∃ b e, l.foldl putByte s = { s with buf := b, bufEnd := e } ∧
      b.length = s.capacity.toNat ∧
      e.toNat = (s.bufStart.toNat + (n + l.length)) % s.capacity.toNat ∧
      CyclicBuffer.window b s.bufStart.toNat (n + l.length)
        = CyclicBuffer.window s.buf s.bufStart.toNat n ++ l := by
  -- each byte makes the window, of which `n` is the length, one longer
  induction l generalizing s n with
  | nil => exact ⟨s.buf, s.bufEnd, rfl, hbuf, by simpa using hend, by simp⟩
  | cons c l ih =>
    rw [List.length_cons] at hfit
    obtain ⟨h1, h2, h3⟩ := putByte_spec c hcap hbuf hend (by omega)
    obtain ⟨b, e, heq, hb, he, hw⟩ := ih (s.putByte c) (n + 1) hcap h1 h2 (by
      show n + 1 + l.length ≤ s.capacity.toNat
      omega)
    have hcount : n + 1 + l.length = n + (c :: l).length := by
      rw [List.length_cons]
      omega
    refine ⟨b, e, by rw [List.foldl_cons, heq]; rfl, hb, ?_, ?_⟩
    · rw [← hcount]
      exact he
    · have hw' : CyclicBuffer.window b s.bufStart.toNat (n + 1 + l.length)
          = CyclicBuffer.window (s.putByte c).buf s.bufStart.toNat (n + 1) ++ l := hw
      rw [← hcount, hw', h3, List.append_assoc, List.singleton_append]

/-- **Push.** What fits is appended to the queue and counted; nothing else of the stream
    changes. -/
theorem push_spec {s : ByteStream} (h : s.WF) (data : Bytes) :
    (s.push data).WF ∧ (s.push data).contents = s.contents ++ s.accepted data ∧
      (s.push data).capacity = s.capacity ∧ (s.push data).eof = s.eof ∧
      (s.push data).error = s.error ∧ (s.push data).bytePopped = s.bytePopped ∧
      (s.push data).bytePushed = s.bytePushed + UInt64.ofNat (s.accepted data).length := by
  have hav := s.availableCapacity.toNat_lt
  have hle := h.available_le
  by_cases heof : s.eof = true
  · simp [push, accepted, heof, h]
  have hacc : s.accepted data = data.take s.availableCapacity.toNat := by
    simp [accepted, heof]
  have hlen : (s.accepted data).length = min data.length s.availableCapacity.toNat := by
    rw [hacc, List.length_take, min_comm]
  have hnat : (UInt64.ofNat (min data.length s.availableCapacity.toNat)).toNat
      = (s.accepted data).length := by
    rw [hlen]
    exact toNat_ofNat_of_lt (by omega)
  have htake : data.take (s.accepted data).length = s.accepted data := by
    rw [hlen, hacc, List.take_eq_take_iff]
    omega
  unfold push
  rw [if_neg heof]
  by_cases hzero : UInt64.ofNat (min data.length s.availableCapacity.toNat) = 0
  · -- nothing fits, or nothing was given
    have hnil : s.accepted data = [] := by
      rw [← List.length_eq_zero_iff, ← hnat, hzero, UInt64.toNat_zero]
    simp [hzero, hnil, h]
  · obtain ⟨b, e, heq, hb, he, hw⟩ := foldl_putByte_spec (s.accepted data) s
      (s.capacity.toNat - s.availableCapacity.toNat) h.capacity_le h.length_buf h.end_eq
      (by omega)
    rw [if_neg hzero, hnat, htake, heq]
    have hsub : (s.availableCapacity
        - UInt64.ofNat (min data.length s.availableCapacity.toNat)).toNat
        = s.availableCapacity.toNat - (s.accepted data).length := by
      rw [UInt64.toNat_sub_of_le _ _ (UInt64.le_iff_toNat_le.mpr (by omega)), hnat]
    have hcount : s.capacity.toNat
        - (s.availableCapacity
          - UInt64.ofNat (min data.length s.availableCapacity.toNat)).toNat
        = s.capacity.toNat - s.availableCapacity.toNat + (s.accepted data).length := by
      omega
    refine ⟨⟨h.capacity_le, hb, ?_, h.start_lt, ?_, ?_⟩, ?_, rfl, rfl, rfl, rfl, ?_⟩
    · show (s.availableCapacity - _).toNat ≤ s.capacity.toNat
      omega
    · show e.toNat = (s.bufStart.toNat + (s.capacity.toNat - (s.availableCapacity - _).toNat)) % _
      rw [he, hcount]
    · show s.bytePushed + _ = s.bytePopped + (s.capacity - (s.availableCapacity - _))
      rw [h.pushed_eq]
      grind
    · show CyclicBuffer.window b s.bufStart.toNat
        (s.capacity.toNat - (s.availableCapacity - _).toNat) = _
      rw [hcount, hw]
      rfl
    · rw [hlen]

/-! ### Popping -/

/-- **Pop.** The queue loses its first `len` bytes (all of them, when it has fewer). -/
theorem pop_spec {s : ByteStream} (h : s.WF) (len : UInt64) :
    (s.pop len).WF ∧ (s.pop len).contents = s.contents.drop len.toNat ∧
      (s.pop len).capacity = s.capacity ∧ (s.pop len).eof = s.eof ∧
      (s.pop len).error = s.error ∧ (s.pop len).bytePushed = s.bytePushed ∧
      (s.pop len).bytePopped
        = s.bytePopped + UInt64.ofNat (min s.contents.length len.toNat) := by
  have hbuf := toNat_bytesBuffered h
  have hlc := length_contents h
  unfold pop
  by_cases hzero : s.bytesBuffered = 0
  · have hnil : s.contents = [] := (bytesBuffered_eq_zero h).mp hzero
    simp [hzero, hnil, h]
  -- from here on there is something to remove, so that the capacity is not 0
  have hpos : 0 < s.contents.length := by
    exact List.length_pos_of_ne_nil (fun hnil => hzero ((bytesBuffered_eq_zero h).mpr hnil))
  rw [if_neg hzero]
  set n := min s.contents.length len.toNat with hn
  have hmin : (min s.bytesBuffered len).toNat = n := by
    rw [UInt64.toNat_min, hbuf]
  have hstart := h.start_lt (by omega)
  have hcap := h.capacity_le
  simp only [maxSize] at hcap
  have havail : (s.availableCapacity + min s.bytesBuffered len).toNat
      = s.availableCapacity.toNat + n := by
    rw [toNat_add_of_lt (by rw [hmin]; omega), hmin]
  have hstart' : ((s.bufStart + min s.bytesBuffered len) % s.capacity).toNat
      = (s.bufStart.toNat + n) % s.capacity.toNat := by
    rw [UInt64.toNat_mod, toNat_add_of_lt (by rw [hmin]; omega), hmin]
  -- what is left, counted as the room is
  have hcount : s.capacity.toNat - (s.availableCapacity + min s.bytesBuffered len).toNat
      = s.capacity.toNat - s.availableCapacity.toNat - n := by
    omega
  have hdrop : s.contents.drop n = s.contents.drop len.toNat := by
    rw [List.drop_eq_drop_iff]
    omega
  refine ⟨⟨h.capacity_le, h.length_buf, ?_, ?_, ?_, ?_⟩, ?_, rfl, rfl, rfl, rfl, ?_⟩
  · show (s.availableCapacity + _).toNat ≤ s.capacity.toNat
    omega
  · intro hpos'
    show ((s.bufStart + _) % s.capacity).toNat < s.capacity.toNat
    rw [hstart']
    exact Nat.mod_lt _ hpos'
  · show s.bufEnd.toNat = (((s.bufStart + _) % s.capacity).toNat
      + (s.capacity.toNat - (s.availableCapacity + _).toNat)) % s.capacity.toNat
    rw [hstart', hcount, Nat.mod_add_mod, h.end_eq]
    congr 1
    omega
  · show s.bytePushed = s.bytePopped + _ + (s.capacity - (s.availableCapacity + _))
    rw [h.pushed_eq]
    grind
  · -- the window begins `n` places later
    show CyclicBuffer.window s.buf ((s.bufStart + _) % s.capacity).toNat
      (s.capacity.toNat - (s.availableCapacity + _).toNat) = _
    rw [hstart', hcount, ← h.length_buf, CyclicBuffer.window_drop, h.length_buf]
    exact hdrop
  · show s.bytePopped + min s.bytesBuffered len = s.bytePopped + UInt64.ofNat n
    rw [← hmin, UInt64.ofNat_toNat]

/-! ### Reading -/

/-- The exception of `read` is dead code: a stream with buffered bytes shows at least one. -/
theorem readLoop_isOk (maxLen fuel : ℕ) (out : Bytes) (s : ByteStream) :
    ∃ r, readLoop maxLen fuel out s = .ok r := by
  induction fuel generalizing out s with
  | zero => exact ⟨_, rfl⟩
  | succ fuel ih =>
    unfold readLoop
    split
    · rename_i h
      have hview : s.peek.isEmpty = false := by simp [peek, h.1]
      simp only [hview, Bool.false_eq_true, if_false]
      exact ih _ _
    · exact ⟨_, rfl⟩

/-- The string and the reader that `read` leaves behind. -/
def readBytes (reader : ByteStream) (maxLen : UInt64) : Bytes × ByteStream :=
  match reader.read maxLen with
  | .ok r => r
  | .error _ => ([], reader)

/-- `read` never throws, so `readBytes` is what its callers see. -/
theorem read_eq_ok (s : ByteStream) (maxLen : UInt64) :
    s.read maxLen = .ok (s.readBytes maxLen) := by
  obtain ⟨r, hr⟩ := readLoop_isOk maxLen.toNat maxLen.toNat [] s
  have hr' : s.read maxLen = .ok r := hr
  rw [readBytes, hr']

/-- `out` was taken off the front of `s`, leaving `s'`. -/
structure ReadFrom (s s' : ByteStream) (out : Bytes) : Prop where
  wf : s'.WF
  contents_eq : s.contents = out ++ s'.contents
  capacity_eq : s'.capacity = s.capacity
  eof_eq : s'.eof = s.eof
  error_eq : s'.error = s.error
  pushed_eq : s'.bytePushed = s.bytePushed
  popped_eq : s'.bytePopped = s.bytePopped + UInt64.ofNat out.length

/-- Nothing was read. -/
theorem ReadFrom.refl {s : ByteStream} (h : s.WF) : ReadFrom s s [] :=
  ⟨h, rfl, rfl, rfl, rfl, rfl, by simp⟩

/-- What was read in two parts. -/
theorem ReadFrom.trans {s s' s'' : ByteStream} {a b : Bytes} (h : ReadFrom s s' a)
    (h' : ReadFrom s' s'' b) : ReadFrom s s'' (a ++ b) where
  wf := h'.wf
  contents_eq := by rw [h.contents_eq, h'.contents_eq, List.append_assoc]
  capacity_eq := h'.capacity_eq.trans h.capacity_eq
  eof_eq := h'.eof_eq.trans h.eof_eq
  error_eq := h'.error_eq.trans h.error_eq
  pushed_eq := h'.pushed_eq.trans h.pushed_eq
  popped_eq := by
    rw [h'.popped_eq, h.popped_eq, List.length_append, UInt64.ofNat_add, add_assoc]

/-- Popping takes the dropped bytes off the front. -/
theorem readFrom_pop {s : ByteStream} (h : s.WF) (len : UInt64) :
    ReadFrom s (s.pop len) (s.contents.take len.toNat) := by
  obtain ⟨hwf, hcont, hcap, heof, herr, hpush, hpop⟩ := pop_spec h len
  refine ⟨hwf, ?_, hcap, heof, herr, hpush, ?_⟩
  · rw [hcont, List.take_append_drop]
  · rw [hpop, List.length_take, min_comm]

/-- A non-empty stream shows its first byte. -/
theorem peek_eq {s : ByteStream} (h : s.WF) : s.peek = s.contents.take 1 := by
  unfold peek
  split
  · rename_i hzero
    rw [(bytesBuffered_eq_zero h).mp hzero, List.take_nil]
  · rename_i hzero
    have hne : s.contents ≠ [] := fun hnil => hzero ((bytesBuffered_eq_zero h).mpr hnil)
    have hpos := List.length_pos_of_ne_nil hne
    have hlen := length_contents h
    rw [contents, CyclicBuffer.length_window] at hpos
    rw [contents, CyclicBuffer.window_head (by rw [h.length_buf]; exact h.start_lt (by omega)) hpos]

/-- The loop of `read`: each pass moves one byte from the queue to the string. -/
theorem readLoop_spec (maxLen fuel : ℕ) (out : Bytes) {s : ByteStream} (h : s.WF)
    (hfuel : maxLen ≤ out.length + fuel) :
    ∃ s', readLoop maxLen fuel out s
        = .ok (out ++ s.contents.take (maxLen - out.length), s') ∧
      ReadFrom s s' (s.contents.take (maxLen - out.length)) := by
  induction fuel generalizing out s with
  | zero =>
    have hzero : maxLen - out.length = 0 := by omega
    refine ⟨s, ?_, ?_⟩
    · rw [hzero, List.take_zero, List.append_nil, readLoop]
    · rw [hzero, List.take_zero]
      exact ReadFrom.refl h
  | succ fuel ih =>
    unfold readLoop
    split
    · rename_i hcond
      obtain ⟨hbuf, hroom⟩ := hcond
      -- the queue is not empty: the view is its first byte
      obtain ⟨c, q, hq⟩ := List.exists_cons_of_ne_nil
        (fun hnil => hbuf ((bytesBuffered_eq_zero h).mpr hnil))
      obtain ⟨k, hk⟩ : ∃ k, maxLen - out.length = k + 1 := ⟨maxLen - out.length - 1, by omega⟩
      have hview : s.peek = [c] := by rw [peek_eq h, hq]; rfl
      have hpop : ReadFrom s (s.pop (UInt64.ofNat 1)) [c] := by
        have := readFrom_pop h (UInt64.ofNat 1)
        rwa [hq] at this
      have hq' : (s.pop (UInt64.ofNat 1)).contents = q := by
        have := hpop.contents_eq
        rw [hq, List.singleton_append] at this
        exact (List.cons.inj this).2.symm
      obtain ⟨s', hs', hread⟩ := ih (out ++ [c]) hpop.wf (by simp; omega)
      have hk' : maxLen - (out ++ [c]).length = k := by simp; omega
      rw [hq', hk'] at hs' hread
      refine ⟨s', ?_, ?_⟩
      · simp only [hview, hk, List.isEmpty_cons, Bool.false_eq_true, if_false,
          List.take_succ_cons, List.take_nil, List.length_singleton, hs', hq, List.append_assoc,
          List.singleton_append]
      · rw [hk, hq, List.take_succ_cons]
        exact hpop.trans hread
    · rename_i hcond
      -- nothing buffered, or the string is full
      have htake : s.contents.take (maxLen - out.length) = [] := by
        by_cases hbuf : s.bytesBuffered = 0
        · rw [(bytesBuffered_eq_zero h).mp hbuf, List.take_nil]
        · have hfull : maxLen - out.length = 0 := by
            by_contra hpos
            exact hcond ⟨hbuf, by omega⟩
          rw [hfull, List.take_zero]
      refine ⟨s, ?_, ?_⟩
      · rw [htake, List.append_nil]
      · rw [htake]
        exact ReadFrom.refl h

/-- **Read.** `read` moves the first `maxLen` bytes of the queue (all of them, when it has
    fewer) into the string. -/
theorem readBytes_spec {s : ByteStream} (h : s.WF) (maxLen : UInt64) :
    (s.readBytes maxLen).1 = s.contents.take maxLen.toNat ∧
      ReadFrom s (s.readBytes maxLen).2 (s.contents.take maxLen.toNat) := by
  obtain ⟨s', hs', hread⟩ := readLoop_spec maxLen.toNat maxLen.toNat [] h (by simp)
  have heq : s.read maxLen = .ok (s.contents.take maxLen.toNat, s') := hs'
  rw [read_eq_ok] at heq
  rw [Except.ok.inj heq]
  exact ⟨rfl, hread⟩

end ByteStream

end Minnow
