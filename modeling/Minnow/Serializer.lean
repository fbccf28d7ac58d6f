import Minnow.Parser

namespace Minnow

/-!
# The serializer

A serializer collects the bytes of integers, and whole buffers between them, in a list of
buffers.

* `Serializer.finish` — all that was written;
* `serialize` — the same for an object that writes itself;
* `Serializer.concat_finish` — its bytes are those that were written, in no empty buffer;
* `parse` — an object that reads itself; `parse_of_gives` and `parse_ok_of_gives` say what comes of
  a program that is known to give a value.
-/

/-- The finished buffers, and the integers behind them. -/
structure Serializer where
  output : List Ref := []
  /-- the bytes of the integers after the last buffer -/
  bytes : Bytes := []
deriving DecidableEq, Repr

namespace Serializer

/-- The integers become a buffer, unless there are none. -/
def flush (s : Serializer) : Serializer :=
  if s.bytes ≠ [] then { output := s.output ++ [{ get := s.bytes }], bytes := [] } else s

/-- The bytes of an integer of `size` bytes, the most significant one first. -/
def integer (size val : ℕ) (s : Serializer) : Serializer :=
  { s with
    bytes := s.bytes ++ (List.range size).map fun i => UInt8.ofNat (val >>> ((size - i - 1) * 8)) }

/-- `serializer.integer( val )` for a byte. -/
def integer8 (s : Serializer) (val : UInt8) : Serializer := s.integer 1 val.toNat

/-- `serializer.integer( val )` for two bytes. -/
def integer16 (s : Serializer) (val : UInt16) : Serializer := s.integer 2 val.toNat

/-- `serializer.integer( val )` for four bytes. -/
def integer32 (s : Serializer) (val : UInt32) : Serializer := s.integer 4 val.toNat

/-- `buffer( Ref )`; an empty one is left out. -/
def buffer (s : Serializer) (buf : Ref) : Serializer :=
  if buf.get ≠ [] then { s.flush with output := s.flush.output ++ [buf] } else s

/-- `buffer( vector )`: the buffers are borrowed. -/
def buffers (s : Serializer) (bufs : List Ref) : Serializer :=
  bufs.foldl (fun s b => s.buffer b.borrow) s

/-- All that was written. -/
def finish (s : Serializer) : List Ref := s.flush.output

/-- All that was written so far. -/
def content (s : Serializer) : Bytes := concat s.output ++ s.bytes

/-- No buffer is empty. -/
def NoneEmpty (s : Serializer) : Prop := ∀ r ∈ s.output, r.get ≠ []

/-- Nothing is lost, nothing added. -/
theorem content_flush (s : Serializer) : s.flush.content = s.content := by
  unfold flush content
  split
  · simp [concat_append]
  · rfl

/-- No integers are left. -/
theorem bytes_flush (s : Serializer) : s.flush.bytes = [] := by
  unfold flush
  split
  · rfl
  · rename_i h
    exact not_not.mp h

/-- The buffer that is added has bytes. -/
theorem NoneEmpty.flush {s : Serializer} (h : s.NoneEmpty) : s.flush.NoneEmpty := by
  unfold Serializer.flush
  split
  · rename_i hbytes
    intro r hr
    rcases List.mem_append.mp hr with hr | hr
    · exact h r hr
    · rw [List.mem_singleton.mp hr]
      exact hbytes
  · exact h

/-- The bytes of the buffer come last. -/
theorem content_buffer (s : Serializer) (buf : Ref) :
    (s.buffer buf).content = s.content ++ buf.get := by
  unfold buffer
  split
  · rw [← content_flush s]
    simp [content, bytes_flush, concat_append]
  · rename_i h
    rw [not_not.mp h, List.append_nil]

/-- An empty buffer is not added. -/
theorem NoneEmpty.buffer {s : Serializer} (h : s.NoneEmpty) (buf : Ref) :
    (s.buffer buf).NoneEmpty := by
  unfold Serializer.buffer
  split
  · rename_i hbuf
    intro r hr
    rcases List.mem_append.mp hr with hr | hr
    · exact h.flush r hr
    · rw [List.mem_singleton.mp hr]
      exact hbuf
  · exact h

/-- The bytes of the buffers come last, in their order. -/
theorem content_buffers (s : Serializer) (bufs : List Ref) :
    (s.buffers bufs).content = s.content ++ concat bufs := by
  induction bufs generalizing s with
  | nil => simp [buffers]
  | cons b bufs ih =>
    show ((s.buffer b.borrow).buffers bufs).content = _
    rw [ih, content_buffer, concat_cons, List.append_assoc]
    rfl

/-- Empty buffers are not added. -/
theorem NoneEmpty.buffers {s : Serializer} (h : s.NoneEmpty) (bufs : List Ref) :
    (s.buffers bufs).NoneEmpty := by
  induction bufs generalizing s with
  | nil => exact h
  | cons b bufs ih => exact ih (h.buffer b.borrow)

/-- **What comes of it.** -/
theorem concat_finish (s : Serializer) : concat s.finish = s.content := by
  rw [← content_flush s, content, bytes_flush, List.append_nil]
  rfl

end Serializer

/-- An object's `serialize` with a serializer of its own. -/
def serialize (write : Serializer → Except StdException Serializer) :
    Except StdException (List Ref) := do
  let s ← write {}
  return s.finish

/-- What was written without an exception comes out. -/
theorem serialize_of_ok {write : Serializer → Except StdException Serializer} {s : Serializer}
    (h : write {} = .ok s) : serialize write = .ok s.finish := by
  rw [serialize, h]
  rfl

/-- The helper `parse`, with whether it was successful. -/
def parse {α : Type} (read : ParserM α) (buffers : List Ref) :
    Except StdException (α × Bool) := do
  let p ← Parser.new buffers
  let (obj, p) ← read.run p
  return (obj, !p.hasError)

section

open StateExcept

variable {α : Type} {read : ParserM α} {payload : List Ref} {a : α} {flag : Bool}

/-- What a program gives on buffers that are owned and leave no gap. -/
theorem parse_of_gives
    (h : Gives (Parser.Read payload []) (ReadsEmpty payload) read a fun p => p.error = flag)
    (howned : ∀ r ∈ payload, r.owned = true) (hgap : Gapless payload) :
    parse read payload = .ok (a, !flag) := by
  rcases Parser.new_cases payload with ⟨⟨p, hnew, hread⟩, -⟩ | ⟨-, r, hr, hborrowed⟩
  swap
  · rw [howned r hr] at hborrowed
    cases hborrowed
  rcases h p hread with ⟨p', hrun, rfl⟩ | ⟨e, -, -, hempty⟩
  swap
  · exact absurd hgap hempty
  unfold parse
  rw [hnew]
  show (read.run p >>= fun x => _) = _
  rw [hrun]
  rfl

/-- What comes of parsing, if nothing is thrown, is what the program gives. -/
theorem parse_ok_of_gives
    (h : Gives (Parser.Read payload []) (ReadsEmpty payload) read a fun p => p.error = flag)
    {result : α × Bool} (hparse : parse read payload = .ok result) : result = (a, !flag) := by
  unfold parse at hparse
  rcases Parser.new_cases payload with ⟨⟨p, hnew, hread⟩, -⟩ | ⟨⟨what, hnew⟩, -⟩
  swap
  · rw [hnew] at hparse
    cases hparse
  rcases h p hread with ⟨p', hrun, rfl⟩ | ⟨e, hrun, -⟩
  · simp only [hnew, bind, Except.bind, hrun] at hparse
    cases hparse
    rfl
  · simp only [hnew, bind, Except.bind, hrun] at hparse
    cases hparse

end

end Minnow
