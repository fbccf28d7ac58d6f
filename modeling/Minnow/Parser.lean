import Minnow.Basic
import Minnow.Library.Triple

namespace Minnow

/-!
# The parser

A parser reads integers off the front of a list of buffers.  Running out of bytes is noted in a
flag, after which integers are no longer read: the variable that was to receive one keeps its
value.

* `BufferList.At payload pos` — the buffers are those of `payload` after its first `pos` bytes.
* `Parser.Read payload widths` — integers of these widths have been read, or an error is noted.
* `Parser.gives_integer` — an integer read is the one in its bytes, `field`.
* `BufferList.At.dumpAll_truncate` — `truncate` counts from the start of the first buffer, also
  where a part of it was skipped, and erases the buffer that it has cut, so that there may be none
  left when what is left is moved out.
-/

/-- A `Ref<std::string>`: a string that is owned or borrowed. -/
structure Ref where
  get : Bytes
  owned : Bool := true
deriving DecidableEq, Repr

namespace Ref

/-- The same bytes, for another holder to own. -/
def borrow (r : Ref) : Ref := { r with owned := false }

/-- Mutable access is for owned strings only. -/
def getMut (r : Ref) : Except StdException Bytes :=
  if r.owned then .ok r.get else .error (.runtimeError "attempt to mutate borrowed Ref")

end Ref

/-- `concat`: the bytes of a sequence of buffers. -/
def concat (r : List Ref) : Bytes := (r.map (·.get)).flatten

/-- `substr( pos )` of a string or a view of one. -/
def substr (s : Bytes) (pos : ℕ) : Except StdException Bytes :=
  if pos > s.length then .error (.outOfRange "substr") else .ok (s.drop pos)

/-- Whether an exception stands for undefined behaviour. -/
def StdException.IsUndefined (e : StdException) : Prop := ∃ what, e = .undefinedBehaviour what

instance : DecidablePred StdException.IsUndefined
  | .undefinedBehaviour what => isTrue ⟨what, rfl⟩
  | .runtimeError _ => isFalse (by rintro ⟨_, h⟩; cases h)
  | .outOfRange _ => isFalse (by rintro ⟨_, h⟩; cases h)
  | .lengthError _ => isFalse (by rintro ⟨_, h⟩; cases h)

/-! ### Buffer lists -/

/-- The buffers still to be read, of which the first `skip` bytes have been. -/
structure BufferList where
  size : ℕ := 0
  buffer : List Ref := []
  skip : ℕ := 0
deriving DecidableEq, Repr

namespace BufferList

/-- A list that owns all its buffers; `size` counts their bytes. -/
def new (buffers : List Ref) : Except StdException BufferList :=
  if buffers.all (·.owned) then
    .ok { size := (buffers.map (·.get.length)).sum, buffer := buffers }
  else .error (.runtimeError "cannot parse borrowed string")

/-- What is left of the first buffer. -/
def peek (b : BufferList) : Except StdException Bytes :=
  match b.buffer with
  | [] => .error (.runtimeError "peek on empty BufferList")
  | front :: _ => substr front.get b.skip

/-- The loop of `remove_prefix`. -/
def removePrefixLoop : List Ref → ℕ → ℕ → ℕ → Except StdException BufferList
  | [], skip, size, _ => .ok { size, buffer := [], skip }
  | front :: rest, skip, size, len =>
    if len = 0 then .ok { size, buffer := front :: rest, skip }
    else do
      let view ← substr front.get skip
      let toPopNow := min len view.length
      let skip := skip + toPopNow
      let size := size - toPopNow
      if skip = front.get.length then removePrefixLoop rest 0 size (len - toPopNow)
      else
        -- the buffer has more than was asked for, so that the loop ends
        .ok { size, buffer := front :: rest, skip }

/-- Drop `len` bytes, or all there are. -/
def removePrefix (b : BufferList) (len : ℕ) : Except StdException BufferList :=
  removePrefixLoop b.buffer b.skip b.size len

/-- The first loop of `truncate`: the buffers before the iterator at its end, and those from it on.
    The assertions of the source hold: a buffer that is cut is longer than what is left of `len`,
    and something is left. -/
def truncateLoop (len : ℕ) : ℕ → List Ref → Except StdException (List Ref × List Ref)
  | _, [] => .ok ([], [])
  | sizeSoFar, it :: rest =>
    if sizeSoFar + it.get.length < len then do
      let (kept, erased) ← truncateLoop len (sizeSoFar + it.get.length) rest
      return (it :: kept, erased)
    else if sizeSoFar + it.get.length = len then .ok ([it], rest)
    else do
      let string ← it.getMut
      -- the iterator stays at the buffer that it has cut
      return ([], { it with get := string.take (len - sizeSoFar) } :: rest)

/-- Keep the first `len` bytes, counted from the start of the first buffer.  The second loop erases
    all buffers from the iterator on, and with them the one that was cut. -/
def truncate (b : BufferList) (len : ℕ) : Except StdException BufferList :=
  if b.size ≤ len then .ok b
  else if len = 0 then .ok { b with buffer := [], size := 0 }
  else do
    let (kept, _) ← truncateLoop len 0 b.buffer
    return { b with buffer := kept, size := len }

/-- Move all buffers out; those left behind have been moved from. -/
def dumpAll (b : BufferList) : Except StdException (List Ref × BufferList) :=
  if b.size = 0 then .ok ([], b)
  else
    match b.buffer with
    | [] => .error (.undefinedBehaviour "front() of an empty deque")
    | front :: rest => do
      let first ←
        if b.skip ≠ 0 then do
          let string ← front.getMut
          let tail ← substr string b.skip
          pure { get := tail : Ref }
        else pure front
      return (first :: rest, { b with buffer := rest.map fun r => { r with get := [] } })

/-- Views of what is left in each buffer. -/
def views (b : BufferList) : Except StdException (List Bytes) :=
  if b.size = 0 then .ok []
  else
    match b.buffer with
    | [] => .ok []
    | front :: rest => do
      let first ← substr front.get b.skip
      return first :: rest.map (·.get)

end BufferList

/-! ### Parsers -/

/-- What is left of the input, and the flag of an error. -/
structure Parser where
  input : BufferList
  error : Bool := false
deriving DecidableEq, Repr

/-- A function that works on a parser. -/
abbrev ParserM := StateT Parser (Except StdException)

namespace Parser

/-- A parser of some buffers, without an error. -/
def new (input : List Ref) : Except StdException Parser := do
  let input ← BufferList.new input
  return { input }

/-- Has the flag been raised? -/
def hasError (p : Parser) : Bool := p.error

/-- Raise the flag. -/
def setError : ParserM PUnit := modify fun p => { p with error := true }

/-- `if ( c ) { set_error(); }` -/
def setErrorIf (c : Prop) [Decidable c] : ParserM PUnit := if c then setError else pure ⟨⟩

/-- `input_.remove_prefix( n )` -/
def removePrefix (n : ℕ) : ParserM PUnit := fun p => do
  let input ← p.input.removePrefix n
  return (⟨⟩, { p with input })

/-- `input_.truncate( len )` -/
def truncate (len : ℕ) : ParserM PUnit := fun p => do
  let input ← p.input.truncate len
  return (⟨⟩, { p with input })

/-- Move out the buffers that are left. -/
def allRemaining : ParserM (List Ref) := fun p => do
  let (out, input) ← p.input.dumpAll
  return (out, { p with input })

/-- `buffer()` -/
def buffer : ParserM (List Bytes) := fun p => do
  let views ← p.input.views
  return (views, p)

/-- The bytes of the buffers that are left. -/
def concatenateAllRemaining : ParserM Bytes := concat <$> allRemaining

/-- Note an error when fewer than `size` bytes are left. -/
def checkSize (p : Parser) (size : ℕ) : Parser :=
  if size > p.input.size then { p with error := true } else p

/-- `input_.peek().front()`, and on to the next byte. -/
def takeByte : ParserM UInt8 := fun p => do
  match ← p.input.peek with
  | [] => throw (.undefinedBehaviour "front() of an empty view")
  | byte :: _ =>
    let input ← p.input.removePrefix 1
    return (byte, { p with input })

/-- The loop of `integer`. -/
def integerLoop : ℕ → ℕ → ParserM ℕ
  | 0, out => pure out
  | n + 1, out => do
    let byte ← takeByte
    integerLoop n (out * 256 + byte.toNat)

/-- Read an integer of `size` bytes into a variable that has the value `out`. -/
def integer (size : ℕ) (out : ℕ) : ParserM ℕ := fun p =>
  let p := p.checkSize size
  if p.hasError then .ok (out, p) else integerLoop size 0 p

/-- `parser.integer( out )` for a byte. -/
def integer8 (out : UInt8) : ParserM UInt8 := UInt8.ofNat <$> integer 1 out.toNat

/-- `parser.integer( out )` for two bytes. -/
def integer16 (out : UInt16) : ParserM UInt16 := UInt16.ofNat <$> integer 2 out.toNat

/-- `parser.integer( out )` for four bytes. -/
def integer32 (out : UInt32) : ParserM UInt32 := UInt32.ofNat <$> integer 4 out.toNat

end Parser

/-! ### A position in the bytes of the buffers -/

@[simp] theorem concat_nil : concat [] = [] := rfl

@[simp] theorem concat_cons (r : Ref) (rest : List Ref) :
    concat (r :: rest) = r.get ++ concat rest := rfl

/-- The bytes of two lists of buffers, one after the other. -/
theorem concat_append (r s : List Ref) : concat (r ++ s) = concat r ++ concat s := by
  simp [concat]

/-- The buffers from the one on that a position lies in, and how far into that one it is.  Empty
    buffers that begin at the position come first, unless it is behind other bytes of the list. -/
def locate : List Ref → ℕ → List Ref × ℕ
  | [], _ => ([], 0)
  | r :: rest, pos =>
    if pos = 0 ∨ pos < r.get.length then (r :: rest, pos) else locate rest (pos - r.get.length)

/-- The buffers that were used up do not end with an empty one, unless something of the next one is
    skipped. -/
def EndsFull (gone : List Ref) (skip : ℕ) : Prop :=
  ∀ l, l <:+ gone → l ≠ [] → 0 < (concat l).length + skip

/-- Where something of the next buffer is skipped, it does not matter which were used up. -/
theorem endsFull_of_skip (gone : List Ref) {skip : ℕ} (h : 0 < skip) : EndsFull gone skip :=
  fun _ _ _ => Nat.add_pos_right _ h

/-- The last of the buffers that were used up is not empty. -/
theorem endsFull_concat (gone : List Ref) {front : Ref} (skip : ℕ) (h : front.get ≠ []) :
    EndsFull (gone ++ [front]) skip := by
  intro l hl hne
  rcases List.suffix_concat_iff.mp hl with rfl | ⟨l', rfl, -⟩
  · exact absurd rfl hne
  · have hlen := List.length_pos_of_ne_nil h
    rw [concat_append, List.length_append, concat_cons, List.length_append]
    omega

/-- A position behind some buffers is one in the others. -/
theorem locate_append {gone buffer : List Ref} {skip : ℕ} (hne : buffer ≠ [])
    (hskip : ∀ r ∈ buffer.head?, skip < r.get.length ∨ skip = 0) (hfull : EndsFull gone skip) :
    locate (gone ++ buffer) ((concat gone).length + skip) = (buffer, skip) := by
  induction gone with
  | nil =>
    cases buffer with
    | nil => exact absurd rfl hne
    | cons front rest =>
      rw [List.nil_append, concat_nil, List.length_nil, Nat.zero_add, locate]
      exact if_pos (hskip front rfl).symm
  | cons r gone ih =>
    have hpos := hfull (r :: gone) (List.suffix_refl _) (List.cons_ne_nil r gone)
    rw [concat_cons, List.length_append] at hpos
    have hrest : r.get.length + (concat gone).length + skip - r.get.length
        = (concat gone).length + skip := by omega
    rw [List.cons_append, locate, concat_cons, List.length_append, if_neg (by omega), hrest]
    exact ih fun l hl => hfull l (hl.trans (List.suffix_cons r gone))

/-- The most bytes that whole buffers from the first one on have, not more than `len`. -/
def wholeLength : ℕ → List Ref → ℕ
  | _, [] => 0
  | len, r :: rest =>
    if r.get.length ≤ len then r.get.length + wholeLength (len - r.get.length) rest else 0

/-- No room is left for bytes. -/
theorem wholeLength_zero (buffer : List Ref) : wholeLength 0 buffer = 0 := by
  induction buffer with
  | nil => rfl
  | cons r rest ih =>
    rw [wholeLength]
    split
    · rw [Nat.zero_sub, ih]
      omega
    · rfl

/-- They fit. -/
theorem wholeLength_le (len : ℕ) (buffer : List Ref) : wholeLength len buffer ≤ len := by
  induction buffer generalizing len with
  | nil => exact Nat.zero_le _
  | cons r rest ih =>
    rw [wholeLength]
    split
    · have hrest := ih (len - r.get.length)
      omega
    · exact Nat.zero_le _

/-- The big-endian value of some bytes, after those that had the value `out`. -/
def bigEndian (out : ℕ) (b : Bytes) : ℕ := b.foldl (fun out byte => out * 256 + byte.toNat) out

/-- No empty buffer has bytes behind it. -/
def Gapless : List Ref → Prop
  | [] => True
  | r :: rest => (r.get = [] → concat rest = []) ∧ Gapless rest

instance : DecidablePred Gapless := fun l => by
  induction l with
  | nil => exact .isTrue trivial
  | cons r rest ih => exact inferInstanceAs (Decidable (_ ∧ _))

/-- What is behind some of the buffers has no gap either. -/
theorem Gapless.of_append {gone buffer : List Ref} (h : Gapless (gone ++ buffer)) :
    Gapless buffer := by
  induction gone with
  | nil => exact h
  | cons r gone ih => exact ih h.2

/-- Buffers that all have bytes have no gap. -/
theorem gapless_of_nonempty {payload : List Ref} (h : ∀ r ∈ payload, r.get ≠ []) :
    Gapless payload := by
  induction payload with
  | nil => trivial
  | cons r rest ih =>
    exact ⟨fun hr => absurd hr (h r List.mem_cons_self),
      ih fun r hr => h r (List.mem_cons_of_mem _ hr)⟩

/-- The front of an empty buffer is undefined. -/
def ReadsEmpty (payload : List Ref) (e : StdException) : Prop :=
  e.IsUndefined ∧ ¬ Gapless payload

/-- An empty buffer begins at the position. -/
def EmptyAt (payload : List Ref) (pos : ℕ) : Prop :=
  ∃ gone r rest, payload = gone ++ r :: rest ∧ (concat gone).length = pos ∧ r.get = []

/-- The front of an empty buffer is undefined that lies among the first `n` bytes. -/
def ReadsEmptyBefore (payload : List Ref) (n : ℕ) (e : StdException) : Prop :=
  ReadsEmpty payload e ∧ ∃ pos, pos < n ∧ EmptyAt payload pos

namespace BufferList

/-- The first `pos` bytes of the payload have been read. -/
structure At (payload : List Ref) (pos : ℕ) (b : BufferList) : Prop where
  owned : ∀ r ∈ payload, r.owned = true
  split : ∃ gone, payload = gone ++ b.buffer ∧ (concat gone).length + b.skip = pos
  size_eq : b.size + b.skip = (concat b.buffer).length
  skip_lt : ∀ r ∈ b.buffer.head?, b.skip < r.get.length ∨ b.skip = 0
  /-- The buffers left are those from the position on, empty ones included. -/
  located : 0 < b.size → locate payload pos = (b.buffer, b.skip)

namespace At

variable {payload : List Ref} {pos : ℕ} {b : BufferList}

/-- What was read and what is left make up the bytes of the buffers. -/
theorem length_eq (h : b.At payload pos) : pos + b.size = (concat payload).length := by
  obtain ⟨gone, heq, hpos⟩ := h.split
  rw [heq, concat_append, List.length_append, ← h.size_eq]
  omega

/-- What is left to be read. -/
theorem drop_eq (h : b.At payload pos) :
    (concat b.buffer).drop b.skip = (concat payload).drop pos := by
  obtain ⟨gone, heq, hpos⟩ := h.split
  have hgone : (concat gone).drop ((concat gone).length + b.skip) = [] :=
    List.drop_eq_nil_of_le (Nat.le_add_right _ _)
  rw [heq, concat_append, ← hpos, List.drop_append, hgone, List.nil_append,
    Nat.add_sub_cancel_left]

/-- Not more is skipped than the first buffer has. -/
theorem skip_le (h : b.At payload pos) : ∀ r ∈ b.buffer.head?, b.skip ≤ r.get.length := by
  intro r hr
  rcases h.skip_lt r hr with hlt | hzero
  · exact hlt.le
  · exact hzero ▸ Nat.zero_le _

/-- Something is left to be read, so a buffer is. -/
theorem exists_front (h : b.At payload pos) (hsize : 0 < b.size) :
    ∃ front rest, b.buffer = front :: rest ∧ b.skip ≤ front.get.length ∧ front ∈ payload := by
  obtain ⟨gone, heq, -⟩ := h.split
  have hlen := h.size_eq
  cases hbuf : b.buffer with
  | nil =>
    rw [hbuf, concat_nil, List.length_nil] at hlen
    omega
  | cons front rest =>
    refine ⟨front, rest, rfl, h.skip_le front (by rw [hbuf]; rfl), ?_⟩
    rw [heq, hbuf]
    exact List.mem_append_right _ List.mem_cons_self

end At

/-- A fresh list is at the start, unless a buffer is borrowed. -/
theorem new_cases (payload : List Ref) :
    (∃ b, new payload = .ok b ∧ b.At payload 0) ∧ (¬ ∃ r ∈ payload, r.owned = false) ∨
      (∃ what, new payload = .error (.runtimeError what)) ∧ ∃ r ∈ payload, r.owned = false := by
  unfold new
  split
  · rename_i hall
    have howned : ∀ r ∈ payload, r.owned = true := List.all_eq_true.mp hall
    have hsize : (payload.map (·.get.length)).sum = (concat payload).length := by
      simp [concat, List.length_flatten, Function.comp_def]
    have hlocated : 0 < (payload.map (·.get.length)).sum → locate payload 0 = (payload, 0) := by
      intro hpos
      cases payload with
      | nil => exact absurd hpos (lt_irrefl 0)
      | cons front rest => exact if_pos (.inl rfl)
    refine .inl ⟨⟨_, rfl, howned, ⟨[], rfl, rfl⟩, hsize, fun _ _ => .inr rfl, hlocated⟩, ?_⟩
    rintro ⟨r, hr, hborrowed⟩
    rw [howned r hr] at hborrowed
    cases hborrowed
  · rename_i hnot
    have hborrowed : ∃ r ∈ payload, r.owned = false := by simpa using hnot
    exact .inr ⟨⟨_, rfl⟩, hborrowed⟩

/-- A tail from within the string does not throw. -/
theorem substr_eq_ok {s : Bytes} {pos : ℕ} (h : pos ≤ s.length) : substr s pos = .ok (s.drop pos) :=
  if_neg (not_lt.mpr h)

/-- The loop of `remove_prefix` moves the position on, at most to the end.  While there is more to
    be removed, the buffers used up may end with an empty one. -/
theorem removePrefixLoop_spec (gone buffer : List Ref) (skip size len : ℕ)
    (howned : ∀ r ∈ gone ++ buffer, r.owned = true)
    (hsize : size + skip = (concat buffer).length)
    (hskip : ∀ r ∈ buffer.head?, skip < r.get.length ∨ skip = 0)
    (hfull : len = 0 → EndsFull gone skip) :
    ∃ b, removePrefixLoop buffer skip size len = .ok b ∧
      b.At (gone ++ buffer) ((concat gone).length + skip + min len size) := by
  induction buffer generalizing gone skip size len with
  | nil =>
    rw [concat_nil, List.length_nil] at hsize
    have hnone : (concat gone).length + skip + min len size = (concat gone).length + skip := by
      omega
    rw [hnone]
    exact ⟨_, rfl, howned, ⟨gone, rfl, rfl⟩, hsize, hskip, fun hpos => by
      dsimp only at hpos
      omega⟩
  | cons front rest ih =>
    have hle : skip ≤ front.get.length := by
      have hlt := hskip front rfl
      omega
    rw [concat_cons, List.length_append] at hsize
    rw [removePrefixLoop]
    split
    · rename_i hzero
      have hnone : (concat gone).length + skip + min len size = (concat gone).length + skip := by
        omega
      rw [hnone]
      refine ⟨_, rfl, howned, ⟨gone, rfl, rfl⟩, ?_, hskip, fun _ => ?_⟩
      · rw [concat_cons, List.length_append]
        exact hsize
      · exact locate_append (List.cons_ne_nil front rest) hskip (hfull hzero)
    · rename_i hsome
      rw [substr_eq_ok hle]
      show ∃ b, (if skip + min len (front.get.drop skip).length = front.get.length then _ else _)
        = _ ∧ _
      rw [List.length_drop]
      split
      · rename_i hall
        -- the first buffer is used up, and the loop goes on with those after it
        have hgone : (concat (gone ++ [front])).length
            = (concat gone).length + front.get.length := by
          rw [concat_append, List.length_append, concat_cons, concat_nil, List.append_nil]
        obtain ⟨b, hb, hat⟩ := ih (gone ++ [front]) 0
          (size - min len (front.get.length - skip)) (len - min len (front.get.length - skip))
          (by simpa using howned) (by omega) (fun _ _ => .inr rfl) fun hend => by
            -- something of it was removed
            refine endsFull_concat gone 0 fun hempty => ?_
            rw [hempty, List.length_nil] at hend
            omega
        have hmove : (concat (gone ++ [front])).length + 0
            + min (len - min len (front.get.length - skip))
              (size - min len (front.get.length - skip))
            = (concat gone).length + skip + min len size := by omega
        rw [hmove, List.append_assoc, List.singleton_append] at hat
        exact ⟨b, hb, hat⟩
      · rename_i hpart
        have hmove : (concat gone).length + (skip + min len (front.get.length - skip))
            = (concat gone).length + skip + min len size := by omega
        have hinside : ∀ r ∈ (front :: rest).head?,
            skip + min len (front.get.length - skip) < r.get.length ∨
              skip + min len (front.get.length - skip) = 0 := by
          rintro r ⟨⟩
          omega
        refine ⟨_, rfl, howned, ⟨gone, rfl, hmove⟩, ?_, hinside, fun _ => ?_⟩
        · rw [concat_cons, List.length_append]
          dsimp only
          omega
        · rw [← hmove]
          exact locate_append (List.cons_ne_nil front rest) hinside
            (endsFull_of_skip gone (by omega))

/-- Removing a prefix moves the position on, at most to the end. -/
theorem At.removePrefix {payload : List Ref} {pos : ℕ} {b : BufferList} (h : b.At payload pos)
    (len : ℕ) : ∃ b', b.removePrefix len = .ok b' ∧ b'.At payload (pos + min len b.size) := by
  rcases Nat.eq_zero_or_pos len with rfl | hlen
  · have hsame : b.removePrefix 0 = .ok b := by
      obtain ⟨size, buffer, skip⟩ := b
      cases buffer <;> rfl
    rw [Nat.zero_min, Nat.add_zero]
    exact ⟨b, hsame, h⟩
  · obtain ⟨gone, rfl, rfl⟩ := h.split
    exact removePrefixLoop_spec gone b.buffer b.skip b.size len h.owned h.size_eq h.skip_lt
      fun hzero => absurd hzero hlen.ne'

/-! ### Truncating, and moving out what is left -/

/-- **What `truncate` leaves** are the whole buffers that `len` has room for, and none when the
    first one is longer. -/
theorem truncateLoop_spec {len : ℕ} (buffer : List Ref) (sizeSoFar : ℕ)
    (h : ∀ r ∈ buffer, r.owned = true) (hlen : sizeSoFar < len) :
    ∃ kept erased, truncateLoop len sizeSoFar buffer = .ok (kept, erased) ∧ kept <+: buffer ∧
      (concat kept).length = wholeLength (len - sizeSoFar) buffer ∧
      (kept = [] ↔ ∀ r ∈ buffer.head?, len - sizeSoFar < r.get.length) := by
  -- the count of bytes grows with each buffer that is kept
  induction buffer generalizing sizeSoFar with
  | nil => exact ⟨[], [], rfl, List.prefix_refl _, rfl, iff_of_true rfl (by simp)⟩
  | cons it rest ih =>
    have hfits : (∀ r ∈ (it :: rest).head?, len - sizeSoFar < r.get.length) ↔
        len - sizeSoFar < it.get.length := by simp
    rw [truncateLoop, wholeLength, hfits]
    split
    · rename_i hlt
      obtain ⟨kept, erased, hkept, hstart, hlength, -⟩ := ih (sizeSoFar + it.get.length)
        (fun r hr => h r (List.mem_cons_of_mem _ hr)) hlt
      rw [hkept, if_pos (by omega)]
      refine ⟨it :: kept, erased, rfl, (List.prefix_cons_inj it).mpr hstart, ?_,
        iff_of_false (List.cons_ne_nil it kept) (by omega)⟩
      rw [concat_cons, List.length_append, hlength, Nat.sub_sub]
    · split
      · rename_i heq
        have hall : len - sizeSoFar = it.get.length := by omega
        refine ⟨[it], rest, rfl, ⟨rest, rfl⟩, ?_,
          iff_of_false (List.cons_ne_nil it []) (by omega)⟩
        rw [hall, if_pos le_rfl, Nat.sub_self, wholeLength_zero, concat_cons, concat_nil,
          List.append_nil, Nat.add_zero]
      · rw [Ref.getMut, if_pos (h it List.mem_cons_self), if_neg (by omega)]
        exact ⟨[], _, rfl, List.nil_prefix, rfl, iff_of_true rfl (by omega)⟩

/-- Moving out buffers of which the first one has what is skipped. -/
theorem dumpAll_of_owned {b : BufferList} {front : Ref} {rest : List Ref} (hsize : b.size ≠ 0)
    (hbuf : b.buffer = front :: rest) (hown : ∀ r ∈ b.buffer, r.owned = true)
    (hle : b.skip ≤ front.get.length) :
    ∃ out, b.dumpAll = .ok out ∧ (∀ r ∈ out.1, r.owned = true) ∧
      concat out.1 = (concat b.buffer).drop b.skip ∧
      out.1 = { get := front.get.drop b.skip } :: rest := by
  rw [hbuf] at hown
  have hfront := hown front List.mem_cons_self
  have hget : front.getMut = .ok front.get := if_pos hfront
  have hrest : ∀ first : Ref, first.owned = true → ∀ r ∈ first :: rest, r.owned = true := by
    intro first hfirst r hr
    rcases List.mem_cons.mp hr with rfl | hr
    · exact hfirst
    · exact hown r (List.mem_cons_of_mem _ hr)
  rw [dumpAll, if_neg hsize, hbuf]
  -- the first buffer is moved out whole only if nothing of it was skipped
  by_cases hskip : b.skip = 0
  · simp only [hskip, ne_eq, not_true_eq_false, if_false]
    refine ⟨_, rfl, hrest front hfront, rfl, ?_⟩
    rw [List.drop_zero, ← hfront]
  · simp only [ne_eq, hskip, not_false_eq_true, if_true, hget, substr_eq_ok hle, bind, Except.bind]
    refine ⟨_, rfl, hrest _ rfl, ?_, rfl⟩
    show front.get.drop b.skip ++ concat rest = (front.get ++ concat rest).drop b.skip
    rw [List.drop_append_of_le_length hle]

/-- The buffers that are left are owned. -/
theorem At.owned_buffer {payload : List Ref} {pos : ℕ} {b : BufferList} (h : b.At payload pos) :
    ∀ r ∈ b.buffer, r.owned = true := by
  obtain ⟨gone, heq, -⟩ := h.split
  exact fun r hr => h.owned r (heq ▸ List.mem_append_right _ hr)

/-- Moving out what is left, in buffers with no gap where the payload has none. -/
theorem At.dumpAll_gapless {payload : List Ref} {pos : ℕ} {b : BufferList}
    (h : b.At payload pos) :
    ∃ out, b.dumpAll = .ok out ∧ (∀ r ∈ out.1, r.owned = true) ∧
      concat out.1 = (concat payload).drop pos ∧ (Gapless payload → Gapless out.1) := by
  have hlength := h.length_eq
  by_cases hempty : b.size = 0
  · refine ⟨_, if_pos hempty, by simp, ?_, fun _ => trivial⟩
    exact (List.drop_eq_nil_of_le (by omega)).symm
  obtain ⟨front, rest, hbuf, hskip, -⟩ := h.exists_front (by omega)
  obtain ⟨out, hout, howned, hbytes, heq⟩ := dumpAll_of_owned hempty hbuf h.owned_buffer hskip
  rw [h.drop_eq] at hbytes
  refine ⟨out, hout, howned, hbytes, fun hgap => ?_⟩
  obtain ⟨gone, hsplit, -⟩ := h.split
  rw [hsplit, hbuf] at hgap
  have hlt := h.skip_lt front (by rw [hbuf]; rfl)
  rw [heq]
  refine ⟨fun hdrop => hgap.of_append.1 ?_, hgap.of_append.2⟩
  -- a buffer of which something was skipped has more
  have hlen : front.get.length ≤ b.skip := List.drop_eq_nil_iff.mp hdrop
  exact List.length_eq_zero_iff.mp (by omega)

/-- Moving out what is left. -/
theorem At.dumpAll {payload : List Ref} {pos : ℕ} {b : BufferList} (h : b.At payload pos) :
    ∃ out, b.dumpAll = .ok out ∧ concat out.1 = (concat payload).drop pos := by
  obtain ⟨out, hout, -, hbytes, -⟩ := h.dumpAll_gapless
  exact ⟨out, hout, hbytes⟩

/-- Moving out what is left after a cut, of which the bytes that were skipped are a part. -/
theorem At.dumpAll_cut {payload : List Ref} {pos : ℕ} {b : BufferList} (h : b.At payload pos)
    {len : ℕ} (hpos : 0 < len) (hlt : len < b.size) :
    ∃ b', b.truncate len = .ok b' ∧
      if ∀ r ∈ b.buffer.head?, len < r.get.length then
        b'.dumpAll = .error (.undefinedBehaviour "front() of an empty deque")
      else ∃ out, b'.dumpAll = .ok out ∧ (∀ r ∈ out.1, r.owned = true) ∧
        concat out.1 = ((concat payload).drop pos).take (wholeLength len b.buffer - b.skip) := by
  obtain ⟨kept, erased, hkept, ⟨rest, hstart⟩, hlength, hnone⟩ :=
    truncateLoop_spec b.buffer 0 h.owned_buffer hpos
  rw [Nat.sub_zero] at hlength hnone
  rw [truncate, if_neg (not_le.mpr hlt), if_neg hpos.ne', hkept]
  refine ⟨{ b with buffer := kept, size := len }, rfl, ?_⟩
  cases kept with
  | nil =>
    rw [if_pos (hnone.mp rfl), BufferList.dumpAll]
    exact if_neg hpos.ne'
  | cons front kept =>
    have hskip : b.skip ≤ front.get.length := h.skip_le front (by rw [← hstart]; rfl)
    obtain ⟨out, hout, howned, hbytes, -⟩ :=
      dumpAll_of_owned (b := { b with buffer := front :: kept, size := len }) hpos.ne' rfl
        (fun r hr => h.owned_buffer r (hstart ▸ List.mem_append_left rest hr)) hskip
    rw [if_neg fun hlong => List.cons_ne_nil front kept (hnone.mpr hlong)]
    refine ⟨out, hout, howned, ?_⟩
    rw [hbytes, ← h.drop_eq, ← List.drop_take, ← hlength, ← hstart, concat_append,
      List.take_left]

/-- **Truncating and moving out** what is left has no defined outcome when there is something to be
    cut off and the first buffer alone is longer than what is to be kept.  Otherwise only whole
    buffers are kept, of which some bytes were skipped. -/
theorem At.dumpAll_truncate {payload : List Ref} {pos : ℕ} {b : BufferList}
    (h : b.At payload pos) (len : ℕ) :
    ∃ b', b.truncate len = .ok b' ∧
      if 0 < len ∧ len < b.size ∧ ∀ r ∈ b.buffer.head?, len < r.get.length then
        b'.dumpAll = .error (.undefinedBehaviour "front() of an empty deque")
      else ∃ out, b'.dumpAll = .ok out ∧ (∀ r ∈ out.1, r.owned = true) ∧
        (concat out.1 = if b.size ≤ len then (concat payload).drop pos
          else ((concat payload).drop pos).take (wholeLength len b.buffer - b.skip)) ∧
        (b.size ≤ len → Gapless payload → Gapless out.1) := by
  by_cases hle : b.size ≤ len
  · obtain ⟨out, hout, howned, hbytes, hgap⟩ := h.dumpAll_gapless
    refine ⟨b, if_pos hle, ?_⟩
    rw [if_neg (by omega), if_pos hle]
    exact ⟨out, hout, howned, hbytes, fun _ => hgap⟩
  rw [if_neg hle]
  rcases Nat.eq_zero_or_pos len with rfl | hpos
  · -- nothing is kept
    refine ⟨_, (if_neg hle).trans (if_pos rfl), ?_⟩
    rw [if_neg (fun h => lt_irrefl 0 h.1), wholeLength_zero, Nat.zero_sub, List.take_zero]
    exact ⟨_, rfl, by simp, rfl, fun hle' => absurd hle' hle⟩
  · obtain ⟨b', hb', hdump⟩ := h.dumpAll_cut hpos (not_le.mp hle)
    refine ⟨b', hb', ?_⟩
    have hcut : (0 < len ∧ len < b.size ∧ ∀ r ∈ b.buffer.head?, len < r.get.length) ↔
        ∀ r ∈ b.buffer.head?, len < r.get.length := by
      rw [and_iff_right hpos, and_iff_right (not_le.mp hle)]
    simp only [hcut]
    split
    · rename_i hnone
      rwa [if_pos hnone] at hdump
    · rename_i hsome
      rw [if_neg hsome] at hdump
      obtain ⟨out, hout, howned, hbytes⟩ := hdump
      exact ⟨out, hout, howned, hbytes, fun hle' => absurd hle' hle⟩

/-- Viewing what is left. -/
theorem At.views {payload : List Ref} {pos : ℕ} {b : BufferList} (h : b.At payload pos) :
    ∃ views, b.views = .ok views ∧ views.flatten = (concat payload).drop pos := by
  have hlength := h.length_eq
  unfold BufferList.views
  by_cases hempty : b.size = 0
  · refine ⟨[], if_pos hempty, ?_⟩
    exact (List.drop_eq_nil_of_le (by omega)).symm
  · obtain ⟨front, rest, hbuf, hskip, -⟩ := h.exists_front (by omega)
    have hdrop := h.drop_eq
    rw [if_neg hempty, ← hdrop, hbuf]
    refine ⟨front.get.drop b.skip :: rest.map (·.get), ?_, ?_⟩
    · simp only [substr_eq_ok hskip]
      rfl
    · rw [concat_cons, List.drop_append_of_le_length hskip]
      rfl

end BufferList

/-! ### What is read -/

/-- How far reading integers of these widths gets in `len` bytes. -/
def readTo : List ℕ → ℕ → ℕ
  | [], _ => 0
  | w :: ws, len => if w ≤ len then w + readTo ws (len - w) else 0

/-- Widths that all fit are read, and the next ones go on behind them. -/
theorem readTo_append_of_le {ws : List ℕ} {len : ℕ} (h : ws.sum ≤ len) (ws' : List ℕ) :
    readTo (ws ++ ws') len = ws.sum + readTo ws' (len - ws.sum) := by
  induction ws generalizing len with
  | nil => simp
  | cons w ws ih =>
    rw [List.sum_cons] at h ⊢
    rw [List.cons_append, readTo, if_pos (by omega), ih (by omega), Nat.sub_sub, Nat.add_assoc]

/-- Widths that all fit are all read. -/
theorem readTo_of_le {ws : List ℕ} {len : ℕ} (h : ws.sum ≤ len) : readTo ws len = ws.sum := by
  simpa [readTo] using readTo_append_of_le h []

/-- Behind the end nothing more is read. -/
theorem readTo_append_of_lt {ws : List ℕ} {len : ℕ} (h : len < ws.sum) (ws' : List ℕ) :
    readTo (ws ++ ws') len = readTo ws len := by
  induction ws generalizing len with
  | nil => simp at h
  | cons w ws ih =>
    rw [List.sum_cons] at h
    rw [List.cons_append, readTo, readTo]
    split
    · rw [ih (by omega)]
    · rfl

/-- The integer of `size` bytes at a position, or what the variable had when not all of them are
    there. -/
def field (b : Bytes) (pos size out : ℕ) : ℕ :=
  if pos + size ≤ b.length then bigEndian 0 ((b.drop pos).take size) else out

/-- The byte at a position, or the value the variable had. -/
def field8 (b : Bytes) (pos : ℕ) (out : UInt8) : UInt8 := UInt8.ofNat (field b pos 1 out.toNat)

/-- The two bytes at a position, or the value the variable had. -/
def field16 (b : Bytes) (pos : ℕ) (out : UInt16) : UInt16 := UInt16.ofNat (field b pos 2 out.toNat)

/-- The four bytes at a position, or the value the variable had. -/
def field32 (b : Bytes) (pos : ℕ) (out : UInt32) : UInt32 := UInt32.ofNat (field b pos 4 out.toNat)

namespace Parser

open StateExcept

/-- Integers of these widths have been read, or an error is noted. -/
structure Read (payload : List Ref) (widths : List ℕ) (p : Parser) : Prop where
  input_at : p.input.At payload (readTo widths (concat payload).length)
  error_eq : p.error = decide ((concat payload).length < widths.sum)

/-- The position of a parser without regard to its flag. -/
def At (payload : List Ref) (pos : ℕ) (p : Parser) : Prop := p.input.At payload pos

/-- The position of a parser, and its flag. -/
def Noted (payload : List Ref) (pos : ℕ) (err : Bool) (p : Parser) : Prop :=
  p.At payload pos ∧ p.error = err

variable {payload : List Ref}

/-- After reads of some widths the parser stands where the last that fitted ended, and the flag says
    whether all did. -/
theorem Read.noted {ws : List ℕ} {p : Parser} (h : p.Read payload ws) :
    p.Noted payload (readTo ws (concat payload).length)
      (decide ((concat payload).length < ws.sum)) :=
  ⟨h.input_at, h.error_eq⟩

/-- Taking a byte where there is one. -/
theorem takeByte_spec {p : Parser} {pos : ℕ} (h : p.At payload pos) (hpos : 0 < p.input.size) :
    (∃ byte p', takeByte.run p = .ok (byte, p') ∧ p'.At payload (pos + 1) ∧ p'.error = p.error ∧
        (concat payload).drop pos = byte :: (concat payload).drop (pos + 1)) ∨
      ∃ e, takeByte.run p = .error e ∧ ReadsEmpty payload e ∧ EmptyAt payload pos := by
  obtain ⟨front, rest, hbuf, hskip, -⟩ := BufferList.At.exists_front h hpos
  have hpeek : p.input.peek = .ok (front.get.drop p.input.skip) := by
    rw [BufferList.peek, hbuf]
    exact BufferList.substr_eq_ok hskip
  obtain ⟨b, hb, hat⟩ := BufferList.At.removePrefix h 1
  rw [Nat.min_eq_left hpos] at hat
  show (∃ byte p', (p.input.peek >>= fun view => _) = _ ∧ _) ∨
    ∃ e, (p.input.peek >>= fun view => _) = _ ∧ _ ∧ _
  rw [hpeek]
  cases hview : front.get.drop p.input.skip with
  | nil =>
    -- a buffer of which something was skipped has more, so that this one is empty
    have hlt := h.skip_lt front (by rw [hbuf]; rfl)
    have hlen : front.get.length ≤ p.input.skip := List.drop_eq_nil_iff.mp hview
    have hempty : front.get = [] := List.length_eq_zero_iff.mp (by omega)
    obtain ⟨gone, heq, hgone⟩ := h.split
    rw [hbuf] at heq
    refine .inr ⟨_, rfl, ⟨⟨_, rfl⟩, fun hgap => ?_⟩, gone, front, rest, heq, ?_, hempty⟩
    swap
    · rw [hempty, List.length_nil] at hlt hlen
      omega
    rw [heq] at hgap
    have hrest := hgap.of_append.1 hempty
    have hsize := h.size_eq
    rw [hbuf, concat_cons, hempty, hrest] at hsize
    simp at hsize
    omega
  | cons byte view =>
    left
    refine ⟨byte, { p with input := b }, ?_, hat, rfl, ?_⟩
    · show (p.input.removePrefix 1 >>= fun input => _) = _
      rw [hb]
      rfl
    · have hdrop := BufferList.At.drop_eq h
      rw [hbuf, concat_cons, List.drop_append_of_le_length hskip, hview] at hdrop
      rw [← hdrop, ← List.drop_drop, ← hdrop]
      rfl

/-- The loop reads the next `n` bytes as a big-endian number, or it reaches the front of an empty
    buffer that begins before their end. -/
theorem integerLoop_spec (n out : ℕ) {p : Parser} {pos : ℕ} (h : p.At payload pos)
    (hsize : n ≤ p.input.size) :
    (∃ p', (integerLoop n out).run p
        = .ok (bigEndian out (((concat payload).drop pos).take n), p') ∧
        p'.At payload (pos + n) ∧ p'.error = p.error) ∨
      ∃ e, (integerLoop n out).run p = .error e ∧ ReadsEmptyBefore payload (pos + n) e := by
  induction n generalizing out p pos with
  | zero => exact .inl ⟨p, rfl, h, rfl⟩
  | succ n ih =>
    rw [integerLoop, StateT.run_bind]
    rcases takeByte_spec h (by omega) with
      ⟨byte, p', htake, hat, herr, hdrop⟩ | ⟨e, htake, hundef, hempty⟩
    · rw [htake, hdrop, List.take_succ_cons]
      have hlen := BufferList.At.length_eq h
      have hlen' := BufferList.At.length_eq hat
      rcases ih (p := p') (out * 256 + byte.toNat) hat (by omega) with ⟨q, hq, hqat, hqerr⟩ | hq
      · rw [Nat.add_assoc, Nat.add_comm 1 n] at hqat
        exact .inl ⟨q, hq, hqat, hqerr.trans herr⟩
      · rw [Nat.add_assoc, Nat.add_comm 1 n] at hq
        exact .inr hq
    · rw [htake]
      exact .inr ⟨e, rfl, hundef, pos, by omega, hempty⟩

/-- **Reading an integer.**  The size is checked first, so the bytes are there. -/
theorem gives_integer (ws : List ℕ) (size out : ℕ) {n : ℕ} (hn : ws.sum + size ≤ n) :
    Gives (Read payload ws) (ReadsEmptyBefore payload n) (integer size out)
      (field (concat payload) ws.sum size out) (Read payload (ws ++ [size])) := by
  intro p h
  have hlen := BufferList.At.length_eq h.input_at
  have hsum : (ws ++ [size]).sum = ws.sum + size := by simp
  by_cases hend : ws.sum + size ≤ (concat payload).length
  · have hto : readTo ws (concat payload).length = ws.sum := readTo_of_le (by omega)
    have hat : p.At payload ws.sum := hto ▸ h.input_at
    have hcheck : p.checkSize size = p := if_neg (by omega)
    have herr : p.error = false := by
      rw [h.error_eq, decide_eq_false_iff_not]
      omega
    have hrun : (integer size out).run p = (integerLoop size 0).run p := by
      show (if (p.checkSize size).hasError then _ else _) = _
      rw [hcheck, hasError, herr]
      rfl
    rw [hrun, field, if_pos hend]
    rcases integerLoop_spec size 0 hat (by omega) with
      ⟨p', hp', hat', herr'⟩ | ⟨e, he, hundef, pos, hpos, hempty⟩
    swap
    · exact .inr ⟨e, he, hundef, pos, by omega, hempty⟩
    refine .inl ⟨p', hp', ?_, ?_⟩
    · rw [readTo_of_le (by omega), hsum]
      exact hat'
    · rw [herr', herr, eq_comm, decide_eq_false_iff_not]
      omega
  · -- the bytes end before the integer does: the flag is, or has been, raised
    have hcheck : p.checkSize size = { p with error := true } := by
      unfold checkSize
      split
      · rfl
      · rename_i hle
        have herr : p.error = true := by
          rw [h.error_eq, decide_eq_true_iff]
          by_contra hin
          rw [readTo_of_le (by omega)] at hlen
          omega
        cases p
        cases herr
        rfl
    refine .inl ⟨{ p with error := true }, ?_, ?_, ?_⟩
    · show (if (p.checkSize size).hasError then _ else _) = _
      rw [hcheck, field, if_neg hend]
      rfl
    · have hto : readTo (ws ++ [size]) (concat payload).length
          = readTo ws (concat payload).length := by
        by_cases hin : ws.sum ≤ (concat payload).length
        · rw [readTo_append_of_le hin, readTo_of_le hin, readTo, if_neg (by omega), Nat.add_zero]
        · exact readTo_append_of_lt (by omega) [size]
      rw [hto]
      exact h.input_at
    · rw [eq_comm, decide_eq_true_iff]
      omega

/-- Reading a byte, where undefined behaviour is told to lie before a position. -/
theorem gives_integer8_before (ws : List ℕ) (out : UInt8) {n : ℕ} (hn : ws.sum + 1 ≤ n) :
    Gives (Read payload ws) (ReadsEmptyBefore payload n) (integer8 out)
      (field8 (concat payload) ws.sum out) (Read payload (ws ++ [1])) :=
  (gives_integer ws 1 _ hn).map _

/-- Reading a byte. -/
theorem gives_integer8 (ws : List ℕ) (out : UInt8) :
    Gives (Read payload ws) (ReadsEmpty payload) (integer8 out)
      (field8 (concat payload) ws.sum out) (Read payload (ws ++ [1])) :=
  (gives_integer8_before ws out le_rfl).weaken fun _ h => h.1

/-- Reading two bytes, where undefined behaviour is told to lie before a position. -/
theorem gives_integer16_before (ws : List ℕ) (out : UInt16) {n : ℕ} (hn : ws.sum + 2 ≤ n) :
    Gives (Read payload ws) (ReadsEmptyBefore payload n) (integer16 out)
      (field16 (concat payload) ws.sum out) (Read payload (ws ++ [2])) :=
  (gives_integer ws 2 _ hn).map _

/-- Reading two bytes. -/
theorem gives_integer16 (ws : List ℕ) (out : UInt16) :
    Gives (Read payload ws) (ReadsEmpty payload) (integer16 out)
      (field16 (concat payload) ws.sum out) (Read payload (ws ++ [2])) :=
  (gives_integer16_before ws out le_rfl).weaken fun _ h => h.1

/-- Reading four bytes, where undefined behaviour is told to lie before a position. -/
theorem gives_integer32_before (ws : List ℕ) (out : UInt32) {n : ℕ} (hn : ws.sum + 4 ≤ n) :
    Gives (Read payload ws) (ReadsEmptyBefore payload n) (integer32 out)
      (field32 (concat payload) ws.sum out) (Read payload (ws ++ [4])) :=
  (gives_integer ws 4 _ hn).map _

/-- Reading four bytes. -/
theorem gives_integer32 (ws : List ℕ) (out : UInt32) :
    Gives (Read payload ws) (ReadsEmpty payload) (integer32 out)
      (field32 (concat payload) ws.sum out) (Read payload (ws ++ [4])) :=
  (gives_integer32_before ws out le_rfl).weaken fun _ h => h.1

/-- The flag is raised where the condition holds, and stays up. -/
theorem gives_setErrorIf (c : Prop) [Decidable c] (E : StdException → Prop) (pos : ℕ) (err : Bool) :
    Gives (Noted payload pos err) E (setErrorIf c) ⟨⟩ (Noted payload pos (err || decide c)) := by
  refine .ite (fun hc => ?_) (fun hc => ?_)
  · rw [decide_eq_true hc, Bool.or_true]
    exact .modify fun p h => ⟨h.1, rfl⟩
  · rw [decide_eq_false hc, Bool.or_false]
    exact .pure _

/-- Looking at the flag changes nothing. -/
theorem gives_hasError (E : StdException → Prop) (pos : ℕ) (err : Bool) :
    Gives (Noted payload pos err) E (do return (← get).hasError) err (Noted payload pos err) :=
  .gets fun _ h => h.2

/-- The position moves on, not beyond the end. -/
theorem gives_removePrefix (E : StdException → Prop) (n pos : ℕ) (err : Bool) :
    Gives (Noted payload pos err) E (removePrefix n) ⟨⟩
      (Noted payload (min (pos + n) (concat payload).length) err) := by
  rintro p ⟨hat, herr⟩
  obtain ⟨b, hb, hat'⟩ := BufferList.At.removePrefix hat n
  have hlen := BufferList.At.length_eq hat
  have hto : pos + min n p.input.size = min (pos + n) (concat payload).length := by omega
  refine .inl ⟨{ p with input := b }, ?_, hto ▸ hat', herr⟩
  show (p.input.removePrefix n >>= fun input => _) = _
  rw [hb]
  rfl

/-- All bytes from the position on come out, and the flag is as it was. -/
theorem gives_concatenateAllRemaining (E : StdException → Prop) (pos : ℕ) (err : Bool) :
    Gives (Noted payload pos err) E concatenateAllRemaining ((concat payload).drop pos)
      fun p => p.error = err := by
  rintro p ⟨hat, herr⟩
  obtain ⟨out, hout, hbytes⟩ := BufferList.At.dumpAll hat
  refine .inl ⟨{ p with input := out.2 }, ?_, herr⟩
  rw [← hbytes]
  show (p.input.dumpAll >>= fun out => _) >>= _ = _
  rw [hout]
  rfl

/-- A fresh parser, unless a buffer is borrowed. -/
theorem new_cases (payload : List Ref) :
    (∃ p, new payload = .ok p ∧ p.Read payload []) ∧ (¬ ∃ r ∈ payload, r.owned = false) ∨
      (∃ what, new payload = .error (.runtimeError what)) ∧ ∃ r ∈ payload, r.owned = false := by
  unfold new
  refine (BufferList.new_cases payload).imp (And.imp_left ?_) (And.imp_left ?_)
  · rintro ⟨b, hb, hat⟩
    rw [hb]
    exact ⟨_, rfl, hat, by simp⟩
  · rintro ⟨what, hb⟩
    rw [hb]
    exact ⟨what, rfl⟩

end Parser

end Minnow
