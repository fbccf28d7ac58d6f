import Minnow.Parser
import Minnow.Library.Loop

namespace Minnow

/-!
# Reading from a list of buffers

Integers and strings are read off the front, one after the other.  The size is checked against
all that is left, but the bytes are taken from the first buffer, and this is dropped only when
bytes were removed.  So an empty buffer is never gone past by a read that begins at it.

* `Parser.string` — the loop, which does not end at an empty buffer;
* `BufferList.Unread` — the invariant: the buffers that were gone past were not empty;
* `BufferList.Unread.peek_cases` — what the first buffer has to do with the empty ones;
* `Parser.reads_right_iff` — a sequence of reads does what it should iff no empty buffer begins
  among the bytes that it is to read.
-/

/-! ### The reads -/

namespace Parser

/-- A pass of the loop of `string`, which has copied `next` so far. -/
def stringPass (size : ℕ) : Bytes × Parser → Except StdException (Bytes × Parser)
  | (next, p) => do
    let view ← p.input.peek
    let view := view.take (size - next.length)
    let input ← p.input.removePrefix view.length
    return (next ++ view, { p with input })

/-- There are more bytes to be copied. -/
def MoreToCopy (size : ℕ) (s : Bytes × Parser) : Prop := s.1.length ≠ size

instance (size : ℕ) : DecidablePred (MoreToCopy size) := fun s =>
  inferInstanceAs (Decidable (s.1.length ≠ size))

/-- `string`, with at most `fuel` passes of its loop, into a span that holds `out`. -/
def string (fuel : ℕ) (out : Bytes) (p : Parser) : Option (Except StdException (Bytes × Parser)) :=
  let p := p.checkSize out.length
  if p.hasError then some (.ok (out, p))
  else While.loop (MoreToCopy out.length) (stringPass out.length) fuel ([], p)

/-- The bytes that are left. -/
def remaining (p : Parser) : Bytes := (concat p.input.buffer).drop p.input.skip

end Parser

/-- A read, with what the variable or the span holds before. -/
inductive ReadOp where
  | integer (size out : ℕ)
  | string (out : Bytes)
deriving DecidableEq, Repr

/-- What the variable or the span holds after a read. -/
inductive ReadValue where
  | integer (val : ℕ)
  | string (out : Bytes)
deriving DecidableEq, Repr

namespace ReadOp

/-- The number of bytes asked for. -/
def size : ReadOp → ℕ
  | .integer size _ => size
  | .string out => out.length

/-- The read; only that of a string can run out of fuel. -/
def run (fuel : ℕ) (p : Parser) : ReadOp → Option (Except StdException (ReadValue × Parser))
  | .integer size out => some (((Parser.integer size out).run p).map fun r => (.integer r.1, r.2))
  | .string out => (p.string fuel out).map fun r => r.map fun r => (.string r.1, r.2)

/-- The read ends. -/
def Ends (op : ReadOp) (p : Parser) (result : Except StdException (ReadValue × Parser)) : Prop :=
  ∃ fuel, op.run fuel p = some result

/-- Nothing is read. -/
def unread : ReadOp → ReadValue
  | .integer _ out => .integer out
  | .string out => .string out

/-- These bytes are read. -/
def value (b : Bytes) : ReadOp → ReadValue
  | .integer _ _ => .integer (bigEndian 0 b)
  | .string _ => .string b

end ReadOp

/-- Where a reader is, and whether it has asked for too much. -/
structure Cursor where
  pos : ℕ := 0
  error : Bool := false
deriving DecidableEq, Repr

/-- What a read of some bytes should be. -/
def ReadOp.ideal (b : Bytes) (op : ReadOp) (c : Cursor) : ReadValue × Cursor :=
  if c.error ∨ b.length - c.pos < op.size then (op.unread, { c with error := true })
  else (op.value ((b.drop c.pos).take op.size), { c with pos := c.pos + op.size })

/-- A parser of some bytes is where it should be. -/
structure Parser.Stands (b : Bytes) (c : Cursor) (p : Parser) : Prop where
  error_eq : p.error = c.error
  remaining_eq : p.remaining = b.drop c.pos
  size_eq : p.input.size = b.length - c.pos

/-- Each of the reads ends, with the value that it should have, and leaves the parser where it
    should be. -/
def ReadsRight (b : Bytes) : List ReadOp → Parser → Cursor → Prop
  | [], _, _ => True
  | op :: ops, p, c => ∃ p', op.Ends p (.ok ((op.ideal b c).1, p')) ∧
      p'.Stands b (op.ideal b c).2 ∧ ReadsRight b ops p' (op.ideal b c).2

/-! ### Empty buffers -/

/-- An empty buffer begins at a position if it is the first, or among the others. -/
theorem emptyAt_cons {r : Ref} {rest : List Ref} {pos : ℕ} :
    EmptyAt (r :: rest) pos
      ↔ pos = 0 ∧ r.get = [] ∨ r.get.length ≤ pos ∧ EmptyAt rest (pos - r.get.length) := by
  constructor
  · rintro ⟨gone, r', rest', heq, hpos, hempty⟩
    cases gone with
    | nil =>
      obtain ⟨rfl, -⟩ := List.cons.inj heq
      exact .inl ⟨hpos.symm, hempty⟩
    | cons x gone =>
      obtain ⟨rfl, hrest⟩ := List.cons.inj heq
      rw [concat_cons, List.length_append] at hpos
      exact .inr ⟨by omega, gone, r', rest', hrest, by omega, hempty⟩
  · rintro (⟨rfl, hempty⟩ | ⟨hle, gone, r', rest', rfl, hpos, hempty⟩)
    · exact ⟨[], r, rest, rfl, rfl, hempty⟩
    · refine ⟨r :: gone, r', rest', rfl, ?_, hempty⟩
      rw [concat_cons, List.length_append]
      omega

@[simp] theorem not_emptyAt_nil (pos : ℕ) : ¬ EmptyAt [] pos := by
  rintro ⟨gone, r, rest, heq, -⟩
  simp at heq

/-- Behind buffers that are not empty. -/
theorem emptyAt_append {gone : List Ref} (h : ∀ r ∈ gone, r.get ≠ []) {buffer : List Ref}
    {pos : ℕ} :
    EmptyAt (gone ++ buffer) ((concat gone).length + pos) ↔ EmptyAt buffer pos := by
  induction gone with
  | nil => simp
  | cons r gone ih =>
    obtain ⟨hr, hgone⟩ := List.forall_mem_cons.mp h
    have hlength : 0 < r.get.length := List.length_pos_iff.mpr hr
    have hsub : r.get.length + (concat gone).length + pos - r.get.length
        = (concat gone).length + pos := by omega
    rw [List.cons_append, emptyAt_cons, concat_cons, List.length_append, hsub, ih hgone]
    simp only [hr, and_false, false_or, and_iff_right_iff_imp]
    omega

namespace BufferList

/-- The first `pos` bytes of the payload have been read, and no buffer that was gone past was
    empty. -/
structure Unread (payload : List Ref) (pos : ℕ) (b : BufferList) : Prop
    extends At payload pos b where
  passed : ∃ gone, payload = gone ++ b.buffer ∧ (concat gone).length + b.skip = pos ∧
    ∀ r ∈ gone, r.get ≠ []

/-- Removing bytes of the first buffer. -/
theorem removePrefix_front {b : BufferList} {front : Ref} {rest : List Ref}
    (hbuf : b.buffer = front :: rest) (hskip : b.skip ≤ front.get.length) {n : ℕ} (hpos : 0 < n)
    (hle : n ≤ front.get.length - b.skip) :
    b.removePrefix n = .ok (if b.skip + n = front.get.length
      then { size := b.size - n, buffer := rest, skip := 0 }
      else { size := b.size - n, buffer := front :: rest, skip := b.skip + n }) := by
  have hnone : ∀ size,
      removePrefixLoop rest 0 size 0 = .ok { size, buffer := rest, skip := 0 } := by
    intro size
    cases rest <;> rfl
  rw [removePrefix, hbuf, removePrefixLoop, if_neg hpos.ne', substr_eq_ok hskip]
  show (if b.skip + min n (front.get.drop b.skip).length = front.get.length then _ else _) = _
  rw [List.length_drop, Nat.min_eq_left hle, Nat.sub_self, hnone]
  split <;> rfl

namespace Unread

variable {payload : List Ref} {pos : ℕ} {b : BufferList}

/-- Removing bytes of the first buffer, which is not empty. -/
theorem remove_front (h : b.Unread payload pos) {front : Ref} {rest : List Ref}
    (hbuf : b.buffer = front :: rest) (hempty : front.get ≠ []) {n : ℕ} (hn : 0 < n)
    (hle : n ≤ front.get.length - b.skip) :
    ∃ b', b.removePrefix n = .ok b' ∧ b'.Unread payload (pos + n) := by
  obtain ⟨gone, heq, hpos, hgone⟩ := h.passed
  rw [hbuf] at heq
  obtain ⟨b', hb', hat⟩ := h.toAt.removePrefix n
  have hcheck := h.size_eq
  rw [hbuf, concat_cons, List.length_append] at hcheck
  rw [Nat.min_eq_left (by omega)] at hat
  refine ⟨b', hb', hat, ?_⟩
  rw [removePrefix_front hbuf (by omega) hn hle] at hb'
  obtain rfl := Except.ok.inj hb'
  split
  · -- the first buffer is used up
    refine ⟨gone ++ [front], by simpa using heq, ?_, ?_⟩
    · rw [concat_append, List.length_append, concat_cons, concat_nil, List.append_nil]
      dsimp only
      omega
    · intro r hr
      rcases List.mem_append.mp hr with hr | hr
      · exact hgone r hr
      · rwa [List.mem_singleton.mp hr]
  · exact ⟨gone, heq, by dsimp only; omega, hgone⟩

/-- No empty buffer begins among the bytes of the first one. -/
theorem not_emptyAt_front (h : b.Unread payload pos) {front : Ref} {rest : List Ref}
    (hbuf : b.buffer = front :: rest) (hempty : front.get ≠ []) {q : ℕ} (hq : pos ≤ q)
    (hlt : q < pos + (front.get.length - b.skip)) : ¬ EmptyAt payload q := by
  obtain ⟨gone, heq, hpos, hgone⟩ := h.passed
  obtain ⟨k, rfl⟩ : ∃ k, q = (concat gone).length + k := ⟨q - (concat gone).length, by omega⟩
  rw [heq, hbuf, emptyAt_append hgone, emptyAt_cons]
  rintro (⟨-, hnil⟩ | ⟨hle, -⟩)
  · exact hempty hnil
  · omega

/-- **What the first buffer shows**: nothing if an empty buffer begins here; otherwise bytes that
    can be removed, and among which no empty buffer begins. -/
theorem peek_cases (h : b.Unread payload pos) (hsize : 0 < b.size) :
    b.peek = .ok [] ∧ EmptyAt payload pos ∨
      ∃ view, b.peek = .ok view ∧ 0 < view.length ∧ view <+: (concat payload).drop pos ∧
        ∀ n, 0 < n → n ≤ view.length →
          (∃ b', b.removePrefix n = .ok b' ∧ b'.Unread payload (pos + n)) ∧
            ∀ q, pos ≤ q → q < pos + n → ¬ EmptyAt payload q := by
  obtain ⟨front, rest, hbuf, hskip, -⟩ := h.exists_front hsize
  have hpeek : b.peek = .ok (front.get.drop b.skip) := by
    rw [BufferList.peek, hbuf]
    exact substr_eq_ok hskip
  have hlt := h.skip_lt front (by rw [hbuf]; rfl)
  by_cases hempty : front.get = []
  · -- a buffer of which something was skipped has more
    have hzero : b.skip = 0 := by
      rw [hempty, List.length_nil] at hskip
      omega
    obtain ⟨gone, heq, hpos, -⟩ := h.passed
    rw [hbuf] at heq
    refine .inl ⟨?_, gone, front, rest, heq, by omega, hempty⟩
    rw [hpeek, hempty, List.drop_nil]
  · have hfront : 0 < front.get.length := List.length_pos_iff.mpr hempty
    refine .inr ⟨front.get.drop b.skip, hpeek, ?_, ?_, ?_⟩
    · rw [List.length_drop]
      omega
    · rw [← h.drop_eq, hbuf, concat_cons, List.drop_append_of_le_length hskip]
      exact List.prefix_append _ _
    · intro n hn hle
      rw [List.length_drop] at hle
      exact ⟨h.remove_front hbuf hempty hn hle,
        fun q hq hqn => h.not_emptyAt_front hbuf hempty hq (by omega)⟩

end Unread

end BufferList

/-! ### One read -/

/-- An empty buffer begins among the next `n` bytes. -/
def EmptyWithin (payload : List Ref) (pos n : ℕ) : Prop :=
  ∃ q, pos ≤ q ∧ q < pos + n ∧ EmptyAt payload q

/-- No buffer begins within no bytes. -/
theorem not_emptyWithin_zero (payload : List Ref) (pos : ℕ) : ¬ EmptyWithin payload pos 0 := by
  rintro ⟨q, hle, hlt, -⟩
  exact absurd hlt (not_lt.mpr hle)

/-- The next bytes come in two parts. -/
theorem emptyWithin_add {payload : List Ref} {pos k n : ℕ} :
    EmptyWithin payload pos (k + n)
      ↔ EmptyWithin payload pos k ∨ EmptyWithin payload (pos + k) n := by
  constructor
  · rintro ⟨q, hle, hlt, hempty⟩
    by_cases hq : q < pos + k
    · exact .inl ⟨q, hle, hq, hempty⟩
    · exact .inr ⟨q, by omega, by omega, hempty⟩
  · rintro (⟨q, hle, hlt, hempty⟩ | ⟨q, hle, hlt, hempty⟩)
    · exact ⟨q, hle, by omega, hempty⟩
    · exact ⟨q, by omega, by omega, hempty⟩

namespace Parser

variable {payload : List Ref} {pos : ℕ} {p : Parser}

/-- Taking a byte where there is one. -/
theorem takeByte_unread (h : p.input.Unread payload pos) (hsize : 0 < p.input.size) :
    (∃ e, takeByte.run p = .error e) ∧ EmptyWithin payload pos 1 ∨
      ∃ byte p', takeByte.run p = .ok (byte, p') ∧ p'.input.Unread payload (pos + 1) ∧
        p'.error = p.error ∧ (concat payload).drop pos = byte :: (concat payload).drop (pos + 1) ∧
        ¬ EmptyWithin payload pos 1 := by
  show (∃ e, (p.input.peek >>= fun view => _) = _) ∧ _ ∨
    ∃ byte p', (p.input.peek >>= fun view => _) = _ ∧ _
  rcases h.peek_cases hsize with ⟨hpeek, hempty⟩ | ⟨view, hpeek, hpos, hview, hremove⟩
  · rw [hpeek]
    exact .inl ⟨⟨_, rfl⟩, pos, le_rfl, by omega, hempty⟩
  · obtain ⟨⟨b, hb, hunread⟩, hnone⟩ := hremove 1 one_pos hpos
    cases view with
    | nil => cases hpos
    | cons byte view =>
      rw [hpeek]
      refine .inr ⟨byte, { p with input := b }, ?_, hunread, rfl, ?_, ?_⟩
      · show (p.input.removePrefix 1 >>= fun input => _) = _
        rw [hb]
        rfl
      · obtain ⟨rest, hrest⟩ := hview
        rw [← List.drop_drop, ← hrest]
        rfl
      · rintro ⟨q, hle, hlt, hempty⟩
        exact hnone q hle hlt hempty

/-- The loop of `integer` throws at the first empty buffer. -/
theorem integerLoop_unread (n out : ℕ) (h : p.input.Unread payload pos)
    (hsize : n ≤ p.input.size) :
    (∃ e, (integerLoop n out).run p = .error e) ∧ EmptyWithin payload pos n ∨
      ∃ p', (integerLoop n out).run p
          = .ok (bigEndian out (((concat payload).drop pos).take n), p') ∧
        p'.input.Unread payload (pos + n) ∧ p'.error = p.error ∧ ¬ EmptyWithin payload pos n := by
  induction n generalizing out p pos with
  | zero => exact .inr ⟨p, rfl, h, rfl, not_emptyWithin_zero payload pos⟩
  | succ n ih =>
    rw [integerLoop, StateT.run_bind, Nat.add_comm n 1, emptyWithin_add]
    rcases takeByte_unread h (by omega) with
      ⟨⟨e, htake⟩, hempty⟩ | ⟨byte, p', htake, hunread, herr, hdrop, hnone⟩
    · rw [htake]
      exact .inl ⟨⟨e, rfl⟩, .inl hempty⟩
    · rw [htake, hdrop, Nat.add_comm 1 n, List.take_succ_cons]
      have hlen := h.length_eq
      have hlen' := hunread.length_eq
      rcases ih (p := p') (out * 256 + byte.toNat) hunread (by omega) with
        ⟨hthrow, hempty⟩ | ⟨q, hq, hqunread, hqerr, hqnone⟩
      · exact .inl ⟨hthrow, .inr hempty⟩
      · rw [Nat.add_assoc, Nat.add_comm 1 n] at hqunread
        exact .inr ⟨q, hq, hqunread, hqerr.trans herr, not_or.mpr ⟨hnone, hqnone⟩⟩

/-- A pass of the loop of `string` copies what the first buffer shows, unless this is nothing:
    then it changes nothing. -/
theorem stringPass_unread {size : ℕ} {next : Bytes} (h : p.input.Unread payload pos)
    (hleft : next.length < size) (hsize : size - next.length ≤ p.input.size) :
    stringPass size (next, p) = .ok (next, p) ∧ EmptyAt payload pos ∨
      ∃ k p', 0 < k ∧ k ≤ size - next.length ∧
        stringPass size (next, p) = .ok (next ++ ((concat payload).drop pos).take k, p') ∧
        p'.input.Unread payload (pos + k) ∧ p'.error = p.error ∧ ¬ EmptyWithin payload pos k := by
  unfold stringPass
  rcases h.peek_cases (by omega) with ⟨hpeek, hempty⟩ | ⟨view, hpeek, hpos, hview, hremove⟩
  · have hstay : p.input.removePrefix 0 = .ok p.input := by
      unfold BufferList.removePrefix
      cases hbuf : p.input.buffer <;> simp [BufferList.removePrefixLoop, ← hbuf]
    refine .inl ⟨?_, hempty⟩
    simp only [hpeek, bind, Except.bind, List.take_nil, List.length_nil, hstay, List.append_nil]
    rfl
  · obtain ⟨rest, hrest⟩ := hview
    have hk : (view.take (size - next.length)).length = min (size - next.length) view.length :=
      List.length_take
    obtain ⟨⟨b, hb, hunread⟩, hnone⟩ :=
      hremove (view.take (size - next.length)).length (by omega) (by omega)
    refine .inr ⟨_, { p with input := b }, ?_, ?_, ?_, hunread, rfl, ?_⟩
    · omega
    · omega
    · have htake : ((concat payload).drop pos).take (view.take (size - next.length)).length
          = view.take (size - next.length) := by
        rw [← hrest, List.take_append_of_le_length (by omega), hk, List.take_eq_take_iff]
        omega
      simp only [hpeek, bind, Except.bind, hb, htake]
      rfl
    · rintro ⟨q, hle, hlt, hempty⟩
      exact hnone q hle hlt hempty

/-- The loop of `string` does not end at an empty buffer, and else copies what it should. -/
theorem stringLoop_unread {size : ℕ} {next : Bytes} (h : p.input.Unread payload pos)
    (hnext : next.length ≤ size) (hsize : size - next.length ≤ p.input.size) :
    (∀ r, ¬ While.Ends (MoreToCopy size) (stringPass size) (next, p) r) ∧
        EmptyWithin payload pos (size - next.length) ∨
      ∃ p', While.Ends (MoreToCopy size) (stringPass size) (next, p)
          (.ok (next ++ ((concat payload).drop pos).take (size - next.length), p')) ∧
        p'.input.Unread payload (pos + (size - next.length)) ∧ p'.error = p.error ∧
        ¬ EmptyWithin payload pos (size - next.length) := by
  -- each pass that is not the last copies a byte at least
  induction hleft : size - next.length using Nat.strong_induction_on generalizing next p pos with
  | _ left ih =>
    rcases hnext.eq_or_lt with heq | hlt
    · have hzero : left = 0 := by omega
      subst hzero
      have hdone : ¬ MoreToCopy size (next, p) := not_not.mpr heq
      refine .inr ⟨p, ?_, h, rfl, not_emptyWithin_zero payload pos⟩
      rw [While.ends_of_not hdone, List.take_zero, List.append_nil]
    have hmore : MoreToCopy size (next, p) := hlt.ne
    rcases stringPass_unread h hlt hsize with
      ⟨hstuck, hempty⟩ | ⟨k, p', hk, hkle, hpass, hunread, herr, hnone⟩
    · exact .inl ⟨fun r => While.not_ends_of_stuck hmore hstuck r, pos, le_rfl, by omega, hempty⟩
    · have hlen := h.length_eq
      have hlen' := hunread.length_eq
      have hcopied : (next ++ ((concat payload).drop pos).take k).length = next.length + k := by
        rw [List.length_append, List.length_take, List.length_drop]
        omega
      have hsplit : left = k + (left - k) := by omega
      have hbytes : ((concat payload).drop pos).take left
          = ((concat payload).drop pos).take k
            ++ ((concat payload).drop (pos + k)).take (left - k) := by
        rw [hsplit, List.take_add, List.drop_drop, Nat.add_sub_cancel_left]
      have hroom : size - (next ++ ((concat payload).drop pos).take k).length ≤ p'.input.size := by
        omega
      rcases ih (left - k) (by omega) hunread (by omega) hroom (by omega) with
        ⟨hnot, hempty⟩ | ⟨q, hq, hqunread, hqerr, hqnone⟩
      · refine .inl ⟨fun r hr => hnot r ((While.ends_of_ok hmore hpass).mp hr), ?_⟩
        rw [hsplit, emptyWithin_add]
        exact .inr hempty
      · refine .inr ⟨q, (While.ends_of_ok hmore hpass).mpr ?_, ?_, hqerr.trans herr, ?_⟩
        · rwa [hbytes, ← List.append_assoc]
        · rwa [hsplit, ← Nat.add_assoc]
        · rw [hsplit, emptyWithin_add, not_or]
          exact ⟨hnone, hqnone⟩

end Parser

namespace ReadOp

open Minnow.Parser

variable {payload : List Ref} {pos : ℕ} {p : Parser} {op : ReadOp}

/-- A read ends in one way at most. -/
theorem Ends.unique {r r' : Except StdException (ReadValue × Parser)} (h : op.Ends p r)
    (h' : op.Ends p r') : r = r' := by
  obtain ⟨fuel, hfuel⟩ := h
  obtain ⟨fuel', hfuel'⟩ := h'
  cases op with
  | integer size out => exact Option.some.inj (hfuel.symm.trans hfuel')
  | string out =>
    simp only [run, Parser.string, Option.map_eq_some_iff] at hfuel hfuel'
    obtain ⟨s, hs, rfl⟩ := hfuel
    obtain ⟨s', hs', rfl⟩ := hfuel'
    split at hs
    · rename_i herr
      rw [if_pos herr] at hs'
      rw [Option.some.inj (hs.symm.trans hs')]
    · rename_i herr
      rw [if_neg herr] at hs'
      rw [While.Ends.unique ⟨fuel, hs⟩ ⟨fuel', hs'⟩]

/-- After an error, and where not enough is left, nothing is read. -/
theorem ends_unread (h : p.error = true ∨ p.input.size < op.size) :
    op.Ends p (.ok (op.unread, { p with error := true })) := by
  have hcheck : p.checkSize op.size = { p with error := true } := by
    unfold checkSize
    rcases h with herr | hsize
    · split
      · rfl
      · rw [← herr]
    · exact if_pos hsize
  refine ⟨0, ?_⟩
  cases op with
  | integer size out =>
    show some (Except.map _ (if (p.checkSize size).hasError then _ else _)) = _
    rw [show p.checkSize size = _ from hcheck]
    rfl
  | string out =>
    show Option.map _ (if (p.checkSize out.length).hasError then _ else _) = _
    rw [show p.checkSize out.length = _ from hcheck]
    rfl

/-- **A read where enough is left** does what it should iff no empty buffer begins among its
    bytes. -/
theorem ends_cases (h : p.input.Unread payload pos) (herr : p.error = false)
    (hsize : op.size ≤ p.input.size) :
    (∀ x, ¬ op.Ends p (.ok x)) ∧ EmptyWithin payload pos op.size ∨
      ∃ p', op.Ends p (.ok (op.value (((concat payload).drop pos).take op.size), p')) ∧
        p'.input.Unread payload (pos + op.size) ∧ p'.error = false ∧
        ¬ EmptyWithin payload pos op.size := by
  have hcheck : p.checkSize op.size = p := if_neg (not_lt.mpr hsize)
  cases op with
  | integer size out =>
    have hrun : ∀ fuel, (integer size out).run fuel p
        = some (((integerLoop size 0).run p).map fun r => (.integer r.1, r.2)) := by
      intro fuel
      show some (Except.map _ (if (p.checkSize size).hasError then _ else _)) = _
      rw [show p.checkSize size = p from hcheck, hasError, herr]
      rfl
    rcases integerLoop_unread size 0 h hsize with
      ⟨⟨e, he⟩, hempty⟩ | ⟨p', hp', hunread, herr', hnone⟩
    · refine .inl ⟨fun x hx => ?_, hempty⟩
      obtain ⟨fuel, hfuel⟩ := hx
      rw [hrun, he] at hfuel
      cases hfuel
    · refine .inr ⟨p', ⟨0, ?_⟩, hunread, herr'.trans herr, hnone⟩
      rw [hrun, hp']
      rfl
  | string out =>
    have hrun : ∀ fuel, (string out).run fuel p
        = (While.loop (MoreToCopy out.length) (stringPass out.length) fuel ([], p)).map
          fun r => r.map fun r => (.string r.1, r.2) := by
      intro fuel
      show Option.map _ (if (p.checkSize out.length).hasError then _ else _) = _
      rw [show p.checkSize out.length = p from hcheck, hasError, herr]
      rfl
    have hroom : out.length - ([] : Bytes).length ≤ p.input.size := hsize
    rcases stringLoop_unread h (Nat.zero_le _) hroom with
      ⟨hnot, hempty⟩ | ⟨p', ⟨fuel, hfuel⟩, hunread, herr', hnone⟩
    · refine .inl ⟨fun x hx => ?_, hempty⟩
      obtain ⟨fuel, hfuel⟩ := hx
      rw [hrun, Option.map_eq_some_iff] at hfuel
      obtain ⟨r, hr, -⟩ := hfuel
      exact hnot r ⟨fuel, hr⟩
    · refine .inr ⟨p', ⟨fuel, ?_⟩, hunread, herr'.trans herr, hnone⟩
      rw [hrun, hfuel]
      rfl

end ReadOp

/-! ### Sequences of reads -/

namespace Parser

variable {payload : List Ref} {p : Parser} {c : Cursor}

/-- Where a parser stands. -/
theorem stands_of (h : p.input.Unread payload c.pos) (herr : p.error = c.error) :
    p.Stands (concat payload) c where
  error_eq := herr
  remaining_eq := h.drop_eq
  size_eq := by
    have := h.length_eq
    omega

/-- After an error, every read does what it should. -/
theorem readsRight_of_error (ops : List ReadOp) (h : p.input.Unread payload c.pos)
    (herr : p.error = true) (hcursor : c.error = true) :
    ReadsRight (concat payload) ops p c := by
  induction ops generalizing p c with
  | nil => trivial
  | cons op ops ih =>
    have hideal : op.ideal (concat payload) c = (op.unread, { c with error := true }) :=
      if_pos (.inl hcursor)
    refine ⟨{ p with error := true }, ?_, ?_, ?_⟩
    · rw [hideal]
      exact ReadOp.ends_unread (.inl herr)
    · rw [hideal]
      exact stands_of h rfl
    · rw [hideal]
      exact ih h rfl rfl

/-- **The reads to come** do what they should iff no empty buffer begins among their bytes. -/
theorem readsRight_iff_of_unread (ops : List ReadOp) (h : p.input.Unread payload c.pos)
    (herr : p.error = false) (hcursor : c.error = false) :
    ReadsRight (concat payload) ops p c
      ↔ ¬ EmptyWithin payload c.pos (readTo (ops.map (·.size)) p.input.size) := by
  induction ops generalizing p c with
  | nil => exact iff_of_true trivial (not_emptyWithin_zero payload c.pos)
  | cons op ops ih =>
    have hlen := h.length_eq
    rw [List.map_cons, readTo]
    by_cases hsize : op.size ≤ p.input.size
    · have hideal : op.ideal (concat payload) c = (op.value
          (((concat payload).drop c.pos).take op.size), { c with pos := c.pos + op.size }) := by
        refine if_neg (not_or.mpr ⟨?_, by omega⟩)
        rw [hcursor]
        exact Bool.false_ne_true
      rw [if_pos hsize, emptyWithin_add, ReadsRight, hideal]
      rcases ReadOp.ends_cases h herr hsize with ⟨hnot, hempty⟩ | ⟨p', hends, hunread, herr', hnone⟩
      · refine iff_of_false ?_ (not_not.mpr (.inl hempty))
        rintro ⟨p', hp', -⟩
        exact hnot _ hp'
      · have hlen' := hunread.length_eq
        have hleft : p.input.size - op.size = p'.input.size := by omega
        have hrest := ih (c := { c with pos := c.pos + op.size }) hunread herr' hcursor
        rw [hleft, not_or, and_iff_right hnone, ← hrest]
        constructor
        · rintro ⟨q, hq, -, hright⟩
          obtain ⟨-, rfl⟩ := Prod.mk.inj (Except.ok.inj (hends.unique hq))
          exact hright
        · exact fun hright => ⟨p', hends, stands_of hunread (herr'.trans hcursor.symm), hright⟩
    · have hideal : op.ideal (concat payload) c = (op.unread, { c with error := true }) :=
        if_pos (.inr (by omega))
      rw [if_neg hsize, ReadsRight, hideal]
      exact iff_of_true ⟨_, ReadOp.ends_unread (.inr (by omega)), stands_of h rfl,
        readsRight_of_error ops h rfl rfl⟩ (not_emptyWithin_zero payload c.pos)

/-- A new parser has read nothing. -/
theorem unread_new (h : Parser.new payload = .ok p) :
    p.input.Unread payload 0 ∧ p.error = false := by
  unfold Parser.new at h
  rcases BufferList.new_cases payload with ⟨⟨b, hb, hat⟩, -⟩ | ⟨⟨what, hwhat⟩, -⟩
  · rw [hb] at h
    obtain rfl := Except.ok.inj h
    have hform : b.buffer = payload ∧ b.skip = 0 := by
      unfold BufferList.new at hb
      split at hb
      · obtain rfl := Except.ok.inj hb
        exact ⟨rfl, rfl⟩
      · cases hb
    exact ⟨⟨hat, [], hform.1.symm, by simp [hform.2], by simp⟩, rfl⟩
  · rw [hwhat] at h
    cases h

/-- **Reading from a list of owned buffers.** A sequence of reads does what it should iff no empty
    buffer begins among the bytes that it is to read. -/
theorem reads_right_iff (h : Parser.new payload = .ok p) (ops : List ReadOp) :
    ReadsRight (concat payload) ops p {}
      ↔ ∀ pos, pos < readTo (ops.map (·.size)) (concat payload).length → ¬ EmptyAt payload pos := by
  obtain ⟨hunread, herr⟩ := unread_new h
  have hlen := hunread.length_eq
  rw [Nat.zero_add] at hlen
  rw [readsRight_iff_of_unread ops hunread herr rfl, hlen]
  simp [EmptyWithin]

/-- A parser of three bytes with an empty buffer behind them. -/
def emptyBehind : Parser :=
  { input := { size := 3, buffer := [{ get := [1] }, { get := [2, 3] }, { get := [] }] } }

/-- An empty buffer behind the bytes of the reads, of which the last asks for too much. -/
theorem reads_right_iff_three :
    ReadsRight [1, 2, 3] [.integer 2 0, .string [0], .integer 8 5] emptyBehind {} := by
  have hnew : Parser.new [{ get := [1] }, { get := [2, 3] }, { get := [] }] = .ok emptyBehind := rfl
  refine (reads_right_iff hnew _).mpr ?_
  intro pos hpos hempty
  have hlt : pos < 3 := hpos
  simp [emptyAt_cons] at hempty
  omega

/-- A parser of an empty buffer with two bytes behind it. -/
def emptyFront : Parser := { input := { size := 2, buffer := [{ get := [] }, { get := [1, 2] }] } }

/-- **An empty buffer in front** of bytes enough: reading a string does not end, and an integer
    takes the front of an empty view. -/
theorem reads_stall :
    Parser.new [{ get := [] }, { get := [1, 2] }] = .ok emptyFront ∧
      (∀ result, ¬ (ReadOp.string [0, 0]).Ends emptyFront result) ∧
      (∀ result, (ReadOp.integer 2 0).Ends emptyFront result → ∃ what,
        result = .error (.undefinedBehaviour what)) ∧
      ¬ ReadsRight [1, 2] [.string [0, 0]] emptyFront {} ∧
      ¬ ReadsRight [1, 2] [.integer 2 0] emptyFront {} := by
  have hstring : ∀ result, ¬ (ReadOp.string [0, 0]).Ends emptyFront result := by
    rintro result ⟨fuel, hfuel⟩
    obtain ⟨r, hr, -⟩ := Option.map_eq_some_iff.mp hfuel
    have hmore : MoreToCopy 2 ([], emptyFront) := by decide
    have hstuck : stringPass 2 ([], emptyFront) = .ok ([], emptyFront) := rfl
    exact While.not_ends_of_stuck hmore hstuck r ⟨fuel, hr⟩
  have hinteger : ∀ result, (ReadOp.integer 2 0).Ends emptyFront result →
      ∃ what, result = .error (.undefinedBehaviour what) := by
    rintro result ⟨fuel, hfuel⟩
    exact ⟨_, (Option.some.inj hfuel).symm⟩
  refine ⟨rfl, hstring, hinteger, ?_, ?_⟩
  · rintro ⟨p', hends, -⟩
    exact hstring _ hends
  · rintro ⟨p', hends, -⟩
    obtain ⟨what, hwhat⟩ := hinteger _ hends
    cases hwhat

end Parser

end Minnow
