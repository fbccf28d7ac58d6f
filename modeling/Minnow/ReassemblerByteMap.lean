import Minnow.Reassembler
import Minnow.Library.Machine

namespace Minnow

/-!
# The reassembler as a byte map

What the reassembler is for: a partial map from indices to bytes that accepts every byte within
the capacity of its output, and writes the longest prefix it has.

A run feeds one reassembler any substrings, also overlapping and contradictory ones, with the
reader popping in between, and records which substrings were supplied, which bytes were pushed,
and which indices were accepted.  `insert_refines` says that `insert` is the update of the map.
-/

open IntervalMap

/-- What can happen to a reassembler. -/
inductive ReassemblerOp where
  | insert (firstIndex : UInt64) (data : Bytes) (isLastSubstring : Bool)
  | pop (len : UInt64)
deriving DecidableEq, Repr

/-- A reassembler with its history. -/
structure ReassemblerRun where
  reassembler : Reassembler
  /-- the substrings inserted, with their indices -/
  inserts : List (ℕ × Bytes) := []
  /-- the bytes ever pushed to the output -/
  pushed : Bytes := []
  /-- the indices accepted: of each substring, those within the window on arrival -/
  accepted : Set ℕ := ∅

namespace ReassemblerRun

/-- The index of the next byte to be pushed. -/
def next (r : ReassemblerRun) : ℕ := r.reassembler.nextByteIndex.toNat

/-- The room for bytes from the next one on. -/
def window (r : ReassemblerRun) : ℕ := r.reassembler.availableCapacity.toNat

/-- The indices held in the reassembler itself. -/
def held (r : ReassemblerRun) : Set ℕ := covers r.reassembler.waiting

/-- The indices of a substring that lie within the window. -/
def fitting (r : ReassemblerRun) (f : UInt64) (d : Bytes) : Set ℕ :=
  Set.Ico f.toNat (f.toNat + d.length) ∩ Set.Ico r.next (r.next + r.window)

/-- The history after an insert that left the reassembler as given. -/
def record (r : ReassemblerRun) (f : UInt64) (d : Bytes) (reassembler : Reassembler) :
    ReassemblerRun where
  reassembler := reassembler
  inserts := r.inserts ++ [(f.toNat, d)]
  pushed := r.pushed ++ reassembler.output.contents.drop r.reassembler.output.contents.length
  accepted := r.accepted ∪ r.fitting f d

/-- The method, with a note of what was inserted and written. -/
def step (r : ReassemblerRun) : ReassemblerOp → ReassemblerRun
  | .insert f d last => r.record f d (r.reassembler.insert f d last)
  | .pop len =>
    { r with reassembler := { r.reassembler with output := r.reassembler.output.pop len } }

/-- A reassembler fresh from its constructor. -/
def start (output : ByteStream) : ReassemblerRun := { reassembler := .new output }

/-- The domain of the statement: the output is not closed, and the indices involved are below
    `2^63` or so. -/
def InDomain (r : ReassemblerRun) : ReassemblerOp → Prop
  | .insert _ d _ => r.reassembler.output.isClosed = false ∧
      r.next + r.reassembler.output.capacity.toNat < 2 ^ 63 ∧ d.length < 2 ^ 63
  | .pop _ => True

/-- The invariant that ties a reassembler to its history. -/
structure ByteMap (r : ReassemblerRun) : Prop where
  wf : r.reassembler.WF
  next_eq : r.next = r.pushed.length
  accepted_eq : r.accepted = Set.Iio r.next ∪ r.held
  pushed_from : ∀ i b, r.pushed[i]? = some b → Holds r.inserts i b
  held_from : ∀ i b, Holds r.reassembler.waiting i b → Holds r.inserts i b

/-- One substring more. -/
theorem holds_append_singleton {l : List (ℕ × Bytes)} {e : ℕ × Bytes} {i : ℕ} {b : UInt8} :
    Holds (l ++ [e]) i b ↔ Holds l i b ∨ At e i b := by
  simp only [Holds, List.mem_append, List.mem_singleton]
  constructor
  · rintro ⟨x, hx | rfl, hb⟩
    · exact .inl ⟨x, hx, hb⟩
    · exact .inr hb
  · rintro (⟨x, hx, hb⟩ | hb)
    · exact ⟨x, .inl hx, hb⟩
    · exact ⟨e, .inr rfl, hb⟩

namespace ByteMap

variable {r : ReassemblerRun}

/-- The window is within the capacity. -/
theorem window_le (h : r.ByteMap) : r.window ≤ r.reassembler.output.capacity.toNat :=
  h.wf.output.available_le

/-- In the domain `insert` does one of the three things it can do. -/
theorem insertCase (h : r.ByteMap) {f : UInt64} {d : Bytes} {last : Bool}
    (hdom : r.InDomain (.insert f d last)) :
    Reassembler.InsertCase r.reassembler f d last (r.reassembler.insert f d last) := by
  obtain ⟨hopen, hnext, hd⟩ := hdom
  have hwin := h.window_le
  rw [next] at hnext
  rw [window] at hwin
  exact Reassembler.insert_cases h.wf (by omega) (fun hf => by omega) (fun _ _ => hopen)

end ByteMap

/-- What a call of `insert` in state `r` does to the map. -/
structure InsertRefines (r : ReassemblerRun) (f : UInt64) (d : Bytes) (last : Bool) : Prop where
  /-- the indices held or pushed afterwards -/
  held_or_pushed : (r.step (.insert f d last)).held
      ∪ Set.Ico r.next (r.step (.insert f d last)).next = r.held ∪ r.fitting f d
  /-- the next index is the first one missing -/
  next_isLeast : IsLeast {i | r.next ≤ i ∧ i ∉ r.held ∪ r.fitting f d}
    (r.step (.insert f d last)).next
  /-- no byte is counted twice -/
  pending : (r.step (.insert f d last)).reassembler.countBytesPending.toNat
    = (r.step (.insert f d last)).held.ncard
  /-- every byte pushed or held was supplied for its index by some insert -/
  pushed_from : ∀ i b, (r.step (.insert f d last)).pushed[i]? = some b →
    ∃ e ∈ (r.step (.insert f d last)).inserts, At e i b
  held_from : ∀ i b, Holds (r.step (.insert f d last)).reassembler.waiting i b →
    ∃ e ∈ (r.step (.insert f d last)).inserts, At e i b
  /-- when all substrings were slices of one string, its longest prefix of accepted indices was
      pushed -/
  slices : ∀ S : Bytes,
    (∀ e ∈ (r.step (.insert f d last)).inserts, e.2 = (S.drop e.1).take e.2.length) →
      (r.step (.insert f d last)).pushed = S.take (r.step (.insert f d last)).next ∧
      IsLeast {i | i ∉ (r.step (.insert f d last)).accepted} (r.step (.insert f d last)).next

variable {r : ReassemblerRun}

/-- A substring of which nothing fits leaves the map as it is. -/
theorem ByteMap.record_same (h : r.ByteMap) {f : UInt64} {d : Bytes} {r' : Reassembler}
    (hwf : r'.WF) (hwait : r'.waiting = r.reassembler.waiting)
    (hcont : r'.output.contents = r.reassembler.output.contents)
    (hnext : r'.nextByteIndex = r.reassembler.nextByteIndex) (hfit : r.fitting f d = ∅) :
    (r.record f d r').ByteMap ∧
      (r.record f d r').held ∪ Set.Ico r.next (r.record f d r').next
        = r.held ∪ r.fitting f d := by
  have hheld : (r.record f d r').held = r.held := by rw [held, held, ← hwait]; rfl
  have hnext' : (r.record f d r').next = r.next := by rw [next, next, ← hnext]; rfl
  have hpushed : (r.record f d r').pushed = r.pushed := by
    rw [record, hcont, List.drop_length, List.append_nil]
  constructor
  · constructor
    case wf => exact hwf
    case next_eq => rw [hnext', hpushed, h.next_eq]
    case accepted_eq =>
      rw [hheld, hnext', ← h.accepted_eq]
      show r.accepted ∪ r.fitting f d = r.accepted
      rw [hfit, Set.union_empty]
    case pushed_from =>
      rw [hpushed]
      exact fun i b hb => holds_append_singleton.mpr (.inl (h.pushed_from i b hb))
    case held_from =>
      intro i b hb
      rw [show (r.record f d r').reassembler.waiting = r.reassembler.waiting from hwait] at hb
      exact holds_append_singleton.mpr (.inl (h.held_from i b hb))
  · rw [hheld, hnext', Set.Ico_self, hfit]

/-- A substring that was stored adds what fits. -/
theorem ByteMap.record_stored (h : r.ByteMap) {f : UInt64} {d : Bytes} {last : Bool}
    {r' : Reassembler} {written : Bytes}
    (hs : Reassembler.Stored (r.reassembler.noteLast f d last) f.toNat d r' written) :
    (r.record f d r').ByteMap ∧
      (r.record f d r').held ∪ Set.Ico r.next (r.record f d r').next
        = r.held ∪ r.fitting f d := by
  have hcont := hs.contents_eq
  have hcovers := hs.covers_eq
  have hnext := hs.next_eq
  rw [Reassembler.output_noteLast] at hcont
  rw [Reassembler.nextByteIndex_noteLast] at hnext
  rw [Reassembler.waiting_noteLast, Reassembler.nextByteIndex_noteLast,
    Reassembler.availableCapacity_noteLast, ← hnext] at hcovers
  have hpushed : (r.record f d r').pushed = r.pushed ++ written := by
    rw [record, hcont, List.drop_left]
  have hcovers' : (r.record f d r').held ∪ Set.Ico r.next (r.record f d r').next
      = r.held ∪ r.fitting f d := hcovers
  refine ⟨?_, hcovers'⟩
  constructor
  case wf => exact hs.wf
  case next_eq =>
    rw [hpushed, List.length_append, ← h.next_eq]
    exact hnext
  case accepted_eq =>
    have hle : r.next ≤ (r.record f d r').next := le_of_le_of_eq (Nat.le_add_right _ _) hnext.symm
    show r.accepted ∪ r.fitting f d = _
    rw [h.accepted_eq, Set.union_assoc, ← hcovers', ← Set.Iio_union_Ico_eq_Iio hle,
      Set.union_assoc, Set.union_comm (r.record f d r').held]
  -- a byte written was either held or comes with the substring
  case pushed_from =>
    intro i b hb
    rw [hpushed, List.getElem?_append] at hb
    apply holds_append_singleton.mpr
    split at hb
    · exact .inl (h.pushed_from i b hb)
    · rename_i hge
      have hfrom := hs.written_from _ b hb
      rw [Reassembler.waiting_noteLast, Reassembler.nextByteIndex_noteLast] at hfrom
      have hidx : r.reassembler.nextByteIndex.toNat + (i - r.pushed.length) = i := by
        have hlen : r.reassembler.nextByteIndex.toNat = r.pushed.length := h.next_eq
        omega
      rw [hidx] at hfrom
      exact hfrom.imp_left (h.held_from i b)
  case held_from =>
    intro i b hb
    have hfrom := hs.held_from i b hb
    rw [Reassembler.waiting_noteLast] at hfrom
    exact holds_append_singleton.mpr (hfrom.imp_left (h.held_from i b))

/-- **Step.** In the domain `insert` keeps the invariant and updates the map. -/
theorem ByteMap.insert (h : r.ByteMap) {f : UInt64} {d : Bytes} {last : Bool}
    (hdom : r.InDomain (.insert f d last)) :
    (r.step (.insert f d last)).ByteMap ∧
      (r.step (.insert f d last)).held ∪ Set.Ico r.next (r.step (.insert f d last)).next
        = r.held ∪ r.fitting f d := by
  have hcase := h.insertCase hdom
  show (r.record f d (r.reassembler.insert f d last)).ByteMap ∧
    (r.record f d (r.reassembler.insert f d last)).held
      ∪ Set.Ico r.next (r.record f d (r.reassembler.insert f d last)).next = _
  generalize r.reassembler.insert f d last = r' at hcase
  cases hcase with
  | closed hd _ _ =>
    have hwf := h.wf
    exact h.record_same ⟨hwf.output.close, hwf.separated, hwf.next_lt, hwf.stop_le⟩ rfl rfl rfl
      (by simp [fitting, hd])
  | stored _ _ hs => exact h.record_stored hs
  | discarded _ hout =>
    refine h.record_same (h.wf.noteLast f d last) (by simp) (by simp) (by simp) ?_
    rw [fitting, Set.Ico_inter_Ico, Set.Ico_eq_empty_iff, next, window]
    simp only [not_lt]
    omega

/-- Reading from the stream only makes room. -/
theorem ByteMap.pop (h : r.ByteMap) (len : UInt64) : (r.step (.pop len)).ByteMap := by
  have hpush := (ByteStream.pop_spec h.wf.output len).2.2.2.2.2.1
  have hnext : (r.step (.pop len)).next = r.next :=
    congrArg UInt64.toNat hpush
  exact { h with
    wf := h.wf.pop len
    next_eq := hnext.trans h.next_eq
    accepted_eq := by rw [hnext]; exact h.accepted_eq }

/-- **Step.**  An operation in the domain. -/
theorem ByteMap.step (h : r.ByteMap) (op : ReassemblerOp) (hdom : r.InDomain op) :
    (r.step op).ByteMap := by
  cases op with
  | insert f d last => exact (h.insert hdom).1
  | pop len => exact h.pop len

/-- A run within the domain. -/
theorem byteMap_of {capacity : UInt64} {output : ByteStream}
    (h : ByteStream.new capacity = .ok output) {ops : List ReassemblerOp}
    (hrun : Machine.Meets ReassemblerRun.step InDomain (start output) ops) :
    (Machine.run ReassemblerRun.step (start output) ops).ByteMap := by
  obtain ⟨hwf, -, -, -, -, hpushed, -⟩ := ByteStream.new_spec h
  have hnext : (start output).next = 0 := by
    show output.bytePushed.toNat = 0
    rw [hpushed, UInt64.toNat_zero]
  refine hrun.invariant (fun _ op hm hdom => hm.step op hdom) ?_
  constructor
  case wf => exact .new hwf
  case next_eq => rw [hnext]; rfl
  case accepted_eq =>
    rw [hnext]
    simp [start, held, Reassembler.waiting, Reassembler.new]
  case pushed_from => simp [start]
  case held_from => simp [start, Holds, Reassembler.waiting, Reassembler.new]

/-- The next index is the first one not accepted. -/
theorem ByteMap.isLeast_next (h : r.ByteMap) : IsLeast {i | i ∉ r.accepted} r.next := by
  rw [h.accepted_eq]
  constructor
  · rintro (hlt | hheld)
    · exact lt_irrefl r.next hlt
    · obtain ⟨e, he, hle, -⟩ := mem_covers.mp hheld
      exact absurd (h.wf.next_lt e he) (not_lt.mpr hle)
  · intro i hi
    by_contra hlt
    exact hi (.inl (not_le.mp hlt))

/-- After an insert the next index is the first one missing. -/
theorem ByteMap.next_isLeast {r' : ReassemblerRun} (h : r.ByteMap) (h' : r'.ByteMap)
    (hpushed : r.pushed <+: r'.pushed) {A : Set ℕ}
    (hcovers : r'.held ∪ Set.Ico r.next r'.next = r.held ∪ A) :
    IsLeast {i | r.next ≤ i ∧ i ∉ r.held ∪ A} r'.next := by
  have hle : r.next ≤ r'.next := by
    rw [h.next_eq, h'.next_eq]
    exact hpushed.length_le
  rw [← hcovers]
  constructor
  · refine ⟨hle, ?_⟩
    rintro (hheld | ⟨-, hlt⟩)
    · obtain ⟨e, he, hstart, -⟩ := mem_covers.mp hheld
      exact absurd (h'.wf.next_lt e he) (not_lt.mpr hstart)
    · exact lt_irrefl r'.next hlt
  · rintro i ⟨hge, hi⟩
    by_contra hlt
    exact hi (.inr ⟨hge, not_le.mp hlt⟩)

/-- When every substring supplied is a slice of `S`, what was pushed is a prefix of `S`. -/
theorem ByteMap.pushed_eq_take (h : r.ByteMap) {S : Bytes}
    (hslices : ∀ e ∈ r.inserts, e.2 = (S.drop e.1).take e.2.length) :
    r.pushed = S.take r.next := by
  apply List.ext_getElem?
  intro i
  rw [h.next_eq, List.getElem?_take]
  by_cases hi : i < r.pushed.length
  · rw [if_pos hi, List.getElem?_eq_getElem hi]
    obtain ⟨e, he, hle, hb⟩ := h.pushed_from i _ (List.getElem?_eq_getElem hi)
    rw [hslices e he, List.getElem?_take] at hb
    split at hb
    · rw [List.getElem?_drop, show e.1 + (i - e.1) = i by omega] at hb
      exact hb.symm
    · cases hb
  · rw [if_neg hi, List.getElem?_eq_none (not_lt.mp hi)]

/-- **The reassembler refines a byte map.** -/
theorem insert_refines {capacity : UInt64} {output : ByteStream}
    (h : ByteStream.new capacity = .ok output) {ops : List ReassemblerOp}
    (hrun : Machine.Meets ReassemblerRun.step InDomain (start output) ops)
    {f : UInt64} {d : Bytes} {last : Bool}
    (hdom : (Machine.run ReassemblerRun.step (start output) ops).InDomain (.insert f d last)) :
    InsertRefines (Machine.run ReassemblerRun.step (start output) ops) f d last := by
  have hm := byteMap_of h hrun
  generalize Machine.run ReassemblerRun.step (start output) ops = r at hm hdom
  obtain ⟨hm', hcovers⟩ := hm.insert hdom
  have hleast := hm.next_isLeast hm' (List.prefix_append r.pushed _) hcovers
  constructor
  case held_or_pushed => exact hcovers
  case next_isLeast => exact hleast
  case pending =>
    -- nothing beyond the window is pushed, so the indices stay within 64 bits
    have hle : (r.step (.insert f d last)).next ≤ r.next + r.window := by
      refine hleast.2 ⟨Nat.le_add_right _ _, ?_⟩
      rintro (hheld | ⟨-, -, hlt⟩)
      · obtain ⟨e, he, -, hlt⟩ := mem_covers.mp hheld
        exact absurd (hm.wf.stop_le e he) (not_le.mpr hlt)
      · exact lt_irrefl (r.next + r.window) hlt
    have hwin := hm.window_le
    have hwin' := hm'.window_le
    have hcap := hm'.wf.output.capacity_le
    have hroom := hdom.2.1
    rw [maxSize] at hcap
    apply Reassembler.toNat_countBytesPending hm'.wf
    show (r.step (.insert f d last)).next + (r.step (.insert f d last)).window < 2 ^ 64
    omega
  case pushed_from => exact hm'.pushed_from
  case held_from => exact hm'.held_from
  case slices => exact fun S hslices => ⟨hm'.pushed_eq_take hslices, hm'.isLeast_next⟩

/-- A substring that fills a gap. -/
theorem insert_refines_gap :
    InsertRefines (Machine.run ReassemblerRun.step (start (.empty 8))
      [.insert 0 [1, 2] false, .insert 4 [5, 6] false, .pop 1]) 1 [7, 3, 4, 9] true := by
  have hrun : Machine.Meets ReassemblerRun.step InDomain (start (.empty 8))
      [.insert 0 [1, 2] false, .insert 4 [5, 6] false, .pop 1] :=
    ⟨⟨rfl, by decide, by decide⟩, ⟨rfl, by decide, by decide⟩, trivial, trivial⟩
  exact insert_refines (ByteStream.new_eq_ok (by decide)) hrun ⟨rfl, by decide, by decide⟩

end ReassemblerRun

end Minnow
