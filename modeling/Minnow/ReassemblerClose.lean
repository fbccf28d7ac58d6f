import Minnow.ReassemblerSlices
import Minnow.ReassemblerByteMap

namespace Minnow

/-!
# When the reassembler closes its output

Fed with slices of one string `S`, with the last ones marked as such, the reassembler should
close its output when it knows the end of `S` and has written all of it, whatever the order of
arrival.

`insert` makes the check in two places: when an empty last substring arrives at the next index,
and when something has been written.  A last substring that carries bytes and arrives after all
of `S` has been written passes by both, and the output stays open
(`close_missed_on_duplicate`).  `closed_iff_complete` — without such an insert the output is
closed exactly when it should be, in every order.
-/

open IntervalMap

/-- A reassembler with its history. -/
structure ClosingRun where
  reassembler : Reassembler
  /-- the substrings inserted, with their indices -/
  inserts : List (ℕ × Bytes) := []
  /-- whether one of them was marked as the last -/
  lastSeen : Bool := false

namespace ClosingRun

/-- Operations, with a note of what was inserted and whether a last substring was among it. -/
def step (r : ClosingRun) : ReassemblerOp → ClosingRun
  | .insert f d last =>
    { reassembler := r.reassembler.insert f d last
      inserts := r.inserts ++ [(f.toNat, d)]
      lastSeen := r.lastSeen || last }
  | .pop len =>
    { r with reassembler := { r.reassembler with output := r.reassembler.output.pop len } }

/-- A reassembler fresh from its constructor. -/
def start (output : ByteStream) : ClosingRun := { reassembler := .new output }

/-- The index of the next byte. -/
def next (r : ClosingRun) : ℕ := r.reassembler.nextByteIndex.toNat

/-- Has the output been closed? -/
def closed (r : ClosingRun) : Bool := r.reassembler.output.isClosed

/-- An insert that is consistent with the string `S`. -/
def Consistent (S : Bytes) : ReassemblerOp → Prop
  | .insert f d last => f.toNat + d.length ≤ S.length ∧ d = (S.drop f.toNat).take d.length ∧
      (last = true → f.toNat + d.length = S.length)
  | .pop _ => True

/-- The condition on an insert: it is not a last substring with bytes in it that arrives when all
    of `S` was written and the output is still open. -/
def CloseChecked (S : Bytes) (r : ClosingRun) : ReassemblerOp → Prop
  | .insert _ d last => ¬ (last = true ∧ d ≠ [] ∧ r.next = S.length ∧ r.closed = false)
  | .pop _ => True

/-- The substring of an insert fits in the window when it arrives. -/
def Fits (r : ClosingRun) : ReassemblerOp → Prop
  | .insert f d _ => f.toNat + d.length ≤ r.next + r.reassembler.availableCapacity.toNat
  | .pop _ => True

/-- The invariant: the output is closed exactly when it should be. -/
structure Closing (S : Bytes) (r : ClosingRun) : Prop where
  slices : r.reassembler.Slices S r.lastSeen
  expected : r.closed = false → r.lastSeen = true →
    r.reassembler.lastByte = UInt64.ofNat S.length - 1
  closed_iff : r.closed = true ↔ r.lastSeen = true ∧ r.next = S.length

variable {S : Bytes} {r : ClosingRun}

/-- A consistent substring is a slice. -/
theorem Consistent.isSlice {f : UInt64} {d : Bytes} {last : Bool}
    (h : Consistent S (.insert f d last)) : IsSlice S f.toNat d := by
  have heq := h.2.1
  rintro i b ⟨hstart, hb⟩
  dsimp only at hstart hb
  rw [heq, List.getElem?_take] at hb
  split at hb
  · rw [List.getElem?_drop, show f.toNat + (i - f.toNat) = i by omega] at hb
    exact hb
  · cases hb

/-- What a consistent insert does. -/
theorem Closing.extends (h : r.Closing S) (hS : S.length ≤ maxSize) {f : UInt64} {d : Bytes}
    {last : Bool} (hc : Consistent S (.insert f d last)) :
    ∃ written, Reassembler.Extends S (r.lastSeen || last) r.reassembler f d last
      (r.reassembler.insert f d last) written := by
  have hknown : r.reassembler.Slices S (r.lastSeen || last) := by
    cases last with
    | false => simpa using h.slices
    | true => simpa using h.slices.known
  exact hknown.insert hS hc.isSlice (fun hl => ⟨by simp [hl], hc.2.2 hl⟩)

/-- While the output is open, the end expected is the end of `S` as soon as a last substring was
    seen, unless that one closed the output at once. -/
theorem Closing.expects (h : r.Closing S) {f : UInt64} {d : Bytes} {last : Bool}
    (hc : Consistent S (.insert f d last)) (hopen : r.closed = false)
    (hseen : (r.lastSeen || last) = true) :
    (r.reassembler.noteLast f d last).lastByte = UInt64.ofNat S.length - 1 := by
  cases last with
  | true =>
    show f + Reassembler.length d - 1 = UInt64.ofNat S.length - 1
    rw [← hc.2.2 rfl, UInt64.ofNat_add, UInt64.ofNat_toNat]
    rfl
  | false => exact h.expected hopen (by simpa using hseen)

/-- **Step.** A consistent insert that meets the condition keeps the invariant. -/
theorem Closing.insert (h : r.Closing S) (hS : S.length ≤ maxSize) {f : UInt64} {d : Bytes}
    {last : Bool} (hc : Consistent S (.insert f d last))
    (hcheck : r.CloseChecked S (.insert f d last)) : (r.step (.insert f d last)).Closing S := by
  obtain ⟨written, he⟩ := h.extends hS hc
  have hnext : (r.step (.insert f d last)).next = r.next + written.length := he.next_eq
  have hmono : r.closed = true → (r.step (.insert f d last)).closed = true :=
    fun hclosed => he.eof_iff.mpr (.inl hclosed)
  have hopen_of : (r.step (.insert f d last)).closed = false → r.closed = false := by
    intro hopen
    by_contra hclosed
    rw [hmono (by simpa using hclosed)] at hopen
    cases hopen
  constructor
  case slices => exact he.slices
  case expected =>
    intro hopen hseen
    rcases he.lastByte_eq with hnoted | hempty
    · exact hnoted.trans (h.expects hc (hopen_of hopen) hseen)
    · have hclosed : (r.step (.insert f d last)).closed = true :=
        he.eof_iff.mpr (.inr (.inl hempty))
      rw [hclosed] at hopen
      cases hopen
  case closed_iff =>
    refine ⟨fun hclosed => he.slices.eof hclosed, ?_⟩
    rintro ⟨hseen, hfull⟩
    by_cases hclosed : r.closed = true
    · exact hmono hclosed
    have hopen : r.closed = false := by simpa using hclosed
    refine he.eof_iff.mpr (.inr ?_)
    by_cases hnil : written = []
    · -- all of `S` was written before: this is the first last substring, and it is empty
      left
      rw [hnil, List.length_nil, add_zero] at hnext
      have hfull' : r.next = S.length := hnext.symm.trans hfull
      have hfirst : r.lastSeen = false := by
        by_contra hne
        exact hclosed (h.closed_iff.mpr ⟨by simpa using hne, hfull'⟩)
      have hlast : last = true := by
        have hseen' : (r.lastSeen || last) = true := hseen
        simpa [hfirst] using hseen'
      have hd : d = [] := by
        by_contra hne
        exact hcheck ⟨hlast, hne, hfull', hopen⟩
      have hend := hc.2.2 hlast
      refine ⟨hd, hlast, ?_⟩
      rw [← UInt64.toNat_inj]
      rw [hd, List.length_nil, add_zero] at hend
      exact hend.trans hfull'.symm
    · right
      refine ⟨hnil, hfull, ?_⟩
      rcases he.lastByte_eq with hnoted | ⟨hd, hlast, hf⟩
      · exact hnoted.trans (h.expects hc hopen hseen)
      · -- an empty last substring at the next index leaves nothing to be written
        have hend := hc.2.2 hlast
        rw [hd, List.length_nil, add_zero, hf] at hend
        have hpos := List.length_pos_iff_ne_nil.mpr hnil
        have hbefore : r.next = S.length := hend
        omega

/-- **Step.**  An operation that meets the condition. -/
theorem Closing.step (h : r.Closing S) (hS : S.length ≤ maxSize) (op : ReassemblerOp)
    (hc : Consistent S op) (hcheck : r.CloseChecked S op) : (r.step op).Closing S := by
  cases op with
  | insert f d last => exact h.insert hS hc hcheck
  | pop len =>
    obtain ⟨-, -, -, heof, -, hpush, -⟩ := ByteStream.pop_spec h.slices.wf.output len
    have hclosed : (r.step (.pop len)).closed = r.closed := heof
    have hnext : (r.step (.pop len)).next = r.next := congrArg UInt64.toNat hpush
    refine ⟨h.slices.pop len, ?_, ?_⟩
    · rw [hclosed]
      exact h.expected
    · rw [hclosed, hnext]
      exact h.closed_iff

/-- Nothing was inserted. -/
theorem Closing.start {capacity : UInt64} {output : ByteStream}
    (h : ByteStream.new capacity = .ok output) (S : Bytes) : (start output).Closing S := by
  have hslices : (Reassembler.new output).Slices S false :=
    (Reassembler.Slices.new h false).append S false
  have hopen : (ClosingRun.start output).closed = false := by
    obtain ⟨-, -, -, heof, -⟩ := ByteStream.new_spec h
    exact heof
  constructor
  case slices => exact hslices
  case expected =>
    intro _ hseen
    cases hseen
  case closed_iff =>
    rw [hopen]
    simp [ClosingRun.start]

/-- The inserts of a run that are consistent with `S` and meet the condition. -/
def Checked (S : Bytes) (r : ClosingRun) (op : ReassemblerOp) : Prop :=
  Consistent S op ∧ r.CloseChecked S op

/-- **Run.**  Operations that all meet the condition. -/
theorem closing_of {capacity : UInt64} {output : ByteStream}
    (h : ByteStream.new capacity = .ok output) (hS : S.length ≤ maxSize)
    {ops : List ReassemblerOp}
    (hrun : Machine.Meets ClosingRun.step (Checked S) (start output) ops) :
    (Machine.run ClosingRun.step (start output) ops).Closing S :=
  hrun.invariant (fun _ op hc hop => hc.step hS op hop.1 hop.2) (.start h S)

/-! ### The order of the inserts -/

/-- When everything fits, the indices pushed or held are those of the inserts. -/
structure Complete (S : Bytes) (r : ClosingRun) : Prop extends Closing S r where
  covered : Set.Iio r.next ∪ covers r.reassembler.waiting = covers r.inserts

/-- **Step.**  A substring that fits is held or pushed as a whole. -/
theorem Complete.step (h : r.Complete S) (hS : S.length ≤ maxSize) (op : ReassemblerOp)
    (hc : Consistent S op) (hcheck : r.CloseChecked S op) (hfits : r.Fits op) :
    (r.step op).Complete S := by
  refine ⟨h.toClosing.step hS op hc hcheck, ?_⟩
  have hcovered := h.covered
  cases op with
  | insert f d last =>
    obtain ⟨written, he⟩ := h.extends hS hc
    have hnext : (r.step (.insert f d last)).next = r.next + written.length := he.next_eq
    have hcovers : covers (r.step (.insert f d last)).reassembler.waiting
        ∪ Set.Ico r.next (r.next + written.length) = covers r.reassembler.waiting
          ∪ (Set.Ico f.toNat (f.toNat + d.length)
            ∩ Set.Ico r.next (r.next + r.reassembler.availableCapacity.toNat)) := he.covers_eq
    have hinserts : covers (r.step (.insert f d last)).inserts
        = covers r.inserts ∪ Set.Ico f.toNat (f.toNat + d.length) := by
      ext i
      show (∃ b, Holds (r.inserts ++ [(f.toNat, d)]) i b) ↔ _
      simp only [ReassemblerRun.holds_append_singleton, exists_or, exists_at_iff]
      rfl
    -- the whole substring is in the window, so that all of it is written or held
    have hwindow : f.toNat + d.length
        ≤ r.next + r.reassembler.availableCapacity.toNat := hfits
    rw [hinserts, ← hcovered, hnext]
    ext i
    have hi := Set.ext_iff.mp hcovers i
    simp only [Set.mem_union, Set.mem_Iio, Set.mem_Ico, Set.mem_inter_iff] at hi ⊢
    by_cases hheld : i ∈ covers r.reassembler.waiting <;>
      by_cases hheld' : i ∈ covers (r.step (.insert f d last)).reassembler.waiting <;>
      simp only [hheld, hheld', true_or, or_true, false_or, or_false, true_iff, iff_true]
        at hi ⊢ <;> omega
  | pop len =>
    have hpush := (ByteStream.pop_spec h.slices.wf.output len).2.2.2.2.2.1
    have hnext : (r.step (.pop len)).next = r.next := congrArg UInt64.toNat hpush
    rw [hnext]
    exact hcovered

/-- Nothing was inserted. -/
theorem Complete.start {capacity : UInt64} {output : ByteStream}
    (h : ByteStream.new capacity = .ok output) (S : Bytes) : (start output).Complete S := by
  refine ⟨.start h S, ?_⟩
  have hpushed : output.bytePushed = 0 := (ByteStream.new_spec h).2.2.2.2.2.1
  have hnext : (ClosingRun.start output).next = 0 := by
    show output.bytePushed.toNat = 0
    rw [hpushed, UInt64.toNat_zero]
  rw [hnext]
  simp [ClosingRun.start, Reassembler.waiting, Reassembler.new]

/-- The next index is the first one that no insert brought. -/
theorem Complete.isLeast_next (h : r.Complete S) : IsLeast {i | i ∉ covers r.inserts} r.next := by
  rw [← h.covered]
  constructor
  · rintro (hlt | hheld)
    · exact lt_irrefl r.next hlt
    · obtain ⟨e, he, hle, -⟩ := mem_covers.mp hheld
      exact absurd (h.slices.wf.next_lt e he) (not_lt.mpr hle)
  · intro i hi
    by_contra hlt
    exact hi (.inl (not_le.mp hlt))

/-- The substring that an operation inserts, with its index and its mark. -/
def substring : ReassemblerOp → Option (UInt64 × Bytes × Bool)
  | .insert f d last => some (f, d, last)
  | .pop _ => none

/-- The inserts of a run are its substrings, in order. -/
theorem inserts_run (r : ClosingRun) (ops : List ReassemblerOp) :
    (Machine.run ClosingRun.step r ops).inserts
      = r.inserts ++ (ops.filterMap substring).map fun x => (x.1.toNat, x.2.1) := by
  induction ops generalizing r with
  | nil => simp
  | cons op ops ih =>
    rw [Machine.run_cons, ih]
    cases op <;> simp [ClosingRun.step, substring, List.filterMap_cons]

/-- A last substring has been seen if there is one among the operations. -/
theorem lastSeen_run (r : ClosingRun) (ops : List ReassemblerOp) :
    (Machine.run ClosingRun.step r ops).lastSeen
      = (r.lastSeen || (ops.filterMap substring).any fun x => x.2.2) := by
  induction ops generalizing r with
  | nil => simp
  | cons op ops ih =>
    rw [Machine.run_cons, ih]
    cases op <;> simp [ClosingRun.step, substring, List.filterMap_cons, Bool.or_assoc]

/-- The order of substrings has no part in the indices they cover. -/
theorem covers_perm {l l' : List (ℕ × Bytes)} (h : l.Perm l') : covers l = covers l' := by
  ext i
  simp only [mem_covers, h.mem_iff]

/-- The steps of a run in which every substring fits. -/
def CheckedFits (S : Bytes) (r : ClosingRun) (op : ReassemblerOp) : Prop :=
  Checked S r op ∧ r.Fits op

/-- **Run.**  Substrings that all fit and meet the condition. -/
theorem complete_of {capacity : UInt64} {output : ByteStream}
    (h : ByteStream.new capacity = .ok output) (hS : S.length ≤ maxSize)
    {ops : List ReassemblerOp}
    (hrun : Machine.Meets ClosingRun.step (CheckedFits S) (start output) ops) :
    (Machine.run ClosingRun.step (start output) ops).Complete S :=
  hrun.invariant (fun _ op hc hop => hc.step hS op hop.1.1 hop.1.2 hop.2) (.start h S)

/-- **Order.** When all substrings fit, the order of the inserts does not matter. -/
theorem closed_perm {capacity : UInt64} {output : ByteStream}
    (h : ByteStream.new capacity = .ok output) (hS : S.length ≤ maxSize)
    {ops ops' : List ReassemblerOp}
    (hrun : Machine.Meets ClosingRun.step (CheckedFits S) (start output) ops)
    (hrun' : Machine.Meets ClosingRun.step (CheckedFits S) (start output) ops')
    (hperm : (ops.filterMap substring).Perm (ops'.filterMap substring)) :
    (Machine.run ClosingRun.step (start output) ops).closed
      = (Machine.run ClosingRun.step (start output) ops').closed := by
  have hc := complete_of h hS hrun
  have hc' := complete_of h hS hrun'
  have hnext : (Machine.run ClosingRun.step (start output) ops).next
      = (Machine.run ClosingRun.step (start output) ops').next := by
    apply hc.isLeast_next.unique
    rw [inserts_run, covers_perm ((hperm.map _).append_left _), ← inserts_run]
    exact hc'.isLeast_next
  have hseen : (Machine.run ClosingRun.step (start output) ops).lastSeen
      = (Machine.run ClosingRun.step (start output) ops').lastSeen := by
    rw [lastSeen_run, lastSeen_run, hperm.any_eq]
  rw [Bool.eq_iff_iff, hc.closed_iff, hc'.closed_iff, hnext, hseen]

/-! ### When the close check is passed by -/

/-- The output is closed exactly when a last substring was seen and all of `S` was written. -/
def ClosedOnTime (S : Bytes) (r : ClosingRun) : Prop :=
  r.closed = true ↔ r.lastSeen = true ∧ r.next = S.length

/-- An insert that fails the condition leaves the output open. -/
theorem Closing.not_closedOnTime (h : r.Closing S) (hS : S.length ≤ maxSize) {f : UInt64}
    {d : Bytes} {last : Bool} (hc : Consistent S (.insert f d last))
    (hmissed : ¬ r.CloseChecked S (.insert f d last)) :
    ¬ ClosedOnTime S (r.step (.insert f d last)) := by
  obtain ⟨hlast, hd, hfull, hopen⟩ := not_not.mp hmissed
  obtain ⟨written, he⟩ := h.extends hS hc
  have hnext : (r.step (.insert f d last)).next = r.next + written.length := he.next_eq
  have hle : (r.step (.insert f d last)).next ≤ S.length := he.slices.next_le
  have hnil : written = [] := List.eq_nil_of_length_eq_zero (by omega)
  have hseen : (r.step (.insert f d last)).lastSeen = true := by
    show (r.lastSeen || last) = true
    rw [hlast, Bool.or_true]
  have hnext' : (r.step (.insert f d last)).next = S.length := by
    rw [hnext, hnil, List.length_nil, add_zero, hfull]
  intro hontime
  rcases he.eof_iff.mp (hontime.mpr ⟨hseen, hnext'⟩) with hclosed | ⟨hempty, -⟩ | ⟨hne, -⟩
  · rw [ClosingRun.closed] at hopen
    rw [show r.reassembler.output.isClosed = true from hclosed] at hopen
    cases hopen
  · exact hd hempty
  · exact hne hnil

/-- **Closing.**  In a run of inserts consistent with `S` of which none is a last substring with
    bytes that arrives when all of `S` was written, the output is closed exactly when it should
    be; the next insert keeps it so exactly when it meets the condition, too; and the order of
    inserts that fit does not matter. -/
theorem closed_iff_complete {capacity : UInt64} {output : ByteStream}
    (h : ByteStream.new capacity = .ok output) (hS : S.length ≤ maxSize)
    {ops : List ReassemblerOp}
    (hrun : Machine.Meets ClosingRun.step (Checked S) (start output) ops) :
    ClosedOnTime S (Machine.run ClosingRun.step (start output) ops) ∧
      (∀ op, Consistent S op →
        (ClosedOnTime S (Machine.run ClosingRun.step (start output) (ops ++ [op])) ↔
          (Machine.run ClosingRun.step (start output) ops).CloseChecked S op)) ∧
      ∀ ops', (ops.filterMap substring).Perm (ops'.filterMap substring) →
        Machine.Meets ClosingRun.step Fits (start output) ops →
        Machine.Meets ClosingRun.step (CheckedFits S) (start output) ops' →
        (Machine.run ClosingRun.step (start output) ops).closed
          = (Machine.run ClosingRun.step (start output) ops').closed := by
  have hclosing := closing_of h hS hrun
  refine ⟨hclosing.closed_iff, ?_, ?_⟩
  · intro op hop
    rw [Machine.run_concat]
    refine ⟨fun hontime => ?_, fun hcheck => (hclosing.step hS op hop hcheck).closed_iff⟩
    cases op with
    | insert f d last =>
      by_contra hmissed
      exact hclosing.not_closedOnTime hS hop hmissed hontime
    | pop len => trivial
  · intro ops' hperm hfits hrun'
    exact closed_perm h hS (hrun.and hfits) hrun' hperm

/-- Two substrings in either order. -/
theorem closed_iff_complete_swapped :
    ClosedOnTime [1, 2, 3] (Machine.run ClosingRun.step (start (.empty 4))
        [.insert 1 [2, 3] true, .insert 0 [1] false]) ∧
      (Machine.run ClosingRun.step (start (.empty 4))
        [.insert 1 [2, 3] true, .insert 0 [1] false]).closed
        = (Machine.run ClosingRun.step (start (.empty 4))
          [.insert 0 [1] false, .insert 1 [2, 3] true]).closed := by
  have hnew : ByteStream.new 4 = .ok (.empty 4) := ByteStream.new_eq_ok (by decide)
  have hrun : Machine.Meets ClosingRun.step (Checked [1, 2, 3]) (start (.empty 4))
      [.insert 1 [2, 3] true, .insert 0 [1] false] :=
    ⟨⟨⟨by decide, by decide, by decide⟩, by unfold CloseChecked; decide⟩,
      ⟨⟨by decide, by decide, by decide⟩, by unfold CloseChecked; decide⟩, trivial⟩
  have hfits : Machine.Meets ClosingRun.step Fits (start (.empty 4))
      [.insert 1 [2, 3] true, .insert 0 [1] false] :=
    ⟨by unfold Fits; decide, by unfold Fits; decide, trivial⟩
  have hrun' : Machine.Meets ClosingRun.step (CheckedFits [1, 2, 3]) (start (.empty 4))
      [.insert 0 [1] false, .insert 1 [2, 3] true] :=
    ⟨⟨⟨⟨by decide, by decide, by decide⟩, by unfold CloseChecked; decide⟩, by unfold Fits; decide⟩,
      ⟨⟨⟨by decide, by decide, by decide⟩, by unfold CloseChecked; decide⟩,
        by unfold Fits; decide⟩, trivial⟩
  have hall := closed_iff_complete hnew (by decide) hrun
  exact ⟨hall.1, hall.2.2 _ (List.Perm.swap _ _ _) hfits hrun'⟩

/-- The string arrives first without and then with the mark of the last substring. -/
theorem close_missed_on_duplicate :
    Machine.Meets ClosingRun.step (fun _ op => Consistent [1, 2, 3] op) (start (.empty 4))
        [.insert 0 [1, 2, 3] false, .insert 0 [1, 2, 3] true] ∧
      ¬ ClosedOnTime [1, 2, 3] (Machine.run ClosingRun.step (start (.empty 4))
        [.insert 0 [1, 2, 3] false, .insert 0 [1, 2, 3] true]) := by
  refine ⟨⟨⟨by decide, by decide, by decide⟩, ⟨by decide, by decide, by decide⟩, trivial⟩, ?_⟩
  unfold ClosedOnTime
  decide

end ClosingRun

end Minnow
