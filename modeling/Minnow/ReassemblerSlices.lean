import Minnow.Reassembler

namespace Minnow

/-!
# Reassembling one string

When all substrings are slices of one string, the reassembler holds and writes slices of it, and
closes its output only at the end of it.

The string may still be growing, as the outbound stream of a peer does, until its end is known.
`Slices S known r` is the invariant; `Slices.insert` is the step.
-/

open IntervalMap

/-- The substring `d` at `f` is a slice of `S`; an empty one is, wherever it lies. -/
def IsSlice (S : Bytes) (f : ℕ) (d : Bytes) : Prop :=
  ∀ i b, At (f, d) i b → S[i]? = some b

theorem isSlice_nil (S : Bytes) (f : ℕ) : IsSlice S f [] := by
  rintro i b ⟨-, hb⟩
  cases hb

theorem IsSlice.le {S : Bytes} {f : ℕ} {d : Bytes} (h : IsSlice S f d) (hne : d ≠ []) :
    f + d.length ≤ S.length := by
  have hpos := List.length_pos_iff_ne_nil.mpr hne
  have hlt : d.length - 1 < d.length := by omega
  have hat : At (f, d) (f + (d.length - 1)) d[d.length - 1] := by
    refine ⟨Nat.le_add_right _ _, ?_⟩
    show d[f + (d.length - 1) - f]? = _
    rw [Nat.add_sub_cancel_left, List.getElem?_eq_getElem hlt]
  obtain ⟨hbound, -⟩ := List.getElem?_eq_some_iff.mp (h _ _ hat)
  omega

namespace Reassembler

/-- The reassembler holds slices of `S`; its output is closed only at the end of `S`, and it
    expects this end only if it is known. -/
structure Slices (S : Bytes) (known : Bool) (r : Reassembler) : Prop where
  wf : r.WF
  next_le : r.nextByteIndex.toNat ≤ S.length
  held : ∀ i b, Holds r.waiting i b → S[i]? = some b
  lastByte_cases : r.lastByte = 0xFFFFFFFFFFFFFFFF ∨
    known = true ∧ r.lastByte = UInt64.ofNat S.length - 1
  eof : r.output.eof = true → known = true ∧ r.nextByteIndex.toNat = S.length

/-- A fresh reassembler holds nothing. -/
theorem Slices.new {capacity : UInt64} {output : ByteStream}
    (h : ByteStream.new capacity = .ok output) (known : Bool) :
    (new output).Slices [] known := by
  obtain ⟨hwf, -, -, heof, -, hpushed, -⟩ := ByteStream.new_spec h
  refine ⟨.new hwf, ?_, ?_, .inl rfl, ?_⟩
  · show output.bytePushed.toNat ≤ 0
    rw [hpushed, UInt64.toNat_zero]
  · simp [Holds, waiting, Reassembler.new]
  · intro htrue
    rw [show (Reassembler.new output).output.eof = output.eof from rfl, heof] at htrue
    cases htrue

/-- The string grows while its end is not known. -/
theorem Slices.append {S : Bytes} {r : Reassembler} (h : r.Slices S false) (T : Bytes)
    (known : Bool) : r.Slices (S ++ T) known := by
  refine ⟨h.wf, ?_, ?_, ?_, ?_⟩
  · rw [List.length_append]
    exact Nat.le_add_right_of_le h.next_le
  · intro i b hb
    have hS := h.held i b hb
    obtain ⟨hlt, -⟩ := List.getElem?_eq_some_iff.mp hS
    rw [List.getElem?_append_left hlt, hS]
  · rcases h.lastByte_cases with hmax | ⟨hfalse, -⟩
    · exact .inl hmax
    · cases hfalse
  · intro heof
    cases (h.eof heof).1

/-- The end of the string becomes known. -/
theorem Slices.known {S : Bytes} {known : Bool} {r : Reassembler} (h : r.Slices S known) :
    r.Slices S true :=
  { h with
    lastByte_cases := h.lastByte_cases.imp_right fun hlast => ⟨rfl, hlast.2⟩
    eof := fun heof => ⟨rfl, (h.eof heof).2⟩ }

/-- The reader takes bytes off the output. -/
theorem Slices.pop {S : Bytes} {known : Bool} {r : Reassembler} (h : r.Slices S known)
    (len : UInt64) :
    ({ r with output := r.output.pop len } : Reassembler).Slices S known := by
  obtain ⟨-, -, -, heof, -, hpush, -⟩ := ByteStream.pop_spec h.wf.output len
  have hnext : ({ r with output := r.output.pop len } : Reassembler).nextByteIndex
      = r.nextByteIndex := hpush
  refine ⟨h.wf.pop len, ?_, h.held, h.lastByte_cases, ?_⟩
  · rw [hnext]
    exact h.next_le
  · intro htrue
    rw [hnext]
    exact h.eof (heof ▸ htrue)

/-- What `insert` does with a slice: it writes a slice that continues the output, and closes the
    output when the end of the string is reached. -/
structure Extends (S : Bytes) (known : Bool) (r : Reassembler) (f : UInt64) (d : Bytes)
    (last : Bool) (r' : Reassembler) (written : Bytes) : Prop where
  slices : r'.Slices S known
  contents_eq : r'.output.contents = r.output.contents ++ written
  next_eq : r'.nextByteIndex.toNat = r.nextByteIndex.toNat + written.length
  written_eq : ∀ i b, written[i]? = some b → S[r.nextByteIndex.toNat + i]? = some b
  popped_eq : r'.output.bytePopped = r.output.bytePopped
  error_eq : r'.output.error = r.output.error
  capacity_eq : r'.output.capacity = r.output.capacity
  covers_eq : covers r'.waiting
      ∪ Set.Ico r.nextByteIndex.toNat (r.nextByteIndex.toNat + written.length)
    = covers r.waiting ∪ (Set.Ico f.toNat (f.toNat + d.length)
      ∩ Set.Ico r.nextByteIndex.toNat (r.nextByteIndex.toNat + r.availableCapacity.toNat))
  eof_iff : r'.output.eof = true ↔ r.output.eof = true ∨
    d = [] ∧ last = true ∧ f = r.nextByteIndex ∨
    written ≠ [] ∧ r'.nextByteIndex.toNat = S.length ∧ r'.lastByte = UInt64.ofNat S.length - 1
  lastByte_eq : r'.lastByte = (r.noteLast f d last).lastByte ∨
    d = [] ∧ last = true ∧ f = r.nextByteIndex

variable {S : Bytes} {known : Bool} {r : Reassembler} {f : UInt64} {d : Bytes} {last : Bool}

/-- The last substring announces the end of the string. -/
theorem Slices.noteLast (h : r.Slices S known)
    (hlast : last = true → known = true ∧ f.toNat + d.length = S.length) :
    (r.noteLast f d last).Slices S known := by
  refine ⟨h.wf.noteLast f d last, by simpa using h.next_le, by simpa using h.held, ?_,
    by simpa using h.eof⟩
  cases last with
  | false => exact h.lastByte_cases
  | true =>
    obtain ⟨hknown, hend⟩ := hlast rfl
    refine .inr ⟨hknown, ?_⟩
    show f + length d - 1 = UInt64.ofNat S.length - 1
    rw [← hend, UInt64.ofNat_add, UInt64.ofNat_toNat]
    rfl

/-- Something is written iff the substring reaches the next index and there is room. -/
theorem Stored.written_ne_nil_iff {r' : Reassembler} {written : Bytes}
    (hs : Stored r f.toNat d r' written) (h : r.WF)
    (hend : r.nextByteIndex.toNat < f.toNat + d.length) :
    written ≠ [] ↔ f.toNat ≤ r.nextByteIndex.toNat ∧ 0 < r.availableCapacity.toNat := by
  have hcovers := Set.ext_iff.mp hs.covers_eq r.nextByteIndex.toNat
  have hheld : r.nextByteIndex.toNat ∉ covers r.waiting := by
    intro hmem
    obtain ⟨e, he, hle, -⟩ := mem_covers.mp hmem
    exact absurd (h.next_lt e he) (not_lt.mpr hle)
  have hheld' : r.nextByteIndex.toNat ∉ covers r'.waiting := by
    intro hmem
    obtain ⟨e, he, hle, -⟩ := mem_covers.mp hmem
    have := hs.wf.next_lt e he
    rw [hs.next_eq] at this
    omega
  simp only [Set.mem_union, hheld, hheld', false_or, Set.mem_inter_iff, Set.mem_Ico] at hcovers
  rw [← List.length_pos_iff_ne_nil]
  omega

section

variable {r' : Reassembler} {written : Bytes}

/-- What is written is a slice that continues the output. -/
theorem Slices.stored_written (h : r.Slices S known) (hslice : IsSlice S f.toNat d)
    (hs : Stored (r.noteLast f d last) f.toNat d r' written) :
    (∀ i b, written[i]? = some b → S[r.nextByteIndex.toNat + i]? = some b) ∧
      r'.nextByteIndex.toNat ≤ S.length := by
  obtain ⟨-, -, hnext, -, -, -, -, -, hfrom, -, -, -⟩ := hs
  simp only [nextByteIndex_noteLast, waiting_noteLast] at hnext hfrom
  have hwritten : ∀ i b, written[i]? = some b → S[r.nextByteIndex.toNat + i]? = some b :=
    fun i b hb => (hfrom i b hb).elim (h.held _ b) (hslice _ b)
  refine ⟨hwritten, ?_⟩
  rw [hnext]
  rcases Nat.eq_zero_or_pos written.length with hzero | hpos
  · rw [hzero]
    exact h.next_le
  · have hlt : written.length - 1 < written.length := by omega
    have hb := hwritten _ _ (List.getElem?_eq_getElem hlt)
    obtain ⟨hbound, -⟩ := List.getElem?_eq_some_iff.mp hb
    omega

/-- The output is closed when the last byte expected has been written. -/
theorem Slices.stored_eof_iff (h : r.Slices S known) (hS : S.length < 2 ^ 64)
    (hslice : IsSlice S f.toNat d)
    (hf : f.toNat < r.nextByteIndex.toNat + r.availableCapacity.toNat)
    (hend : r.nextByteIndex.toNat < f.toNat + d.length)
    (hlast : last = true → known = true ∧ f.toNat + d.length = S.length)
    (hs : Stored (r.noteLast f d last) f.toNat d r' written) :
    r'.output.eof = true ↔ r.output.eof = true ∨ written ≠ [] ∧
      r'.nextByteIndex.toNat = S.length ∧ r'.lastByte = UInt64.ofNat S.length - 1 := by
  have hnoted := h.noteLast hlast
  have hwritten := hs.written_ne_nil_iff hnoted.wf (by simpa using hend)
  obtain ⟨-, -, hnext, -, -, -, -, hlb, -, -, -, heof⟩ := hs
  simp only [output_noteLast, nextByteIndex_noteLast, availableCapacity_noteLast] at *
  have hSlen : (UInt64.ofNat S.length).toNat = S.length := toNat_ofNat_of_lt hS
  rw [heof, hwritten, hlb]
  apply or_congr_right
  constructor
  · rintro ⟨hfn, hlastByte⟩
    rcases hnoted.lastByte_cases with hmax | ⟨-, hexp⟩
    · -- no end is expected yet
      rw [hmax] at hlastByte
      have hzero : r'.nextByteIndex = 0 := by
        have hsub := congrArg (· + 1) hlastByte
        simpa using hsub
      rw [← UInt64.toNat_inj, UInt64.toNat_zero, hnext] at hzero
      have hne : written ≠ [] := hwritten.mpr (by omega)
      have := List.length_pos_iff_ne_nil.mpr hne
      omega
    · rw [hexp] at hlastByte ⊢
      have heq : r'.nextByteIndex = UInt64.ofNat S.length := by
        have hsub := congrArg (· + 1) hlastByte
        simpa using hsub
      have hfull : r'.nextByteIndex.toNat = S.length := by rw [heq, hSlen]
      have hbound := hslice.le (List.ne_nil_of_length_pos (by omega))
      refine ⟨hwritten.mp ?_, hfull, rfl⟩
      rw [← List.length_pos_iff_ne_nil]
      omega
  · rintro ⟨⟨hfn, -⟩, hfull, hexp⟩
    refine ⟨hfn, ?_⟩
    rw [hexp, ← hfull, UInt64.ofNat_toNat]

/-- A slice that is stored. -/
theorem Slices.stored (h : r.Slices S known) (hS : S.length < 2 ^ 64)
    (hslice : IsSlice S f.toNat d)
    (hf : f.toNat < r.nextByteIndex.toNat + r.availableCapacity.toNat)
    (hend : r.nextByteIndex.toNat < f.toNat + d.length)
    (hlast : last = true → known = true ∧ f.toNat + d.length = S.length)
    (hs : Stored (r.noteLast f d last) f.toNat d r' written) :
    Extends S known r f d last r' written := by
  have hnoted := h.noteLast hlast
  have hwritten := hs.written_ne_nil_iff hnoted.wf (by simpa using hend)
  obtain ⟨hwritten_eq, hle⟩ := h.stored_written hslice hs
  have hclose := h.stored_eof_iff hS hslice hf hend hlast hs
  obtain ⟨hwf, hcont, hnext, -, herr, hcap, hpop, hlb, -, hheld, hcovers, -⟩ := hs
  simp only [output_noteLast, nextByteIndex_noteLast, waiting_noteLast,
    availableCapacity_noteLast] at *
  have hSlen : (UInt64.ofNat S.length).toNat = S.length := toNat_ofNat_of_lt hS
  -- nothing is written to a closed output
  have hopen : r.output.eof = true → written = [] := by
    intro htrue
    by_contra hne
    have hfn := (hwritten.mp hne).1
    have hbound := hslice.le (List.ne_nil_of_length_pos (by omega))
    have hfull := (h.eof htrue).2
    omega
  constructor
  case slices =>
    refine ⟨hwf, hle, fun i b hb => (hheld i b hb).elim (h.held _ b) (hslice _ b), ?_, ?_⟩
    · rw [hlb]
      exact hnoted.lastByte_cases
    · intro htrue
      rcases hclose.mp htrue with hbefore | ⟨hne, hfull, hexp⟩
      · rw [hnext, hopen hbefore, List.length_nil, add_zero]
        exact h.eof hbefore
      refine ⟨?_, hfull⟩
      rcases hnoted.lastByte_cases with hmax | ⟨hknown, -⟩
      · -- the end of a string that is not empty is not expected at `-1`
        have hpos := List.length_pos_iff_ne_nil.mpr hne
        rw [hlb, hmax] at hexp
        have hzero : UInt64.ofNat S.length = 0 := by
          have hsub := congrArg (· + 1) hexp.symm
          simpa using hsub
        rw [← UInt64.toNat_inj, hSlen, UInt64.toNat_zero] at hzero
        omega
      · exact hknown
  case contents_eq => exact hcont
  case next_eq => exact hnext
  case written_eq => exact hwritten_eq
  case popped_eq => exact hpop
  case error_eq => exact herr
  case capacity_eq => exact hcap
  case covers_eq => exact hcovers
  case eof_iff =>
    rw [hclose]
    have hnot : ¬ (d = [] ∧ last = true ∧ f = r.nextByteIndex) := by
      rintro ⟨rfl, -, rfl⟩
      simp at hend
    rw [or_iff_right hnot]
  case lastByte_eq => exact .inl hlb

end

/-- **Inserting a slice.** -/
theorem Slices.insert (h : r.Slices S known) (hS : S.length ≤ maxSize)
    (hslice : IsSlice S f.toNat d)
    (hlast : last = true → known = true ∧ f.toNat + d.length = S.length) :
    ∃ written, Extends S known r f d last (r.insert f d last) written := by
  have hnext := h.next_le
  have havail := h.wf.output.available_le
  have hcap := h.wf.output.capacity_le
  have hS' : S.length < 2 ^ 63 := by
    rw [maxSize] at hS
    omega
  rw [maxSize] at hcap
  have hroom : r.nextByteIndex.toNat + r.availableCapacity.toNat < 2 ^ 64 := by
    rw [availableCapacity]
    omega
  -- the end of a slice is within the string, so that no index wraps around
  have hcase : InsertCase r f d last (r.insert f d last) := insert_cases h.wf hroom
    (fun hf => by
      rcases eq_or_ne d [] with rfl | hne
      · rw [List.length_nil]
        omega
      · have hbound := hslice.le hne
        omega)
    (fun hle hend => by
      by_contra hclosed
      have hfull := (h.eof (by simpa using hclosed)).2
      have hbound := hslice.le (List.ne_nil_of_length_pos (by omega))
      omega)
  generalize r.insert f d last = r' at hcase
  cases hcase with
  | closed hd hl hf =>
    refine ⟨[], ?_⟩
    obtain ⟨hknown, hend⟩ := hlast hl
    have hfull : r.nextByteIndex.toNat = S.length := by
      rw [← hf, ← hend, hd, List.length_nil, add_zero]
    constructor
    case slices =>
      refine ⟨⟨h.wf.output.close, h.wf.separated, h.wf.next_lt, h.wf.stop_le⟩, h.next_le, h.held,
        h.lastByte_cases, fun _ => ⟨hknown, hfull⟩⟩
    case contents_eq => exact (List.append_nil _).symm
    case written_eq => simp
    case covers_eq => simp [hd, waiting]
    case eof_iff => exact iff_of_true rfl (.inr (.inl ⟨hd, hl, hf⟩))
    case lastByte_eq => exact .inr ⟨hd, hl, hf⟩
    all_goals rfl
  | stored hf hend hs => exact ⟨_, h.stored (by omega) hslice hf hend hlast hs⟩
  | discarded hnot hout =>
    refine ⟨[], ?_⟩
    constructor
    case slices => exact h.noteLast hlast
    case written_eq => simp
    case covers_eq =>
      have hempty : Set.Ico f.toNat (f.toNat + d.length) ∩ Set.Ico r.nextByteIndex.toNat
          (r.nextByteIndex.toNat + r.availableCapacity.toNat) = ∅ := by
        rw [Set.Ico_inter_Ico, Set.Ico_eq_empty_iff]
        simp only [not_lt]
        omega
      simp [hempty]
    case eof_iff => simp [hnot]
    case lastByte_eq => exact .inl rfl
    all_goals simp

end Reassembler

end Minnow
