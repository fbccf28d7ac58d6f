import Minnow.ReceiverWindow

namespace Minnow

/-!
# The end that is marked

A last substring sets a marker to the index of its last byte, wherever it lies.  The marker is
looked at only when something is written, so that another one makes a difference only when bytes
that are written can still end there.

* `Reassembler.mark` — another marker, and nothing else is changed;
* `insert_cases_sized` — what inserting does, for any index and any substring that a string can
  hold;
* `insert_mark_false`, `insert_mark_true` — markers make no other difference than whether the
  output is closed;
* `Missed` — no bytes can end at a marker any more, kept by `Missed.insert`, so that reassemblers
  that are `Alike` but for such markers stay so;
* `Awaits` — bytes can end at a marker still, which `Awaits.insert` brings nearer.
-/

namespace Reassembler

open IntervalMap

variable {r : Reassembler} {f : UInt64} {d : Bytes} {last : Bool} {marker : UInt64}

/-- The reassembler with another marker. -/
def mark (r : Reassembler) (marker : UInt64) : Reassembler := { r with lastByte := marker }

@[simp] theorem output_mark (r : Reassembler) (marker : UInt64) :
    (r.mark marker).output = r.output := rfl

@[simp] theorem mark_mark (r : Reassembler) (marker marker' : UInt64) :
    (r.mark marker).mark marker' = r.mark marker' := rfl

@[simp] theorem mark_lastByte (r : Reassembler) : r.mark r.lastByte = r := rfl

/-- The marker has no part in what is well formed. -/
theorem WF.mark (h : r.WF) (marker : UInt64) : (r.mark marker).WF :=
  ⟨h.output, h.separated, h.next_lt, h.stop_le⟩

/-! ### Inserting anything -/

/-- The tests that let a substring be stored are made in 64 bits; where they hold, no index that
    is involved is beyond that. -/
theorem room_of_tests (hwf : r.output.WF) (hd : d.length ≤ maxSize)
    (hf : f < r.nextByteIndex + r.availableCapacity)
    (hend : f + length d > r.nextByteIndex) :
    r.nextByteIndex.toNat + r.availableCapacity.toNat < 2 ^ 64 ∧
      f.toNat < r.nextByteIndex.toNat + r.availableCapacity.toNat ∧
      f.toNat + d.length < 2 ^ 64 ∧ r.nextByteIndex.toNat < f.toNat + d.length := by
  have hroom : r.availableCapacity.toNat ≤ maxSize := hwf.available_le.trans hwf.capacity_le
  have hlen : (length d).toNat = d.length := toNat_ofNat_of_lt (by rw [maxSize] at hd; omega)
  have hnext := r.nextByteIndex.toNat_lt
  rw [UInt64.lt_iff_toNat_lt, UInt64.toNat_add] at hf
  rw [gt_iff_lt, UInt64.lt_iff_toNat_lt, UInt64.toNat_add, hlen] at hend
  have hf' := f.toNat_lt
  rw [maxSize] at hroom hd
  omega

/-- **Inserting anything** closes the output, or stores the substring, or does nothing, but that
    a last substring is noted. -/
theorem insert_cases_sized (hwf : r.output.WF) (hd : d.length ≤ maxSize) (f : UInt64)
    (last : Bool) :
    (d = [] ∧ last = true ∧ f = r.nextByteIndex ∧
        r.insert f d last = { r with output := r.output.close }) ∨
      r.insert f d last = r.noteLast f d last ∨
      (r.nextByteIndex.toNat + r.availableCapacity.toNat < 2 ^ 64 ∧
        f.toNat < r.nextByteIndex.toNat + r.availableCapacity.toNat ∧
        f.toNat + d.length < 2 ^ 64 ∧ r.nextByteIndex.toNat < f.toNat + d.length ∧
        r.insert f d last = (r.noteLast f d last).store f d) := by
  by_cases hclose : d.isEmpty = true ∧ last = true ∧ f = r.nextByteIndex
  · obtain ⟨hempty, hlast, hf⟩ := hclose
    refine .inl ⟨List.isEmpty_iff.mp hempty, hlast, hf, ?_⟩
    unfold insert
    rw [if_pos ⟨hempty, hlast, hf⟩]
  right
  rw [insert_eq hclose]
  split
  · rename_i htests
    obtain ⟨hroom, hf, hlen, hend⟩ := room_of_tests hwf hd htests.1 htests.2
    exact .inr ⟨hroom, hf, hlen, hend, rfl⟩
  · exact .inl rfl

/-! ### Two markers -/

/-- Of two streams of which one may be closed, and both are or none is. -/
theorem close_congr {s : ByteStream} {p q : Prop} [Decidable p] [Decidable q]
    (h : (if p then s.close else s).eof = (if q then s.close else s).eof) :
    (if p then s.close else s) = if q then s.close else s := by
  -- closing a stream that is closed already changes nothing
  have hclosed : s.eof = true → s.close = s := fun heof => by rw [ByteStream.close, ← heof]
  by_cases hp : p <;> by_cases hq : q
  · rw [if_pos hp, if_pos hq]
  · rw [if_pos hp, if_neg hq] at h ⊢
    exact hclosed h.symm
  · rw [if_neg hp, if_pos hq] at h ⊢
    exact (hclosed h).symm
  · rw [if_neg hp, if_neg hq]

/-- A substring that is stored: what comes first after merging is written if its index is the next
    one. -/
theorem store_cons {e : UInt64 × Bytes} {rest : List (UInt64 × Bytes)}
    (h : mergeSubstrings (multimapInsert (r.trim f d) r.unassembledSubstrings) = e :: rest) :
    r.store f d =
      if e.1 = r.nextByteIndex then
        { r with
          output := if e.1 + length e.2 - 1 = r.lastByte then (r.output.push e.2).close
            else r.output.push e.2
          unassembledSubstrings := rest }
      else { r with unassembledSubstrings := e :: rest } := by
  unfold store
  rw [h]

/-- A marker makes no other difference to storing than whether the output is closed. -/
theorem store_mark (h : ((r.mark marker).store f d).output.eof = (r.store f d).output.eof) :
    (r.mark marker).store f d = (r.store f d).mark marker := by
  cases hentries : mergeSubstrings (multimapInsert (r.trim f d) r.unassembledSubstrings) with
  | nil =>
    have hentries' : mergeSubstrings (multimapInsert ((r.mark marker).trim f d)
        (r.mark marker).unassembledSubstrings) = [] := hentries
    unfold store
    rw [hentries, hentries']
    rfl
  | cons e rest =>
    have hstore' : (r.mark marker).store f d = _ := store_cons (r := r.mark marker) hentries
    rw [hstore', store_cons hentries] at h ⊢
    by_cases hkey : e.1 = r.nextByteIndex
    · have hkey' : e.1 = (r.mark marker).nextByteIndex := hkey
      rw [if_pos hkey, if_pos hkey'] at h ⊢
      have houtput := close_congr h
      dsimp only [output_mark] at houtput ⊢
      rw [houtput]
      rfl
    · have hkey' : ¬ e.1 = (r.mark marker).nextByteIndex := hkey
      rw [if_neg hkey, if_neg hkey']
      rfl

/-- A substring that is not the last leaves the markers as they are. -/
theorem insert_mark_false
    (h : ((r.mark marker).insert f d false).output.eof = (r.insert f d false).output.eof) :
    (r.mark marker).insert f d false = (r.insert f d false).mark marker := by
  rw [insert_eq (by simp), insert_eq (by simp)] at h ⊢
  by_cases htests : f < r.nextByteIndex + r.availableCapacity ∧ f + length d > r.nextByteIndex
  · have htests' : f < (r.mark marker).nextByteIndex + (r.mark marker).availableCapacity ∧
        f + length d > (r.mark marker).nextByteIndex := htests
    rw [if_pos htests, if_pos htests'] at h ⊢
    exact store_mark h
  · have htests' : ¬ (f < (r.mark marker).nextByteIndex + (r.mark marker).availableCapacity ∧
        f + length d > (r.mark marker).nextByteIndex) := htests
    rw [if_neg htests, if_neg htests']
    rfl

/-- A last substring closes the output, whatever the marker is, or sets the marker. -/
theorem insert_mark_true (r : Reassembler) (marker f : UInt64) (d : Bytes) :
    ((r.insert f d true).output.eof = true ∧
        (r.mark marker).insert f d true = (r.insert f d true).mark marker) ∨
      (r.mark marker).insert f d true = r.insert f d true := by
  by_cases hclose : d.isEmpty = true ∧ true = true ∧ f = r.nextByteIndex
  · have hclose' : d.isEmpty = true ∧ true = true ∧ f = (r.mark marker).nextByteIndex := hclose
    left
    unfold insert
    rw [if_pos hclose, if_pos hclose']
    exact ⟨rfl, rfl⟩
  · right
    rw [insert_eq hclose, insert_eq (r := r.mark marker) hclose]
    rfl

/-! ### Markers that are missed -/

/-- **No bytes that are written can end at a marker any more.**  The byte behind it would be the
    next one. -/
inductive Missed (r : Reassembler) (marker : UInt64) : Prop where
  /-- nothing is written after the close -/
  | closed (h : r.output.eof = true)
  /-- nothing is ever written -/
  | noRoom (hcapacity : r.output.capacity = 0) (hnext : r.nextByteIndex = 0)
  /-- there is no index behind the marker -/
  | beyond (h : marker.toNat + 1 = 2 ^ 64)
  /-- the byte behind it is written -/
  | written (h : marker.toNat + 1 < r.nextByteIndex.toNat)
  /-- it would be written together with a byte behind it -/
  | next (h : marker.toNat + 1 = r.nextByteIndex.toNat) (hroom : 0 < r.availableCapacity.toNat)
  /-- the byte behind it waits, so that the two are written together -/
  | waits (h : marker.toNat + 1 ∈ covers r.waiting)

/-- What a substring brings that is stored at or before the next index. -/
theorem Stored.next_lt {r' : Reassembler} {written : Bytes} {f : ℕ} (h : Stored r f d r' written)
    (hf : f ≤ r.nextByteIndex.toNat) (hend : r.nextByteIndex.toNat < f + d.length)
    (hroom : 0 < r.availableCapacity.toNat) :
    r.nextByteIndex.toNat < r'.nextByteIndex.toNat := by
  have hmem : r.nextByteIndex.toNat ∈ covers r.waiting ∪ (Set.Ico f (f + d.length) ∩
      Set.Ico r.nextByteIndex.toNat (r.nextByteIndex.toNat + r.availableCapacity.toNat)) :=
    .inr ⟨⟨hf, hend⟩, le_rfl, by omega⟩
  rw [← h.covers_eq, ← h.next_eq] at hmem
  rcases hmem with hheld | ⟨-, hlt⟩
  · obtain ⟨e, he, hstart, -⟩ := mem_covers.mp hheld
    have hnext := h.wf.next_lt e he
    have hle := h.next_eq
    omega
  · exact hlt

/-- Nothing is written when a substring starts behind the next index. -/
theorem Stored.written_eq_nil {r' : Reassembler} {written : Bytes} {f : ℕ}
    (h : Stored r f d r' written) (hwf : r.WF) (hf : r.nextByteIndex.toNat < f) :
    written = [] := by
  by_contra hne
  have hpos := List.length_pos_iff_ne_nil.mpr hne
  have hmem : r.nextByteIndex.toNat ∈ covers r'.waiting ∪
      Set.Ico r.nextByteIndex.toNat (r.nextByteIndex.toNat + written.length) :=
    .inr ⟨le_rfl, by omega⟩
  rw [h.covers_eq] at hmem
  rcases hmem with hheld | ⟨⟨hle, -⟩, -⟩
  · obtain ⟨e, he, hstart, -⟩ := mem_covers.mp hheld
    have hnext := hwf.next_lt e he
    omega
  · omega

/-- The output is closed when the bytes that are written end at the marker; the test of the code is
    one of natural numbers. -/
theorem Stored.eof_iff_ends {r' : Reassembler} {written : Bytes} {f : ℕ}
    (h : Stored r f d r' written) (hopen : r.output.eof = false)
    (hf : f < r.nextByteIndex.toNat + r.availableCapacity.toNat)
    (hend : r.nextByteIndex.toNat < f + d.length) :
    r'.output.eof = true ↔
      f ≤ r.nextByteIndex.toNat ∧ r'.nextByteIndex.toNat = r.lastByte.toNat + 1 := by
  have hfalse : ¬ r.output.eof = true := by simp [hopen]
  rw [h.eof_iff, or_iff_right hfalse]
  apply and_congr_right
  intro hfirst
  have hpos : 0 < r'.nextByteIndex.toNat := by
    by_cases hfull : r.availableCapacity.toNat = 0
    · have hnext := h.next_eq
      omega
    · have hgrows := h.next_lt hfirst hend (by omega)
      omega
  have hone : (1 : UInt64) ≤ r'.nextByteIndex := UInt64.le_iff_toNat_le.mpr hpos
  have hlast : (r'.nextByteIndex - 1).toNat = r'.nextByteIndex.toNat - 1 :=
    UInt64.toNat_sub_of_le _ _ hone
  rw [← UInt64.toNat_inj, hlast]
  omega

/-- **Storing** does not close the output at a marker that is missed, and it stays missed. -/
theorem Missed.store (hm : Missed r r.lastByte) (h : r.WF) (hopen : r.output.eof = false)
    (hroom : r.nextByteIndex.toNat + r.availableCapacity.toNat < 2 ^ 64)
    (hf : f.toNat < r.nextByteIndex.toNat + r.availableCapacity.toNat)
    (hlen : f.toNat + d.length < 2 ^ 64) (hend : r.nextByteIndex.toNat < f.toNat + d.length) :
    (r.store f d).output.eof = false ∧ Missed (r.store f d) r.lastByte := by
  obtain ⟨written, hs⟩ := store_spec h hroom (fun _ => hopen) hlen hf hend
  generalize r.store f d = r' at hs
  have hle : r.nextByteIndex.toNat ≤ r'.nextByteIndex.toNat := by
    rw [hs.next_eq]
    exact Nat.le_add_right _ _
  have hlt := r'.nextByteIndex.toNat_lt
  have hmissed : (f.toNat ≤ r.nextByteIndex.toNat →
      r'.nextByteIndex.toNat ≠ r.lastByte.toNat + 1) ∧ Missed r' r.lastByte := by
    cases hm with
    | closed heof =>
      rw [hopen] at heof
      cases heof
    | noRoom hcapacity hnext =>
      -- no index is in the window
      have havail := h.output.available_le
      rw [hcapacity] at havail
      rw [hnext] at hf
      have hnone : r.availableCapacity.toNat = 0 := Nat.le_zero.mp havail
      rw [hnone] at hf
      cases hf
    | beyond hbeyond => exact ⟨fun _ => by omega, .beyond hbeyond⟩
    | written hwritten => exact ⟨fun _ => by omega, .written (by omega)⟩
    | next hnext hfree =>
      by_cases hfirst : f.toNat ≤ r.nextByteIndex.toNat
      · have hgrows := hs.next_lt hfirst hend hfree
        exact ⟨fun _ => by omega, .written (by omega)⟩
      · have hnil := hs.written_eq_nil h (not_le.mp hfirst)
        have hsame := hs.next_eq
        have hfree' := hs.available_eq
        rw [hnil, List.length_nil, Nat.add_zero] at hsame hfree'
        exact ⟨fun hle => absurd hle hfirst, .next (by omega) (by omega)⟩
    | waits hwaits =>
      have hmem : r.lastByte.toNat + 1 ∈ covers r'.waiting ∪
          Set.Ico r.nextByteIndex.toNat r'.nextByteIndex.toNat := by
        rw [hs.next_eq, hs.covers_eq]
        exact .inl hwaits
      rcases hmem with hheld | ⟨-, hlater⟩
      · obtain ⟨e, he, hstart, -⟩ := mem_covers.mp hheld
        have hbehind := hs.wf.next_lt e he
        exact ⟨fun _ => by omega, .waits hheld⟩
      · exact ⟨fun _ => by omega, .written hlater⟩
  refine ⟨?_, hmissed.2⟩
  by_contra hclosed
  obtain ⟨hfirst, hends⟩ := (hs.eof_iff_ends hopen hf hend).mp (by simpa using hclosed)
  exact hmissed.1 hfirst hends

/-- A marker stays missed when nothing happens but that room is made. -/
theorem Missed.of_same {r' : Reassembler} (hm : Missed r marker)
    (heof : r'.output.eof = r.output.eof) (hcapacity : r'.output.capacity = r.output.capacity)
    (hnext : r'.nextByteIndex = r.nextByteIndex)
    (hroom : r.availableCapacity.toNat ≤ r'.availableCapacity.toNat)
    (hwaiting : r'.waiting = r.waiting) : Missed r' marker := by
  cases hm with
  | closed h => exact .closed (heof.trans h)
  | noRoom h hzero => exact .noRoom (hcapacity.trans h) (hnext.trans hzero)
  | beyond h => exact .beyond h
  | written h => exact .written (by rwa [hnext])
  | next h hfree => exact .next (by rwa [hnext]) (by omega)
  | waits h => exact .waits (by rwa [hwaiting])

/-- Another marker does not matter. -/
theorem Missed.mark (h : Missed r marker) (marker' : UInt64) : Missed (r.mark marker') marker :=
  h.of_same rfl rfl rfl le_rfl rfl

/-- An error does not matter. -/
theorem Missed.setError (h : Missed r marker) :
    Missed { r with output := r.output.setError } marker :=
  h.of_same rfl rfl rfl le_rfl rfl

/-- **Inserting** a substring that is not the last. -/
theorem Missed.insert (hm : Missed r r.lastByte) (hout : r.output.WF)
    (hwf : r.output.eof = false → r.WF) (hd : d.length ≤ maxSize) :
    (r.insert f d false).output.eof = r.output.eof ∧
      Missed (r.insert f d false) r.lastByte := by
  by_cases heof : r.output.eof = true
  · obtain ⟨written, hwritten⟩ := insert_writes hout f d false
    have heof' := hwritten.eof heof
    exact ⟨heof'.trans heof.symm, .closed heof'⟩
  · have hopen : r.output.eof = false := by simpa using heof
    rcases insert_cases_sized hout hd f false with
      ⟨-, hlast, -⟩ | hnote | ⟨hroom, hf, hlen, hend, hstore⟩
    · cases hlast
    · rw [hnote]
      exact ⟨rfl, hm⟩
    · rw [hstore]
      obtain ⟨hopen', hmissed⟩ := hm.store (hwf hopen) hopen hroom hf hlen hend
      exact ⟨hopen'.trans hopen.symm, hmissed⟩

/-- Reading only makes room. -/
theorem Missed.readFrom (hm : Missed r marker) (hout : r.output.WF) {reader : ByteStream}
    {out : Bytes} (hread : ByteStream.ReadFrom r.output reader out) :
    Missed { r with output := reader } marker := by
  have hroom : r.availableCapacity.toNat ≤ reader.availableCapacity.toNat :=
    (Nat.le_add_right _ _).trans_eq (room_readFrom hout hread)
  exact hm.of_same hread.eof_eq hread.capacity_eq hread.pushed_eq hroom rfl

/-! ### Alike but for markers -/

/-- What is kept of a reassembler, whatever is inserted and read. -/
structure Kept (r : Reassembler) : Prop where
  output : r.output.WF
  wf : r.output.eof = false → r.WF
  /-- where there is no room, nothing is read -/
  popped : r.output.capacity = 0 → r.output.bytePopped = 0

/-- A new reassembler has it. -/
theorem Kept.new {capacity : UInt64} {output : ByteStream}
    (h : ByteStream.new capacity = .ok output) : (new output).Kept := by
  obtain ⟨hwf, -, -, -, -, -, hpopped⟩ := ByteStream.new_spec h
  exact ⟨hwf, fun _ => .new hwf, fun _ => hpopped⟩

/-- Inserting keeps what is kept. -/
theorem Kept.insert (h : r.Kept) (f : UInt64) (hd : d.length ≤ maxSize) (last : Bool) :
    (r.insert f d last).Kept := by
  obtain ⟨written, hwritten⟩ := insert_writes h.output f d last
  refine ⟨hwritten.wf, fun hopen' => ?_, fun hcapacity => ?_⟩
  · have hopen : r.output.eof = false := by
      by_contra hclosed
      rw [hwritten.eof (by simpa using hclosed)] at hopen'
      cases hopen'
    rcases insert_cases_sized h.output hd f last with
      ⟨-, -, -, hclose⟩ | hnote | ⟨hroom, hf, hlen, hend, hstore⟩
    · rw [hclose] at hopen'
      cases hopen'
    · rw [hnote]
      exact (h.wf hopen).noteLast f d last
    · rw [hstore]
      obtain ⟨written, hs⟩ := store_spec ((h.wf hopen).noteLast f d last) (by simpa using hroom)
        (fun _ => by simpa using hopen) hlen (by simpa using hf) (by simpa using hend)
      exact hs.wf
  · rw [hwritten.popped_eq]
    exact h.popped (hwritten.capacity_eq.symm.trans hcapacity)

/-- An error keeps what is kept. -/
theorem Kept.setError (h : r.Kept) :
    ({ r with output := r.output.setError } : Reassembler).Kept where
  output := h.output.setError
  wf hopen :=
    let hwf := h.wf hopen
    ⟨hwf.output.setError, hwf.separated, hwf.next_lt, hwf.stop_le⟩
  popped := h.popped

/-- Reading keeps what is kept. -/
theorem Kept.readFrom (h : r.Kept) {reader : ByteStream} {out : Bytes}
    (hread : ByteStream.ReadFrom r.output reader out) :
    ({ r with output := reader } : Reassembler).Kept := by
  refine ⟨hread.wf, fun hopen => (h.wf (hread.eof_eq.symm.trans hopen)).readFrom hread, ?_⟩
  intro hcapacity
  have hcapacity' : r.output.capacity = 0 := hread.capacity_eq.symm.trans hcapacity
  have hnone := ByteStream.length_contents h.output
  rw [hcapacity', hread.contents_eq, List.length_append] at hnone
  have hout : out.length = 0 := (Nat.add_eq_zero_iff.mp (Nat.add_eq_zero_iff.mp hnone).1).1
  show reader.bytePopped = 0
  rw [hread.popped_eq, h.popped hcapacity', hout]
  rfl

/-- Where there is no room, nothing is written. -/
theorem Kept.next_eq_zero (h : r.Kept) (hcapacity : r.output.capacity = 0) :
    r.nextByteIndex = 0 := by
  have hroom : r.output.availableCapacity = 0 := by
    have hle := h.output.available_le
    rw [hcapacity] at hle
    exact UInt64.toNat_inj.mp (Nat.le_zero.mp hle)
  show r.output.bytePushed = 0
  rw [h.output.pushed_eq, h.popped hcapacity, hcapacity, hroom]
  rfl

/-- Two reassemblers are the same, but for markers that are missed. -/
def Alike (r r' : Reassembler) : Prop :=
  r' = r ∨ ∃ marker, r' = r.mark marker ∧ Missed r r.lastByte ∧ Missed r marker

/-- A substring that is not the last leaves the marker. -/
theorem lastByte_insert_false (r : Reassembler) (f : UInt64) (d : Bytes) :
    (r.insert f d false).lastByte = r.lastByte := by
  rw [insert_eq (by simp)]
  split
  · unfold store
    dsimp only
    split
    · rfl
    · split <;> rfl
  · rfl

/-- **Inserting** the same keeps reassemblers alike. -/
theorem Alike.insert {r' : Reassembler} (h : Alike r r') (hkept : r.Kept) (f : UInt64)
    (hd : d.length ≤ maxSize) (last : Bool) : Alike (r.insert f d last) (r'.insert f d last) := by
  rcases h with rfl | ⟨marker, rfl, hmissed, hmissed'⟩
  · exact .inl rfl
  cases last with
  | true =>
    rcases insert_mark_true r marker f d with ⟨hclosed, heq⟩ | heq
    · exact .inr ⟨marker, heq, .closed hclosed, .closed hclosed⟩
    · exact .inl heq
  | false =>
    -- neither marker closes the output
    obtain ⟨heof, hmissed₁⟩ := hmissed.insert (f := f) hkept.output hkept.wf hd
    obtain ⟨heof', hmissed₂⟩ := Missed.insert (r := r.mark marker) (f := f) (hmissed'.mark marker)
      hkept.output (fun hopen => (hkept.wf hopen).mark marker) hd
    have heq := insert_mark_false (heof'.trans heof.symm)
    refine .inr ⟨marker, heq, ?_, ?_⟩
    · rwa [lastByte_insert_false]
    · rw [heq] at hmissed₂
      have hback := hmissed₂.mark (r.insert f d false).lastByte
      rwa [mark_mark, mark_lastByte] at hback

/-- They stay alike when both have an error. -/
theorem Alike.setError {r' : Reassembler} (h : Alike r r') :
    Alike { r with output := r.output.setError } { r' with output := r'.output.setError } := by
  rcases h with rfl | ⟨marker, rfl, hmissed, hmissed'⟩
  · exact .inl rfl
  · exact .inr ⟨marker, rfl, hmissed.setError, hmissed'.setError⟩

/-- They stay alike when the same is read from both. -/
theorem Alike.readFrom {r' : Reassembler} (h : Alike r r') (hkept : r.Kept) {reader : ByteStream}
    {out : Bytes} (hread : ByteStream.ReadFrom r.output reader out) :
    Alike { r with output := reader } { r' with output := reader } := by
  rcases h with rfl | ⟨marker, rfl, hmissed, hmissed'⟩
  · exact .inl rfl
  · exact .inr ⟨marker, rfl, hmissed.readFrom hkept.output hread,
      hmissed'.readFrom hkept.output hread⟩

/-- Reassemblers that are alike have the same output. -/
theorem Alike.output_eq {r' : Reassembler} (h : Alike r r') : r'.output = r.output := by
  rcases h with rfl | ⟨marker, rfl, -⟩ <;> rfl

/-! ### Telling markers apart -/

/-- The marker has no part in what is kept. -/
theorem Kept.mark (h : r.Kept) (marker : UInt64) : (r.mark marker).Kept :=
  ⟨h.output, fun hopen => (h.wf hopen).mark marker, h.popped⟩

/-- **A substring with the next byte** closes the output for one of two markers, or passes by
    both. -/
theorem insert_unlike (h : r.WF) (hopen : r.output.eof = false) (hne : r.lastByte ≠ marker)
    (hroom : r.nextByteIndex.toNat + r.availableCapacity.toNat < 2 ^ 64)
    (hfirst : f.toNat ≤ r.nextByteIndex.toNat)
    (hf : f.toNat < r.nextByteIndex.toNat + r.availableCapacity.toNat)
    (hlen : f.toNat + d.length < 2 ^ 64) (hend : r.nextByteIndex.toNat < f.toNat + d.length) :
    ((r.mark marker).insert f d false).output.eof ≠ (r.insert f d false).output.eof ∨
      (r.mark marker).insert f d false = (r.insert f d false).mark marker ∧
        (r.insert f d false).output.eof = false ∧
        (r.insert f d false).nextByteIndex.toNat ≠ r.lastByte.toNat + 1 ∧
        ∃ written, Stored r f.toNat d (r.insert f d false) written := by
  have hstored : ∀ {r : Reassembler}, r.WF → r.output.eof = false →
      r.nextByteIndex.toNat + r.availableCapacity.toNat < 2 ^ 64 →
      f.toNat < r.nextByteIndex.toNat + r.availableCapacity.toNat →
      r.nextByteIndex.toNat < f.toNat + d.length →
      ∃ written, Stored r f.toNat d (r.insert f d false) written := by
    intro r h hopen hroom hf hend
    have hcase : InsertCase r f d false (r.insert f d false) :=
      insert_cases h hroom (fun _ => hlen) fun _ _ => hopen
    generalize r.insert f d false = r' at hcase
    cases hcase with
    | closed _ hlast _ => cases hlast
    | stored _ _ hs => exact ⟨_, hs⟩
    | discarded _ hout => omega
  obtain ⟨written, hs⟩ := hstored h hopen hroom hf hend
  obtain ⟨written', hs'⟩ := hstored (h.mark marker) hopen hroom hf hend
  rw [or_iff_not_imp_left, not_not]
  intro heof
  have hmark := insert_mark_false heof
  have hends := hs.eof_iff_ends hopen hf hend
  have hends' : ((r.mark marker).insert f d false).output.eof = true ↔
      f.toNat ≤ r.nextByteIndex.toNat ∧
        (r.insert f d false).nextByteIndex.toNat = marker.toNat + 1 := by
    have hiff := hs'.eof_iff_ends hopen hf hend
    rwa [hmark] at hiff ⊢
  have hopen' : (r.insert f d false).output.eof = false := by
    -- the output cannot be closed at both markers
    by_contra hclosed
    have hclosed₁ : (r.insert f d false).output.eof = true := by simpa using hclosed
    have hat := (hends.mp hclosed₁).2
    have hat' := (hends'.mp (heof.trans hclosed₁)).2
    apply hne
    rw [← UInt64.toNat_inj]
    omega
  refine ⟨hmark, hopen', fun hat => ?_, written, hs⟩
  have hclosed := hends.mpr ⟨hfirst, hat⟩
  rw [hopen'] at hclosed
  cases hclosed

/-- Bytes that are still to be written can end at the marker: the byte behind it is not there
    yet. -/
structure Awaits (r : Reassembler) : Prop where
  kept : r.Kept
  isOpen : r.output.eof = false
  capacity_ne : r.output.capacity ≠ 0
  room : r.nextByteIndex.toNat + r.availableCapacity.toNat < 2 ^ 64
  next_le : r.nextByteIndex.toNat ≤ r.lastByte.toNat
  lastByte_lt : r.lastByte.toNat + 1 < 2 ^ 64
  not_waiting : r.lastByte.toNat + 1 ∉ covers r.waiting

/-- Where there is no room, the reader makes some. -/
theorem Awaits.pop (h : r.Awaits) (hfull : r.availableCapacity.toNat = 0) :
    ({ r with output := r.output.pop 1 } : Reassembler).Awaits ∧
      (r.output.pop 1).availableCapacity.toNat = 1 := by
  have hread := ByteStream.readFrom_pop h.kept.output 1
  have hone : (1 : UInt64).toNat = 1 := rfl
  have hcapacity : 0 < r.output.capacity.toNat := by
    rw [Nat.pos_iff_ne_zero]
    exact fun hzero => h.capacity_ne (UInt64.toNat_inj.mp hzero)
  have hlen := ByteStream.length_contents h.kept.output
  have hroom := room_readFrom h.kept.output hread
  rw [availableCapacity] at hfull
  rw [availableCapacity, hfull, List.length_take, hone] at hroom
  have havail : (r.output.pop 1).availableCapacity.toNat = 1 := by omega
  have hnext : (r.output.pop 1).bytePushed.toNat = r.nextByteIndex.toNat :=
    congrArg _ hread.pushed_eq
  have hle := h.next_le
  have hlt := h.lastByte_lt
  refine ⟨⟨h.kept.readFrom hread, hread.eof_eq.trans h.isOpen, ?_, ?_, ?_, hlt, h.not_waiting⟩,
    havail⟩
  · exact fun hzero => h.capacity_ne (hread.capacity_eq.symm.trans hzero)
  · show (r.output.pop 1).bytePushed.toNat + (r.output.pop 1).availableCapacity.toNat < 2 ^ 64
    omega
  · show (r.output.pop 1).bytePushed.toNat ≤ r.lastByte.toNat
    omega

/-- **One byte more** is written, and tells the markers apart or brings the end nearer. -/
theorem Awaits.insert (h : r.Awaits) (hne : r.lastByte ≠ marker)
    (hfree : 0 < r.availableCapacity.toNat) (b : UInt8) :
    ((r.mark marker).insert r.nextByteIndex [b] false).output.eof
        ≠ (r.insert r.nextByteIndex [b] false).output.eof ∨
      (r.mark marker).insert r.nextByteIndex [b] false
          = (r.insert r.nextByteIndex [b] false).mark marker ∧
        (r.insert r.nextByteIndex [b] false).Awaits ∧
        r.nextByteIndex.toNat < (r.insert r.nextByteIndex [b] false).nextByteIndex.toNat := by
  have hle := h.next_le
  have hlt := h.lastByte_lt
  have hone : [b].length = 1 := rfl
  rcases insert_unlike (d := [b]) (h.kept.wf h.isOpen) h.isOpen hne h.room le_rfl (by omega)
    (by omega) (by omega) with hdiffer | ⟨hmark, hopen', hends, written, hs⟩
  · exact .inl hdiffer
  have hkept' := h.kept.insert r.nextByteIndex (d := [b]) (by rw [hone, maxSize]; omega) false
  have hlast := lastByte_insert_false r r.nextByteIndex [b]
  generalize r.insert r.nextByteIndex [b] false = r' at *
  refine .inr ⟨hmark, ?_, hs.next_lt le_rfl (by omega) hfree⟩
  -- the byte behind the marker is neither written nor does it wait
  have hnot : r.lastByte.toNat + 1 ∉ covers r'.waiting ∪
      Set.Ico r.nextByteIndex.toNat (r.nextByteIndex.toNat + written.length) := by
    rw [hs.covers_eq]
    rintro (hheld | ⟨⟨-, hnew⟩, -⟩)
    · exact h.not_waiting hheld
    · omega
  have hnext := hs.next_eq
  have havail := hs.available_eq
  have hroom := h.room
  have hpast : ¬ r.lastByte.toNat + 1 < r'.nextByteIndex.toNat := by
    intro hpast
    exact hnot (.inr ⟨by omega, by omega⟩)
  refine ⟨hkept', hopen', ?_, by omega, ?_, ?_, ?_⟩
  · rw [hs.capacity_eq]
    exact h.capacity_ne
  · rw [hlast]
    omega
  · rw [hlast]
    exact hlt
  · rw [hlast]
    exact fun hheld => hnot (.inl hheld)

/-- **A full output.**  When the next byte is the one behind the marker and there is no room for it,
    a substring that reaches one byte further closes the output. -/
theorem insert_unlike_full (h : r.WF) (hopen : r.output.eof = false) (hne : r.lastByte ≠ marker)
    (hnext : r.lastByte.toNat + 1 = r.nextByteIndex.toNat)
    (hfull : r.availableCapacity.toNat = 0) (hlt : r.lastByte.toNat + 2 < 2 ^ 64)
    (b c : UInt8) :
    ((r.mark marker).insert r.lastByte [b, c] false).output.eof
      ≠ (r.insert r.lastByte [b, c] false).output.eof := by
  have htwo : [b, c].length = 2 := rfl
  rcases insert_unlike (f := r.lastByte) (d := [b, c]) h hopen hne (by omega) (by omega) (by omega)
    (by omega) (by omega) with hdiffer | ⟨-, -, hends, written, hs⟩
  · exact hdiffer
  · -- nothing was written
    have hsame := hs.next_eq
    have havail := hs.available_eq
    omega

/-- A marker that is not missed is awaited, but where the output is full just behind it. -/
theorem awaits_of_not_missed (h : r.Kept)
    (hroom : r.nextByteIndex.toNat + r.availableCapacity.toNat < 2 ^ 64)
    (hnot : ¬ Missed r r.lastByte) :
    r.output.eof = false ∧ (r.Awaits ∨
      r.lastByte.toNat + 1 = r.nextByteIndex.toNat ∧ r.availableCapacity.toNat = 0) := by
  have hopen : r.output.eof = false := by
    by_contra hclosed
    exact hnot (.closed (by simpa using hclosed))
  refine ⟨hopen, ?_⟩
  have hlt : r.lastByte.toNat + 1 < 2 ^ 64 := by
    have hbound := r.lastByte.toNat_lt
    by_contra hbeyond
    exact hnot (.beyond (by omega))
  have hwritten : ¬ r.lastByte.toNat + 1 < r.nextByteIndex.toNat := fun h => hnot (.written h)
  by_cases hnext : r.lastByte.toNat + 1 = r.nextByteIndex.toNat
  · right
    refine ⟨hnext, ?_⟩
    by_contra hfree
    exact hnot (.next hnext (by omega))
  · left
    refine ⟨h, hopen, fun hzero => hnot ?_, hroom, by omega, hlt, fun hheld => hnot (.waits hheld)⟩
    exact .noRoom hzero (h.next_eq_zero hzero)

end Reassembler

end Minnow
