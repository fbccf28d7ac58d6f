import Minnow.ByteStream
import Minnow.Library.IntervalMap

namespace Minnow

/-!
# The reassembler

Indexed substrings arrive in any order, possibly overlapping, and are written to a `ByteStream`
as soon as the next byte is known.  What cannot be written yet waits in a multimap from index to
substring, here the list of its entries in order.

The second half relates the multimap, whose keys are `uint64_t`, to the blocks of
`Library.IntervalMap`: as long as no entry reaches beyond `2^64`, insertion and the merging pass
are `IntervalMap.insertSorted` and `IntervalMap.merge`.
-/

/-- The stream that is written to, and the substrings that wait, in the order of their first
    index. -/
structure Reassembler where
  output : ByteStream
  capacity : UInt64
  /-- `last_byte_`, which starts out as `-1` -/
  lastByte : UInt64 := 0xFFFFFFFFFFFFFFFF
  unassembledSubstrings : List (UInt64 × Bytes) := []
deriving DecidableEq, Repr

namespace Reassembler

/-- Construct a reassembler to write into the given stream. -/
def new (output : ByteStream) : Reassembler :=
  { output, capacity := output.availableCapacity }

/-- The room of the stream. -/
def availableCapacity (r : Reassembler) : UInt64 := r.output.availableCapacity

/-- Index of the next byte to be written to the stream. -/
def nextByteIndex (r : Reassembler) : UInt64 := r.output.bytesPushed

/-- `data.length()` -/
def length (data : Bytes) : UInt64 := UInt64.ofNat data.length

/-- `std::multimap::insert`: behind all entries with the same or a smaller key. -/
def multimapInsert (e : UInt64 × Bytes) : List (UInt64 × Bytes) → List (UInt64 × Bytes)
  | [] => [e]
  | x :: l => if e.1 < x.1 then e :: x :: l else x :: multimapInsert e l

/-- The loop of `merge_substrings`, with `it` before `next`. -/
def mergeLoop (it : UInt64 × Bytes) : List (UInt64 × Bytes) → List (UInt64 × Bytes)
  | [] => [it]
  | next :: rest =>
    if it.1 + length it.2 ≥ next.1 then
      -- if next is completely contained in it, erase next directly
      if it.1 + length it.2 ≥ next.1 + length next.2 then mergeLoop it rest
      else
        -- otherwise, merge the overlap
        let overlapIndex := it.1 + length it.2 - next.1
        mergeLoop (it.1, it.2 ++ next.2.drop overlapIndex.toNat) rest
    else it :: mergeLoop next rest

/-- `merge_substrings()`: neighbours that touch or overlap become one. -/
def mergeSubstrings : List (UInt64 × Bytes) → List (UInt64 × Bytes)
  | [] => []
  | [e] => [e]
  | it :: rest => mergeLoop it rest

/-- The bytes of `data` that are kept, under their key: what lies before the next index or
    beyond the available capacity is cut off. -/
def trim (r : Reassembler) (firstIndex : UInt64) (data : Bytes) : UInt64 × Bytes :=
  let insertKey := if firstIndex ≥ r.nextByteIndex then firstIndex else r.nextByteIndex
  let len := min (length data) (r.nextByteIndex + r.availableCapacity - insertKey)
  (insertKey, (data.drop (insertKey - firstIndex).toNat).take len.toNat)

/-- The part of `insert` that stores a substring and writes what has become writable. -/
def store (r : Reassembler) (firstIndex : UInt64) (data : Bytes) : Reassembler :=
  let entries := mergeSubstrings (multimapInsert (r.trim firstIndex data) r.unassembledSubstrings)
  match entries with
  | [] => { r with unassembledSubstrings := [] }
  | (key, substring) :: rest =>
    if key = r.nextByteIndex then
      let output := r.output.push substring
      let output := if key + length substring - 1 = r.lastByte then output.close else output
      { r with output, unassembledSubstrings := rest }
    else { r with unassembledSubstrings := (key, substring) :: rest }

/-- `insert( first_index, data, is_last_substring )` -/
def insert (r : Reassembler) (firstIndex : UInt64) (data : Bytes) (isLastSubstring : Bool) :
    Reassembler :=
  if data.isEmpty ∧ isLastSubstring ∧ firstIndex = r.nextByteIndex then
    { r with output := r.output.close }
  else
    let r := if isLastSubstring then { r with lastByte := firstIndex + length data - 1 } else r
    if firstIndex < r.nextByteIndex + r.availableCapacity ∧
        firstIndex + length data > r.nextByteIndex then
      r.store firstIndex data
    else r

/-- How many bytes are stored in the reassembler itself? -/
def countBytesPending (r : Reassembler) : UInt64 :=
  (r.unassembledSubstrings.map fun e => length e.2).sum

/-! ### Entries as blocks -/

open IntervalMap

/-- An entry of the multimap as a block of bytes at a position. -/
def block (e : UInt64 × Bytes) : ℕ × Bytes := (e.1.toNat, e.2)

/-- A substring takes its place behind those with the same index. -/
theorem blocks_multimapInsert (e : UInt64 × Bytes) (l : List (UInt64 × Bytes)) :
    (multimapInsert e l).map block = insertSorted (block e) (l.map block) := by
  induction l with
  | nil => rfl
  | cons x l ih =>
    have hlt : (block e).1 < (block x).1 ↔ e.1 < x.1 := UInt64.lt_iff_toNat_lt.symm
    simp only [multimapInsert, insertSorted, List.map_cons, hlt]
    split
    · rfl
    · rw [List.map_cons, ih]

/-- The end of an entry, computed in `uint64_t`. -/
theorem toNat_end {e : UInt64 × Bytes} (h : stop (block e) < 2 ^ 64) :
    (e.1 + length e.2).toNat = stop (block e) := by
  have hstop : stop (block e) = e.1.toNat + e.2.length := rfl
  have hlen : (length e.2).toNat = e.2.length := toNat_ofNat_of_lt (by omega)
  rw [toNat_add_of_lt (by omega), hlen, hstop]

/-- The next entry begins in the one before it, or right behind it. -/
theorem touches_iff {it next : UInt64 × Bytes} (hit : stop (block it) < 2 ^ 64) :
    it.1 + length it.2 ≥ next.1 ↔ (block next).1 ≤ stop (block it) := by
  rw [ge_iff_le, UInt64.le_iff_toNat_le, toNat_end hit]
  rfl

/-- The next entry ends where the one before it ends, or earlier. -/
theorem inside_iff {it next : UInt64 × Bytes} (hit : stop (block it) < 2 ^ 64)
    (hnext : stop (block next) < 2 ^ 64) :
    it.1 + length it.2 ≥ next.1 + length next.2 ↔ stop (block next) ≤ stop (block it) := by
  rw [ge_iff_le, UInt64.le_iff_toNat_le, toNat_end hit, toNat_end hnext]

/-- The overlap of two entries that touch does not wrap around. -/
theorem toNat_overlap {it next : UInt64 × Bytes} (hit : stop (block it) < 2 ^ 64)
    (htouch : (block next).1 ≤ stop (block it)) :
    (it.1 + length it.2 - next.1).toNat = stop (block it) - (block next).1 := by
  rw [UInt64.toNat_sub_of_le _ _ ((touches_iff hit).mpr htouch), toNat_end hit]
  rfl

/-- Where no index overflows, the loop merges as intervals of numbers merge. -/
theorem blocks_mergeLoop {it : UInt64 × Bytes} {l : List (UInt64 × Bytes)}
    (hit : stop (block it) < 2 ^ 64) (hl : ∀ e ∈ l, stop (block e) < 2 ^ 64) :
    (mergeLoop it l).map block = mergeInto (block it) (l.map block) := by
  induction l generalizing it with
  | nil => rfl
  | cons next rest ih =>
    have hnext := hl next List.mem_cons_self
    have hrest : ∀ e ∈ rest, stop (block e) < 2 ^ 64 :=
      fun e he => hl e (List.mem_cons_of_mem next he)
    simp only [mergeLoop, mergeInto, List.map_cons, touches_iff hit, inside_iff hit hnext]
    split
    · rename_i htouch
      split
      · exact ih hit hrest
      · rename_i hlonger
        -- the overlap starts inside the next entry
        rw [toNat_overlap hit htouch]
        have hjoin : stop (block (it.1, it.2 ++ next.2.drop (stop (block it) - (block next).1)))
            = stop (block next) := stop_join htouch (not_le.mp hlonger)
        exact ih (by omega) hrest
    · rw [List.map_cons, ih hnext hrest]

/-- The merging pass of the code is the merging pass on blocks. -/
theorem blocks_mergeSubstrings {l : List (UInt64 × Bytes)}
    (hl : ∀ e ∈ l, stop (block e) < 2 ^ 64) :
    (mergeSubstrings l).map block = merge (l.map block) := by
  match l with
  | [] => rfl
  | [e] => rfl
  | it :: next :: rest =>
    exact blocks_mergeLoop (hl it List.mem_cons_self)
      (fun e he => hl e (List.mem_cons_of_mem it he))

/-- The blocks that wait. -/
def waiting (r : Reassembler) : List (ℕ × Bytes) := r.unassembledSubstrings.map block

/-- The invariant: what waits lies beyond the next index and within the capacity, with gaps in
    between. -/
structure WF (r : Reassembler) : Prop where
  output : r.output.WF
  separated : Separated r.waiting
  next_lt : ∀ e ∈ r.waiting, r.nextByteIndex.toNat < e.1
  stop_le : ∀ e ∈ r.waiting, stop e ≤ r.nextByteIndex.toNat + r.availableCapacity.toNat

/-- A reassembler on a fresh stream. -/
theorem WF.new {output : ByteStream} (h : output.WF) : (new output).WF where
  output := h
  separated := List.Pairwise.nil
  next_lt := by simp [waiting, Reassembler.new]
  stop_le := by simp [waiting, Reassembler.new]

/-- The number of bytes pending is the number of positions that wait. -/
theorem toNat_countBytesPending {r : Reassembler} (h : r.WF)
    (hroom : r.nextByteIndex.toNat + r.availableCapacity.toNat < 2 ^ 64) :
    r.countBytesPending.toNat = (covers r.waiting).ncard := by
  obtain ⟨-, hcard⟩ := h.separated.ncard_covers
  -- what waits lies within the window, so that its number fits in 64 bits
  have hbound : (covers r.waiting).ncard < 2 ^ 64 := by
    have hsub : covers r.waiting
        ⊆ Set.Iio (r.nextByteIndex.toNat + r.availableCapacity.toNat) := by
      intro i hi
      obtain ⟨e, he, -, hlt⟩ := mem_covers.mp hi
      exact lt_of_lt_of_le hlt (h.stop_le e he)
    have hle := Set.ncard_le_ncard hsub (Set.finite_Iio _)
    rw [← Finset.coe_Iio, Set.ncard_coe_finset, Nat.card_Iio] at hle
    omega
  -- the sum that the code takes modulo `2 ^ 64`
  have hsum : ∀ l : List (UInt64 × Bytes), (l.map fun e => length e.2).sum
      = UInt64.ofNat ((l.map block).map fun e => e.2.length).sum := by
    intro l
    induction l with
    | nil => rfl
    | cons e l ih =>
      rw [List.map_cons, List.sum_cons, ih, List.map_cons, List.map_cons, List.sum_cons,
        UInt64.ofNat_add]
      rfl
  rw [hcard] at hbound ⊢
  rw [countBytesPending, hsum]
  exact toNat_ofNat_of_lt hbound

/-! ### Storing a substring -/

/-- **Trimming.** What is kept of a substring is what it has between the next index and the end
    of the available capacity. -/
theorem trim_spec {r : Reassembler} {f : UInt64} {d : Bytes}
    (hroom : r.nextByteIndex.toNat + r.availableCapacity.toNat < 2 ^ 64)
    (hlen : f.toNat + d.length < 2 ^ 64)
    (hf : f.toNat < r.nextByteIndex.toNat + r.availableCapacity.toNat)
    (hend : r.nextByteIndex.toNat < f.toNat + d.length) :
    (block (r.trim f d)).1 = max f.toNat r.nextByteIndex.toNat ∧
      stop (block (r.trim f d)) = min (f.toNat + d.length)
        (r.nextByteIndex.toNat + r.availableCapacity.toNat) ∧
      ∀ i b, At (block (r.trim f d)) i b → At (f.toNat, d) i b := by
  have hd : (length d).toNat = d.length := toNat_ofNat_of_lt (by omega)
  have hroom' : (r.nextByteIndex + r.availableCapacity).toNat
      = r.nextByteIndex.toNat + r.availableCapacity.toNat := toNat_add_of_lt hroom
  set key := if f ≥ r.nextByteIndex then f else r.nextByteIndex with hkey
  have hkeyNat : key.toNat = max f.toNat r.nextByteIndex.toNat := by
    rw [hkey]
    by_cases hle : f ≥ r.nextByteIndex
    · rw [if_pos hle, max_eq_left (UInt64.le_iff_toNat_le.mp hle)]
    · rw [if_neg hle, max_eq_right (UInt64.lt_iff_toNat_lt.mp (UInt64.not_le.mp hle)).le]
  have hskip : (key - f).toNat = key.toNat - f.toNat :=
    UInt64.toNat_sub_of_le _ _ (by rw [UInt64.le_iff_toNat_le, hkeyNat]; exact le_max_left _ _)
  have hleft : (r.nextByteIndex + r.availableCapacity - key).toNat
      = r.nextByteIndex.toNat + r.availableCapacity.toNat - key.toNat := by
    rw [UInt64.toNat_sub_of_le, hroom']
    rw [UInt64.le_iff_toNat_le, hroom', hkeyNat]
    omega
  -- no difference that the code takes wraps around
  have htrim : block (r.trim f d) = (key.toNat, (d.drop (key.toNat - f.toNat)).take
      (min d.length (r.nextByteIndex.toNat + r.availableCapacity.toNat - key.toNat))) := by
    rw [trim, ← hkey, block]
    simp only [UInt64.toNat_min, hd, hleft, hskip]
  refine ⟨by rw [htrim, hkeyNat], ?_, ?_⟩
  · rw [htrim, stop]
    simp only [List.length_take, List.length_drop]
    omega
  · rw [htrim]
    rintro i b ⟨hle, hb⟩
    dsimp only at hle hb
    rw [List.getElem?_take] at hb
    split at hb
    · rw [List.getElem?_drop] at hb
      refine ⟨by omega, ?_⟩
      show d[i - f.toNat]? = some b
      rw [← hb]
      congr 1
      omega
    · cases hb

/-- Storing the substring `d` at `f` takes the reassembler from `r` to `r'` and writes the bytes
    `written` to the output. -/
structure Stored (r : Reassembler) (f : ℕ) (d : Bytes) (r' : Reassembler) (written : Bytes) :
    Prop where
  wf : r'.WF
  contents_eq : r'.output.contents = r.output.contents ++ written
  next_eq : r'.nextByteIndex.toNat = r.nextByteIndex.toNat + written.length
  available_eq : r'.availableCapacity.toNat + written.length = r.availableCapacity.toNat
  error_eq : r'.output.error = r.output.error
  capacity_eq : r'.output.capacity = r.output.capacity
  popped_eq : r'.output.bytePopped = r.output.bytePopped
  lastByte_eq : r'.lastByte = r.lastByte
  written_from : ∀ i b, written[i]? = some b →
    Holds r.waiting (r.nextByteIndex.toNat + i) b ∨ At (f, d) (r.nextByteIndex.toNat + i) b
  held_from : ∀ i b, Holds r'.waiting i b → Holds r.waiting i b ∨ At (f, d) i b
  covers_eq : covers r'.waiting
      ∪ Set.Ico r.nextByteIndex.toNat (r.nextByteIndex.toNat + written.length)
    = covers r.waiting ∪ (Set.Ico f (f + d.length) ∩ Set.Ico r.nextByteIndex.toNat
      (r.nextByteIndex.toNat + r.availableCapacity.toNat))
  eof_iff : r'.output.eof = true ↔ r.output.eof = true ∨
    f ≤ r.nextByteIndex.toNat ∧ r'.nextByteIndex - 1 = r.lastByte

/-- What the merging pass makes of the blocks waiting and a trimmed substring. -/
structure Merged (r : Reassembler) (f : ℕ) (d : Bytes) (e : UInt64 × Bytes)
    (rest : List (UInt64 × Bytes)) : Prop where
  separated : Separated (block e :: rest.map block)
  bounds : ∀ x ∈ block e :: rest.map block, r.nextByteIndex.toNat ≤ x.1 ∧
    stop x ≤ r.nextByteIndex.toNat + r.availableCapacity.toNat
  start_iff : e.1 = r.nextByteIndex ↔ f ≤ r.nextByteIndex.toNat
  holds : ∀ i b, Holds (block e :: rest.map block) i b → Holds r.waiting i b ∨ At (f, d) i b
  covers_eq : covers (block e :: rest.map block)
    = covers r.waiting ∪ (Set.Ico f (f + d.length)
      ∩ Set.Ico r.nextByteIndex.toNat (r.nextByteIndex.toNat + r.availableCapacity.toNat))

/-- What comes first after a substring was stored and the waiting ones merged. -/
theorem merge_spec {r : Reassembler} (h : r.WF) {f : UInt64} {d : Bytes}
    (hroom : r.nextByteIndex.toNat + r.availableCapacity.toNat < 2 ^ 64)
    (hlen : f.toNat + d.length < 2 ^ 64)
    (hf : f.toNat < r.nextByteIndex.toNat + r.availableCapacity.toNat)
    (hend : r.nextByteIndex.toNat < f.toNat + d.length) :
    ∃ e rest, mergeSubstrings (multimapInsert (r.trim f d) r.unassembledSubstrings) = e :: rest ∧
      Merged r f.toNat d e rest := by
  obtain ⟨hstart, hstop, hat⟩ := trim_spec hroom hlen hf hend
  set inserted := insertSorted (block (r.trim f d)) r.waiting with hinserted
  have hsorted : Sorted inserted := h.separated.sorted.insertSorted
  have hbounds : ∀ x ∈ inserted, (x.1 = max f.toNat r.nextByteIndex.toNat ∨
      r.nextByteIndex.toNat < x.1) ∧
      stop x ≤ r.nextByteIndex.toNat + r.availableCapacity.toNat := by
    intro x hx
    rcases mem_insertSorted.mp hx with rfl | hx
    · exact ⟨.inl hstart, by omega⟩
    · exact ⟨.inr (h.next_lt x hx), h.stop_le x hx⟩
  have hmerge : (mergeSubstrings (multimapInsert (r.trim f d) r.unassembledSubstrings)).map block
      = merge inserted := by
    rw [hinserted, waiting, ← blocks_multimapInsert]
    apply blocks_mergeSubstrings
    intro x hx
    have hmem : block x ∈ inserted := by
      rw [hinserted, waiting, ← blocks_multimapInsert]
      exact List.mem_map_of_mem hx
    have := (hbounds (block x) hmem).2
    omega
  have htrim : block (r.trim f d) ∈ inserted := mem_insertSorted.mpr (.inl rfl)
  obtain ⟨y, t, hy, hle⟩ := hsorted.exists_merge_eq htrim
  have hlist := hmerge.trans hy
  obtain ⟨e, rest, heq, rfl, rfl⟩ := List.map_eq_cons_iff.mp hlist
  have hbounds' : ∀ x ∈ block e :: rest.map block,
      (x.1 = max f.toNat r.nextByteIndex.toNat ∨ r.nextByteIndex.toNat < x.1) ∧
        stop x ≤ r.nextByteIndex.toNat + r.availableCapacity.toNat := by
    intro x hx
    rw [← hy] at hx
    obtain ⟨⟨u, hu, hustart⟩, v, hv, hvstop⟩ := bounds_of_mem_merge hx
    exact ⟨hustart ▸ (hbounds u hu).1, hvstop ▸ (hbounds v hv).2⟩
  refine ⟨e, rest, heq, ?_⟩
  constructor
  case separated => exact hy ▸ merge_separated inserted
  case bounds =>
    intro x hx
    have := hbounds' x hx
    omega
  case start_iff =>
    -- the entry of the substring starts at the next index iff nothing of it lies further on
    have := (hbounds' (block e) List.mem_cons_self).1
    rw [← UInt64.toNat_inj, show e.1.toNat = (block e).1 from rfl]
    omega
  case holds =>
    intro i b hb
    rw [← hy] at hb
    rcases holds_insertSorted.mp (holds_of_merge hb) with hb | hb
    · exact .inr (hat i b hb)
    · exact .inl hb
  case covers_eq =>
    rw [← hy, covers_merge hsorted, hinserted, covers_insertSorted, hstart, hstop, Set.union_comm,
      Set.Ico_inter_Ico]

/-- Pushing a substring for which there is room, and closing the output if it was the last. -/
theorem output_spec {r : Reassembler} (h : r.output.WF) {substring : Bytes}
    (hroom : r.nextByteIndex.toNat + r.availableCapacity.toNat < 2 ^ 64)
    (heof : r.output.eof = false) (hfits : substring.length ≤ r.availableCapacity.toNat)
    (last : Prop) [Decidable last] {output : ByteStream}
    (houtput : (if last then (r.output.push substring).close else r.output.push substring)
      = output) :
    output.WF ∧ output.contents = r.output.contents ++ substring ∧
      output.bytePushed = r.nextByteIndex + length substring ∧
      output.bytePushed.toNat = r.nextByteIndex.toNat + substring.length ∧
      output.availableCapacity.toNat + substring.length = r.availableCapacity.toNat ∧
      output.error = r.output.error ∧ output.capacity = r.output.capacity ∧
      output.bytePopped = r.output.bytePopped ∧ (output.eof = true ↔ last) := by
  have hacc : r.output.accepted substring = substring := by
    rw [ByteStream.accepted, heof, if_neg (by simp)]
    exact List.take_of_length_le hfits
  obtain ⟨hwf, hcont, hcap, heof', herr, hpop, hpush⟩ := ByteStream.push_spec h substring
  rw [hacc] at hcont hpush
  have hnext : (r.output.push substring).bytePushed = r.nextByteIndex + length substring := hpush
  have hnextNat : (r.output.push substring).bytePushed.toNat
      = r.nextByteIndex.toNat + substring.length := by
    have hsub : (length substring).toNat = substring.length := toNat_ofNat_of_lt (by omega)
    rw [hnext, toNat_add_of_lt (by omega), hsub]
  have havail : (r.output.push substring).availableCapacity.toNat + substring.length
      = r.availableCapacity.toNat := by
    have hbefore := ByteStream.length_contents h
    have hafter := ByteStream.length_contents hwf
    rw [hcont, hcap, List.length_append] at hafter
    rw [availableCapacity]
    omega
  -- closing changes the flag only
  subst houtput
  split
  · rename_i hlast
    exact ⟨hwf.close, hcont, hnext, hnextNat, havail, herr, hcap, hpop, iff_of_true rfl hlast⟩
  · rename_i hlast
    refine ⟨hwf, hcont, hnext, hnextNat, havail, herr, hcap, hpop, iff_of_false ?_ hlast⟩
    rw [heof', heof]
    exact Bool.false_ne_true

/-- The first entry has become writable. -/
theorem Merged.stored_written {r : Reassembler} {f : ℕ} {d substring : Bytes}
    {rest : List (UInt64 × Bytes)} (hm : Merged r f d (r.nextByteIndex, substring) rest) (h : r.WF)
    (hroom : r.nextByteIndex.toNat + r.availableCapacity.toNat < 2 ^ 64)
    (heof : r.output.eof = false) {output : ByteStream}
    (houtput : (if r.nextByteIndex + length substring - 1 = r.lastByte
      then (r.output.push substring).close else r.output.push substring) = output) :
    Stored r f d { r with output, unassembledSubstrings := rest } substring := by
  have hstop : r.nextByteIndex.toNat + substring.length
      ≤ r.nextByteIndex.toNat + r.availableCapacity.toNat :=
    (hm.bounds _ List.mem_cons_self).2
  obtain ⟨hwf, hcont, hpush, hpushNat, havail, herr, hcap, hpop, heof'⟩ :=
    output_spec h.output hroom heof (Nat.add_le_add_iff_left.mp hstop) _ houtput
  constructor
  case wf =>
    refine ⟨hwf, hm.separated.tail, ?_, ?_⟩
    · intro e he
      have hgap := (List.pairwise_cons.mp hm.separated).1 e he
      exact lt_of_eq_of_lt hpushNat hgap
    · intro e he
      have hle := (hm.bounds e (List.mem_cons_of_mem _ he)).2
      show stop e ≤ output.bytePushed.toNat + output.availableCapacity.toNat
      rw [hpushNat]
      omega
  case contents_eq => exact hcont
  case next_eq => exact hpushNat
  case available_eq => exact havail
  case error_eq => exact herr
  case capacity_eq => exact hcap
  case popped_eq => exact hpop
  case lastByte_eq => rfl
  case written_from =>
    intro i b hb
    apply hm.holds
    rw [holds_cons]
    refine .inl ⟨Nat.le_add_right _ _, ?_⟩
    show substring[r.nextByteIndex.toNat + i - r.nextByteIndex.toNat]? = some b
    rw [Nat.add_sub_cancel_left, hb]
  case held_from => exact fun i b hb => hm.holds i b (holds_cons.mpr (.inr hb))
  case covers_eq =>
    rw [← hm.covers_eq, covers_cons, Set.union_comm]
    rfl
  case eof_iff =>
    rw [iff_true_intro (hm.start_iff.mp rfl), true_and, heof, or_iff_right Bool.false_ne_true]
    show output.eof = true ↔ output.bytePushed - 1 = r.lastByte
    rw [hpush]
    exact heof'

/-- Nothing has become writable. -/
theorem Merged.stored_waiting {r : Reassembler} {f : ℕ} {d : Bytes} {e : UInt64 × Bytes}
    {rest : List (UInt64 × Bytes)} (hm : Merged r f d e rest) (h : r.WF)
    (hnext : e.1 ≠ r.nextByteIndex) :
    Stored r f d { r with unassembledSubstrings := e :: rest } [] := by
  have hpast : ¬ f ≤ r.nextByteIndex.toNat := fun hle => hnext (hm.start_iff.mpr hle)
  have hfirst : r.nextByteIndex.toNat < (block e).1 :=
    lt_of_le_of_ne (hm.bounds _ List.mem_cons_self).1
      fun heq => hnext (UInt64.toNat_inj.mp heq.symm)
  constructor
  case wf =>
    refine ⟨h.output, hm.separated, ?_, fun x hx => (hm.bounds x hx).2⟩
    intro x hx
    rcases List.mem_cons.mp hx with rfl | hx
    · exact hfirst
    · exact lt_of_lt_of_le hfirst ((List.pairwise_cons.mp hm.separated.sorted).1 x hx)
  case written_from => simp
  case held_from => exact hm.holds
  case covers_eq =>
    rw [List.length_nil, add_zero, Set.Ico_self, Set.union_empty]
    exact hm.covers_eq
  case eof_iff => exact (or_iff_left fun hle => hpast hle.1).symm
  case contents_eq => exact (List.append_nil _).symm
  all_goals rfl

/-- **Storing.** What has become writable is written, and the rest waits. -/
theorem store_spec {r : Reassembler} (h : r.WF) {f : UInt64} {d : Bytes}
    (hroom : r.nextByteIndex.toNat + r.availableCapacity.toNat < 2 ^ 64)
    (hopen : f.toNat ≤ r.nextByteIndex.toNat → r.output.eof = false)
    (hlen : f.toNat + d.length < 2 ^ 64)
    (hf : f.toNat < r.nextByteIndex.toNat + r.availableCapacity.toNat)
    (hend : r.nextByteIndex.toNat < f.toNat + d.length) :
    ∃ written, Stored r f.toNat d (r.store f d) written := by
  obtain ⟨⟨key, substring⟩, rest, heq, hmerged⟩ := merge_spec h hroom hlen hf hend
  rw [store, heq]
  dsimp only
  by_cases hnext : key = r.nextByteIndex
  · have heof : r.output.eof = false := hopen (hmerged.start_iff.mp hnext)
    rw [if_pos hnext]
    subst hnext
    exact ⟨substring, hmerged.stored_written h hroom heof rfl⟩
  · rw [if_neg hnext]
    exact ⟨[], hmerged.stored_waiting h hnext⟩

/-! ### Inserting -/

/-- The end of the stream is noted as soon as the last substring is seen. -/
def noteLast (r : Reassembler) (firstIndex : UInt64) (data : Bytes) (isLastSubstring : Bool) :
    Reassembler :=
  if isLastSubstring then { r with lastByte := firstIndex + length data - 1 } else r

/-- Noting an end changes nothing that waits. -/
theorem WF.noteLast {r : Reassembler} (h : r.WF) (f : UInt64) (d : Bytes) (last : Bool) :
    (r.noteLast f d last).WF := by
  rw [Reassembler.noteLast]
  split
  · exact ⟨h.output, h.separated, h.next_lt, h.stop_le⟩
  · exact h

@[simp] theorem output_noteLast (r : Reassembler) (f : UInt64) (d : Bytes) (last : Bool) :
    (r.noteLast f d last).output = r.output := by
  unfold noteLast
  split <;> rfl

@[simp] theorem waiting_noteLast (r : Reassembler) (f : UInt64) (d : Bytes) (last : Bool) :
    (r.noteLast f d last).waiting = r.waiting := by
  unfold noteLast
  split <;> rfl

@[simp] theorem nextByteIndex_noteLast (r : Reassembler) (f : UInt64) (d : Bytes) (last : Bool) :
    (r.noteLast f d last).nextByteIndex = r.nextByteIndex := by
  simp [nextByteIndex]

@[simp] theorem availableCapacity_noteLast (r : Reassembler) (f : UInt64) (d : Bytes)
    (last : Bool) : (r.noteLast f d last).availableCapacity = r.availableCapacity := by
  simp [availableCapacity]

/-- Unless the output is closed at once, the test is made after the last substring was noted. -/
theorem insert_eq {r : Reassembler} {f : UInt64} {d : Bytes} {last : Bool}
    (hclose : ¬ (d.isEmpty = true ∧ last = true ∧ f = r.nextByteIndex)) :
    r.insert f d last =
      if f < r.nextByteIndex + r.availableCapacity ∧ f + length d > r.nextByteIndex then
        (r.noteLast f d last).store f d
      else r.noteLast f d last := by
  rw [← nextByteIndex_noteLast r f d last, ← availableCapacity_noteLast r f d last]
  unfold insert
  rw [if_neg hclose]
  rfl

/-- What a call of `insert` can do. -/
inductive InsertCase (r : Reassembler) (f : UInt64) (d : Bytes) (last : Bool) :
    Reassembler → Prop where
  /-- An empty last substring at the next index closes the stream. -/
  | closed (hd : d = []) (hlast : last = true) (hf : f = r.nextByteIndex) :
      InsertCase r f d last { r with output := r.output.close }
  | stored {r' : Reassembler} {written : Bytes}
      (hf : f.toNat < r.nextByteIndex.toNat + r.availableCapacity.toNat)
      (hend : r.nextByteIndex.toNat < f.toNat + d.length)
      (hstored : Stored (r.noteLast f d last) f.toNat d r' written) : InsertCase r f d last r'
  /-- Nothing of the substring is new, or nothing fits. -/
  | discarded (hnot : ¬ (d = [] ∧ last = true ∧ f = r.nextByteIndex))
      (hout : r.nextByteIndex.toNat + r.availableCapacity.toNat ≤ f.toNat ∨
        f.toNat + d.length ≤ r.nextByteIndex.toNat) :
      InsertCase r f d last (r.noteLast f d last)

/-- **Inserting.**  The conditions say that the indices involved fit in 64 bits and that nothing
    is written after the close. -/
theorem insert_cases {r : Reassembler} (h : r.WF) {f : UInt64} {d : Bytes} {last : Bool}
    (hroom : r.nextByteIndex.toNat + r.availableCapacity.toNat < 2 ^ 64)
    (hlen : f.toNat < r.nextByteIndex.toNat + r.availableCapacity.toNat →
      f.toNat + d.length < 2 ^ 64)
    (hopen : f.toNat ≤ r.nextByteIndex.toNat → r.nextByteIndex.toNat < f.toNat + d.length →
      r.output.eof = false) :
    InsertCase r f d last (r.insert f d last) := by
  have hempty : (d.isEmpty = true ∧ last = true ∧ f = r.nextByteIndex)
      ↔ (d = [] ∧ last = true ∧ f = r.nextByteIndex) := by
    rw [List.isEmpty_iff]
  by_cases hclose : d = [] ∧ last = true ∧ f = r.nextByteIndex
  · unfold insert
    rw [if_pos (hempty.mpr hclose)]
    exact .closed hclose.1 hclose.2.1 hclose.2.2
  rw [insert_eq (fun h => hclose (hempty.mp h))]
  have hroom' : (r.nextByteIndex + r.availableCapacity).toNat
      = r.nextByteIndex.toNat + r.availableCapacity.toNat := toNat_add_of_lt hroom
  by_cases hf : f.toNat < r.nextByteIndex.toNat + r.availableCapacity.toNat
  · have hd : (length d).toNat = d.length := toNat_ofNat_of_lt (by have := hlen hf; omega)
    have hend' : (f + length d).toNat = f.toNat + d.length := by
      rw [toNat_add_of_lt (by rw [hd]; exact hlen hf), hd]
    simp only [UInt64.lt_iff_toNat_lt, gt_iff_lt, hroom', hend', hf, true_and]
    by_cases hend : r.nextByteIndex.toNat < f.toNat + d.length
    · rw [if_pos hend]
      obtain ⟨written, hstored⟩ := store_spec (h.noteLast f d last) (by simpa using hroom)
        (fun hle => by simpa using hopen (by simpa using hle) hend) (hlen hf) (by simpa using hf)
        (by simpa using hend)
      exact .stored hf hend hstored
    · rw [if_neg hend]
      exact .discarded hclose (.inr (not_lt.mp hend))
  · have hbeyond : ¬ f < r.nextByteIndex + r.availableCapacity := by
      rw [UInt64.lt_iff_toNat_lt, hroom']
      exact hf
    rw [if_neg (fun hboth => hbeyond hboth.1)]
    exact .discarded hclose (.inl (not_lt.mp hf))

/-! ### Reading -/

/-- The reader takes bytes off the output, which makes room. -/
theorem room_readFrom {r : Reassembler} (h : r.output.WF) {reader : ByteStream} {out : Bytes}
    (hread : ByteStream.ReadFrom r.output reader out) :
    r.availableCapacity.toNat + out.length = reader.availableCapacity.toNat := by
  have hbefore := ByteStream.length_contents h
  have hafter := ByteStream.length_contents hread.wf
  rw [hread.contents_eq, List.length_append, ← hread.capacity_eq] at hbefore
  rw [availableCapacity]
  omega

/-- The reader takes bytes off the output: the window moves on, and nothing else does. -/
theorem WF.readFrom {r : Reassembler} (h : r.WF) {reader : ByteStream} {out : Bytes}
    (hread : ByteStream.ReadFrom r.output reader out) :
    ({ r with output := reader } : Reassembler).WF := by
  have hnext : reader.bytePushed.toNat = r.nextByteIndex.toNat := congrArg _ hread.pushed_eq
  have hroom := room_readFrom h.output hread
  refine ⟨hread.wf, h.separated, fun e he => ?_, fun e he => ?_⟩
  · show reader.bytePushed.toNat < e.1
    rw [hnext]
    exact h.next_lt e he
  · have hstop := h.stop_le e he
    show stop e ≤ reader.bytePushed.toNat + reader.availableCapacity.toNat
    omega

/-- Reading from the stream changes nothing that waits. -/
theorem WF.pop {r : Reassembler} (h : r.WF) (len : UInt64) :
    ({ r with output := r.output.pop len } : Reassembler).WF :=
  h.readFrom (ByteStream.readFrom_pop h.output len)

end Reassembler

end Minnow
