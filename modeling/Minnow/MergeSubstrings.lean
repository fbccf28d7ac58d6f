import Minnow.Parser
import Minnow.Reassembler

namespace Minnow

/-!
# The merging pass with its checks

The loop of `merge_substrings` on its two iterators, with an error for each way in which it could
go wrong: a pass too many, and an overlap that begins beyond the end of the next substring.

* `Reassembler.mergeSubstringsChecked_eq` — neither happens while no entry reaches beyond `2^64`;
* `Reassembler.merge_normalises` — what is left has gaps in between, and the bytes there were.
-/

namespace Reassembler

open IntervalMap

/-- The loop of `merge_substrings`, for `fuel` passes: `done` lies before `it`, `next` behind. -/
def mergeLoopChecked : ℕ → List (UInt64 × Bytes) → UInt64 × Bytes → List (UInt64 × Bytes) →
    Except StdException (List (UInt64 × Bytes))
  | _, done, it, [] => .ok (done ++ [it])
  | 0, _, _, _ :: _ => .error (.undefinedBehaviour "the loop goes on")
  | fuel + 1, done, it, next :: rest =>
    if it.1 + length it.2 ≥ next.1 then
      if it.1 + length it.2 ≥ next.1 + length next.2 then mergeLoopChecked fuel done it rest
      else do
        let overlapIndex := it.1 + length it.2 - next.1
        let tail ← substr next.2 overlapIndex.toNat
        mergeLoopChecked fuel done (it.1, it.2 ++ tail) rest
    else mergeLoopChecked fuel (done ++ [it]) next rest

/-- `merge_substrings`, with as many passes as there are entries behind the first. -/
def mergeSubstringsChecked (entries : List (UInt64 × Bytes)) :
    Except StdException (List (UInt64 × Bytes)) :=
  match entries with
  | it :: next :: rest => mergeLoopChecked (rest.length + 1) [] it (next :: rest)
  | short => .ok short

/-- The entries do not reach beyond `2^64`. -/
def InRange (entries : List (UInt64 × Bytes)) : Prop :=
  ∀ e ∈ entries, e.1.toNat + e.2.length < 2 ^ 64

/-- Entries that are joined reach as far as the second did. -/
theorem stop_joined {it next : UInt64 × Bytes} (hit : stop (block it) < 2 ^ 64)
    (hnext : stop (block next) < 2 ^ 64) (htouch : it.1 + length it.2 ≥ next.1)
    (hlonger : ¬ it.1 + length it.2 ≥ next.1 + length next.2) :
    (it.1 + length it.2 - next.1).toNat ≤ next.2.length ∧
      stop (block (it.1, it.2 ++ next.2.drop (it.1 + length it.2 - next.1).toNat))
        = stop (block next) := by
  rw [touches_iff hit] at htouch
  rw [inside_iff hit hnext, not_le] at hlonger
  rw [toNat_overlap hit htouch]
  refine ⟨?_, stop_join htouch hlonger⟩
  have hstop : stop (block next) = (block next).1 + next.2.length := rfl
  omega

/-- **Every pass erases an entry or goes past one**, and no overlap begins beyond the next
    substring. -/
theorem mergeLoopChecked_eq (fuel : ℕ) (done : List (UInt64 × Bytes)) (it : UInt64 × Bytes)
    (rest : List (UInt64 × Bytes)) (hfuel : rest.length ≤ fuel)
    (hit : stop (block it) < 2 ^ 64) (hrest : ∀ e ∈ rest, stop (block e) < 2 ^ 64) :
    mergeLoopChecked fuel done it rest = .ok (done ++ mergeLoop it rest) := by
  fun_induction mergeLoopChecked fuel done it rest with
  | case1 => rfl
  | case2 => cases hfuel
  | case3 fuel done it next rest htouch hinside ih =>
    rw [ih (Nat.le_of_succ_le_succ hfuel) hit (List.forall_mem_cons.mp hrest).2, mergeLoop,
      if_pos htouch, if_pos hinside]
  | case4 fuel done it next rest htouch hlonger overlapIndex ih =>
    obtain ⟨hnext, hrest⟩ := List.forall_mem_cons.mp hrest
    obtain ⟨hle, hstop⟩ := stop_joined hit hnext htouch hlonger
    rw [BufferList.substr_eq_ok hle, mergeLoop, if_pos htouch, if_neg hlonger]
    exact ih _ (Nat.le_of_succ_le_succ hfuel) (by omega) hrest
  | case5 fuel done it next rest hgap ih =>
    obtain ⟨hnext, hrest⟩ := List.forall_mem_cons.mp hrest
    rw [ih (Nat.le_of_succ_le_succ hfuel) hnext hrest, mergeLoop, if_neg hgap, List.append_assoc]
    rfl

theorem mergeSubstringsChecked_eq {entries : List (UInt64 × Bytes)} (h : InRange entries) :
    mergeSubstringsChecked entries = .ok (mergeSubstrings entries) := by
  match entries with
  | [] => rfl
  | [e] => rfl
  | it :: next :: rest =>
    obtain ⟨hit, hrest⟩ := List.forall_mem_cons.mp h
    exact mergeLoopChecked_eq _ [] it _ le_rfl hit hrest

/-- **Merging** the entries of a multimap: it ends, with each entry before the next and a gap in
    between; the same indices are covered; and each byte is one that an entry had at its index. -/
theorem merge_normalises {entries : List (UInt64 × Bytes)}
    (hordered : entries.Pairwise fun e x => e.1 ≤ x.1) (hrange : InRange entries) :
    ∃ merged, mergeSubstringsChecked entries = .ok merged ∧
      (merged.Pairwise fun e x => e.1.toNat + e.2.length < x.1.toNat) ∧
      covers (merged.map block) = covers (entries.map block) ∧
      ∀ i b, Holds (merged.map block) i b → Holds (entries.map block) i b := by
  have hblocks := blocks_mergeSubstrings hrange
  have hsorted : Sorted (entries.map block) :=
    List.pairwise_map.mpr (hordered.imp UInt64.le_iff_toNat_le.mp)
  refine ⟨mergeSubstrings entries, mergeSubstringsChecked_eq hrange, ?_, ?_, ?_⟩
  · have hseparated := merge_separated (entries.map block)
    rw [← hblocks] at hseparated
    exact List.pairwise_map.mp hseparated
  · rw [hblocks, covers_merge hsorted]
  · rw [hblocks]
    exact fun i b => holds_of_merge

/-- Entries at one index, of which one is empty, some that touch or overlap, and one on its own. -/
theorem merge_normalises_five :
    mergeSubstringsChecked [(3, [1, 2]), (3, []), (5, [4]), (5, [3, 3, 5]), (9, [])]
        = .ok [(3, [1, 2, 4, 3, 5]), (9, [])] ∧
      covers ([(3, [1, 2, 4, 3, 5]), (9, [])].map block)
        = covers ([(3, [1, 2]), (3, []), (5, [4]), (5, [3, 3, 5]), (9, [])].map block) := by
  have hmerged : mergeSubstringsChecked [(3, [1, 2]), (3, []), (5, [4]), (5, [3, 3, 5]), (9, [])]
      = .ok [(3, [1, 2, 4, 3, 5]), (9, [])] := by decide
  have hrange : InRange [(3, [1, 2]), (3, []), (5, [4]), (5, [3, 3, 5]), (9, [])] := by
    unfold InRange
    decide
  obtain ⟨merged, hok, -, hcovers, -⟩ := merge_normalises (by decide) hrange
  obtain rfl := Except.ok.inj (hmerged.symm.trans hok)
  exact ⟨hmerged, hcovers⟩

end Reassembler

end Minnow
