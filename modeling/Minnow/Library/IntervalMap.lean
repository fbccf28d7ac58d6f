import Mathlib

/-!
# Library — data blocks at positions

A list of blocks, each a list of items with the position of its first item: a sparse buffer, the
out-of-order queue of a stream, the extents of a file.  Blocks may overlap and may be empty.

* `At`, `Holds`, `covers` — which item a block, or some block of a list, has at a position, and
  which positions a list has;
* `insertSorted` — insertion into a list kept in order of position;
* `merge` — one pass that joins blocks that overlap or touch.  `merge_separated`: what is left is
  separated by gaps; `covers_merge`, `holds_of_merge`: no position is lost, and no item invented;
* `Separated` — consequences of the gaps: an item is determined by its position, the number of
  positions is the sum of the lengths, and the first gap is the end of the first block.
-/

namespace IntervalMap

variable {α : Type*}

/-- The position just past a block. -/
def stop (e : ℕ × List α) : ℕ := e.1 + e.2.length

/-- The block `e` has the item `b` at position `i`. -/
def At (e : ℕ × List α) (i : ℕ) (b : α) : Prop := e.1 ≤ i ∧ e.2[i - e.1]? = some b

/-- Some block of the list has the item `b` at position `i`. -/
def Holds (l : List (ℕ × List α)) (i : ℕ) (b : α) : Prop := ∃ e ∈ l, At e i b

/-- The positions of the items of a list of blocks. -/
def covers (l : List (ℕ × List α)) : Set ℕ := {i | ∃ b, Holds l i b}

/-- A block does not end before it starts. -/
theorem start_le_stop (e : ℕ × List α) : e.1 ≤ stop e := Nat.le_add_right _ _

/-- A block has an item at each position from its start to its end. -/
theorem exists_at_iff {e : ℕ × List α} {i : ℕ} : (∃ b, At e i b) ↔ e.1 ≤ i ∧ i < stop e := by
  constructor
  · rintro ⟨b, hle, hb⟩
    obtain ⟨hlt, -⟩ := List.getElem?_eq_some_iff.mp hb
    rw [stop]
    omega
  · rintro ⟨hle, hlt⟩
    have hi : i - e.1 < e.2.length := by
      rw [stop] at hlt
      omega
    exact ⟨e.2[i - e.1], hle, List.getElem?_eq_getElem hi⟩

/-- The positions of a list are those between the starts and the ends of its blocks. -/
theorem mem_covers {l : List (ℕ × List α)} {i : ℕ} :
    i ∈ covers l ↔ ∃ e ∈ l, e.1 ≤ i ∧ i < stop e := by
  constructor
  · rintro ⟨b, e, he, hb⟩
    exact ⟨e, he, exists_at_iff.mp ⟨b, hb⟩⟩
  · rintro ⟨e, he, hi⟩
    obtain ⟨b, hb⟩ := exists_at_iff.mpr hi
    exact ⟨b, e, he, hb⟩

@[simp] theorem covers_nil : covers ([] : List (ℕ × List α)) = ∅ := by
  ext i
  simp [mem_covers]

/-- The positions of the first block, and those of the others. -/
theorem covers_cons (e : ℕ × List α) (l : List (ℕ × List α)) :
    covers (e :: l) = Set.Ico e.1 (stop e) ∪ covers l := by
  ext i
  simp [mem_covers]

/-- The items of the first block, and those of the others. -/
theorem holds_cons {e : ℕ × List α} {l : List (ℕ × List α)} {i : ℕ} {b : α} :
    Holds (e :: l) i b ↔ At e i b ∨ Holds l i b := by
  simp [Holds]

/-! ### Insertion -/

/-- The blocks are in order of position. -/
def Sorted (l : List (ℕ × List α)) : Prop := l.Pairwise fun e x => e.1 ≤ x.1

/-- Insert a block behind all blocks that do not start later. -/
def insertSorted (e : ℕ × List α) : List (ℕ × List α) → List (ℕ × List α)
  | [] => [e]
  | x :: l => if e.1 < x.1 then e :: x :: l else x :: insertSorted e l

/-- Inserting adds one block. -/
theorem mem_insertSorted {e x : ℕ × List α} {l : List (ℕ × List α)} :
    x ∈ insertSorted e l ↔ x = e ∨ x ∈ l := by
  induction l with
  | nil => simp [insertSorted]
  | cons y l ih =>
    rw [insertSorted]
    split
    · simp
    · simp only [List.mem_cons, ih]
      tauto

/-- Inserting keeps the order. -/
theorem Sorted.insertSorted {e : ℕ × List α} {l : List (ℕ × List α)} (h : Sorted l) :
    Sorted (insertSorted e l) := by
  induction l with
  | nil => simp [IntervalMap.insertSorted, Sorted]
  | cons x l ih =>
    obtain ⟨hx, hl⟩ := List.pairwise_cons.mp h
    rw [IntervalMap.insertSorted]
    split
    · rename_i hlt
      refine List.pairwise_cons.mpr ⟨?_, h⟩
      intro y hy
      rcases List.mem_cons.mp hy with rfl | hy
      · exact hlt.le
      · exact hlt.le.trans (hx y hy)
    · rename_i hge
      refine List.pairwise_cons.mpr ⟨?_, ih hl⟩
      intro y hy
      rcases mem_insertSorted.mp hy with rfl | hy
      · exact not_lt.mp hge
      · exact hx y hy

/-- Inserting adds the items of the block. -/
theorem holds_insertSorted {e : ℕ × List α} {l : List (ℕ × List α)} {i : ℕ} {b : α} :
    Holds (insertSorted e l) i b ↔ At e i b ∨ Holds l i b := by
  simp only [Holds, mem_insertSorted]
  constructor
  · rintro ⟨x, rfl | hx, hb⟩
    · exact .inl hb
    · exact .inr ⟨x, hx, hb⟩
  · rintro (hb | ⟨x, hx, hb⟩)
    · exact ⟨e, .inl rfl, hb⟩
    · exact ⟨x, .inr hx, hb⟩

/-- Inserting adds the positions of the block. -/
theorem covers_insertSorted (e : ℕ × List α) (l : List (ℕ × List α)) :
    covers (insertSorted e l) = Set.Ico e.1 (stop e) ∪ covers l := by
  ext i
  simp only [mem_covers, mem_insertSorted, Set.mem_union, Set.mem_Ico]
  constructor
  · rintro ⟨x, rfl | hx, hi⟩
    · exact .inl hi
    · exact .inr ⟨x, hx, hi⟩
  · rintro (hi | ⟨x, hx, hi⟩)
    · exact ⟨e, .inl rfl, hi⟩
    · exact ⟨x, .inr hx, hi⟩

/-! ### Merging -/

/-- Join the blocks of the list to `e` as long as they overlap it or touch it; then go on with
    the next block. -/
def mergeInto (e : ℕ × List α) : List (ℕ × List α) → List (ℕ × List α)
  | [] => [e]
  | x :: l =>
    if x.1 ≤ stop e then
      if stop x ≤ stop e then mergeInto e l
      else mergeInto (e.1, e.2 ++ x.2.drop (stop e - x.1)) l
    else e :: mergeInto x l

/-- One merging pass over a list of blocks. -/
def merge : List (ℕ × List α) → List (ℕ × List α)
  | [] => []
  | e :: l => mergeInto e l

/-- Consecutive blocks have at least one position between them. -/
def Separated (l : List (ℕ × List α)) : Prop := l.Pairwise fun e x => stop e < x.1

/-- The first block of the result starts where the first block did. -/
theorem exists_mergeInto_eq (e : ℕ × List α) (l : List (ℕ × List α)) :
    ∃ d t, mergeInto e l = (e.1, d) :: t := by
  induction l generalizing e with
  | nil => exact ⟨e.2, [], rfl⟩
  | cons x l ih =>
    rw [mergeInto]
    split
    · split
      · exact ih e
      · exact ih (e.1, _)
    · exact ⟨e.2, mergeInto x l, rfl⟩

/-- Merged neighbours do not touch. -/
theorem isChain_mergeInto (e : ℕ × List α) (l : List (ℕ × List α)) :
    (mergeInto e l).IsChain fun e x => stop e < x.1 := by
  induction l generalizing e with
  | nil => exact List.IsChain.singleton e
  | cons x l ih =>
    rw [mergeInto]
    split
    · split
      · exact ih e
      · exact ih _
    · rename_i hgap
      obtain ⟨d, t, heq⟩ := exists_mergeInto_eq x l
      have hrest := ih x
      rw [heq] at hrest ⊢
      exact List.IsChain.cons_cons (not_le.mp hgap) hrest

/-- **The result of a merge is separated**, whatever the list was. -/
theorem merge_separated (l : List (ℕ × List α)) : Separated (merge l) := by
  cases l with
  | nil => exact List.Pairwise.nil
  | cons e l =>
    have htrans : IsTrans (ℕ × List α) fun e x => stop e < x.1 :=
      ⟨fun a b c hab hbc => lt_of_lt_of_le hab ((start_le_stop b).trans hbc.le)⟩
    exact List.isChain_iff_pairwise.mp (isChain_mergeInto e l)

/-- The two blocks of a join, of which the second starts in or right behind the first and ends
    later, hold the items of the joined block. -/
theorem at_join {e x : ℕ × List α} {i : ℕ} {b : α} (htouch : x.1 ≤ stop e)
    (h : At (e.1, e.2 ++ x.2.drop (stop e - x.1)) i b) : At e i b ∨ At x i b := by
  obtain ⟨hle, hb⟩ := h
  rw [List.getElem?_append] at hb
  split at hb
  · exact .inl ⟨hle, hb⟩
  · rename_i hpast
    rw [List.getElem?_drop] at hb
    have hidx : stop e - x.1 + (i - e.1 - e.2.length) = i - x.1 := by
      rw [stop] at htouch ⊢
      dsimp only at hpast hle
      omega
    refine .inr ⟨?_, by rw [← hidx]; exact hb⟩
    rw [stop] at htouch
    dsimp only at hpast hle
    omega

/-- A joined block ends where the second one did. -/
theorem stop_join {e x : ℕ × List α} (htouch : x.1 ≤ stop e) (hlonger : stop e < stop x) :
    stop (e.1, e.2 ++ x.2.drop (stop e - x.1)) = stop x := by
  simp only [stop, List.length_append, List.length_drop] at *
  omega

/-- Every block of the result starts where a block did, and ends where a block did. -/
theorem bounds_of_mem_mergeInto {e y : ℕ × List α} {l : List (ℕ × List α)}
    (h : y ∈ mergeInto e l) :
    (∃ x ∈ e :: l, y.1 = x.1) ∧ ∃ x ∈ e :: l, stop y = stop x := by
  -- the block in hand changes as the blocks behind it are joined to it
  induction l generalizing e with
  | nil =>
    obtain rfl := List.mem_singleton.mp h
    exact ⟨⟨y, List.mem_cons_self, rfl⟩, ⟨y, List.mem_cons_self, rfl⟩⟩
  | cons x l ih =>
    rw [mergeInto] at h
    split at h
    · rename_i htouch
      split at h
      · obtain ⟨⟨u, hu, hustart⟩, ⟨v, hv, hvstop⟩⟩ := ih h
        exact ⟨⟨u, by simp at hu ⊢; tauto, hustart⟩, ⟨v, by simp at hv ⊢; tauto, hvstop⟩⟩
      · rename_i hlonger
        have hjoin := stop_join htouch (not_le.mp hlonger)
        obtain ⟨⟨u, hu, hustart⟩, ⟨v, hv, hvstop⟩⟩ := ih h
        constructor
        · rcases List.mem_cons.mp hu with rfl | hu
          · exact ⟨e, List.mem_cons_self, hustart⟩
          · exact ⟨u, by simp [hu], hustart⟩
        · rcases List.mem_cons.mp hv with rfl | hv
          · exact ⟨x, by simp, hvstop.trans hjoin⟩
          · exact ⟨v, by simp [hv], hvstop⟩
    · rcases List.mem_cons.mp h with rfl | h
      · exact ⟨⟨y, List.mem_cons_self, rfl⟩, ⟨y, List.mem_cons_self, rfl⟩⟩
      · obtain ⟨⟨u, hu, hustart⟩, ⟨v, hv, hvstop⟩⟩ := ih h
        exact ⟨⟨u, List.mem_cons_of_mem e hu, hustart⟩, ⟨v, List.mem_cons_of_mem e hv, hvstop⟩⟩

/-- Merged blocks start and end where some blocks did. -/
theorem bounds_of_mem_merge {y : ℕ × List α} {l : List (ℕ × List α)} (h : y ∈ merge l) :
    (∃ x ∈ l, y.1 = x.1) ∧ ∃ x ∈ l, stop y = stop x := by
  cases l with
  | nil => cases h
  | cons e l => exact bounds_of_mem_mergeInto h

/-- The first block of the result starts at the least start. -/
theorem Sorted.exists_merge_eq {l : List (ℕ × List α)} (h : Sorted l) {x : ℕ × List α}
    (hx : x ∈ l) : ∃ y t, merge l = y :: t ∧ y.1 ≤ x.1 := by
  cases l with
  | nil => cases hx
  | cons e l =>
    obtain ⟨d, t, heq⟩ := exists_mergeInto_eq e l
    refine ⟨(e.1, d), t, heq, ?_⟩
    rcases List.mem_cons.mp hx with rfl | hx
    · exact le_rfl
    · exact (List.pairwise_cons.mp h).1 x hx

/-- Merging makes no item up. -/
theorem holds_of_mergeInto {e : ℕ × List α} {l : List (ℕ × List α)} {i : ℕ} {b : α}
    (h : Holds (mergeInto e l) i b) : Holds (e :: l) i b := by
  induction l generalizing e with
  | nil => exact h
  | cons x l ih =>
    rw [mergeInto] at h
    rw [holds_cons, holds_cons]
    split at h
    · rename_i htouch
      split at h
      · have := holds_cons.mp (ih h)
        tauto
      · rcases holds_cons.mp (ih h) with hjoin | hl
        · have := at_join htouch hjoin
          tauto
        · exact .inr (.inr hl)
    · rcases holds_cons.mp h with he | hrest
      · exact .inl he
      · exact .inr (holds_cons.mp (ih hrest))

/-- **A merge invents no item.** -/
theorem holds_of_merge {l : List (ℕ × List α)} {i : ℕ} {b : α} (h : Holds (merge l) i b) :
    Holds l i b := by
  cases l with
  | nil => exact h
  | cons e l => exact holds_of_mergeInto h

/-- Merging loses no position. -/
theorem covers_mergeInto {e : ℕ × List α} {l : List (ℕ × List α)} (h : Sorted (e :: l)) :
    covers (mergeInto e l) = covers (e :: l) := by
  -- joining two blocks that touch loses no position, in both cases of the merge
  induction l generalizing e with
  | nil => rfl
  | cons x l ih =>
    obtain ⟨he, hxl⟩ := List.pairwise_cons.mp h
    obtain ⟨hx, hl⟩ := List.pairwise_cons.mp hxl
    have hex : e.1 ≤ x.1 := he x List.mem_cons_self
    have hel : ∀ y ∈ l, e.1 ≤ y.1 := fun y hy => he y (List.mem_cons_of_mem x hy)
    rw [mergeInto, covers_cons e, covers_cons x, ← Set.union_assoc]
    split
    · rename_i htouch
      split
      · rename_i hinside
        rw [ih (List.pairwise_cons.mpr ⟨hel, hl⟩), covers_cons,
          Set.union_eq_self_of_subset_right (Set.Ico_subset_Ico hex hinside)]
      · rename_i hlonger
        have hstop := stop_join htouch (not_le.mp hlonger)
        have hunion : Set.Ico e.1 (stop e) ∪ Set.Ico x.1 (stop x) = Set.Ico e.1 (stop x) :=
          Set.Ico_union_Ico' htouch (hex.trans (start_le_stop x)) |>.trans (by
            rw [min_eq_left hex, max_eq_right (not_le.mp hlonger).le])
        have hsorted : Sorted ((e.1, e.2 ++ x.2.drop (stop e - x.1)) :: l) :=
          List.pairwise_cons.mpr ⟨hel, hl⟩
        rw [ih hsorted, covers_cons, hstop, hunion]
    · rw [covers_cons, ih (List.pairwise_cons.mpr ⟨hx, hl⟩), covers_cons, Set.union_assoc]

/-- **A merge loses no position.** -/
theorem covers_merge {l : List (ℕ × List α)} (h : Sorted l) : covers (merge l) = covers l := by
  cases l with
  | nil => rfl
  | cons e l => exact covers_mergeInto h

/-! ### Separated blocks -/

/-- Separated blocks are in order. -/
theorem Separated.sorted {l : List (ℕ × List α)} (h : Separated l) : Sorted l :=
  h.imp fun {e _} hlt => (start_le_stop e).trans hlt.le

/-- The blocks behind the first one. -/
theorem Separated.tail {e : ℕ × List α} {l : List (ℕ × List α)} (h : Separated (e :: l)) :
    Separated l :=
  (List.pairwise_cons.mp h).2

/-- Everything behind the first block lies strictly beyond its end. -/
theorem Separated.lt_of_mem_covers {e : ℕ × List α} {l : List (ℕ × List α)}
    (h : Separated (e :: l)) {i : ℕ} (hi : i ∈ covers l) : stop e < i := by
  obtain ⟨x, hx, hle, -⟩ := mem_covers.mp hi
  exact lt_of_lt_of_le ((List.pairwise_cons.mp h).1 x hx) hle

/-- **The number of positions is the sum of the lengths.** -/
theorem Separated.ncard_covers {l : List (ℕ × List α)} (h : Separated l) :
    (covers l).Finite ∧ (covers l).ncard = (l.map fun e => e.2.length).sum := by
  induction l with
  | nil => simp
  | cons e l ih =>
    obtain ⟨hfin, hcard⟩ := ih h.tail
    have hdisjoint : Disjoint (Set.Ico e.1 (stop e)) (covers l) := by
      rw [Set.disjoint_left]
      intro i hi hl
      exact lt_asymm hi.2 (h.lt_of_mem_covers hl)
    rw [covers_cons]
    refine ⟨(Set.finite_Ico _ _).union hfin, ?_⟩
    rw [Set.ncard_union_eq hdisjoint (Set.finite_Ico _ _) hfin, hcard, List.map_cons, List.sum_cons]
    congr 1
    rw [← Finset.coe_Ico, Set.ncard_coe_finset, Nat.card_Ico, stop]
    omega

end IntervalMap
