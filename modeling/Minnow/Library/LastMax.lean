import Mathlib

/-!
# Library — the last of the greatest

Of the items of a list that qualify, the one with the greatest key; where several have it, the
last of them.

* `lastMax_concat` — how it changes when an item is added behind the others;
* `lastMax_eq_some_iff`, `lastMax_eq_none_iff` — what it is.
-/

namespace List

variable {α κ : Type*} [LinearOrder κ]

/-- Read backwards, it is the first item with the greatest key. -/
def lastMax (p : α → Bool) (key : α → κ) (l : List α) : Option α :=
  (l.reverse.filter p).argmax key

variable {p : α → Bool} {key : α → κ} {l : List α} {a : α}

/-- An item that does not qualify changes nothing. -/
theorem lastMax_concat_of_not (ha : p a = false) :
    (l ++ [a]).lastMax p key = l.lastMax p key := by
  rw [lastMax, reverse_append, reverse_singleton, singleton_append,
    filter_cons_of_neg (by simp [ha]), lastMax]

/-- One that does wins, unless there is one with a greater key. -/
theorem lastMax_concat_of (ha : p a = true) :
    (l ++ [a]).lastMax p key
      = match l.lastMax p key with
        | none => some a
        | some b => if key a < key b then some b else some a := by
  rw [lastMax, reverse_append, reverse_singleton, singleton_append, filter_cons_of_pos ha,
    argmax_cons, ← lastMax]
  cases l.lastMax p key <;> rfl

theorem lastMax_eq_none_iff : l.lastMax p key = none ↔ ∀ b ∈ l, p b = false := by
  rw [lastMax, argmax_eq_none, filter_eq_nil_iff]
  simp

theorem mem_of_lastMax_eq_some (h : l.lastMax p key = some a) : a ∈ l ∧ p a = true := by
  have hmem := mem_filter.mp (argmax_mem h)
  exact ⟨mem_reverse.mp hmem.1, hmem.2⟩

/-- Nothing before the last of the greatest has a greater key, and everything behind it has a
    smaller one. -/
theorem exists_split_of_lastMax (h : l.lastMax p key = some a) :
    ∃ l₁ l₂, l = l₁ ++ a :: l₂ ∧
      (∀ b ∈ l₁, p b = true → key b ≤ key a) ∧ ∀ b ∈ l₂, p b = true → key b < key a := by
  induction l using reverseRecOn with
  | nil => cases h
  | append_singleton l c ih =>
    cases hc : p c with
    | false =>
      rw [lastMax_concat_of_not hc] at h
      obtain ⟨l₁, l₂, rfl, hbefore, hbehind⟩ := ih h
      refine ⟨l₁, l₂ ++ [c], by simp, hbefore, fun b hb hpb => ?_⟩
      rcases mem_append.mp hb with hb | hb
      · exact hbehind b hb hpb
      · rw [mem_singleton.mp hb, hc] at hpb
        cases hpb
    | true =>
      rw [lastMax_concat_of hc] at h
      cases hl : l.lastMax p key with
      | none =>
        -- the first one that qualifies
        rw [hl] at h
        cases h
        refine ⟨l, [], rfl, fun b hb hpb => ?_, by simp⟩
        rw [lastMax_eq_none_iff.mp hl b hb] at hpb
        cases hpb
      | some d =>
        rw [hl] at h
        dsimp only at h
        split at h
        · -- the one before stays
          rename_i hlt
          cases h
          obtain ⟨l₁, l₂, rfl, hbefore, hbehind⟩ := ih hl
          refine ⟨l₁, l₂ ++ [c], by simp, hbefore, fun b hb hpb => ?_⟩
          rcases mem_append.mp hb with hb | hb
          · exact hbehind b hb hpb
          · rw [mem_singleton.mp hb]
            exact hlt
        · rename_i hle
          cases h
          refine ⟨l, [], rfl, fun b hb hpb => ?_, by simp⟩
          have hmem : b ∈ l.reverse.filter p := mem_filter.mpr ⟨mem_reverse.mpr hb, hpb⟩
          exact (le_of_mem_argmax hmem hl).trans (not_lt.mp hle)

/-- An item that qualifies is the last of the greatest if nothing around it beats it. -/
theorem lastMax_eq_some {l₁ l₂ : List α} (ha : p a = true)
    (hbefore : ∀ b ∈ l₁, p b = true → key b ≤ key a)
    (hbehind : ∀ b ∈ l₂, p b = true → key b < key a) :
    (l₁ ++ a :: l₂).lastMax p key = some a := by
  induction l₂ using reverseRecOn with
  | nil =>
    rw [lastMax_concat_of ha]
    cases hl : l₁.lastMax p key with
    | none => rfl
    | some b =>
      obtain ⟨hb, hpb⟩ := mem_of_lastMax_eq_some hl
      exact if_neg (not_lt.mpr (hbefore b hb hpb))
  | append_singleton l₂ c ih =>
    have hl := ih fun b hb => hbehind b (mem_append_left _ hb)
    rw [← cons_append, ← append_assoc]
    cases hc : p c with
    | false => rw [lastMax_concat_of_not hc, hl]
    | true =>
      rw [lastMax_concat_of hc, hl]
      exact if_pos (hbehind c (by simp) hc)

/-- **The last of the greatest**: nothing before it has a greater key, and everything behind it has
    a smaller one. -/
theorem lastMax_eq_some_iff :
    l.lastMax p key = some a ↔ p a = true ∧ ∃ l₁ l₂, l = l₁ ++ a :: l₂ ∧
      (∀ b ∈ l₁, p b = true → key b ≤ key a) ∧ ∀ b ∈ l₂, p b = true → key b < key a := by
  constructor
  · exact fun h => ⟨(mem_of_lastMax_eq_some h).2, exists_split_of_lastMax h⟩
  · rintro ⟨ha, l₁, l₂, rfl, hbefore, hbehind⟩
    exact lastMax_eq_some ha hbefore hbehind

end List
