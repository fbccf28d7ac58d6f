import Mathlib

/-!
# Library — items laid end to end

A list of items, each of some length, laid end to end on the number line from a base position:
the queue of a sliding-window sender, the blocks of a file, the chunks of a log.

* `total` — the length of the whole; the list starts at `b` and ends at `b + total l`;
* `Tiles` — every item satisfies a predicate at the position where it starts;
* `ends` — the items with the positions where they end;
* `unacked` — the items left after a cumulative acknowledgment `A`, those that end beyond it.
  `unacked_spec`: what is removed is a prefix, and `A` falls strictly before the end of the
  first item left.
-/

namespace SlidingWindow

variable {α : Type*} (len : α → ℕ)

/-- The length of the items laid end to end. -/
def total (l : List α) : ℕ := (l.map len).sum

@[simp] theorem total_nil : total len [] = 0 := rfl

@[simp] theorem total_cons (a : α) (l : List α) : total len (a :: l) = len a + total len l := by
  simp [total]

@[simp] theorem total_append (l l' : List α) :
    total len (l ++ l') = total len l + total len l' := by
  simp [total]

/-- Items of positive length take up no room only when there are none. -/
theorem total_eq_zero {l : List α} (hpos : ∀ a ∈ l, 0 < len a) : total len l = 0 ↔ l = [] := by
  cases l with
  | nil => simp
  | cons a l =>
    have := hpos a (by simp)
    rw [total_cons]
    simp
    omega

/-! ### Tilings -/

/-- Each item of the list, laid out from position `b`, satisfies `P` at its own start. -/
def Tiles (P : ℕ → α → Prop) : ℕ → List α → Prop
  | _, [] => True
  | b, a :: l => P b a ∧ Tiles P (b + len a) l

variable {len}

/-- Some items, and others from where those end. -/
theorem tiles_append {P : ℕ → α → Prop} {b : ℕ} {l l' : List α} :
    Tiles len P b (l ++ l') ↔ Tiles len P b l ∧ Tiles len P (b + total len l) l' := by
  induction l generalizing b with
  | nil => simp [Tiles]
  | cons a l ih => simp [Tiles, ih, and_assoc, add_assoc]

/-- Where each item starts determines where the next one does. -/
theorem Tiles.isChain {P : ℕ → α → Prop} {R : α → α → Prop}
    (h : ∀ p a a', P p a → P (p + len a) a' → R a a') {b : ℕ} {l : List α}
    (ht : Tiles len P b l) : l.IsChain R := by
  induction l generalizing b with
  | nil => exact List.IsChain.nil
  | cons a l ih =>
    cases l with
    | nil => exact List.IsChain.singleton a
    | cons a' l => exact List.IsChain.cons_cons (h b a a' ht.1 ht.2.1) (ih ht.2)

/-- The last item ends where the list does. -/
theorem Tiles.of_getLast {P : ℕ → α → Prop} {b : ℕ} {l : List α} (h : Tiles len P b l) {a : α}
    (ha : a ∈ l.getLast?) : ∃ p, P p a ∧ p + len a = b + total len l := by
  obtain ⟨front, rfl⟩ := List.getLast?_eq_some_iff.mp ha
  obtain ⟨-, hlast, -⟩ := tiles_append.mp h
  refine ⟨b + total len front, hlast, ?_⟩
  rw [total_append, total_cons, total_nil]
  omega

/-! ### Cumulative acknowledgment -/

variable (len)

/-- The items, laid out from position `b`, with the positions where they end. -/
def ends : ℕ → List α → List (α × ℕ)
  | _, [] => []
  | b, a :: l => (a, b + len a) :: ends (b + len a) l

/-- The items that are not covered by an acknowledgment of everything before position `A`. -/
def unacked (b A : ℕ) (l : List α) : List α :=
  ((ends len b l).filter fun p => A < p.2).map Prod.fst

variable {len}

@[simp] theorem map_fst_ends (b : ℕ) (l : List α) : (ends len b l).map Prod.fst = l := by
  induction l generalizing b with
  | nil => rfl
  | cons a l ih => simp [ends, ih]

/-- The items with their ends are those of the list. -/
theorem fst_mem_of_mem_ends {b : ℕ} {l : List α} {p : α × ℕ} (h : p ∈ ends len b l) :
    p.1 ∈ l := by
  have hmem := List.mem_map_of_mem (f := Prod.fst) h
  rwa [map_fst_ends] at hmem

/-- Every item ends past the base, and at or before the end of the list. -/
theorem bounds_of_mem_ends {b : ℕ} {l : List α} {p : α × ℕ} (h : p ∈ ends len b l) :
    b + len p.1 ≤ p.2 ∧ p.2 ≤ b + total len l := by
  induction l generalizing b with
  | nil => simp [ends] at h
  | cons a l ih =>
    rw [total_cons]
    rcases List.mem_cons.mp h with rfl | h
    · simp
    · have := ih h
      omega

/-- An item and its end show where the item starts, and what holds there. -/
theorem Tiles.of_mem_ends {P : ℕ → α → Prop} {b : ℕ} {l : List α} (h : Tiles len P b l)
    {p : α × ℕ} (hp : p ∈ ends len b l) :
    ∃ q, P q p.1 ∧ p.2 = q + len p.1 ∧ b ≤ q ∧ p.2 ≤ b + total len l := by
  induction l generalizing b with
  | nil => simp [ends] at hp
  | cons a l ih =>
    rw [total_cons]
    rcases List.mem_cons.mp hp with rfl | hp
    · exact ⟨b, h.1, rfl, le_rfl, by simp⟩
    · obtain ⟨q, hq, heq, hle, hend⟩ := ih h.2 hp
      exact ⟨q, hq, heq, by omega, by omega⟩

/-- No item ends before the first one does. -/
theorem first_end_le {b : ℕ} {l : List α} {p : α × ℕ} (hp : p ∈ ends len b l) :
    ∀ a ∈ l.head?, b + len a ≤ p.2 := by
  cases l with
  | nil => simp
  | cons a l =>
    intro x hx
    obtain rfl : a = x := by simpa using hx
    rcases List.mem_cons.mp hp with rfl | hp
    · exact le_rfl
    · have := bounds_of_mem_ends hp
      omega

/-- A filter that agrees with the ends removes what the acknowledgment covers. -/
theorem filter_eq_unacked {b A : ℕ} {l : List α} {keep : α → Bool}
    (h : ∀ p ∈ ends len b l, keep p.1 = true ↔ A < p.2) : l.filter keep = unacked len b A l := by
  have hmap : (ends len b l).map Prod.fst = l := map_fst_ends b l
  conv_lhs => rw [← hmap]
  rw [unacked, List.filter_map]
  congr 1
  apply List.filter_congr
  intro p hp
  rw [Bool.eq_iff_iff, Function.comp_apply, h p hp, decide_eq_true_iff]

/-- The first item stays if it ends beyond what is acknowledged. -/
theorem unacked_cons (b A : ℕ) (a : α) (l : List α) :
    unacked len b A (a :: l)
      = if A < b + len a then a :: unacked len (b + len a) A l
        else unacked len (b + len a) A l := by
  simp only [unacked, ends, List.filter_cons, decide_eq_true_eq]
  split <;> simp

/-- An acknowledgment before the end of the first item removes nothing. -/
theorem unacked_eq_self {b A : ℕ} {l : List α} (hpos : ∀ a ∈ l, 0 < len a)
    (h : ∀ a ∈ l.head?, A < b + len a) : unacked len b A l = l := by
  have hall : ∀ p ∈ ends len b l, A < p.2 := by
    cases l with
    | nil => simp [ends]
    | cons a l =>
      have ha := h a (by simp)
      intro p hp
      rcases List.mem_cons.mp hp with rfl | hp
      · exact ha
      · have := (bounds_of_mem_ends hp).1
        omega
  rw [unacked, List.filter_eq_self.mpr (by simpa using hall), map_fst_ends]

/-- **Cumulative acknowledgment.** The items an acknowledgment `A` removes are a prefix that
    ends at or before `A`; the first item it leaves ends beyond `A`. -/
theorem unacked_spec {b A : ℕ} {l : List α} (hpos : ∀ a ∈ l, 0 < len a) (hb : b ≤ A) :
    ∃ done, l = done ++ unacked len b A l ∧ b + total len done ≤ A ∧
      ∀ a ∈ (unacked len b A l).head?, A < b + total len done + len a := by
  induction l generalizing b with
  | nil => exact ⟨[], by simp [unacked, ends], by simpa, by simp [unacked, ends]⟩
  | cons a l ih =>
    by_cases hA : A < b + len a
    · have hself : unacked len b A (a :: l) = a :: l :=
        unacked_eq_self hpos (by simpa using hA)
      exact ⟨[], by rw [hself]; rfl, by simpa using hb, by rw [hself]; simpa using hA⟩
    · obtain ⟨done, hl, hdone, hhead⟩ :=
        ih (b := b + len a) (fun x hx => hpos x (List.mem_cons_of_mem a hx)) (by omega)
      rw [unacked_cons, if_neg hA]
      refine ⟨a :: done, by rw [List.cons_append, ← hl], ?_, ?_⟩
      · rw [total_cons]
        omega
      · intro x hx
        have := hhead x hx
        rw [total_cons]
        omega

/-- An acknowledgment of the whole list leaves nothing. -/
theorem unacked_eq_nil {b A : ℕ} {l : List α} (h : b + total len l ≤ A) :
    unacked len b A l = [] := by
  rw [unacked, List.map_eq_nil_iff, List.filter_eq_nil_iff]
  intro p hp
  have := (bounds_of_mem_ends hp).2
  simp only [decide_eq_true_eq, not_lt]
  omega

end SlidingWindow
