import Mathlib

/-!
# Library — one's-complement sums

Sums of 16-bit words in which a carry out of the top is added at the bottom.

* `fold` — the word that is left of a sum when all carries are added; it stands for the sum modulo
  `65535`, with `65535` in place of `0` unless the sum is 0.
* `fold_round` — adding the high word to the low one does not change it.
* `fold_add_complement` — with the complement of its fold added, a sum folds to `65535`.
* `wordSum` — the sum of the big-endian words of some bytes, of which the first may be the second
  byte of its word.
* `onesSum` — the sum word by word, each carry added at once; `onesSum_eq_fold` shows that the
  carries may as well be added in the end.
-/

namespace OnesComplement

/-! ### Carries -/

/-- What is left of a sum when its carries are added. -/
def fold (S : ℕ) : ℕ := if S = 0 then 0 else (S - 1) % 65535 + 1

/-- A folded sum has 16 bits. -/
theorem fold_le (S : ℕ) : fold S ≤ 65535 := by
  unfold fold
  split <;> omega

/-- Folding keeps the residue modulo `2^16 - 1`. -/
theorem fold_modEq (S : ℕ) : fold S ≡ S [MOD 65535] := by
  unfold fold Nat.ModEq
  split <;> omega

/-- A word has no carries. -/
theorem fold_of_le {S : ℕ} (h : S ≤ 65535) : fold S = S := by
  unfold fold
  split <;> omega

/-- Folded sums are equal when they have the same residue. -/
theorem fold_eq_fold_iff {S T : ℕ} (hS : 0 < S) (hT : 0 < T) :
    fold S = fold T ↔ S ≡ T [MOD 65535] := by
  unfold fold Nat.ModEq
  rw [if_neg hS.ne', if_neg hT.ne']
  omega

/-- One round of adding the carries. -/
theorem fold_round (S : ℕ) : fold (S / 2 ^ 16 + S % 2 ^ 16) = fold S := by
  rcases Nat.eq_zero_or_pos S with rfl | hpos
  · rfl
  · rw [fold_eq_fold_iff (by omega) hpos]
    unfold Nat.ModEq
    omega

/-- What is added to sums that fold alike is folded alike. -/
theorem fold_add_congr {S T : ℕ} (h : fold S = fold T) (U : ℕ) : fold (S + U) = fold (T + U) := by
  have hzero : ∀ S, fold S = 0 ↔ S = 0 := by
    intro S
    unfold fold
    split <;> omega
  have hmod : S ≡ T [MOD 65535] := (fold_modEq S).symm.trans (h ▸ fold_modEq T)
  rcases Nat.eq_zero_or_pos S with rfl | hS
  · rw [(hzero T).mp (h ▸ rfl)]
  · have hT : T ≠ 0 := fun hT => hS.ne' ((hzero S).mp (h.trans ((hzero T).mpr hT)))
    rw [fold_eq_fold_iff (by omega) (by omega)]
    exact hmod.add_right U

/-- **A sum checks itself.** -/
theorem fold_add_complement (S : ℕ) : fold (S + (65535 - fold S)) = 65535 := by
  have hle := fold_le S
  have hmod := fold_modEq S
  unfold Nat.ModEq at hmod
  have hpos : S + (65535 - fold S) ≠ 0 := by
    intro hzero
    have hfold : fold S = 0 := by rw [show S = 0 by omega]; rfl
    omega
  rw [fold, if_neg hpos]
  omega

/-! ### Words -/

/-- The sum of the words of some bytes; `odd` says that the first is the second of its word. -/
def wordSum : Bool → List UInt8 → ℕ
  | _, [] => 0
  | odd, b :: l => (if odd then b.toNat else 256 * b.toNat) + wordSum (!odd) l

@[simp] theorem wordSum_nil (odd : Bool) : wordSum odd [] = 0 := rfl

/-- The first byte, and the others with the other parity. -/
theorem wordSum_cons (odd : Bool) (b : UInt8) (l : List UInt8) :
    wordSum odd (b :: l) = (if odd then b.toNat else 256 * b.toNat) + wordSum (!odd) l := rfl

/-- Bytes are added one part after the other, however they are split. -/
theorem wordSum_append (odd : Bool) (l l' : List UInt8) :
    wordSum odd (l ++ l') = wordSum odd l + wordSum (odd ^^ l.length.bodd) l' := by
  induction l generalizing odd with
  | nil => simp
  | cons b l ih =>
    rw [List.cons_append, wordSum_cons, wordSum_cons, ih, List.length_cons, Nat.bodd_succ,
      Nat.add_assoc]
    cases odd <;> simp

/-- A byte adds at most `255 * 256`. -/
theorem wordSum_le (odd : Bool) (l : List UInt8) : wordSum odd l ≤ 65280 * l.length := by
  induction l generalizing odd with
  | nil => exact le_rfl
  | cons b l ih =>
    have hb := b.toNat_lt
    have hrest := ih (!odd)
    rw [wordSum_cons, List.length_cons]
    split <;> omega

/-! ### Word by word -/

/-- The sum of two words, with the carry added at the bottom. -/
def onesAdd (x y : ℕ) : ℕ := (x + y) % 2 ^ 16 + (x + y) / 2 ^ 16

/-- The one's-complement sum of some words. -/
def onesSum (words : List ℕ) : ℕ := words.foldr onesAdd 0

/-- The big-endian words of some bytes; an odd byte at the end is the first of a word whose second
    is zero. -/
def words : List UInt8 → List ℕ
  | [] => []
  | [b] => [256 * b.toNat]
  | b :: c :: l => (256 * b.toNat + c.toNat) :: words l

/-- Words have 16 bits. -/
theorem words_le (l : List UInt8) : ∀ w ∈ words l, w ≤ 65535 := by
  fun_induction words l with
  | case1 => simp
  | case2 b =>
    have hb := b.toNat_lt
    simp only [List.mem_singleton, forall_eq]
    omega
  | case3 b c l ih =>
    have hb := b.toNat_lt
    have hc := c.toNat_lt
    simp only [List.mem_cons, forall_eq_or_imp]
    exact ⟨by omega, ih⟩

/-- The sum over the bytes is that over the words. -/
theorem wordSum_eq_sum_words (l : List UInt8) : wordSum false l = (words l).sum := by
  fun_induction words l with
  | case1 => rfl
  | case2 b => simp [wordSum_cons]
  | case3 b c l ih =>
    rw [List.sum_cons, ← ih, wordSum_cons, wordSum_cons]
    simp [Nat.add_assoc]

/-- Adding a word to what is left of a sum adds it to the sum. -/
theorem onesAdd_fold {x : ℕ} (h : x ≤ 65535) (S : ℕ) : onesAdd x (fold S) = fold (x + S) := by
  have hle := fold_le S
  have hmod := fold_modEq S
  unfold onesAdd
  rcases Nat.eq_zero_or_pos S with rfl | hpos
  · show (x + 0) % _ + (x + 0) / _ = fold x
    rw [fold_of_le h]
    omega
  · have hfold : 0 < fold S := by
      rw [fold, if_neg hpos.ne']
      omega
    -- both are words above 0 that stand for the same number
    have hword : (x + fold S) % 2 ^ 16 + (x + fold S) / 2 ^ 16 ≤ 65535 := by omega
    rw [← fold_of_le hword, fold_eq_fold_iff (by omega) (by omega)]
    unfold Nat.ModEq at hmod ⊢
    omega

/-- **The carries may be added in the end.** -/
theorem onesSum_eq_fold {ws : List ℕ} (h : ∀ w ∈ ws, w ≤ 65535) : onesSum ws = fold ws.sum := by
  induction ws with
  | nil => rfl
  | cons w ws ih =>
    obtain ⟨hw, hws⟩ := List.forall_mem_cons.mp h
    show onesAdd w (onesSum ws) = _
    rw [ih hws, onesAdd_fold hw, List.sum_cons]

end OnesComplement
