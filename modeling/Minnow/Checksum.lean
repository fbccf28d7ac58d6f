import Minnow.IPv4
import Minnow.Library.OnesComplement

namespace Minnow

/-!
# The Internet checksum in numbers

As long as the 32-bit sum does not overflow, what was added is a sum of words, and the value is
the complement of the word that it folds to.

* `InternetChecksum.toNat_sum_add` — adding bytes adds their words, of which the first may be
  half done;
* `InternetChecksum.toNat_value` — the loop of `value` folds the sum;
* `InternetChecksum.value_eq_zero_iff` — a sum that holds its own checksum has the value 0.
-/

namespace InternetChecksum

open OnesComplement

/-- The bytes can be added without overflow. -/
def Room (check : InternetChecksum) (data : Bytes) : Prop :=
  check.sum.toNat + wordSum check.parity data < 2 ^ 32

/-- A byte adds to the sum where 32 bits are enough. -/
theorem toNat_sum_addByte {check : InternetChecksum} {i : UInt8}
    (h : check.sum.toNat + (if check.parity then i.toNat else 256 * i.toNat) < 2 ^ 32) :
    (check.addByte i).sum.toNat
      = check.sum.toNat + if check.parity then i.toNat else 256 * i.toNat := by
  have hi := i.toNat_lt
  unfold addByte
  cases hparity : check.parity with
  | true =>
    rw [hparity] at h
    simp only [if_true] at h ⊢
    simp only [not_true_eq_false, if_false]
    rw [UInt32.toNat_add]
    simp only [UInt16.toNat_toUInt32, UInt8.toNat_toUInt16]
    exact Nat.mod_eq_of_lt h
  | false =>
    rw [hparity] at h
    simp only [Bool.false_eq_true, if_false, not_false_eq_true, if_true] at h ⊢
    -- the byte is the high one of its word
    have hshift : (i.toUInt16 <<< 8).toNat = 256 * i.toNat := by
      rw [UInt16.toNat_shiftLeft, UInt8.toNat_toUInt16]
      show i.toNat <<< 8 % 2 ^ 16 = _
      rw [Nat.shiftLeft_eq]
      omega
    rw [UInt32.toNat_add, UInt16.toNat_toUInt32, hshift]
    exact Nat.mod_eq_of_lt h

/-- **Adding bytes** to a sum. -/
theorem sum_add {check : InternetChecksum} {data : Bytes} (h : check.Room data) :
    (check.add data).sum.toNat = check.sum.toNat + wordSum check.parity data ∧
      (check.add data).parity = (check.parity ^^ data.length.bodd) := by
  induction data generalizing check with
  | nil => simp [add]
  | cons i data ih =>
    unfold Room at h
    rw [wordSum_cons] at h
    have hbyte := @toNat_sum_addByte check i (by omega)
    have hparity : (check.addByte i).parity = !check.parity := rfl
    have hroom : (check.addByte i).Room data := by
      unfold Room
      rw [hbyte, hparity]
      omega
    obtain ⟨hsum, hpar⟩ := ih hroom
    show ((check.addByte i).add data).sum.toNat = _ ∧ ((check.addByte i).add data).parity = _
    rw [hsum, hpar, hbyte, hparity, wordSum_cons, List.length_cons, Nat.bodd_succ]
    refine ⟨Nat.add_assoc _ _ _, ?_⟩
    cases check.parity <;> simp

/-- Buffers are added as their bytes are. -/
theorem addAll_eq (check : InternetChecksum) (data : List Ref) :
    check.addAll data = check.add (concat data) := by
  induction data generalizing check with
  | nil => rfl
  | cons r data ih =>
    show (check.add r.get).addAll data = _
    rw [ih, concat_cons, add, add, add, List.foldl_append]

/-- A round of the loop, or none, keeps what the sum folds to. -/
theorem fold_valueLoop (n : ℕ) (ret : UInt32) :
    fold (valueLoop n ret).toNat = fold ret.toNat := by
  induction n generalizing ret with
  | zero => rfl
  | succ n ih =>
    rw [valueLoop]
    split
    · rw [ih, toNat_round, fold_round]
    · rfl

/-- The checksum is the complement of the folded sum. -/
theorem toNat_value (check : InternetChecksum) :
    check.value.toNat = 65535 - fold check.sum.toNat := by
  have hle : (valueLoop 2 check.sum).toNat ≤ 65535 :=
    UInt32.le_iff_toNat_le.mp (valueLoop_le check.sum)
  have hfold : (valueLoop 2 check.sum).toNat = fold check.sum.toNat := by
    rw [← fold_valueLoop 2, fold_of_le hle]
  unfold value
  rw [UInt16.toNat_not, UInt32.toNat_toUInt16, hfold]
  have := fold_le check.sum.toNat
  show 65536 - 1 - _ % 65536 = _
  omega

/-- The checksum is zero where all bits of the folded sum are set. -/
theorem value_eq_zero_iff (check : InternetChecksum) :
    check.value = 0 ↔ fold check.sum.toNat = 65535 := by
  rw [← UInt16.toNat_inj, toNat_value]
  have := fold_le check.sum.toNat
  show 65535 - _ = 0 ↔ _
  omega

/-- **What `value` computes** from a sum and the bytes that were added to it. -/
theorem toNat_value_add {check : InternetChecksum} {data : Bytes} (h : check.Room data) :
    (check.add data).value.toNat
      = 65535 - fold (check.sum.toNat + wordSum check.parity data) := by
  rw [toNat_value, (sum_add h).1]

end InternetChecksum

end Minnow
