import Minnow.TCPSegment

namespace Minnow

/-!
# Checksums in parts

What the checksum of some bytes is, however they are split.

* `InternetChecksum.toNat_value_words` — it is the complement of the one's-complement sum of their
  words, with the sum that it began with;
* `InternetChecksum.value_store` — stored in a field that was zero, it makes the value 0;
* `InternetChecksum.value_in_chunks` — for all the sums that a checksum begins with in the stack.
-/

namespace InternetChecksum

open OnesComplement

/-- The checksums to which nothing was added: of a header, and of what a header precedes. -/
inductive Initial : InternetChecksum → Prop
  | zero : Initial {}
  | pseudo (h : IPv4Header) : Initial { sum := h.pseudoChecksum }

variable {check : InternetChecksum}

theorem Initial.parity (h : Initial check) : check.parity = false := by
  cases h <;> rfl

theorem Initial.sum_lt (h : Initial check) : check.sum.toNat < 6 * 2 ^ 16 := by
  cases h with
  | zero => decide
  | pseudo h => exact h.pseudoChecksum_lt

/-- There is room for as many bytes as a datagram can have. -/
theorem Initial.room (h : Initial check) {data : Bytes} (hlength : data.length ≤ 65535) :
    check.Room data := by
  have hsum := h.sum_lt
  have hle := wordSum_le check.parity data
  unfold Room
  omega

/-- **What the checksum is** of bytes and of the sum before them. -/
theorem toNat_value_words (hparity : check.parity = false) {data : Bytes}
    (hroom : check.Room data) :
    (check.add data).value.toNat
      = 65535
        - onesSum (check.sum.toNat / 2 ^ 16 :: check.sum.toNat % 2 ^ 16 :: words data) := by
  have hsum := check.sum.toNat_lt
  have hwords : ∀ w ∈ check.sum.toNat / 2 ^ 16 :: check.sum.toNat % 2 ^ 16 :: words data,
      w ≤ 65535 := by
    simp only [List.mem_cons, forall_eq_or_imp]
    exact ⟨by omega, by omega, words_le data⟩
  rw [toNat_value_add hroom, onesSum_eq_fold hwords, hparity, wordSum_eq_sum_words,
    List.sum_cons, List.sum_cons, ← Nat.add_assoc, fold_add_congr (fold_round check.sum.toNat)]

/-- What a checksum is added to is added byte by byte, without overflow. -/
theorem toNat_sum_prefix (hparity : check.parity = false) {data part : Bytes}
    (hroom : check.Room data) (hpart : part <+: data) :
    (check.add part).sum.toNat = check.sum.toNat + (words part).sum := by
  obtain ⟨rest, rfl⟩ := hpart
  unfold Room at hroom
  rw [wordSum_append] at hroom
  have hroom' : check.Room part := by
    unfold Room
    omega
  rw [(sum_add hroom').1, hparity, wordSum_eq_sum_words]

/-- **A checksum makes the value 0** when it is stored in a field that was zero. -/
theorem value_store (hparity : check.parity = false) {before after : Bytes}
    (heven : Even before.length)
    (hroom : check.sum.toNat + 65280 * (before.length + 2 + after.length) < 2 ^ 32) :
    (check.add (before ++ (number 2 (check.add (before ++ 0 :: 0 :: after)).value.toNat
      ++ after))).value = 0 := by
  have hbefore : before.length.bodd = false := by
    have hmod := Nat.mod_two_of_bodd before.length
    rw [Nat.even_iff.mp heven] at hmod
    exact Bool.toNat_eq_zero.mp hmod.symm
  have hroom' : ∀ val : ℕ, check.Room (before ++ (number 2 val ++ after)) := by
    intro val
    have hle := wordSum_le check.parity (before ++ (number 2 val ++ after))
    simp only [List.length_append, length_number] at hle
    unfold Room
    omega
  -- the sum of all but the checksum
  set rest := check.sum.toNat + wordSum false before + wordSum false after with hrest
  have hsum : ∀ val < 2 ^ 16,
      check.sum.toNat + wordSum false (before ++ (number 2 val ++ after)) = rest + val := by
    intro val hval
    rw [wordSum_append_number hbefore]
    omega
  have hcksum : (check.add (before ++ 0 :: 0 :: after)).value.toNat = 65535 - fold rest := by
    show (check.add (before ++ (number 2 0 ++ after))).value.toNat = _
    rw [toNat_value_add (hroom' 0), hparity, hsum 0 (by norm_num)]
    rfl
  rw [hcksum, value_eq_zero_iff, (sum_add (hroom' _)).1, hparity, hsum _ (by omega),
    fold_add_complement]

/-- **The checksum of at most 65535 bytes**: however they are split, it is the complement of the
    one's-complement sum of their words and of the sum that it begins with; no sum overflows; and a
    field that was zero makes the value 0 once it holds it. -/
theorem value_in_chunks (h : Initial check) {data : Bytes} (hlength : data.length ≤ 65535) :
    (∀ chunks : List Bytes, chunks.flatten = data →
        (check.addViews chunks).value = (check.add data).value) ∧
      (check.add data).value.toNat
          = 65535
            - onesSum (check.sum.toNat / 2 ^ 16 :: check.sum.toNat % 2 ^ 16 :: words data) ∧
      (∀ part, part <+: data →
        (check.add part).sum.toNat = check.sum.toNat + (words part).sum) ∧
      ∀ before after : Bytes, data = before ++ 0 :: 0 :: after → Even before.length →
        (check.add (before ++ (number 2 (check.add data).value.toNat ++ after))).value = 0 := by
  refine ⟨?_, toNat_value_words h.parity (h.room hlength),
    fun part hpart => toNat_sum_prefix h.parity (h.room hlength) hpart, ?_⟩
  · intro chunks hchunks
    rw [TCPSegment.add_flatten, hchunks]
  · intro before after hdata heven
    have hsum := h.sum_lt
    subst hdata
    rw [List.length_append, List.length_cons, List.length_cons] at hlength
    exact value_store h.parity heven (by omega)

/-- Three bytes in chunks of one and two, the first two of them a field. -/
theorem value_in_chunks_three :
    (({} : InternetChecksum).addViews [[0], [0, 0xab]]).value
        = (({} : InternetChecksum).add [0, 0, 0xab]).value ∧
      (({} : InternetChecksum).add [0x54, 0xff, 0xab]).value = 0 := by
  have hlength : ([0, 0, 0xab] : Bytes).length ≤ 65535 := by decide
  obtain ⟨hchunks, -, -, hstore⟩ := value_in_chunks .zero hlength
  exact ⟨hchunks [[0], [0, 0xab]] rfl, hstore [] [0xab] rfl (by decide)⟩

end InternetChecksum

end Minnow
