import Mathlib

namespace Minnow

/-!
# Wrapping integers — `Wrap32`, `wrap` and `unwrap`

Sequence numbers travel on the wire as 32-bit integers that start at an arbitrary zero point
and wrap.  `wrap` sends an absolute 64-bit sequence number to its 32-bit form; `unwrap` goes
back, choosing the absolute number closest to a checkpoint.

Everything the TCP endpoints need about the two is stated on natural numbers:

* `offset` — the distance from the zero point, the only thing `unwrap` looks at;
* `toNat_unwrap_of_near` — `unwrap` recovers any number less than `2^31` away from the
  checkpoint;
* `toNat_unwrap_of_checkpoint_lt_cycle` — the value of `unwrap` for an arbitrary wire value,
  when the checkpoint lies in the first cycle;
* `unwrap_nearest` — over the whole 64-bit range, `unwrap` inverts `wrap`, and nothing that wraps
  to the same sequence number is closer to the checkpoint.
-/

/-- A 32-bit sequence number. -/
structure Wrap32 where
  rawValue : UInt32
deriving DecidableEq, Repr

namespace Wrap32

/-- `operator+( uint32_t n )`. -/
def add (w : Wrap32) (n : UInt32) : Wrap32 := ⟨w.rawValue + n⟩

/-- Absolute seqno `n` to seqno: the conversion to `uint32_t` drops the high half. -/
def wrap (n : UInt64) (zeroPoint : Wrap32) : Wrap32 := zeroPoint.add n.toUInt32

/-- The cycle size, `1ULL << 32`. -/
def cycle : UInt64 := (1 : UInt64) <<< (32 : UInt64)

/-- The unsigned distance `unwrap` computes between a candidate and the checkpoint. -/
def distance (candidate checkpoint : UInt64) : UInt64 :=
  if candidate > checkpoint then candidate - checkpoint else checkpoint - candidate

/-- The absolute seqno that wraps to `w` and is closest to `checkpoint`.  All arithmetic is
    that of `uint64_t`: the candidate one cycle down of a candidate in the first cycle, and the
    candidate one cycle up of one in the last, are computed modulo `2^64`. -/
def unwrap (w zeroPoint : Wrap32) (checkpoint : UInt64) : UInt64 :=
  let offset : UInt32 := w.rawValue - zeroPoint.rawValue
  let cycleBase := checkpoint - checkpoint % cycle
  let candidate := cycleBase + offset.toUInt64
  let candidatePrev :=
    if candidate ≥ cycle then candidate - cycle
    else 0xFFFFFFFFFFFFFFFF - (cycle - 1 - offset.toUInt64)
  let candidateNext := candidate + cycle
  let distCurr := distance candidate checkpoint
  let distPrev := distance candidatePrev checkpoint
  let distNext := distance candidateNext checkpoint
  if distCurr ≤ distPrev ∧ distCurr ≤ distNext then candidate
  else if distPrev ≤ distNext then candidatePrev
  else candidateNext

/-! ### Offsets from the zero point -/

/-- How far past the zero point a sequence number lies, modulo `2^32`. -/
def offset (w zeroPoint : Wrap32) : ℕ := (w.rawValue - zeroPoint.rawValue).toNat

/-- An offset is within the cycle. -/
theorem offset_lt (w z : Wrap32) : w.offset z < 2 ^ 32 := UInt32.toNat_lt _

/-- Two sequence numbers at the same offset are equal. -/
theorem offset_inj {w w' z : Wrap32} : w.offset z = w'.offset z ↔ w = w' := by
  obtain ⟨w⟩ := w
  obtain ⟨w'⟩ := w'
  rw [offset, offset, UInt32.toNat_inj, sub_left_inj, mk.injEq]

/-- The sequence number at position `n` (of any size) of a stream that starts at `z`. -/
def ofPos (n : ℕ) (z : Wrap32) : Wrap32 := z.add (UInt32.ofNat n)

/-- `wrap` reads a position modulo `2^64`, which its 32-bit result does not notice. -/
theorem wrap_ofNat (n : ℕ) (z : Wrap32) : wrap (UInt64.ofNat n) z = ofPos n z := by
  rw [wrap, ofPos, UInt64.toUInt32_ofNat']

/-- `wrap` counts from the zero point. -/
theorem wrap_eq_ofPos (n : UInt64) (z : Wrap32) : wrap n z = ofPos n.toNat z := by
  rw [← wrap_ofNat, UInt64.ofNat_toNat]

@[simp] theorem ofPos_zero (z : Wrap32) : ofPos 0 z = z := by
  obtain ⟨z⟩ := z
  simp [ofPos, add]

/-- Adding a length to the sequence number at a position. -/
theorem ofPos_add (n k : ℕ) (z : Wrap32) :
    (ofPos n z).add (UInt32.ofNat k) = ofPos (n + k) z := by
  simp only [ofPos, add, UInt32.ofNat_add, add_assoc]

/-- Positions may be counted from any earlier position. -/
theorem ofPos_ofPos (n k : ℕ) (z : Wrap32) : ofPos k (ofPos n z) = ofPos (n + k) z :=
  ofPos_add n k z

/-- Every sequence number is the one at its offset. -/
theorem ofPos_offset (w z : Wrap32) : ofPos (w.offset z) z = w := by
  obtain ⟨w⟩ := w
  obtain ⟨z⟩ := z
  simp only [ofPos, offset, add, UInt32.ofNat_toNat, mk.injEq]
  rw [add_comm, sub_add_cancel]

@[simp] theorem offset_ofPos (n : ℕ) (z : Wrap32) : (ofPos n z).offset z = n % 2 ^ 32 := by
  simp [offset, ofPos, add, UInt32.toNat_ofNat']

/-- Positions with the same sequence number agree modulo a cycle. -/
theorem ofPos_inj {m n : ℕ} {z : Wrap32} : ofPos m z = ofPos n z ↔ m % 2 ^ 32 = n % 2 ^ 32 := by
  rw [← offset_inj (z := z), offset_ofPos, offset_ofPos]

/-! ### The value of `unwrap` -/

theorem toNat_cycle : cycle.toNat = 2 ^ 32 := by decide

/-- One of the two truncated differences is zero, the other is the distance. -/
theorem toNat_distance (a b : UInt64) :
    (distance a b).toNat = (a.toNat - b.toNat) + (b.toNat - a.toNat) := by
  unfold distance
  simp only [gt_iff_lt, UInt64.lt_iff_toNat_lt]
  by_cases h : b.toNat < a.toNat
  · rw [if_pos h, UInt64.toNat_sub_of_le _ _ (UInt64.le_iff_toNat_le.mpr (by omega))]
    omega
  · rw [if_neg h, UInt64.toNat_sub_of_le _ _ (UInt64.le_iff_toNat_le.mpr (by omega))]
    omega

/-- The choice `unwrap` makes between its three candidates. -/
def closest (checkpoint candidate candidatePrev candidateNext : UInt64) : UInt64 :=
  if distance candidate checkpoint ≤ distance candidatePrev checkpoint ∧
      distance candidate checkpoint ≤ distance candidateNext checkpoint then candidate
  else if distance candidatePrev checkpoint ≤ distance candidateNext checkpoint then candidatePrev
  else candidateNext

/-- `unwrap` is the choice between the candidates of the checkpoint's cycle, the one before and
    the one after, with their values as natural numbers: `q` is the checkpoint's cycle and `o`
    the offset. -/
theorem unwrap_eq_closest (w z : Wrap32) (c : UInt64) :
    ∃ cand prev next : UInt64, w.unwrap z c = closest c cand prev next ∧
      cand.toNat = c.toNat / 2 ^ 32 * 2 ^ 32 + w.offset z ∧
      (2 ^ 32 ≤ cand.toNat → prev.toNat = cand.toNat - 2 ^ 32) ∧
      (cand.toNat < 2 ^ 32 → prev.toNat = 2 ^ 64 - 2 ^ 32 + w.offset z) ∧
      next.toNat = (cand.toNat + 2 ^ 32) % 2 ^ 64 := by
  have ho := w.offset_lt z
  have hc := c.toNat_lt
  have hone : (1 : UInt64).toNat = 1 := by decide
  have hmax : (0xFFFFFFFFFFFFFFFF : UInt64).toNat = 2 ^ 64 - 1 := by decide
  have hoff : (w.rawValue - z.rawValue).toUInt64.toNat = w.offset z := by
    rw [UInt32.toNat_toUInt64, offset]
  -- below the first cycle the code takes the last one, above the last it wraps around
  refine ⟨_, _, _, rfl, ?_, ?_, ?_, ?_⟩
  · rw [UInt64.toNat_add, UInt64.toNat_sub, UInt64.toNat_mod, toNat_cycle, hoff]
    omega
  · intro h
    have hle : cycle ≤ c - c % cycle + (w.rawValue - z.rawValue).toUInt64 := by
      rwa [UInt64.le_iff_toNat_le, toNat_cycle]
    rw [if_pos hle, UInt64.toNat_sub_of_le _ _ hle, toNat_cycle]
  · intro h
    rw [if_neg (by rw [ge_iff_le, UInt64.le_iff_toNat_le, toNat_cycle]; omega)]
    simp only [UInt64.toNat_sub, toNat_cycle, hone, hmax, hoff]
    omega
  · rw [UInt64.toNat_add, toNat_cycle]

/-- A candidate strictly closer to the checkpoint than the two others is chosen; between the
    candidate of the checkpoint's own cycle and another one, a tie goes to the former. -/
theorem closest_eq {c cand prev next r : UInt64}
    (h : r = cand ∧ distance cand c ≤ distance prev c ∧ distance cand c ≤ distance next c ∨
      r = prev ∧ distance prev c < distance cand c ∧ distance prev c ≤ distance next c ∨
      r = next ∧ distance next c < distance cand c ∧ distance next c < distance prev c) :
    closest c cand prev next = r := by
  unfold closest
  rcases h with ⟨rfl, h1, h2⟩ | ⟨rfl, h1, h2⟩ | ⟨rfl, h1, h2⟩
  · rw [if_pos ⟨h1, h2⟩]
  · rw [if_neg (fun h => UInt64.not_le.mpr h1 h.1), if_pos h2]
  · rw [if_neg (fun h => UInt64.not_le.mpr h1 h.2), if_neg (UInt64.not_le.mpr h2)]

/-- With a checkpoint in the first cycle, `unwrap` yields the offset itself, or the offset one
    cycle up when it is more than half a cycle behind the checkpoint; the candidate one cycle
    down wraps around to the far end of the 64-bit range and never wins. -/
theorem toNat_unwrap_of_checkpoint_lt_cycle (w z : Wrap32) {c : UInt64}
    (hc : c.toNat < 2 ^ 32) :
    (w.unwrap z c).toNat =
      if c.toNat ≤ w.offset z + 2 ^ 31 then w.offset z else w.offset z + 2 ^ 32 := by
  obtain ⟨cand, prev, next, heq, hcand, hprev, hprev', hnext⟩ := unwrap_eq_closest w z c
  have ho := w.offset_lt z
  rw [heq]
  by_cases h : c.toNat ≤ w.offset z + 2 ^ 31
  · rw [if_pos h, closest_eq (r := cand)]
    · omega
    · left
      simp only [UInt64.le_iff_toNat_le, toNat_distance, true_and]
      omega
  · rw [if_neg h, closest_eq (r := next)]
    · omega
    · right; right
      simp only [UInt64.lt_iff_toNat_lt, toNat_distance, true_and]
      omega

/-- The sender unwraps its next sequence number against checkpoint 0, which reads off the
    offset: the position modulo `2^32`. -/
theorem toNat_unwrap_zero (w z : Wrap32) : (w.unwrap z 0).toNat = w.offset z := by
  rw [toNat_unwrap_of_checkpoint_lt_cycle w z (by decide)]
  exact if_pos (Nat.zero_le _)

/-! ### Nearest among all -/

/-- The choice is one of the candidates, and none of them is closer. -/
theorem closest_cases (c cand prev next : UInt64) :
    (closest c cand prev next = cand ∨ closest c cand prev next = prev ∨
        closest c cand prev next = next) ∧
      (distance (closest c cand prev next) c).toNat ≤ (distance cand c).toNat ∧
      (distance (closest c cand prev next) c).toNat ≤ (distance prev c).toNat ∧
      (distance (closest c cand prev next) c).toNat ≤ (distance next c).toNat := by
  unfold closest
  simp only [UInt64.le_iff_toNat_le]
  split
  · rename_i h
    exact ⟨.inl rfl, le_rfl, h.1, h.2⟩
  · rename_i hfar
    split
    · rename_i h
      exact ⟨.inr (.inl rfl), by omega, le_rfl, h⟩
    · rename_i h
      exact ⟨.inr (.inr rfl), by omega, by omega, le_rfl⟩

/-- What wraps to a sequence number lies at its offset from the zero point. -/
theorem wrap_eq_iff {r : UInt64} {w z : Wrap32} : wrap r z = w ↔ r.toNat % 2 ^ 32 = w.offset z := by
  rw [wrap_eq_ofPos, ← offset_inj (z := z), offset_ofPos]

/-- Every candidate wraps to the sequence number, so the choice does. -/
theorem wrap_unwrap (w z : Wrap32) (c : UInt64) : wrap (w.unwrap z c) z = w := by
  obtain ⟨cand, prev, next, heq, hcand, hprev, hprev', hnext⟩ := unwrap_eq_closest w z c
  have ho := w.offset_lt z
  rw [wrap_eq_iff, heq]
  rcases (closest_cases c cand prev next).1 with h | h | h <;> rw [h]
  · omega
  · rcases lt_or_ge cand.toNat (2 ^ 32) with hfirst | hlater
    · rw [hprev' hfirst]
      omega
    · rw [hprev hlater]
      omega
  · omega

/-- Nothing that wraps to the sequence number is closer to the checkpoint. -/
theorem distance_unwrap_le {w z : Wrap32} {r : UInt64} (hr : wrap r z = w) (c : UInt64) :
    (distance (w.unwrap z c) c).toNat ≤ (distance r c).toNat := by
  obtain ⟨cand, prev, next, heq, hcand, hprev, hprev', hnext⟩ := unwrap_eq_closest w z c
  have ho := w.offset_lt z
  have hc := c.toNat_lt
  have hrlt := r.toNat_lt
  have hroff := wrap_eq_iff.mp hr
  obtain ⟨-, hle, hleprev, hlenext⟩ := closest_cases c cand prev next
  simp only [toNat_distance] at hle hleprev hlenext
  rw [heq, toNat_distance, toNat_distance]
  -- `r` lies in the checkpoint's cycle, or behind a candidate on its side of the checkpoint
  rcases lt_trichotomy (r.toNat / 2 ^ 32) (c.toNat / 2 ^ 32) with h | h | h
  · have := hprev (by omega)
    omega
  · omega
  · omega

/-- **`unwrap` inverts `wrap` near the checkpoint.**  An absolute sequence number less than
    `2^31` away from the checkpoint is recovered from its offset alone. -/
theorem toNat_unwrap_of_near {w z : Wrap32} {c : UInt64} {n : ℕ} (hn : n < 2 ^ 64)
    (hw : w.offset z = n % 2 ^ 32) (hlo : c.toNat < n + 2 ^ 31) (hhi : n < c.toNat + 2 ^ 31) :
    (w.unwrap z c).toNat = n := by
  have hr : (UInt64.ofNat n).toNat = n := by
    rw [UInt64.toNat_ofNat', Nat.mod_eq_of_lt hn]
  have hwrap : wrap (UInt64.ofNat n) z = w := by
    rw [wrap_eq_iff, hr, hw]
  have hle := distance_unwrap_le hwrap c
  have hoffset := wrap_eq_iff.mp (wrap_unwrap w z c)
  rw [toNat_distance, toNat_distance, hr] at hle
  -- two numbers with one offset, both within half a cycle of the checkpoint
  omega

/-- A position less than half a cycle from the checkpoint is unwrapped to itself. -/
theorem unwrap_ofPos_of_near {z : Wrap32} {c : UInt64} {n : ℕ} (hn : n < 2 ^ 64)
    (hlo : c.toNat < n + 2 ^ 31) (hhi : n < c.toNat + 2 ^ 31) :
    ((ofPos n z).unwrap z c).toNat = n :=
  toNat_unwrap_of_near hn (offset_ofPos n z) hlo hhi

/-- **`unwrap` is the nearest inverse of `wrap`** on all of the 64-bit range; so it recovers every
    number less than half a cycle away from the checkpoint. -/
theorem unwrap_nearest :
    (∀ (w z : Wrap32) (c : UInt64), wrap (w.unwrap z c) z = w ∧
      ∀ r : UInt64, wrap r z = w →
        |((w.unwrap z c).toNat : ℤ) - c.toNat| ≤ |(r.toNat : ℤ) - c.toNat|) ∧
    ∀ (n c : UInt64) (z : Wrap32), |(n.toNat : ℤ) - c.toNat| < 2 ^ 31 →
      (wrap n z).unwrap z c = n := by
  constructor
  · intro w z c
    refine ⟨wrap_unwrap w z c, fun r hr => ?_⟩
    have h := distance_unwrap_le hr c
    rw [toNat_distance, toNat_distance] at h
    rw [abs_le]
    constructor <;> cases abs_cases ((r.toNat : ℤ) - c.toNat) <;> omega
  · intro n c z h
    rw [abs_lt] at h
    rw [wrap_eq_ofPos, ← UInt64.toNat_inj]
    exact unwrap_ofPos_of_near n.toNat_lt (by omega) (by omega)

/-- The last number before a wrap of the 64 bits, against a checkpoint half a cycle before it. -/
theorem unwrap_nearest_last :
    (wrap 0xFFFFFFFFFFFFFFFF ⟨7⟩).unwrap ⟨7⟩ 0xFFFFFFFF80000000 = 0xFFFFFFFFFFFFFFFF :=
  unwrap_nearest.2 _ _ _ (by decide)

end Wrap32

end Minnow
