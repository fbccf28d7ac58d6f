import Mathlib

/-!
# Library — reading a list cyclically

A fixed list of cells used as a ring: the occupied part is the `len` cells found by walking
from index `start` and wrapping at the end.  `window` extracts it, and the two lemmas a ring
buffer needs say how it changes: writing the cell just past the end appends (`window_set`),
moving the start forward drops (`window_drop`).
-/

namespace CyclicBuffer

variable {α : Type*} [Inhabited α]

/-- The `len` cells read from index `start` on, wrapping at the end of the list. -/
def window (cells : List α) (start len : ℕ) : List α :=
  (List.range len).map fun i => cells.getD ((start + i) % cells.length) default

@[simp] theorem length_window (cells : List α) (start len : ℕ) :
    (window cells start len).length = len := by
  simp [window]

@[simp] theorem window_zero (cells : List α) (start : ℕ) : window cells start 0 = [] := rfl

/-- One cell more. -/
theorem window_succ (cells : List α) (start len : ℕ) :
    window cells start (len + 1)
      = window cells start len ++ [cells.getD ((start + len) % cells.length) default] := by
  simp [window, List.range_succ]

/-- Two positions less than one revolution apart are different cells. -/
theorem index_ne {n start i j : ℕ} (hij : i < j) (hj : j < i + n) :
    (start + i) % n ≠ (start + j) % n := by
  intro h
  have hdvd : n ∣ (start + j) - (start + i) := (Nat.modEq_iff_dvd' (by omega)).mp h
  have hle : n ≤ (start + j) - (start + i) := Nat.le_of_dvd (by omega) hdvd
  omega

/-- Writing a cell outside the window leaves the window alone. -/
theorem window_set_of_lt (cells : List α) (start : ℕ) {len k : ℕ} (x : α) (hlen : len ≤ k)
    (hk : k < cells.length) :
    window (cells.set ((start + k) % cells.length) x) start len = window cells start len := by
  induction len with
  | zero => rfl
  | succ m ih =>
    rw [window_succ, window_succ, ih (by omega), List.length_set, List.getD_eq_getElem?_getD,
      List.getD_eq_getElem?_getD, List.getElem?_set_ne (index_ne (by omega) (by omega)).symm]

/-- **Append.** Writing the first free cell extends the window by the value written. -/
theorem window_set (cells : List α) (start : ℕ) {len : ℕ} (x : α) (hlen : len < cells.length) :
    window (cells.set ((start + len) % cells.length) x) start (len + 1)
      = window cells start len ++ [x] := by
  have hlt : (start + len) % cells.length < cells.length := Nat.mod_lt _ (by omega)
  rw [window_succ, window_set_of_lt cells start x le_rfl hlen, List.length_set,
    List.getD_eq_getElem?_getD, List.getElem?_set_self hlt, Option.getD_some]

/-- The start of a window may be reduced modulo the number of cells. -/
theorem window_mod (cells : List α) (start len : ℕ) :
    window cells (start % cells.length) len = window cells start len := by
  simp [window, Nat.mod_add_mod]

/-- **Drop.** Moving the start forward drops the cells it passes. -/
theorem window_drop (cells : List α) (start len k : ℕ) :
    window cells ((start + k) % cells.length) (len - k) = (window cells start len).drop k := by
  rw [window_mod]
  apply List.ext_getElem?
  intro i
  simp only [window, List.getElem?_drop, List.getElem?_map]
  by_cases h : k + i < len
  · rw [List.getElem?_range (by omega), List.getElem?_range h]
    simp only [Option.map_some, add_assoc]
  · rw [List.getElem?_eq_none (by simp; omega), List.getElem?_eq_none (by simp; omega)]
    rfl

/-- The first cell of a non-empty window is the one at its start. -/
theorem window_head {cells : List α} {start len : ℕ} (hstart : start < cells.length)
    (hlen : 0 < len) :
    (window cells start len).take 1 = [cells.getD start default] := by
  obtain ⟨m, rfl⟩ : ∃ m, len = m + 1 := ⟨len - 1, by omega⟩
  simp [window, List.range_succ_eq_map, Nat.mod_eq_of_lt hstart]

end CyclicBuffer
