import Mathlib

/-!
# Library — loops that need not end

A loop `while ( cond ) { body }` whose body may throw.

* `loop` — the loop for so many passes at most; it has no result when there would be another;
* `Ends` — the loop ends with a result, after however many passes; `ends_of_not`, `ends_of_ok` and
  `ends_of_error` say how, and `Ends.unique` that there is one result at most;
* `not_ends_of_stuck` — a pass that changes nothing is followed by another for ever.
-/

namespace While

variable {σ ε : Type*} (cond : σ → Prop) [DecidablePred cond] (body : σ → Except ε σ)

/-- The loop for at most `fuel` passes. -/
def loop : ℕ → σ → Option (Except ε σ)
  | 0, s => if cond s then none else some (.ok s)
  | fuel + 1, s =>
    if cond s then
      match body s with
      | .error e => some (.error e)
      | .ok s' => loop fuel s'
    else some (.ok s)

/-- The loop ends. -/
def Ends (s : σ) (result : Except ε σ) : Prop := ∃ fuel, loop cond body fuel s = some result

variable {cond body}

theorem loop_of_not {s : σ} (h : ¬ cond s) (fuel : ℕ) :
    loop cond body fuel s = some (.ok s) := by
  cases fuel <;> simp [loop, h]

theorem loop_succ_of_ok {s s' : σ} (h : cond s) (hbody : body s = .ok s') (fuel : ℕ) :
    loop cond body (fuel + 1) s = loop cond body fuel s' := by
  simp [loop, h, hbody]

/-- The loop is not entered. -/
theorem ends_of_not {s : σ} (h : ¬ cond s) {result : Except ε σ} :
    Ends cond body s result ↔ result = .ok s := by
  unfold Ends
  simp only [loop_of_not h, Option.some_inj, exists_const]
  exact eq_comm

/-- A pass, and then the others. -/
theorem ends_of_ok {s s' : σ} (h : cond s) (hbody : body s = .ok s') {result : Except ε σ} :
    Ends cond body s result ↔ Ends cond body s' result := by
  constructor
  · rintro ⟨fuel, hfuel⟩
    cases fuel with
    | zero => simp [loop, h] at hfuel
    | succ fuel => exact ⟨fuel, loop_succ_of_ok h hbody fuel ▸ hfuel⟩
  · rintro ⟨fuel, hfuel⟩
    exact ⟨fuel + 1, (loop_succ_of_ok h hbody fuel).trans hfuel⟩

/-- A pass that throws is the last. -/
theorem ends_of_error {s : σ} {e : ε} (h : cond s) (hbody : body s = .error e)
    {result : Except ε σ} : Ends cond body s result ↔ result = .error e := by
  constructor
  · rintro ⟨fuel, hfuel⟩
    cases fuel with
    | zero => simp [loop, h] at hfuel
    | succ fuel => simpa [loop, h, hbody, eq_comm] using hfuel
  · rintro rfl
    exact ⟨1, by simp [loop, h, hbody]⟩

/-- **One result** at most, however many passes are allowed for. -/
theorem Ends.unique {s : σ} {r r' : Except ε σ} (h : Ends cond body s r)
    (h' : Ends cond body s r') : r = r' := by
  obtain ⟨fuel, hfuel⟩ := h
  induction fuel generalizing s with
  | zero =>
    by_cases hs : cond s
    · simp [loop, hs] at hfuel
    · rw [ends_of_not hs] at h'
      simpa [loop, hs, h', eq_comm] using hfuel
  | succ fuel ih =>
    by_cases hs : cond s
    · cases hbody : body s with
      | error e =>
        rw [ends_of_error hs hbody] at h'
        simpa [loop, hs, hbody, h', eq_comm] using hfuel
      | ok s' =>
        rw [loop_succ_of_ok hs hbody] at hfuel
        exact ih ((ends_of_ok hs hbody).mp h') hfuel
    · rw [ends_of_not hs] at h'
      simpa [loop, hs, h', eq_comm] using hfuel

/-- **A loop that makes no progress** does not end. -/
theorem not_ends_of_stuck {s : σ} (h : cond s) (hbody : body s = .ok s) (result : Except ε σ) :
    ¬ Ends cond body s result := by
  rintro ⟨fuel, hfuel⟩
  induction fuel with
  | zero => simp [loop, h] at hfuel
  | succ fuel ih => exact ih (loop_succ_of_ok h hbody fuel ▸ hfuel)

end While
