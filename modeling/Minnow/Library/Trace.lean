import Minnow.Library.Machine

/-!
# Library — infinite runs

A trace is a run of a machine (`Library.Machine`) that goes on for ever.

* `trace_invariant` — an invariant kept by every step that meets a condition holds all along a
  trace whose steps meet it;
* `settles_of_monotone` — a number that never decreases and is bounded stays the same from some
  time on;
* `FairLink` — a link may lose messages, duplicate, delay and reorder them, but of a kind that is
  put in again and again, one is taken out again and again.
-/

open Filter

namespace Machine

variable {σ ι : Type*}

/-- The states reached from `s` by the inputs, one after the other. -/
def trace (step : σ → ι → σ) (s : σ) (inputs : ℕ → ι) : ℕ → σ
  | 0 => s
  | n + 1 => step (trace step s inputs n) (inputs n)

variable {step : σ → ι → σ} {s : σ} {inputs : ℕ → ι}

/-- **Invariant rule.**  The states of the trace are within a bound. -/
theorem trace_invariant {cond : σ → ι → Prop} {P bound : σ → Prop}
    (hstep : ∀ s i, P s → cond s i → bound (step s i) → P (step s i))
    (hmeets : ∀ n, cond (trace step s inputs n) (inputs n))
    (hbound : ∀ n, bound (trace step s inputs n)) (h0 : P s) (n : ℕ) :
    P (trace step s inputs n) := by
  induction n with
  | zero => exact h0
  | succ n ih => exact hstep _ _ ih (hmeets n) (hbound (n + 1))

/-- A finite run, and then inputs that change nothing. -/
theorem trace_eq_run_take {is : List ι} {i : ι} (hidle : step (run step s is) i = run step s is)
    (n : ℕ) : trace step s (fun k => (is[k]?).getD i) n = run step s (is.take n) := by
  induction n with
  | zero => rfl
  | succ n ih =>
    rw [trace, ih]
    rcases lt_or_ge n is.length with hlt | hge
    · rw [List.take_add_one, List.getElem?_eq_getElem hlt, Option.getD_some, Option.toList_some,
        run_concat]
    · rw [List.getElem?_eq_none hge, Option.getD_none, List.take_of_length_le hge, hidle,
        List.take_of_length_le (Nat.le_succ_of_le hge)]

end Machine

namespace Trace

/-- A bounded number that never decreases stays the same from some time on. -/
theorem settles_of_monotone {f : ℕ → ℕ} (hf : Monotone f) {bound : ℕ}
    (hbound : ∀ n, f n ≤ bound) : ∀ᶠ N in atTop, ∀ n ≥ N, f n = f N := by
  -- the time after which least is left
  let N := Function.argmin fun n => bound - f n
  have hlast : ∀ n ≥ N, f n = f N := by
    intro n hn
    have hleast : bound - f N ≤ bound - f n := Function.argmin_le (fun n => bound - f n) n
    have hmono := hf hn
    have hle := hbound n
    omega
  filter_upwards [eventually_ge_atTop N] with M hM n hn
  rw [hlast n (hM.trans hn), hlast M hM]

variable {μ : Type*}

/-- What a link that loses messages must not do. -/
def FairLink (put taken : ℕ → Set μ) : Prop :=
  ∀ P : μ → Prop, (∃ᶠ n in atTop, ∃ x ∈ put n, P x) → ∃ᶠ n in atTop, ∃ x ∈ taken n, P x

/-- A link that nothing is put in after some time is fair. -/
theorem fairLink_of_eventually_empty {put taken : ℕ → Set μ} (h : ∀ᶠ n in atTop, put n = ∅) :
    FairLink put taken := by
  intro P hput
  obtain ⟨n, ⟨x, hx, -⟩, hempty⟩ := (hput.and_eventually h).exists
  rw [hempty] at hx
  exact absurd hx (Set.notMem_empty x)

end Trace
