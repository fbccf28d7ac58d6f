import Mathlib

/-!
# Library — runs of a deterministic machine

A machine is a step function `σ → ι → σ`; a run folds it over a list of inputs.  These rules
carry invariants from steps to runs:

* `run_map` — a view of a machine that steps as another machine does runs as that one does;
* `run_invariant` — an invariant kept by every step holds at the end of every run;
* `Meets.invariant` — in a run whose steps all meet a condition on the state before the step
  and the input, an invariant kept by such steps holds at the end;
* `run_invariant_of_bound` — an invariant kept within a bound that cannot be re-entered (of a
  quantity that never decreases, say) holds at the end of every run that ends within it;
* `meets_iff_prefix` — the steps of a run are those that end its prefixes;
* `Meets.run_filter` — inputs that leave the state as it is may be left out of a run;
* `run_related` — a relation kept by every step from two states holds at the end of two runs;
* `Separable` — some inputs take two states to states that look different, which no relation that
  is kept and cannot be seen allows (`not_separable_of_related`).
-/

namespace Machine

variable {σ ι : Type*} (step : σ → ι → σ)

/-- The state reached from `s` by the inputs, in order. -/
def run (s : σ) (inputs : List ι) : σ := inputs.foldl step s

@[simp] theorem run_nil (s : σ) : run step s [] = s := rfl

@[simp] theorem run_cons (s : σ) (i : ι) (is : List ι) :
    run step s (i :: is) = run step (step s i) is := rfl

/-- Some inputs, and others behind them. -/
theorem run_append (s : σ) (is js : List ι) :
    run step s (is ++ js) = run step (run step s is) js :=
  List.foldl_append

/-- Some inputs, and one more. -/
theorem run_concat (s : σ) (is : List ι) (i : ι) :
    run step s (is ++ [i]) = step (run step s is) i := by
  rw [run_append, run_cons, run_nil]

/-- A view of a machine that steps as another machine does runs as that one does. -/
theorem run_map {τ : Type*} {step : σ → ι → σ} {step' : τ → ι → τ} (f : σ → τ)
    (h : ∀ s i, f (step s i) = step' (f s) i) (s : σ) (is : List ι) :
    f (run step s is) = run step' (f s) is := by
  induction is generalizing s with
  | nil => rfl
  | cons i is ih => rw [run_cons, run_cons, ih, h]

/-- Every step of the run is taken in a state, and on an input, that meet the condition. -/
def Meets (cond : σ → ι → Prop) : σ → List ι → Prop
  | _, [] => True
  | s, i :: is => cond s i ∧ Meets cond (step s i) is

variable {step}

/-- Some inputs that meet the condition, and others behind them. -/
theorem meets_append {cond : σ → ι → Prop} {s : σ} {is js : List ι} :
    Meets step cond s (is ++ js) ↔ Meets step cond s is ∧ Meets step cond (run step s is) js := by
  induction is generalizing s with
  | nil => simp [Meets]
  | cons i is ih => simp [Meets, ih, and_assoc]

/-- The last step of a run meets the condition in the state the steps before it reached. -/
theorem meets_concat {cond : σ → ι → Prop} {s : σ} {is : List ι} {i : ι} :
    Meets step cond s (is ++ [i]) ↔ Meets step cond s is ∧ cond (run step s is) i := by
  rw [meets_append]
  simp [Meets]

instance Meets.decidable {cond : σ → ι → Prop} [∀ s i, Decidable (cond s i)] :
    (s : σ) → (is : List ι) → Decidable (Meets step cond s is)
  | _, [] => .isTrue trivial
  | s, i :: is => @instDecidableAnd _ _ _ (Meets.decidable (step s i) is)

/-- A weaker condition is met as well. -/
theorem Meets.mono {cond cond' : σ → ι → Prop} (h : ∀ s i, cond s i → cond' s i) {s : σ}
    {is : List ι} (hm : Meets step cond s is) : Meets step cond' s is := by
  induction is generalizing s with
  | nil => trivial
  | cons i is ih => exact ⟨h s i hm.1, ih hm.2⟩

/-- Conditions that agree on the inputs of a run, in any state. -/
theorem meets_congr {cond cond' : σ → ι → Prop} {s : σ} {is : List ι}
    (h : ∀ s, ∀ i ∈ is, (cond s i ↔ cond' s i)) : Meets step cond s is ↔ Meets step cond' s is := by
  induction is generalizing s with
  | nil => exact Iff.rfl
  | cons i is ih =>
    have hrest := ih (s := step s i) fun s j hj => h s j (List.mem_cons_of_mem i hj)
    exact and_congr (h s i List.mem_cons_self) hrest

/-- Two conditions that are met. -/
theorem Meets.and {cond cond' : σ → ι → Prop} {s : σ} {is : List ι} (h : Meets step cond s is)
    (h' : Meets step cond' s is) : Meets step (fun s i => cond s i ∧ cond' s i) s is := by
  induction is generalizing s with
  | nil => trivial
  | cons i is ih => exact ⟨⟨h.1, h'.1⟩, ih h.2 h'.2⟩

/-- A run meets a condition when each of its steps does, wherever it stands in the run. -/
theorem meets_iff_prefix {cond : σ → ι → Prop} {s : σ} {is : List ι} :
    Meets step cond s is ↔ ∀ js i, js ++ [i] <+: is → cond (run step s js) i := by
  constructor
  · rintro hm js i ⟨ks, rfl⟩
    exact (meets_concat.mp (meets_append.mp hm).1).2
  · intro h
    induction is using List.reverseRecOn with
    | nil => trivial
    | append_singleton is i ih =>
      refine meets_concat.mpr ⟨ih fun js j hpre => h js j ?_, h is i (List.prefix_refl _)⟩
      exact hpre.trans (List.prefix_append is [i])

/-- **Guarded invariant rule.** -/
theorem Meets.invariant {cond : σ → ι → Prop} {P : σ → Prop}
    (hstep : ∀ s i, P s → cond s i → P (step s i)) {s : σ} {is : List ι}
    (hm : Meets step cond s is) (h0 : P s) : P (run step s is) := by
  induction is generalizing s with
  | nil => exact h0
  | cons i is ih => exact ih hm.2 (hstep s i h0 hm.1)

/-- **Invariant rule.** What holds of the first state and is kept by every step holds of every
    state reached. -/
theorem run_invariant {P : σ → Prop} (hstep : ∀ s i, P s → P (step s i)) {s : σ} (h0 : P s)
    (is : List ι) : P (run step s is) := by
  induction is generalizing s with
  | nil => exact h0
  | cons i is ih => exact ih (hstep s i h0)

/-- **Two runs.** A relation between states that is kept when both take the same input holds at the
    end of two runs on the same inputs. -/
theorem run_related {τ : Type*} {step' : τ → ι → τ} {R : σ → τ → Prop} {is : List ι}
    (hstep : ∀ s t, ∀ i ∈ is, R s t → R (step s i) (step' t i)) {s : σ} {t : τ} (h : R s t) :
    R (run step s is) (run step' t is) := by
  induction is generalizing s t with
  | nil => exact h
  | cons i is ih =>
    refine ih (fun s t j hj => hstep s t j (List.mem_cons_of_mem i hj)) ?_
    exact hstep s t i List.mem_cons_self h

/-- **Guarded and bounded invariant rule.** A bound that held before every step after which it
    holds has held all along the run: only the steps that stay within it, and meet the
    condition, need to keep the invariant. -/
theorem Meets.invariant_of_bound {cond : σ → ι → Prop} {P : σ → Prop} (bound : σ → Prop)
    (hback : ∀ s i, bound (step s i) → bound s)
    (hstep : ∀ s i, P s → cond s i → bound (step s i) → P (step s i)) {s : σ} {is : List ι}
    (hm : Meets step cond s is) (h0 : P s) (hend : bound (run step s is)) :
    P (run step s is) := by
  induction is using List.reverseRecOn with
  | nil => exact h0
  | append_singleton is i ih =>
    obtain ⟨his, hi⟩ := meets_concat.mp hm
    rw [run_concat] at hend ⊢
    exact hstep _ i (ih his (hback _ i hend)) hi hend

/-- An invariant holds before every step. -/
theorem meets_invariant {P : σ → Prop} (hstep : ∀ s i, P s → P (step s i)) {s : σ} (h0 : P s)
    (is : List ι) : Meets step (fun s _ => P s) s is := by
  induction is generalizing s with
  | nil => trivial
  | cons i is ih => exact ⟨h0, ih (hstep s i h0)⟩

/-- **Inputs without effect.** In a run where every input that is not kept leaves the state as it
    is, these inputs may as well be left out. -/
theorem Meets.run_filter {keep : ι → Bool} {s : σ} {is : List ι}
    (h : Meets step (fun s i => keep i = false → step s i = s) s is) :
    run step s (is.filter keep) = run step s is := by
  induction is generalizing s with
  | nil => rfl
  | cons i is ih =>
    obtain ⟨hi, his⟩ := h
    rw [run_cons, ← ih his]
    cases hkeep : keep i with
    | true => rw [List.filter_cons_of_pos hkeep, run_cons]
    | false => rw [List.filter_cons_of_neg (by simp [hkeep]), hi hkeep]

/-- Every run meets the trivial condition. -/
theorem meets_true (s : σ) (is : List ι) : Meets step (fun _ _ => True) s is :=
  meets_invariant (P := fun _ => True) (fun _ _ _ => trivial) trivial is

/-- A condition on the inputs alone. -/
theorem meets_of_forall {p : ι → Prop} {s : σ} {is : List ι} (h : ∀ i ∈ is, p i) :
    Meets step (fun _ i => p i) s is :=
  (meets_congr fun _ i hi => iff_of_true trivial (h i hi)).mp (meets_true s is)

/-- **Bounded invariant rule.** -/
theorem run_invariant_of_bound {P : σ → Prop} (bound : σ → Prop)
    (hback : ∀ s i, bound (step s i) → bound s)
    (hstep : ∀ s i, P s → bound (step s i) → P (step s i))
    {s : σ} (h0 : P s) (is : List ι) (hend : bound (run step s is)) : P (run step s is) :=
  (meets_true s is).invariant_of_bound bound hback (fun s i hP _ => hstep s i hP) h0 hend

/-! ### Telling states apart -/

section Separable

variable {α : Type*} {kind : ι → Prop} {observe : σ → α} {s t : σ}

/-- Some inputs of a kind take two states to states that look different. -/
def Separable (step : σ → ι → σ) (kind : ι → Prop) (observe : σ → α) (s t : σ) : Prop :=
  ∃ is : List ι, (∀ i ∈ is, kind i) ∧ observe (run step s is) ≠ observe (run step t is)

/-- States that are observed to be different are told apart at once. -/
theorem separable_of_ne (h : observe s ≠ observe t) : Separable step kind observe s t :=
  ⟨[], by simp, h⟩

/-- What tells one state from another tells the other from the one. -/
theorem Separable.symm (h : Separable step kind observe s t) : Separable step kind observe t s := by
  obtain ⟨is, hkind, hne⟩ := h
  exact ⟨is, hkind, hne.symm⟩

/-- One input more, taken before the others. -/
theorem Separable.of_step {i : ι} (hi : kind i)
    (h : Separable step kind observe (step s i) (step t i)) : Separable step kind observe s t := by
  obtain ⟨is, hkind, hne⟩ := h
  refine ⟨i :: is, ?_, hne⟩
  intro j hj
  rcases List.mem_cons.mp hj with rfl | hj
  · exact hi
  · exact hkind j hj

/-- A relation that every step keeps, and that only relates what looks the same. -/
theorem not_separable_of_related {R : σ → σ → Prop}
    (hstep : ∀ s t i, kind i → R s t → R (step s i) (step t i))
    (hlook : ∀ s t, R s t → observe s = observe t) (h : R s t) :
    ¬ Separable step kind observe s t := by
  rintro ⟨is, hkind, hne⟩
  apply hne
  apply hlook
  exact run_related (fun s t i hi => hstep s t i (hkind i hi)) h

end Separable

end Machine
