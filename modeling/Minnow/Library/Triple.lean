import Mathlib

/-!
# Library — programs with state and exceptions

A program of type `StateT σ (Except ε) α` ends with a value in a new state, or throws.

`Gives P E x a Q` — from a state in `P` the program `x` ends with the value `a` in a state in
`Q`, or throws an exception in `E`.  The value stands outside the assertions, so that in a
sequence of programs the later ones are told the values of those before.  The rules follow the
way programs are put together.
-/

namespace StateExcept

universe u v

variable {σ α β : Type u} {ε : Type v} {P Q R : σ → Prop} {E : ε → Prop}

/-- From a state with `P` the computation returns `a` and leaves a state with `Q`, or fails with an
    error of the kind `E`. -/
def Gives (P : σ → Prop) (E : ε → Prop) (x : StateT σ (Except ε) α) (a : α) (Q : σ → Prop) :
    Prop :=
  ∀ s, P s → (∃ s', x.run s = .ok (a, s') ∧ Q s') ∨ ∃ e, x.run s = .error e ∧ E e

namespace Gives

/-- Returning leaves the state. -/
theorem pure (a : α) : Gives P E (pure a : StateT σ (Except ε) α) a P :=
  fun s hs => .inl ⟨s, rfl, hs⟩

/-- The rule of sequence; either part may fail. -/
theorem bind {x : StateT σ (Except ε) α} {f : α → StateT σ (Except ε) β} {a : α} {b : β}
    (hx : Gives P E x a Q) (hf : Gives Q E (f a) b R) : Gives P E (x >>= f) b R := by
  intro s hs
  rw [StateT.run_bind]
  rcases hx s hs with ⟨t, hrun, ht⟩ | ⟨e, hrun, he⟩
  · rw [hrun]
    exact hf t ht
  · rw [hrun]
    exact .inr ⟨e, rfl, he⟩

/-- Computing a value from that of a program. -/
theorem map {x : StateT σ (Except ε) α} {a : α} (f : α → β) (hx : Gives P E x a Q) :
    Gives P E (f <$> x) (f a) Q := by
  rw [map_eq_pure_bind]
  exact hx.bind (.pure (f a))

/-- The rule for changing the state. -/
theorem modify {f : σ → σ} (h : ∀ s, P s → Q (f s)) :
    Gives P E (modify f : StateT σ (Except ε) PUnit) ⟨⟩ Q :=
  fun s hs => .inl ⟨f s, rfl, h s hs⟩

/-- The rule for looking at the state. -/
theorem gets {f : σ → α} {a : α} (h : ∀ s, P s → f s = a) :
    Gives P E (do return f (← get) : StateT σ (Except ε) α) a P := by
  intro s hs
  refine .inl ⟨s, ?_, hs⟩
  rw [← h s hs]
  rfl

/-- The rule for a choice. -/
theorem ite {c : Prop} [Decidable c] {x y : StateT σ (Except ε) α} {a : α}
    (hx : c → Gives P E x a Q) (hy : ¬ c → Gives P E y a Q) :
    Gives P E (if c then x else y) a Q := by
  split
  · rename_i hc
    exact hx hc
  · rename_i hc
    exact hy hc

/-- **Consequence.** -/
theorem mono {P' Q' : σ → Prop} {x : StateT σ (Except ε) α} {a : α} (hP : ∀ s, P' s → P s)
    (hQ : ∀ s, Q s → Q' s) (h : Gives P E x a Q) : Gives P' E x a Q' :=
  fun s hs => (h s (hP s hs)).imp_left fun ⟨t, hrun, ht⟩ => ⟨t, hrun, hQ t ht⟩

/-- More exceptions may be allowed. -/
theorem weaken {E' : ε → Prop} {x : StateT σ (Except ε) α} {a : α} (hE : ∀ e, E e → E' e)
    (h : Gives P E x a Q) : Gives P E' x a Q :=
  fun s hs => (h s hs).imp_right fun ⟨e, hrun, he⟩ => ⟨e, hrun, hE e he⟩

end Gives

end StateExcept
