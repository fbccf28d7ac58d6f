import Mathlib

/-!
# Library — ledgers

A ledger keeps account of items that come one after the other, of which some have to wait.  An item
is settled in one of several ways, all that wait at once or a new one when none waits, so that items
that are settled the same way are so in the order in which they came (`settledAs_sublist`).
-/

/-- The items that are settled, with the way in which each is, and behind them those that wait. -/
structure Ledger (α β : Type*) where
  settled : List (α × β) := []
  waiting : List α := []

namespace Ledger

variable {α β : Type*}

/-- All items, in the order in which they came. -/
def items (l : Ledger α β) : List α := l.settled.map Prod.fst ++ l.waiting

/-- An item comes and waits. -/
def enter (l : Ledger α β) (a : α) : Ledger α β := { l with waiting := l.waiting ++ [a] }

/-- All that wait are settled in the same way. -/
def settle (l : Ledger α β) (b : β) : Ledger α β :=
  { settled := l.settled ++ l.waiting.map fun a => (a, b) }

@[simp] theorem items_enter (l : Ledger α β) (a : α) : (l.enter a).items = l.items ++ [a] := by
  simp [items, enter]

@[simp] theorem items_settle (l : Ledger α β) (b : β) : (l.settle b).items = l.items := by
  simp [items, settle, Function.comp_def]

@[simp] theorem waiting_enter (l : Ledger α β) (a : α) : (l.enter a).waiting = l.waiting ++ [a] :=
  rfl

@[simp] theorem waiting_settle (l : Ledger α β) (b : β) : (l.settle b).waiting = [] := rfl

variable [DecidableEq β]

/-- The items that are settled in some way. -/
def settledAs (l : Ledger α β) (b : β) : List α := (l.settled.filter fun p => p.2 = b).map Prod.fst

/-- A new item has no fate yet. -/
theorem settledAs_enter (l : Ledger α β) (a : α) (b : β) :
    (l.enter a).settledAs b = l.settledAs b := rfl

/-- All that waits gets the fate. -/
theorem settledAs_settle_self (l : Ledger α β) (b : β) :
    (l.settle b).settledAs b = l.settledAs b ++ l.waiting := by
  simp [settledAs, settle, List.filter_map, Function.comp_def]

/-- The other fates are as they were. -/
theorem settledAs_settle_of_ne (l : Ledger α β) {b b' : β} (h : b' ≠ b) :
    (l.settle b').settledAs b = l.settledAs b := by
  simp [settledAs, settle, List.filter_map, Function.comp_def, h]

/-- **Order.**  Items that are settled in the same way are a part of all items, in their order. -/
theorem settledAs_sublist (l : Ledger α β) (b : β) : (l.settledAs b).Sublist l.items :=
  (List.filter_sublist.map Prod.fst).trans (List.sublist_append_left _ _)

/-- **Balance.**  Where there are two ways, an item is settled in the one or the other, or waits. -/
theorem items_perm (l : Ledger α β) {b b' : β} (hall : ∀ c, c ≠ b ↔ c = b') :
    l.items.Perm (l.settledAs b ++ (l.settledAs b' ++ l.waiting)) := by
  have hother :
      (l.settled.filter fun p => !decide (p.2 = b)) = l.settled.filter fun p => p.2 = b' := by
    refine List.filter_congr fun p _ => ?_
    rw [← decide_not, decide_eq_decide]
    exact hall p.2
  have hsplit := List.filter_append_perm (fun p => decide (p.2 = b)) l.settled
  rw [hother] at hsplit
  rw [← List.append_assoc, settledAs, settledAs, ← List.map_append]
  exact (hsplit.symm.map Prod.fst).append_right l.waiting

end Ledger
