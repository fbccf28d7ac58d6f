import Mathlib

/-!
# Library — bounded queues

A queue with room for `capacity` items, which can be closed for further items.  Beside the items
it holds, a queue remembers everything it has accepted and everything that was removed from it;
that these fit together is part of the type.
-/

/-- A queue with room for `capacity` items, and all that has ever been put in and taken out. -/
structure BoundedQueue (α : Type*) where
  capacity : ℕ
  queue : List α := []
  closed : Bool := false
  accepted : List α := []
  removed : List α := []
  length_le : queue.length ≤ capacity
  /-- what was accepted is what was removed, and behind it what is still there -/
  accepted_eq : accepted = removed ++ queue

namespace BoundedQueue

variable {α : Type*}

/-- An empty queue. -/
def new (capacity : ℕ) : BoundedQueue α :=
  { capacity, length_le := Nat.zero_le _, accepted_eq := rfl }

/-- How many items there is room for. -/
def room (q : BoundedQueue α) : ℕ := q.capacity - q.queue.length

/-- Accept as many items as there is room for, in order. -/
def push (q : BoundedQueue α) (xs : List α) : BoundedQueue α :=
  if q.closed then q
  else
    { q with
      queue := q.queue ++ xs.take q.room
      accepted := q.accepted ++ xs.take q.room
      length_le := by
        have := q.length_le
        rw [List.length_append, List.length_take, room]
        omega
      accepted_eq := by rw [q.accepted_eq, List.append_assoc] }

/-- Nothing more is accepted. -/
def close (q : BoundedQueue α) : BoundedQueue α := { q with closed := true }

/-- Remove the first `n` items, or all there are. -/
def take (q : BoundedQueue α) (n : ℕ) : BoundedQueue α :=
  { q with
    queue := q.queue.drop n
    removed := q.removed ++ q.queue.take n
    length_le := by
      have := q.length_le
      rw [List.length_drop]
      omega
    accepted_eq := by rw [q.accepted_eq, List.append_assoc, List.take_append_drop] }

/-- Items leave in the order in which they came. -/
theorem removed_prefix (q : BoundedQueue α) : q.removed <+: q.accepted :=
  ⟨q.queue, q.accepted_eq.symm⟩

/-- Everything accepted was removed if and only if nothing is left. -/
theorem removed_eq_iff (q : BoundedQueue α) : q.removed = q.accepted ↔ q.queue = [] := by
  rw [q.accepted_eq, List.self_eq_append_right]

end BoundedQueue
