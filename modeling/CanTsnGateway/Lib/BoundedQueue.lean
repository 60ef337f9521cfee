/-!
# Bounded first-in-first-out queues

A sender that finds the queue full is refused, a receiver that finds it empty gets
nothing.

    items after send = items ++ (the item, if accepted)                      (items_send)
    items before receive = (the item, if any) ++ items after              (items_receive)
-/

structure BoundedQueue (α : Type) where
  capacity : Nat
  items : List α
  length_le : items.length ≤ capacity

namespace BoundedQueue

variable {α : Type}

def empty (capacity : Nat) : BoundedQueue α := ⟨capacity, [], Nat.zero_le capacity⟩

/-- `false` when the queue is full. -/
def send (q : BoundedQueue α) (a : α) : Bool × BoundedQueue α :=
  if h : q.items.length < q.capacity then
    (true, ⟨q.capacity, q.items ++ [a], by rw [List.length_append]; exact h⟩)
  else (false, q)

def receive (q : BoundedQueue α) : Option α × BoundedQueue α :=
  match h : q.items with
  | [] => (none, q)
  | a :: as => (some a, ⟨q.capacity, as, by
      have := q.length_le
      rw [h, List.length_cons] at this
      omega⟩)

/-- In front of all the others. -/
def sendFront (q : BoundedQueue α) (a : α) : Bool × BoundedQueue α :=
  if h : q.items.length < q.capacity then (true, ⟨q.capacity, a :: q.items, h⟩) else (false, q)

/-- A queue of one place holds `a`, whatever it held. -/
def replace (q : BoundedQueue α) (h : q.capacity = 1) (a : α) : BoundedQueue α :=
  ⟨q.capacity, [a], Nat.le_of_eq h.symm⟩

theorem items_send (q : BoundedQueue α) (a : α) :
    (send q a).2.items = q.items ++ (if (send q a).1 then [a] else []) := by
  unfold send
  split <;> simp

theorem items_receive (q : BoundedQueue α) :
    q.items = (receive q).1.toList ++ (receive q).2.items := by
  unfold receive
  split
  · next h => simp
  · next a as h => simp [h]

theorem capacity_send (q : BoundedQueue α) (a : α) : (send q a).2.capacity = q.capacity := by
  unfold send
  split <;> rfl

theorem capacity_receive (q : BoundedQueue α) : (receive q).2.capacity = q.capacity := by
  unfold receive
  split <;> rfl

theorem send_accepts_iff (q : BoundedQueue α) (a : α) :
    (send q a).1 = true ↔ q.items.length < q.capacity := by
  unfold send
  split
  · next h => simp [h]
  · next h => simp [h]

/-! ## The same queue of other items -/

section Map

variable {β : Type} (f : α → β)

def map (q : BoundedQueue α) : BoundedQueue β :=
  ⟨q.capacity, q.items.map f, by rw [List.length_map]; exact q.length_le⟩

theorem send_map (q : BoundedQueue α) (a : α) : send (map f q) (f a) = ((send q a).1, map f (send q a).2) := by
  by_cases h : q.items.length < q.capacity
  · have hmap : (map f q).items.length < (map f q).capacity := by
      show (q.items.map f).length < q.capacity
      rwa [List.length_map]
    have hsend : send q a = (true, ⟨q.capacity, q.items ++ [a], by rw [List.length_append]; exact h⟩) := dif_pos h
    unfold send
    rw [dif_pos hmap, dif_pos h]
    simp [map]
  · have hmap : ¬ (map f q).items.length < (map f q).capacity := by
      show ¬ (q.items.map f).length < q.capacity
      rwa [List.length_map]
    unfold send
    rw [dif_neg hmap, dif_neg h]

theorem receive_map (q : BoundedQueue α) :
    receive (map f q) = ((receive q).1.map f, map f (receive q).2) := by
  obtain ⟨capacity, items, hle⟩ := q
  cases items with
  | nil => rfl
  | cons a as => rfl

end Map

end BoundedQueue
