import Mathlib.Data.List.Basic

/-!
# A queue that drops what does not fit

A producer offers items to a queue of `cap` places and counts those that are refused;
a consumer takes them from the front.

- `offer`, `take`: the two operations, with what has been offered and taken so far as
  history.
- `Balanced`: what was taken, followed by what is queued, is a sublist of what was
  offered, and what is missing from it has been counted. Every offer and every take
  keeps this.
-/

universe u

/-- The queue with its history. -/
structure LossyQueue (α : Type u) where
  offered : List α
  taken : List α
  queue : List α
  drops : ℕ

namespace LossyQueue

variable {α : Type u}

def empty : LossyQueue α := { offered := [], taken := [], queue := [], drops := 0 }

/-- An offer, refused if the queue is full. -/
def offer (cap : ℕ) (q : LossyQueue α) (x : α) : LossyQueue α :=
  if q.queue.length < cap then
    { q with offered := q.offered ++ [x], queue := q.queue ++ [x] }
  else { q with offered := q.offered ++ [x], drops := q.drops + 1 }

/-- Taking the first item, if there is one. -/
def take (q : LossyQueue α) : LossyQueue α :=
  match q.queue with
  | [] => q
  | x :: queue => { q with taken := q.taken ++ [x], queue }

/-- Every item offered is taken, queued or counted as dropped, in order. -/
structure Balanced (q : LossyQueue α) : Prop where
  order : (q.taken ++ q.queue).Sublist q.offered
  count : q.offered.length = (q.taken ++ q.queue).length + q.drops

theorem balanced_empty : Balanced (empty : LossyQueue α) where
  order := List.Sublist.refl _
  count := rfl

theorem Balanced.offer {q : LossyQueue α} (h : q.Balanced) (cap : ℕ) (x : α) :
    (q.offer cap x).Balanced := by
  have hcount := h.count
  unfold LossyQueue.offer
  split
  · constructor
    · show (q.taken ++ (q.queue ++ [x])).Sublist (q.offered ++ [x])
      rw [← List.append_assoc]
      exact h.order.append (List.Sublist.refl _)
    · show (q.offered ++ [x]).length = (q.taken ++ (q.queue ++ [x])).length + q.drops
      rw [← List.append_assoc, List.length_append, List.length_append]
      omega
  · constructor
    · exact h.order.trans (List.sublist_append_left _ _)
    · show (q.offered ++ [x]).length = (q.taken ++ q.queue).length + (q.drops + 1)
      rw [List.length_append, List.length_singleton]
      omega

theorem Balanced.take {q : LossyQueue α} (h : q.Balanced) : q.take.Balanced := by
  unfold LossyQueue.take
  split
  · exact h
  · rename_i x queue hqueue
    -- the item only moves across the border between taken and queued
    have hsame : q.taken ++ [x] ++ queue = q.taken ++ q.queue := by
      rw [hqueue, List.append_assoc, List.singleton_append]
    constructor
    · show (q.taken ++ [x] ++ queue).Sublist q.offered
      rw [hsame]
      exact h.order
    · show q.offered.length = (q.taken ++ [x] ++ queue).length + q.drops
      rw [hsame]
      exact h.count

end LossyQueue
