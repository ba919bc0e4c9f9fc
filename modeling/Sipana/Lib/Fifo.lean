import Mathlib.Data.List.Basic
import Mathlib.Tactic.Common

/-!
# Queues that may drop their oldest element

The history of a queue: what was put into it, what waits in it, what was taken
out of its head and delivered, and how many elements were dropped instead. The
accounts balance and the order is kept, whatever the queue does.
-/

/-- What went into a queue and what has become of it. -/
structure Fifo (α : Type*) where
  accepted : List α := []
  waiting : List α := []
  delivered : List α := []
  dropped : Nat := 0

namespace Fifo

variable {α : Type*} {q q' : Fifo α}

/-- The operations on a queue. -/
inductive Step (q : Fifo α) : Fifo α → Prop
  | rests : Step q q
  | accepts (x : α) :
      Step q { q with
        accepted := q.accepted ++ [x]
        waiting := q.waiting ++ [x] }
  | drops {x rest} : q.waiting = x :: rest →
      Step q { q with waiting := rest, dropped := q.dropped + 1 }
  | delivers {x rest} : q.waiting = x :: rest →
      Step q { q with waiting := rest, delivered := q.delivered ++ [x] }

/-- Every element is accounted for, and the order is that of acceptance. -/
structure Sound (q : Fifo α) : Prop where
  order : (q.delivered ++ q.waiting).Sublist q.accepted
  balance : q.delivered.length + q.waiting.length + q.dropped =
    q.accepted.length

theorem sound_empty : Sound ({} : Fifo α) := ⟨List.Sublist.refl _, rfl⟩

theorem Sound.step (h : Sound q) (hstep : Step q q') : Sound q' := by
  obtain ⟨horder, hbalance⟩ := h
  cases hstep with
  | rests => exact ⟨horder, hbalance⟩
  | accepts x =>
    refine ⟨?_, ?_⟩
    · rw [← List.append_assoc]
      exact horder.append (List.Sublist.refl _)
    · simp only [List.length_append, List.length_singleton]
      omega
  | @drops x rest hwaiting =>
    rw [hwaiting] at horder hbalance
    rw [List.length_cons] at hbalance
    have hrest : (q.delivered ++ rest).Sublist (q.delivered ++ x :: rest) :=
      (List.sublist_cons_self x rest).append_left q.delivered
    refine ⟨hrest.trans horder, ?_⟩
    show q.delivered.length + rest.length + (q.dropped + 1) = q.accepted.length
    omega
  | @delivers x rest hwaiting =>
    rw [hwaiting] at horder hbalance
    rw [List.length_cons] at hbalance
    refine ⟨?_, ?_⟩
    · rwa [List.append_assoc, List.singleton_append]
    · show (q.delivered ++ [x]).length + rest.length + q.dropped =
        q.accepted.length
      rw [List.length_append, List.length_singleton]
      omega

/-- Several deliveries at once. -/
theorem Sound.delivers_front {front rest : List α} (h : Sound q)
    (hwaiting : q.waiting = front ++ rest) :
    Sound { q with waiting := rest, delivered := q.delivered ++ front } := by
  induction front generalizing q with
  | nil =>
    rw [List.append_nil]
    rw [List.nil_append] at hwaiting
    subst hwaiting
    exact h
  | cons x front ih =>
    have hfirst := h.step (.delivers hwaiting)
    simpa using ih hfirst rfl

theorem Sound.delivered_sublist (h : Sound q) :
    q.delivered.Sublist q.accepted :=
  (List.sublist_append_left _ _).trans h.order

/-- As long as nothing is dropped, nothing is missing either. -/
theorem Sound.accepted_eq (h : Sound q) (hnone : q.dropped = 0) :
    q.accepted = q.delivered ++ q.waiting := by
  have hbalance := h.balance
  refine (h.order.eq_of_length ?_).symm
  rw [List.length_append]
  omega

end Fifo
