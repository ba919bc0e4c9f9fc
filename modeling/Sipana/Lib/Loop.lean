import Mathlib.Logic.Function.Iterate

/-!
# Loops of a step function

A program point of a loop is a predicate `stop` on configurations. `Reaches`
says that iterating a step function leads from one configuration to another
without meeting `stop` on the way; an invariant that excludes `stop` shows that
the loop never gets there.
-/

namespace Loop

variable {α : Type*} {f : α → α} {stop : α → Prop} {a b c : α}

/-- Iterating `f` leads from `a` to `b`, and `stop` holds nowhere before `b`. -/
def Reaches (f : α → α) (stop : α → Prop) (a b : α) : Prop :=
  ∃ n, f^[n] a = b ∧ ∀ m < n, ¬ stop (f^[m] a)

theorem Reaches.refl (a : α) : Reaches f stop a a :=
  ⟨0, rfl, fun m hm => absurd hm (Nat.not_lt_zero m)⟩

theorem Reaches.next (ha : ¬ stop a) (hf : f a = b) (h : Reaches f stop b c) :
    Reaches f stop a c := by
  subst hf
  obtain ⟨n, hn, hbefore⟩ := h
  refine ⟨n + 1, hn, fun m hm => ?_⟩
  cases m with
  | zero => exact ha
  | succ m => exact hbefore m (Nat.lt_of_succ_lt_succ hm)

theorem Reaches.trans (h : Reaches f stop a b) (h' : Reaches f stop b c) :
    Reaches f stop a c := by
  obtain ⟨n, hn, hbefore⟩ := h
  induction n generalizing a with
  | zero => rwa [show a = b from hn]
  | succ n ih =>
    apply Reaches.next (hbefore 0 (Nat.succ_pos n)) rfl
    exact ih hn fun m hm => hbefore (m + 1) (Nat.succ_lt_succ hm)

/-- A loop with an invariant that excludes `stop` never reaches it. -/
theorem not_reaches {I : α → Prop} (keep : ∀ x, I x → I (f x))
    (avoid : ∀ x, I x → ¬ stop x) (ha : I a) (hb : stop b) :
    ¬ Reaches f stop a b := by
  intro hreach
  obtain ⟨n, rfl, -⟩ := hreach
  have hall : I (f^[n] a) := by
    clear hb
    induction n generalizing a with
    | zero => exact ha
    | succ n ih => exact ih (keep a ha)
  exact avoid _ hall hb

end Loop
