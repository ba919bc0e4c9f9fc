import Mathlib.Computability.RegularExpressions

/-!
# Classes of characters in regular expressions

`oneOf` is one element of a list. Repeated, it matches the words whose elements
are all in the list.
-/

namespace CharClass

open RegularExpression

variable {α : Type*} {cs w : List α}

def oneOf (cs : List α) : RegularExpression α := (cs.map char).sum

theorem mem_oneOf : w ∈ (oneOf cs).matches' ↔ ∃ c ∈ cs, w = [c] := by
  unfold oneOf
  induction cs with
  | nil => simp
  | cons c cs ih =>
    rw [List.map_cons, List.sum_cons, matches'_add, Language.mem_add, ih,
      List.exists_mem_cons_iff]
    rfl

theorem flatten_oneOf {S : List (List α)}
    (h : ∀ y ∈ S, y ∈ (oneOf cs).matches') :
    S.flatten.length = S.length ∧ ∀ c ∈ S.flatten, c ∈ cs := by
  induction S with
  | nil => exact ⟨rfl, fun c hc => absurd hc List.not_mem_nil⟩
  | cons y S ih =>
    rw [List.forall_mem_cons] at h
    obtain ⟨c, hc, rfl⟩ := mem_oneOf.mp h.1
    obtain ⟨hlength, hmem⟩ := ih h.2
    rw [List.flatten_cons, List.singleton_append, List.forall_mem_cons]
    exact ⟨congrArg Nat.succ hlength, hc, hmem⟩

/-- A word is made of its letters. -/
theorem exists_flatten (h : ∀ c ∈ w, c ∈ cs) : ∃ S : List (List α),
    w = S.flatten ∧ S.length = w.length ∧
      ∀ y ∈ S, y ∈ (oneOf cs).matches' := by
  refine ⟨w.map fun c => [c], (List.flatMap_singleton' w).symm,
    List.length_map _, fun y hy => ?_⟩
  obtain ⟨c, hc, rfl⟩ := List.mem_map.mp hy
  exact mem_oneOf.mpr ⟨c, h c hc, rfl⟩

theorem mem_oneOf_pow {n : Nat} : w ∈ (oneOf cs ^ n).matches' ↔
    w.length = n ∧ ∀ c ∈ w, c ∈ cs := by
  rw [matches'_pow, Language.mem_pow]
  constructor
  · intro h
    obtain ⟨S, rfl, rfl, hS⟩ := h
    exact flatten_oneOf hS
  · intro h
    obtain ⟨rfl, hmem⟩ := h
    exact exists_flatten hmem

theorem mem_oneOf_star : w ∈ (oneOf cs).star.matches' ↔ ∀ c ∈ w, c ∈ cs := by
  rw [matches'_star, Language.mem_kstar]
  constructor
  · intro h
    obtain ⟨S, rfl, hS⟩ := h
    exact (flatten_oneOf hS).2
  · intro h
    obtain ⟨S, hflatten, -, hS⟩ := exists_flatten h
    exact ⟨S, hflatten, hS⟩

end CharClass
