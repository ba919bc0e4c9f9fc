import Mathlib.Data.List.Flatten
import Mathlib.Data.List.Perm.Subperm

/-!
# Lists up to their order

`l₁.Subperm l₂` says that nothing is in `l₁` more often than in `l₂`. What is
computed element by element keeps this relation, and counting in a list of parts
needs only the parts that can contain what is counted.
-/

namespace Multiplicity

variable {α β : Type*}

theorem subperm_map {l₁ l₂ : List α} (h : l₁.Subperm l₂) (f : α → β) :
    (l₁.map f).Subperm (l₂.map f) := by
  obtain ⟨l, hperm, hsublist⟩ := h
  exact ⟨l.map f, hperm.map f, hsublist.map f⟩

theorem subperm_flatMap {l₁ l₂ : List α} (h : l₁.Subperm l₂)
    (f : α → List β) : (l₁.flatMap f).Subperm (l₂.flatMap f) := by
  obtain ⟨l, hperm, hsublist⟩ := h
  exact ⟨l.flatMap f, hperm.flatMap_right f, hsublist.flatMap f⟩

/-- Counting in the parts that can contain what is counted. -/
theorem count_flatMap_filter [DecidableEq β] {f : α → List β} {p : α → Bool}
    {b : β} {l : List α} (h : ∀ a ∈ l, b ∈ f a → p a = true) :
    (l.flatMap f).count b = ((l.filter p).flatMap f).count b := by
  induction l with
  | nil => rfl
  | cons a l ih =>
    obtain ⟨ha, hl⟩ := List.forall_mem_cons.mp h
    rw [List.flatMap_cons, List.count_append, ih hl, List.filter_cons]
    split
    · rw [List.flatMap_cons, List.count_append]
    · next hp =>
      have hzero : (f a).count b = 0 :=
        List.count_eq_zero.mpr fun hb => hp (ha hb)
      rw [hzero, Nat.zero_add]

end Multiplicity
