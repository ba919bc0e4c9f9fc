import Mathlib.Data.List.Basic
import Mathlib.Data.List.Perm.Subperm
import Mathlib.Tactic.Common

/-!
# Entities in a table

The part of a persistence context that a queue consumer needs: rows that are
inserted, selected by a condition and changed in place. It is assumed that
generated keys count the rows, so a managed entity is referred to by the number
of its row, and that a list in an entity is read back in its order; no row is
ever deleted. `getSingleResult` has the three outcomes of a query that
expects one row.
-/

/-- How a query that expects one row can fail. -/
inductive PersistenceException
  | noResult
  | nonUniqueResult
deriving DecidableEq, Repr

/-- A table of entities. -/
structure EntityStore (α : Type*) where
  rows : List α := []

namespace EntityStore

variable {α : Type*}

/-- Insert a row. The entity may hold the number of its row. -/
def persist (σ : EntityStore α) (entity : Nat → α) : EntityStore α :=
  ⟨σ.rows ++ [entity σ.rows.length]⟩

/-- A change to the managed entity of row `k`. -/
def update (σ : EntityStore α) (k : Nat) (f : α → α) : EntityStore α :=
  ⟨σ.rows.modify k f⟩

/-- Copy a detached entity onto row `k`, or insert it when there is no such
row. -/
def merge (σ : EntityStore α) (k : Nat) (entity : Nat → α) : EntityStore α :=
  if k < σ.rows.length then σ.update k fun _ => entity k else σ.persist entity

/-- The rows that meet `P`. -/
def select (σ : EntityStore α) (P : α → Bool) : List Nat :=
  (List.range σ.rows.length).filter fun k => σ.rows[k]?.any P

def getSingleResult : List Nat → Except PersistenceException Nat
  | [] => .error .noResult
  | [k] => .ok k
  | _ :: _ :: _ => .error .nonUniqueResult

variable {σ τ : EntityStore α} {P : α → Bool}

/-! ## Queries -/

theorem mem_select {k : Nat} :
    k ∈ σ.select P ↔ ∃ e, σ.rows[k]? = some e ∧ P e = true := by
  rw [select, List.mem_filter, List.mem_range, Option.any_eq_true]
  refine ⟨And.right, fun h => ⟨?_, h⟩⟩
  obtain ⟨e, he, -⟩ := h
  exact (List.getElem?_eq_some_iff.mp he).1

theorem nodup_select : (σ.select P).Nodup := List.nodup_range.filter _

/-- A table that has all rows of another one, still meeting `P`, selects at
least as many. -/
theorem length_select_le (h : ∀ k ∈ σ.select P, k ∈ τ.select P) :
    (σ.select P).length ≤ (τ.select P).length :=
  (List.subperm_of_subset nodup_select h).length_le

theorem select_eq_singleton {k : Nat} (hk : k ∈ σ.select P)
    (h : (σ.select P).length ≤ 1) : σ.select P = [k] := by
  obtain ⟨j, hj⟩ := List.length_eq_one_iff.mp
    (Nat.le_antisymm h (List.length_pos_of_mem hk))
  rw [hj, List.mem_singleton] at hk
  rw [hj, hk]

theorem length_select : (σ.select P).length = σ.rows.countP P := by
  have hrows : (List.range σ.rows.length).map (fun k => σ.rows[k]?) =
      σ.rows.map some := by
    apply List.ext_getElem
    · simp
    · intro k hk hk'
      simp at hk
      simp [hk]
  have hcount : (σ.select P).length =
      ((List.range σ.rows.length).map fun k => σ.rows[k]?).countP
        (Option.any P) := by
    rw [select, ← List.countP_eq_length_filter, List.countP_map]
    rfl
  rw [hcount, hrows, List.countP_map]
  rfl

/-- Of all rows, one meets the condition. -/
theorem exists_only {l : List α} (h : l.countP P = 1) :
    ∃ l₁ x l₂, l = l₁ ++ x :: l₂ ∧ P x = true ∧
      (∀ y ∈ l₁, P y = false) ∧ ∀ y ∈ l₂, P y = false := by
  have hpos : 0 < l.countP P := by omega
  obtain ⟨x, hx, hP⟩ := List.countP_pos_iff.mp hpos
  obtain ⟨l₁, l₂, rfl⟩ := List.append_of_mem hx
  rw [List.countP_append, List.countP_cons_of_pos hP] at h
  refine ⟨l₁, x, l₂, rfl, hP, ?_, ?_⟩
  · intro y hy
    have hzero : l₁.countP P = 0 := by omega
    simpa using List.countP_eq_zero.mp hzero y hy
  · intro y hy
    have hzero : l₂.countP P = 0 := by omega
    simpa using List.countP_eq_zero.mp hzero y hy

/-! ## Rows after a change -/

theorem getElem?_persist_of_some {entity : Nat → α} {k : Nat} {e : α}
    (h : σ.rows[k]? = some e) : (σ.persist entity).rows[k]? = some e := by
  have hk := (List.getElem?_eq_some_iff.mp h).1
  rwa [persist, List.getElem?_append_left hk]

theorem getElem?_persist {entity : Nat → α} {k : Nat} {e : α}
    (h : (σ.persist entity).rows[k]? = some e) :
    σ.rows[k]? = some e ∨ (k = σ.rows.length ∧ e = entity k) := by
  rw [persist, List.getElem?_append] at h
  split at h
  · exact Or.inl h
  · rename_i hk
    have hzero : k - σ.rows.length = 0 := by
      by_contra hne
      rw [List.getElem?_eq_none (by simp; omega)] at h
      cases h
    have hlength : k = σ.rows.length := by omega
    rw [hzero] at h
    subst hlength
    exact Or.inr ⟨rfl, (Option.some.inj h).symm⟩

theorem getElem?_persist_length {entity : Nat → α} :
    (σ.persist entity).rows[σ.rows.length]? =
      some (entity σ.rows.length) := by
  simp [persist]

theorem getElem?_update {f : α → α} {k : Nat} {e : α}
    (h : (σ.update k f).rows[k]? = some e) :
    ∃ d, σ.rows[k]? = some d ∧ e = f d := by
  rw [update, List.getElem?_modify_eq, Option.map_eq_map,
    Option.map_eq_some_iff] at h
  obtain ⟨d, hd, rfl⟩ := h
  exact ⟨d, hd, rfl⟩

theorem getElem?_update_self {f : α → α} {k : Nat} {e : α}
    (h : σ.rows[k]? = some e) : (σ.update k f).rows[k]? = some (f e) := by
  simp [update, h]

theorem getElem?_update_ne {f : α → α} {j k : Nat} (h : j ≠ k) :
    (σ.update j f).rows[k]? = σ.rows[k]? := by
  simp [update, h]

/-- A change to the only row that meets `P`. -/
theorem update_of_select {f : α → α} {k : Nat} (h : σ.select P = [k]) :
    (σ.update k f).rows = σ.rows.map fun e => if P e then f e else e := by
  have honly : ∀ j e, σ.rows[j]? = some e → (P e = true ↔ j = k) := by
    intro j e he
    have hmem : j ∈ σ.select P ↔ j = k := by rw [h, List.mem_singleton]
    rw [← hmem, mem_select]
    simp [he]
  apply List.ext_getElem?
  intro j
  show (σ.rows.modify k f)[j]? = _
  rw [List.getElem?_map, List.getElem?_modify]
  cases he : σ.rows[j]? with
  | none => rfl
  | some e =>
    have hj := honly j e he
    by_cases hjk : k = j
    · simp [hjk, hj.mpr hjk.symm]
    · simp [hjk, show P e = false by simpa [Ne.symm hjk] using hj]

end EntityStore
