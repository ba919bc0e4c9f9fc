import Mathlib.Data.Finmap

/-!
# Tables filled in order of first appearance

A table that gets an entry for every key that it does not have yet, with a value
that depends on how many keys came before. After any list of keys it has an
entry for each of them, and the value tells the place of the key among the
distinct keys in order of first appearance.
-/

namespace FirstSeen

variable {κ ν : Type*} [BEq κ] [LawfulBEq κ]

/-! ## Distinct keys -/

theorem eraseDups_of_mem {ks : List κ} {k : κ} (h : k ∈ ks) :
    (ks ++ [k]).eraseDups = ks.eraseDups := by
  rw [List.eraseDups_append]
  simp [List.removeAll, h]

theorem eraseDups_of_not_mem {ks : List κ} {k : κ} (h : k ∉ ks) :
    (ks ++ [k]).eraseDups = ks.eraseDups ++ [k] := by
  rw [List.eraseDups_append]
  simp [List.removeAll, h, List.eraseDups_cons]

theorem nodup_eraseDups (ks : List κ) : ks.eraseDups.Nodup := by
  induction ks using List.reverseRecOn with
  | nil => exact List.nodup_nil
  | append_singleton ks k ih =>
    by_cases hk : k ∈ ks
    · rwa [eraseDups_of_mem hk]
    · rw [eraseDups_of_not_mem hk, ← List.concat_eq_append]
      exact ih.concat fun hmem => hk (List.mem_eraseDups.mp hmem)

/-- The place of a key does not change. -/
theorem idxOf_append {ks : List κ} {k : κ} (h : k ∈ ks) (ks' : List κ) :
    (ks ++ ks').eraseDups.idxOf k = ks.eraseDups.idxOf k := by
  rw [List.eraseDups_append,
    List.idxOf_append_of_mem (List.mem_eraseDups.mpr h)]

theorem idxOf_of_getElem? {ks : List κ} {k : κ} {i : Nat}
    (h : ks.eraseDups[i]? = some k) : ks.eraseDups.idxOf k = i := by
  obtain ⟨hi, rfl⟩ := List.getElem?_eq_some_iff.mp h
  exact (nodup_eraseDups ks).idxOf_getElem i hi

/-- Mapping the keys injectively keeps the order of first appearance. -/
theorem eraseDups_map {κ' : Type*} [BEq κ'] [LawfulBEq κ'] {f : κ → κ'}
    (hf : Function.Injective f) (ks : List κ) :
    (ks.map f).eraseDups = ks.eraseDups.map f := by
  induction ks using List.reverseRecOn with
  | nil => rfl
  | append_singleton ks k ih =>
    rw [List.map_append, List.map_singleton]
    by_cases hk : k ∈ ks
    · rw [eraseDups_of_mem hk, eraseDups_of_mem (List.mem_map_of_mem hk), ih]
    · have hfk : f k ∉ ks.map f := by
        rw [List.mem_map_of_injective hf]
        exact hk
      rw [eraseDups_of_not_mem hk, eraseDups_of_not_mem hfk, ih,
        List.map_append, List.map_singleton]

/-! ## Tables -/

variable [DecidableEq κ]

/-- The table after the keys `ks`: the `i`-th distinct key has `value i`. -/
structure Filled (value : Nat → ν) (ks : List κ)
    (table : Finmap fun _ : κ => ν) : Prop where
  mem_iff : ∀ k, k ∈ table ↔ k ∈ ks
  lookup : ∀ i k, ks.eraseDups[i]? = some k → table.lookup k = some (value i)

variable {value : Nat → ν} {ks : List κ} {table : Finmap fun _ : κ => ν} {k : κ}

omit [LawfulBEq κ] in
theorem filled_empty : Filled value ([] : List κ) (∅ : Finmap fun _ => ν) where
  mem_iff _ := by simp [Finmap.notMem_empty]
  lookup i k h := by simp at h

namespace Filled

/-- A key that has come before. -/
theorem seen (h : Filled value ks table) (hk : k ∈ table) :
    Filled value (ks ++ [k]) table where
  mem_iff k' := by
    rw [h.mem_iff, List.mem_append, List.mem_singleton]
    refine ⟨Or.inl, fun hor => hor.elim id fun heq => ?_⟩
    exact heq ▸ (h.mem_iff k).mp hk
  lookup i k' hi := by
    rw [eraseDups_of_mem ((h.mem_iff k).mp hk)] at hi
    exact h.lookup i k' hi

/-- A key that has not. -/
theorem fresh (h : Filled value ks table) (hk : k ∉ table) :
    Filled value (ks ++ [k]) (table.insert k (value ks.eraseDups.length)) where
  mem_iff k' := by
    rw [Finmap.mem_insert, h.mem_iff, List.mem_append, List.mem_singleton,
      or_comm]
  lookup i k' hi := by
    have hks : k ∉ ks := fun hmem => hk ((h.mem_iff k).mpr hmem)
    rw [eraseDups_of_not_mem hks] at hi
    rcases Nat.lt_or_ge i ks.eraseDups.length with hlt | hge
    · rw [List.getElem?_append_left hlt] at hi
      have hne : k' ≠ k := by
        rintro rfl
        exact hks (List.mem_eraseDups.mp (List.mem_of_getElem? hi))
      rw [Finmap.lookup_insert_of_ne _ hne]
      exact h.lookup i k' hi
    · rw [List.getElem?_append_right hge, List.getElem?_singleton] at hi
      split at hi
      · next hzero =>
        obtain rfl := Option.some.inj hi
        have hi : i = ks.eraseDups.length := by omega
        rw [hi, Finmap.lookup_insert]
      · exact absurd hi nofun

/-- Every key of the list has the value of its place. -/
theorem lookup_of_mem (h : Filled value ks table) (hk : k ∈ ks) :
    table.lookup k = some (value (ks.eraseDups.idxOf k)) :=
  h.lookup _ k (List.getElem?_idxOf (List.mem_eraseDups.mpr hk))

theorem card_keys (h : Filled value ks table) :
    table.keys.card = ks.eraseDups.length := by
  rw [← List.toFinset_card_of_nodup (nodup_eraseDups ks)]
  congr 1
  ext k
  rw [Finmap.mem_keys, h.mem_iff, List.mem_toFinset, List.mem_eraseDups]

end Filled

end FirstSeen
