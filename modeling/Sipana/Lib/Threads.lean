import Mathlib.Tactic.Common

/-!
# Threads in a list

A pool of threads is a list, a step of thread `k` replaces its entry. What is
guaranteed by some thread of the pool stays guaranteed when the thread that
moves hands its guarantee on and the others keep theirs.
-/

namespace Threads

variable {α : Type*} {P Q : α → Prop} {l : List α} {k : Nat} {a b : α}

/-- The thread that has moved is in the pool. -/
theorem mem_set (h : l[k]? = some a) (b : α) : b ∈ l.set k b :=
  List.mem_set (List.getElem?_eq_some_iff.mp h).1 b

/-- What stands in the pool after the step of thread `k`. -/
theorem of_getElem?_set {j : Nat} {x : α} (h : (l.set k b)[j]? = some x) :
    (j = k ∧ x = b) ∨ (j ≠ k ∧ l[j]? = some x) := by
  by_cases hjk : j = k
  · subst hjk
    obtain ⟨hj, hx⟩ := List.getElem?_eq_some_iff.mp h
    rw [List.getElem_set_self] at hx
    exact Or.inl ⟨rfl, hx.symm⟩
  · rw [List.getElem?_set_ne (Ne.symm hjk)] at h
    exact Or.inr ⟨hjk, h⟩

/-- Some thread guarantees `Q` after the step of thread `k` if some thread
guaranteed `P` before it. -/
theorem exists_set (h : l[k]? = some a) (own : P a → Q b)
    (others : ∀ x ∈ l, P x → Q x) (hex : ∃ x ∈ l, P x) :
    ∃ x ∈ l.set k b, Q x := by
  obtain ⟨x, hx, hP⟩ := hex
  obtain ⟨j, hj⟩ := List.mem_iff_getElem?.mp hx
  by_cases hjk : j = k
  · subst hjk
    obtain rfl := Option.some.inj (hj.symm.trans h)
    exact ⟨b, mem_set h b, own hP⟩
  · refine ⟨x, List.mem_iff_getElem?.mpr ⟨j, ?_⟩, others x hx hP⟩
    rwa [List.getElem?_set_ne (Ne.symm hjk)]

/-- No two threads of the pool satisfy `P`. -/
def AtMostOne (P : α → Prop) (l : List α) : Prop :=
  ∀ (j k : Nat) a b, l[j]? = some a → P a → l[k]? = some b → P b → j = k

theorem atMostOne_nil (P : α → Prop) : AtMostOne P [] := by
  intro j k a b hj
  simp at hj

/-- A step of one thread that does not make it satisfy `P`. -/
theorem AtMostOne.set (hl : AtMostOne P l) (h : l[k]? = some a)
    (own : P b → P a) : AtMostOne P (l.set k b) := by
  -- who satisfies `P` after the step did so before it
  have hbefore : ∀ (j : Nat) x, (l.set k b)[j]? = some x → P x →
      ∃ y, l[j]? = some y ∧ P y := by
    intro j x hj hx
    rcases of_getElem?_set hj with ⟨rfl, rfl⟩ | ⟨-, hj⟩
    · exact ⟨a, h, own hx⟩
    · exact ⟨x, hj, hx⟩
  intro i j x y hi hx hj hy
  obtain ⟨x', hi', hx'⟩ := hbefore i x hi hx
  obtain ⟨y', hj', hy'⟩ := hbefore j y hj hy
  exact hl i j x' y' hi' hx' hj' hy'

/-- A thread that joins a pool in which nobody satisfies `P`. -/
theorem atMostOne_append (hnone : ∀ x ∈ l, ¬ P x) (b : α) :
    AtMostOne P (l ++ [b]) := by
  have hlast : ∀ (j : Nat) x, (l ++ [b])[j]? = some x → P x → j = l.length := by
    intro j x hj hx
    rcases Nat.lt_or_ge j l.length with hlt | hge
    · rw [List.getElem?_append_left hlt] at hj
      exact absurd hx (hnone x (List.mem_of_getElem? hj))
    · have hlt := (List.getElem?_eq_some_iff.mp hj).1
      rw [List.length_append, List.length_singleton] at hlt
      omega
  intro i j x y hi hx hj hy
  exact (hlast i x hi hx).trans (hlast j y hj hy).symm

/-! ## The thread that joined last -/

/-- The step of a thread is a step of the one that joined last or leaves that
one alone. -/
theorem set_last_or_before (h : l[k]? = some a) (b : α) :
    (l.getLast? = some a ∧ (l.set k b).getLast? = some b ∧
      (l.set k b).dropLast = l.dropLast) ∨
    (a ∈ l.dropLast ∧ (l.set k b).getLast? = l.getLast? ∧
      (l.set k b).dropLast = l.dropLast.set k b) := by
  rcases List.eq_nil_or_concat l with rfl | ⟨before, last, rfl⟩
  · exact absurd h nofun
  · rw [List.concat_eq_append] at h ⊢
    rcases Nat.lt_or_ge k before.length with hlt | hge
    · rw [List.getElem?_append_left hlt] at h
      rw [List.set_append_left k b hlt]
      simp [List.mem_of_getElem? h]
    · rw [List.getElem?_append_right hge] at h
      have hk := (List.getElem?_eq_some_iff.mp h).1
      rw [List.length_singleton, Nat.lt_one_iff] at hk
      rw [hk] at h
      obtain rfl := Option.some.inj h
      rw [List.set_append_right k b hge, hk]
      simp

/-! ## What the threads of a pool add up to -/

/-- The sum of a number over the threads. -/
def total (w : α → Nat) : List α → Nat
  | [] => 0
  | a :: l => w a + total w l

theorem total_append (w : α → Nat) (l : List α) (b : α) :
    total w (l ++ [b]) = total w l + w b := by
  induction l with
  | nil => exact Nat.add_comm _ _
  | cons x l ih => rw [List.cons_append, total, total, ih, Nat.add_assoc]

/-- A step of thread `k` changes the sum by what it changes for this thread. -/
theorem total_set (w : α → Nat) (h : l[k]? = some a) (b : α) :
    total w (l.set k b) + w a = total w l + w b := by
  induction l generalizing k with
  | nil => simp at h
  | cons x l ih =>
    cases k with
    | zero =>
      obtain rfl := Option.some.inj h
      simp only [total, List.set_cons_zero]
      omega
    | succ k =>
      have htail := ih (k := k) h
      simp only [total, List.set_cons_succ]
      omega

theorem le_total (w : α → Nat) (h : a ∈ l) : w a ≤ total w l := by
  induction h with
  | head l => exact Nat.le_add_right _ _
  | tail x _ ih => exact Nat.le_trans ih (Nat.le_add_left _ _)

theorem exists_of_total_pos (w : α → Nat) (h : 0 < total w l) :
    ∃ x ∈ l, 0 < w x := by
  induction l with
  | nil => exact absurd h (Nat.lt_irrefl 0)
  | cons x l ih =>
    by_cases hx : 0 < w x
    · exact ⟨x, List.mem_cons_self, hx⟩
    · have htail : 0 < total w l := by
        rw [total] at h
        omega
      obtain ⟨y, hy, hpos⟩ := ih htail
      exact ⟨y, List.mem_cons_of_mem x hy, hpos⟩

/-- The sum is at most what the size of the pool allows. -/
theorem total_le (w : α → Nat) {n : Nat} (h : ∀ x, w x ≤ n) (l : List α) :
    total w l ≤ n * l.length := by
  induction l with
  | nil => exact Nat.le_refl 0
  | cons x l ih =>
    have hx := h x
    rw [total, List.length_cons, Nat.mul_succ]
    omega

end Threads
