import Mathlib.Algebra.BigOperators.Group.List.Basic
import Mathlib.Algebra.Order.BigOperators.Group.List
import Mathlib.Algebra.Order.Field.Rat
import Mathlib.Tactic.FieldSimp
import Mathlib.Tactic.Linarith
import Mathlib.Tactic.Ring

/-!
# Means

The mean of a quantity over a list. A loop that assigns where it should add
keeps the quantity of the last element instead of the sum; `last_eq_mean_iff`
and `last_eq_truncatedMean_iff` say for which lists that makes no difference,
in whatever order the elements come.
-/

namespace Mean

variable {α β : Type*}

/-- The arithmetic mean of `f`, and 0 over the empty list. -/
def mean (f : α → ℚ) (l : List α) : ℚ := (l.map f).sum / l.length

/-- The arithmetic mean of integers, truncated toward zero. -/
def truncatedMean (f : α → Int) (l : List α) : Int :=
  (l.map f).sum.tdiv l.length

theorem mean_perm (f : α → ℚ) {l l' : List α} (h : l.Perm l') :
    mean f l = mean f l' := by
  unfold mean
  rw [(h.map f).sum_eq, h.length_eq]

/-- The sum is the mean times the number of elements. -/
theorem length_mul_mean (f : α → ℚ) (l : List α) :
    l.length * mean f l = (l.map f).sum := by
  cases l with
  | nil => simp [mean]
  | cons x l =>
    have hlength : ((x :: l).length : ℚ) ≠ 0 := by
      exact_mod_cast Nat.succ_ne_zero l.length
    unfold mean
    field_simp

/-- The mean of a concatenation is the weighted mean of the means. -/
theorem mean_append (f : α → ℚ) (l l' : List α) :
    mean f (l ++ l') =
      (l.length * mean f l + l'.length * mean f l') /
        (l.length + l'.length) := by
  rw [length_mul_mean, length_mul_mean]
  simp [mean]

theorem mean_add (f g : α → ℚ) (l : List α) :
    mean (fun x => f x + g x) l = mean f l + mean g l := by
  unfold mean
  rw [List.sum_map_add, add_div]

theorem mean_one {l : List α} (h : l ≠ []) : mean (fun _ => 1) l = 1 := by
  have hlength : (l.length : ℚ) ≠ 0 := by
    exact_mod_cast List.length_eq_zero_iff.not.mpr h
  simp [mean, hlength]

/-! ## Loops -/

/-- A loop that adds. -/
theorem foldl_add (f : α → ℚ) (l : List α) (init : ℚ) :
    l.foldl (fun result x => result + f x) init = init + (l.map f).sum := by
  induction l generalizing init with
  | nil => simp
  | cons x l ih =>
    rw [List.foldl_cons, ih, List.map_cons, List.sum_cons]
    ring

/-- What a loop that assigns ends with. -/
def last (f : α → β) (init : β) (l : List α) : β :=
  l.foldl (fun _ x => f x) init

@[simp] theorem last_concat (f : α → β) (init : β) (l : List α) (x : α) :
    last f init (l ++ [x]) = f x := by
  simp [last]

/-- Every element comes last in some order. -/
theorem exists_perm_concat {l : List α} {x : α} (h : x ∈ l) :
    ∃ l', (l' ++ [x]).Perm l := by
  obtain ⟨s, t, rfl⟩ := List.append_of_mem h
  refine ⟨s ++ t, ?_⟩
  rw [List.append_assoc]
  exact (List.perm_append_singleton x t).append_left s

theorem forall_perm_last {l : List α} (h : l ≠ []) (f : α → β) (init : β)
    (P : β → Prop) :
    (∀ l', l'.Perm l → P (last f init l')) ↔ ∀ x ∈ l, P (f x) := by
  refine ⟨?_, ?_⟩
  · intro hlast x hx
    obtain ⟨l', hl'⟩ := exists_perm_concat hx
    have hP := hlast _ hl'
    rwa [last_concat] at hP
  · intro hall l' hl'
    have hne : l' ≠ [] := fun h' => h (List.nil_perm.mp (h' ▸ hl'))
    obtain ⟨front, x, hx⟩ := (List.eq_nil_or_concat l').resolve_left hne
    rw [List.concat_eq_append] at hx
    subst hx
    rw [last_concat]
    exact hall x (hl'.mem_iff.mp (by simp))

theorem length_le_one {l : List α} (h : l.length ≤ 1) :
    l = [] ∨ ∃ x, l = [x] := by
  rcases l with _ | ⟨x, _ | ⟨y, rest⟩⟩
  · exact Or.inl rfl
  · exact Or.inr ⟨x, rfl⟩
  · simp at h

/-- In every order of the list the last value stands for the sum. -/
theorem last_eq_mean_iff (f : α → ℚ) (l : List α) :
    (∀ l', l'.Perm l → last f 0 l' / l'.length = mean f l) ↔
      l.length ≤ 1 ∨ ∀ x ∈ l, f x = 0 := by
  by_cases hone : l.length ≤ 1
  · refine ⟨fun _ => Or.inl hone, fun _ l' hl' => ?_⟩
    rcases length_le_one hone with rfl | ⟨x, rfl⟩
    · simp [List.perm_nil.mp hl', mean]
    · simp [List.perm_singleton.mp hl', mean, last]
  have hmany : (1 : ℚ) < l.length := by exact_mod_cast not_le.mp hone
  have hne : l ≠ [] := by
    rintro rfl
    exact hone (Nat.zero_le 1)
  have hlast : (∀ l', l'.Perm l → last f 0 l' / l'.length = mean f l) ↔
      ∀ x ∈ l, f x = (l.map f).sum := by
    rw [← forall_perm_last hne f 0 (· = (l.map f).sum)]
    refine forall_congr' fun l' => forall_congr' fun hl' => ?_
    rw [hl'.length_eq, mean, div_left_inj' (by linarith)]
  rw [hlast]
  refine ⟨?_, ?_⟩
  · intro hall
    -- all values equal the sum, which is then a multiple of itself
    have hsum : (l.map f).sum = l.length * (l.map f).sum := by
      have hconst := List.sum_eq_card_nsmul (l.map f) (l.map f).sum
        (by simpa using hall)
      rwa [List.length_map, nsmul_eq_mul] at hconst
    have hzero : (l.map f).sum = 0 := by
      have hprod : ((l.length : ℚ) - 1) * (l.map f).sum = 0 := by linarith
      exact (mul_eq_zero.mp hprod).resolve_left (by linarith)
    exact Or.inr fun x hx => by rw [hall x hx, hzero]
  · intro h x hx
    have hzero := h.resolve_left hone
    rw [List.sum_eq_zero (by simpa using hzero), hzero x hx]

/-! ## Truncated means -/

theorem tdiv_eq_zero_iff {n : Nat} (hn : 0 < n) (a : Int) :
    a.tdiv n = 0 ↔ a.natAbs < n := by
  rw [← Int.natAbs_eq_zero, Int.natAbs_tdiv, Int.natAbs_natCast]
  show a.natAbs / n = 0 ↔ a.natAbs < n
  rw [Nat.div_eq_zero_iff]
  omega

/-- A positive quotient bounds the dividend from below. -/
theorem mul_le_of_tdiv {a q : Int} {n : Nat} (hq : 0 < q)
    (h : a.tdiv n = q) : q * n ≤ a := by
  have ha : 0 ≤ a := by
    by_contra hneg
    have hle : a.tdiv n ≤ (0 : Int).tdiv n ∨ n = 0 := by
      rcases Nat.eq_zero_or_pos n with hn | hn
      · exact Or.inr hn
      · exact Or.inl (Int.tdiv_le_tdiv (by exact_mod_cast hn) (by omega))
    rcases hle with hle | rfl
    · rw [Int.zero_tdiv] at hle
      omega
    · simp at h
      omega
  have hdiv := Int.tdiv_mul_add_tmod a n
  have hmod := Int.tmod_nonneg n ha
  rw [h] at hdiv
  omega

/-- Values that share a truncated quotient with their sum are not positive
ones. -/
theorem quotient_nonpos {f : α → Int} {l : List α} {q : Int}
    (hmany : 1 < l.length) (hall : ∀ x ∈ l, (f x).tdiv l.length = q)
    (hsum : (l.map f).sum.tdiv l.length = q) : q ≤ 0 := by
  by_contra hpos
  have hq : 0 < q := not_le.mp hpos
  have hn : (0 : Int) < l.length := by exact_mod_cast Nat.zero_lt_of_lt hmany
  have hbelow : l.length * (q * l.length) ≤ (l.map f).sum := by
    have hcard := List.card_nsmul_le_sum (l.map f) (q * l.length) (by
      simpa using fun x hx => mul_le_of_tdiv hq (hall x hx))
    rwa [List.length_map, nsmul_eq_mul] at hcard
  have hquot : l.length * q ≤ q := by
    have hmono := Int.tdiv_le_tdiv hn hbelow
    rwa [hsum, ← mul_assoc, Int.mul_tdiv_cancel _ hn.ne'] at hmono
  have htwice : 2 * q ≤ l.length * q := by
    apply mul_le_mul_of_nonneg_right _ hq.le
    exact_mod_cast hmany
  omega

/-- In every order of the list the last value stands for the sum of integers
when the quotients are truncated. -/
theorem last_eq_truncatedMean_iff (f : α → Int) (l : List α) :
    (∀ l', l'.Perm l →
        (last f 0 l').tdiv l'.length = truncatedMean f l) ↔
      l.length ≤ 1 ∨ ((∀ x ∈ l, (f x).natAbs < l.length) ∧
        (l.map f).sum.natAbs < l.length) := by
  by_cases hone : l.length ≤ 1
  · refine ⟨fun _ => Or.inl hone, fun _ l' hl' => ?_⟩
    rcases length_le_one hone with rfl | ⟨x, rfl⟩
    · simp [List.perm_nil.mp hl', truncatedMean]
    · simp [List.perm_singleton.mp hl', truncatedMean, last]
  have hmany : 1 < l.length := not_le.mp hone
  have hn : 0 < l.length := Nat.zero_lt_of_lt hmany
  have hlast : (∀ l', l'.Perm l →
        (last f 0 l').tdiv l'.length = truncatedMean f l) ↔
      ∀ x ∈ l, (f x).tdiv l.length = truncatedMean f l := by
    rw [← forall_perm_last (List.ne_nil_of_length_pos hn) f 0
      (Int.tdiv · l.length = truncatedMean f l)]
    refine forall_congr' fun l' => forall_congr' fun hl' => ?_
    rw [hl'.length_eq]
  rw [hlast, or_iff_right hone]
  simp only [← tdiv_eq_zero_iff hn]
  refine ⟨?_, ?_⟩
  · intro hall
    have hnonpos := quotient_nonpos hmany hall rfl
    -- the other sign, by negation
    have hnonneg : -truncatedMean f l ≤ 0 := by
      apply quotient_nonpos (f := fun x => -f x) hmany
      · intro x hx
        rw [Int.neg_tdiv, hall x hx]
      · have hneg : (l.map fun x => -f x).sum = -(l.map f).sum := by
          rw [List.sum_neg, List.map_map]
          rfl
        rw [hneg, Int.neg_tdiv]
        rfl
    have hzero : truncatedMean f l = 0 := by omega
    exact ⟨fun x hx => (hall x hx).trans hzero, hzero⟩
  · intro h x hx
    obtain ⟨hall, hsum⟩ := h
    exact (hall x hx).trans hsum.symm

end Mean
