import Mathlib.Data.List.Basic
import Mathlib.Data.List.Induction
import Mathlib.Tactic.Common

/-!
# Deterministic machines and their runs

A machine is an initial state and a total step function. A run is the left
fold of the step over a list of inputs. This module holds the rules every run
argument below is an instance of:

* `Machine.exec_invariant` — what every step keeps, every execution keeps;
* `Machine.exec_lockstep` — two executions kept in relation;
* `Machine.mem_log_iff` — an append-only log records who wrote each entry;
* `Machine.Along` — a condition on the state before every step;
* `Machine.along_simulates` — a run that meets such a condition is a run of
  another machine;
* `Machine.tally` — how many steps meet a condition, and books that are kept
  by counting them (`Machine.tally_balance`).
-/

/-- A deterministic machine over states `σ` and inputs `α`. -/
structure Machine (σ α : Type*) where
  init : σ
  step : σ → α → σ

namespace Machine

variable {σ τ α β ε : Type*}

/-- Execution of a list of inputs from an arbitrary state. -/
def exec (M : Machine σ α) (s : σ) (as : List α) : σ := as.foldl M.step s

/-- Execution from the initial state. -/
def run (M : Machine σ α) (as : List α) : σ := M.exec M.init as

@[simp] theorem exec_nil (M : Machine σ α) (s : σ) : M.exec s [] = s := rfl

@[simp] theorem exec_cons (M : Machine σ α) (s : σ) (a : α) (as : List α) :
    M.exec s (a :: as) = M.exec (M.step s a) as := rfl

theorem exec_append (M : Machine σ α) (s : σ) (as bs : List α) :
    M.exec s (as ++ bs) = M.exec (M.exec s as) bs := by
  simp [exec, List.foldl_append]

theorem exec_snoc (M : Machine σ α) (s : σ) (as : List α) (a : α) :
    M.exec s (as ++ [a]) = M.step (M.exec s as) a := by
  rw [exec_append]
  rfl

@[simp] theorem run_nil (M : Machine σ α) : M.run [] = M.init := rfl

theorem run_append (M : Machine σ α) (as bs : List α) :
    M.run (as ++ bs) = M.exec (M.run as) bs := M.exec_append M.init as bs

theorem run_snoc (M : Machine σ α) (as : List α) (a : α) :
    M.run (as ++ [a]) = M.step (M.run as) a := M.exec_snoc M.init as a

theorem run_append_cons (M : Machine σ α) (as : List α) (a : α) (bs : List α) :
    M.run (as ++ a :: bs) = M.exec (M.step (M.run as) a) bs := by
  rw [run_append, exec_cons]

/-- The run up to and including input number `i`. -/
theorem run_take_succ (M : Machine σ α) {as : List α} {i : Nat} {a : α}
    (h : as[i]? = some a) :
    M.run (as.take (i + 1)) = M.step (M.run (as.take i)) a := by
  rw [List.take_add_one, h, Option.toList_some, run_snoc]

/-- A longer cut of a run continues a shorter one. -/
theorem run_take_of_le (M : Machine σ α) (as : List α) {i j : Nat}
    (h : i ≤ j) :
    ∃ bs, M.run (as.take j) = M.exec (M.run (as.take i)) bs := by
  refine ⟨(as.take j).drop i, ?_⟩
  rw [← run_append]
  conv_lhs => rw [← List.take_append_drop i (as.take j)]
  rw [List.take_take, Nat.min_eq_left h]

/-- A predicate kept by every step holds after every execution. -/
theorem exec_invariant (M : Machine σ α) {I : σ → Prop}
    (keep : ∀ s a, I s → I (M.step s a)) {s : σ} (h : I s) (as : List α) :
    I (M.exec s as) := by
  induction as generalizing s with
  | nil => exact h
  | cons a as ih => exact ih (keep s a h)

/-- An invariant of the initial state kept by every step holds in every run. -/
theorem run_invariant (M : Machine σ α) {I : σ → Prop} (init : I M.init)
    (keep : ∀ s a, I s → I (M.step s a)) (as : List α) : I (M.run as) :=
  M.exec_invariant keep init as

/-- Two machines driven by the same inputs stay related when each step does. -/
theorem exec_lockstep (M : Machine σ α) (N : Machine τ α) {R : σ → τ → Prop}
    (keep : ∀ s t a, R s t → R (M.step s a) (N.step t a)) {s : σ} {t : τ}
    (h : R s t) (as : List α) : R (M.exec s as) (N.exec t as) := by
  induction as generalizing s t with
  | nil => exact h
  | cons a as ih => exact ih (keep s t a h)

/-- A run ending in `a`, cut at some input: at the last one or before it. -/
theorem snoc_eq_append_cons {as pre post : List α} {a b : α}
    (h : as ++ [a] = pre ++ b :: post) :
    (pre = as ∧ b = a ∧ post = []) ∨
      ∃ rest, post = rest ++ [a] ∧ as = pre ++ b :: rest := by
  rcases List.eq_nil_or_concat post with rfl | ⟨rest, c, rfl⟩
  · obtain ⟨rfl, hb⟩ := List.append_inj' h rfl
    exact Or.inl ⟨rfl, (List.singleton_inj.mp hb).symm, rfl⟩
  · have hcut : as ++ [a] = (pre ++ b :: rest) ++ [c] := by simpa using h
    obtain ⟨has, hc⟩ := List.append_inj' hcut rfl
    obtain rfl := List.singleton_inj.mp hc
    exact Or.inr ⟨rest, by simp, has⟩

/-! ## Append-only logs -/

/-- Every entry of a log that only grows was written by one step of the run.
`emit` is what a step taken in a reachable state appends. -/
theorem mem_log_iff (M : Machine σ α) (log : σ → List ε)
    (emit : σ → α → List ε) (init : log M.init = [])
    (step : ∀ as a, log (M.step (M.run as) a) =
      log (M.run as) ++ emit (M.run as) a)
    (as : List α) (e : ε) :
    e ∈ log (M.run as) ↔
      ∃ pre a post, as = pre ++ a :: post ∧ e ∈ emit (M.run pre) a := by
  induction as using List.reverseRecOn with
  | nil => simp [init]
  | append_singleton as a ih =>
    rw [run_snoc, step, List.mem_append, ih]
    refine ⟨?_, ?_⟩
    · intro hmem
      rcases hmem with ⟨pre, b, post, rfl, he⟩ | he
      · exact ⟨pre, b, post ++ [a], by simp, he⟩
      · exact ⟨as, a, [], rfl, he⟩
    · intro hmem
      obtain ⟨pre, b, post, heq, he⟩ := hmem
      -- the writer is the last input or one of the earlier ones
      rcases snoc_eq_append_cons heq with ⟨rfl, rfl, -⟩ | ⟨rest, -, has⟩
      · exact Or.inr he
      · exact Or.inl ⟨pre, b, rest, has, he⟩

/-! ## Conditions on the state before each step -/

/-- `C` holds of the state and the input at every step of the run. -/
def Along (M : Machine σ α) (C : σ → α → Prop) (as : List α) : Prop :=
  ∀ pre a post, as = pre ++ a :: post → C (M.run pre) a

theorem along_iff_take (M : Machine σ α) (C : σ → α → Prop) (as : List α) :
    M.Along C as ↔ ∀ i (h : i < as.length), C (M.run (as.take i)) as[i] := by
  refine ⟨?_, ?_⟩
  · intro hC i h
    apply hC (as.take i) as[i] (as.drop (i + 1))
    rw [← List.drop_eq_getElem_cons h, List.take_append_drop]
  · intro hC pre a post has
    subst has
    have hat := hC pre.length (by simp)
    simpa using hat

instance (M : Machine σ α) (C : σ → α → Prop) [∀ s a, Decidable (C s a)]
    (as : List α) : Decidable (M.Along C as) :=
  decidable_of_iff _ (M.along_iff_take C as).symm

/-- Two conditions that agree wherever the run passes hold along it alike. -/
theorem along_congr (M : Machine σ α) {C D : σ → α → Prop} {as : List α}
    (h : ∀ pre a post, as = pre ++ a :: post →
      (C (M.run pre) a ↔ D (M.run pre) a)) :
    M.Along C as ↔ M.Along D as :=
  ⟨fun hC pre a post heq => (h pre a post heq).mp (hC pre a post heq),
    fun hD pre a post heq => (h pre a post heq).mpr (hD pre a post heq)⟩

theorem along_snoc (M : Machine σ α) (C : σ → α → Prop) (as : List α) (a : α) :
    M.Along C (as ++ [a]) ↔ M.Along C as ∧ C (M.run as) a := by
  refine ⟨?_, ?_⟩
  · intro h
    refine ⟨fun pre b post heq => h pre b (post ++ [a]) (by simp [heq]), ?_⟩
    exact h as a [] rfl
  · intro hboth pre b post heq
    obtain ⟨h, ha⟩ := hboth
    rcases snoc_eq_append_cons heq with ⟨rfl, rfl, -⟩ | ⟨rest, -, has⟩
    · exact ha
    · exact h pre b rest has

/-- An invariant kept by the steps that meet `C` holds at the end of every run
whose steps all meet `C`. -/
theorem along_invariant (M : Machine σ α) {I : σ → Prop} {C : σ → α → Prop}
    (init : I M.init) (keep : ∀ s a, I s → C s a → I (M.step s a))
    {as : List α} (h : M.Along C as) : I (M.run as) := by
  induction as using List.reverseRecOn with
  | nil => exact init
  | append_singleton as a ih =>
    rw [along_snoc] at h
    rw [run_snoc]
    exact keep _ a (ih h.1) h.2

/-- A run whose steps all meet `C` is a run of `N` with the same labels, in the
states that `view` shows: each step of it is a sequence of steps of `N`. -/
theorem along_simulates (M : Machine σ α) (N : Machine τ β) {I : σ → Prop}
    {C : σ → α → Prop} {view : σ → τ} {labels : α → List ε}
    {labels' : β → List ε} (init : I M.init ∧ view M.init = N.init)
    (step : ∀ s a, I s → C s a → I (M.step s a) ∧ ∃ bs : List β,
      bs.flatMap labels' = labels a ∧ view (M.step s a) = N.exec (view s) bs)
    {as : List α} (h : M.Along C as) : I (M.run as) ∧ ∃ bs : List β,
      bs.flatMap labels' = as.flatMap labels ∧ view (M.run as) = N.run bs := by
  induction as using List.reverseRecOn with
  | nil => exact ⟨init.1, [], rfl, init.2⟩
  | append_singleton as a ih =>
    rw [along_snoc] at h
    obtain ⟨hI, bs, hlabels, hview⟩ := ih h.1
    obtain ⟨hnext, more, hmore, hstep⟩ := step _ a hI h.2
    rw [run_snoc]
    refine ⟨hnext, bs ++ more, ?_, ?_⟩
    · rw [List.flatMap_append, hlabels, hmore, List.flatMap_append,
        List.flatMap_singleton]
    · rw [hstep, hview, N.run_append]

/-- An invariant that a step keeps exactly when it meets `C` holds all along a
run exactly when all its steps meet `C`. -/
theorem forall_prefix_iff_along (M : Machine σ α) {I : σ → Prop}
    {C : σ → α → Prop} (init : I M.init)
    (step : ∀ as a, I (M.run as) → (I (M.step (M.run as) a) ↔ C (M.run as) a))
    (as : List α) :
    (∀ pre, pre <+: as → I (M.run pre)) ↔ M.Along C as := by
  refine ⟨?_, ?_⟩
  · intro h pre a post heq
    have hbefore : pre <+: as := ⟨a :: post, heq.symm⟩
    have hafter : pre ++ [a] <+: as := ⟨post, by simp [heq]⟩
    have hkept := h _ hafter
    rw [run_snoc] at hkept
    exact (step pre a (h pre hbefore)).mp hkept
  · intro h pre hpre
    induction pre using List.reverseRecOn with
    | nil => exact init
    | append_singleton pre a ih =>
      obtain ⟨post, hpost⟩ := hpre
      have hbefore := ih ⟨a :: post, by simp [← hpost]⟩
      rw [run_snoc]
      exact (step pre a hbefore).mpr (h pre a post (by simp [← hpost]))

/-! ## Counting steps -/

/-- How many steps start in a state and with an input as `C` says. -/
def tally (M : Machine σ α) (C : σ → α → Bool) (s : σ) : List α → Nat
  | [] => 0
  | a :: as => (C s a).toNat + M.tally C (M.step s a) as

theorem tally_snoc (M : Machine σ α) (C : σ → α → Bool) (s : σ) (as : List α)
    (a : α) : M.tally C s (as ++ [a]) =
      M.tally C s as + (C (M.exec s as) a).toNat := by
  induction as generalizing s with
  | nil => exact Nat.add_comm _ _
  | cons b as ih =>
    rw [List.cons_append, tally, ih, tally, exec_cons, Nat.add_assoc]

@[simp] theorem tally_false (M : Machine σ α) (s : σ) (as : List α) :
    M.tally (fun _ _ => false) s as = 0 := by
  induction as generalizing s with
  | nil => rfl
  | cons a as ih => rw [tally, ih, Bool.toNat_false]

/-- Double-entry books: if `p` and `q` grow alike in every step but for the
steps that are counted, they do so in every run. -/
theorem tally_balance (M : Machine σ α) (p q : σ → Nat) (C D : σ → α → Bool)
    (h : ∀ as a, p (M.step (M.run as) a) + q (M.run as) +
        (D (M.run as) a).toNat =
      p (M.run as) + q (M.step (M.run as) a) + (C (M.run as) a).toNat)
    (as : List α) :
    p (M.run as) + q M.init + M.tally D M.init as =
      p M.init + q (M.run as) + M.tally C M.init as := by
  induction as using List.reverseRecOn with
  | nil => rfl
  | append_singleton as a ih =>
    have hstep := h as a
    have hrun : M.exec M.init as = M.run as := rfl
    rw [run_snoc, tally_snoc, tally_snoc, hrun]
    omega

/-- As many steps are counted at most as a measure allows that each of them
makes smaller and no step makes larger. -/
theorem tally_le_measure (M : Machine σ α) {C : σ → α → Bool} (m : σ → Nat)
    {as : List α}
    (h : ∀ s, ∀ a ∈ as, m (M.step s a) + (C s a).toNat ≤ m s) (s : σ) :
    M.tally C s as ≤ m s := by
  induction as generalizing s with
  | nil => exact Nat.zero_le _
  | cons a as ih =>
    have hstep := h s a List.mem_cons_self
    have hrest := ih (fun t b hb => h t b (List.mem_cons_of_mem a hb))
      (M.step s a)
    rw [tally]
    omega

/-- No step of a run is counted exactly when `C` fails all along it. -/
theorem tally_eq_zero_iff (M : Machine σ α) (C : σ → α → Bool) (as : List α) :
    M.tally C M.init as = 0 ↔ M.Along (fun s a => C s a = false) as := by
  induction as using List.reverseRecOn with
  | nil => exact ⟨fun _ pre a post h => by simp at h, fun _ => rfl⟩
  | append_singleton as a ih =>
    have hrun : M.exec M.init as = M.run as := rfl
    rw [tally_snoc, along_snoc, Nat.add_eq_zero_iff, ih, hrun]
    cases C (M.run as) a <;> simp

end Machine
