import Mathlib.Data.List.Forall2
import Mathlib.Tactic.Common

/-!
# Loops whose body may fail

`List.mapM` over `Option` or `Except` stops at the first element on which the
body fails. It succeeds iff the body succeeds on every element.
-/

namespace FallibleLoop

/-! ## Bodies without a result -/

theorem mapM_isSome {α β : Type*} {f : α → Option β} {l : List α}
    (h : ∀ a ∈ l, (f a).isSome = true) : (l.mapM f).isSome = true := by
  induction l with
  | nil => rfl
  | cons a l ih =>
    obtain ⟨b, hb⟩ := Option.isSome_iff_exists.mp (h a List.mem_cons_self)
    obtain ⟨bs, hbs⟩ := Option.isSome_iff_exists.mp
      (ih fun c hc => h c (List.mem_cons_of_mem a hc))
    simp [List.mapM_cons, hb, hbs]

theorem mem_mapM_iff {α β : Type*} {f : α → Option β} {l : List α} {bs : List β}
    (h : l.mapM f = some bs) (b : β) : b ∈ bs ↔ ∃ a ∈ l, f a = some b := by
  induction l generalizing bs with
  | nil =>
    obtain rfl := Option.some.inj h
    simp
  | cons a l ih =>
    simp only [List.mapM_cons, Option.bind_eq_bind,
      Option.bind_eq_some_iff] at h
    obtain ⟨b', hb', bs', hbs', heq⟩ := h
    obtain rfl := Option.some.inj heq
    simp [ih hbs', hb', eq_comm]

/-! ## Bodies that throw -/

section Except

variable {ε α β : Type} (f : α → Except ε β)

/-- The results are those of the body, one by one. -/
theorem mapM_eq_ok_iff (l : List α) (bs : List β) :
    l.mapM f = .ok bs ↔ List.Forall₂ (fun a b => f a = .ok b) l bs := by
  induction l generalizing bs with
  | nil =>
    rw [List.mapM_nil, List.forall₂_nil_left_iff]
    exact ⟨fun h => (Except.ok.inj h).symm, fun h => h ▸ rfl⟩
  | cons a l ih =>
    rw [List.mapM_cons, List.forall₂_cons_left_iff]
    cases ha : f a with
    | error e =>
      refine ⟨fun h => absurd h nofun, fun h => ?_⟩
      obtain ⟨b, _, hb, -⟩ := h
      exact absurd hb nofun
    | ok b =>
      cases hl : l.mapM f with
      | error e =>
        refine ⟨fun h => absurd h nofun, fun h => ?_⟩
        obtain ⟨_, bs', -, hbs', -⟩ := h
        rw [← ih bs', hl] at hbs'
        exact absurd hbs' nofun
      | ok bs' =>
        constructor
        · intro h
          exact ⟨b, bs', rfl, (ih bs').mp hl, (Except.ok.inj h).symm⟩
        · intro h
          obtain ⟨_, bs'', hb, hbs'', rfl⟩ := h
          rw [← ih bs'', hl] at hbs''
          rw [← Except.ok.inj hb, ← Except.ok.inj hbs'']
          rfl

theorem exists_mapM_iff (l : List α) :
    (∃ bs, l.mapM f = .ok bs) ↔ ∀ a ∈ l, ∃ b, f a = .ok b := by
  simp only [mapM_eq_ok_iff]
  induction l with
  | nil => exact ⟨fun _ => nofun, fun _ => ⟨[], .nil⟩⟩
  | cons a l ih =>
    rw [List.forall_mem_cons, ← ih]
    constructor
    · intro h
      obtain ⟨_, hbs⟩ := h
      cases hbs with
      | cons hb hbs => exact ⟨⟨_, hb⟩, _, hbs⟩
    · intro h
      obtain ⟨⟨b, hb⟩, bs, hbs⟩ := h
      exact ⟨b :: bs, .cons hb hbs⟩

end Except

end FallibleLoop
