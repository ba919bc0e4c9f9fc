import Sipana.Lib.Machine

/-!
# Machines that are a product of independent local machines

Every input carries a key. A `KeyedView` says that a step rewrites the view of
its own key as a local machine would and leaves every other view alone. Then
the view of a key after a run is the local run over the inputs with that key,
so the interleaving of inputs with different keys does not matter.
-/

namespace Machine

/-- `M` seen through `view k` is the local machine `N` on the inputs with key
`k`. `Good` is the state invariant under which this is so. -/
structure KeyedView {σ τ α β κ : Type*} (M : Machine σ α) (N : Machine τ β)
    (key : β → κ) where
  Good : σ → Prop
  input : α → β
  view : κ → σ → τ
  good_init : Good M.init
  good_step : ∀ s a, Good s → Good (M.step s a)
  view_init : ∀ k, view k M.init = N.init
  view_own : ∀ s a, Good s →
    view (key (input a)) (M.step s a) =
      N.step (view (key (input a)) s) (input a)
  view_other : ∀ s a k, Good s → key (input a) ≠ k →
    view k (M.step s a) = view k s

namespace KeyedView

variable {σ τ α β κ : Type*} {M : Machine σ α} {N : Machine τ β} {key : β → κ}

theorem good_run (V : KeyedView M N key) (as : List α) : V.Good (M.run as) :=
  M.run_invariant V.good_init V.good_step as

/-- The inputs of key `k`, in order, as the local machine sees them. -/
def projection [DecidableEq κ] (V : KeyedView M N key) (k : κ) (as : List α) :
    List β := (as.map V.input).filter (fun b => key b = k)

/-- The view of a key after a run is the local run over its projection. -/
theorem view_run [DecidableEq κ] (V : KeyedView M N key) (k : κ) (as : List α) :
    V.view k (M.run as) = N.run (V.projection k as) := by
  induction as using List.reverseRecOn with
  | nil => exact V.view_init k
  | append_singleton as a ih =>
    rw [M.run_snoc]
    by_cases hk : key (V.input a) = k
    · have hproj : V.projection k (as ++ [a]) =
          V.projection k as ++ [V.input a] := by
        simp [projection, hk]
      rw [hproj, N.run_snoc, ← ih, ← hk]
      exact V.view_own (M.run as) a (V.good_run as)
    · have hproj : V.projection k (as ++ [a]) = V.projection k as := by
        simp [projection, hk]
      rw [hproj, ← ih]
      exact V.view_other (M.run as) a k (V.good_run as) hk

/-- Two runs with the same projection onto a key agree on its view. -/
theorem view_run_congr [DecidableEq κ] (V : KeyedView M N key) {k : κ}
    {as bs : List α} (h : V.projection k as = V.projection k bs) :
    V.view k (M.run as) = V.view k (M.run bs) := by
  rw [V.view_run, V.view_run, h]

end KeyedView

end Machine
