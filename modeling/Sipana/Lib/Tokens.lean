import Mathlib.Data.List.Basic
import Mathlib.Tactic.Common

/-!
# Tokens between delimiters

`Runs` says what the tokens of a list are: its maximal runs of elements that are
no delimiters, in order. `tokens` finds them in one pass. Replacing runs of some
delimiters by one delimiter does not change the tokens, and tokens that are
joined with a delimiter are found again.
-/

namespace Tokens

variable {α : Type*}

/-- The maximal runs of elements that are no delimiters. -/
inductive Runs (delimiter : α → Bool) : List α → List (List α) → Prop
  | nil : Runs delimiter [] []
  | skip {a l ws} : delimiter a = true → Runs delimiter l ws →
      Runs delimiter (a :: l) ws
  | run {w l ws} : w ≠ [] → (∀ a ∈ w, delimiter a = false) →
      (∀ a ∈ l.head?, delimiter a = true) → Runs delimiter l ws →
      Runs delimiter (w ++ l) (w :: ws)

/-- The tokens of a list, the first of which begins with `token`. -/
def scan [DecidableEq α] (delimiter : α → Bool) (token : List α) :
    List α → List (List α)
  | [] => if token = [] then [] else [token]
  | a :: l =>
    if delimiter a then
      if token = [] then scan delimiter [] l
      else token :: scan delimiter [] l
    else scan delimiter (token ++ [a]) l

/-- The tokens of a list. -/
def tokens [DecidableEq α] (delimiter : α → Bool) (l : List α) :
    List (List α) := scan delimiter [] l

variable [DecidableEq α] {delimiter : α → Bool}

theorem runs_scan {token : List α} (h : ∀ a ∈ token, delimiter a = false)
    (l : List α) : Runs delimiter (token ++ l) (scan delimiter token l) := by
  induction l generalizing token with
  | nil =>
    unfold scan
    split
    · next hempty =>
      subst hempty
      exact .nil
    · next hne => exact .run hne h (by simp) .nil
  | cons a l ih =>
    unfold scan
    split
    · next ha =>
      -- a delimiter ends the token, if one has begun
      have hrest := Runs.skip ha (@ih [] (by simp))
      split
      · next hempty =>
        subst hempty
        exact hrest
      · next hne => exact .run hne h (by simpa using ha) hrest
    · next ha =>
      have htoken : ∀ b ∈ token ++ [a], delimiter b = false := by
        intro b hb
        rcases List.mem_append.mp hb with hb | hb
        · exact h b hb
        · rw [List.mem_singleton.mp hb]
          simpa using ha
      have hrest := ih htoken
      rwa [List.append_assoc, List.singleton_append] at hrest

theorem runs_tokens (l : List α) : Runs delimiter l (tokens delimiter l) := by
  have hempty : ∀ a ∈ ([] : List α), delimiter a = false := by simp
  exact runs_scan hempty l

theorem scan_append {w : List α} (h : ∀ a ∈ w, delimiter a = false)
    (token l : List α) :
    scan delimiter token (w ++ l) = scan delimiter (token ++ w) l := by
  induction w generalizing token with
  | nil => rw [List.nil_append, List.append_nil]
  | cons a w ih =>
    have ha : ¬delimiter a = true := by
      rw [h a List.mem_cons_self]
      exact Bool.false_ne_true
    rw [List.cons_append, scan, if_neg ha,
      ih (fun b hb => h b (List.mem_cons_of_mem a hb)), List.append_assoc,
      List.singleton_append]

/-- The tokens are the only maximal runs. -/
theorem runs_iff {l : List α} {ws : List (List α)} :
    Runs delimiter l ws ↔ ws = tokens delimiter l := by
  refine ⟨fun h => ?_, fun h => h ▸ runs_tokens l⟩
  induction h with
  | nil => rfl
  | skip ha _ ih =>
    rw [ih, tokens, tokens, scan, if_pos ha, if_pos rfl]
  | @run w l ws hne hw hl _ ih =>
    -- the whole run is scanned before `l` ends the token
    rw [tokens, scan_append hw, List.nil_append, ih]
    cases l with
    | nil => rw [scan, if_neg hne]; rfl
    | cons a l =>
      have ha : delimiter a = true := hl a rfl
      rw [scan, if_pos ha, if_neg hne, tokens, scan, if_pos ha, if_pos rfl]

omit [DecidableEq α] in
/-- Every element that is no delimiter is in a token. -/
theorem Runs.exists_mem {l : List α} {ws : List (List α)}
    (h : Runs delimiter l ws) {a : α} (ha : a ∈ l)
    (hfalse : delimiter a = false) : ∃ w ∈ ws, a ∈ w := by
  induction h with
  | nil => exact absurd ha List.not_mem_nil
  | skip hb _ ih =>
    rcases List.mem_cons.mp ha with rfl | ha
    · rw [hb] at hfalse
      exact Bool.noConfusion hfalse
    · exact ih ha
  | run _ _ _ _ ih =>
    rcases List.mem_append.mp ha with ha | ha
    · exact ⟨_, List.mem_cons_self, ha⟩
    · obtain ⟨w, hw, haw⟩ := ih ha
      exact ⟨w, List.mem_cons_of_mem _ hw, haw⟩

omit [DecidableEq α] in
/-- Only the elements of the list matter for what its delimiters are. -/
theorem Runs.congr {delimiter' : α → Bool} {l : List α} {ws : List (List α)}
    (h : Runs delimiter l ws) (heq : ∀ a ∈ l, delimiter a = delimiter' a) :
    Runs delimiter' l ws := by
  induction h with
  | nil => exact .nil
  | @skip a l ws ha _ ih =>
    rw [List.forall_mem_cons] at heq
    exact .skip (heq.1 ▸ ha) (ih heq.2)
  | @run w l ws hne hw hl _ ih =>
    rw [List.forall_mem_append] at heq
    refine .run hne (fun a ha => heq.1 a ha ▸ hw a ha) (fun a ha => ?_)
      (ih heq.2)
    rw [← heq.2 a (List.mem_of_mem_head? ha)]
    exact hl a ha

/-! ## Replacing delimiters -/

/-- Every run of `p` becomes one `b`. `inRun` tells whether the last element was
in a run. -/
def replaceRuns (p : α → Bool) (b : α) (inRun : Bool) : List α → List α
  | [] => []
  | a :: l =>
    if p a then
      if inRun then replaceRuns p b true l else b :: replaceRuns p b true l
    else a :: replaceRuns p b false l

omit [DecidableEq α] in
theorem replaceRuns_append_of_false {p : α → Bool} {w : List α} (hne : w ≠ [])
    (h : ∀ a ∈ w, p a = false) (b : α) (inRun : Bool) (l : List α) :
    replaceRuns p b inRun (w ++ l) = w ++ replaceRuns p b false l := by
  induction w generalizing inRun with
  | nil => exact absurd rfl hne
  | cons a w ih =>
    rw [List.forall_mem_cons] at h
    rw [List.cons_append, replaceRuns, if_neg (by simp [h.1]), List.cons_append]
    cases w with
    | nil => rfl
    | cons c w => rw [ih (List.cons_ne_nil c w) h.2]

omit [DecidableEq α] in
theorem replaceRuns_append_of_true {p : α → Bool} {w : List α}
    (h : ∀ a ∈ w, p a = true) (b : α) (l : List α) :
    replaceRuns p b true (w ++ l) = replaceRuns p b true l := by
  induction w with
  | nil => rfl
  | cons a w ih =>
    rw [List.forall_mem_cons] at h
    rw [List.cons_append, replaceRuns, if_pos h.1, if_pos rfl, ih h.2]

omit [DecidableEq α] in
/-- A run becomes one element. -/
theorem replaceRuns_run {p : α → Bool} {w : List α} (hne : w ≠ [])
    (h : ∀ a ∈ w, p a = true) (b : α) (l : List α) :
    replaceRuns p b false (w ++ l) = b :: replaceRuns p b true l := by
  obtain ⟨a, w, rfl⟩ := List.exists_cons_of_ne_nil hne
  rw [List.forall_mem_cons] at h
  rw [List.cons_append, replaceRuns, if_pos h.1, if_neg Bool.false_ne_true,
    replaceRuns_append_of_true h.2]

theorem scan_replaceRuns (p : α → Bool) {b : α} (hb : delimiter b = true)
    (l : List α) {inRun : Bool} {token : List α}
    (h : inRun = true → token = []) :
    scan delimiter token (replaceRuns p b inRun l) =
      scan (fun a => p a || delimiter a) token l := by
  induction l generalizing inRun token with
  | nil => rfl
  | cons a l ih =>
    cases hp : p a with
    | true =>
      cases inRun with
      | true =>
        -- the first element of the run has ended the token
        rw [h rfl, replaceRuns, if_pos hp, if_pos rfl, ih fun _ => rfl]
        simp [scan, hp]
      | false =>
        simp [replaceRuns, scan, hp, hb, ih fun _ => rfl]
    | false =>
      have hrest := fun token => @ih false token nofun
      simp [replaceRuns, scan, hp, hrest]

theorem tokens_replaceRuns (p : α → Bool) {b : α} (hb : delimiter b = true)
    (l : List α) : tokens delimiter (replaceRuns p b false l) =
      tokens (fun a => p a || delimiter a) l :=
  scan_replaceRuns p hb l nofun

/-! ## Joining -/

omit [DecidableEq α] in
theorem runs_intercalate {b : α} (hb : delimiter b = true) {ws : List (List α)}
    (h : ∀ w ∈ ws, w ≠ [] ∧ ∀ a ∈ w, delimiter a = false) :
    Runs delimiter ([b].intercalate ws) ws := by
  induction ws with
  | nil => exact .nil
  | cons w ws ih =>
    obtain ⟨hne, hw⟩ := h w List.mem_cons_self
    have hrest := ih fun v hv => h v (List.mem_cons_of_mem w hv)
    cases ws with
    | nil =>
      have hlast := Runs.run hne hw (by simp) hrest
      simpa using hlast
    | cons v ws =>
      have hjoin : [b].intercalate (w :: v :: ws) =
          w ++ b :: [b].intercalate (v :: ws) := by
        simp [List.intercalate]
      rw [hjoin]
      exact .run hne hw (by simpa using hb) (.skip hb hrest)

end Tokens
