import Sipana.Lib.Mean
import Sipana.Server.SIPPerformanceMetrics

/-!
# Ratios

The two ratios of sessions are computed by the same loop, but one of them counts
in an `int`. Its quotient is truncated, to 0 unless all sessions are COMPLETED.
-/

namespace Sipana

namespace SIPPerformanceMetrics

open Mean

/-! ## Fractions -/

/-- A fraction is the mean of a quantity that is 0 or 1. -/
theorem fraction_eq_mean (P : SIPSession → Bool) (sessions : List SIPSession) :
    fraction P sessions = mean (fun s => if P s then 1 else 0) sessions := by
  have hsum : ((sessions.map fun s => if P s then (1 : ℚ) else 0).sum) =
      sessions.countP P := by
    induction sessions with
    | nil => rfl
    | cons s rest ih =>
      rw [List.map_cons, List.sum_cons, ih, List.countP_cons]
      by_cases hP : P s = true
      · simp [hP]
        ring
      · simp [hP]
  unfold fraction mean
  rw [hsum]

theorem fraction_append (P : SIPSession → Bool) (A B : List SIPSession) :
    fraction P (A ++ B) =
      (A.length * fraction P A + B.length * fraction P B) /
        (A.length + B.length) := by
  rw [fraction_eq_mean, fraction_eq_mean, fraction_eq_mean, mean_append]

/-- Two disjoint classes and what remains make up the whole list. -/
theorem fractions_add_up {P Q : SIPSession → Bool}
    (hdisjoint : ∀ s, P s = true → Q s = false) {sessions : List SIPSession}
    (hne : sessions ≠ []) :
    fraction P sessions + fraction Q sessions +
      fraction (fun s => !P s && !Q s) sessions = 1 := by
  rw [fraction_eq_mean, fraction_eq_mean, fraction_eq_mean, ← mean_add,
    ← mean_add]
  refine Eq.trans ?_ (mean_one hne)
  congr 1
  funext s
  have hs := hdisjoint s
  cases hP : P s <;> cases hQ : Q s <;> simp_all

/-- A fraction is 0 when no session counts, and 1 when all of them do. -/
theorem fraction_eq_zero_iff (P : SIPSession → Bool)
    (sessions : List SIPSession) :
    fraction P sessions = 0 ↔ ∀ s ∈ sessions, P s = false := by
  unfold fraction
  rw [div_eq_zero_iff]
  cases sessions with
  | nil => simp
  | cons s rest =>
    rw [or_iff_left (by exact_mod_cast Nat.succ_ne_zero rest.length),
      Nat.cast_eq_zero, List.countP_eq_zero]
    simp

theorem fraction_eq_one_iff (P : SIPSession → Bool) {sessions : List SIPSession}
    (hne : sessions ≠ []) :
    fraction P sessions = 1 ↔ ∀ s ∈ sessions, P s = true := by
  have hlength : (sessions.length : ℚ) ≠ 0 := by
    exact_mod_cast List.length_eq_zero_iff.not.mpr hne
  unfold fraction
  rw [div_eq_one_iff_eq hlength, Nat.cast_inj, List.countP_eq_length]

/-! ## The completion ratio -/

def isCompleted (s : SIPSession) : Bool := s.state = .completed

def isFailed (s : SIPSession) : Bool := s.state = .failed

/-- The loop counts the COMPLETED sessions. -/
theorem completion_loop (sessions : List SIPSession) (n : Int) :
    sessions.foldl (fun nComplete session =>
      if session.state = .completed then nComplete + 1 else nComplete) n =
      n + sessions.countP isCompleted := by
  induction sessions generalizing n with
  | nil => simp
  | cons session rest ih =>
    rw [List.foldl_cons, ih, List.countP_cons]
    by_cases h : session.state = .completed
    · simp [h, isCompleted]
      ring
    · simp [h, isCompleted]

/-- The quotient is 1 when all sessions are COMPLETED, and 0 otherwise. -/
theorem completionRatio_eq {sessionList : List SIPSession}
    (hne : sessionList ≠ []) :
    getSessionCompletionRatio sessionList =
      if ∀ s ∈ sessionList, isCompleted s = true then 1 else 0 := by
  have hpos : sessionList.length > 0 := List.length_pos_iff.mpr hne
  unfold getSessionCompletionRatio
  simp only [completion_loop, zero_add, if_pos hpos]
  split
  · rename_i hall
    rw [List.countP_eq_length.mpr hall, Int.tdiv_self (by omega), Int.cast_one]
  · rename_i hsome
    rw [← List.countP_eq_length] at hsome
    have hle := List.countP_le_length (p := isCompleted) (l := sessionList)
    rw [Int.tdiv_eq_zero_of_lt (by omega) (by omega), Int.cast_zero]

/-- None of the sessions is COMPLETED, or all of them are. -/
def CompletedAlike (sessions : List SIPSession) : Prop :=
  (∀ s ∈ sessions, s.state ≠ .completed) ∨ ∀ s ∈ sessions, s.state = .completed

instance (sessions : List SIPSession) : Decidable (CompletedAlike sessions) :=
  inferInstanceAs (Decidable (_ ∨ _))

theorem CompletedAlike.sublist {A B : List SIPSession} (h : CompletedAlike B)
    (hA : ∀ s ∈ A, s ∈ B) : CompletedAlike A :=
  h.imp (fun hnone s hs => hnone s (hA s hs)) fun hall s hs => hall s (hA s hs)

theorem completionRatio_eq_fraction_iff (sessionList : List SIPSession) :
    getSessionCompletionRatio sessionList = fraction isCompleted sessionList ↔
      CompletedAlike sessionList := by
  by_cases hne : sessionList = []
  · subst hne
    simp [CompletedAlike, fraction, getSessionCompletionRatio]
  · have hnone := fraction_eq_zero_iff isCompleted sessionList
    have hall := fraction_eq_one_iff isCompleted hne
    simp only [isCompleted, decide_eq_false_iff_not] at hnone
    simp only [isCompleted, decide_eq_true_eq] at hall
    rw [completionRatio_eq hne, CompletedAlike, ← hall, ← hnone]
    simp only [isCompleted, decide_eq_true_eq, ← hall]
    split
    · rename_i hone
      exact iff_of_true hone.symm (Or.inr hone)
    · rename_i hnotone
      rw [or_iff_left hnotone, eq_comm]

/-! ## The law of the ratios -/

/-- Both ratios are fractions of the list, and behave as such. -/
structure RatiosExact (sessionList : List SIPSession) : Prop where
  completion : getSessionCompletionRatio sessionList =
    fraction isCompleted sessionList
  ineffective : getIneffectiveSessionAttempts sessionList =
    fraction isFailed sessionList
  empty : sessionList = [] → getSessionCompletionRatio sessionList = 0 ∧
    getIneffectiveSessionAttempts sessionList = 0
  additive : ∀ A B, sessionList = A ++ B →
    getSessionCompletionRatio sessionList =
      (A.length * getSessionCompletionRatio A +
        B.length * getSessionCompletionRatio B) / (A.length + B.length) ∧
    getIneffectiveSessionAttempts sessionList =
      (A.length * getIneffectiveSessionAttempts A +
        B.length * getIneffectiveSessionAttempts B) / (A.length + B.length)
  shares : sessionList ≠ [] → getSessionCompletionRatio sessionList +
    getIneffectiveSessionAttempts sessionList +
      fraction (fun s => !isCompleted s && !isFailed s) sessionList = 1

theorem completion_disjoint_failure (s : SIPSession)
    (h : isCompleted s = true) : isFailed s = false := by
  simp_all [isCompleted, isFailed]

/-- The ratios are exact exactly when the sessions are COMPLETED alike. -/
theorem ratios_exact_iff (sessionList : List SIPSession) :
    RatiosExact sessionList ↔ CompletedAlike sessionList := by
  refine ⟨?_, ?_⟩
  · intro h
    exact (completionRatio_eq_fraction_iff sessionList).mp h.completion
  · intro h
    have hcompletion := (completionRatio_eq_fraction_iff sessionList).mpr h
    refine ⟨hcompletion, ineffective_eq_fraction sessionList, ?_, ?_, ?_⟩
    · rintro rfl
      exact ⟨rfl, rfl⟩
    · rintro A B rfl
      have hA := h.sublist (A := A) fun s hs => List.mem_append_left B hs
      have hB := h.sublist (A := B) fun s hs => List.mem_append_right A hs
      refine ⟨?_, ?_⟩
      · rw [hcompletion, (completionRatio_eq_fraction_iff A).mpr hA,
          (completionRatio_eq_fraction_iff B).mpr hB, fraction_append]
      · rw [ineffective_eq_fraction, ineffective_eq_fraction,
          ineffective_eq_fraction, fraction_append]
    · intro hne
      rw [hcompletion, ineffective_eq_fraction]
      exact fractions_add_up completion_disjoint_failure hne

/-- One completed call and one that failed. -/
theorem completion_ratio_truncated :
    ¬ ∀ sessionList, RatiosExact sessionList := by
  intro h
  let call (state : SIPSessionState) : SIPSession :=
    { state, callId := "a", requestMethod := Request.INVITE,
      fromUser := "alice", toUser := "bob" }
  have hratio := (h [call .completed, call .failed]).completion
  simp [getSessionCompletionRatio, fraction, isCompleted, call] at hratio

end SIPPerformanceMetrics

end Sipana
