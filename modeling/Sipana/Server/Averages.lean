import Sipana.Lib.Mean
import Sipana.Server.SIPPerformanceMetrics

/-!
# Averages

Five loops over a list of sessions. The one over the hops adds up what it
divides; the other four assign where they should add, and divide the delay of
the last session by the number of sessions.
-/

namespace Sipana

namespace SIPPerformanceMetrics

open Mean

/-- The sessions the registration delay is about. -/
def registrations (sessionList : List SIPSession) : List SIPSession :=
  sessionList.filter (·.requestMethod = Request.REGISTER)

/-! ## The loops -/

theorem avgHops_eq_mean (sessionList : List SIPSession) :
    getAvgHopsPerRequest sessionList =
      mean (fun s => (getHopsPerRequest s : ℚ)) sessionList := by
  unfold getAvgHopsPerRequest mean
  simp only [foldl_add (fun s => (getHopsPerRequest s : ℚ)), zero_add]
  split
  · rfl
  · rename_i hempty
    simp [Nat.le_zero.mp (Nat.le_of_not_lt hempty)]

theorem avgRequestDelay_eq_last (sessionList : List SIPSession) :
    getAvgSessionRequestDelay sessionList =
      last (fun s => (getSessionRequestDelay s : ℚ)) 0 sessionList /
        sessionList.length := by
  unfold getAvgSessionRequestDelay last
  cases sessionList with
  | nil => simp
  | cons s rest => exact if_pos (Nat.succ_pos rest.length)

theorem avgDisconnectDelay_eq_last (sessionList : List SIPSession) :
    getAvgSessionDisconnectDelay sessionList =
      (last getSessionDisconnectDelay 0 sessionList).tdiv
        sessionList.length := by
  unfold getAvgSessionDisconnectDelay last
  cases sessionList with
  | nil => simp
  | cons s rest => exact if_pos (Nat.succ_pos rest.length)

theorem avgDurationTime_eq_last (sessionList : List SIPSession) :
    getAvgSessionDurationTime sessionList =
      (last getSessionDurationTime 0 sessionList).tdiv
        sessionList.length := by
  unfold getAvgSessionDurationTime last
  cases sessionList with
  | nil => simp
  | cons s rest => exact if_pos (Nat.succ_pos rest.length)

/-- The registration loop is such a loop over the registrations. -/
theorem registration_loop (sessionList : List SIPSession) (loop : ℚ × Nat) :
    sessionList.foldl addRegistration loop =
      (last (fun s => (getRegistrationRequestDelay s : ℚ)) loop.1
          (registrations sessionList),
        loop.2 + (registrations sessionList).length) := by
  induction sessionList generalizing loop with
  | nil => rfl
  | cons s rest ih =>
    rw [List.foldl_cons, ih]
    by_cases hmethod : s.requestMethod = Request.REGISTER
    · have hcons : registrations (s :: rest) = s :: registrations rest := by
        simp [registrations, hmethod]
      rw [addRegistration, if_pos hmethod, hcons]
      refine Prod.ext rfl ?_
      simp only [List.length_cons]
      omega
    · have hcons : registrations (s :: rest) = registrations rest := by
        simp [registrations, hmethod]
      rw [addRegistration, if_neg hmethod, hcons]

theorem avgRegistrationDelay_eq_last (sessionList : List SIPSession) :
    getAvgRegistrationRequestDelay sessionList =
      last (fun s => (getRegistrationRequestDelay s : ℚ)) 0
          (registrations sessionList) /
        (registrations sessionList).length := by
  unfold getAvgRegistrationRequestDelay
  rw [registration_loop]
  simp only [zero_add]
  split
  · rfl
  · rename_i hempty
    simp [Nat.le_zero.mp (Nat.le_of_not_lt hempty)]

/-! ## Means -/

/-- `average` gives `value` for the list, and the same for its other orders. -/
def InEveryOrder {γ : Type*} (average : List SIPSession → γ) (value : γ)
    (sessions : List SIPSession) : Prop :=
  average sessions = value ∧
    ∀ permuted, permuted.Perm sessions → average permuted = average sessions

theorem inEveryOrder_iff {γ : Type*} (average : List SIPSession → γ)
    (value : γ) (sessions : List SIPSession) :
    InEveryOrder average value sessions ↔
      ∀ permuted, permuted.Perm sessions → average permuted = value := by
  refine ⟨?_, ?_⟩
  · intro h permuted hp
    exact (h.2 permuted hp).trans h.1
  · intro h
    have hself := h sessions (List.Perm.refl sessions)
    exact ⟨hself, fun permuted hp => (h permuted hp).trans hself.symm⟩

/-- The five averages are the means of what they average. -/
structure AveragesAreMeans (sessionList : List SIPSession) : Prop where
  registrationRequestDelay : InEveryOrder getAvgRegistrationRequestDelay
    (mean (fun s => (getRegistrationRequestDelay s : ℚ))
      (registrations sessionList)) sessionList
  sessionRequestDelay : InEveryOrder getAvgSessionRequestDelay
    (mean (fun s => (getSessionRequestDelay s : ℚ)) sessionList) sessionList
  sessionDisconnectDelay : InEveryOrder getAvgSessionDisconnectDelay
    (truncatedMean getSessionDisconnectDelay sessionList) sessionList
  sessionDurationTime : InEveryOrder getAvgSessionDurationTime
    (truncatedMean getSessionDurationTime sessionList) sessionList
  hopsPerRequest : InEveryOrder getAvgHopsPerRequest
    (mean (fun s => (getHopsPerRequest s : ℚ)) sessionList) sessionList

/-- There is at most one session, or all delays are 0. -/
def NothingToAdd (delay : SIPSession → Int) (sessions : List SIPSession) :
    Prop :=
  sessions.length ≤ 1 ∨ ∀ s ∈ sessions, delay s = 0

/-- There is at most one session, or every delay and their sum are smaller than
the number of sessions, so that all quotients are truncated to 0. -/
def AllTruncated (delay : SIPSession → Int) (sessions : List SIPSession) :
    Prop :=
  sessions.length ≤ 1 ∨
    ((∀ s ∈ sessions, (delay s).natAbs < sessions.length) ∧
      (sessions.map delay).sum.natAbs < sessions.length)

instance (delay : SIPSession → Int) (sessions : List SIPSession) :
    Decidable (NothingToAdd delay sessions) :=
  inferInstanceAs (Decidable (_ ∨ _))

instance (delay : SIPSession → Int) (sessions : List SIPSession) :
    Decidable (AllTruncated delay sessions) :=
  inferInstanceAs (Decidable (_ ∨ _))

theorem requestDelay_in_every_order (sessionList : List SIPSession) :
    InEveryOrder getAvgSessionRequestDelay
        (mean (fun s => (getSessionRequestDelay s : ℚ)) sessionList)
        sessionList ↔
      NothingToAdd getSessionRequestDelay sessionList := by
  simp only [inEveryOrder_iff, avgRequestDelay_eq_last, last_eq_mean_iff,
    NothingToAdd, Int.cast_eq_zero]

theorem disconnectDelay_in_every_order (sessionList : List SIPSession) :
    InEveryOrder getAvgSessionDisconnectDelay
        (truncatedMean getSessionDisconnectDelay sessionList) sessionList ↔
      AllTruncated getSessionDisconnectDelay sessionList := by
  simp only [inEveryOrder_iff, avgDisconnectDelay_eq_last,
    last_eq_truncatedMean_iff, AllTruncated]

theorem durationTime_in_every_order (sessionList : List SIPSession) :
    InEveryOrder getAvgSessionDurationTime
        (truncatedMean getSessionDurationTime sessionList) sessionList ↔
      AllTruncated getSessionDurationTime sessionList := by
  simp only [inEveryOrder_iff, avgDurationTime_eq_last,
    last_eq_truncatedMean_iff, AllTruncated]

/-- Every order of the registrations is that of some order of the sessions. -/
theorem exists_perm_registrations {sessionList registers : List SIPSession}
    (h : registers.Perm (registrations sessionList)) :
    ∃ permuted, permuted.Perm sessionList ∧
      registrations permuted = registers := by
  set others := sessionList.filter fun s =>
    !decide (s.requestMethod = Request.REGISTER) with hothers
  refine ⟨registers ++ others, ?_, ?_⟩
  · exact (h.append_right others).trans
      (List.filter_append_perm
        (fun (s : SIPSession) => decide (s.requestMethod = Request.REGISTER))
        sessionList)
  · have hkept : ∀ s ∈ registers, s.requestMethod = Request.REGISTER := by
      intro s hs
      have hmem := h.mem_iff.mp hs
      simpa [registrations] using (List.mem_filter.mp hmem).2
    have hdropped : ∀ s ∈ others, ¬ s.requestMethod = Request.REGISTER := by
      intro s hs
      simpa using (List.mem_filter.mp hs).2
    unfold registrations
    rw [List.filter_append, List.filter_eq_self.mpr (by simpa using hkept),
      List.filter_eq_nil_iff.mpr (by simpa using hdropped), List.append_nil]

theorem registrationDelay_in_every_order (sessionList : List SIPSession) :
    InEveryOrder getAvgRegistrationRequestDelay
        (mean (fun s => (getRegistrationRequestDelay s : ℚ))
          (registrations sessionList)) sessionList ↔
      NothingToAdd getRegistrationRequestDelay (registrations sessionList) := by
  have horders := last_eq_mean_iff
    (fun s => (getRegistrationRequestDelay s : ℚ)) (registrations sessionList)
  simp only [Int.cast_eq_zero] at horders
  rw [inEveryOrder_iff, NothingToAdd, ← horders]
  simp only [avgRegistrationDelay_eq_last]
  refine ⟨?_, ?_⟩
  · intro h registers hregisters
    obtain ⟨permuted, hpermuted, rfl⟩ := exists_perm_registrations hregisters
    exact h permuted hpermuted
  · intro h permuted hpermuted
    exact h _ (hpermuted.filter _)

theorem hops_in_every_order (sessionList : List SIPSession) :
    InEveryOrder getAvgHopsPerRequest
      (mean (fun s => (getHopsPerRequest s : ℚ)) sessionList) sessionList := by
  rw [inEveryOrder_iff]
  intro permuted hp
  rw [avgHops_eq_mean, mean_perm _ hp]

/-- The averages are means exactly when nothing is lost by not adding: where a
loop covers two sessions or more, the delays that it should add are 0, or they
and their sum are truncated to 0. -/
theorem averages_are_means_iff (sessionList : List SIPSession) :
    AveragesAreMeans sessionList ↔
      NothingToAdd getRegistrationRequestDelay (registrations sessionList) ∧
      NothingToAdd getSessionRequestDelay sessionList ∧
      AllTruncated getSessionDisconnectDelay sessionList ∧
      AllTruncated getSessionDurationTime sessionList := by
  rw [← registrationDelay_in_every_order, ← requestDelay_in_every_order,
    ← disconnectDelay_in_every_order, ← durationTime_in_every_order]
  refine ⟨?_, ?_⟩
  · intro h
    exact ⟨h.registrationRequestDelay, h.sessionRequestDelay,
      h.sessionDisconnectDelay, h.sessionDurationTime⟩
  · intro h
    obtain ⟨hregistration, hrequest, hdisconnect, hduration⟩ := h
    exact ⟨hregistration, hrequest, hdisconnect, hduration,
      hops_in_every_order sessionList⟩

/-- Two calls that were set up after 10 and after 20 milliseconds. -/
theorem setup_delays_not_added :
    ¬ ∀ sessionList, AveragesAreMeans sessionList := by
  intro h
  let call (time : Int) : SIPSession :=
    { startTime := 1, setupTime := time, state := .completed, callId := "a",
      requestMethod := Request.INVITE, fromUser := "alice", toUser := "bob" }
  have hmean := (h [call 11, call 21]).sessionRequestDelay.1
  simp [getAvgSessionRequestDelay, mean, getSessionRequestDelay, call] at hmean
  norm_num at hmean

end SIPPerformanceMetrics

end Sipana
