import Mathlib.Algebra.Order.Field.Rat
import Mathlib.Tactic.Ring
import Sipana.Protocol.SIPSession

/-!
# SIP performance metrics

The metrics of `SIPPerformanceMetricsBean`. Each per-session metric is a
difference of two milestones and none looks at the `0` that marks a milestone
as missing. `delays_in_range_iff` says which milestones a session needs for all
four differences to be durations within the session.

A ratio or an average that is a `double` is a rational number here. Times are
integers without bound.
-/

namespace Sipana

namespace SIPPerformanceMetrics

def getRegistrationRequestDelay (session : SIPSession) : Int :=
  session.endTime - session.startTime

def getSessionDisconnectDelay (session : SIPSession) : Int :=
  session.endTime - session.disconnectionStart

def getSessionDurationTime (session : SIPSession) : Int :=
  session.disconnectionStart - session.establishedTime

def getSessionRequestDelay (session : SIPSession) : Int :=
  session.setupTime - session.startTime

/-- A duration that fits into the session. -/
def Within (session : SIPSession) (delay : Int) : Prop :=
  0 ≤ delay ∧ delay ≤ session.endTime - session.startTime

instance (session : SIPSession) (delay : Int) :
    Decidable (Within session delay) :=
  inferInstanceAs (Decidable (_ ∧ _))

def DelaysInRange (session : SIPSession) : Prop :=
  Within session (getSessionRequestDelay session) ∧
  Within session (getSessionDisconnectDelay session) ∧
  Within session (getSessionDurationTime session) ∧
  Within session (getRegistrationRequestDelay session)

instance (session : SIPSession) : Decidable (DelaysInRange session) :=
  inferInstanceAs (Decidable (_ ∧ _))

/-- With the milestones that are set in order, the delays are in range when the
session was set up and disconnected, and its disconnection, if the session was
never established, does not stand for a duration longer than the session. -/
theorem delays_in_range_iff {s : SIPSession} (hstart : 0 < s.startTime)
    (hend : s.startTime ≤ s.endTime)
    (hsetup : s.setupTime ≠ 0 →
      s.startTime ≤ s.setupTime ∧ s.setupTime ≤ s.endTime)
    (hdisc : s.disconnectionStart ≠ 0 →
      s.startTime ≤ s.disconnectionStart ∧ s.disconnectionStart ≤ s.endTime)
    (hest : s.establishedTime ≠ 0 → s.startTime ≤ s.establishedTime ∧
      (s.disconnectionStart ≠ 0 →
        s.establishedTime ≤ s.disconnectionStart)) :
    DelaysInRange s ↔
      s.disconnectionStart ≠ 0 ∧ s.setupTime ≠ 0 ∧
        (s.establishedTime ≠ 0 ∨
          s.disconnectionStart ≤ s.endTime - s.startTime) := by
  unfold DelaysInRange Within getSessionRequestDelay getSessionDisconnectDelay
    getSessionDurationTime getRegistrationRequestDelay
  omega

/-! ## Hops -/

/-- The loop over the messages: the first and the last request with the initial
method. -/
def firstAndLast (initialMethod : String)
    (found : Option SIPRequest × Option SIPRequest) :
    SIPMessage → Option SIPRequest × Option SIPRequest
  | .request r =>
    if r.method = initialMethod then
      ((if found.1 = none then some r else found.1), some r)
    else found
  | .response _ => found

def getHopsPerRequest (session : SIPSession) : Int :=
  let initialMethod := session.requestMethod
  let found := session.messages.foldl (firstAndLast initialMethod) (none, none)
  let result := 0
  match found with
  | (some first, some last) => result + (first.maxForwards - last.maxForwards)
  | _ => result

/-! ## Averages -/

def getAvgHopsPerRequest (sessionList : List SIPSession) : ℚ :=
  let result : ℚ := sessionList.foldl (fun result session =>
    result + getHopsPerRequest session) 0
  let listSize := sessionList.length
  if listSize > 0 then result / listSize else 0

-- The next four assign where they should add: `result =+ …`, `result = +…`.

/-- The body of the loop over `result` and `nRegister`. -/
def addRegistration (loop : ℚ × Nat) (session : SIPSession) : ℚ × Nat :=
  if session.requestMethod = Request.REGISTER then
    (getRegistrationRequestDelay session, loop.2 + 1)
  else loop

def getAvgRegistrationRequestDelay (sessionList : List SIPSession) : ℚ :=
  let (result, nRegister) := sessionList.foldl addRegistration (0, 0)
  if nRegister > 0 then result / nRegister else 0

def getAvgSessionDisconnectDelay (sessionList : List SIPSession) : Int :=
  let result := sessionList.foldl (fun _ session =>
    getSessionDisconnectDelay session) 0
  let listSize := sessionList.length
  if listSize > 0 then result.tdiv listSize else 0

def getAvgSessionDurationTime (sessionList : List SIPSession) : Int :=
  let result := sessionList.foldl (fun _ session =>
    getSessionDurationTime session) 0
  let listSize := sessionList.length
  if listSize > 0 then result.tdiv listSize else 0

def getAvgSessionRequestDelay (sessionList : List SIPSession) : ℚ :=
  let result : ℚ := sessionList.foldl (fun _ session =>
    (getSessionRequestDelay session : ℚ)) 0
  let listSize := sessionList.length
  if listSize > 0 then result / listSize else 0

/-! ## Ratios of sessions -/

def getIneffectiveSessionAttempts (sessionList : List SIPSession) : ℚ :=
  let nFail : ℚ := sessionList.foldl (fun nFail session =>
    if session.state = .failed then nFail + 1 else nFail) 0
  let listSize := sessionList.length
  if listSize > 0 then nFail / listSize else 0

/-- Here the counter is an `int`, and `/` divides integers. -/
def getSessionCompletionRatio (sessionList : List SIPSession) : ℚ :=
  let nComplete : Int := sessionList.foldl (fun nComplete session =>
    if session.state = .completed then nComplete + 1 else nComplete) 0
  let listSize := sessionList.length
  if listSize > 0 then ((nComplete.tdiv listSize : Int) : ℚ) else 0

/-- The fraction of the sessions that meet `P`. -/
def fraction (P : SIPSession → Bool) (sessions : List SIPSession) : ℚ :=
  sessions.countP P / sessions.length

/-- The loop counts the FAILED sessions. -/
theorem ineffective_loop (sessions : List SIPSession) (n : ℚ) :
    sessions.foldl (fun nFail session =>
      if session.state = .failed then nFail + 1 else nFail) n =
      n + sessions.countP (·.state = .failed) := by
  induction sessions generalizing n with
  | nil => simp
  | cons session rest ih =>
    rw [List.foldl_cons, ih, List.countP_cons]
    by_cases h : session.state = .failed
    · simp [h]
      ring
    · simp [h]

theorem ineffective_eq_fraction (sessions : List SIPSession) :
    getIneffectiveSessionAttempts sessions =
      fraction (·.state = .failed) sessions := by
  unfold getIneffectiveSessionAttempts fraction
  simp only [ineffective_loop, zero_add]
  split
  · rfl
  · rename_i hempty
    simp [Nat.le_zero.mp (Nat.le_of_not_lt hempty)]

/-- Of two properties, the one that implies the other is met as often only when
the other implies it as well. -/
theorem forall_of_countP_eq {P Q : SIPSession → Bool}
    {sessions : List SIPSession}
    (himp : ∀ s ∈ sessions, Q s = true → P s = true)
    (h : sessions.countP P = sessions.countP Q) :
    ∀ s ∈ sessions, P s = true → Q s = true := by
  induction sessions with
  | nil => exact fun s hs => absurd hs List.not_mem_nil
  | cons x rest ih =>
    obtain ⟨hx, hrest⟩ := List.forall_mem_cons.mp himp
    have hle : rest.countP Q ≤ rest.countP P := List.countP_mono_left hrest
    rw [List.countP_cons, List.countP_cons] at h
    have hsame : (P x = true → Q x = true) ∧
        rest.countP P = rest.countP Q := by
      by_cases hP : P x = true <;> by_cases hQ : Q x = true <;>
        simp_all
      omega
    exact List.forall_mem_cons.mpr ⟨hsame.1, ih hrest hsame.2⟩

/-- Such properties have the same fraction when they are the same on the
list. -/
theorem fraction_eq_iff {P Q : SIPSession → Bool} {sessions : List SIPSession}
    (himp : ∀ s ∈ sessions, Q s = true → P s = true) :
    fraction P sessions = fraction Q sessions ↔
      ∀ s ∈ sessions, P s = true → Q s = true := by
  have hcount : fraction P sessions = fraction Q sessions ↔
      sessions.countP P = sessions.countP Q := by
    unfold fraction
    refine ⟨?_, fun h => by rw [h]⟩
    intro h
    cases sessions with
    | nil => rfl
    | cons s rest =>
      have hlength : ((s :: rest).length : ℚ) ≠ 0 := by
        exact_mod_cast Nat.succ_ne_zero rest.length
      rw [div_left_inj' hlength] at h
      exact_mod_cast h
  rw [hcount]
  refine ⟨?_, ?_⟩
  · exact forall_of_countP_eq himp
  · intro h
    apply List.countP_congr
    intro s hs
    exact ⟨h s hs, himp s hs⟩

end SIPPerformanceMetrics

end Sipana
