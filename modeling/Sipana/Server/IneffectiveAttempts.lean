import Sipana.Agent.BatchTiming
import Sipana.Server.SIPPerformanceMetrics

/-!
# Ineffective session attempts

The metric counts the FAILED sessions among those the agent has emitted. The
agent writes FAILED on any 4xx, 5xx or 6xx response, whatever request it
answers and whatever the state of the session was: a BYE that is answered 481
turns an established call into an ineffective attempt.
-/

namespace Sipana

open SIPPerformanceMetrics

namespace SIPSession

/-- No 200 response to INVITE is among the messages. -/
def neverAnswered (s : SIPSession) : Bool := s.messages.all (!·.answers)

/-- The last message is a 4xx, 5xx or 6xx response. -/
def endsInFailure (s : SIPSession) : Bool :=
  match s.messages.getLast? with
  | some (.response p) => 400 ≤ p.statusCode ∧ p.statusCode < 700
  | _ => false

/-- The attempt was rejected before it was established. -/
def rejectedAttempt (s : SIPSession) : Bool :=
  s.endsInFailure && s.neverAnswered

/-- If `s` is FAILED, it was never established. -/
def FailedUnestablished (s : SIPSession) : Prop :=
  s.state = .failed → s.neverAnswered = true ∧ s.establishedTime = 0

instance (s : SIPSession) : Decidable (FailedUnestablished s) :=
  inferInstanceAs (Decidable (_ → _))

/-! ## The time of establishment -/

/-- A session with a time of establishment has been answered. -/
def EstablishedByAnswer (s : SIPSession) : Prop :=
  s.establishedTime ≠ 0 → s.neverAnswered = false

theorem neverAnswered_absorb (s : SIPSession) (m : SIPMessage) :
    (s.absorb m).neverAnswered = (s.neverAnswered && !m.answers) := by
  simp [neverAnswered]

theorem absorb_establishedTime (s : SIPSession) (m : SIPMessage) :
    (s.absorb m).establishedTime = s.establishedTime ∨ m.answers = true := by
  cases m with
  | request q =>
    by_cases hkind : q.kind = .disconnect
    · rw [s.absorb_disconnect hkind]
      exact Or.inl rfl
    · rw [s.absorb_request hkind]
      exact Or.inl rfl
  | response p =>
    rw [SIPResponse.answers_iff, (s.absorb_milestones p).2.2]
    cases hk : p.kind with
    | inviteOK => exact Or.inr rfl
    | ringing =>
      refine Or.inl ?_
      unfold settle
      simp only
      split <;> rfl
    | _ => exact Or.inl rfl

theorem established_absorb {s : SIPSession} (h : EstablishedByAnswer s)
    (m : SIPMessage) : EstablishedByAnswer (s.absorb m) := by
  intro hest
  rw [neverAnswered_absorb]
  rcases absorb_establishedTime s m with heq | hans
  · rw [heq] at hest
    rw [h hest, Bool.false_and]
  · rw [hans, Bool.not_true, Bool.and_false]

/-! ## Closing responses -/

/-- Among the closing responses, the failures are those that end in FAILED. -/
theorem failed_iff (s : SIPSession) {p : SIPResponse}
    (hclose : p.kind.closes = true) :
    (s.absorb (.response p)).state = .failed ↔ p.kind = .failure := by
  rw [(s.absorb_milestones p).1]
  cases hk : p.kind <;> simp_all [settle, ResponseKind.closes]

theorem endsInFailure_absorb (s : SIPSession) (p : SIPResponse) :
    (s.absorb (.response p)).endsInFailure = true ↔ p.kind = .failure := by
  rw [SIPResponse.kind_failure_iff]
  simp [endsInFailure]

/-- A session is closed as FAILED without having been established exactly when
no answer is among its messages. -/
theorem failedUnestablished_iff {s : SIPSession} (h : EstablishedByAnswer s)
    {p : SIPResponse} (hclose : p.kind.closes = true) :
    FailedUnestablished (s.absorb (.response p)) ↔
      (p.kind = .failure → s.neverAnswered = true) := by
  unfold FailedUnestablished
  rw [failed_iff s hclose]
  refine forall_congr' fun hk => ?_
  have hans : (SIPMessage.response p).answers = false := by
    rw [Bool.eq_false_iff, ne_eq, SIPResponse.answers_iff, hk]
    simp
  rw [neverAnswered_absorb, hans, Bool.not_false, Bool.and_true]
  refine ⟨And.left, fun hnever => ⟨hnever, ?_⟩⟩
  rw [(absorb_establishedTime s _).resolve_right (by simp [hans])]
  by_contra hest
  rw [h hest] at hnever
  exact Bool.noConfusion hnever

end SIPSession

/-! ## Runs -/

namespace SIPHandler

/-- The sessions emitted so far. -/
def emitted (σ : SIPHandler) : List SIPSession := σ.sentSessions.map Prod.snd

theorem forall_emitted_iff {σ : SIPHandler} {P : SIPSession → Prop} :
    (∀ s ∈ σ.emitted, P s) ↔ ∀ r s, .session r s ∈ σ.sent → P s := by
  simp only [emitted, List.mem_map, Prod.exists, exists_eq_right,
    mem_sentSessions]
  exact ⟨fun h r s hs => h s ⟨r, hs⟩, fun h s ⟨r, hs⟩ => h r s hs⟩

theorem established_of_live (calls : List Call) (c : String) (r : SessionRef)
    (h : (run calls).getSession c = some r) :
    ((run calls).heap r).EstablishedByAnswer := by
  refine live_induction (fun _ _ s => s.EstablishedByAnswer) ?_ ?_ ?_
    calls c r h
  · intro _ _ q _ _ _ hest
    exact absurd rfl hest
  · intro _ call _ s hs _ _ _ _
    exact SIPSession.established_absorb hs _
  · intro _ _ _ s hs _
    exact hs

/-- The emitted sessions that end in a failure are the FAILED ones. -/
theorem emitted_failed_iff (calls : List Call) :
    ∀ s ∈ (run calls).emitted, s.endsInFailure = true ↔ s.state = .failed := by
  rw [forall_emitted_iff, forall_sent_iff]
  intro pre call post _ p r _ _ hclose
  rw [SIPSession.endsInFailure_absorb, SIPSession.failed_iff _ hclose]

/-- The metric gives the fraction of rejected attempts exactly when no FAILED
session was answered. -/
theorem ineffective_eq_rejected_iff (calls : List Call) :
    getIneffectiveSessionAttempts (run calls).emitted =
        fraction SIPSession.rejectedAttempt (run calls).emitted ↔
      ∀ s ∈ (run calls).emitted, s.state = .failed →
        s.neverAnswered = true := by
  have hfailed := emitted_failed_iff calls
  rw [ineffective_eq_fraction, fraction_eq_iff]
  · refine forall_congr' fun s => forall_congr' fun hs => ?_
    simp only [decide_eq_true_eq, SIPSession.rejectedAttempt,
      Bool.and_eq_true, hfailed s hs]
    exact forall_congr' fun hstate => and_iff_right hstate
  · intro s hs hrej
    simp only [SIPSession.rejectedAttempt, Bool.and_eq_true,
      hfailed s hs] at hrej
    exact decide_eq_true hrej.1

/-- `processResponse` is given a failure for a session that was answered. -/
def FailsAnswered (σ : SIPHandler) (call : Call) : Prop :=
  ∃ p r, call.message = .response p ∧
    (400 ≤ p.statusCode ∧ p.statusCode < 700) ∧
    σ.getSession p.callID = some r ∧ (σ.heap r).neverAnswered = false

/-- FAILED means never established, and the metric is the fraction of rejected
attempts, exactly when no answered session was closed by a failure. -/
theorem failed_unestablished_iff (calls : List Call) :
    ((∀ r s, .session r s ∈ (run calls).sent → s.FailedUnestablished) ∧
      getIneffectiveSessionAttempts (run calls).emitted =
        fraction SIPSession.rejectedAttempt (run calls).emitted) ↔
      machine.Along (fun σ call => ¬ FailsAnswered σ call) calls := by
  have hsessions :
      (∀ r s, .session r s ∈ (run calls).sent → s.FailedUnestablished) ↔
        machine.Along (fun σ call => ¬ FailsAnswered σ call) calls := by
    rw [forall_sent_iff]
    apply machine.along_congr
    intro pre call post _
    refine ⟨?_, ?_⟩
    · intro h hfails
      obtain ⟨p, r, hp, hcode, hs, hanswered⟩ := hfails
      have hkind := SIPResponse.kind_failure_iff.mpr hcode
      have hclose : p.kind.closes = true := by rw [hkind]; rfl
      have hnever := (SIPSession.failedUnestablished_iff
        (established_of_live pre _ r hs) hclose).mp (h p r hp hs hclose) hkind
      exact Bool.noConfusion (hanswered.symm.trans hnever)
    · intro h p r hp hs hclose
      apply (SIPSession.failedUnestablished_iff
        (established_of_live pre _ r hs) hclose).mpr
      intro hkind
      by_contra hanswered
      exact h ⟨p, r, hp, SIPResponse.kind_failure_iff.mp hkind, hs,
        Bool.eq_false_iff.mpr hanswered⟩
  refine ⟨fun h => hsessions.mp h.1, fun h => ?_⟩
  have hall := hsessions.mpr h
  refine ⟨hall, (ineffective_eq_rejected_iff calls).mpr ?_⟩
  rw [forall_emitted_iff]
  intro r s hs hstate
  exact (hall r s hs hstate).1

/-- A BYE that is answered 481: an established call is emitted as FAILED. -/
theorem refused_bye_counts_as_ineffective :
    ¬ ∀ calls, (∀ r s, .session r s ∈ (run calls).sent →
        s.FailedUnestablished) ∧
      getIneffectiveSessionAttempts (run calls).emitted =
        fraction SIPSession.rejectedAttempt (run calls).emitted := by
  intro h
  have hlog : (run [.request "INVITE" "a" 1, .response 200 "INVITE" "a" 2,
      .request "ACK" "a" 3, .request "BYE" "a" 4,
      .response 481 "BYE" "a" 5]).sentSessions.all
        (SIPSession.FailedUnestablished ·.2) = true :=
    all_sentSessions.mpr (h _).1
  exact absurd hlog (by decide)

end SIPHandler

end Sipana
