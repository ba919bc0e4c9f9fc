import Sipana.Agent.Timing
import Sipana.Server.SIPPerformanceMetrics

/-!
# The delays of the emitted sessions

The agent and the metrics joined: which sessions of a timed run have delays
that lie between 0 and the length of the session. A session is emitted by
whatever closes it, and what closes it decides which milestones are set.
-/

namespace Sipana

open SIPPerformanceMetrics

/-- The response `p` closes a session that has, or is given, every milestone
the delays are computed from. -/
def Measurable (s : SIPSession) (p : SIPResponse) : Prop :=
  s.disconnectionStart ≠ 0 ∧ (s.setupTime ≠ 0 ∨ p.SetsUp) ∧
    (s.establishedTime ≠ 0 ∨ s.disconnectionStart ≤ p.time - s.startTime)

instance (s : SIPSession) (p : SIPResponse) : Decidable (Measurable s p) :=
  inferInstanceAs (Decidable (_ ∧ _))

namespace SIPSession

/-- A closing response writes the end time, and the setup time in two cases. -/
theorem settle_closes (s : SIPSession) {k : ResponseKind}
    (hk : k.closes = true) (t : Int) :
    ((s.settle k t).startTime = s.startTime ∧
      (s.settle k t).endTime = t ∧
      (s.settle k t).disconnectionStart = s.disconnectionStart ∧
      (s.settle k t).establishedTime = s.establishedTime) ∧
    ((s.settle k t).setupTime =
      if k = .otherOK ∨ k = .failure then t else s.setupTime) := by
  cases k <;> simp_all [settle, ResponseKind.closes]

end SIPSession

theorem Ordered.delays_settle {t : Int} {s : SIPSession} (h : Ordered t s)
    (ht : 0 < t) {k : ResponseKind} (hk : k.closes = true) :
    DelaysInRange (s.settle k t) ↔
      s.disconnectionStart ≠ 0 ∧
        (s.setupTime ≠ 0 ∨ k = .otherOK ∨ k = .failure) ∧
        (s.establishedTime ≠ 0 ∨ s.disconnectionStart ≤ t - s.startTime) := by
  obtain ⟨⟨hstart, hend, hdisc, hest⟩, hsetup⟩ := s.settle_closes hk t
  obtain ⟨hstart', hfirst', hsetup', hest', hdisc', -, -⟩ := h
  have hset : (s.settle k t).setupTime = t ∨
      (s.settle k t).setupTime = s.setupTime := by
    rw [hsetup]
    exact ite_eq_or_eq _ _ _
  have hsets : (s.settle k t).setupTime ≠ 0 ↔
      s.setupTime ≠ 0 ∨ k = .otherOK ∨ k = .failure := by
    rw [hsetup]
    by_cases hkind : k = .otherOK ∨ k = .failure
    · simp [hkind, Int.ne_of_gt ht]
    · simp [hkind]
  rw [delays_in_range_iff (by omega) (by omega) (by omega) (by omega)
    (by omega), hdisc, hest, hend, hstart, hsets]

theorem Ordered.delays_absorb {s : SIPSession} {p : SIPResponse}
    (h : Ordered p.time s) (ht : 0 < p.time) (hclose : p.kind.closes = true) :
    DelaysInRange (s.absorb (.response p)) ↔ Measurable s p := by
  obtain ⟨hnote, -⟩ := (h.addMessage (.response p)).noteResponse ht
  rw [s.absorb_response, hnote.delays_settle ht hclose, SIPResponse.kind_setsUp]
  unfold SIPSession.noteResponse Measurable
  split <;> rfl

namespace SIPHandler

/-- All delays of the sessions a timed run emits are in range exactly when
every response that closed one found the milestones it needs. -/
theorem delays_in_range_iff_measurable (calls : List Call) (h : Timed calls) :
    (∀ r s, .session r s ∈ (run calls).sent → DelaysInRange s) ↔
      machine.Along (fun σ call => ∀ p r, call.message = .response p →
        σ.getSession p.callID = some r → p.kind.closes = true →
        Measurable (σ.heap r) p) calls := by
  apply forall_sent_timed_iff h
  intro s p hord hpos hclose
  exact hord.delays_absorb hpos hclose

/-- A call that rings, is answered and is hung up. -/
theorem delays_in_range_hung_up :
    machine.Along (fun σ call => ∀ p r, call.message = .response p →
        σ.getSession p.callID = some r → p.kind.closes = true →
        Measurable (σ.heap r) p)
      [.request "INVITE" "a" 1, .response 180 "INVITE" "a" 2,
        .response 200 "INVITE" "a" 3, .request "BYE" "a" 4,
        .response 200 "BYE" "a" 5] := by
  apply (delays_in_range_iff_measurable _ (by decide)).mp
  have hall : (run [.request "INVITE" "a" 1, .response 180 "INVITE" "a" 2,
      .response 200 "INVITE" "a" 3, .request "BYE" "a" 4,
      .response 200 "BYE" "a" 5]).sentSessions.all
        (DelaysInRange ·.2) = true := by decide
  exact all_sentSessions.mp hall

/-- A REGISTER that is answered has no disconnection, and its disconnect delay
is the end time itself. -/
theorem register_delays_out_of_range :
    ¬ ∀ calls, Timed calls →
      ∀ r s, .session r s ∈ (run calls).sent → DelaysInRange s := by
  intro h
  have hlog : (run [.request "REGISTER" "a" 1,
      .response 200 "REGISTER" "a" 2]).sentSessions.all
        (DelaysInRange ·.2) = true :=
    all_sentSessions.mpr (h _ (by decide))
  exact absurd hlog (by decide)

end SIPHandler

end Sipana
