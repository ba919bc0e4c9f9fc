import Sipana.Server.Averages
import Sipana.Server.Ratios
import Sipana.System.DelayedLedger
import Sipana.System.StoredMetrics

/-!
# When the report is complete

`report_of_stored` says that the metrics of the table are those of some of the
sessions the handler has passed on. They are those of all of them if no session
was discarded, nothing is on its way and there was one delayed sender at a time.
The rows may still be in another order than the hand-overs, and only three of
the figures for a list do not depend on the order.
-/

namespace Sipana

namespace SIPPerformanceMetrics

end SIPPerformanceMetrics

namespace Deployment

open SIPPerformanceMetrics SIPSessionMDB

/-- Nothing is inside `send`, in the buffer or in the queue. -/
def AtRest (σ : Deployment) : Prop :=
  σ.agent.buffer.caller = .idle ∧ σ.agent.buffer.sender.sessions = [] ∧
    σ.queue = []

instance (σ : Deployment) : Decidable σ.AtRest :=
  inferInstanceAs (Decidable (_ ∧ _))

/-- Nothing is waiting in an agent at rest. -/
theorem AtRest.waiting {σ : Deployment} (h : σ.AtRest) : σ.waiting = [] := by
  obtain ⟨hidle, hempty, -⟩ := h
  have hunremoved : σ.agent.buffer.unremoved = [] := by
    unfold DelayedBuffer.unremoved
    split
    · rw [hempty]
      rfl
    · exact hempty
  rw [Deployment.waiting, hunremoved, hidle]
  rfl

end Deployment

end Sipana
