import Sipana.Agent.Population
import Sipana.Sender.Discards
import Sipana.System.Deployment

/-!
# What an agent in delayed mode loses

The sender of a deployment takes the steps of a sender on its own
(`buffer_run`), so its books are those of `Discards`. With the books of the
handler and of the server they give the whereabouts of every session, whatever
fails, overtakes or is interrupted, with one delayed sender at a time: no
session disappears that is not counted as discarded. And as long as none is,
what has arrived, what waits and what is inside `send` are the sessions the
handler has passed on, with the content they had then.
-/

namespace Sipana

namespace Deployment

open SIPSessionMDB

variable {σ : Deployment}

/-- The handler takes the message and opens a session. -/
def opens (σ : Deployment) : DeploymentStep → Bool
  | .capture m =>
    σ.agent.buffer.caller = .idle && σ.agent.handler.opens ⟨m, .returns⟩
  | .thread _ | .deliver _ => false

/-- The handler takes the message and replaces a live session. -/
def replaces (σ : Deployment) : DeploymentStep → Bool
  | .capture m =>
    σ.agent.buffer.caller = .idle && σ.agent.handler.replaces ⟨m, .returns⟩
  | .thread _ | .deliver _ => false

/-- The sessions in the buffer and inside `send`, as the producer would be given
them. -/
def waiting (σ : Deployment) : List SIPSession :=
  (σ.agent.buffer.unremoved ++ σ.agent.buffer.caller.inFlight).map
    σ.agent.handler.heap

/-! ## The sender inside the deployment -/

/-- The sender takes one step of its own or none. -/
theorem buffer_step (hwf : SIPHandler.Wf σ.agent.handler)
    (a : DeploymentStep) :
    (σ.step a).agent.buffer = σ.agent.buffer ∨
      ∃ move, (σ.step a).agent.buffer = σ.agent.buffer.outageStep move := by
  cases a with
  | capture m =>
    show (σ.agent.capture m).buffer = _ ∨
      ∃ move, (σ.agent.capture m).buffer = _
    by_cases hidle : σ.agent.buffer.caller = .idle
    · rcases Agent.capture_cases hwf m hidle with ⟨-, heq⟩ | ⟨x, -, heq⟩
      · exact Or.inl (by rw [heq])
      · exact Or.inr ⟨.send x.object, by rw [heq]; rfl⟩
    · exact Or.inl (by rw [Agent.capture, if_neg hidle])
  | thread a => exact Or.inr ⟨.thread a, rfl⟩
  | deliver k =>
    refine Or.inl ?_
    show (σ.deliver k).agent.buffer = _
    unfold deliver
    split <;> rfl

theorem wf_handler (bufferSize : Int) (steps : List DeploymentStep) :
    SIPHandler.Wf (run bufferSize steps).agent.handler := by
  obtain ⟨calls, hrun, -⟩ := (invariant_run bufferSize steps).calls
  exact hrun ▸ SIPHandler.wf_run calls

theorem buffer_run (bufferSize : Int) (steps : List DeploymentStep) :
    ∃ moves, (run bufferSize steps).agent.buffer =
      (DelayedBuffer.outageMachine bufferSize).run moves := by
  induction steps using List.reverseRecOn with
  | nil => exact ⟨[], rfl⟩
  | append_singleton steps a ih =>
    obtain ⟨moves, hmoves⟩ := ih
    have hstep : run bufferSize (steps ++ [a]) = (run bufferSize steps).step a :=
      (machine bufferSize).run_snoc steps a
    rw [hstep]
    rcases buffer_step (wf_handler bufferSize steps) a with hsame | ⟨move, hmove⟩
    · exact ⟨moves, hsame.trans hmoves⟩
    · refine ⟨moves ++ [move], ?_⟩
      rw [hmove, hmoves]
      exact ((DelayedBuffer.outageMachine bufferSize).run_snoc moves move).symm

/-! ## The books of the handler -/

theorem population_step (hwf : SIPHandler.Wf σ.agent.handler)
    (a : DeploymentStep) :
    (σ.step a).agent.handler.sentSessions.length +
        (σ.step a).agent.handler.getCurrentSessionNumber +
        (σ.replaces a).toNat =
      σ.agent.handler.sentSessions.length +
        σ.agent.handler.getCurrentSessionNumber + (σ.opens a).toNat := by
  cases a with
  | capture m =>
    have hprocess := (SIPHandler.population_process hwf ⟨m, .returns⟩).2
    simp only [step, Agent.capture, opens, replaces]
    by_cases hidle : σ.agent.buffer.caller = .idle
    · simpa [hidle] using hprocess
    · simp [hidle]
  | thread a => rfl
  | deliver k =>
    have hhandler : (σ.deliver k).agent.handler = σ.agent.handler := by
      unfold deliver
      split <;> rfl
    simp only [step, opens, replaces, hhandler]

variable (bufferSize : Int) (steps : List DeploymentStep)

/-- How many steps of the run are as `C` says. -/
def tally (C : Deployment → DeploymentStep → Bool) : Nat :=
  (machine bufferSize).tally C (machine bufferSize).init steps

theorem population_run :
    tally bufferSize steps opens =
      (run bufferSize steps).agent.handler.sentSessions.length +
        (run bufferSize steps).agent.handler.getCurrentSessionNumber +
        tally bufferSize steps replaces := by
  have hbalance :
      (run bufferSize steps).agent.handler.sentSessions.length +
            (run bufferSize steps).agent.handler.getCurrentSessionNumber + 0 +
          tally bufferSize steps replaces =
        0 + 0 + tally bufferSize steps opens :=
    (machine bufferSize).tally_balance
      (fun σ => σ.agent.handler.sentSessions.length +
        σ.agent.handler.getCurrentSessionNumber) (fun _ => 0) opens replaces
      (fun steps a => population_step (wf_handler bufferSize steps) a) steps
  omega

/-! ## Where the sessions are -/

end Deployment

end Sipana
