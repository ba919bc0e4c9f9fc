import Sipana.Lib.Loop
import Sipana.Sender.JMSSender

/-!
# Drain passes

One pass of `DelayedSender.run` over the buffer, from the wait to the next test
of the loop guard, with a producer that takes everything. The loop over
`sessions` sends the queue in order and empties it. The loop over `messages`
tests one queue and drains the other: it ends only when there is nothing to do.
-/

namespace Sipana

namespace DelayedSender

variable {S M : Type} [DecidableEq S]

/-- One step of the thread with a producer that takes what it is given. -/
def passStep (c : JMSSender S M × DelayedSender S) :
    JMSSender S M × DelayedSender S :=
  step .returns c.1 c.2

def AtLoopGuard (c : JMSSender S M × DelayedSender S) : Prop :=
  c.2.pc = .loopGuard

/-- A pass from the wait on comes back to the loop guard, both queues are empty
then, and `sendNow` was given the sessions and then the messages, in order. -/
def DrainsCompletely (σ : JMSSender S M) : Prop :=
  Loop.Reaches passStep AtLoopGuard (σ, ⟨true, .waiting⟩)
    ({ σ with
        sessions := []
        messages := []
        sent := σ.sent ++ σ.sessions.map (some ∘ .session) ++
          σ.messages.map (some ∘ .message) }, ⟨true, .loopGuard⟩)

/-! ## The loop over the sessions -/

/-- One iteration sends the head of the queue and removes it. -/
theorem sessions_iteration {σ : JMSSender S M} (h : σ.HasProducer) {session : S}
    {rest : List S} (hσ : σ.sessions = session :: rest) :
    Loop.Reaches passStep AtLoopGuard (σ, ⟨true, .sessionsSize⟩)
      ({ σ with
          sessions := rest
          sent := σ.sent ++ [some (.session session)] },
        ⟨true, .sessionsSize⟩) := by
  refine .next (b := (σ, ⟨true, .sessionsRunning⟩)) nofun
    (by simp [passStep, step, goto, hσ]) ?_
  refine .next (b := (σ, ⟨true, .sessionsPeek⟩)) nofun
    (by simp [passStep, step, goto, isRunning]) ?_
  refine .next (b := (σ, ⟨true, .sessionsSend (some session)⟩)) nofun
    (by simp [passStep, step, goto, hσ]) ?_
  refine .next (b := ({ σ with sent := σ.sent ++ [some (.session session)] },
      ⟨true, .sessionsRemove (some session)⟩)) nofun
    (by simp [passStep, step, goto, σ.sendNow_returns h]) ?_
  exact .next nofun (by simp [passStep, step, goto, remove, hσ]) (.refl _)

/-- The first loop sends all sessions in order. -/
theorem sessions_drained {σ : JMSSender S M} (h : σ.HasProducer) :
    Loop.Reaches passStep AtLoopGuard (σ, ⟨true, .sessionsSize⟩)
      ({ σ with
          sessions := []
          sent := σ.sent ++ σ.sessions.map (some ∘ .session) },
        ⟨true, .messagesSize⟩) := by
  generalize hσ : σ.sessions = queue
  induction queue generalizing σ with
  | nil =>
    have hsame : { σ with sessions := [] } = σ := by rw [← hσ]
    rw [List.map_nil, List.append_nil, hsame]
    exact .next nofun (by simp [passStep, step, goto, hσ]) (.refl _)
  | cons session rest ih =>
    have hnext := ih (σ := { σ with
      sessions := rest
      sent := σ.sent ++ [some (.session session)] }) h rfl
    apply (sessions_iteration h hσ).trans
    simpa using hnext

theorem drains_of_no_messages {σ : JMSSender S M} (h : σ.HasProducer)
    (hσ : σ.messages = []) : DrainsCompletely σ := by
  unfold DrainsCompletely
  refine .next (b := (σ, ⟨true, .checkRunning⟩)) nofun rfl ?_
  refine .next (b := (σ, ⟨true, .sessionsSize⟩)) nofun rfl ?_
  refine (sessions_drained h).trans (.next nofun ?_ (.refl _))
  simp [passStep, step, goto, hσ]

/-! ## The loop over the messages -/

/-- A running thread inside a pass, with messages in the buffer. -/
structure Stuck (c : JMSSender S M × DelayedSender S) : Prop where
  hasProducer : c.1.HasProducer
  messages : c.1.messages ≠ []
  running : c.2.running = true
  inside : c.2.pc ≠ .ready ∧ c.2.pc ≠ .loopGuard ∧ c.2.pc ≠ .stopped

/-- Neither loop takes anything out of `messages`. -/
theorem stuck_step {c : JMSSender S M × DelayedSender S} (h : Stuck c) :
    Stuck (passStep c) := by
  obtain ⟨σ, running, pc⟩ := c
  obtain ⟨hproducer, hmessages, hrunning, hready, hguard, hstopped⟩ := h
  simp only at hproducer hmessages hrunning hready hguard hstopped
  subst hrunning
  have hlength := List.length_pos_iff.mpr hmessages
  unfold passStep step
  cases pc with
  | ready => exact absurd rfl hready
  | loopGuard => exact absurd rfl hguard
  | stopped => exact absurd rfl hstopped
  | sessionsSend session | messagesSend session =>
    simp only [σ.sendNow_returns hproducer]
    exact ⟨hproducer, hmessages, rfl, by simp [goto]⟩
  | sessionsRemove session | messagesRemove session =>
    cases session <;> exact ⟨hproducer, hmessages, rfl, by simp [goto]⟩
  | sessionsSize =>
    refine ⟨hproducer, hmessages, rfl, ?_⟩
    simp only [goto]
    split <;> simp
  | _ => exact ⟨hproducer, hmessages, rfl, by simp [goto, isRunning, hlength]⟩

theorem not_drains_of_messages {σ : JMSSender S M} (h : σ.HasProducer)
    (hσ : σ.messages ≠ []) : ¬ DrainsCompletely σ :=
  Loop.not_reaches (I := Stuck) (fun _ => stuck_step)
    (fun _ hc => hc.inside.2.1) ⟨h, hσ, rfl, by simp⟩ rfl

/-- A pass drains the buffer exactly when it holds no standalone message. -/
theorem drains_completely_iff (σ : JMSSender S M) (h : σ.HasProducer) :
    DrainsCompletely σ ↔ σ.messages = [] := by
  refine ⟨?_, ?_⟩
  · intro hdrains
    by_contra hσ
    exact not_drains_of_messages h hσ hdrains
  · exact drains_of_no_messages h

/-- Two buffered sessions. -/
theorem drains_two_sessions :
    DrainsCompletely (S := Nat) (M := Nat)
      { isDelayed := true, bufferSize := 10, state := .running,
        session := some 0, producer := some 0, sessions := [1, 2] } :=
  (drains_completely_iff _ ⟨by decide, by decide⟩).mpr rfl

/-- A message that was sent during an outage is still in the buffer when the
sender runs again, and the pass goes round without end. -/
theorem message_of_outage_blocks :
    ¬ ∀ σ : JMSSender Nat Nat, σ.HasProducer → DrainsCompletely σ := by
  intro h
  let outage : JMSSender Nat Nat :=
    { isDelayed := true, bufferSize := 10, state := .failed,
      session := some 0, producer := some 0 }
  let restarted := { (outage.sendMessage .returns 7).1 with state := .running }
  have hproducer : restarted.HasProducer := ⟨by decide, by decide⟩
  exact not_drains_of_messages hproducer (by decide) (h restarted hproducer)

/-! ## Buffers that are filled while the sender runs -/

/-- A sender that runs and has nothing but sessions in its buffer. -/
structure Healthy (σ : JMSSender S M) : Prop where
  running : σ.state = .running
  hasProducer : σ.HasProducer
  messages : σ.messages = []

omit [DecidableEq S] in
/-- While the sender runs a standalone message is not buffered. -/
theorem healthy_send {σ : JMSSender S M} (h : Healthy σ)
    (call : JMSResult × Serializable S M) : Healthy (σ.send call) := by
  obtain ⟨result, object⟩ := call
  obtain ⟨hrunning, hproducer, hmessages⟩ := h
  have hnow : ∀ x, Healthy (σ.sendNow result x).1 := by
    intro x
    cases result with
    | returns =>
      rw [σ.sendNow_returns hproducer]
      exact ⟨hrunning, hproducer, hmessages⟩
    | throws =>
      unfold JMSSender.sendNow
      split <;> exact ⟨hrunning, hproducer, hmessages⟩
  cases object with
  | session session =>
    unfold JMSSender.send JMSSender.sendSession
    simp only
    split
    · split <;> exact ⟨hrunning, hproducer, hmessages⟩
    · split
      · exact hnow _
      · exact ⟨hrunning, hproducer, hmessages⟩
  | message message =>
    have hrun : σ.isRunning = true := by simp [JMSSender.isRunning, hrunning]
    unfold JMSSender.send JMSSender.sendMessage
    simp only [hrun, if_true]
    exact hnow _

/-- Whatever is sent to a sender that keeps running, the next pass drains it. -/
theorem drains_after_sends {σ : JMSSender S M} (h : Healthy σ)
    (calls : List (JMSResult × Serializable S M)) :
    DrainsCompletely (σ.machine.run calls) := by
  have hhealthy : Healthy (σ.machine.run calls) :=
    σ.machine.run_invariant h (fun _ call hσ => healthy_send hσ call) calls
  exact drains_of_no_messages hhealthy.hasProducer hhealthy.messages

end DelayedSender

end Sipana
