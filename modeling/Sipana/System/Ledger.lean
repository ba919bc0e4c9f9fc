import Sipana.Agent.Population
import Sipana.System.ImmediateDeployment

/-!
# What an agent in immediate mode loses

Nobody counts what an immediate sender drops, but it does so in two places only:
the sender does not run when `send` tests it, or `sendNow` throws. With these two
the books balance:

* `whole_iff_none_lost` — the bean has been given what the handler passed on, in
  its order, exactly when neither has happened;
* `sessions_balance` — every session the handler has created is a row of the
  server, in the queue, inside `send`, lost by the sender, live or replaced.
-/

namespace Sipana

/-- The object is a session. -/
def Serializable.isSession {S M : Type} : Serializable S M → Bool
  | .session _ => true
  | .message _ => false

namespace ImmediateSender

variable {S M : Type} {σ : ImmediateSender S M}

/-- The step drops the argument of `send`, and the argument meets `P`. -/
def loses (P : Serializable S M → Bool) (σ : ImmediateSender S M) :
    ImmediateStep S M → Bool
  | .caller result =>
    match σ.caller with
    | .idle => false
    | .testRunning object => !σ.system.sender.isRunning && P object
    | .sendNow object =>
      !(σ.system.sender.session.isSome && σ.system.sender.producer.isSome &&
        result = .returns) && P object
  | .send _ | .system _ => false

/-- The objects that meet `P` which the producer has taken or `send` holds. -/
def balance (P : Serializable S M → Bool) (σ : ImmediateSender S M) : Nat :=
  σ.log.countP (·.any P) + σ.inFlight.countP P

theorem balance_enter (P : Serializable S M → Bool) (h : σ.caller = .idle)
    (x : Serializable S M) :
    (σ.enter x).balance P = σ.balance P + (P x).toNat := by
  unfold balance enter inFlight log
  rw [h]
  cases hx : P x <;> simp [hx]

theorem balance_caller (P : Serializable S M → Bool)
    (σ : ImmediateSender S M) (result : JMSResult) :
    (σ.callerStep result).balance P + (σ.loses P (.caller result)).toNat =
      σ.balance P := by
  unfold balance callerStep loses inFlight log
  cases hpc : σ.caller with
  | idle => simp [hpc]
  | testRunning x =>
    by_cases hrun : σ.system.sender.isRunning = true
    · simp [hrun]
    · cases hx : P x <;> simp [hrun, hx]
  | sendNow x =>
    simp only [SenderSystem.assign, JMSSender.sendNow]
    cases σ.system.sender.session with
    | none => cases hx : P x <;> simp [hx]
    | some session =>
      cases σ.system.sender.producer with
      | none => cases hx : P x <;> simp [hx]
      | some producer => cases result <;> cases hx : P x <;> simp [hx]

/-- Nobody else takes or gives the producer anything. -/
theorem balance_system [DecidableEq S] (P : Serializable S M → Bool)
    (h : σ.system.Immediate) (a : SenderSystem.Action) :
    (σ.step (.system a)).balance P = σ.balance P := by
  have hsent := (SenderSystem.step_keeps h a).apart.sent
  show (σ.system.step a).sender.sent.countP _ + _ = _
  rw [hsent]
  rfl

end ImmediateSender

namespace ImmediateDeployment

open SIPSessionMDB

variable {σ : ImmediateDeployment}

/-- The sender drops an object that meets `P`. -/
def loses (P : Serializable SessionRef SIPMessage → Bool)
    (σ : ImmediateDeployment) : ImmediateDeploymentStep → Bool
  | .caller result => σ.sender.loses P (.caller result)
  | .capture _ | .system _ | .deliver => false

/-- The handler takes the message and opens a session. -/
def opens (σ : ImmediateDeployment) : ImmediateDeploymentStep → Bool
  | .capture m => σ.sender.caller = .idle && σ.handler.opens ⟨m, .returns⟩
  | .caller _ | .system _ | .deliver => false

/-- The handler takes the message and replaces a live session. -/
def replaces (σ : ImmediateDeployment) : ImmediateDeploymentStep → Bool
  | .capture m => σ.sender.caller = .idle && σ.handler.replaces ⟨m, .returns⟩
  | .caller _ | .system _ | .deliver => false

/-- What `send` holds, as the producer would be given it. -/
def inHand (σ : ImmediateDeployment) : List JMSMessage :=
  σ.sender.inFlight.map fun x => σ.handler.jms (some x)

/-! ## One step -/

/-- What one step does to the books of the sender. -/
theorem passed_step {captured : List SIPMessage} (h : Invariant captured σ)
    (P : Serializable SessionRef SIPMessage → Bool)
    (a : ImmediateDeploymentStep) :
    ∃ more, (σ.step a).handler.sent = σ.handler.sent ++ more ∧
      (σ.step a).sender.balance P + (σ.loses P a).toNat =
        σ.sender.balance P + (more.map Sent.object).countP P := by
  cases a with
  | capture m =>
    obtain ⟨calls, hrun, -⟩ := h.calls
    have hwf : SIPHandler.Wf σ.handler := hrun ▸ SIPHandler.wf_run calls
    have hsent := SIPHandler.process_sent hwf ⟨m, .returns⟩
    show ∃ more, (σ.capture m).handler.sent = _ ∧
      (σ.capture m).sender.balance P + 0 = _
    unfold capture
    split
    · next hidle =>
      refine ⟨_, hsent, ?_⟩
      simp only [hsent, List.drop_left]
      rcases Agent.handOver_cases σ.handler m with hnone | ⟨x, hone⟩
      · rw [hnone]
        rfl
      · rw [hone, List.foldl_cons, List.foldl_nil,
          ImmediateSender.balance_enter P hidle]
        cases hx : P x.object <;> simp [hx]
    · exact ⟨[], (List.append_nil _).symm, rfl⟩
  | caller result =>
    exact ⟨[], (List.append_nil _).symm,
      ImmediateSender.balance_caller P σ.sender result⟩
  | system a =>
    exact ⟨[], (List.append_nil _).symm,
      ImmediateSender.balance_system P h.sender.immediate a⟩
  | deliver =>
    refine ⟨[], ?_, ?_⟩
    · show σ.deliver.handler.sent = _
      unfold deliver
      split <;> exact (List.append_nil _).symm
    · show σ.deliver.sender.balance P + 0 = _
      unfold deliver
      split <;> rfl

/-- What one step does to the books of the handler. -/
theorem population_step {captured : List SIPMessage}
    (h : Invariant captured σ) (a : ImmediateDeploymentStep) :
    (σ.step a).handler.sentSessions.length +
        (σ.step a).handler.getCurrentSessionNumber + (σ.replaces a).toNat =
      σ.handler.sentSessions.length + σ.handler.getCurrentSessionNumber +
        (σ.opens a).toNat := by
  cases a with
  | capture m =>
    obtain ⟨calls, hrun, -⟩ := h.calls
    have hwf : SIPHandler.Wf σ.handler := hrun ▸ SIPHandler.wf_run calls
    have hprocess := (SIPHandler.population_process hwf ⟨m, .returns⟩).2
    simp only [step, capture, opens, replaces]
    by_cases hidle : σ.sender.caller = .idle
    · simpa [hidle] using hprocess
    · simp [hidle]
  | caller result => rfl
  | system a => rfl
  | deliver =>
    have hhandler : σ.deliver.handler = σ.handler := by
      unfold deliver
      split <;> rfl
    simp only [step, opens, replaces, hhandler]

/-! ## Every run -/

variable (bufferSize : Int) (steps : List ImmediateDeploymentStep)

/-- How many steps of the run are as `C` says. -/
def tally (C : ImmediateDeployment → ImmediateDeploymentStep → Bool) : Nat :=
  (machine bufferSize).tally C (machine bufferSize).init steps

/-- What the handler has passed on was taken, is inside `send` or was lost. -/
theorem countP_passed (P : Serializable SessionRef SIPMessage → Bool) :
    ((run bufferSize steps).handler.sent.map Sent.object).countP P =
      (run bufferSize steps).sender.balance P +
        tally bufferSize steps (loses P) := by
  have hstep (steps : List ImmediateDeploymentStep)
      (a : ImmediateDeploymentStep) :
      (((run bufferSize steps).step a).handler.sent.map Sent.object).countP P +
            (run bufferSize steps).sender.balance P + 0 =
        ((run bufferSize steps).handler.sent.map Sent.object).countP P +
            ((run bufferSize steps).step a).sender.balance P +
          ((run bufferSize steps).loses P a).toNat := by
    obtain ⟨more, hsent, hbalance⟩ :=
      passed_step (invariant_run bufferSize steps) P a
    rw [hsent, List.map_append, List.countP_append]
    omega
  have hbalance :
      ((run bufferSize steps).handler.sent.map Sent.object).countP P + 0 +
          (machine bufferSize).tally (fun _ _ => false)
            (machine bufferSize).init steps =
        0 + (run bufferSize steps).sender.balance P +
          tally bufferSize steps (loses P) :=
    (machine bufferSize).tally_balance
      (fun σ => (σ.handler.sent.map Sent.object).countP P)
      (fun σ => σ.sender.balance P) (loses P) (fun _ _ => false)
      hstep steps
  rw [Machine.tally_false] at hbalance
  omega

theorem population_run :
    tally bufferSize steps opens =
      (run bufferSize steps).handler.sentSessions.length +
        (run bufferSize steps).handler.getCurrentSessionNumber +
        tally bufferSize steps replaces := by
  have hbalance :
      (run bufferSize steps).handler.sentSessions.length +
            (run bufferSize steps).handler.getCurrentSessionNumber + 0 +
          tally bufferSize steps replaces =
        0 + 0 + tally bufferSize steps opens :=
    (machine bufferSize).tally_balance
      (fun σ => σ.handler.sentSessions.length +
        σ.handler.getCurrentSessionNumber) (fun _ => 0) opens replaces
      (fun steps a => population_step (invariant_run bufferSize steps) a) steps
  omega

/-! ## What is lost -/

/-- The sessions among what the producer was given. -/
theorem countP_isSession (σ : SIPHandler)
    (xs : List (Option (Serializable SessionRef SIPMessage))) :
    xs.countP (·.any Serializable.isSession) =
      ((xs.map σ.jms).filterMap session?).length := by
  induction xs with
  | nil => rfl
  | cons x xs ih =>
    rw [List.countP_cons, ih, List.map_cons, List.filterMap_cons]
    cases x with
    | none => rfl
    | some x => cases x <;> rfl

theorem length_sentSessions (σ : SIPHandler) :
    σ.sentSessions.length =
      (σ.sent.map Sent.object).countP Serializable.isSession := by
  unfold SIPHandler.sentSessions
  induction σ.sent with
  | nil => rfl
  | cons x xs ih =>
    rw [List.map_cons, List.countP_cons, ← ih]
    cases x <;> rfl

/-- The sender is never given `null`. -/
theorem Invariant.balance_all {captured : List SIPMessage}
    (h : Invariant captured σ) :
    σ.sender.balance (fun _ => true) =
      σ.sender.log.length + σ.sender.inFlight.length := by
  have hlog : σ.sender.log.countP (·.any fun _ => true) =
      σ.sender.log.length := by
    rw [List.countP_eq_length]
    intro x hx
    obtain ⟨y, -, rfl⟩ := List.mem_map.mp (h.log_sublist.subset hx)
    rfl
  rw [ImmediateSender.balance, hlog, List.countP_true]

/-- The producer and `send` have what the handler passed on, in its order. -/
theorem Invariant.sublist_passed {captured : List SIPMessage}
    {taken : List JMSMessage} (h : Invariant captured σ)
    (hqueue : taken ++ σ.queue = σ.sender.log.map σ.handler.jms) :
    (taken ++ σ.queue ++ σ.inHand).Sublist (σ.handler.sent.map Sent.jms) := by
  obtain ⟨calls, hrun, -⟩ := h.calls
  have horder := h.sender.inOrder.map σ.handler.jms
  rw [List.map_append, List.map_map, List.map_map, List.map_map,
    ← hqueue] at horder
  have hpassed := SIPHandler.map_jms_passed calls
  rw [← hrun, SIPHandler.passed, List.map_map] at hpassed
  rw [← hpassed]
  exact horder

theorem Invariant.unsaved_taken {captured : List SIPMessage}
    {taken : List JMSMessage} (h : Invariant captured σ)
    (hqueue : taken ++ σ.queue = σ.sender.log.map σ.handler.jms) :
    ∀ a ∈ taken, Unsaved a := by
  intro a ha
  obtain ⟨calls, hrun, -⟩ := h.calls
  have hmem : a ∈ σ.handler.sent.map Sent.jms :=
    (h.sublist_passed hqueue).subset
      (List.mem_append_left _ (List.mem_append_left _ ha))
  rw [hrun] at hmem
  exact SIPHandler.unsaved_jms (List.Subset.refl _) a hmem

variable {taken : List JMSMessage}

theorem length_taken
    (hqueue : taken ++ (run bufferSize steps).queue =
      (run bufferSize steps).sender.log.map
        (run bufferSize steps).handler.jms) :
    (taken ++ (run bufferSize steps).queue ++
        (run bufferSize steps).inHand).length +
      tally bufferSize steps (loses fun _ => true) =
        (run bufferSize steps).handler.sent.length := by
  have hcount := countP_passed bufferSize steps fun _ => true
  rw [(invariant_run bufferSize steps).balance_all, List.countP_true,
    List.length_map] at hcount
  rw [List.length_append, hqueue, List.length_map, inHand, List.length_map]
  exact hcount.symm

theorem taken_iff_none_lost
    (hqueue : taken ++ (run bufferSize steps).queue =
      (run bufferSize steps).sender.log.map
        (run bufferSize steps).handler.jms) :
    taken ++ (run bufferSize steps).queue ++ (run bufferSize steps).inHand =
        (run bufferSize steps).handler.sent.map Sent.jms ↔
      (machine bufferSize).Along
        (fun σ a => σ.loses (fun _ => true) a = false) steps := by
  have hsome := (invariant_run bufferSize steps).sublist_passed hqueue
  have hlength := length_taken bufferSize steps hqueue
  rw [← Machine.tally_eq_zero_iff]
  show _ ↔ tally bufferSize steps (loses fun _ => true) = 0
  constructor
  · intro hwhole
    have hsame := congrArg List.length hwhole
    rw [List.length_map] at hsame
    omega
  · intro hnone
    refine hsome.eq_of_length ?_
    rw [List.length_map]
    omega

/-- The bean has been given some of what the handler passed on, in its order and
with nothing else in between; what is missing is in the queue, inside `send` or
was dropped by the sender. So all of it is there exactly when no step of the run
has dropped anything. -/
theorem whole_iff_none_lost (bufferSize : Int)
    (steps : List ImmediateDeploymentStep) :
    let σ := run bufferSize steps
    ∃ taken, σ.server = SIPSessionMDB.run taken ∧
      taken ++ σ.queue = σ.sender.log.map σ.handler.jms ∧
      (taken ++ σ.queue ++ σ.inHand).Sublist (σ.handler.sent.map Sent.jms) ∧
      (taken ++ σ.queue ++ σ.inHand).length +
        tally bufferSize steps (loses fun _ => true) =
          σ.handler.sent.length ∧
      (taken ++ σ.queue ++ σ.inHand = σ.handler.sent.map Sent.jms ↔
        (machine bufferSize).Along
          (fun σ a => σ.loses (fun _ => true) a = false) steps) := by
  have h := invariant_run bufferSize steps
  obtain ⟨taken, hserver, hqueue⟩ := h.queue
  exact ⟨taken, hserver, hqueue, h.sublist_passed hqueue,
    length_taken bufferSize steps hqueue,
    taken_iff_none_lost bufferSize steps hqueue⟩

/-- Where the sessions are: every session the handler has created is a row of
the server, in the queue, inside `send`, was dropped by the sender, is live or
was replaced by the next one of its call. -/
theorem sessions_balance (bufferSize : Int)
    (steps : List ImmediateDeploymentStep) :
    let σ := run bufferSize steps
    tally bufferSize steps opens =
      σ.server.rows.length + (σ.queue.filterMap session?).length +
        (σ.inHand.filterMap session?).length +
        tally bufferSize steps (loses Serializable.isSession) +
        σ.handler.getCurrentSessionNumber +
        tally bufferSize steps replaces := by
  have h := invariant_run bufferSize steps
  have hcount := countP_passed bufferSize steps Serializable.isSession
  have hpopulation := population_run bufferSize steps
  rw [length_sentSessions, hcount] at hpopulation
  generalize run bufferSize steps = σ at h hpopulation ⊢
  obtain ⟨taken, hserver, hqueue⟩ := h.queue
  have hunsaved := h.unsaved_taken hqueue
  have hrows : σ.server.rows.length = (taken.filterMap session?).length := by
    rw [hserver, length_rows_run hunsaved]
  have hlog : σ.sender.log.countP (·.any Serializable.isSession) =
      (taken.filterMap session?).length +
        (σ.queue.filterMap session?).length := by
    rw [countP_isSession σ.handler, ← hqueue, List.filterMap_append,
      List.length_append]
  have hhand : σ.sender.inFlight.countP Serializable.isSession =
      (σ.inHand.filterMap session?).length := by
    have hsome := countP_isSession σ.handler (σ.sender.inFlight.map some)
    rw [List.countP_map, List.map_map] at hsome
    exact hsome
  rw [ImmediateSender.balance, hlog, hhand, ← hrows] at hpopulation
  show tally bufferSize steps opens = _
  omega

end ImmediateDeployment

end Sipana
