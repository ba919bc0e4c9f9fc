import Sipana.Agent.Accountability
import Sipana.Sender.Accounting

/-!
# The order of delivery

The handler passes a session to the sender when its call has ended, and every
later response of the call as a standalone message. The sender keeps the
session in its buffer until the next pass of the delayed sender, but a
standalone message it sends at once. So the message overtakes the sessions that
wait in the buffer, the one of its own call among them.
-/

namespace Sipana

/-- The argument of a call of `messageSender.send`. -/
def Sent.object : Sent → Serializable SessionRef SIPMessage
  | .session r _ => .session r
  | .message m => .message m

/-- The handler and the sender it feeds. -/
structure Agent where
  handler : SIPHandler
  buffer : DelayedBuffer SessionRef SIPMessage

/-- Who moves next. -/
inductive AgentStep
  /-- The thread of the handler processes a message. -/
  | capture (message : SIPMessage)
  /-- The thread of the handler is inside `messageSender.send`. -/
  | caller
  | delayedSender
deriving DecidableEq, Repr

namespace Agent

/-- The handler processes a message up to the call of `send`, if there is one.
A thread that is still inside `send` does not take the next message. -/
def capture (σ : Agent) (message : SIPMessage) : Agent :=
  if σ.buffer.caller = .idle then
    let handler := σ.handler.process ⟨message, .returns⟩
    { handler
      buffer := (handler.sent.drop σ.handler.sent.length).foldl
        (fun buffer x => buffer.enter x.object) σ.buffer }
  else σ

def step (σ : Agent) : AgentStep → Agent
  | .capture message => σ.capture message
  | .caller => { σ with buffer := σ.buffer.callerStep }
  | .delayedSender => { σ with buffer := σ.buffer.delayedSenderStep }

def machine (bufferSize : Int) : Machine Agent AgentStep :=
  ⟨⟨SIPHandler.new, DelayedBuffer.new bufferSize⟩, step⟩

def run (bufferSize : Int) (steps : List AgentStep) : Agent :=
  (machine bufferSize).run steps

/-- What the JMS producer has taken, in order. -/
def log (σ : Agent) : List (Option (Serializable SessionRef SIPMessage)) :=
  σ.buffer.sender.sent

/-- The producer was given the session before its `k`-th object. -/
def GivenBefore (σ : Agent) (k : Nat) (r : SessionRef) : Prop :=
  ∃ i, i < k ∧ σ.log[i]? = some (some (.session r))

variable {σ : Agent}

/-! ## The sender inside the agent -/

/-- The sender of an agent has taken the steps of a sender. -/
theorem buffer_step (bufferSize : Int) (σ : Agent) (a : AgentStep) :
    ∃ steps, (σ.step a).buffer =
      (DelayedBuffer.machine bufferSize).exec σ.buffer steps := by
  cases a with
  | capture m =>
    unfold step capture
    simp only
    split
    · refine ⟨(((σ.handler.process ⟨m, .returns⟩).sent.drop
        σ.handler.sent.length).map fun x => .send x.object), ?_⟩
      rw [Machine.exec, List.foldl_map]
      rfl
    · exact ⟨[], rfl⟩
  | caller => exact ⟨[.caller], rfl⟩
  | delayedSender => exact ⟨[.delayedSender], rfl⟩

theorem buffer_exec (bufferSize : Int) (σ : Agent) (as : List AgentStep) :
    ∃ steps, ((machine bufferSize).exec σ as).buffer =
      (DelayedBuffer.machine bufferSize).exec σ.buffer steps := by
  induction as generalizing σ with
  | nil => exact ⟨[], rfl⟩
  | cons a as ih =>
    obtain ⟨first, hfirst⟩ := buffer_step bufferSize σ a
    obtain ⟨rest, hrest⟩ := ih (σ.step a)
    refine ⟨first ++ rest, ?_⟩
    rw [Machine.exec_append, ← hfirst]
    exact hrest

/-- The sender inside the agent is the sender in one of its own runs. -/
theorem buffer_run (bufferSize : Int) (as : List AgentStep) :
    ∃ steps, (run bufferSize as).buffer = DelayedBuffer.run bufferSize steps :=
  buffer_exec bufferSize _ as

/-! ## What the handler has passed on -/

end Agent

/-- The session the call of `send` has not put into the buffer yet. -/
def SendPc.inFlight {S M : Type} : SendPc S M → List S
  | .testOverflow s | .increment s | .poll s | .add s => [s]
  | _ => []

/-- A call of `send` moves the session it was given into the buffer. -/
theorem DelayedBuffer.accepted_step {S M : Type} [DecidableEq S]
    (σ : DelayedBuffer S M) (a : BufferStep S M)
    (ha : ∀ x, a ≠ .send x) :
    (σ.step a).accepted ++ (σ.step a).caller.inFlight =
      σ.accepted ++ σ.caller.inFlight := by
  cases a with
  | send x => exact absurd rfl (ha x)
  | caller =>
    unfold step callerStep
    cases hpc : σ.caller with
    | testOverflow s =>
      simp only [goto]
      split <;> rfl
    | testRunning m =>
      simp only [goto]
      split <;> rfl
    | _ => simp [goto, assign, SendPc.inFlight, hpc]
  | delayedSender => rfl

namespace Agent

variable {σ : Agent}

/-- The sessions the sender has accepted are those the handler has sent. -/
def Fed (σ : Agent) : Prop :=
  σ.handler.sentSessions.map Prod.fst =
    σ.buffer.accepted ++ σ.buffer.caller.inFlight

/-- A message of the wire leads to at most one call of `send`. -/
theorem handOver_cases (σ : SIPHandler) (m : SIPMessage) :
    σ.handOver m = [] ∨ ∃ x, σ.handOver m = [x] := by
  unfold SIPHandler.handOver
  split
  · split
    · exact Or.inr ⟨_, rfl⟩
    · exact Or.inl rfl
  · cases m with
    | request q => exact Or.inl rfl
    | response p => exact Or.inr ⟨_, rfl⟩

/-- A message that leads to no call of `send`, or to one. -/
theorem capture_cases (hwf : SIPHandler.Wf σ.handler) (m : SIPMessage)
    (hidle : σ.buffer.caller = .idle) :
    let handler := σ.handler.process ⟨m, .returns⟩
    (handler.sent = σ.handler.sent ∧
      σ.capture m = ⟨handler, σ.buffer⟩) ∨
    ∃ x, handler.sent = σ.handler.sent ++ [x] ∧
      σ.capture m = ⟨handler, σ.buffer.enter x.object⟩ := by
  have hsent := SIPHandler.process_sent hwf ⟨m, .returns⟩
  unfold capture
  simp only [if_pos hidle, hsent, List.drop_left]
  rcases handOver_cases σ.handler m with hnone | ⟨x, hone⟩
  · rw [hnone]
    exact Or.inl ⟨List.append_nil _, rfl⟩
  · rw [hone]
    exact Or.inr ⟨x, rfl, rfl⟩

theorem capture_fed (hwf : SIPHandler.Wf σ.handler) (h : Fed σ)
    (m : SIPMessage) : Fed (σ.capture m) := by
  by_cases hidle : σ.buffer.caller = .idle
  · unfold Fed at h
    have hnothing : σ.buffer.caller.inFlight = [] := hidle ▸ rfl
    rw [hnothing, List.append_nil] at h
    rcases capture_cases hwf m hidle with ⟨hsent, heq⟩ | ⟨x, hsent, heq⟩
    · rw [heq]
      simp only [Fed, SIPHandler.sentSessions, hsent] at h ⊢
      simpa [hnothing] using h
    · rw [heq]
      simp only [Fed, SIPHandler.sentSessions, hsent] at h ⊢
      cases x <;> simp [Sent.object, DelayedBuffer.enter, DelayedBuffer.goto,
        hidle, SendPc.inFlight, h]
  · rw [capture, if_neg hidle]
    exact h

/-- The handler inside the agent takes steps of its own or none. -/
theorem handler_step (σ : Agent) (a : AgentStep) :
    (σ.step a).handler = σ.handler ∨
      ∃ call, (σ.step a).handler = σ.handler.process call := by
  cases a with
  | capture m =>
    show (σ.capture m).handler = _ ∨ ∃ call, (σ.capture m).handler = _
    unfold capture
    split
    · exact Or.inr ⟨_, rfl⟩
    · exact Or.inl rfl
  | caller | delayedSender => exact Or.inl rfl

/-- What every run of the agent keeps. -/
structure Invariant (σ : Agent) : Prop where
  wf : SIPHandler.Wf σ.handler
  ledger : SIPHandler.Ledger σ.handler
  fed : Fed σ

theorem fed_step (hwf : SIPHandler.Wf σ.handler) (h : Fed σ)
    (a : AgentStep) : Fed (σ.step a) := by
  cases a with
  | capture m => exact capture_fed hwf h m
  | caller =>
    exact h.trans (σ.buffer.accepted_step .caller (fun _ => nofun)).symm
  | delayedSender =>
    exact h.trans (σ.buffer.accepted_step .delayedSender (fun _ => nofun)).symm

theorem invariant_step (h : Invariant σ) (a : AgentStep) :
    Invariant (σ.step a) := by
  obtain ⟨hwf, hledger, hfed⟩ := h
  refine ⟨?_, ?_, fed_step hwf hfed a⟩
  · rcases handler_step σ a with heq | ⟨call, heq⟩
    · exact heq ▸ hwf
    · exact heq ▸ SIPHandler.wf_process hwf call
  · rcases handler_step σ a with heq | ⟨call, heq⟩
    · exact heq ▸ hledger
    · exact heq ▸ SIPHandler.ledger_process hwf hledger call

theorem invariant_run (bufferSize : Int) (as : List AgentStep) :
    Invariant (run bufferSize as) :=
  (machine bufferSize).run_invariant (I := Invariant)
    ⟨SIPHandler.wf_run [], SIPHandler.ledger_run [], rfl⟩
    (fun _ a h => invariant_step h a) as

/-! ## The log of the producer -/

theorem running_run (bufferSize : Int) (as : List AgentStep) :
    DelayedBuffer.Running (run bufferSize as).buffer := by
  obtain ⟨steps, hsteps⟩ := buffer_run bufferSize as
  rw [hsteps]
  exact DelayedBuffer.running_run bufferSize steps

theorem log_prefix (bufferSize : Int) (pre post : List AgentStep) :
    (run bufferSize pre).log <+: (run bufferSize (pre ++ post)).log := by
  obtain ⟨more, hmore⟩ := buffer_exec bufferSize (run bufferSize pre) post
  have heq : run bufferSize (pre ++ post) =
      (machine bufferSize).exec (run bufferSize pre) post :=
    (machine bufferSize).run_append pre post
  rw [heq, log, log, hmore]
  exact DelayedBuffer.sent_prefix_exec (running_run bufferSize pre) more

/-- The call that passes a standalone message gives it to the producer. -/
theorem log_sendNow {bufferSize : Int} {pre : List AgentStep} {m : SIPMessage}
    (h : (run bufferSize pre).buffer.caller = .sendNow m) :
    (run bufferSize (pre ++ [.caller])).log =
      (run bufferSize pre).log ++ [some (.message m)] := by
  have hrun := running_run bufferSize pre
  have heq : run bufferSize (pre ++ [.caller]) =
      (run bufferSize pre).step .caller :=
    (machine bufferSize).run_snoc pre .caller
  rw [heq]
  simp [step, log, DelayedBuffer.callerStep, h, DelayedBuffer.goto,
    DelayedBuffer.assign, JMSSender.sendNow_returns hrun.hasProducer]

/-- What comes before a given place in the log is decided by then. -/
theorem givenBefore_iff {bufferSize : Int} (pre post : List AgentStep)
    (r : SessionRef) :
    (run bufferSize (pre ++ post)).GivenBefore
      (run bufferSize pre).log.length r ↔
      some (.session r) ∈ (run bufferSize pre).log := by
  obtain ⟨rest, hrest⟩ := log_prefix bufferSize pre post
  unfold GivenBefore
  rw [List.mem_iff_getElem?, ← hrest]
  refine ⟨?_, ?_⟩
  · intro h
    obtain ⟨i, hi, hat⟩ := h
    exact ⟨i, by rwa [List.getElem?_append_left hi] at hat⟩
  · intro h
    obtain ⟨i, hat⟩ := h
    have hi := (List.getElem?_eq_some_iff.mp hat).1
    exact ⟨i, hi, by rwa [List.getElem?_append_left hi]⟩

theorem mem_delivered {r : SessionRef} :
    r ∈ σ.buffer.delivered ↔ some (.session r) ∈ σ.log := by
  unfold DelayedBuffer.delivered
  rw [List.mem_filterMap]
  refine ⟨?_, ?_⟩
  · intro h
    obtain ⟨x, hx, heq⟩ := h
    unfold DelayedBuffer.session? at heq
    split at heq
    · rw [← Option.some.inj heq]
      exact hx
    · cases heq
  · intro h
    exact ⟨_, h, rfl⟩

/-- A session the handler has passed on is delivered or pending, not both. -/
theorem delivered_iff_not_pending {bufferSize : Int} {pre : List AgentStep}
    (hnone : (run bufferSize pre).buffer.discards = 0)
    (hfree : (run bufferSize pre).buffer.caller.inFlight = [])
    {r : SessionRef} {s : SIPSession}
    (h : .session r s ∈ (run bufferSize pre).handler.sent) :
    some (.session r) ∈ (run bufferSize pre).log ↔
      r ∉ (run bufferSize pre).buffer.pending := by
  have hinv := invariant_run bufferSize pre
  have hfed := hinv.fed
  have honce := hinv.ledger.once r
  obtain ⟨steps, hsteps⟩ := buffer_run bufferSize pre
  have hsplit : (run bufferSize pre).buffer.accepted =
      (run bufferSize pre).buffer.delivered ++
        (run bufferSize pre).buffer.pending := by
    rw [hsteps] at hnone ⊢
    exact DelayedBuffer.accepted_of_none_discarded hnone
  rw [Fed, hfree, List.append_nil, hsplit] at hfed
  have hmem : r ∈ (run bufferSize pre).handler.sentSessions.map Prod.fst :=
    List.mem_map_of_mem (f := Prod.fst) (SIPHandler.mem_sentSessions.mpr h)
  have hcount : (run bufferSize pre).handler.sentCount r =
      ((run bufferSize pre).handler.sentSessions.map Prod.fst).count r := by
    rw [SIPHandler.sentCount, List.count, List.countP_map]
    congr
  rw [hcount, hfed, List.count_append] at honce
  rw [hfed, List.mem_append] at hmem
  rw [← mem_delivered]
  refine ⟨?_, ?_⟩
  · intro hdelivered hpending
    have hfirst := List.count_pos_iff.mpr hdelivered
    have hsecond := List.count_pos_iff.mpr hpending
    omega
  · intro hpending
    exact hmem.resolve_right hpending

/-- A standalone message goes to the producer at once. Of the sessions passed
on before it, those come first that have been given to the producer by then;
the ones that are still pending in the buffer are overtaken. -/
theorem standalone_overtakes_pending (bufferSize : Int)
    (pre post : List AgentStep) (m : SIPMessage)
    (h : (run bufferSize pre).buffer.caller = .sendNow m) :
    let k := (run bufferSize pre).log.length
    let σ := run bufferSize (pre ++ .caller :: post)
    σ.log[k]? = some (some (.message m)) ∧
    ∀ r s, .session r s ∈ (run bufferSize pre).handler.sent →
      (σ.GivenBefore k r ↔ some (.session r) ∈ (run bufferSize pre).log) ∧
      ((run bufferSize pre).buffer.discards = 0 →
        (σ.GivenBefore k r ↔ r ∉ (run bufferSize pre).buffer.pending)) := by
  refine ⟨?_, ?_⟩
  · obtain ⟨rest, hrest⟩ := log_prefix bufferSize (pre ++ [.caller]) post
    rw [List.append_cons, ← hrest, log_sendNow h]
    simp
  · intro r s hsent
    refine ⟨givenBefore_iff pre _ r, ?_⟩
    intro hnone
    have hfree : (run bufferSize pre).buffer.caller.inFlight = [] := h ▸ rfl
    exact (givenBefore_iff pre _ r).trans
      (delivered_iff_not_pending hnone hfree hsent)

/-- A session that a pass has sent comes before the late response. -/
theorem session_before_late_response :
    let ok := (SIPHandler.Call.response 200 "REGISTER" "a" 2).message
    let pre : List AgentStep :=
      [.capture (SIPHandler.Call.request "REGISTER" "a" 1).message, .capture ok,
        .caller, .caller] ++ List.replicate 8 .delayedSender ++
        [.capture ok, .caller]
    (run 1 (pre ++ [.caller])).GivenBefore 1 0 := by
  intro ok pre
  have horder := (standalone_overtakes_pending 1 pre [] ok (by decide)).2 0
    ((run 1 pre).handler.heap 0) (by decide)
  have hk : (run 1 pre).log.length = 1 := by decide
  exact hk ▸ horder.1.mpr (by decide)

/-- A response that is repeated before the first pass comes first. -/
theorem late_response_overtakes :
    ¬ ∀ (bufferSize : Int) (pre post : List AgentStep) (m : SIPMessage)
      (r : SessionRef) (s : SIPSession),
      1 ≤ bufferSize → (run bufferSize pre).buffer.caller = .sendNow m →
      .session r s ∈ (run bufferSize pre).handler.sent →
      s.callId = m.callID →
      (run bufferSize (pre ++ .caller :: post)).GivenBefore
        (run bufferSize pre).log.length r := by
  intro h
  let ok := (SIPHandler.Call.response 200 "REGISTER" "a" 2).message
  let pre : List AgentStep :=
    [.capture (SIPHandler.Call.request "REGISTER" "a" 1).message, .capture ok,
      .caller, .caller, .capture ok, .caller]
  obtain ⟨i, hi, -⟩ := h 1 pre [] ok 0 ((run 1 pre).handler.heap 0)
    (by decide) (by decide) (by decide) (by decide)
  have hempty : (run 1 pre).log.length = 0 := by decide
  rw [hempty] at hi
  exact absurd hi (Nat.not_lt_zero i)

end Agent

end Sipana
