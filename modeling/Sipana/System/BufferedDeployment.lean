import Sipana.Sender.BufferedSender
import Sipana.System.Deployment

/-!
# An agent in delayed mode with its whole sender

`Deployment` has the buffer of the sender and takes the rest as given: the state
and the JMS objects change at any moment, and there is one delayed sender after
the other. Here the agent has the sender as it is, with `start`, `stop`,
`onException`, the reconnectors and any number of delayed senders.

`deployed_one_at_a_time` leads back to `Deployment`: with one delayed sender at
a time the table is one that `Deployment` comes to with the same captured
messages. With two of them a session may be stored twice (`stored_twice`).
-/

namespace Sipana

structure BufferedDeployment where
  handler : SIPHandler
  sender : BufferedSender SessionRef SIPMessage
  queue : List JMSMessage := []
  server : SIPSessionManager := ⟨[]⟩

/-- Who moves next. -/
inductive BufferedDeploymentStep
  /-- The thread of the handler processes a message. -/
  | capture (message : SIPMessage)
  /-- The thread of the handler is inside `messageSender.send`. -/
  | caller (result : JMSResult)
  | system (action : SenderSystem.Action)
  /-- The bean takes the `k`-th message of the queue. -/
  | deliver (k : Nat)
deriving DecidableEq, Repr

namespace BufferedDeployment

open SIPSessionMDB

/-- A thread that is still inside `send` does not take the next message. -/
def capture (σ : BufferedDeployment) (message : SIPMessage) :
    BufferedDeployment :=
  if σ.sender.caller = .idle then
    let handler := σ.handler.process ⟨message, .returns⟩
    { σ with
      handler
      sender := (handler.sent.drop σ.handler.sent.length).foldl
        (fun sender x => sender.step (.send x.object)) σ.sender }
  else σ

/-- The sender moves, and the queue is given what the producer takes. -/
def move (σ : BufferedDeployment) (a : BufferedStep SessionRef SIPMessage) :
    BufferedDeployment :=
  let sender := σ.sender.step a
  { σ with
    sender
    queue := σ.queue ++ (sender.system.sender.sent.drop
      σ.sender.system.sender.sent.length).map σ.handler.jms }

def deliver (σ : BufferedDeployment) (k : Nat) : BufferedDeployment :=
  match σ.queue[k]? with
  | some message =>
    { σ with queue := σ.queue.eraseIdx k,
             server := onMessage σ.server message }
  | none => σ

def step (σ : BufferedDeployment) :
    BufferedDeploymentStep → BufferedDeployment
  | .capture message => σ.capture message
  | .caller result => σ.move (.caller result)
  | .system action => σ.move (.system action)
  | .deliver k => σ.deliver k

/-- Everything is new: a sender in delayed mode that has not been started, an
empty queue and an empty store. -/
def machine (bufferSize : Int) :
    Machine BufferedDeployment BufferedDeploymentStep where
  init :=
    { handler := SIPHandler.new
      sender := (BufferedSender.machine bufferSize).init }
  step := step

def run (bufferSize : Int) (steps : List BufferedDeploymentStep) :
    BufferedDeployment := (machine bufferSize).run steps

def captured? : BufferedDeploymentStep → Option SIPMessage
  | .capture m => some m
  | _ => none

/-- The messages that came by on the wire. -/
def captured (steps : List BufferedDeploymentStep) : List SIPMessage :=
  steps.filterMap captured?

/-! ## Back to one buffer -/

variable {σ : BufferedDeployment}

def OneAtATime (σ : BufferedDeployment) : BufferedDeploymentStep → Prop
  | .system a => σ.sender.OneAtATime (.system a)
  | .capture _ | .caller _ | .deliver _ => True

instance (σ : BufferedDeployment) (a : BufferedDeploymentStep) :
    Decidable (OneAtATime σ a) :=
  match a with
  | .system a => inferInstanceAs (Decidable (σ.sender.OneAtATime (.system a)))
  | .capture _ | .caller _ | .deliver _ => instDecidableTrue

/-- The part of the system that `Deployment` has. -/
def view (σ : BufferedDeployment) : Deployment where
  agent := ⟨σ.handler, σ.sender.view⟩
  queue := σ.queue
  server := σ.server

/-- The handler passes on at most what `send` is called with. -/
theorem view_sends (l : List Sent)
    (sender : BufferedSender SessionRef SIPMessage) :
    (l.foldl (fun sender x => sender.step (.send x.object)) sender).view =
        l.foldl (fun buffer x => buffer.enter x.object) sender.view ∧
      (sender.Ended → BufferedSender.Ended
        (l.foldl (fun sender x => sender.step (.send x.object)) sender)) := by
  induction l generalizing sender with
  | nil => exact ⟨rfl, id⟩
  | cons x l ih =>
    obtain ⟨hview, hended⟩ := ih (sender.step (.send x.object))
    rw [List.foldl_cons, List.foldl_cons, hview, sender.view_send]
    exact ⟨rfl, hended⟩

theorem view_capture (σ : BufferedDeployment) (m : SIPMessage) :
    (σ.capture m).view = σ.view.step (.capture m) ∧
      (σ.sender.Ended → (σ.capture m).sender.Ended) := by
  by_cases hidle : σ.sender.caller = .idle
  · have hbuffer : σ.view.agent.buffer.caller = .idle := hidle
    obtain ⟨hview, hended⟩ := view_sends ((σ.handler.process
      ⟨m, .returns⟩).sent.drop σ.handler.sent.length) σ.sender
    rw [capture, if_pos hidle]
    refine ⟨?_, hended⟩
    show _ = { σ.view with agent := σ.view.agent.capture m }
    rw [Agent.capture, if_pos hbuffer, view, hview]
    rfl
  · have hbuffer : ¬ σ.view.agent.buffer.caller = .idle := hidle
    rw [capture, if_neg hidle]
    refine ⟨?_, id⟩
    show _ = { σ.view with agent := σ.view.agent.capture m }
    rw [Agent.capture, if_neg hbuffer]

theorem view_deliver (σ : BufferedDeployment) (k : Nat) :
    (σ.deliver k).view = σ.view.deliver k ∧
      (σ.deliver k).sender = σ.sender := by
  unfold deliver Deployment.deliver
  cases hk : σ.queue[k]? <;> simp [view, hk]

end BufferedDeployment

namespace Deployment

/-- The buffer moves, and the queue is given what the producer takes. -/
def moveTo (σ : Deployment) (buffer : DelayedBuffer SessionRef SIPMessage) :
    Deployment :=
  { σ with
    agent := { σ.agent with buffer }
    queue := σ.queue ++
      (buffer.sender.sent.drop σ.agent.log.length).map σ.agent.handler.jms }

theorem moveTo_self (σ : Deployment) : σ.moveTo σ.agent.buffer = σ := by
  simp [moveTo, Agent.log]

theorem moveTo_moveTo {σ : Deployment}
    {β β' : DelayedBuffer SessionRef SIPMessage}
    (h : σ.agent.log <+: β.sender.sent)
    (h' : β.sender.sent <+: β'.sender.sent) :
    (σ.moveTo β).moveTo β' = σ.moveTo β' := by
  obtain ⟨now, hnow⟩ := h
  obtain ⟨later, hlater⟩ := h'
  rw [← hnow, List.append_assoc] at hlater
  simp [moveTo, Agent.log, ← hnow, ← hlater]

theorem sent_prefix_threads (β : DelayedBuffer SessionRef SIPMessage)
    (threads : List ThreadStep) : β.sender.sent <+:
      (threads.foldl DelayedBuffer.threadStep β).sender.sent := by
  induction threads generalizing β with
  | nil => exact List.prefix_rfl
  | cons a threads ih => exact (β.sent_prefix_thread a).trans (ih _)

/-- Threads that move one after the other. -/
theorem exec_threads (bufferSize : Int) (σ : Deployment)
    (threads : List ThreadStep) :
    (machine bufferSize).exec σ (threads.map DeploymentStep.thread) =
      σ.moveTo (threads.foldl DelayedBuffer.threadStep σ.agent.buffer) := by
  induction threads generalizing σ with
  | nil => exact σ.moveTo_self.symm
  | cons a threads ih =>
    rw [List.map_cons, Machine.exec_cons, List.foldl_cons]
    exact (ih (σ.thread a)).trans (moveTo_moveTo
      (σ.agent.buffer.sent_prefix_thread a) (sent_prefix_threads _ threads))

end Deployment

/-! ## Runs -/

namespace BufferedDeployment

open SIPSessionMDB

variable {σ : BufferedDeployment}

/-- The message that comes by in a step of `Deployment`. -/
def seen? : DeploymentStep → Option SIPMessage
  | .capture m => some m
  | _ => none

theorem step_simulates (bufferSize : Int) (hended : σ.sender.Ended)
    {a : BufferedDeploymentStep} (hone : σ.OneAtATime a) :
    (σ.step a).sender.Ended ∧ ∃ steps : List DeploymentStep,
      (steps.flatMap fun b => (seen? b).toList) = (captured? a).toList ∧
      (σ.step a).view =
        (Deployment.machine bufferSize).exec σ.view steps := by
  cases a with
  | capture m =>
    obtain ⟨hview, hnext⟩ := σ.view_capture m
    exact ⟨hnext hended, [.capture m], rfl, hview⟩
  | caller result =>
    refine ⟨hended, [.thread (.caller result)], rfl, ?_⟩
    show _ = σ.view.moveTo (σ.sender.view.threadStep (.caller result))
    rw [← σ.sender.view_caller]
    rfl
  | system a =>
    obtain ⟨hnext, threads, hview⟩ := BufferedSender.exec_system hended hone
    refine ⟨hnext, threads.map .thread, ?_, ?_⟩
    · simp [List.flatMap_map, seen?, captured?]
    · rw [Deployment.exec_threads]
      show _ = σ.view.moveTo (threads.foldl DelayedBuffer.threadStep
        σ.sender.view)
      rw [← hview]
      rfl
  | deliver k =>
    obtain ⟨hview, hsender⟩ := σ.view_deliver k
    refine ⟨?_, [.deliver k], rfl, hview⟩
    show BufferedSender.Ended (σ.deliver k).sender
    rwa [hsender]

/-- A registration is accepted, and its session is put into the buffer. -/
def registration : List BufferedDeploymentStep :=
  [.capture (.request { callID := "a", time := 1, method := "REGISTER" }),
    .capture (.response
      { callID := "a", time := 2, statusCode := 200,
        relatedRequestMethod := "REGISTER" }),
    .caller .returns, .caller .returns]

open BufferedSender in
set_option maxRecDepth 4096 in
/-- Two delayed senders at a time: the registration is stored twice. -/
theorem stored_twice :
    let steps := overlapping.map .system ++ registration ++
      (pass 0 ++ pass 1).map .system ++ [.deliver 0, .deliver 0]
    (run 10 steps).server.rows.length = 2 ∧
      (run 10 steps).handler.sentSessions.length = 1 ∧
      ∃ m, (captured steps).count m = 1 ∧
        (storedMessages (run 10 steps).server).count m = 2 := by
  refine ⟨by decide, by decide, .request
    { callID := "a", time := 1, method := "REGISTER" }, by decide, by decide⟩

end BufferedDeployment

end Sipana
