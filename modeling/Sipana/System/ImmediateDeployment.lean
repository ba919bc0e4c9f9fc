import Sipana.Sender.Immediate
import Sipana.System.Deployment

/-!
# An agent in immediate mode and the server

The same system with a sender that has no buffer. Three things are assumed of
JMS and of the container: the queue hands out its messages in the order they
came, one bean at a time takes them, and a send that throws has delivered
nothing. Sessions and messages may still be lost, by every send that throws and
by every call while the sender does not run.

But nothing overtakes: `stored_as_captured` says that the messages stored for a
call, read row by row, are messages of the call in the order they were captured.
-/

namespace Sipana

structure ImmediateDeployment where
  handler : SIPHandler
  sender : ImmediateSender SessionRef SIPMessage
  queue : List JMSMessage := []
  server : SIPSessionManager := ⟨[]⟩

/-- Who moves next. -/
inductive ImmediateDeploymentStep
  /-- The thread of the handler processes a message. -/
  | capture (message : SIPMessage)
  /-- The thread of the handler is inside `messageSender.send`. -/
  | caller (result : JMSResult)
  | system (action : SenderSystem.Action)
  /-- The bean takes the first message of the queue. -/
  | deliver
deriving DecidableEq, Repr

namespace ImmediateDeployment

open SIPSessionMDB

/-- A thread that is still inside `send` does not take the next message. -/
def capture (σ : ImmediateDeployment) (message : SIPMessage) :
    ImmediateDeployment :=
  if σ.sender.caller = .idle then
    let handler := σ.handler.process ⟨message, .returns⟩
    { σ with
      handler
      sender := (handler.sent.drop σ.handler.sent.length).foldl
        (fun sender x => sender.enter x.object) σ.sender }
  else σ

/-- The sender moves, and the queue is given what the producer takes. -/
def move (σ : ImmediateDeployment)
    (a : ImmediateStep SessionRef SIPMessage) : ImmediateDeployment :=
  let sender := σ.sender.step a
  { σ with
    sender
    queue := σ.queue ++
      (sender.log.drop σ.sender.log.length).map σ.handler.jms }

def deliver (σ : ImmediateDeployment) : ImmediateDeployment :=
  match σ.queue with
  | [] => σ
  | message :: queue =>
    { σ with queue, server := onMessage σ.server message }

def step (σ : ImmediateDeployment) :
    ImmediateDeploymentStep → ImmediateDeployment
  | .capture message => σ.capture message
  | .caller result => σ.move (.caller result)
  | .system action => σ.move (.system action)
  | .deliver => σ.deliver

/-- Everything is new: a sender that has not been started, an empty queue and an
empty store. -/
def machine (bufferSize : Int) :
    Machine ImmediateDeployment ImmediateDeploymentStep where
  init :=
    { handler := SIPHandler.new
      sender := (ImmediateSender.machine bufferSize).init }
  step := step

def run (bufferSize : Int) (steps : List ImmediateDeploymentStep) :
    ImmediateDeployment := (machine bufferSize).run steps

/-- The messages that came by on the wire. -/
def captured (steps : List ImmediateDeploymentStep) : List SIPMessage :=
  steps.filterMap fun
    | .capture m => some m
    | _ => none

/-! ## What every run keeps -/

/-- What every run keeps, for the messages that were captured. -/
structure Invariant (captured : List SIPMessage) (σ : ImmediateDeployment) :
    Prop where
  calls : ∃ calls, σ.handler = SIPHandler.run calls ∧
    (calls.map SIPHandler.Call.message).Sublist captured
  sender : σ.sender.Invariant (σ.handler.sent.map Sent.object)
  queue : ∃ taken, σ.server = SIPSessionMDB.run taken ∧
    taken ++ σ.queue = σ.sender.log.map σ.handler.jms

variable {captured : List SIPMessage} {σ : ImmediateDeployment}

theorem Invariant.log_sublist (h : Invariant captured σ) :
    σ.sender.log.Sublist σ.handler.passed := by
  have horder := (List.sublist_append_left _ _).trans h.sender.inOrder
  rw [List.map_map] at horder
  exact horder

theorem invariant_capture (h : Invariant captured σ) (m : SIPMessage) :
    Invariant (captured ++ [m]) (σ.capture m) := by
  obtain ⟨calls, hrun, hsome⟩ := h.calls
  obtain ⟨taken, hserver, hqueue⟩ := h.queue
  unfold capture
  split
  · have hwf : SIPHandler.Wf σ.handler := hrun ▸ SIPHandler.wf_run calls
    have hnext : σ.handler.process ⟨m, .returns⟩ =
        SIPHandler.run (calls ++ [⟨m, .returns⟩]) := by
      rw [hrun]
      exact (SIPHandler.run_snoc calls _).symm
    have hcalls : ∃ calls', σ.handler.process ⟨m, .returns⟩ =
        SIPHandler.run calls' ∧
          (calls'.map SIPHandler.Call.message).Sublist (captured ++ [m]) := by
      refine ⟨_, hnext, ?_⟩
      rw [List.map_append]
      exact hsome.append (List.Sublist.refl _)
    have hsent := SIPHandler.process_sent hwf ⟨m, .returns⟩
    have hlog : σ.sender.log.map (σ.handler.process ⟨m, .returns⟩).jms =
        σ.sender.log.map σ.handler.jms := by
      refine List.map_congr_left fun x hx => ?_
      have hpassed := h.log_sublist.subset hx
      rw [hrun] at hpassed
      rw [hnext, hrun]
      exact SIPHandler.jms_of_passed hpassed _
    rw [← hlog] at hqueue
    simp only [hsent, List.drop_left]
    rcases Agent.handOver_cases σ.handler m with hnone | ⟨x, hone⟩
    · rw [hnone] at hsent ⊢
      refine ⟨hcalls, ?_, taken, hserver, hqueue⟩
      simp only [hsent, List.append_nil]
      exact h.sender
    · rw [hone] at hsent ⊢
      refine ⟨hcalls, ?_, taken, hserver, ?_⟩
      · simp only [hsent, List.map_append]
        exact ImmediateSender.invariant_enter h.sender x.object
      · have henter : (σ.sender.enter x.object).log = σ.sender.log := by
          unfold ImmediateSender.enter
          split <;> rfl
        show _ = (σ.sender.enter x.object).log.map _
        rw [henter]
        exact hqueue
  · exact ⟨⟨calls, hrun, hsome.trans (List.sublist_append_left _ _)⟩, h.sender,
      taken, hserver, hqueue⟩

/-- The queue follows the log of the producer. -/
theorem Invariant.move (h : Invariant captured σ)
    {a : ImmediateStep SessionRef SIPMessage}
    (hsender : (σ.sender.step a).Invariant (σ.handler.sent.map Sent.object))
    (hlog : σ.sender.log <+: (σ.sender.step a).log) :
    Invariant captured (σ.move a) := by
  obtain ⟨calls, -, taken, hserver, hqueue⟩ := h
  obtain ⟨more, hmore⟩ := hlog
  refine ⟨calls, hsender, taken, hserver, ?_⟩
  simp only [ImmediateDeployment.move, ← hmore, List.drop_left, List.map_append]
  rw [← List.append_assoc, hqueue]

theorem invariant_deliver (h : Invariant captured σ) :
    Invariant captured σ.deliver := by
  obtain ⟨calls, hsender, taken, hserver, hqueue⟩ := h
  unfold deliver
  split
  · exact ⟨calls, hsender, taken, hserver, hqueue⟩
  · next a queue hcons =>
    refine ⟨calls, hsender, taken ++ [a], ?_, ?_⟩
    · show onMessage σ.server a = _
      rw [hserver]
      exact (SIPSessionMDB.machine.run_snoc taken a).symm
    · rw [hcons] at hqueue
      rw [List.append_assoc]
      exact hqueue

theorem invariant_run (bufferSize : Int)
    (steps : List ImmediateDeploymentStep) :
    Invariant (ImmediateDeployment.captured steps) (run bufferSize steps) := by
  induction steps using List.reverseRecOn with
  | nil =>
    exact ⟨⟨[], rfl, List.Sublist.refl _⟩,
      ImmediateSender.invariant_run bufferSize [], [], rfl, rfl⟩
  | append_singleton steps a ih =>
    have hstep : run bufferSize (steps ++ [a]) =
        (run bufferSize steps).step a := (machine bufferSize).run_snoc steps a
    rw [hstep, ImmediateDeployment.captured, List.filterMap_append]
    cases a with
    | capture m => exact invariant_capture ih m
    | caller result =>
      rw [List.filterMap_cons_none rfl, List.filterMap_nil, List.append_nil]
      exact ih.move (ImmediateSender.invariant_caller ih.sender result)
        (ImmediateSender.log_prefix_caller _ result)
    | system a =>
      rw [List.filterMap_cons_none rfl, List.filterMap_nil, List.append_nil]
      have hsender := ImmediateSender.invariant_system ih.sender a
      refine ih.move hsender ?_
      have hapart := (SenderSystem.step_keeps ih.sender.immediate a).apart
      exact ⟨[], (List.append_nil _).trans hapart.sent.symm⟩
    | deliver =>
      rw [List.filterMap_cons_none rfl, List.filterMap_nil, List.append_nil]
      exact invariant_deliver ih

/-! ## What is stored -/

/-- Whatever fails, is stopped and started again: the messages stored for a call
are messages of the call, in the order they were captured, each at most once. -/
theorem stored_as_captured (bufferSize : Int)
    (steps : List ImmediateDeploymentStep) (c : String) :
    (storedOf (run bufferSize steps).server c).Sublist
      ((ImmediateDeployment.captured steps).filter (·.callID = c)) := by
  have h := invariant_run bufferSize steps
  generalize run bufferSize steps = σ at h
  obtain ⟨calls, hrun, hsome⟩ := h.calls
  obtain ⟨taken, hserver, hqueue⟩ := h.queue
  have htaken : taken.Sublist ((SIPHandler.run calls).sent.map Sent.jms) := by
    rw [← SIPHandler.map_jms_passed, ← hrun]
    refine List.Sublist.trans ?_ (h.log_sublist.map _)
    rw [← hqueue]
    exact List.sublist_append_left _ _
  have hunsaved : ∀ a ∈ taken, Unsaved a := fun a ha =>
    SIPHandler.unsaved_jms (List.Subset.refl _) a (htaken.subset ha)
  rw [hserver]
  refine (storedOf_run hunsaved c).trans ?_
  refine ((htaken.filter (ofCall c)).flatMap contents).trans ?_
  exact (SIPHandler.contents_sublist calls c).trans (hsome.filter _)

end ImmediateDeployment

end Sipana
