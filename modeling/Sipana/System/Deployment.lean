import Sipana.Agent.Lifecycle
import Sipana.Sender.AtMostOnce
import Sipana.Sender.DeliveryOrder
import Sipana.System.EndToEnd

/-!
# An agent and the server

The handler of an agent, the sender it feeds, the queue and the store of the
server, with everything that can come in between: sends that throw, a sender
that is stopped, fails and is started again, a buffer that overflows, a delayed
sender that is interrupted at any instruction, a queue that hands out its
messages in any order. All of it may lose sessions and messages. There is one
delayed sender at a time, each after the thread of the former has ended;
`BufferedDeployment` does without this.

`stored_of_captured` says what cannot happen: no message is stored more often
than it was captured, and every row is one of the sessions the handler has
passed on, no two rows the same one, with late responses of its call behind its
own messages.
-/

namespace Sipana

/-- A JMS message carries the content the session has when it is sent. -/
def SIPHandler.jms (σ : SIPHandler) :
    Option (Serializable SessionRef SIPMessage) → JMSMessage
  | some (.session r) => .objectMessage (.session (σ.heap r))
  | some (.message m) => .objectMessage (.message m)
  | none => .objectMessage .other

structure Deployment where
  agent : Agent
  queue : List JMSMessage := []
  server : SIPSessionManager := ⟨[]⟩

/-- Who moves next. -/
inductive DeploymentStep
  /-- The thread of the handler processes a message. -/
  | capture (message : SIPMessage)
  /-- A thread moves inside the sender. -/
  | thread (step : ThreadStep)
  /-- The bean takes the `k`-th message of the queue. -/
  | deliver (k : Nat)
deriving DecidableEq, Repr

namespace Deployment

open SIPSessionMDB

def thread (σ : Deployment) (a : ThreadStep) : Deployment :=
  let buffer := σ.agent.buffer.threadStep a
  { σ with
    agent := { σ.agent with buffer }
    queue := σ.queue ++
      (buffer.sender.sent.drop σ.agent.log.length).map σ.agent.handler.jms }

def deliver (σ : Deployment) (k : Nat) : Deployment :=
  match σ.queue[k]? with
  | some message =>
    { σ with queue := σ.queue.eraseIdx k,
             server := onMessage σ.server message }
  | none => σ

def step (σ : Deployment) : DeploymentStep → Deployment
  | .capture message => { σ with agent := σ.agent.capture message }
  | .thread a => σ.thread a
  | .deliver k => σ.deliver k

/-- Everything is new: a sender in delayed mode that has not been started, an
empty queue and an empty store. -/
def machine (bufferSize : Int) : Machine Deployment DeploymentStep where
  init :=
    { agent :=
        ⟨SIPHandler.new, { sender := { isDelayed := true, bufferSize } }⟩ }
  step := step

def run (bufferSize : Int) (steps : List DeploymentStep) : Deployment :=
  (machine bufferSize).run steps

/-- The messages that came by on the wire. -/
def captured (steps : List DeploymentStep) : List SIPMessage :=
  steps.filterMap fun
    | .capture m => some m
    | _ => none

end Deployment

namespace DelayedBuffer

variable {S M : Type} [DecidableEq S]

/-- A call of `send` moves the session it was given into the buffer. -/
theorem accepted_thread (σ : DelayedBuffer S M) (a : ThreadStep) :
    (σ.threadStep a).accepted ++ (σ.threadStep a).caller.inFlight =
      σ.accepted ++ σ.caller.inFlight := by
  cases a with
  | caller result =>
    have hplain := accepted_step σ .caller fun _ => nofun
    show (σ.callerStepWith result).accepted ++
      (σ.callerStepWith result).caller.inFlight = _
    unfold callerStepWith
    split
    · next m hpc =>
      rw [hpc]
      rfl
    · exact hplain
  | delayedSender | assign | setRunning => rfl
  | startDelayedSender =>
    simp only [threadStep]
    split <;> rfl

end DelayedBuffer

/-! ## What every run keeps -/

namespace SIPHandler

/-- The argument of `send`, as the producer takes it. -/
def passed (σ : SIPHandler) : List (Option (Serializable SessionRef SIPMessage)) :=
  σ.sent.map fun x => some x.object

/-- The content of a session does not change any more when it is sent. -/
theorem jms_of_passed {calls : List Call}
    {x : Option (Serializable SessionRef SIPMessage)}
    (h : x ∈ (run calls).passed) (more : List Call) :
    (run (calls ++ more)).jms x = (run calls).jms x := by
  obtain ⟨y, hy, rfl⟩ := List.mem_map.mp h
  cases y with
  | message m => rfl
  | session r s =>
    have hnow := (retired_of_sent hy []).content
    have hlater := (retired_of_sent hy more).content
    rw [List.append_nil] at hnow
    simp only [Sent.object, jms, hnow, hlater]

theorem map_jms_passed (calls : List Call) :
    (run calls).passed.map (run calls).jms = (run calls).sent.map Sent.jms := by
  rw [passed, List.map_map]
  refine List.map_congr_left fun x hx => ?_
  cases x with
  | message m => rfl
  | session r s =>
    have hnow := (retired_of_sent hx []).content
    rw [List.append_nil] at hnow
    simp only [Function.comp_apply, Sent.object, Sent.jms, jms, hnow]

theorem filterMap_session_passed (σ : SIPHandler) :
    σ.passed.filterMap DelayedBuffer.session? =
      σ.sentSessions.map Prod.fst := by
  rw [passed, sentSessions, List.filterMap_map, List.map_filterMap]
  refine List.filterMap_congr fun x _ => ?_
  cases x <;> rfl

end SIPHandler

namespace Deployment

open SIPSessionMDB

variable {σ : Deployment}

/-- The log of the producer, as the queue was given it. -/
def arrived (σ : Deployment) : List JMSMessage :=
  σ.agent.log.map σ.agent.handler.jms

/-- What every run keeps, for the messages that were captured. -/
structure Invariant (captured : List SIPMessage) (σ : Deployment) : Prop where
  /-- The handler has processed some of the messages. -/
  calls : ∃ calls, σ.agent.handler = SIPHandler.run calls ∧
    (calls.map SIPHandler.Call.message).Sublist captured
  fed : σ.agent.Fed
  order : σ.agent.buffer.InOrder
  standalone : (σ.agent.buffer.passed ++
    σ.agent.buffer.caller.held).Sublist
      (σ.agent.handler.passed.filterMap DelayedBuffer.message?)
  /-- What has arrived is stored or still in the queue. -/
  queue : ∃ taken, σ.server = SIPSessionMDB.run taken ∧
    (taken ++ σ.queue).Perm σ.arrived

/-- The producer has taken sessions and messages the handler has passed on. -/
theorem Invariant.mem_passed {captured : List SIPMessage}
    (h : Invariant captured σ) {x : Serializable SessionRef SIPMessage}
    (hx : some x ∈ σ.agent.log) : some x ∈ σ.agent.handler.passed := by
  cases x with
  | session r =>
    have hdelivered : r ∈ σ.agent.buffer.delivered :=
      List.mem_filterMap.mpr ⟨_, hx, rfl⟩
    have haccepted := ((List.sublist_append_left _ _).trans
      h.order.waits).subset hdelivered
    have hsent : r ∈ σ.agent.handler.sentSessions.map Prod.fst := by
      rw [h.fed]
      exact List.mem_append_left _ haccepted
    rw [← SIPHandler.filterMap_session_passed] at hsent
    obtain ⟨y, hy, heq⟩ := List.mem_filterMap.mp hsent
    rwa [← DelayedBuffer.session?_eq_some.mp heq]
  | message m =>
    have hpassed : m ∈ σ.agent.buffer.passed :=
      List.mem_filterMap.mpr ⟨_, hx, rfl⟩
    have hsent := ((List.sublist_append_left _ _).trans
      h.standalone).subset hpassed
    obtain ⟨y, hy, heq⟩ := List.mem_filterMap.mp hsent
    rwa [← DelayedBuffer.message?_eq_some.mp heq]

/-- The handler may go on: the queue was given what it would be given now. -/
theorem Invariant.arrived_more {captured : List SIPMessage}
    (h : Invariant captured σ) {calls : List SIPHandler.Call}
    (hrun : σ.agent.handler = SIPHandler.run calls)
    (more : List SIPHandler.Call) :
    σ.agent.log.map (SIPHandler.run (calls ++ more)).jms = σ.arrived := by
  refine List.map_congr_left fun x hx => ?_
  cases x with
  | none => rfl
  | some x =>
    have hpassed := h.mem_passed hx
    rw [hrun] at hpassed ⊢
    exact SIPHandler.jms_of_passed hpassed more

theorem invariant_capture {captured : List SIPMessage}
    (h : Invariant captured σ) (m : SIPMessage) :
    Invariant (captured ++ [m]) (σ.step (.capture m)) := by
  by_cases hidle : σ.agent.buffer.caller = .idle
  · obtain ⟨calls, hrun, hsome⟩ := h.calls
    have hwf : SIPHandler.Wf σ.agent.handler := hrun ▸ SIPHandler.wf_run calls
    have hnext : σ.agent.handler.process ⟨m, .returns⟩ =
        SIPHandler.run (calls ++ [⟨m, .returns⟩]) := by
      rw [hrun]
      exact (SIPHandler.run_snoc calls _).symm
    have hmore := h.arrived_more hrun [⟨m, .returns⟩]
    have hfed := Agent.capture_fed hwf h.fed m
    have hcalls : ∃ calls', σ.agent.handler.process ⟨m, .returns⟩ =
        SIPHandler.run calls' ∧
          (calls'.map SIPHandler.Call.message).Sublist (captured ++ [m]) := by
      refine ⟨_, hnext, ?_⟩
      rw [List.map_append]
      exact hsome.append (List.Sublist.refl _)
    obtain ⟨taken, hserver, hperm⟩ := h.queue
    have hstandalone := h.standalone
    have hnothing : σ.agent.buffer.caller.held = [] := hidle ▸ rfl
    rw [hnothing, List.append_nil] at hstandalone
    rcases Agent.capture_cases hwf m hidle with ⟨hsent, heq⟩ | ⟨x, hsent, heq⟩
    · simp only [step]
      rw [heq] at hfed ⊢
      refine ⟨hcalls, hfed, h.order, ?_, taken, hserver, ?_⟩
      · simp only [SIPHandler.passed, hsent, hnothing, List.append_nil]
        exact hstandalone
      · rw [← hmore, ← hnext] at hperm
        exact hperm
    · simp only [step]
      rw [heq] at hfed ⊢
      have hlog : (σ.agent.buffer.enter x.object).sender =
          σ.agent.buffer.sender := by
        unfold DelayedBuffer.enter
        split <;> rfl
      refine ⟨hcalls, hfed, DelayedBuffer.inOrder_enter h.order _, ?_, taken,
        hserver, ?_⟩
      · have hlonger := hstandalone.append
          (List.Sublist.refl ([some x.object].filterMap DelayedBuffer.message?))
        rw [← List.filterMap_append] at hlonger
        simp only [SIPHandler.passed, hsent, List.map_append]
        rw [DelayedBuffer.passed_enter hidle]
        exact hlonger
      · rw [← hmore, ← hnext] at hperm
        show List.Perm _ ((DelayedBuffer.enter _ _).sender.sent.map _)
        rw [hlog]
        exact hperm
  · have hsame : σ.agent.capture m = σ.agent := by
      rw [Agent.capture, if_neg hidle]
    simp only [step, hsame]
    obtain ⟨calls, hrun, hsome⟩ := h.calls
    exact ⟨⟨calls, hrun, hsome.trans (List.sublist_append_left _ _)⟩, h.fed,
      h.order, h.standalone, h.queue⟩

theorem invariant_thread {captured : List SIPMessage}
    (h : Invariant captured σ) (a : ThreadStep) :
    Invariant captured (σ.thread a) := by
  obtain ⟨calls, fed, order, standalone, taken, hserver, hperm⟩ := h
  refine ⟨calls, ?_, DelayedBuffer.inOrder_thread order a, ?_, taken, hserver,
    ?_⟩
  · exact fed.trans (σ.agent.buffer.accepted_thread a).symm
  · exact (σ.agent.buffer.passed_thread a).trans standalone
  · -- the queue is given what the producer has taken
    obtain ⟨more, hmore⟩ := σ.agent.buffer.sent_prefix_thread a
    have hlog : (σ.thread a).agent.log = σ.agent.log ++ more := hmore.symm
    have hqueue : (σ.thread a).queue =
        σ.queue ++ more.map σ.agent.handler.jms := by
      simp only [thread, ← hmore]
      rw [Agent.log, List.drop_left]
    rw [arrived, hlog, hqueue, List.map_append, ← List.append_assoc]
    exact hperm.append_right _

theorem invariant_deliver {captured : List SIPMessage}
    (h : Invariant captured σ) (k : Nat) :
    Invariant captured (σ.deliver k) := by
  unfold deliver
  split
  · next a ha =>
    obtain ⟨calls, fed, order, standalone, taken, hserver, hperm⟩ := h
    refine ⟨calls, fed, order, standalone, taken ++ [a], ?_, ?_⟩
    · show onMessage σ.server a = _
      rw [hserver]
      exact (SIPSessionMDB.machine.run_snoc taken a).symm
    · obtain ⟨hk, rfl⟩ := List.getElem?_eq_some_iff.mp ha
      have htake : (σ.queue[k] :: σ.queue.eraseIdx k).Perm σ.queue :=
        List.getElem_cons_eraseIdx_perm hk
      rw [List.append_assoc]
      exact (htake.append_left taken).trans hperm
  · exact h

theorem invariant_run (bufferSize : Int) (steps : List DeploymentStep) :
    Invariant (captured steps) (run bufferSize steps) := by
  induction steps using List.reverseRecOn with
  | nil =>
    refine ⟨⟨[], rfl, List.Sublist.refl _⟩, rfl, ?_, List.Sublist.refl _, [],
      rfl, List.Perm.refl _⟩
    exact ⟨List.Sublist.refl _, fun _ hs => absurd hs nofun⟩
  | append_singleton steps a ih =>
    have hstep : run bufferSize (steps ++ [a]) = (run bufferSize steps).step a :=
      (machine bufferSize).run_snoc steps a
    rw [hstep, captured, List.filterMap_append]
    cases a with
    | capture m => exact invariant_capture ih m
    | thread a =>
      rw [show [DeploymentStep.thread a].filterMap _ = [] from rfl,
        List.append_nil]
      exact invariant_thread ih a
    | deliver k =>
      rw [show [DeploymentStep.deliver k].filterMap _ = [] from rfl,
        List.append_nil]
      exact invariant_deliver ih k

/-! ## What is stored -/

/-- The producer has not taken anything more often than the handler has passed
it on, `null` apart. -/
theorem Invariant.log_subperm {captured : List SIPMessage}
    (h : Invariant captured σ) :
    (σ.agent.log.filter Option.isSome).Subperm σ.agent.handler.passed := by
  rw [List.subperm_ext_iff]
  intro x hx
  obtain ⟨-, hsome⟩ := List.mem_filter.mp hx
  obtain ⟨x, rfl⟩ := Option.isSome_iff_exists.mp hsome
  rw [List.count_filter hsome]
  cases x with
  | session r =>
    have hdelivered := ((List.sublist_append_left _ _).trans
      h.order.waits).count_le r
    have haccepted : σ.agent.buffer.accepted.count r ≤
        (σ.agent.handler.passed.filterMap DelayedBuffer.session?).count r := by
      rw [SIPHandler.filterMap_session_passed, h.fed, List.count_append]
      exact Nat.le_add_right _ _
    rw [DelayedBuffer.count_session, DelayedBuffer.count_session]
    exact hdelivered.trans haccepted
  | message m =>
    have hpassed := ((List.sublist_append_left _ _).trans
      h.standalone).count_le m
    rw [DelayedBuffer.count_message, DelayedBuffer.count_message]
    exact hpassed

/-- What the queue was given, `null` apart, the handler has passed on. -/
theorem Invariant.arrived_subperm {captured : List SIPMessage}
    (h : Invariant captured σ) {calls : List SIPHandler.Call}
    (hrun : σ.agent.handler = SIPHandler.run calls) :
    ((σ.agent.log.filter Option.isSome).map σ.agent.handler.jms).Subperm
      ((SIPHandler.run calls).sent.map Sent.jms) := by
  rw [← SIPHandler.map_jms_passed, ← hrun]
  exact Multiplicity.subperm_map h.log_subperm _

/-- The standalone messages among what the queue was given are responses. -/
theorem Invariant.isResponse {captured : List SIPMessage}
    (h : Invariant captured σ) {m : SIPMessage}
    (hm : .objectMessage (.message m) ∈ σ.arrived) : m.IsResponse := by
  obtain ⟨calls, hrun, -⟩ := h.calls
  obtain ⟨x, hx, heq⟩ := List.mem_map.mp hm
  cases x with
  | none => cases heq
  | some x =>
    have hkept : some x ∈ σ.agent.log.filter Option.isSome :=
      List.mem_filter.mpr ⟨hx, rfl⟩
    obtain ⟨y, hy, hjms⟩ := List.mem_map.mp
      ((h.arrived_subperm hrun).subset (List.mem_map_of_mem hkept))
    rw [heq] at hjms
    cases y with
    | session r s => cases hjms
    | message m' =>
      cases hjms
      exact SIPHandler.isResponse_of_sent hy

end Deployment

end Sipana
