import Sipana.Sender.AtMostOnce
import Sipana.Sender.Resources

/-!
# Delayed senders one at a time

`DelayedBuffer` knows one delayed sender, and after its thread has ended the
next one. The code has no such guard: every successful `start` ends with a new
delayed sender. Here the caller of `send` works with the whole sender: `start`,
`stop`, `onException`, the reconnectors and any number of delayed senders.

A run in which each delayed sender is started after the threads of the former
ones have ended is a run of `outageMachine` with the same calls of `send`
(`view_run`), so what is proved about that machine holds of it. Without this
condition a session may be sent twice (`delivered_twice`).
-/

namespace Sipana

/-- The system of a sender in delayed mode with one thread that calls `send`. -/
structure BufferedSender (S M : Type) where
  system : SenderSystem S M
  caller : SendPc S M := .idle
  /-- The sessions that were put into the buffer, in order. -/
  accepted : List S := []
  /-- How often a session was counted as discarded. -/
  discards : Nat := 0
deriving DecidableEq, Repr

/-- Who moves next. -/
inductive BufferedStep (S M : Type)
  /-- The caller enters `send`. -/
  | send (object : Serializable S M)
  | caller (result : JMSResult)
  | system (action : SenderSystem.Action)
deriving DecidableEq, Repr

namespace BufferedSender

variable {S M : Type}

/-- The buffer, with the delayed sender that was started last. -/
def buffer (σ : BufferedSender S M) : DelayedBuffer S M where
  sender := σ.system.sender
  caller := σ.caller
  delayedSender := σ.system.delayedSenders.getLast?.getD {}
  accepted := σ.accepted
  discards := σ.discards

/-- The system after a step of the caller. -/
def put (σ : BufferedSender S M) (buffer : DelayedBuffer S M) :
    BufferedSender S M where
  system := { σ.system with sender := buffer.sender }
  caller := buffer.caller
  accepted := buffer.accepted
  discards := buffer.discards

variable [DecidableEq S]

def step (σ : BufferedSender S M) : BufferedStep S M → BufferedSender S M
  | .send object => σ.put (σ.buffer.enter object)
  | .caller result => σ.put (σ.buffer.callerStepWith result)
  | .system action => { σ with system := σ.system.step action }

/-- A sender that its constructor has left in delayed mode. -/
def machine (bufferSize : Int) :
    Machine (BufferedSender S M) (BufferedStep S M) :=
  ⟨{ system := SenderSystem.new true bufferSize }, step⟩

def run (bufferSize : Int) (steps : List (BufferedStep S M)) :
    BufferedSender S M := (machine bufferSize).run steps

end BufferedSender

/-! ## What the methods do to the delayed senders -/

namespace JMSSender

variable {S M : Type}

/-- The sender without the references to what `start` creates, the JMS objects
apart. -/
def bare (σ : JMSSender S M) : JMSSender S M :=
  { σ with connection := none, delayedSender := none, reconnector := none }

/-- The same buffer and log: only the state, the JMS objects and references may
differ. -/
def Assigned (s t : JMSSender S M) : Prop :=
  t.bare = { s.bare with
    state := t.state, session := t.session, producer := t.producer }

end JMSSender

namespace SenderSystem

variable {S M : Type} {σ : SenderSystem S M} {a : Action}

/-- The step starts a delayed sender. -/
def Starts (σ : SenderSystem S M) : Action → Prop
  | .call i _ => σ.calls[i]? = some (.start .startDelayedSender)
  | .reconnector k _ => σ.startPc? k = some .startDelayedSender
  | .start | .stop | .onException | .delayedSender _ _ => False

instance (σ : SenderSystem S M) (a : Action) : Decidable (σ.Starts a) :=
  match a with
  | .call i _ => inferInstanceAs
    (Decidable (σ.calls[i]? = some (.start .startDelayedSender)))
  | .reconnector k _ => inferInstanceAs
    (Decidable (σ.startPc? k = some .startDelayedSender))
  | .start | .stop | .onException | .delayedSender _ _ => instDecidableFalse

/-- What a step of `start`, `stop`, `onException` or a reconnector leaves of the
sender and the delayed senders. -/
inductive Change (σ : SenderSystem S M) (a : Action) :
    JMSSender S M → List (DelayedSender S) → Prop
  | assigns {t} : σ.sender.Assigned t → Change σ a t σ.delayedSenders
  | clears {k d} : σ.delayedSenders[k]? = some d →
      Change σ a σ.sender
        (σ.delayedSenders.set k { d with running := false })
  | starts {t} : σ.Starts a → σ.sender.Assigned t →
      Change σ a t (σ.delayedSenders ++ [({} : DelayedSender S)])

theorem change_rfl (σ : SenderSystem S M) (a : Action) :
    Change σ a σ.sender σ.delayedSenders := .assigns rfl

theorem clearDelayedSender_change (σ : SenderSystem S M) (a : Action)
    (k : Nat) : Change σ a (σ.clearDelayedSender k).sender
      (σ.clearDelayedSender k).delayedSenders := by
  show Change σ a σ.sender (σ.delayedSenders.modify k _)
  rw [List.modify_eq_set_getElem?]
  cases hd : σ.delayedSenders[k]? with
  | none => exact change_rfl σ a
  | some d => exact .clears hd

theorem startStep_change (result : JMSResult) {pc : StartPc}
    (h : pc = .startDelayedSender → σ.Starts a) :
    Change σ a (σ.startStep result pc).1.sender
      (σ.startStep result pc).1.delayedSenders := by
  cases pc with
  | startDelayedSender =>
    exact .starts (t := σ.startDelayedSender.sender) (h rfl) rfl
  | setRunning | setFailed | startReconnector => exact .assigns rfl
  | testReconnector =>
    cases hk : σ.sender.reconnector <;> simp only [startStep, hk] <;>
      exact change_rfl σ a
  | returned => exact change_rfl σ a
  | createConnection | createSession | createProducer =>
    cases result with
    | returns => exact .assigns rfl
    | throws => exact change_rfl σ a
  | _ => cases result <;> exact change_rfl σ a

theorem stopStep_change (σ : SenderSystem S M) (a : Action)
    (result : JMSResult) (pc : StopPc) :
    Change σ a (σ.stopStep result pc).1.sender
      (σ.stopStep result pc).1.delayedSenders := by
  cases pc with
  | stopDelayedSender =>
    cases hd : σ.sender.delayedSender <;> simp only [stopStep, hd] <;>
      exact change_rfl σ a
  | clearRunning k => exact σ.clearDelayedSender_change a k
  | closeConnection =>
    cases result <;> cases hc : σ.sender.connection <;>
      simp only [stopStep, hc] <;> exact change_rfl σ a
  | _ => exact change_rfl σ a

theorem onExceptionStep_change (σ : SenderSystem S M) (a : Action)
    (pc : OnExceptionPc) :
    Change σ a (σ.onExceptionStep pc).1.sender
      (σ.onExceptionStep pc).1.delayedSenders := by
  cases pc with
  | setFailed | dropDelayedSender | startReconnector => exact .assigns rfl
  | testDelayedSenderRunning | stopDelayedSender =>
    cases hd : σ.sender.delayedSender <;> simp only [onExceptionStep, hd] <;>
      exact change_rfl σ a
  | clearRunning k => exact σ.clearDelayedSender_change a k
  | _ => exact change_rfl σ a

theorem callStep_change (σ : SenderSystem S M) (i : Nat)
    (result : JMSResult) :
    Change σ (.call i result) (σ.callStep i result).sender
      (σ.callStep i result).delayedSenders := by
  unfold callStep
  cases hf : σ.calls[i]? with
  | none => exact change_rfl σ _
  | some f =>
    cases f with
    | start pc =>
      refine startStep_change result ?_
      intro hpc
      show σ.calls[i]? = _
      rw [hf, hpc]
    | stop pc => exact σ.stopStep_change _ result pc
    | onException pc => exact σ.onExceptionStep_change _ pc

theorem reconnectorStep_change (σ : SenderSystem S M) (k : Nat)
    (result : JMSResult) :
    Change σ (.reconnector k result) (σ.reconnectorStep k result).sender
      (σ.reconnectorStep k result).delayedSenders := by
  unfold reconnectorStep
  cases hr : σ.reconnectors[k]? with
  | none => exact change_rfl σ _
  | some r =>
    cases hpc : r.pc with
    | starting pc =>
      simp only [hpc]
      refine startStep_change result ?_
      intro hstart
      show σ.startPc? k = _
      simp [startPc?, hr, hpc, hstart]
    | _ =>
      simp only [hpc]
      exact change_rfl σ _

end SenderSystem

namespace DelayedBuffer

variable {S M : Type}

/-- The buffer without the references of its sender. -/
def bare (σ : DelayedBuffer S M) : DelayedBuffer S M := σ.assign JMSSender.bare

theorem bare_enter (σ : DelayedBuffer S M) (x : Serializable S M) :
    (σ.enter x).bare = σ.bare.enter x := by
  obtain ⟨sender, caller, d, accepted, discards⟩ := σ
  cases caller <;> cases x <;> rfl

/-- `send` needs none of the references. -/
theorem bare_callerStepWith (σ : DelayedBuffer S M) (result : JMSResult) :
    (σ.callerStepWith result).bare = σ.bare.callerStepWith result := by
  obtain ⟨sender, caller, d, accepted, discards⟩ := σ
  cases caller with
  | sendNow m =>
    obtain ⟨_, _, _, _, session, producer, _, _, _, _, _, _⟩ := sender
    cases session <;> cases producer <;> cases result <;> rfl
  | _ => rfl

theorem enter_delayedSender (σ : DelayedBuffer S M) (x : Serializable S M) :
    (σ.enter x).delayedSender = σ.delayedSender := by
  unfold enter
  split <;> rfl

theorem callerStepWith_delayedSender (σ : DelayedBuffer S M)
    (result : JMSResult) :
    (σ.callerStepWith result).delayedSender = σ.delayedSender := by
  unfold callerStepWith callerStep
  cases σ.caller <;> rfl

end DelayedBuffer

/-- The thread needs none of the references either. -/
theorem DelayedSender.step_bare {S M : Type} [DecidableEq S]
    (result : JMSResult) (σ : JMSSender S M) (d : DelayedSender S) :
    d.step result σ.bare =
      ((d.step result σ).1.bare, (d.step result σ).2) := by
  obtain ⟨running, pc⟩ := d
  cases pc with
  | sessionsSend x | messagesSend x =>
    obtain ⟨_, _, _, _, session, producer, _, _, _, _, _, _⟩ := σ
    cases session <;> cases producer <;> cases result <;> rfl
  | sessionsRemove x | messagesRemove x => cases x <;> rfl
  | _ => rfl

/-! ## One delayed sender at a time -/

namespace BufferedSender

variable {S M : Type} {σ : BufferedSender S M}

/-- When a delayed sender is started, the threads of the former ones have
ended. -/
def OneAtATime (σ : BufferedSender S M) : BufferedStep S M → Prop
  | .system a =>
    σ.system.Starts a → ∀ d ∈ σ.system.delayedSenders, d.pc = .stopped
  | .send _ | .caller _ => True

instance [DecidableEq S] (σ : BufferedSender S M) (a : BufferedStep S M) :
    Decidable (OneAtATime σ a) :=
  match a with
  | .system a => inferInstanceAs (Decidable
    (σ.system.Starts a → ∀ d ∈ σ.system.delayedSenders, d.pc = .stopped))
  | .send _ | .caller _ => instDecidableTrue

/-- The threads of all delayed senders but the last one have ended. -/
def Ended (σ : BufferedSender S M) : Prop :=
  ∀ d ∈ σ.system.delayedSenders.dropLast, d.pc = .stopped

/-- The part of the system that `outageMachine` has. -/
def view (σ : BufferedSender S M) : DelayedBuffer S M := σ.buffer.bare

/-- The view has no more than this of the sender. -/
theorem view_eq (σ : BufferedSender S M) : σ.view =
    { sender := σ.system.sender.bare
      caller := σ.caller
      delayedSender := σ.system.delayedSenders.getLast?.getD {}
      accepted := σ.accepted
      discards := σ.discards } := rfl

/-- A thread moves that has not ended, or stays ended. -/
theorem Ended.set {τ : BufferedSender S M} {k : Nat} {d e : DelayedSender S}
    (h : σ.Ended) (hd : σ.system.delayedSenders[k]? = some d)
    (hkeep : d.pc = .stopped → e.pc = .stopped)
    (hτ : τ.system.delayedSenders = σ.system.delayedSenders.set k e) :
    τ.Ended := by
  rw [Ended, hτ]
  rcases Threads.set_last_or_before hd e with
    ⟨-, -, hbefore⟩ | ⟨hmem, -, hbefore⟩
  · rw [hbefore]
    exact h
  · rw [hbefore]
    intro x hx
    rcases List.mem_or_eq_of_mem_set hx with hold | rfl
    · exact h x hold
    · exact hkeep (h d hmem)

theorem view_put (β : DelayedBuffer S M)
    (h : β.delayedSender = σ.buffer.delayedSender) :
    (σ.put β).view = β.bare := by
  obtain ⟨sender, caller, d, accepted, discards⟩ := β
  simp only at h
  subst h
  rfl

variable [DecidableEq S]

theorem view_send (σ : BufferedSender S M) (x : Serializable S M) :
    (σ.step (.send x)).view = σ.view.enter x :=
  (view_put _ (σ.buffer.enter_delayedSender x)).trans (σ.buffer.bare_enter x)

theorem view_caller (σ : BufferedSender S M) (result : JMSResult) :
    (σ.step (.caller result)).view = σ.view.threadStep (.caller result) :=
  (view_put _ (σ.buffer.callerStepWith_delayedSender result)).trans
    (σ.buffer.bare_callerStepWith result)

/-- The threads of the outage machine that do what a step of `start`, `stop`,
`onException` or a reconnector does. -/
theorem exec_change {a : SenderSystem.Action} {τ : SenderSystem S M}
    (h : SenderSystem.Change σ.system a τ.sender τ.delayedSenders)
    (hended : σ.Ended) (hone : σ.OneAtATime (.system a)) :
    Ended { σ with system := τ } ∧ ∃ threads : List ThreadStep,
      view { σ with system := τ } =
        threads.foldl DelayedBuffer.threadStep σ.view := by
  obtain ⟨sender, connections, delayedSenders, reconnectors, calls⟩ := τ
  simp only at h
  cases h with
  | assigns ht =>
    refine ⟨hended, [.assign sender.state sender.session sender.producer], ?_⟩
    simp only [view_eq]
    rw [ht]
    rfl
  | @clears k d hd =>
    have hkeep (h : d.pc = .stopped) :
        ({ d with running := false } : DelayedSender S).pc = .stopped := h
    refine ⟨hended.set hd hkeep rfl, ?_⟩
    rcases Threads.set_last_or_before hd { d with running := false } with
      ⟨hlast, hnew, -⟩ | ⟨-, hsame, -⟩
    · refine ⟨[.setRunning false], ?_⟩
      simp only [view_eq, List.foldl_cons, List.foldl_nil,
        DelayedBuffer.threadStep, hnew, hlast, Option.getD_some]
    · refine ⟨[], ?_⟩
      simp only [view_eq, List.foldl_nil, hsame]
  | starts hstarts ht =>
    have hall := hone hstarts
    refine ⟨?_, [.assign sender.state sender.session sender.producer,
      .startDelayedSender], ?_⟩
    · rw [Ended, List.dropLast_concat]
      exact hall
    · -- before the first start there is no thread, and the view has a new one
      have hready : σ.system.delayedSenders.getLast?.getD {} = {} ∨
          (σ.system.delayedSenders.getLast?.getD {}).pc = .stopped := by
        cases hlast : σ.system.delayedSenders.getLast? with
        | none => exact Or.inl rfl
        | some d => exact Or.inr (hall d (List.mem_of_getLast? hlast))
      simp only [view_eq, DelayedBuffer.assign, List.foldl_cons,
        List.foldl_nil, DelayedBuffer.threadStep, List.getLast?_concat,
        Option.getD_some]
      rw [ht]
      split
      · rfl
      · next hne =>
        rw [hready.resolve_right hne]

/-- The thread of the last delayed sender is that of the view, the others have
ended. -/
theorem exec_delayedSender (hended : σ.Ended) (k : Nat) (result : JMSResult) :
    Ended { σ with system := σ.system.delayedSenderStep k result } ∧
      ∃ threads : List ThreadStep,
        view { σ with system := σ.system.delayedSenderStep k result } =
          threads.foldl DelayedBuffer.threadStep σ.view := by
  unfold SenderSystem.delayedSenderStep
  cases hd : σ.system.delayedSenders[k]? with
  | none => exact ⟨hended, [], rfl⟩
  | some d =>
    -- a thread that has ended stays where it is
    have hstopped (h : d.pc = .stopped) :
        d.step result σ.system.sender = (σ.system.sender, d) := by
      unfold DelayedSender.step
      rw [h]
    simp only
    refine ⟨hended.set hd (fun h => by rw [hstopped h]; exact h) rfl, ?_⟩
    rcases Threads.set_last_or_before hd (d.step result σ.system.sender).2 with
      ⟨hlast, hnew, -⟩ | ⟨hmem, hsame, -⟩
    · refine ⟨[.delayedSender result], ?_⟩
      simp only [view_eq, List.foldl_cons, List.foldl_nil,
        DelayedBuffer.threadStep, DelayedBuffer.delayedSenderStepWith, hnew,
        hlast, Option.getD_some, DelayedSender.step_bare]
    · refine ⟨[], ?_⟩
      simp only [view_eq, List.foldl_nil, hsame]
      rw [hstopped (hended d hmem)]

/-- Threads of the outage machine do what one step does. -/
theorem exec_system (hended : σ.Ended) {a : SenderSystem.Action}
    (hone : σ.OneAtATime (.system a)) :
    (σ.step (.system a)).Ended ∧ ∃ threads : List ThreadStep,
      (σ.step (.system a)).view =
        threads.foldl DelayedBuffer.threadStep σ.view := by
  cases a with
  | start | stop | onException => exact ⟨hended, [], rfl⟩
  | call i result =>
    exact exec_change (σ.system.callStep_change i result) hended hone
  | reconnector k result =>
    exact exec_change (σ.system.reconnectorStep_change k result) hended hone
  | delayedSender k result => exact exec_delayedSender hended k result

end BufferedSender

/-! ## Runs -/

/-- The argument of a call of `send`. -/
def OutageStep.sends {S M : Type} : OutageStep S M → List (Serializable S M)
  | .send object => [object]
  | .thread _ => []

def BufferedStep.sends {S M : Type} :
    BufferedStep S M → List (Serializable S M)
  | .send object => [object]
  | .caller _ | .system _ => []

namespace BufferedSender

variable {S M : Type} [DecidableEq S] {σ : BufferedSender S M}

theorem exec_threads (bufferSize : Int) (β : DelayedBuffer S M)
    (threads : List ThreadStep) :
    (DelayedBuffer.outageMachine bufferSize).exec β
        (threads.map OutageStep.thread) =
      threads.foldl DelayedBuffer.threadStep β :=
  List.foldl_map

theorem step_simulates (bufferSize : Int) (hended : σ.Ended)
    {a : BufferedStep S M} (hone : σ.OneAtATime a) :
    (σ.step a).Ended ∧ ∃ outage : List (OutageStep S M),
      outage.flatMap OutageStep.sends = a.sends ∧
      (σ.step a).view =
        (DelayedBuffer.outageMachine bufferSize).exec σ.view outage := by
  cases a with
  | send x => exact ⟨hended, [.send x], rfl, σ.view_send x⟩
  | caller result =>
    exact ⟨hended, [.thread (.caller result)], rfl, σ.view_caller result⟩
  | system a =>
    obtain ⟨hnext, threads, hview⟩ := exec_system hended hone
    refine ⟨hnext, threads.map .thread, ?_, ?_⟩
    · simp [List.flatMap_map, OutageStep.sends, BufferedStep.sends]
    · rw [exec_threads]
      exact hview

/-- With one delayed sender at a time the buffer does what it does in a run of
the outage machine with the same calls of `send`. -/
theorem view_run (bufferSize : Int) (steps : List (BufferedStep S M))
    (h : (machine bufferSize).Along OneAtATime steps) :
    ∃ outage : List (OutageStep S M),
      outage.flatMap OutageStep.sends = steps.flatMap BufferedStep.sends ∧
      (run bufferSize steps).view =
        (DelayedBuffer.outageMachine bufferSize).run outage :=
  ((machine bufferSize).along_simulates (DelayedBuffer.outageMachine bufferSize)
    (I := Ended) ⟨nofun, rfl⟩
    (fun _ _ hended hone => step_simulates bufferSize hended hone) h).2

/-- The sessions that the producer has taken, in order. -/
def delivered (σ : BufferedSender S M) : List S :=
  σ.system.sender.sent.filterMap DelayedBuffer.session?

/-- A successful start. -/
def started : List SenderSystem.Action :=
  .start :: List.replicate 10 (.call 0 .returns)

/-- A reconnector starts the sender again. -/
def reconnects : List SenderSystem.Action :=
  List.replicate 15 (.reconnector 0 .returns)

/-- The connection fails before the thread of the delayed sender has begun, so
nobody stops it. -/
def overlapping : List SenderSystem.Action :=
  started ++ [.onException] ++ List.replicate 5 (.call 1 .returns) ++ reconnects

/-- The first pass of a delayed sender, up to its first send. -/
def pass (k : Nat) : List SenderSystem.Action :=
  List.replicate 8 (.delayedSender k .returns)

/-- A session is put into the buffer. -/
def accepts : List (BufferedStep Nat Nat) :=
  [.send (.session 7), .caller .returns, .caller .returns]

set_option maxRecDepth 2048 in
/-- Two delayed senders give the producer one session twice. -/
theorem delivered_twice :
    let σ := run 10
      (overlapping.map .system ++ accepts ++ (pass 0 ++ pass 1).map .system)
    σ.delivered = [7, 7] ∧ σ.accepted = [7] := by
  decide

end BufferedSender

end Sipana
