import Sipana.Sender.Reconnect

/-!
# The resources of the sender

`start` creates a connection and a delayed sender and overwrites the references
to the ones before. Nothing else closes a connection except `stop`, and `stop`
leaves the state at RUNNING. `onException` closes no connection, and it stops a
delayed sender only when its thread has set the flag already. So each method
relies on what the others have left behind.

The resources form a small machine of their own. The methods of the sender
refine it as long as they meet its guards, and the guards keep the resources
consistent.
-/

namespace Sipana

/-- The thread runs its loop or is going to, unless somebody stops it. -/
def DelayedSender.Alive {S : Type} (d : DelayedSender S) : Prop :=
  d.pc = .ready ∨ d.running = true

instance {S : Type} [DecidableEq S] (d : DelayedSender S) :
    Decidable d.Alive :=
  inferInstanceAs (Decidable (_ ∨ _))

/-- Connections, delayed senders and what the sender makes of them. -/
structure Resources (S : Type) where
  state : SenderState
  connection : Option Nat
  connections : List Bool
  delayedSenders : List (DelayedSender S)

namespace Resources

variable {S : Type} {ρ ρ' : Resources S}

/-- The current connection is open. -/
def CurrentOpen (ρ : Resources S) : Prop :=
  (ρ.connection.bind fun c => ρ.connections[c]?) = some true

instance (ρ : Resources S) : Decidable ρ.CurrentOpen :=
  inferInstanceAs (Decidable (_ = _))

/-- At most one connection is open, at most one delayed sender is alive, and a
sender that says it runs has an open connection. -/
structure Consistent (ρ : Resources S) : Prop where
  oneOpen : Threads.AtMostOne (· = true) ρ.connections
  oneAlive : Threads.AtMostOne DelayedSender.Alive ρ.delayedSenders
  running : ρ.state = .running → ρ.CurrentOpen

/-- The changes that keep the resources consistent. -/
inductive Effect (ρ : Resources S) : Resources S → Prop
  | rests {state} : (state = .running → ρ.state = .running) →
      Effect ρ { ρ with state := state }
  | runs : ρ.CurrentOpen → Effect ρ { ρ with state := .running }
  | connects : ¬ ρ.CurrentOpen →
      Effect ρ { ρ with
        connection := some ρ.connections.length
        connections := ρ.connections ++ [true] }
  | closes {c} : ρ.state ≠ .running → ρ.connection = some c →
      Effect ρ { ρ with connections := ρ.connections.set c false }
  | starts : (∀ d ∈ ρ.delayedSenders, ¬ d.Alive) →
      Effect ρ { ρ with delayedSenders := ρ.delayedSenders ++ [{}] }
  | moves {k d d'} : ρ.delayedSenders[k]? = some d → (d'.Alive → d.Alive) →
      Effect ρ { ρ with delayedSenders := ρ.delayedSenders.set k d' }

/-- An open connection is the current one. -/
structure Owned (ρ : Resources S) : Prop where
  current : ∀ c, ρ.connections[c]? = some true → ρ.connection = some c
  oneAlive : Threads.AtMostOne DelayedSender.Alive ρ.delayedSenders
  running : ρ.state = .running → ρ.CurrentOpen

theorem Owned.consistent (h : Owned ρ) : Consistent ρ := by
  refine ⟨?_, h.oneAlive, h.running⟩
  intro j k a b hj ha hk hb
  subst ha hb
  exact Option.some.inj ((h.current j hj).symm.trans (h.current k hk))

/-- Without an open current connection there is no open connection at all. -/
theorem Owned.none_open (h : Owned ρ) (hcurrent : ¬ ρ.CurrentOpen) (c : Nat) :
    ρ.connections[c]? ≠ some true := by
  intro hopen
  apply hcurrent
  simp [CurrentOpen, h.current c hopen, hopen]

theorem owned_effect (h : Owned ρ) (heff : Effect ρ ρ') : Owned ρ' := by
  cases heff with
  | rests hstate =>
    exact ⟨h.current, h.oneAlive, fun hrun => h.running (hstate hrun)⟩
  | runs hopen => exact ⟨h.current, h.oneAlive, fun _ => hopen⟩
  | connects hnone =>
    refine ⟨?_, h.oneAlive, ?_⟩
    · intro c hc
      rcases Nat.lt_or_ge c ρ.connections.length with hlt | hge
      · rw [List.getElem?_append_left hlt] at hc
        exact absurd hc (h.none_open hnone c)
      · have hlt := (List.getElem?_eq_some_iff.mp hc).1
        rw [List.length_append, List.length_singleton] at hlt
        exact congrArg some (by omega)
    · intro _
      simp [CurrentOpen]
  | @closes c hstate hcurrent =>
    refine ⟨?_, h.oneAlive, fun hrun => absurd hrun hstate⟩
    intro c' hc'
    rw [List.getElem?_set] at hc'
    split at hc'
    · split at hc' <;> simp at hc'
    · exact h.current c' hc'
  | starts hnone =>
    exact ⟨h.current, Threads.atMostOne_append hnone _, h.running⟩
  | moves hk hown => exact ⟨h.current, h.oneAlive.set hk hown, h.running⟩

end Resources

/-- The call has come to its end. -/
def Frame.Returned : Frame → Prop
  | .start pc => pc = .returned
  | .stop pc => pc = .returned
  | .onException pc => pc = .returned

instance (f : Frame) : Decidable f.Returned :=
  match f with
  | .start pc => inferInstanceAs (Decidable (pc = .returned))
  | .stop pc => inferInstanceAs (Decidable (pc = .returned))
  | .onException pc => inferInstanceAs (Decidable (pc = .returned))

namespace SenderSystem

variable {S M : Type} {σ : SenderSystem S M}

def resources (σ : SenderSystem S M) : Resources S :=
  ⟨σ.sender.state, σ.sender.connection, σ.connections, σ.delayedSenders⟩

/-! ## The guards of the methods -/

/-- `start` creates a connection when it has no open one and a delayed sender
when none is alive, and its connection is open when it reports RUNNING. -/
def StartGuard (ρ : Resources S) (result : JMSResult) : StartPc → Prop
  | .createConnection => result = .returns → ¬ ρ.CurrentOpen
  | .setRunning => ρ.CurrentOpen
  | .startDelayedSender => ∀ d ∈ ρ.delayedSenders, ¬ d.Alive
  | _ => True

/-- `stop` does not close the connection of a sender that runs. -/
def StopGuard (ρ : Resources S) (result : JMSResult) : StopPc → Prop
  | .closeConnection => result = .returns → ρ.state ≠ .running
  | _ => True

instance [DecidableEq S] (ρ : Resources S) (result : JMSResult)
    (pc : StartPc) : Decidable (StartGuard ρ result pc) := by
  unfold StartGuard
  split <;> infer_instance

instance (ρ : Resources S) (result : JMSResult) (pc : StopPc) :
    Decidable (StopGuard ρ result pc) := by
  unfold StopGuard
  split <;> infer_instance

/-- Where the thread of a reconnector is in `start`. -/
def startPc? (σ : SenderSystem S M) (k : Nat) : Option StartPc :=
  match σ.reconnectors[k]?.map SenderReconnector.pc with
  | some (.starting pc) => some pc
  | _ => none

def FrameGuard (ρ : Resources S) (result : JMSResult) : Frame → Prop
  | .start pc => StartGuard ρ result pc
  | .stop pc => StopGuard ρ result pc
  | .onException _ => True

instance [DecidableEq S] (ρ : Resources S) (result : JMSResult) (f : Frame) :
    Decidable (FrameGuard ρ result f) :=
  match f with
  | .start pc => inferInstanceAs (Decidable (StartGuard ρ result pc))
  | .stop pc => inferInstanceAs (Decidable (StopGuard ρ result pc))
  | .onException _ => instDecidableTrue

/-- The call that moves meets the guard of its next step. -/
def Guarded (σ : SenderSystem S M) : Action → Prop
  | .call i result => ∀ f ∈ σ.calls[i]?, FrameGuard σ.resources result f
  | .reconnector k result =>
    ∀ pc ∈ σ.startPc? k, StartGuard σ.resources result pc
  | .start | .stop | .onException | .delayedSender _ _ => True

instance [DecidableEq S] (σ : SenderSystem S M) (a : Action) :
    Decidable (Guarded σ a) :=
  match a with
  | .call i result => inferInstanceAs
    (Decidable (∀ f ∈ σ.calls[i]?, FrameGuard σ.resources result f))
  | .reconnector k result => inferInstanceAs
    (Decidable (∀ pc ∈ σ.startPc? k, StartGuard σ.resources result pc))
  | .start | .stop | .onException | .delayedSender _ _ => instDecidableTrue

/-! ## The methods refine the resources -/

open Resources

theorem effect_rfl (ρ : Resources S) : Effect ρ ρ := .rests id

theorem startStep_resources {result : JMSResult} {pc : StartPc}
    (h : StartGuard σ.resources result pc) :
    Effect σ.resources (σ.startStep result pc).1.resources := by
  cases pc with
  | createConnection =>
    cases result with
    | returns => exact .connects (h rfl)
    | throws => exact effect_rfl _
  | setRunning => exact .runs h
  | startDelayedSender => exact .starts h
  | setFailed => exact .rests nofun
  | testReconnector =>
    cases hk : σ.sender.reconnector <;> simp only [startStep, hk] <;>
      exact effect_rfl _
  | startReconnector | returned => exact effect_rfl _
  | _ => cases result <;> exact effect_rfl _

/-- `running.set(false)` stops a delayed sender. -/
theorem clear_resources (σ : SenderSystem S M) (k : Nat) :
    Effect σ.resources (σ.clearDelayedSender k).resources := by
  have hclear : (σ.clearDelayedSender k).delayedSenders =
      ((fun d => σ.delayedSenders.set k { d with running := false }) <$>
        σ.delayedSenders[k]?).getD σ.delayedSenders :=
    List.modify_eq_set_getElem? _ _ _
  cases hd : σ.delayedSenders[k]? with
  | none =>
    rw [hd] at hclear
    have heq : (σ.clearDelayedSender k).resources = σ.resources := by
      simp only [resources, hclear]
      rfl
    exact heq ▸ effect_rfl _
  | some d =>
    rw [hd] at hclear
    have heq : (σ.clearDelayedSender k).resources =
        { σ.resources with
          delayedSenders :=
            σ.delayedSenders.set k { d with running := false } } := by
      simp only [resources, hclear]
      rfl
    rw [heq]
    refine .moves hd ?_
    intro halive
    exact halive.imp_right nofun

theorem stopStep_resources {result : JMSResult} {pc : StopPc}
    (h : StopGuard σ.resources result pc) :
    Effect σ.resources (σ.stopStep result pc).1.resources := by
  cases pc with
  | stopDelayedSender =>
    cases hd : σ.sender.delayedSender <;> simp only [stopStep, hd] <;>
      exact effect_rfl _
  | clearRunning k => exact clear_resources σ k
  | closeConnection =>
    cases result with
    | returns =>
      cases hc : σ.sender.connection with
      | none =>
        simp only [stopStep, hc]
        exact effect_rfl _
      | some c =>
        simp only [stopStep, hc]
        exact .closes (h rfl) hc
    | throws => exact effect_rfl _
  | _ => exact effect_rfl _

theorem onExceptionStep_resources (σ : SenderSystem S M) (pc : OnExceptionPc) :
    Effect σ.resources (σ.onExceptionStep pc).1.resources := by
  cases pc with
  | setFailed => exact .rests nofun
  | testDelayedSenderRunning | stopDelayedSender =>
    cases hd : σ.sender.delayedSender <;> simp only [onExceptionStep, hd] <;>
      exact effect_rfl _
  | clearRunning k => exact clear_resources σ k
  | _ => exact effect_rfl _

theorem callStep_resources {i : Nat} {result : JMSResult}
    (h : Guarded σ (.call i result)) :
    Effect σ.resources (σ.callStep i result).resources := by
  unfold callStep
  cases hf : σ.calls[i]? with
  | none => exact effect_rfl _
  | some f =>
    have hguard : FrameGuard σ.resources result f := h f hf
    cases f with
    | start pc => exact startStep_resources hguard
    | stop pc => exact stopStep_resources hguard
    | onException pc => exact onExceptionStep_resources σ pc

theorem reconnectorStep_resources {k : Nat} {result : JMSResult}
    (h : Guarded σ (.reconnector k result)) :
    Effect σ.resources (σ.reconnectorStep k result).resources := by
  unfold Guarded startPc? at h
  unfold reconnectorStep
  cases hr : σ.reconnectors[k]? with
  | none => exact effect_rfl _
  | some r =>
    cases hpc : r.pc with
    | starting pc =>
      simp only [hpc]
      exact startStep_resources (h pc (by simp [hr, hpc]))
    | _ =>
      simp only [hpc]
      exact effect_rfl _

/-- Once the thread has begun it leaves its flag alone. -/
theorem step_running [DecidableEq S] {d : DelayedSender S}
    (hpc : d.pc ≠ .ready) (result : JMSResult) (sender : JMSSender S M) :
    (d.step result sender).2.running = d.running ∧
      (d.step result sender).2.pc ≠ .ready := by
  unfold DelayedSender.step
  cases hd : d.pc with
  | ready => exact absurd hd hpc
  | loopGuard | checkRunning | sessionsSize | sessionsRunning | messagesSize
  | messagesRunning =>
    refine ⟨rfl, ?_⟩
    simp only [DelayedSender.goto]
    split <;> simp
  | sessionsSend x | messagesSend x =>
    simp only
    split <;> exact ⟨rfl, nofun⟩
  | stopped => exact ⟨rfl, hpc⟩
  | _ => exact ⟨rfl, nofun⟩

/-- The thread of a delayed sender does not come back to life. -/
theorem alive_of_step [DecidableEq S] {d : DelayedSender S}
    {result : JMSResult} {sender : JMSSender S M}
    (h : (d.step result sender).2.Alive) : d.Alive := by
  by_cases hpc : d.pc = .ready
  · exact Or.inl hpc
  · obtain ⟨hrunning, hnot⟩ := step_running hpc result sender
    rcases h with h | h
    · exact absurd h hnot
    · exact Or.inr (hrunning ▸ h)

theorem delayedSenderStep_resources [DecidableEq S] (σ : SenderSystem S M)
    (k : Nat) (result : JMSResult) :
    Effect σ.resources (σ.delayedSenderStep k result).resources := by
  unfold delayedSenderStep
  cases hd : σ.delayedSenders[k]? with
  | none => exact effect_rfl _
  | some d =>
    obtain ⟨sessions, sent, -, hframe⟩ := d.step_frame result σ.sender
    simp only [resources, hframe]
    exact .moves hd alive_of_step

/-- Steps that meet their guard refine the resources. -/
theorem step_resources [DecidableEq S] {a : Action} (h : Guarded σ a) :
    Effect σ.resources (σ.step a).resources := by
  cases a with
  | start | stop | onException => exact effect_rfl _
  | call i result => exact callStep_resources h
  | delayedSender k result => exact delayedSenderStep_resources σ k result
  | reconnector k result => exact reconnectorStep_resources h

/-- In a run whose steps meet their guards the resources stay consistent. -/
theorem resources_consistent [DecidableEq S] (isDelayed : Bool)
    (bufferSize : Int) (actions : List Action)
    (h : (machine isDelayed bufferSize).Along
      (Guarded (S := S) (M := M)) actions) :
    ((machine (S := S) (M := M) isDelayed bufferSize).run
      actions).resources.Consistent := by
  have howned := (machine (S := S) (M := M) isDelayed
    bufferSize).along_invariant (I := fun σ => Owned σ.resources)
      ⟨fun c hc => by simp [machine, new, resources] at hc,
        Threads.atMostOne_nil _, nofun⟩
      (fun _ a hσ hguard => owned_effect hσ (step_resources hguard)) h
  exact howned.consistent

/-- The connection fails while `stop` is about to close it, and a reconnector
starts the sender again. -/
def failedStop : List Action :=
  .start :: List.replicate 10 (.call 0 .returns) ++
    [.delayedSender 0 .returns] ++
    .stop :: List.replicate 4 (.call 1 .returns) ++
    .onException :: List.replicate 5 (.call 2 .returns) ++
    .call 1 .returns :: List.replicate 15 (.reconnector 0 .returns)

set_option maxRecDepth 2048 in
theorem resources_consistent_restarted :
    let σ := (machine (S := Nat) (M := Nat) true 10).run failedStop
    σ.connections = [false, true] ∧ σ.delayedSenders.length = 2 ∧
      σ.sender.state = .running ∧ σ.resources.Consistent := by
  refine ⟨by decide, by decide, by decide, ?_⟩
  exact resources_consistent true 10 failedStop (by decide)

/-! ## Runs that leave the guards -/

/-- No call of `start`, `stop` or `onException` is in progress. -/
def Quiet (σ : SenderSystem S M) : Prop :=
  (∀ f ∈ σ.calls, f.Returned) ∧ ∀ r ∈ σ.reconnectors, ¬ r.IsStarting

instance (σ : SenderSystem S M) : Decidable (Quiet σ) :=
  inferInstanceAs (Decidable (_ ∧ _))

/-- An exception is reported by an open connection. -/
def ExceptionFromOpen (σ : SenderSystem S M) (a : Action) : Prop :=
  a = .onException → true ∈ σ.connections

instance (σ : SenderSystem S M) (a : Action) :
    Decidable (ExceptionFromOpen σ a) :=
  inferInstanceAs (Decidable (_ → _))

/-- `P` holds in the quiet states after one call of `start`. -/
def AlwaysQuietly (P : Resources Nat → Prop) : Prop :=
  ∀ actions, Action.start ∉ actions →
    (machine (S := Nat) (M := Nat) true 10).Along ExceptionFromOpen
      (.start :: actions) →
    Quiet ((machine (S := Nat) (M := Nat) true 10).run (.start :: actions)) →
    P ((machine (S := Nat) (M := Nat) true 10).run (.start :: actions)).resources

/-- A reconnection leaves the old connection open, and the delayed sender whose
thread had not begun yet alive. After `stop` the state is still RUNNING. -/
theorem resources_leak :
    ¬ AlwaysQuietly (fun ρ => Threads.AtMostOne (· = true) ρ.connections) ∧
    ¬ AlwaysQuietly (fun ρ =>
      Threads.AtMostOne DelayedSender.Alive ρ.delayedSenders) ∧
    ¬ AlwaysQuietly (fun ρ => ρ.state = .running → ρ.CurrentOpen) := by
  let reconnect : List Action :=
    List.replicate 10 (.call 0 .returns) ++
      [.onException] ++ List.replicate 5 (.call 1 .returns) ++
      List.replicate 15 (.reconnector 0 .returns)
  let stop : List Action :=
    List.replicate 10 (.call 0 .returns) ++
      [.stop] ++ List.replicate 5 (.call 1 .returns)
  refine ⟨?_, ?_, ?_⟩
  · intro h
    have hone := h reconnect (by decide) (by decide) (by decide)
    exact absurd (hone 0 1 true true (by decide) rfl (by decide) rfl)
      (by decide)
  · intro h
    have hone := h reconnect (by decide) (by decide) (by decide)
    exact absurd
      (hone 0 1 {} {} (by decide) (by decide) (by decide) (by decide))
      (by decide)
  · intro h
    have hopen := h stop (by decide) (by decide) (by decide)
    exact absurd (hopen (by decide)) (by decide)

end SenderSystem

end Sipana
