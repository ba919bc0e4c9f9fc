import Sipana.Sender.Immediate

/-!
# The JMS objects are there when they are used

`start` assigns the connection, the session and the producer one after another,
and any number of threads may be inside it at once. Nobody ever assigns `null`
to them again. So whoever comes to use one of them finds it: `start` itself,
`stop` when it closes the connection, a delayed sender, and `send` once it has
seen the state RUNNING (`jms_objects_exist`, `send_ends_as_producer`).

The same is not true of `delayedSender`: `onException` assigns `null` to it,
which may come between a test and a use.
-/

namespace Sipana

namespace JMSSender

variable {S M : Type} {s t u : JMSSender S M}

/-- A connection has been created, and what belongs to it. -/
structure Connected (s : JMSSender S M) : Prop where
  connection : s.connection ≠ none
  producer : s.HasProducer

/-- What has been created is still there. -/
structure Holds (s t : JMSSender S M) : Prop where
  connection : s.connection ≠ none → t.connection ≠ none
  session : s.session ≠ none → t.session ≠ none
  producer : s.producer ≠ none → t.producer ≠ none

theorem Holds.refl (s : JMSSender S M) : s.Holds s := ⟨id, id, id⟩

theorem Connected.holds (h : s.Connected) (hst : s.Holds t) : t.Connected :=
  ⟨hst.connection h.connection, hst.session h.producer.1,
    hst.producer h.producer.2⟩

/-- What a thread inside `start` has created before it gets to `pc`. -/
def Created (s : JMSSender S M) : StartPc → Prop
  | .setExceptionListener | .createSession => s.connection ≠ none
  | .createProducer => s.connection ≠ none ∧ s.session ≠ none
  | .setRunning | .startDelayedSender => s.Connected
  | .initialContext | .lookupFactory | .lookupDestination | .closeContext
  | .createConnection | .setFailed | .testReconnector | .startReconnector
  | .returned => True

theorem Created.holds {pc : StartPc} (h : s.Created pc) (hst : s.Holds t) :
    t.Created pc := by
  cases pc with
  | setExceptionListener | createSession => exact hst.connection h
  | createProducer => exact ⟨hst.connection h.1, hst.session h.2⟩
  | setRunning | startDelayedSender => exact Connected.holds h hst
  | _ => trivial

/-- What a call of `start` or `stop` relies on. -/
def Supports (s : JMSSender S M) : Frame → Prop
  | .start pc => s.Created pc
  | .stop .closeConnection => s.connection ≠ none
  | .stop _ | .onException _ => True

theorem Supports.holds {frame : Frame} (h : s.Supports frame)
    (hst : s.Holds t) : t.Supports frame := by
  cases frame with
  | start pc => exact Created.holds h hst
  | stop pc =>
    cases pc with
    | closeConnection => exact hst.connection h
    | _ => trivial
  | onException pc => trivial

end JMSSender

/-- What the thread of a reconnector relies on. -/
def SenderReconnector.Supported {S M : Type} (s : JMSSender S M)
    (r : SenderReconnector) : Prop :=
  ∀ pc, r.pc = .starting pc → s.Created pc

/-- A reconnector enters `start` at its beginning. -/
theorem SenderReconnector.supported_step {S M : Type} {s : JMSSender S M}
    {r : SenderReconnector} (h : r.Supported s) (state : SenderState) :
    (r.step state).Supported s := by
  intro pc hpc
  unfold step at hpc
  cases hr : r.pc with
  | testRunning =>
    simp only [hr, goto] at hpc
    split at hpc
    · obtain rfl := SenderReconnectorPc.starting.inj hpc
      trivial
    · cases hpc
  | guardState | guardRunning =>
    simp only [hr, goto] at hpc
    split at hpc <;> cases hpc
  | ready | waiting | clearRunning =>
    simp only [hr, goto] at hpc
    cases hpc
  | starting _ | left =>
    simp only [hr] at hpc
    exact h pc (hr.trans hpc)

namespace SenderSystem

variable {S M : Type} {σ τ : SenderSystem S M}

/-- Everybody finds the JMS objects that they are going to use. -/
structure Equipped (σ : SenderSystem S M) : Prop where
  running : σ.sender.isRunning = true → σ.sender.Connected
  delayedSenders : σ.delayedSenders ≠ [] → σ.sender.Connected
  calls : ∀ frame ∈ σ.calls, σ.sender.Supports frame
  reconnectors : ∀ r ∈ σ.reconnectors, r.Supported σ.sender

/-- A step that gives up nothing and asks for nothing that is not there. -/
structure Advances (σ τ : SenderSystem S M) : Prop where
  holds : σ.sender.Holds τ.sender
  running : τ.sender.isRunning = true →
    σ.sender.isRunning = true ∨ τ.sender.Connected
  delayedSenders : τ.delayedSenders ≠ [] →
    σ.delayedSenders ≠ [] ∨ τ.sender.Connected
  calls : ∀ frame ∈ τ.calls, frame ∈ σ.calls ∨ τ.sender.Supports frame
  reconnectors : ∀ r ∈ τ.reconnectors,
    r ∈ σ.reconnectors ∨ r.Supported τ.sender

theorem Equipped.advances (h : Equipped σ) (hadv : Advances σ τ) :
    Equipped τ := by
  refine ⟨?_, ?_, ?_, ?_⟩
  · intro hrun
    rcases hadv.running hrun with hold | hnew
    · exact (h.running hold).holds hadv.holds
    · exact hnew
  · intro hsome
    rcases hadv.delayedSenders hsome with hold | hnew
    · exact (h.delayedSenders hold).holds hadv.holds
    · exact hnew
  · intro frame hframe
    rcases hadv.calls frame hframe with hold | hnew
    · exact (h.calls frame hold).holds hadv.holds
    · exact hnew
  · intro r hr
    rcases hadv.reconnectors r hr with hold | hnew
    · intro pc hpc
      exact (h.reconnectors r hold pc hpc).holds hadv.holds
    · exact hnew

theorem advances_refl (σ : SenderSystem S M) : Advances σ σ :=
  ⟨JMSSender.Holds.refl _, Or.inl, Or.inl, fun _ => Or.inl, fun _ => Or.inl⟩

/-- Everybody is where they were, and the state is not RUNNING now. -/
theorem advances_same (hholds : σ.sender.Holds τ.sender)
    (hrun : τ.sender.isRunning = true → σ.sender.isRunning = true)
    (hdelayed : τ.delayedSenders = σ.delayedSenders)
    (hcalls : τ.calls = σ.calls) (hreconnectors : τ.reconnectors =
      σ.reconnectors) : Advances σ τ :=
  ⟨hholds, fun h => Or.inl (hrun h), fun h => Or.inl (hdelayed ▸ h),
    fun _ h => Or.inl (hcalls ▸ h), fun _ h => Or.inl (hreconnectors ▸ h)⟩

/-- The frame of a call is put back. -/
theorem Advances.setCall (h : Advances σ τ) (i : Nat) {frame : Frame}
    (hframe : τ.sender.Supports frame) :
    Advances σ { τ with calls := τ.calls.set i frame } := by
  obtain ⟨hholds, hrunning, hdelayed, hcalls, hreconnectors⟩ := h
  refine ⟨hholds, hrunning, hdelayed, ?_, hreconnectors⟩
  intro f hf
  rcases List.mem_or_eq_of_mem_set hf with hold | rfl
  · exact hcalls f hold
  · exact Or.inr hframe

/-- A reconnector is put back. -/
theorem Advances.setReconnector (h : Advances σ τ) (k : Nat)
    {r : SenderReconnector} (hr : r.Supported τ.sender) :
    Advances σ { τ with reconnectors := τ.reconnectors.set k r } := by
  obtain ⟨hholds, hrunning, hdelayed, hcalls, hreconnectors⟩ := h
  refine ⟨hholds, hrunning, hdelayed, hcalls, ?_⟩
  intro r' hr'
  rcases List.mem_or_eq_of_mem_set hr' with hold | rfl
  · exact hreconnectors r' hold
  · exact Or.inr hr

/-! ## The methods -/

theorem clearDelayedSender_advances (σ : SenderSystem S M) (k : Nat) :
    Advances σ (σ.clearDelayedSender k) := by
  refine ⟨JMSSender.Holds.refl _, Or.inl, ?_, fun _ => Or.inl,
    fun _ => Or.inl⟩
  intro hsome
  refine Or.inl fun hnone => hsome ?_
  show σ.delayedSenders.modify k _ = []
  rw [hnone, List.modify_nil]

theorem startSenderReconnector_advances (σ : SenderSystem S M) :
    Advances σ σ.startSenderReconnector := by
  refine ⟨⟨id, id, id⟩, Or.inl, Or.inl, fun _ => Or.inl, ?_⟩
  intro r hr
  rcases List.mem_append.mp hr with hold | hnew
  · exact Or.inl hold
  · rw [List.mem_singleton.mp hnew]
    exact Or.inr nofun

/-- A thread inside `start` finds what it has created, and creates the next. -/
theorem startStep_advances (result : JMSResult) {pc : StartPc}
    (h : σ.sender.Created pc) :
    Advances σ (σ.startStep result pc).1 ∧
      (σ.startStep result pc).1.sender.Created (σ.startStep result pc).2 := by
  have hsame := advances_refl σ
  cases pc with
  | initialContext | lookupFactory | lookupDestination | closeContext =>
    cases result <;> exact ⟨hsame, trivial⟩
  | createConnection =>
    cases result with
    | throws => exact ⟨hsame, trivial⟩
    | returns =>
      exact ⟨advances_same ⟨fun _ => nofun, id, id⟩ id rfl rfl rfl, nofun⟩
  | setExceptionListener =>
    cases result with
    | throws => exact ⟨hsame, trivial⟩
    | returns => exact ⟨hsame, h⟩
  | createSession =>
    cases result with
    | throws => exact ⟨hsame, trivial⟩
    | returns => exact ⟨advances_same ⟨id, fun _ => h, id⟩ id rfl rfl rfl, h, h⟩
  | createProducer =>
    obtain ⟨hconnection, hsession⟩ := h
    cases result with
    | throws => exact ⟨hsame, trivial⟩
    | returns =>
      exact ⟨advances_same ⟨id, id, fun _ => hsession⟩ id rfl rfl rfl,
        hconnection, hsession, hsession⟩
  | setRunning =>
    have hconnected : (σ.setState .running).sender.Connected :=
      ⟨h.connection, h.producer⟩
    refine ⟨⟨⟨id, id, id⟩, fun _ => Or.inr hconnected, Or.inl,
      fun _ => Or.inl, fun _ => Or.inl⟩, ?_⟩
    unfold startStep
    simp only
    split
    · exact hconnected
    · trivial
  | startDelayedSender =>
    have hconnected : σ.startDelayedSender.sender.Connected :=
      ⟨h.connection, h.producer⟩
    exact ⟨⟨⟨id, id, id⟩, Or.inl, fun _ => Or.inr hconnected, fun _ => Or.inl,
      fun _ => Or.inl⟩, trivial⟩
  | setFailed =>
    exact ⟨advances_same ⟨id, id, id⟩ (fun h => absurd h Bool.false_ne_true) rfl
      rfl rfl, trivial⟩
  | testReconnector =>
    unfold startStep
    simp only
    split
    · exact ⟨hsame, trivial⟩
    · refine ⟨hsame, ?_⟩
      simp only
      split <;> trivial
  | startReconnector => exact ⟨startSenderReconnector_advances σ, trivial⟩
  | returned => exact ⟨hsame, trivial⟩

/-- `stop` closes the connection of a sender that it has seen running. -/
theorem stopStep_advances (h : Equipped σ) (result : JMSResult) (pc : StopPc) :
    Advances σ (σ.stopStep result pc).1 ∧
      (σ.stopStep result pc).1.sender.Supports
        (.stop (σ.stopStep result pc).2) := by
  have hsame := advances_refl σ
  cases pc with
  | testDelayedSender =>
    refine ⟨hsame, ?_⟩
    unfold stopStep
    simp only
    split <;> trivial
  | stopDelayedSender =>
    unfold stopStep
    simp only
    split <;> exact ⟨hsame, trivial⟩
  | clearRunning k => exact ⟨clearDelayedSender_advances σ k, trivial⟩
  | testRunning =>
    refine ⟨hsame, ?_⟩
    unfold stopStep
    simp only
    split
    · next hrun => exact (h.running hrun).connection
    · trivial
  | closeConnection =>
    unfold stopStep
    simp only
    split
    · exact ⟨advances_same ⟨id, id, id⟩ id rfl rfl rfl, trivial⟩
    · exact ⟨hsame, trivial⟩
  | returned => exact ⟨hsame, trivial⟩

theorem onExceptionStep_advances (σ : SenderSystem S M) (pc : OnExceptionPc) :
    Advances σ (σ.onExceptionStep pc).1 := by
  have hsame := advances_refl σ
  cases pc with
  | setFailed =>
    exact advances_same ⟨id, id, id⟩ (fun h => absurd h Bool.false_ne_true) rfl
      rfl rfl
  | dropDelayedSender => exact advances_same ⟨id, id, id⟩ id rfl rfl rfl
  | clearRunning k => exact clearDelayedSender_advances σ k
  | startReconnector => exact startSenderReconnector_advances σ
  | testDelayedSenderRunning | stopDelayedSender =>
    unfold onExceptionStep
    simp only
    split <;> exact hsame
  | testRunning | testDelayedSender | returned => exact hsame

/-! ## The system -/

theorem callStep_advances (h : Equipped σ) (i : Nat) (result : JMSResult) :
    Advances σ (σ.callStep i result) := by
  unfold callStep
  split
  · exact advances_refl σ
  · next pc hpc =>
    have hcreated : σ.sender.Created pc :=
      h.calls _ (List.mem_of_getElem? hpc)
    obtain ⟨hadv, hnext⟩ := startStep_advances result hcreated
    exact hadv.setCall i hnext
  · next pc _ =>
    obtain ⟨hadv, hnext⟩ := stopStep_advances h result pc
    exact hadv.setCall i hnext
  · exact (onExceptionStep_advances σ _).setCall i trivial

theorem reconnectorStep_advances (h : Equipped σ) (k : Nat)
    (result : JMSResult) : Advances σ (σ.reconnectorStep k result) := by
  have hsame := advances_refl σ
  unfold reconnectorStep
  cases hr : σ.reconnectors[k]? with
  | none => exact hsame
  | some r =>
    have hsupported : r.Supported σ.sender :=
      h.reconnectors r (List.mem_of_getElem? hr)
    cases hpc : r.pc with
    | starting pc =>
      have hcreated : σ.sender.Created pc := hsupported pc hpc
      obtain ⟨hadv, hnext⟩ := startStep_advances result hcreated
      simp only [hpc]
      refine hadv.setReconnector k fun pc' hpc' => ?_
      simp only [SenderReconnector.goto] at hpc'
      split at hpc'
      · cases hpc'
      · obtain rfl := SenderReconnectorPc.starting.inj hpc'
        exact hnext
    | _ =>
      simp only [hpc]
      exact hsame.setReconnector k
        (SenderReconnector.supported_step hsupported _)

theorem delayedSenderStep_advances [DecidableEq S] (σ : SenderSystem S M)
    (k : Nat) (result : JMSResult) :
    Advances σ (σ.delayedSenderStep k result) := by
  unfold delayedSenderStep
  cases hd : σ.delayedSenders[k]? with
  | none => exact advances_refl σ
  | some d =>
    obtain ⟨sessions, sent, -, hframe⟩ := d.step_frame result σ.sender
    simp only [hframe]
    refine ⟨⟨id, id, id⟩, Or.inl, ?_, fun _ => Or.inl, fun _ => Or.inl⟩
    intro _
    exact Or.inl fun hnone => by simp [hnone] at hd

theorem step_advances [DecidableEq S] (h : Equipped σ) (a : Action) :
    Advances σ (σ.step a) := by
  cases a with
  | start | stop | onException =>
    refine ⟨⟨id, id, id⟩, Or.inl, Or.inl, ?_, fun _ => Or.inl⟩
    intro frame hframe
    rcases List.mem_append.mp hframe with hold | hnew
    · exact Or.inl hold
    · rw [List.mem_singleton.mp hnew]
      exact Or.inr trivial
  | call i result => exact callStep_advances h i result
  | delayedSender k result => exact delayedSenderStep_advances σ k result
  | reconnector k result => exact reconnectorStep_advances h k result

theorem equipped_new (isDelayed : Bool) (bufferSize : Int) :
    Equipped (new isDelayed bufferSize : SenderSystem S M) :=
  ⟨nofun, fun h => absurd rfl h, nofun, nofun⟩

/-- Whoever comes to use a JMS object finds it, in every run and in both modes:
while the state is RUNNING, while there is a delayed sender, at each step inside
`start`, and when `stop` closes the connection. -/
theorem jms_objects_exist [DecidableEq S] (isDelayed : Bool) (bufferSize : Int)
    (actions : List Action) :
    let σ : SenderSystem S M := (machine isDelayed bufferSize).run actions
    (σ.sender.isRunning = true → σ.sender.Connected) ∧
    (σ.delayedSenders ≠ [] → σ.sender.Connected) ∧
    (∀ frame ∈ σ.calls, σ.sender.Supports frame) ∧
    ∀ r ∈ σ.reconnectors, r.Supported σ.sender := by
  have h := (machine isDelayed bufferSize).run_invariant (I := Equipped)
    (equipped_new (S := S) (M := M) isDelayed bufferSize)
    (fun _ a h => h.advances (step_advances h a)) actions
  exact ⟨h.running, h.delayedSenders, h.calls, h.reconnectors⟩

end SenderSystem

/-! ## The immediate mode -/

namespace ImmediateSender

variable {S M : Type} {σ : ImmediateSender S M}

/-- `send` has seen the state RUNNING when it gets to `sendNow`. -/
structure Equipped (σ : ImmediateSender S M) : Prop where
  system : σ.system.Equipped
  sendNow : ∀ x, σ.caller = .sendNow x → σ.system.sender.Connected

theorem equipped_caller (h : Equipped σ) (result : JMSResult) :
    Equipped (σ.callerStep result) := by
  unfold callerStep
  cases hpc : σ.caller with
  | idle => exact h
  | testRunning x =>
    refine ⟨h.system, ?_⟩
    intro y hy
    simp only at hy
    split at hy
    · next hrun => exact h.system.running hrun
    · cases hy
  | sendNow x =>
    obtain ⟨sent, hsent⟩ := σ.system.sender.sendNow_frame result (some x)
    refine ⟨?_, nofun⟩
    refine h.system.advances (SenderSystem.advances_same ?_ ?_ rfl rfl rfl)
    · simp only [SenderSystem.assign, hsent]
      exact ⟨id, id, id⟩
    · simp only [SenderSystem.assign, hsent]
      exact id

variable [DecidableEq S]

theorem equipped_step (h : Equipped σ) (a : ImmediateStep S M) :
    Equipped (σ.step a) := by
  cases a with
  | send x =>
    show Equipped (σ.enter x)
    unfold enter
    split
    · exact ⟨h.system, nofun⟩
    · exact h
  | caller result => exact equipped_caller h result
  | system a =>
    have hadv := SenderSystem.step_advances h.system a
    exact ⟨h.system.advances hadv,
      fun x hx => (h.sendNow x hx).holds hadv.holds⟩

/-- `send` ends as the producer ends: it never meets a `null`. -/
theorem send_ends_as_producer (bufferSize : Int)
    (steps : List (ImmediateStep S M)) (x : Serializable S M)
    (hpc : (run bufferSize steps).caller = .sendNow x) (result : JMSResult) :
    ((run bufferSize steps).system.sender.sendNow result (some x)).2 =
      result := by
  have h : Equipped (run bufferSize steps) :=
    (machine bufferSize).run_invariant (I := Equipped)
      ⟨SenderSystem.equipped_new false bufferSize, nofun⟩
      (fun _ a h => equipped_step h a) steps
  have hproducer := (h.sendNow x hpc).producer
  cases result with
  | returns => rw [JMSSender.sendNow_returns hproducer]
  | throws =>
    unfold JMSSender.sendNow
    split <;> rfl

theorem started_send_ends :
    let σ : ImmediateSender Nat Nat := run 1
      (.system .start :: List.replicate 10 (.system (.call 0 .returns)) ++
        [.send (.session 7), .caller .returns])
    (σ.system.sender.sendNow .returns (some (.session 7))).2 = .returns :=
  send_ends_as_producer 1 _ (.session 7) (by decide) .returns

end ImmediateSender

end Sipana
