import Sipana.Lib.Threads
import Sipana.Sender.SenderSystem

/-!
# Reconnection

A failed sender should always have a reconnector at work. Between two methods
the obligation is carried by whoever is about to discharge it: a reconnector in
its loop, a call of `start` that has not decided yet whether to start one, or a
call of `onException` on its way to starting one (`Protected`).

The chain breaks at one point. The handler in `start` relies on a reconnector
whose flag is set, and the flag does not tell whether that reconnector goes on:
it is still set in the reconnector that is itself executing this `start`, which
leaves when `start` returns, and in one that has left because the sender was
running in between.
-/

namespace Sipana

/-! ## Who carries the obligation -/

/-- The reconnector is in its retry loop and will retry. -/
def SenderReconnector.Retrying (r : SenderReconnector) : Prop :=
  match r.pc with
  | .ready => True
  | .guardState | .guardRunning | .waiting | .testRunning => r.running = true
  | .starting _ | .clearRunning | .left => False

instance (r : SenderReconnector) : Decidable r.Retrying := by
  unfold SenderReconnector.Retrying
  split <;> infer_instance

/-- `start` has still to bring the sender up or to decide on a reconnector. -/
def StartPc.Decides : StartPc → Prop
  | .startDelayedSender | .returned => False
  | _ => True

/-- `onException` is going to start a reconnector. -/
def OnExceptionPc.Recovers {S M : Type} (sender : JMSSender S M) :
    OnExceptionPc → Prop
  | .testRunning | .setFailed | .returned => False
  | .testDelayedSenderRunning | .stopDelayedSender =>
    sender.delayedSender ≠ none
  | .testDelayedSender | .clearRunning _ | .dropDelayedSender
  | .startReconnector => True

def Frame.Protects {S M : Type} (sender : JMSSender S M) : Frame → Prop
  | .start pc => pc.Decides
  | .stop _ => False
  | .onException pc => pc.Recovers sender

def SenderReconnector.Protects (r : SenderReconnector) : Prop :=
  r.Retrying ∨ ∃ pc, r.pc = .starting pc ∧ pc.Decides

/-- The call is inside `start` or `onException`. -/
def Frame.InProgress : Frame → Prop
  | .start pc => pc ≠ .returned
  | .stop _ => False
  | .onException pc => pc ≠ .returned

instance (f : Frame) : Decidable f.InProgress := by
  unfold Frame.InProgress
  split <;> infer_instance

/-- The thread of the reconnector is inside `start`. -/
def SenderReconnector.IsStarting (r : SenderReconnector) : Prop :=
  match r.pc with
  | .starting _ => True
  | _ => False

instance (r : SenderReconnector) : Decidable r.IsStarting := by
  unfold SenderReconnector.IsStarting
  split <;> infer_instance

theorem Frame.Protects.inProgress {S M : Type} {sender : JMSSender S M}
    {f : Frame} (h : f.Protects sender) : f.InProgress := by
  cases f with
  | start pc =>
    intro hpc
    subst hpc
    exact h
  | stop pc => exact h
  | onException pc =>
    intro hpc
    subst hpc
    exact h

namespace SenderReconnector

theorem Retrying.not_starting {r : SenderReconnector} (h : r.Retrying)
    (pc : StartPc) : r.pc ≠ .starting pc := by
  intro hpc
  simp [Retrying, hpc] at h

theorem protects_starting {r : SenderReconnector} {pc : StartPc}
    (hpc : r.pc = .starting pc) : r.Protects ↔ pc.Decides := by
  refine ⟨?_, ?_⟩
  · intro hp
    rcases hp with h | ⟨pc', hpc', h⟩
    · exact absurd hpc (h.not_starting pc)
    · rw [hpc, SenderReconnectorPc.starting.injEq] at hpc'
      exact hpc' ▸ h
  · intro h
    exact Or.inr ⟨pc, hpc, h⟩

/-- While the sender is failed a reconnector does not give up by itself. -/
theorem Protects.step {r : SenderReconnector} (h : r.Protects)
    (hpc : ∀ pc, r.pc ≠ .starting pc) : (r.step .failed).Protects := by
  obtain ⟨running, pc⟩ := r
  rcases h with h | ⟨pc', hpc', -⟩
  · cases pc with
    | testRunning =>
      refine Or.inr ⟨.initialContext, ?_, trivial⟩
      simp_all [Retrying, SenderReconnector.step, goto]
    | _ =>
      exact Or.inl (by simp_all [Retrying, SenderReconnector.step, goto])
  · exact absurd hpc' (hpc pc')

end SenderReconnector

namespace SenderSystem

variable {S M : Type} {σ : SenderSystem S M}

/-- A failed sender is being taken care of. -/
def Protected (σ : SenderSystem S M) : Prop :=
  σ.sender.state = .failed →
    (∃ f ∈ σ.calls, f.Protects σ.sender) ∨ ∃ r ∈ σ.reconnectors, r.Protects

/-! ## What a step of each method can do -/

/-- A step of `start` from `pc` to the last argument. -/
inductive StartEffect (σ : SenderSystem S M) :
    StartPc → SenderSystem S M → StartPc → Prop
  | proceeds {pc σ' pc'} : pc'.Decides → σ'.calls = σ.calls →
      σ'.reconnectors = σ.reconnectors → StartEffect σ pc σ' pc'
  | succeeds {pc σ' pc'} : σ'.sender.state = .running →
      StartEffect σ pc σ' pc'
  | finishes {pc σ'} : ¬ pc.Decides → σ'.calls = σ.calls →
      σ'.reconnectors = σ.reconnectors →
      σ'.sender.state = σ.sender.state →
      (σ.sender.delayedSender ≠ none → σ'.sender.delayedSender ≠ none) →
      StartEffect σ pc σ' .returned
  | retries {σ' r} : r.Retrying → σ'.reconnectors = σ.reconnectors ++ [r] →
      StartEffect σ .startReconnector σ' .returned
  /-- The handler relies on the reconnector in charge. -/
  | relies {k r} : σ.sender.reconnector = some k →
      σ.reconnectors[k]? = some r → r.running = true →
      StartEffect σ .testReconnector σ .returned

theorem startStep_effect (result : JMSResult) (σ : SenderSystem S M)
    (pc : StartPc) :
    StartEffect σ pc (σ.startStep result pc).1 (σ.startStep result pc).2 := by
  cases pc with
  | setRunning => exact .succeeds rfl
  | startDelayedSender => exact .finishes id rfl rfl rfl (fun _ => nofun)
  | setFailed => exact .proceeds trivial rfl rfl
  | testReconnector =>
    unfold startStep
    cases hk : σ.sender.reconnector with
    | none => exact .proceeds trivial rfl rfl
    | some k =>
      cases hr : σ.reconnectors[k]? with
      | none =>
        simp only [reconnectorRuns, hr]
        exact .proceeds trivial rfl rfl
      | some r =>
        cases hrun : r.running with
        | true =>
          have hruns : σ.reconnectorRuns k = true := by
            simp [reconnectorRuns, hr, SenderReconnector.isRunning, hrun]
          simp only [hruns]
          exact .relies hk hr hrun
        | false =>
          have hruns : σ.reconnectorRuns k = false := by
            simp [reconnectorRuns, hr, SenderReconnector.isRunning, hrun]
          simp only [hruns]
          exact .proceeds trivial rfl rfl
  | startReconnector => exact .retries (r := {}) trivial rfl
  | returned => exact .finishes id rfl rfl rfl id
  | _ => cases result <;> exact .proceeds trivial rfl rfl

/-- A step of `onException` from `pc` to the last argument. -/
inductive OnExceptionEffect (σ : SenderSystem S M) :
    OnExceptionPc → SenderSystem S M → OnExceptionPc → Prop
  | idle {pc pc'} : ¬ pc.Recovers σ.sender → OnExceptionEffect σ pc σ pc'
  | proceeds {pc σ' pc'} : pc'.Recovers σ'.sender → σ'.calls = σ.calls →
      OnExceptionEffect σ pc σ' pc'
  | retries {pc σ' pc' r} : r.Retrying →
      σ'.reconnectors = σ.reconnectors ++ [r] → OnExceptionEffect σ pc σ' pc'

theorem onExceptionStep_effect (σ : SenderSystem S M) (pc : OnExceptionPc) :
    OnExceptionEffect σ pc (σ.onExceptionStep pc).1
      (σ.onExceptionStep pc).2 := by
  cases pc with
  | testRunning => exact .idle id
  | setFailed => exact .proceeds trivial rfl
  | testDelayedSender =>
    unfold onExceptionStep
    by_cases hd : σ.sender.delayedSender ≠ none
    · simp only [if_pos hd]
      exact .proceeds hd rfl
    · simp only [if_neg hd]
      exact .proceeds trivial rfl
  | testDelayedSenderRunning =>
    unfold onExceptionStep
    cases hd : σ.sender.delayedSender with
    | none => exact .idle (by simp [OnExceptionPc.Recovers, hd])
    | some k =>
      refine .proceeds ?_ rfl
      simp only
      split
      · simp [OnExceptionPc.Recovers, hd]
      · trivial
  | stopDelayedSender =>
    unfold onExceptionStep
    cases hd : σ.sender.delayedSender with
    | none => exact .idle (by simp [OnExceptionPc.Recovers, hd])
    | some k => exact .proceeds trivial rfl
  | clearRunning k => exact .proceeds trivial rfl
  | dropDelayedSender => exact .proceeds trivial rfl
  | startReconnector => exact .retries (r := {}) trivial rfl
  | returned => exact .idle id

/-- `stop` touches neither the state nor the reconnectors. -/
theorem stopStep_frame (result : JMSResult) (σ : SenderSystem S M)
    (pc : StopPc) :
    (σ.stopStep result pc).1.sender = σ.sender ∧
      (σ.stopStep result pc).1.calls = σ.calls ∧
      (σ.stopStep result pc).1.reconnectors = σ.reconnectors := by
  cases pc with
  | stopDelayedSender =>
    cases hd : σ.sender.delayedSender <;> simp [stopStep, hd]
  | closeConnection =>
    cases hc : σ.sender.connection <;> cases result <;> simp [stopStep, hc]
  | _ => exact ⟨rfl, rfl, rfl⟩

/-! ## The chain of obligations -/

/-- The action makes `start` ask whether the reconnector is running. -/
def TestsReconnector (σ : SenderSystem S M) : Action → Prop
  | .call i _ => σ.calls[i]? = some (.start .testReconnector)
  | .reconnector k _ =>
    (σ.reconnectors[k]?.map SenderReconnector.pc) =
      some (.starting .testReconnector)
  | _ => False

instance (σ : SenderSystem S M) (a : Action) :
    Decidable (TestsReconnector σ a) := by
  unfold TestsReconnector
  split <;> infer_instance

/-- The flag of the reconnector in charge can be relied on. -/
def Reliable (σ : SenderSystem S M) : Prop :=
  ∀ r ∈ σ.sender.reconnector.bind fun k => σ.reconnectors[k]?,
    r.running = true → r.Retrying

instance (σ : SenderSystem S M) : Decidable (Reliable σ) :=
  inferInstanceAs (Decidable (∀ r ∈ _, _))

theorem Reliable.exists_retrying (h : Reliable σ) {k : Nat}
    {r : SenderReconnector} (hk : σ.sender.reconnector = some k)
    (hr : σ.reconnectors[k]? = some r) (hrun : r.running = true) :
    ∃ r ∈ σ.reconnectors, r.Retrying :=
  ⟨r, List.mem_of_getElem? hr, h r (by simp [hk, hr]) hrun⟩

/-- If `start` asks whether the reconnector is running, and its flag says so,
that reconnector is going to retry. -/
def FlagIsReliable (σ : SenderSystem S M) (a : Action) : Prop :=
  TestsReconnector σ a → Reliable σ

instance (σ : SenderSystem S M) (a : Action) : Decidable (FlagIsReliable σ a) :=
  inferInstanceAs (Decidable (_ → _))

/-- A call keeps its obligation as long as the delayed sender is not dropped. -/
theorem protects_mono {sender sender' : JMSSender S M}
    (h : sender.delayedSender ≠ none → sender'.delayedSender ≠ none)
    {f : Frame} (hf : f.Protects sender) : f.Protects sender' := by
  cases f with
  | start pc => exact hf
  | stop pc => exact hf
  | onException pc =>
    cases pc with
    | testDelayedSenderRunning | stopDelayedSender => exact h hf
    | _ => exact hf

theorem protected_enter (h : Protected σ) (f : Frame) :
    Protected (σ.enter f) := by
  intro hfail
  refine (h hfail).imp_left fun ⟨g, hg, hp⟩ => ?_
  exact ⟨g, List.mem_append_left _ hg, hp⟩

/-- A step of `start` in a call from outside. -/
theorem protected_start (h : Protected σ) {i : Nat} {pc pc' : StartPc}
    {σ' : SenderSystem S M} (hf : σ.calls[i]? = some (.start pc))
    (hflag : pc = .testReconnector → Reliable σ)
    (heff : StartEffect σ pc σ' pc') :
    Protected { σ' with calls := σ'.calls.set i (.start pc') } := by
  intro hfail
  cases heff with
  | proceeds hdec hcalls _ =>
    rw [← hcalls] at hf
    exact Or.inl ⟨_, Threads.mem_set hf _, hdec⟩
  | succeeds hrun => exact absurd (hrun.symm.trans hfail) nofun
  | finishes hnot hcalls hrecs hstate hdelayed =>
    rw [← hcalls] at hf
    rcases h (hstate ▸ hfail) with hcall | hrec
    · exact Or.inl (Threads.exists_set hf (fun hp => absurd hp hnot)
        (fun f _ => protects_mono hdelayed) (hcalls ▸ hcall))
    · exact Or.inr (hrecs ▸ hrec)
  | retries hr hrecs => exact Or.inr ⟨_, by simp [hrecs], Or.inl hr⟩
  | relies hk hr hrun =>
    obtain ⟨r, hmem, hretry⟩ := (hflag rfl).exists_retrying hk hr hrun
    exact Or.inr ⟨r, hmem, Or.inl hretry⟩

theorem protected_onException (h : Protected σ) {i : Nat}
    {pc pc' : OnExceptionPc} {σ' : SenderSystem S M}
    (hf : σ.calls[i]? = some (.onException pc))
    (heff : OnExceptionEffect σ pc σ' pc') :
    Protected { σ' with calls := σ'.calls.set i (.onException pc') } := by
  intro hfail
  cases heff with
  | idle hnot =>
    refine (h hfail).imp_left fun hcall => ?_
    exact Threads.exists_set hf (fun hp => absurd hp hnot) (fun f _ => id) hcall
  | proceeds hrec hcalls =>
    rw [← hcalls] at hf
    exact Or.inl ⟨_, Threads.mem_set hf _, hrec⟩
  | retries hr hrecs => exact Or.inr ⟨_, by simp [hrecs], Or.inl hr⟩

theorem protected_stop (h : Protected σ) {i : Nat} {pc pc' : StopPc}
    {σ' : SenderSystem S M} (hf : σ.calls[i]? = some (.stop pc))
    (hframe : σ'.sender = σ.sender ∧ σ'.calls = σ.calls ∧
      σ'.reconnectors = σ.reconnectors) :
    Protected { σ' with calls := σ'.calls.set i (.stop pc') } := by
  obtain ⟨hsender, hcalls, hrecs⟩ := hframe
  intro hfail
  rw [← hcalls] at hf
  rw [Protected, ← hsender, ← hcalls, ← hrecs] at h
  show (∃ f ∈ σ'.calls.set i (.stop pc'), f.Protects σ'.sender) ∨
    ∃ r ∈ σ'.reconnectors, r.Protects
  exact (h hfail).imp_left (Threads.exists_set hf id fun f _ => id)

theorem protected_callStep (h : Protected σ) (i : Nat) (result : JMSResult)
    (hflag : σ.calls[i]? = some (.start .testReconnector) → Reliable σ) :
    Protected (σ.callStep i result) := by
  unfold callStep
  cases hf : σ.calls[i]? with
  | none => exact h
  | some f =>
    cases f with
    | start pc =>
      refine protected_start h hf ?_ (startStep_effect result σ pc)
      intro hpc
      subst hpc
      exact hflag hf
    | stop pc => exact protected_stop h hf (stopStep_frame result σ pc)
    | onException pc =>
      exact protected_onException h hf (onExceptionStep_effect σ pc)

/-- A step of `start` in the thread of a reconnector. -/
theorem protected_starting (h : Protected σ) {k : Nat} {r : SenderReconnector}
    {pc pc' : StartPc} {σ' : SenderSystem S M}
    (hr : σ.reconnectors[k]? = some r) (hpc : r.pc = .starting pc)
    (hflag : pc = .testReconnector → Reliable σ)
    (heff : StartEffect σ pc σ' pc') :
    Protected
      { σ' with
        reconnectors := σ'.reconnectors.set k (r.goto
          (if pc' = .returned then .clearRunning else .starting pc')) } := by
  -- the reconnector that moves is not one that retries
  have hself : ¬ r.Retrying := fun hretry => hretry.not_starting pc hpc
  intro hfail
  cases heff with
  | proceeds hdec _ hrecs =>
    rw [← hrecs] at hr
    have hne : pc' ≠ .returned := by
      intro hpc'
      subst hpc'
      exact hdec
    refine Or.inr ⟨_, Threads.mem_set hr _, Or.inr ⟨pc', ?_, hdec⟩⟩
    simp [SenderReconnector.goto, hne]
  | succeeds hrun => exact absurd (hrun.symm.trans hfail) nofun
  | finishes hnot hcalls hrecs hstate hdelayed =>
    rw [← hrecs] at hr
    rcases h (hstate ▸ hfail) with ⟨f, hf, hp⟩ | hrec
    · exact Or.inl ⟨f, hcalls ▸ hf, protects_mono hdelayed hp⟩
    · refine Or.inr (Threads.exists_set hr (fun hp => ?_) (fun r _ => id)
        (hrecs ▸ hrec))
      exact absurd ((SenderReconnector.protects_starting hpc).mp hp) hnot
  | @retries _ new hnew hrecs =>
    have hold : σ'.reconnectors[k]? = some r := by
      rw [hrecs, List.getElem?_append_left
        (List.getElem?_eq_some_iff.mp hr).1, hr]
    exact Or.inr (Threads.exists_set hold (fun hp => absurd hp hself)
      (fun r _ => Or.inl) ⟨new, by simp [hrecs], hnew⟩)
  | relies hk hj hrun =>
    exact Or.inr (Threads.exists_set hr (fun hp => absurd hp hself)
      (fun r _ => Or.inl) ((hflag rfl).exists_retrying hk hj hrun))

theorem protected_reconnectorStep (h : Protected σ) (k : Nat)
    (result : JMSResult)
    (hflag : σ.reconnectors[k]?.map SenderReconnector.pc =
      some (.starting .testReconnector) → Reliable σ) :
    Protected (σ.reconnectorStep k result) := by
  unfold reconnectorStep
  cases hr : σ.reconnectors[k]? with
  | none => exact h
  | some r =>
    by_cases hstart : ∃ pc, r.pc = .starting pc
    · obtain ⟨pc, hpc⟩ := hstart
      simp only [hpc]
      refine protected_starting h hr hpc ?_ (startStep_effect result σ pc)
      intro htest
      subst htest
      exact hflag (by simp [hr, hpc])
    · have hpc : ∀ pc, r.pc ≠ .starting pc := fun pc hpc => hstart ⟨pc, hpc⟩
      have hstep : Protected
          { σ with
            reconnectors :=
              σ.reconnectors.set k (r.step σ.sender.state) } := by
        intro hfail
        refine (h hfail).imp_right fun hrec => ?_
        refine Threads.exists_set hr (fun hp => ?_) (fun r _ => id) hrec
        rw [show σ.sender.state = .failed from hfail]
        exact hp.step hpc
      cases hrpc : r.pc with
      | starting pc => exact absurd hrpc (hpc pc)
      | _ => simpa only [hrpc] using hstep

theorem protected_delayedSenderStep [DecidableEq S] (h : Protected σ) (k : Nat)
    (result : JMSResult) : Protected (σ.delayedSenderStep k result) := by
  unfold delayedSenderStep
  cases hd : σ.delayedSenders[k]? with
  | none => exact h
  | some d =>
    obtain ⟨sessions, sent, -, hframe⟩ := d.step_frame result σ.sender
    simp only [hframe]
    intro hfail
    refine (h hfail).imp_left fun ⟨f, hf, hp⟩ => ?_
    exact ⟨f, hf, protects_mono id hp⟩

/-- Every step with a reliable flag hands the obligation on. -/
theorem protected_step [DecidableEq S] (h : Protected σ) (a : Action)
    (hflag : FlagIsReliable σ a) : Protected (σ.step a) := by
  cases a with
  | start | stop | onException => exact protected_enter h _
  | call i result => exact protected_callStep h i result hflag
  | delayedSender k result => exact protected_delayedSenderStep h k result
  | reconnector k result => exact protected_reconnectorStep h k result hflag

/-! ## Idle states -/

/-- Nobody is inside `start` or `onException`. -/
def Idle (σ : SenderSystem S M) : Prop :=
  (∀ f ∈ σ.calls, ¬ f.InProgress) ∧ ∀ r ∈ σ.reconnectors, ¬ r.IsStarting

instance (σ : SenderSystem S M) : Decidable (Idle σ) :=
  inferInstanceAs (Decidable (_ ∧ _))

theorem Protected.exists_retrying (h : Protected σ) (hidle : Idle σ)
    (hfail : σ.sender.state = .failed) : ∃ r ∈ σ.reconnectors, r.Retrying := by
  rcases h hfail with ⟨f, hf, hp⟩ | ⟨r, hr, hretry | ⟨pc, hpc, -⟩⟩
  · exact absurd hp.inProgress (hidle.1 f hf)
  · exact ⟨r, hr, hretry⟩
  · exact absurd (by simp [SenderReconnector.IsStarting, hpc]) (hidle.2 r hr)

/-- When every test of a reconnector's flag could be relied on, a failed sender
that nobody is starting has a reconnector that will retry. -/
theorem failed_has_reconnector [DecidableEq S] (isDelayed : Bool)
    (bufferSize : Int) (actions : List Action)
    (hflag : (machine isDelayed bufferSize).Along
      (FlagIsReliable (S := S) (M := M)) actions)
    (hidle : Idle ((machine (S := S) (M := M) isDelayed bufferSize).run
      actions))
    (hfail : ((machine (S := S) (M := M) isDelayed bufferSize).run
      actions).sender.state = .failed) :
    ∃ r ∈ ((machine (S := S) (M := M) isDelayed bufferSize).run
      actions).reconnectors, r.Retrying := by
  have hprotected := (machine (S := S) (M := M) isDelayed
    bufferSize).along_invariant (I := Protected) nofun
      (fun _ a h hflag => protected_step h a hflag) hflag
  exact hprotected.exists_retrying hidle hfail

/-- The first `start` fails. -/
theorem failed_start_has_reconnector :
    ∃ r ∈ ((machine (S := Nat) (M := Nat) true 10).run
      [.start, .call 0 .throws, .call 0 .returns, .call 0 .returns,
        .call 0 .returns]).reconnectors, r.Retrying :=
  failed_has_reconnector true 10 _ (by decide) (by decide) (by decide)

/-- The first `start` fails, and so does the retry of the reconnector it has
started. -/
theorem failed_retry_gives_up :
    ¬ ∀ actions, Idle ((machine (S := Nat) (M := Nat) true 10).run actions) →
      ((machine (S := Nat) (M := Nat) true 10).run actions).sender.state =
        .failed →
      ∃ r ∈ ((machine (S := Nat) (M := Nat) true 10).run actions).reconnectors,
        r.Retrying := by
  intro h
  have hretry := h
    [.start, .call 0 .throws, .call 0 .returns, .call 0 .returns,
      .call 0 .returns,
      -- the thread of the reconnector: up to its call of `start`
      .reconnector 0 .returns, .reconnector 0 .returns, .reconnector 0 .returns,
      .reconnector 0 .returns, .reconnector 0 .returns,
      -- the retry fails, and its handler finds the flag set
      .reconnector 0 .throws, .reconnector 0 .returns, .reconnector 0 .returns,
      -- the reconnector clears its flag and leaves
      .reconnector 0 .returns, .reconnector 0 .returns, .reconnector 0 .returns]
    (by decide) (by decide)
  exact absurd hretry (by decide)

end SenderSystem

end Sipana
