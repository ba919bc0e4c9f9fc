import Sipana.Sender.SenderSystem

/-!
# The immediate mode

A sender that is not in delayed mode has no use for its buffer: `send` gives its
argument to the producer while the sender runs and drops it otherwise. `start`,
`stop`, `onException` and the reconnectors may interrupt it at any moment.

Without a buffer the order of the calls is kept (`delivered_in_order`), and what
is lost is not counted.
-/

namespace Sipana

/-- Where the caller is in `send`, with the argument of the call. -/
inductive ImmediatePc (S M : Type)
  | idle
  | testRunning (object : Serializable S M)
  | sendNow (object : Serializable S M)
deriving DecidableEq, Repr

/-- The system of the sender with one thread that calls `send`. -/
structure ImmediateSender (S M : Type) where
  system : SenderSystem S M
  caller : ImmediatePc S M := .idle
deriving DecidableEq, Repr

/-- Who moves next. -/
inductive ImmediateStep (S M : Type)
  /-- The caller enters `send`. -/
  | send (object : Serializable S M)
  | caller (result : JMSResult)
  | system (action : SenderSystem.Action)
deriving DecidableEq, Repr

namespace ImmediateSender

variable {S M : Type}

/-- A thread that is inside `send` does not enter it. -/
def enter (σ : ImmediateSender S M) (object : Serializable S M) :
    ImmediateSender S M :=
  match σ.caller with
  | .idle => { σ with caller := .testRunning object }
  | _ => σ

/-- One step of `send`, for a sender that is not delayed. -/
def callerStep (σ : ImmediateSender S M) (result : JMSResult) :
    ImmediateSender S M :=
  match σ.caller with
  | .idle => σ
  | .testRunning object =>
    -- otherwise the object is discarded with a warning
    { σ with caller :=
        if σ.system.sender.isRunning then .sendNow object else .idle }
  | .sendNow object =>
    { system := σ.system.assign fun s => (s.sendNow result (some object)).1
      caller := .idle }

variable [DecidableEq S]

def step (σ : ImmediateSender S M) : ImmediateStep S M → ImmediateSender S M
  | .send object => σ.enter object
  | .caller result => σ.callerStep result
  | .system action => { σ with system := σ.system.step action }

/-- A sender that its constructor has left in immediate mode. -/
def machine (bufferSize : Int) :
    Machine (ImmediateSender S M) (ImmediateStep S M) :=
  ⟨⟨SenderSystem.new false bufferSize, .idle⟩, step⟩

def run (bufferSize : Int) (steps : List (ImmediateStep S M)) :
    ImmediateSender S M := (machine bufferSize).run steps

/-- What the producer has taken, in order. -/
def log (σ : ImmediateSender S M) : List (Option (Serializable S M)) :=
  σ.system.sender.sent

/-- A call of `send` that nobody interrupts. -/
theorem uninterrupted_send {σ : ImmediateSender S M} {bufferSize : Int}
    (hidle : σ.caller = .idle) (hmode : σ.system.sender.isDelayed = false)
    (result : JMSResult) (object : Serializable S M) :
    ((machine bufferSize).exec σ
      [.send object, .caller result, .caller result]).system.sender =
      σ.system.sender.send (result, object) := by
  by_cases hrun : σ.system.sender.isRunning = true
  · cases object <;>
      simp [machine, step, enter, callerStep, hidle, JMSSender.send,
        JMSSender.sendSession, JMSSender.sendMessage, hmode, hrun,
        SenderSystem.assign]
  · cases object <;>
      simp [machine, step, enter, callerStep, hidle, JMSSender.send,
        JMSSender.sendSession, JMSSender.sendMessage, hmode, hrun]

end ImmediateSender

/-! ## The other methods -/

/-- The same buffer and the same log, which `start`, `stop` and `onException`
have no business with. -/
structure JMSSender.Apart {S M : Type} (s t : JMSSender S M) : Prop where
  isDelayed : t.isDelayed = s.isDelayed
  sessions : t.sessions = s.sessions
  messages : t.messages = s.messages
  discardedSessions : t.discardedSessions = s.discardedSessions
  sent : t.sent = s.sent

/-- The reconnector is not about to start a delayed sender. -/
theorem SenderReconnector.step_pc_ne {r : SenderReconnector}
    (h : r.pc ≠ .starting .startDelayedSender) (state : SenderState) :
    (r.step state).pc ≠ .starting .startDelayedSender := by
  unfold step
  cases hpc : r.pc with
  | guardState | guardRunning | testRunning =>
    simp only [goto]
    split <;> exact nofun
  | starting pc =>
    rw [hpc] at h
    simpa [hpc] using h
  | left => simp [hpc]
  | ready | waiting | clearRunning => exact nofun

namespace SenderSystem

variable {S M : Type} {σ : SenderSystem S M}

/-- Nobody has started a delayed sender or is about to. -/
structure Immediate (σ : SenderSystem S M) : Prop where
  isDelayed : σ.sender.isDelayed = false
  delayedSenders : σ.delayedSenders = []
  calls : ∀ frame ∈ σ.calls, frame ≠ .start .startDelayedSender
  reconnectors : ∀ r ∈ σ.reconnectors, r.pc ≠ .starting .startDelayedSender

/-- Another state of an immediate sender, with the same buffer and log. -/
structure Keeps (σ τ : SenderSystem S M) : Prop where
  apart : σ.sender.Apart τ.sender
  immediate : Immediate τ

theorem Immediate.keeps (h : Immediate σ) {τ : SenderSystem S M}
    (hapart : σ.sender.Apart τ.sender) (hdelayed : τ.delayedSenders = σ.delayedSenders)
    (hcalls : ∀ frame ∈ τ.calls,
      frame ∈ σ.calls ∨ frame ≠ .start .startDelayedSender)
    (hreconnectors : ∀ r ∈ τ.reconnectors,
      r ∈ σ.reconnectors ∨ r.pc ≠ .starting .startDelayedSender) :
    Keeps σ τ := by
  refine ⟨hapart, hapart.isDelayed.trans h.isDelayed,
    hdelayed.trans h.delayedSenders, ?_, ?_⟩
  · intro frame hframe
    rcases hcalls frame hframe with hold | hnew
    · exact h.calls frame hold
    · exact hnew
  · intro r hr
    rcases hreconnectors r hr with hold | hnew
    · exact h.reconnectors r hold
    · exact hnew

/-- Only fields of the sender change that are about its connection. -/
theorem Immediate.keeps_same (h : Immediate σ) {τ : SenderSystem S M}
    (hapart : σ.sender.Apart τ.sender) (hdelayed : τ.delayedSenders = σ.delayedSenders)
    (hcalls : τ.calls = σ.calls) (hreconnectors : τ.reconnectors =
      σ.reconnectors) : Keeps σ τ :=
  h.keeps hapart hdelayed (fun _ hf => Or.inl (hcalls ▸ hf))
    (fun _ hr => Or.inl (hreconnectors ▸ hr))

theorem startSenderReconnector_keeps (h : Immediate σ) :
    Keeps σ σ.startSenderReconnector := by
  refine h.keeps ⟨rfl, rfl, rfl, rfl, rfl⟩ rfl (fun _ hf => Or.inl hf) ?_
  intro r hr
  rcases List.mem_append.mp hr with hold | hnew
  · exact Or.inl hold
  · rw [List.mem_singleton.mp hnew]
    exact Or.inr nofun

theorem clearDelayedSender_keeps (h : Immediate σ) (k : Nat) :
    Keeps σ (σ.clearDelayedSender k) := by
  refine h.keeps_same ⟨rfl, rfl, rfl, rfl, rfl⟩ ?_ rfl rfl
  show σ.delayedSenders.modify k _ = σ.delayedSenders
  rw [h.delayedSenders, List.modify_nil]

theorem startStep_keeps (h : Immediate σ) (result : JMSResult) {pc : StartPc}
    (hpc : pc ≠ .startDelayedSender) :
    Keeps σ (σ.startStep result pc).1 ∧
      (σ.startStep result pc).2 ≠ .startDelayedSender := by
  have hsame : Keeps σ σ := h.keeps_same ⟨rfl, rfl, rfl, rfl, rfl⟩ rfl rfl rfl
  cases pc with
  | startDelayedSender => exact absurd rfl hpc
  | setRunning =>
    refine ⟨h.keeps_same ⟨rfl, rfl, rfl, rfl, rfl⟩ rfl rfl rfl, ?_⟩
    simp [startStep, h.isDelayed]
  | setFailed =>
    exact ⟨h.keeps_same ⟨rfl, rfl, rfl, rfl, rfl⟩ rfl rfl rfl, nofun⟩
  | testReconnector =>
    unfold startStep
    simp only
    split
    · exact ⟨hsame, nofun⟩
    · refine ⟨hsame, ?_⟩
      simp only
      split <;> exact nofun
  | startReconnector => exact ⟨startSenderReconnector_keeps h, nofun⟩
  | returned => exact ⟨hsame, nofun⟩
  | createConnection | createSession | createProducer =>
    cases result
    · exact ⟨h.keeps_same ⟨rfl, rfl, rfl, rfl, rfl⟩ rfl rfl rfl, nofun⟩
    · exact ⟨hsame, nofun⟩
  | initialContext | lookupFactory | lookupDestination | closeContext
  | setExceptionListener =>
    cases result <;> exact ⟨hsame, nofun⟩

theorem stopStep_keeps (h : Immediate σ) (result : JMSResult) (pc : StopPc) :
    Keeps σ (σ.stopStep result pc).1 := by
  have hsame : Keeps σ σ := h.keeps_same ⟨rfl, rfl, rfl, rfl, rfl⟩ rfl rfl rfl
  cases pc with
  | clearRunning k => exact clearDelayedSender_keeps h k
  | stopDelayedSender =>
    unfold stopStep
    simp only
    split <;> exact hsame
  | closeConnection =>
    unfold stopStep
    simp only
    split
    · exact h.keeps_same ⟨rfl, rfl, rfl, rfl, rfl⟩ rfl rfl rfl
    · exact hsame
  | testDelayedSender | testRunning | returned => exact hsame

theorem onExceptionStep_keeps (h : Immediate σ) (pc : OnExceptionPc) :
    Keeps σ (σ.onExceptionStep pc).1 := by
  have hsame : Keeps σ σ := h.keeps_same ⟨rfl, rfl, rfl, rfl, rfl⟩ rfl rfl rfl
  cases pc with
  | clearRunning k => exact clearDelayedSender_keeps h k
  | startReconnector => exact startSenderReconnector_keeps h
  | setFailed | dropDelayedSender =>
    exact h.keeps_same ⟨rfl, rfl, rfl, rfl, rfl⟩ rfl rfl rfl
  | testDelayedSenderRunning | stopDelayedSender =>
    unfold onExceptionStep
    simp only
    split <;> exact hsame
  | testRunning | testDelayedSender | returned => exact hsame

/-- The frame of a call is put back. -/
theorem Keeps.setCall {τ : SenderSystem S M} (h : Keeps σ τ) (i : Nat)
    {frame : Frame} (hframe : frame ≠ .start .startDelayedSender) :
    Keeps σ { τ with calls := τ.calls.set i frame } := by
  obtain ⟨hapart, hmode, hdelayed, hcalls, hreconnectors⟩ := h
  refine ⟨hapart, hmode, hdelayed, ?_, hreconnectors⟩
  intro f hf
  rcases List.mem_or_eq_of_mem_set hf with hold | rfl
  · exact hcalls f hold
  · exact hframe

/-- A reconnector is put back. -/
theorem Keeps.setReconnector {τ : SenderSystem S M} (h : Keeps σ τ) (k : Nat)
    {r : SenderReconnector} (hr : r.pc ≠ .starting .startDelayedSender) :
    Keeps σ { τ with reconnectors := τ.reconnectors.set k r } := by
  obtain ⟨hapart, hmode, hdelayed, hcalls, hreconnectors⟩ := h
  refine ⟨hapart, hmode, hdelayed, hcalls, ?_⟩
  intro f hf
  rcases List.mem_or_eq_of_mem_set hf with hold | rfl
  · exact hreconnectors f hold
  · exact hr

theorem callStep_keeps (h : Immediate σ) (i : Nat) (result : JMSResult) :
    Keeps σ (σ.callStep i result) := by
  unfold callStep
  split
  · exact h.keeps_same ⟨rfl, rfl, rfl, rfl, rfl⟩ rfl rfl rfl
  · next pc hpc =>
    have hne : pc ≠ .startDelayedSender := fun heq =>
      h.calls _ (List.mem_of_getElem? hpc) (heq ▸ rfl)
    obtain ⟨hkeeps, hnext⟩ := startStep_keeps h result hne
    exact hkeeps.setCall i fun heq => hnext (by injection heq)
  · exact (stopStep_keeps h result _).setCall i nofun
  · exact (onExceptionStep_keeps h _).setCall i nofun

theorem reconnectorStep_keeps (h : Immediate σ) (k : Nat)
    (result : JMSResult) : Keeps σ (σ.reconnectorStep k result) := by
  have hsame : Keeps σ σ := h.keeps_same ⟨rfl, rfl, rfl, rfl, rfl⟩ rfl rfl rfl
  unfold reconnectorStep
  cases hr : σ.reconnectors[k]? with
  | none => exact hsame
  | some r =>
    have hne := h.reconnectors r (List.mem_of_getElem? hr)
    cases hpc : r.pc with
    | starting pc =>
      rw [hpc] at hne
      obtain ⟨hkeeps, hnext⟩ := startStep_keeps h result
        fun heq => hne (congrArg _ heq)
      simp only [hpc]
      refine hkeeps.setReconnector k ?_
      show (if _ then _ else _ : SenderReconnectorPc) ≠ _
      split
      · exact nofun
      · exact fun heq => hnext (SenderReconnectorPc.starting.inj heq)
    | _ =>
      simp only [hpc]
      exact hsame.setReconnector k (r.step_pc_ne hne _)

theorem step_keeps [DecidableEq S] (h : Immediate σ) (a : Action) :
    Keeps σ (σ.step a) := by
  cases a with
  | start | stop | onException =>
    refine h.keeps ⟨rfl, rfl, rfl, rfl, rfl⟩ rfl ?_ fun _ hr => Or.inl hr
    intro f hf
    rcases List.mem_append.mp hf with hold | hnew
    · exact Or.inl hold
    · rw [List.mem_singleton.mp hnew]
      exact Or.inr nofun
  | call i result => exact callStep_keeps h i result
  | reconnector k result => exact reconnectorStep_keeps h k result
  | delayedSender k result =>
    show Keeps σ (σ.delayedSenderStep k result)
    unfold delayedSenderStep
    rw [h.delayedSenders]
    exact h.keeps_same ⟨rfl, rfl, rfl, rfl, rfl⟩ rfl rfl rfl

end SenderSystem

namespace ImmediateSender

variable {S M : Type}

/-! ## The order of delivery -/

/-- The object in the hands of `send`. -/
def inFlight (σ : ImmediateSender S M) : List (Serializable S M) :=
  match σ.caller with
  | .idle => []
  | .testRunning object | .sendNow object => [object]

/-- What the calls of `send` were given. -/
def submitted (steps : List (ImmediateStep S M)) : List (Serializable S M) :=
  steps.filterMap fun
    | .send object => some object
    | _ => none

/-- The buffer is not used, and the producer was given some of the objects of
the calls, in their order. -/
structure Invariant (objects : List (Serializable S M))
    (σ : ImmediateSender S M) : Prop where
  immediate : σ.system.Immediate
  sessions : σ.system.sender.sessions = []
  messages : σ.system.sender.messages = []
  discardedSessions : σ.system.sender.getDiscardedSessions = 0
  inOrder : (σ.log ++ σ.inFlight.map some).Sublist (objects.map some)

variable {objects : List (Serializable S M)} {σ : ImmediateSender S M}

theorem invariant_enter (h : Invariant objects σ) (x : Serializable S M) :
    Invariant (objects ++ [x]) (σ.enter x) := by
  obtain ⟨himmediate, hsessions, hmessages, hdiscarded, horder⟩ := h
  have hlonger : (σ.log ++ σ.inFlight.map some).Sublist
      ((objects ++ [x]).map some) := by
    rw [List.map_append]
    exact horder.trans (List.sublist_append_left _ _)
  unfold enter
  split
  · next hidle =>
    refine ⟨himmediate, hsessions, hmessages, hdiscarded, ?_⟩
    have hnothing : σ.inFlight = [] := by
      unfold inFlight
      rw [hidle]
    rw [hnothing, List.map_nil, List.append_nil] at horder
    rw [List.map_append]
    exact horder.append (List.Sublist.refl _)
  · exact ⟨himmediate, hsessions, hmessages, hdiscarded, hlonger⟩

theorem invariant_caller (h : Invariant objects σ) (result : JMSResult) :
    Invariant objects (σ.callerStep result) := by
  obtain ⟨himmediate, hsessions, hmessages, hdiscarded, horder⟩ := h
  have hlog : σ.log.Sublist (objects.map some) :=
    (List.sublist_append_left _ _).trans horder
  unfold callerStep
  cases hpc : σ.caller with
  | idle => exact ⟨himmediate, hsessions, hmessages, hdiscarded, horder⟩
  | testRunning x =>
    refine ⟨himmediate, hsessions, hmessages, hdiscarded, ?_⟩
    unfold inFlight at horder ⊢
    rw [hpc] at horder
    simp only
    split
    · exact horder
    · rw [List.map_nil, List.append_nil]
      exact hlog
  | sendNow x =>
    unfold inFlight at horder
    rw [hpc] at horder
    obtain ⟨sent, hsent⟩ := σ.system.sender.sendNow_frame result (some x)
    obtain ⟨hmode, hdelayed, hcalls, hreconnectors⟩ := himmediate
    simp only [SenderSystem.assign]
    refine ⟨⟨?_, hdelayed, hcalls, hreconnectors⟩, ?_, ?_, ?_, ?_⟩
    · rw [hsent]
      exact hmode
    · rw [hsent]
      exact hsessions
    · rw [hsent]
      exact hmessages
    · rw [hsent]
      exact hdiscarded
    · simp only [log, inFlight, List.map_nil, List.append_nil]
      rcases σ.system.sender.sendNow_cases result (some x) with
        hreturns | hthrows
      · rw [hreturns]
        exact horder
      · rw [hthrows]
        exact hlog

/-- The caller appends to what the producer has taken. -/
theorem log_prefix_caller (σ : ImmediateSender S M) (result : JMSResult) :
    σ.log <+: (σ.callerStep result).log := by
  unfold callerStep
  cases σ.caller with
  | idle | testRunning => exact List.prefix_rfl
  | sendNow x =>
    simp only [log, SenderSystem.assign]
    rcases σ.system.sender.sendNow_cases result (some x) with h | h
    · exact ⟨[some x], by rw [h]⟩
    · exact ⟨[], by rw [h, List.append_nil]⟩

variable [DecidableEq S]

theorem invariant_system (h : Invariant objects σ) (a : SenderSystem.Action) :
    Invariant objects { σ with system := σ.system.step a } := by
  obtain ⟨himmediate, hsessions, hmessages, hdiscarded, horder⟩ := h
  obtain ⟨hapart, hafter⟩ := SenderSystem.step_keeps himmediate a
  refine ⟨hafter, hapart.sessions.trans hsessions,
    hapart.messages.trans hmessages,
    hapart.discardedSessions.trans hdiscarded, ?_⟩
  show ((σ.system.step a).sender.sent ++ σ.inFlight.map some).Sublist _
  rw [hapart.sent]
  exact horder

theorem invariant_run (bufferSize : Int) (steps : List (ImmediateStep S M)) :
    Invariant (submitted steps) (run bufferSize steps) := by
  induction steps using List.reverseRecOn with
  | nil => exact ⟨⟨rfl, rfl, by simp [run, machine, SenderSystem.new],
      by simp [run, machine, SenderSystem.new]⟩, rfl, rfl, rfl,
      List.Sublist.refl _⟩
  | append_singleton steps a ih =>
    have hstep : run bufferSize (steps ++ [a]) =
        (run bufferSize steps).step a := (machine bufferSize).run_snoc steps a
    rw [hstep, submitted, List.filterMap_append]
    cases a with
    | send x => exact invariant_enter ih x
    | caller result =>
      rw [show [ImmediateStep.caller result].filterMap _ = [] from rfl,
        List.append_nil]
      exact invariant_caller ih result
    | system a =>
      rw [show [ImmediateStep.system a].filterMap _ = [] from rfl,
        List.append_nil]
      exact invariant_system ih a

/-- Whatever `start`, `stop`, `onException` and the reconnectors do in between,
the producer is given objects of the calls, in their order and each at most
once. Nothing waits for better times, and nobody counts what is lost. -/
theorem delivered_in_order (bufferSize : Int)
    (steps : List (ImmediateStep S M)) :
    let σ := run bufferSize steps
    σ.log.Sublist ((submitted steps).map some) ∧
    σ.system.delayedSenders = [] ∧ σ.system.sender.sessions = [] ∧
    σ.system.sender.messages = [] ∧
    σ.system.sender.getDiscardedSessions = 0 := by
  have h := invariant_run bufferSize steps
  exact ⟨(List.sublist_append_left _ _).trans h.inOrder,
    h.immediate.delayedSenders, h.sessions, h.messages, h.discardedSessions⟩

end ImmediateSender

end Sipana
