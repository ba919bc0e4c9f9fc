import Sipana.Sender.JMSSender

/-!
# The buffer between its two threads

The thread that calls `send` and the thread of the `DelayedSender` share the
two queues without a lock around what they do. The model interleaves them: a
step is one operation on a queue, on the counter of discarded sessions, on the
state or on the producer. The sender is in delayed mode, it runs, and the
producer takes everything.
-/

namespace Sipana

/-- Where the caller is in `send(SIPSession)` or `send(SIPMessage)`, with the
argument of the call. -/
inductive SendPc (S M : Type)
  | idle
  | testOverflow (session : S)
  | increment (session : S)
  | poll (session : S)
  | add (session : S)
  | testRunning (message : M)
  | sendNow (message : M)
  | addMessage (message : M)
deriving DecidableEq, Repr

structure DelayedBuffer (S M : Type) where
  sender : JMSSender S M
  caller : SendPc S M := .idle
  delayedSender : DelayedSender S := {}
  /-- The sessions that were put into the buffer, in order. -/
  accepted : List S := []
  /-- How often a session was counted as discarded. -/
  discards : Nat := 0
deriving DecidableEq, Repr

/-- Who moves next. -/
inductive BufferStep (S M : Type)
  /-- The caller enters `send`. -/
  | send (object : Serializable S M)
  | caller
  | delayedSender
deriving DecidableEq, Repr

namespace DelayedBuffer

variable {S M : Type}

def assign (σ : DelayedBuffer S M) (f : JMSSender S M → JMSSender S M) :
    DelayedBuffer S M :=
  { σ with sender := f σ.sender }

def goto (σ : DelayedBuffer S M) (pc : SendPc S M) : DelayedBuffer S M :=
  { σ with caller := pc }

/-- A thread that is inside `send` does not enter it. -/
def enter (σ : DelayedBuffer S M) (object : Serializable S M) :
    DelayedBuffer S M :=
  match σ.caller, object with
  | .idle, .session session => σ.goto (.testOverflow session)
  | .idle, .message message => σ.goto (.testRunning message)
  | _, _ => σ

/-- One step of `send`. -/
def callerStep (σ : DelayedBuffer S M) : DelayedBuffer S M :=
  match σ.caller with
  | .idle => σ
  | .testOverflow session =>
    σ.goto (if ¬ σ.sender.isBufferOverflowed then .add session
      else .increment session)
  | .increment session =>
    { σ with
      sender :=
        { σ.sender with discardedSessions := σ.sender.discardedSessions + 1 }
      caller := .poll session
      discards := σ.discards + 1 }
  | .poll session =>
    (σ.assign fun s => { s with sessions := s.sessions.tail }).goto
      (.add session)
  | .add session =>
    { σ with
      sender := { σ.sender with sessions := σ.sender.sessions ++ [session] }
      caller := .idle
      accepted := σ.accepted ++ [session] }
  | .testRunning message =>
    σ.goto (if σ.sender.isRunning then .sendNow message
      else .addMessage message)
  | .sendNow message =>
    (σ.assign fun s => (s.sendNow .returns (some (.message message))).1).goto
      .idle
  | .addMessage message =>
    (σ.assign fun s => { s with messages := s.messages ++ [message] }).goto
      .idle

variable [DecidableEq S]

/-- One step of the thread of the delayed sender. -/
def delayedSenderStep (σ : DelayedBuffer S M) : DelayedBuffer S M :=
  let (sender, d) := σ.delayedSender.step .returns σ.sender
  { σ with sender := sender, delayedSender := d }

def step (σ : DelayedBuffer S M) : BufferStep S M → DelayedBuffer S M
  | .send object => σ.enter object
  | .caller => σ.callerStep
  | .delayedSender => σ.delayedSenderStep

/-- The sender after a successful `start`, with an empty buffer. -/
def new (bufferSize : Int) : DelayedBuffer S M where
  sender :=
    { isDelayed := true, bufferSize, state := .running, connection := some 0,
      session := some 0, producer := some 0, delayedSender := some 0 }

def machine (bufferSize : Int) :
    Machine (DelayedBuffer S M) (BufferStep S M) := ⟨new bufferSize, step⟩

def run (bufferSize : Int) (steps : List (BufferStep S M)) :
    DelayedBuffer S M := (machine bufferSize).run steps

/-- A call of `send(SIPSession)` that nobody interrupts. -/
theorem uninterrupted_session {σ : DelayedBuffer S M} {bufferSize : Int}
    (hidle : σ.caller = .idle) (hdelayed : σ.sender.isDelayed = true)
    (result : JMSResult) (session : S) :
    ((machine bufferSize).exec σ
      [.send (.session session), .caller, .caller, .caller, .caller]).sender =
      (σ.sender.sendSession result session).1 := by
  by_cases hover : σ.sender.isBufferOverflowed = true <;>
    simp [machine, step, enter, callerStep, goto, assign, hidle,
      JMSSender.sendSession, hdelayed, hover]

/-- A call of `send(SIPMessage)` that nobody interrupts. -/
theorem uninterrupted_message {σ : DelayedBuffer S M} {bufferSize : Int}
    (hidle : σ.caller = .idle) (hdelayed : σ.sender.isDelayed = true)
    (message : M) :
    ((machine bufferSize).exec σ
      [.send (.message message), .caller, .caller]).sender =
      (σ.sender.sendMessage .returns message).1 := by
  by_cases hrun : σ.sender.isRunning = true <;>
    simp [machine, step, enter, callerStep, goto, assign, hidle,
      JMSSender.sendMessage, hdelayed, hrun]

/-! ## What a step can do -/

end DelayedBuffer

/-- The loop over the sessions has been entered and nothing read yet. -/
def DelayedSenderPc.Tested {S : Type} : DelayedSenderPc S → Prop
  | .sessionsRunning | .sessionsPeek => True
  | _ => False

/-- The loop over the sessions has read the head of the queue. -/
def DelayedSenderPc.Holds {S : Type} : DelayedSenderPc S → Prop
  | .sessionsSend _ | .sessionsRemove _ => True
  | _ => False

/-- The loop over the messages has been entered. -/
def DelayedSenderPc.InMessages {S : Type} : DelayedSenderPc S → Prop
  | .messagesRunning | .messagesPeek | .messagesSend _
  | .messagesRemove _ => True
  | _ => False

instance {S : Type} (pc : DelayedSenderPc S) : Decidable pc.Holds := by
  unfold DelayedSenderPc.Holds
  split <;> infer_instance

/-- The caller is about to poll. -/
def SendPc.Polls {S M : Type} : SendPc S M → Prop
  | .poll _ => True
  | _ => False

instance {S M : Type} (pc : SendPc S M) : Decidable pc.Polls := by
  unfold SendPc.Polls
  split <;> infer_instance

/-- The caller is about to count a session as discarded. -/
def SendPc.Counts {S M : Type} : SendPc S M → Prop
  | .increment _ => True
  | _ => False

instance {S M : Type} (pc : SendPc S M) : Decidable pc.Counts := by
  unfold SendPc.Counts
  split <;> infer_instance

namespace DelayedBuffer

variable {S M : Type} {σ : DelayedBuffer S M}

/-- A sender in delayed mode that runs and buffers sessions only. -/
structure Running (σ : DelayedBuffer S M) : Prop where
  isDelayed : σ.sender.isDelayed = true
  isRunning : σ.sender.isRunning = true
  hasProducer : σ.sender.HasProducer
  messages : σ.sender.messages = []
  caller : ∀ m, σ.caller ≠ .addMessage m
  delayedSender : ¬ σ.delayedSender.pc.InMessages

/-- What the two threads do to a running sender. -/
inductive Effect [DecidableEq S] (σ : DelayedBuffer S M) :
    BufferStep S M → DelayedBuffer S M → Prop
  | waits {a} : Effect σ a σ
  | calls {a pc} : ¬ σ.caller.Polls → ¬ pc.Polls →
      (∀ m, pc ≠ .addMessage m) → Effect σ a (σ.goto pc)
  | increments {s} : σ.caller = .increment s →
      Effect σ .caller { σ with
        sender :=
          { σ.sender with discardedSessions := σ.sender.discardedSessions + 1 }
        caller := .poll s
        discards := σ.discards + 1 }
  | polls {s} : σ.caller = .poll s →
      Effect σ .caller ((σ.assign fun s =>
        { s with sessions := s.sessions.tail }).goto (.add s))
  | adds {s} : σ.caller = .add s →
      Effect σ .caller { σ with
        sender := { σ.sender with sessions := σ.sender.sessions ++ [s] }
        caller := .idle
        accepted := σ.accepted ++ [s] }
  | sendsMessage {m} : σ.caller = .sendNow m →
      Effect σ .caller ((σ.assign fun s =>
        { s with sent := s.sent ++ [some (.message m)] }).goto .idle)
  | moves {d} : ¬ σ.delayedSender.pc.Holds → ¬ d.pc.Holds →
      ¬ d.pc.InMessages →
      (d.pc.Tested → σ.delayedSender.pc.Tested ∨ σ.sender.sessions ≠ []) →
      Effect σ .delayedSender { σ with delayedSender := d }
  | peeks : σ.delayedSender.pc = .sessionsPeek →
      Effect σ .delayedSender { σ with
        delayedSender := σ.delayedSender.goto
          (.sessionsSend σ.sender.sessions.head?) }
  | delivers {x} : σ.delayedSender.pc = .sessionsSend x →
      Effect σ .delayedSender { σ with
        sender := { σ.sender with sent := σ.sender.sent ++ [x.map .session] }
        delayedSender := σ.delayedSender.goto (.sessionsRemove x) }
  | removes {x} : σ.delayedSender.pc = .sessionsRemove x →
      Effect σ .delayedSender { σ with
        sender := DelayedSender.remove σ.sender x
        delayedSender := σ.delayedSender.goto .sessionsSize }

theorem caller_effect [DecidableEq S] (h : Running σ) :
    Effect σ .caller σ.callerStep := by
  unfold callerStep
  cases hpc : σ.caller with
  | idle => exact .waits
  | testOverflow s =>
    refine .calls (by simp [SendPc.Polls, hpc]) ?_ (fun _ => ?_) <;>
      split <;> simp [SendPc.Polls]
  | increment s => exact .increments hpc
  | poll s => exact .polls hpc
  | add s => exact .adds hpc
  | testRunning m =>
    simp only [h.isRunning, if_true]
    exact .calls (by simp [SendPc.Polls, hpc]) id (fun _ => nofun)
  | sendNow m =>
    have hsend : (σ.assign fun s =>
        (s.sendNow .returns (some (.message m))).1) =
        σ.assign fun s => { s with sent := s.sent ++ [some (.message m)] } := by
      simp [assign, σ.sender.sendNow_returns h.hasProducer]
    simp only [hsend]
    exact .sendsMessage hpc
  | addMessage m => exact absurd hpc (h.caller m)

theorem delayedSender_effect [DecidableEq S] (h : Running σ) :
    Effect σ .delayedSender σ.delayedSenderStep := by
  unfold delayedSenderStep DelayedSender.step
  cases hpc : σ.delayedSender.pc with
  | sessionsPeek => exact .peeks hpc
  | sessionsSend x =>
    simp only [σ.sender.sendNow_returns h.hasProducer]
    exact .delivers hpc
  | sessionsRemove x => exact .removes hpc
  | messagesRunning | messagesPeek | messagesSend | messagesRemove =>
    exact absurd (by simp [DelayedSenderPc.InMessages, hpc]) h.delayedSender
  | ready | waiting =>
    exact .moves (by simp [DelayedSenderPc.Holds, hpc]) id id False.elim
  | loopGuard | checkRunning =>
    refine .moves (by simp [DelayedSenderPc.Holds, hpc]) ?_ ?_ ?_ <;>
      simp only [DelayedSender.goto] <;> split <;>
      simp [DelayedSenderPc.Holds, DelayedSenderPc.InMessages,
        DelayedSenderPc.Tested]
  | sessionsSize =>
    refine .moves (by simp [DelayedSenderPc.Holds, hpc]) ?_ ?_ ?_ <;>
      simp only [DelayedSender.goto] <;> split <;> rename_i hlength <;>
      simp [DelayedSenderPc.Holds, DelayedSenderPc.InMessages,
        DelayedSenderPc.Tested, List.length_pos_iff.mp, hlength]
  | sessionsRunning =>
    refine .moves (by simp [DelayedSenderPc.Holds, hpc]) ?_ ?_ ?_
    · simp only [DelayedSender.goto]
      split <;> simp [DelayedSenderPc.Holds]
    · simp only [DelayedSender.goto]
      split <;> simp [DelayedSenderPc.InMessages]
    · exact fun _ => Or.inl (by simp [DelayedSenderPc.Tested, hpc])
  | messagesSize =>
    have hempty : ¬ σ.sender.messages.length > 0 := by simp [h.messages]
    simp only [if_neg hempty]
    exact .moves (by simp [DelayedSenderPc.Holds, hpc]) id id False.elim
  | stopped => exact .waits

theorem step_effect [DecidableEq S] (h : Running σ) (a : BufferStep S M) :
    Effect σ a (σ.step a) := by
  cases a with
  | send object =>
    show Effect σ (.send object) (σ.enter object)
    unfold enter
    split
    · rename_i hpc
      exact .calls (by simp [SendPc.Polls, hpc]) id (fun _ => nofun)
    · rename_i hpc
      exact .calls (by simp [SendPc.Polls, hpc]) id (fun _ => nofun)
    · exact .waits
  | caller => exact caller_effect h
  | delayedSender => exact delayedSender_effect h

theorem running_step [DecidableEq S] (h : Running σ) (a : BufferStep S M) :
    Running (σ.step a) := by
  have heff := step_effect h a
  generalize σ.step a = τ at heff
  obtain ⟨hdelayed, hrun, hproducer, hmessages, hcaller, hdrain⟩ := h
  cases heff with
  | waits => exact ⟨hdelayed, hrun, hproducer, hmessages, hcaller, hdrain⟩
  | calls _ _ hadd =>
    exact ⟨hdelayed, hrun, hproducer, hmessages, hadd, hdrain⟩
  | increments | polls | adds | sendsMessage =>
    exact ⟨hdelayed, hrun, hproducer, hmessages, fun _ => nofun, hdrain⟩
  | moves _ _ hd => exact ⟨hdelayed, hrun, hproducer, hmessages, hcaller, hd⟩
  | peeks | delivers =>
    exact ⟨hdelayed, hrun, hproducer, hmessages, hcaller, id⟩
  | @removes x =>
    cases x <;> exact ⟨hdelayed, hrun, hproducer, hmessages, hcaller, id⟩

theorem running_run [DecidableEq S] (bufferSize : Int)
    (steps : List (BufferStep S M)) : Running (run bufferSize steps) :=
  (machine bufferSize).run_invariant (I := Running)
    ⟨rfl, rfl, ⟨nofun, nofun⟩, rfl, fun _ => nofun, id⟩
    (fun _ a h => running_step h a) steps

/-- The log of the producer only grows. -/
theorem sent_prefix_step [DecidableEq S] (h : Running σ)
    (a : BufferStep S M) : σ.sender.sent <+: (σ.step a).sender.sent := by
  have heff := step_effect h a
  generalize σ.step a = τ at heff
  cases heff with
  | sendsMessage | delivers => exact List.prefix_append _ _
  | @removes x => cases x <;> exact List.prefix_rfl
  | _ => exact List.prefix_rfl

theorem sent_prefix_exec [DecidableEq S] {bufferSize : Int} (h : Running σ)
    (steps : List (BufferStep S M)) :
    σ.sender.sent <+: ((machine bufferSize).exec σ steps).sender.sent := by
  induction steps generalizing σ with
  | nil => exact List.prefix_rfl
  | cons a steps ih =>
    exact (sent_prefix_step h a).trans (ih (running_step h a))

end DelayedBuffer

end Sipana
