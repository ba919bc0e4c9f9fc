import Sipana.Lib.Machine

/-!
# The JMS sender and its delayed sender

`JMSSender` buffers sessions and messages in two queues, and a thread running
`DelayedSender` empties them. Objects are told apart by identity, so the model
is generic in the types `S` and `M` of references to sessions and messages.

A step of the thread is one operation on a queue, a flag or the producer. Two
methods are called `isRunning`: inside `DelayedSender` an unqualified call is
the one of the inner class, which reads the thread's own flag and not the state
of the sender.
-/

namespace Sipana

/-- `STATE_STOPED`, `STATE_RUNNING` and `STATE_FAILED`. -/
inductive SenderState
  | stoped
  | running
  | failed
deriving DecidableEq, Repr

/-- How a call into JMS or JNDI ends. -/
inductive JMSResult
  | returns
  | throws
deriving DecidableEq, Repr

/-- An argument of `sendNow` that is not `null`. -/
inductive Serializable (S M : Type)
  | session (session : S)
  | message (message : M)
deriving DecidableEq, Repr

/-- The fields of `JMSSender`. A connection, a delayed sender and a reconnector
are referred to by the number of their creation; the JMS session and the
producer by the connection they belong to. -/
structure JMSSender (S M : Type) where
  isDelayed : Bool
  bufferSize : Int
  state : SenderState := .stoped
  connection : Option Nat := none
  session : Option Nat := none
  producer : Option Nat := none
  delayedSender : Option Nat := none
  reconnector : Option Nat := none
  sessions : List S := []
  messages : List M := []
  /-- An `AtomicInteger`, whose values wrap. -/
  discardedSessions : Int32 := 0
  /-- What the JMS producer has taken, in order; `none` is a `null` object. -/
  sent : List (Option (Serializable S M)) := []
deriving DecidableEq, Repr

namespace JMSSender

variable {S M : Type}

def isRunning (σ : JMSSender S M) : Bool := σ.state = .running

def isBufferOverflowed (σ : JMSSender S M) : Bool :=
  ((σ.sessions.length + σ.messages.length : Nat) : Int) > σ.bufferSize

def getDiscardedSessions (σ : JMSSender S M) : Int32 := σ.discardedSessions

/-- `sendNow`, and how it ends. -/
def sendNow (result : JMSResult) (σ : JMSSender S M)
    (object : Option (Serializable S M)) : JMSSender S M × JMSResult :=
  match σ.session, σ.producer with
  | some _, some _ =>
    match result with
    | .returns => ({ σ with sent := σ.sent ++ [object] }, .returns)
    | .throws => (σ, .throws)
  -- a `NullPointerException`
  | _, _ => (σ, .throws)

/-- A JMS session and a producer have been created. -/
def HasProducer (σ : JMSSender S M) : Prop :=
  σ.session ≠ none ∧ σ.producer ≠ none

theorem sendNow_returns {σ : JMSSender S M} (h : σ.HasProducer)
    (object : Option (Serializable S M)) :
    σ.sendNow .returns object =
      ({ σ with sent := σ.sent ++ [object] }, .returns) := by
  obtain ⟨session, hsession⟩ := Option.ne_none_iff_exists'.mp h.1
  obtain ⟨producer, hproducer⟩ := Option.ne_none_iff_exists'.mp h.2
  simp [sendNow, hsession, hproducer]

/-- `sendNow` at most lengthens the log of the producer. -/
theorem sendNow_frame (result : JMSResult) (σ : JMSSender S M)
    (object : Option (Serializable S M)) :
    ∃ sent, (σ.sendNow result object).1 = { σ with sent := sent } := by
  unfold sendNow
  split
  · cases result
    · exact ⟨_, rfl⟩
    · exact ⟨σ.sent, rfl⟩
  · exact ⟨σ.sent, rfl⟩

/-- The producer takes the object, or nothing happens. -/
theorem sendNow_cases (result : JMSResult) (σ : JMSSender S M)
    (object : Option (Serializable S M)) :
    σ.sendNow result object =
        ({ σ with sent := σ.sent ++ [object] }, .returns) ∨
      σ.sendNow result object = (σ, .throws) := by
  unfold sendNow
  split
  · cases result
    · exact Or.inl rfl
    · exact Or.inr rfl
  · exact Or.inr rfl

/-- `send(SIPSession session)`. -/
def sendSession (result : JMSResult) (σ : JMSSender S M) (session : S) :
    JMSSender S M × JMSResult :=
  if σ.isDelayed then
    if ¬ σ.isBufferOverflowed then
      ({ σ with sessions := σ.sessions ++ [session] }, .returns)
    else
      ({ σ with
          discardedSessions := σ.discardedSessions + 1
          sessions := σ.sessions.tail ++ [session] }, .returns)
  else if σ.isRunning then
    σ.sendNow result (some (.session session))
  else (σ, .returns)

/-- `send(SIPMessage message)`. -/
def sendMessage (result : JMSResult) (σ : JMSSender S M) (message : M) :
    JMSSender S M × JMSResult :=
  if σ.isRunning then
    σ.sendNow result (some (.message message))
  else if σ.isDelayed then
    ({ σ with messages := σ.messages ++ [message] }, .returns)
  else (σ, .returns)

/-- `send(List<SIPMessage> messages)`: the first exception ends the loop. -/
def sendMessages (σ : JMSSender S M) :
    List (JMSResult × M) → JMSSender S M × JMSResult
  | [] => (σ, .returns)
  | (result, m) :: messages =>
    match σ.sendMessage result m with
    | (σ, .returns) => σ.sendMessages messages
    | (σ, .throws) => (σ, .throws)

/-- A call of `send`, with how the JMS producer ends if it is reached. -/
def send (σ : JMSSender S M) : JMSResult × Serializable S M → JMSSender S M
  | (result, .session session) => (σ.sendSession result session).1
  | (result, .message message) => (σ.sendMessage result message).1

/-- A sender that is only sent to. -/
def machine (σ : JMSSender S M) :
    Machine (JMSSender S M) (JMSResult × Serializable S M) := ⟨σ, send⟩

end JMSSender

/-! ## The delayed sender -/

/-- Where the thread is in `DelayedSender.run`. A point that holds a session is
inside an iteration, after the local variable has been assigned. -/
inductive DelayedSenderPc (S : Type)
  | ready
  | loopGuard
  | waiting
  | checkRunning
  | sessionsSize
  | sessionsRunning
  | sessionsPeek
  | sessionsSend (session : Option S)
  | sessionsRemove (session : Option S)
  | messagesSize
  | messagesRunning
  | messagesPeek
  | messagesSend (session : Option S)
  | messagesRemove (session : Option S)
  | stopped
deriving DecidableEq, Repr

/-- A `DelayedSender` and its thread. -/
structure DelayedSender (S : Type) where
  running : Bool := false
  pc : DelayedSenderPc S := .ready
deriving DecidableEq, Repr

namespace DelayedSender

variable {S M : Type} [DecidableEq S]

def isRunning (self : DelayedSender S) : Bool := self.running

/-- `sessions.remove(session)`, which ignores `null`. -/
def remove (σ : JMSSender S M) : Option S → JMSSender S M
  | some session => { σ with sessions := σ.sessions.erase session }
  | none => σ

def goto (self : DelayedSender S) (pc : DelayedSenderPc S) : DelayedSender S :=
  { self with pc := pc }

/-- One step of `run`. -/
def step (result : JMSResult) (σ : JMSSender S M) (self : DelayedSender S) :
    JMSSender S M × DelayedSender S :=
  match self.pc with
  | .ready => (σ, { running := true, pc := .loopGuard })
  | .loopGuard =>
    (σ, self.goto (if self.running then .waiting else .stopped))
  | .waiting => (σ, self.goto .checkRunning)
  | .checkRunning =>
    (σ, self.goto (if self.isRunning then .sessionsSize else .loopGuard))
  | .sessionsSize =>
    (σ, self.goto
      (if σ.sessions.length > 0 then .sessionsRunning else .messagesSize))
  | .sessionsRunning =>
    (σ, self.goto (if self.isRunning then .sessionsPeek else .messagesSize))
  | .sessionsPeek => (σ, self.goto (.sessionsSend σ.sessions.head?))
  | .sessionsSend session =>
    match σ.sendNow result (session.map .session) with
    | (σ, .returns) => (σ, self.goto (.sessionsRemove session))
    -- caught by the handler around the body of the loop
    | (σ, .throws) => (σ, self.goto .loopGuard)
  | .sessionsRemove session => (remove σ session, self.goto .sessionsSize)
  | .messagesSize =>
    (σ, self.goto
      (if σ.messages.length > 0 then .messagesRunning else .loopGuard))
  | .messagesRunning =>
    (σ, self.goto (if self.isRunning then .messagesPeek else .loopGuard))
  -- the second loop, too, takes its elements from `sessions`
  | .messagesPeek => (σ, self.goto (.messagesSend σ.sessions.head?))
  | .messagesSend session =>
    match σ.sendNow result (session.map .session) with
    | (σ, .returns) => (σ, self.goto (.messagesRemove session))
    | (σ, .throws) => (σ, self.goto .loopGuard)
  | .messagesRemove session => (remove σ session, self.goto .messagesSize)
  | .stopped => (σ, self)

theorem step_send (result : JMSResult) (σ : JMSSender S M)
    (self : DelayedSender S) (session : Option S)
    (h : self.pc = .sessionsSend session ∨ self.pc = .messagesSend session) :
    (self.step result σ).1 = (σ.sendNow result (session.map .session)).1 := by
  unfold step
  rcases h with h | h <;> rw [h] <;> simp only <;>
    split <;> rename_i heq <;> rw [heq]

/-- The thread takes sessions out of their queue and touches nothing else. -/
theorem step_frame (result : JMSResult) (σ : JMSSender S M)
    (self : DelayedSender S) :
    ∃ sessions sent, sessions.Sublist σ.sessions ∧
      (self.step result σ).1 =
        { σ with sessions := sessions, sent := sent } := by
  have hsame : σ.sessions.Sublist σ.sessions := List.Sublist.refl _
  cases hpc : self.pc with
  | sessionsSend session =>
    obtain ⟨sent, hsent⟩ := σ.sendNow_frame result (session.map .session)
    exact ⟨σ.sessions, sent, hsame,
      (step_send result σ self session (Or.inl hpc)).trans hsent⟩
  | messagesSend session =>
    obtain ⟨sent, hsent⟩ := σ.sendNow_frame result (session.map .session)
    exact ⟨σ.sessions, sent, hsame,
      (step_send result σ self session (Or.inr hpc)).trans hsent⟩
  | sessionsRemove session | messagesRemove session =>
    unfold step
    simp only [hpc]
    cases session with
    | none => exact ⟨σ.sessions, σ.sent, hsame, rfl⟩
    | some s => exact ⟨σ.sessions.erase s, σ.sent, List.erase_sublist, rfl⟩
  | _ =>
    unfold step
    simp only [hpc]
    exact ⟨σ.sessions, σ.sent, hsame, rfl⟩

end DelayedSender

end Sipana
