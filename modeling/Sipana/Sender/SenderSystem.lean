import Sipana.Sender.JMSSender

/-!
# The sender and its threads

`start`, `stop` and `onException` may be called at any time and from any
thread; a `DelayedSender` and a `SenderReconnector` are run by a thread of
their own, and a reconnector calls `start` itself. The system is the shared
sender together with everybody who is inside one of these methods. A step is
one access to a shared variable or one call into JMS or JNDI.

Creating a delayed sender or a reconnector, assigning it and starting its
thread is one step: until the thread has begun, its flag reads the same whether
or not it has been started. The JMS provider and the JNDI directory are inputs.
-/

namespace Sipana

/-! ## Program points -/

inductive StartPc
  | initialContext
  | lookupFactory
  | lookupDestination
  | closeContext
  | createConnection
  | setExceptionListener
  | createSession
  | createProducer
  | setRunning
  | startDelayedSender
  -- the handler of the exception
  | setFailed
  | testReconnector
  | startReconnector
  | returned
deriving DecidableEq, Repr

inductive StopPc
  | testDelayedSender
  | stopDelayedSender
  | clearRunning (delayedSender : Nat)
  | testRunning
  | closeConnection
  | returned
deriving DecidableEq, Repr

inductive OnExceptionPc
  | testRunning
  | setFailed
  | testDelayedSender
  | testDelayedSenderRunning
  | stopDelayedSender
  | clearRunning (delayedSender : Nat)
  | dropDelayedSender
  | startReconnector
  | returned
deriving DecidableEq, Repr

/-- A call of one of the three methods from outside. -/
inductive Frame
  | start (pc : StartPc)
  | stop (pc : StopPc)
  | onException (pc : OnExceptionPc)
deriving DecidableEq, Repr

/-- Where the thread is in `SenderReconnector.run`. -/
inductive SenderReconnectorPc
  | ready
  | guardState
  | guardRunning
  | waiting
  | testRunning
  | starting (pc : StartPc)
  | clearRunning
  | left
deriving DecidableEq, Repr

/-- A `SenderReconnector` and its thread. -/
structure SenderReconnector where
  running : Bool := false
  pc : SenderReconnectorPc := .ready
deriving DecidableEq, Repr

structure SenderSystem (S M : Type) where
  sender : JMSSender S M
  /-- Which of the connections created so far are open. -/
  connections : List Bool := []
  delayedSenders : List (DelayedSender S) := []
  reconnectors : List SenderReconnector := []
  calls : List Frame := []
deriving DecidableEq, Repr

namespace SenderReconnector

def isRunning (self : SenderReconnector) : Bool := self.running

def goto (self : SenderReconnector) (pc : SenderReconnectorPc) :
    SenderReconnector :=
  { self with pc := pc }

/-- One step of `run` outside the call of `start`. -/
def step (state : SenderState) (self : SenderReconnector) : SenderReconnector :=
  match self.pc with
  | .ready => { running := true, pc := .guardState }
  | .guardState =>
    self.goto (if state = .failed then .guardRunning else .left)
  | .guardRunning => self.goto (if self.running then .waiting else .left)
  | .waiting => self.goto .testRunning
  | .testRunning =>
    self.goto (if self.running then .starting .initialContext else .guardState)
  | .clearRunning => { running := false, pc := .guardState }
  | .starting _ | .left => self

end SenderReconnector

namespace SenderSystem

variable {S M : Type}

/-- Assignments to fields of the sender. -/
def assign (σ : SenderSystem S M) (f : JMSSender S M → JMSSender S M) :
    SenderSystem S M :=
  { σ with sender := f σ.sender }

def setState (σ : SenderSystem S M) (state : SenderState) : SenderSystem S M :=
  σ.assign ({ · with state := state })

/-- `running.set(false)` in `DelayedSender.stop`. -/
def clearDelayedSender (σ : SenderSystem S M) (k : Nat) : SenderSystem S M :=
  { σ with delayedSenders :=
      σ.delayedSenders.modify k ({ · with running := false }) }

/-- `delayedSender.isRunning()`. -/
def delayedSenderRuns (σ : SenderSystem S M) (k : Nat) : Bool :=
  (σ.delayedSenders[k]?.map DelayedSender.isRunning).getD false

/-- `reconnector.isRunning()`. -/
def reconnectorRuns (σ : SenderSystem S M) (k : Nat) : Bool :=
  (σ.reconnectors[k]?.map SenderReconnector.isRunning).getD false

def startDelayedSender (σ : SenderSystem S M) : SenderSystem S M :=
  { σ with
    delayedSenders := σ.delayedSenders ++ [{}]
    sender := { σ.sender with delayedSender := some σ.delayedSenders.length } }

def startSenderReconnector (σ : SenderSystem S M) : SenderSystem S M :=
  { σ with
    reconnectors := σ.reconnectors ++ [{}]
    sender := { σ.sender with reconnector := some σ.reconnectors.length } }

/-! ## The methods of the sender -/

/-- A call into JNDI or JMS: on an exception `start` goes to its handler. -/
def onReturn (result : JMSResult) (σ σ' : SenderSystem S M) (pc : StartPc) :
    SenderSystem S M × StartPc :=
  match result with
  | .returns => (σ', pc)
  | .throws => (σ, .setFailed)

/-- One step of `start()`. -/
def startStep (result : JMSResult) (σ : SenderSystem S M) :
    StartPc → SenderSystem S M × StartPc
  | .initialContext => onReturn result σ σ .lookupFactory
  | .lookupFactory => onReturn result σ σ .lookupDestination
  | .lookupDestination => onReturn result σ σ .closeContext
  | .closeContext => onReturn result σ σ .createConnection
  | .createConnection =>
    onReturn result σ
      { σ with
        connections := σ.connections ++ [true]
        sender := { σ.sender with connection := some σ.connections.length } }
      .setExceptionListener
  | .setExceptionListener => onReturn result σ σ .createSession
  | .createSession =>
    onReturn result σ
      (σ.assign fun s => { s with session := s.connection }) .createProducer
  | .createProducer =>
    onReturn result σ
      (σ.assign fun s => { s with producer := s.session }) .setRunning
  | .setRunning =>
    (σ.setState .running,
      if σ.sender.isDelayed then .startDelayedSender else .returned)
  | .startDelayedSender => (σ.startDelayedSender, .returned)
  | .setFailed => (σ.setState .failed, .testReconnector)
  | .testReconnector =>
    match σ.sender.reconnector with
    | none => (σ, .startReconnector)
    | some k =>
      (σ, if ¬ σ.reconnectorRuns k then .startReconnector else .returned)
  | .startReconnector => (σ.startSenderReconnector, .returned)
  | .returned => (σ, .returned)

/-- One step of `stop()`. -/
def stopStep (result : JMSResult) (σ : SenderSystem S M) :
    StopPc → SenderSystem S M × StopPc
  | .testDelayedSender =>
    (σ, if σ.sender.delayedSender ≠ none then .stopDelayedSender
      else .testRunning)
  | .stopDelayedSender =>
    match σ.sender.delayedSender with
    -- set to `null` since the test: a `NullPointerException`
    | none => (σ, .returned)
    | some k => (σ, .clearRunning k)
  | .clearRunning k => (σ.clearDelayedSender k, .testRunning)
  | .testRunning =>
    (σ, if σ.sender.isRunning then .closeConnection else .returned)
  | .closeConnection =>
    match result, σ.sender.connection with
    | .returns, some c =>
      ({ σ with connections := σ.connections.set c false }, .returned)
    | _, _ => (σ, .returned)
  | .returned => (σ, .returned)

/-- One step of `onException(e)`. -/
def onExceptionStep (σ : SenderSystem S M) :
    OnExceptionPc → SenderSystem S M × OnExceptionPc
  | .testRunning =>
    (σ, if σ.sender.isRunning then .setFailed else .returned)
  | .setFailed => (σ.setState .failed, .testDelayedSender)
  | .testDelayedSender =>
    (σ, if σ.sender.delayedSender ≠ none then .testDelayedSenderRunning
      else .startReconnector)
  | .testDelayedSenderRunning =>
    match σ.sender.delayedSender with
    -- set to `null` since the test: a `NullPointerException`
    | none => (σ, .returned)
    | some k =>
      (σ, if σ.delayedSenderRuns k then .stopDelayedSender
        else .startReconnector)
  | .stopDelayedSender =>
    match σ.sender.delayedSender with
    | none => (σ, .returned)
    | some k => (σ, .clearRunning k)
  | .clearRunning k => (σ.clearDelayedSender k, .dropDelayedSender)
  | .dropDelayedSender =>
    (σ.assign ({ · with delayedSender := none }), .startReconnector)
  | .startReconnector => (σ.startSenderReconnector, .returned)
  | .returned => (σ, .returned)

/-! ## The system -/

/-- Who moves next. -/
inductive Action
  | start
  | stop
  | onException
  | call (i : Nat) (result : JMSResult)
  | delayedSender (k : Nat) (result : JMSResult)
  | reconnector (k : Nat) (result : JMSResult)
deriving DecidableEq, Repr

def enter (σ : SenderSystem S M) (frame : Frame) : SenderSystem S M :=
  { σ with calls := σ.calls ++ [frame] }

/-- One step of the `i`-th call. -/
def callStep (σ : SenderSystem S M) (i : Nat) (result : JMSResult) :
    SenderSystem S M :=
  match σ.calls[i]? with
  | none => σ
  | some (.start pc) =>
    let (σ, pc) := σ.startStep result pc
    { σ with calls := σ.calls.set i (.start pc) }
  | some (.stop pc) =>
    let (σ, pc) := σ.stopStep result pc
    { σ with calls := σ.calls.set i (.stop pc) }
  | some (.onException pc) =>
    let (σ, pc) := σ.onExceptionStep pc
    { σ with calls := σ.calls.set i (.onException pc) }

/-- One step of the thread of the `k`-th delayed sender. -/
def delayedSenderStep [DecidableEq S] (σ : SenderSystem S M) (k : Nat)
    (result : JMSResult) : SenderSystem S M :=
  match σ.delayedSenders[k]? with
  | none => σ
  | some d =>
    let (sender, d) := d.step result σ.sender
    { σ with sender := sender, delayedSenders := σ.delayedSenders.set k d }

/-- One step of the thread of the `k`-th reconnector. -/
def reconnectorStep (σ : SenderSystem S M) (k : Nat) (result : JMSResult) :
    SenderSystem S M :=
  match σ.reconnectors[k]? with
  | none => σ
  | some r =>
    match r.pc with
    | .starting pc =>
      let (σ, pc) := σ.startStep result pc
      let r := r.goto (if pc = .returned then .clearRunning else .starting pc)
      { σ with reconnectors := σ.reconnectors.set k r }
    | _ =>
      { σ with reconnectors := σ.reconnectors.set k (r.step σ.sender.state) }

def step [DecidableEq S] (σ : SenderSystem S M) : Action → SenderSystem S M
  | .start => σ.enter (.start .initialContext)
  | .stop => σ.enter (.stop .testDelayedSender)
  | .onException => σ.enter (.onException .testRunning)
  | .call i result => σ.callStep i result
  | .delayedSender k result => σ.delayedSenderStep k result
  | .reconnector k result => σ.reconnectorStep k result

/-- The system right after `new JMSSender()`. -/
def new (isDelayed : Bool) (bufferSize : Int) : SenderSystem S M :=
  { sender := { isDelayed, bufferSize } }

def machine [DecidableEq S] (isDelayed : Bool) (bufferSize : Int) :
    Machine (SenderSystem S M) Action := ⟨new isDelayed bufferSize, step⟩

end SenderSystem

end Sipana
