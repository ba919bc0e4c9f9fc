import Sipana.Lib.Machine
import Sipana.Lib.Threads

/-!
# Capture sessions

`AbstractCaptureSession` with the captors of `CaptureSessionKFujii`. `start`
and `stop` may be called at any time and from any thread; each successful
`start` has a thread of its own execute `run`. `start`, `stop` and the accesses
to the state are synchronized, the field `captor` is not.

A step is one access to a field or one call into the capture library. The
library decides how the calls of `startCapture` end; `breakLoop` and `close`,
which declare no exception, return. A loop over the packets may end whenever it
is given a step: after `breakLoop`, or for a reason of its own.
-/

namespace Sipana

/-- `STATE_RUNINNG`, `STATE_IDLE` and `STATE_ERROR`. -/
inductive CaptureState
  | runinng
  | idle
  | error
deriving DecidableEq, Repr

/-- How a call ends. -/
inductive CaptureResult
  | returns
  | throws
deriving DecidableEq, Repr

/-- A `JpcapCaptor`, with the number of times it was closed. -/
structure Captor where
  loopBroken : Bool := false
  closed : Nat := 0
deriving DecidableEq, Repr

/-- Where a call is in `stop`. -/
inductive StopCapturePc
  | entering
  | testCaptor
  | breakLoop
  | close
  | leaving (result : CaptureResult)
  | left (result : CaptureResult)
deriving DecidableEq, Repr

/-- Where a thread is in `run`. -/
inductive CapturePc
  | setRunning
  -- `startCapture`
  | selectDevice
  | openDevice
  | setFilter
  | loopPacket
  -- the handlers of the exceptions
  | setError
  -- the `finally` block
  | testState
  | stopping (pc : StopCapturePc)
  | setIdle
  | setFailed
  | finished
deriving DecidableEq, Repr

structure CaptureSession where
  state : CaptureState := .idle
  /-- Somebody is inside a synchronized method. -/
  locked : Bool := false
  /-- The number of the captor in its order of creation. -/
  captor : Option Nat := none
  captors : List Captor := []
  /-- The threads that execute `run`. -/
  runs : List CapturePc := []
  /-- The calls of `stop` from outside. -/
  stops : List StopCapturePc := []
deriving DecidableEq, Repr

namespace CaptureSession

/-- `start`, which has no effect but the exception if the session is not
idle. -/
def start (σ : CaptureSession) : CaptureSession :=
  if σ.locked then σ
  else if σ.state = .idle then
    { σ with state := .runinng, runs := σ.runs ++ [.setRunning] }
  else σ

/-- A call of `breakLoop` or `close`, which returns if there is a captor. -/
def onCaptor (σ : CaptureSession) (f : Captor → Captor) (pc : StopCapturePc) :
    CaptureSession × StopCapturePc :=
  match σ.captor with
  | some c => ({ σ with captors := σ.captors.modify c f }, pc)
  | none => (σ, .leaving .throws)

/-- One step of `stop`, and of `stopCapture` in it. -/
def stopStep (σ : CaptureSession) :
    StopCapturePc → CaptureSession × StopCapturePc
  | .entering =>
    if σ.locked then (σ, .entering)
    else ({ σ with locked := true }, .testCaptor)
  | .testCaptor =>
    (σ, if σ.captor ≠ none then .breakLoop else .leaving .throws)
  | .breakLoop => σ.onCaptor ({ · with loopBroken := true }) .close
  | .close =>
    σ.onCaptor (fun captor => { captor with closed := captor.closed + 1 })
      (.leaving .returns)
  | .leaving result => ({ σ with locked := false }, .left result)
  | .left result => (σ, .left result)

/-- `setState`, which waits for the lock. -/
def setState (σ : CaptureSession) (state : CaptureState)
    (before after : CapturePc) : CaptureSession × CapturePc :=
  if σ.locked then (σ, before) else ({ σ with state := state }, after)

/-- A call into the library: on an exception `run` goes to its handlers. -/
def onReturn (result : CaptureResult) (σ σ' : CaptureSession)
    (pc : CapturePc) : CaptureSession × CapturePc :=
  match result with
  | .returns => (σ', pc)
  | .throws => (σ, .setError)

/-- One step of `run`. -/
def runStep (result : CaptureResult) (σ : CaptureSession) :
    CapturePc → CaptureSession × CapturePc
  | .setRunning => σ.setState .runinng .setRunning .selectDevice
  | .selectDevice => onReturn result σ σ .openDevice
  | .openDevice =>
    onReturn result σ
      { σ with
        captors := σ.captors ++ [{}]
        captor := some σ.captors.length } .setFilter
  | .setFilter => onReturn result σ σ .loopPacket
  | .loopPacket => onReturn result σ σ .testState
  | .setError => σ.setState .error .setError .testState
  | .testState =>
    if σ.locked then (σ, .testState)
    else (σ, if σ.state = .runinng then .stopping .entering else .finished)
  | .stopping pc =>
    match σ.stopStep pc with
    | (σ, .left .returns) => (σ, .setIdle)
    | (σ, .left .throws) => (σ, .setFailed)
    | (σ, pc) => (σ, .stopping pc)
  | .setIdle => σ.setState .idle .setIdle .finished
  | .setFailed => σ.setState .error .setFailed .finished
  | .finished => (σ, .finished)

/-- Who moves next. -/
inductive Action
  | start
  | stop
  | stops (i : Nat)
  | runs (k : Nat) (result : CaptureResult)
deriving DecidableEq, Repr

def step (σ : CaptureSession) : Action → CaptureSession
  | .start => σ.start
  | .stop => { σ with stops := σ.stops ++ [.entering] }
  | .stops i =>
    match σ.stops[i]? with
    | none => σ
    | some pc =>
      let (σ, pc) := σ.stopStep pc
      { σ with stops := σ.stops.set i pc }
  | .runs k result =>
    match σ.runs[k]? with
    | none => σ
    | some pc =>
      let (σ, pc) := σ.runStep result pc
      { σ with runs := σ.runs.set k pc }

/-- The session right after its creation. -/
def machine : Machine CaptureSession Action := ⟨{}, step⟩

end CaptureSession

end Sipana
