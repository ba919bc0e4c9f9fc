import Mathlib.Data.Finmap
import Sipana.Lib.Machine
import Sipana.Protocol.SIPSession

/-!
# The SIP handler of the agent

`SIPHandler` follows every call it sees on the wire in a `SIPSession` object.
The objects are mutable and shared: the session table holds references, the
sender receives references. The model keeps that aliasing. `heap` maps a
reference to the current content of its object, `sessionList` maps a Call-ID to
a reference, and `sent` records what `messageSender.send` was called with,
together with the content the object had at that moment.

Logging has no effect on the state and is left out. A call of
`processRequest` or `processResponse` reaches `messageSender.send` at most
once; whether that call returns or throws is an input of the step.
-/

namespace Sipana

/-- A reference to a `SIPSession` object. -/
abbrev SessionRef := Nat

/-- One call of `messageSender.send`. -/
inductive Sent
  | session (ref : SessionRef) (content : SIPSession)
  | message (message : SIPMessage)
deriving DecidableEq, Repr

/-- How a call of `messageSender.send` ends. -/
inductive SendResult
  | returns
  | throws
deriving DecidableEq, Repr

structure SIPHandler where
  heap : SessionRef → SIPSession
  /-- The reference the next allocation returns. -/
  next : SessionRef
  sessionList : Finmap fun _ : String => SessionRef
  sent : List Sent

namespace SIPHandler

/-- The constructor `SIPHandler(Sender sender)`: an empty session table. -/
def new : SIPHandler where
  heap := fun _ => default
  next := 0
  sessionList := ∅
  sent := []

/-! ## Objects and the session table -/

/-- Mutation of the object behind a reference. -/
def modify (σ : SIPHandler) (session : SessionRef)
    (f : SIPSession → SIPSession) : SIPHandler :=
  { σ with heap := Function.update σ.heap session (f (σ.heap session)) }

/-- `messageFactory.createSession(request)`: a fresh object. -/
def createSession (σ : SIPHandler) (request : SIPRequest) :
    SIPHandler × SessionRef :=
  ({ σ with
      heap := Function.update σ.heap σ.next (SIPSession.ofRequest request)
      next := σ.next + 1 }, σ.next)

def addSession (σ : SIPHandler) (session : SessionRef) : SIPHandler :=
  { σ with sessionList := σ.sessionList.insert (σ.heap session).callId session }

def removeSession (σ : SIPHandler) (session : SessionRef) : SIPHandler :=
  { σ with sessionList := σ.sessionList.erase (σ.heap session).callId }

def getSession (σ : SIPHandler) (callId : String) : Option SessionRef :=
  σ.sessionList.lookup callId

def getCurrentSessionNumber (σ : SIPHandler) : Nat := σ.sessionList.keys.card

/-- The call `messageSender.send(x)`. -/
def send (σ : SIPHandler) (x : Sent) : SIPHandler :=
  { σ with sent := σ.sent ++ [x] }

def terminateSession (result : SendResult) (σ : SIPHandler)
    (session : SessionRef) : SIPHandler :=
  let σ := σ.send (.session session (σ.heap session))
  match result with
  | .returns => σ.removeSession session
  -- the exception is caught and logged, then the removal runs all the same
  | .throws => σ.removeSession session

/-! ## Requests -/

def processInvite (σ : SIPHandler) (invite : SIPRequest) : SIPHandler :=
  match σ.getSession invite.callID with
  | none =>
    let (σ, newSession) := σ.createSession invite
    σ.addSession newSession
  | some session => σ.modify session (·.addMessage (.request invite))

def processAck (result : SendResult) (σ : SIPHandler) (ack : SIPRequest) :
    SIPHandler :=
  match σ.getSession ack.callID with
  | some session =>
    let σ := σ.modify session (·.addMessage (.request ack))
    if (σ.heap session).state = .failed then
      σ.terminateSession result session
    else σ
  | none => σ

def processDisconnectRequest (σ : SIPHandler) (request : SIPRequest) :
    SIPHandler :=
  match σ.getSession request.callID with
  | some session =>
    let σ := σ.modify session (·.addMessage (.request request))
    let σ := σ.modify session ({ · with disconnectionStart := request.time })
    σ.modify session ({ · with state := .disconnecting })
  | none => σ

def processRequest (result : SendResult) (σ : SIPHandler)
    (request : SIPRequest) : SIPHandler :=
  let method := request.method
  if method = Request.INVITE then
    σ.processInvite request
  else if method = Request.ACK then
    σ.processAck result request
  else if method = Request.BYE ∨ method = Request.CANCEL then
    σ.processDisconnectRequest request
  else
    let (σ, newSession) := σ.createSession request
    σ.addSession newSession

/-! ## Responses -/

def processProvisionalResponse (σ : SIPHandler) (session : SessionRef)
    (response : SIPResponse) : SIPHandler :=
  if response.statusCode = Response.RINGING ∨
      response.statusCode = Response.SESSION_PROGRESS then
    -- only the first provisional response defines the setup time
    if (σ.heap session).state = .initiated then
      let σ := σ.modify session ({ · with setupTime := response.time })
      σ.modify session ({ · with state := .provisioned })
    else σ
  else σ

def processInviteOK (σ : SIPHandler) (session : SessionRef)
    (response : SIPResponse) : SIPHandler :=
  let σ :=
    if (σ.heap session).state = .initiated then
      σ.modify session ({ · with setupTime := response.time })
    else σ
  if (σ.heap session).state = .provisioned ∨
      (σ.heap session).state = .initiated then
    let σ := σ.modify session ({ · with establishedTime := response.time })
    σ.modify session ({ · with state := .established })
  else σ

def processCancelOK (result : SendResult) (σ : SIPHandler)
    (session : SessionRef) (response : SIPResponse) : SIPHandler :=
  let σ := σ.modify session ({ · with endTime := response.time })
  let σ := σ.modify session ({ · with state := .canceled })
  σ.terminateSession result session

def processByeOK (result : SendResult) (σ : SIPHandler)
    (session : SessionRef) (response : SIPResponse) : SIPHandler :=
  let σ := σ.modify session ({ · with endTime := response.time })
  let σ := σ.modify session ({ · with state := .completed })
  σ.terminateSession result session

def processSucessfulResponse (result : SendResult) (σ : SIPHandler)
    (session : SessionRef) (response : SIPResponse) : SIPHandler :=
  let method := response.relatedRequestMethod
  if response.statusCode = Response.OK then
    if method = Request.INVITE then
      σ.processInviteOK session response
    else if method = Request.CANCEL then
      σ.processCancelOK result session response
    else if method = Request.BYE then
      σ.processByeOK result session response
    else
      let σ := σ.modify session ({ · with setupTime := response.time })
      let σ := σ.modify session ({ · with endTime := response.time })
      let σ := σ.modify session ({ · with state := .completed })
      σ.terminateSession result session
  else σ

/-- Does nothing. -/
def processRedirectionResponse (σ : SIPHandler) (_session : SessionRef)
    (_response : SIPResponse) : SIPHandler := σ

def processFailureResponse (result : SendResult) (σ : SIPHandler)
    (session : SessionRef) (response : SIPResponse) : SIPHandler :=
  let σ := σ.modify session ({ · with endTime := response.time })
  let σ := σ.modify session ({ · with state := .failed })
  -- the state tested here is the one just written
  let σ :=
    if (σ.heap session).state ≠ .established then
      σ.modify session ({ · with setupTime := response.time })
    else σ
  σ.terminateSession result session

def processResponse (result : SendResult) (σ : SIPHandler)
    (response : SIPResponse) : SIPHandler :=
  match σ.getSession response.callID with
  | some session =>
    let σ := σ.modify session (·.addMessage (.response response))
    let σ :=
      if (σ.heap session).firstResponseTime = 0 then
        σ.modify session ({ · with firstResponseTime := response.time })
      else σ
    let statusCode := response.statusCode
    if statusCode ≥ 100 ∧ statusCode < 200 then
      σ.processProvisionalResponse session response
    else if statusCode ≥ 200 ∧ statusCode < 300 then
      σ.processSucessfulResponse result session response
    else if statusCode ≥ 300 ∧ statusCode < 400 then
      σ.processRedirectionResponse session response
    else if statusCode ≥ 400 ∧ statusCode < 700 then
      σ.processFailureResponse result session response
    else σ
  | none =>
    -- sent as a standalone message; an exception is caught and logged
    match result with
    | .returns => σ.send (.message (.response response))
    | .throws => σ.send (.message (.response response))

/-! ## Runs -/

/-- One call of `processRequest` or `processResponse`. -/
structure Call where
  message : SIPMessage
  /-- How `messageSender.send` ends if this call reaches it. -/
  result : SendResult := .returns
deriving DecidableEq, Repr

namespace Call

/-- A request given by the fields the handler decides on. -/
def request (method callID : String) (time : Int)
    (result : SendResult := .returns) : Call :=
  ⟨.request { callID, time, method }, result⟩

/-- A response given by the fields the handler decides on. -/
def response (statusCode : Int) (relatedRequestMethod callID : String)
    (time : Int) (result : SendResult := .returns) : Call :=
  ⟨.response { callID, time, statusCode, relatedRequestMethod }, result⟩

end Call

def process (σ : SIPHandler) (call : Call) : SIPHandler :=
  match call.message with
  | .request request => σ.processRequest call.result request
  | .response response => σ.processResponse call.result response

/-- The handler as a machine that starts empty. -/
def machine : Machine SIPHandler Call := ⟨new, process⟩

/-- The handler after a sequence of calls. -/
def run (calls : List Call) : SIPHandler := machine.run calls

/-- The sessions handed to the sender, with their content at that moment. -/
def sentSessions (σ : SIPHandler) : List (SessionRef × SIPSession) :=
  σ.sent.filterMap fun
    | .session ref content => some (ref, content)
    | .message _ => none

end SIPHandler

end Sipana
