import Sipana.Protocol.SIPMessage

/-!
# The message factory

`SIPFactory` turns what the NIST parser delivers into the messages of the agent.
The parser itself is a parameter. Its objects are modelled as far as the factory
reads them: an accessor returns `null` for a header the message does not have,
and a URI is a `SipURI` for the schemes `sip` and `sips` only.
-/

namespace Sipana

/-! ## What the parser delivers -/

namespace Nist

structure SipURI where
  /-- The scheme is `sips`. -/
  isSecure : Bool := false
  user : Option String := none
  host : String
  /-- `-1` if the URI has none. -/
  port : Int := -1
deriving DecidableEq, Repr

inductive URI
  | sipURI (uri : SipURI)
  | telURL (phoneNumber : String)
  | genericURI (uri : String)
deriving DecidableEq, Repr

/-- The address in a `From` or `To` header. -/
structure Address where
  uri : URI
  displayName : Option String := none
deriving DecidableEq, Repr

structure CSeq where
  method : String
deriving DecidableEq, Repr

/-- The headers of `gov.nist.javax.sip.message.SIPMessage`. -/
structure Headers where
  callIdHeader : Option String
  fromHeader : Option Address
  toHeader : Option Address
  cSeqHeader : Option CSeq
  maxForwardsHeader : Option Int := none
deriving DecidableEq, Repr

structure SIPRequest extends Headers where
  method : String
  requestURI : URI
deriving DecidableEq, Repr

structure SIPResponse extends Headers where
  statusCode : Int
  reasonPhrase : String
deriving DecidableEq, Repr

inductive SIPMessage
  | request (sipRequest : SIPRequest)
  | response (sipResponse : SIPResponse)
deriving DecidableEq, Repr

def SIPMessage.headers : SIPMessage → Headers
  | request r => r.toHeaders
  | response r => r.toHeaders

end Nist

/-! ## Exceptions -/

inductive JavaException
  | nullPointer
  | classCast
  | parse
deriving DecidableEq, Repr

/-- An access to what a reference points to. -/
def deref {α : Type} : Option α → Except JavaException α
  | some a => .ok a
  | none => .error .nullPointer

/-- The cast to `SipURI`. -/
def toSipURI : Nist.URI → Except JavaException Nist.SipURI
  | .sipURI uri => .ok uri
  | .telURL _ | .genericURI _ => .error .classCast

theorem bind_eq_ok {α β : Type} {x : Except JavaException α}
    {f : α → Except JavaException β} {b : β} :
    (x >>= f) = .ok b ↔ ∃ a, x = .ok a ∧ f a = .ok b := by
  cases x with
  | error e => simp [bind, Except.bind]
  | ok a => simp [bind, Except.bind]

@[simp] theorem deref_eq_ok {α : Type} {x : Option α} {a : α} :
    deref x = .ok a ↔ x = some a := by
  cases x <;> simp [deref]

@[simp] theorem toSipURI_eq_ok {uri : Nist.URI} {sipURI : Nist.SipURI} :
    toSipURI uri = .ok sipURI ↔ uri = .sipURI sipURI := by
  cases uri <;> simp [toSipURI]

/-! ## The factory -/

structure SIPFactory where
  /-- The parser. -/
  parseSIPMessage : String → Except JavaException (Option Nist.SIPMessage)

namespace SIPFactory

def getUser (uri : Nist.SipURI) : String :=
  let sbUser :=
    match uri.user with
    | some user => user ++ "@"
    | none => ""
  sbUser ++ uri.host

/-- The Call-ID and the users are set by `createMessage`. -/
def createSIPRequest (sipRequest : Nist.SIPRequest) :
    Except JavaException SIPRequest := do
  let maxForwards ← deref sipRequest.maxForwardsHeader
  let requestURI ← toSipURI sipRequest.requestURI
  let requestAddr := requestURI.host ++ ":" ++ toString requestURI.port
  return {
    callID := ""
    time := 0
    method := sipRequest.method
    maxForwards := maxForwards
    requestAddr := some requestAddr }

/-- The Call-ID and the users are set by `createMessage`. -/
def createSIPResponse (sipResponse : Nist.SIPResponse) :
    Except JavaException SIPResponse := do
  let cSeq ← deref sipResponse.cSeqHeader
  return {
    callID := ""
    time := 0
    statusCode := sipResponse.statusCode
    reasonPhrase := sipResponse.reasonPhrase
    relatedRequestMethod := cSeq.method }

/-- The part that depends on the class of the message. -/
def createByClass : Nist.SIPMessage → Except JavaException SIPMessage
  | .request sipRequest => do
    let request ← createSIPRequest sipRequest
    return .request request
  | .response sipResponse => do
    let response ← createSIPResponse sipResponse
    return .response response

/-- `createMessage(gov.nist.javax.sip.message.SIPMessage)`. -/
def createMessage :
    Option Nist.SIPMessage → Except JavaException (Option SIPMessage)
  | none => .ok none
  | some sipMessage => do
    let message ← createByClass sipMessage
    let callID ← deref sipMessage.headers.callIdHeader
    let fromAddress ← deref sipMessage.headers.fromHeader
    let fromURI ← toSipURI fromAddress.uri
    let toAddress ← deref sipMessage.headers.toHeader
    let toURI ← toSipURI toAddress.uri
    return some (message.mapBase fun base => { base with
      callID := callID
      fromUser := getUser fromURI
      fromDisplay := fromAddress.displayName
      toUser := getUser toURI
      toDisplay := toAddress.displayName })

/-- `createMessage(String)`. -/
def createMessageFrom (factory : SIPFactory) (data : String) :
    Except JavaException (Option SIPMessage) := do
  let sipMessage ← factory.parseSIPMessage data
  createMessage sipMessage

end SIPFactory

end Sipana
