import Sipana.Lib.EntityStore
import Sipana.Lib.Machine
import Sipana.Protocol.SIPSession

/-!
# The message-driven bean of the server

`SIPSessionMDB` takes what the agents send from the queue: sessions, which
`SIPSessionManagerBean` saves, and standalone messages, which are added to the
stored session with their Call-ID. The store is a table of sessions. Two things
are assumed of it that `orm.xml` leaves open: the generated ids count 1, 2, 3
and so on, and the messages of a row keep the order in which they were added.

An exception ends the processing of a message and is caught and logged in
`processObjectMessage`.
-/

namespace Sipana

/-! ## `SIPSessionManagerBean` -/

abbrev SIPSessionManager := EntityStore SIPSession

namespace SIPSessionManager

/-- The session as the entity of row `k`. -/
def entity (session : SIPSession) (k : Nat) : SIPSession :=
  { session with id := k + 1 }

def findByCallID (σ : SIPSessionManager) (callID : String) :
    Except PersistenceException (Option Nat) :=
  match EntityStore.getSingleResult (σ.select (·.callId = callID)) with
  | .ok session => .ok (some session)
  | .error .noResult => .ok none
  -- not caught here
  | .error .nonUniqueResult => .error .nonUniqueResult

def save (σ : SIPSessionManager) (session : SIPSession) : SIPSessionManager :=
  if session.id > 0 then σ.merge (session.id.toNat - 1) (entity session)
  else σ.persist (entity session)

end SIPSessionManager

/-! ## `SIPSessionMDB` -/

/-- What `ObjectMessage.getObject` returns. -/
inductive JMSObject
  | session (session : SIPSession)
  | message (message : SIPMessage)
  | other
deriving DecidableEq, Repr

inductive JMSMessage
  | objectMessage (object : JMSObject)
  | textMessage (text : String)
  | other
deriving DecidableEq, Repr

namespace SIPSessionMDB

def addSIPSession (manager : SIPSessionManager) (session : SIPSession) :
    SIPSessionManager :=
  manager.save session

def addSIPMessage (manager : SIPSessionManager) (message : SIPMessage) :
    Except PersistenceException SIPSessionManager :=
  match manager.findByCallID message.callID with
  | .error e => .error e
  | .ok (some session) => .ok (manager.update session (·.addMessage message))
  -- "Message SIP session not found. Message discarted"
  | .ok none => .ok manager

def processObjectMessage (manager : SIPSessionManager) (object : JMSObject) :
    SIPSessionManager :=
  match object with
  | .session session => addSIPSession manager session
  | .message message =>
    match addSIPMessage manager message with
    | .ok manager => manager
    -- any `Throwable` is caught and logged
    | .error _ => manager
  | .other => manager

/-- The text is logged. -/
def processTextMessage (manager : SIPSessionManager) (_text : String) :
    SIPSessionManager := manager

def onMessage (manager : SIPSessionManager) (message : JMSMessage) :
    SIPSessionManager :=
  match message with
  | .objectMessage object => processObjectMessage manager object
  | .textMessage text => processTextMessage manager text
  | .other => manager

/-- The bean with an empty store. -/
def machine : Machine SIPSessionManager JMSMessage := ⟨⟨[]⟩, onMessage⟩

/-- The store after a sequence of messages. -/
def run (messages : List JMSMessage) : SIPSessionManager :=
  machine.run messages

end SIPSessionMDB

end Sipana
