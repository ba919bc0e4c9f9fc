import Sipana.Protocol.SIPMessage

/-!
# SIP sessions

`SIPSession` collects the messages of one call and the times of its milestones.
A time is a Java `long` in milliseconds and `0` means that the milestone has
not been reached.
-/

namespace Sipana

inductive SIPSessionState
  | initiated
  | established
  | completed
  | failed
  | timeout
  | provisioned
  | disconnecting
  | canceled
deriving DecidableEq, Repr

structure SIPSession where
  id : Int := 0
  startTime : Int := 0
  endTime : Int := 0
  firstResponseTime : Int := 0
  disconnectionStart : Int := 0
  establishedTime : Int := 0
  setupTime : Int := 0
  state : SIPSessionState
  callId : String
  requestMethod : String
  fromUser : String
  toUser : String
  messages : List SIPMessage := []
deriving DecidableEq, Repr

namespace SIPSession

def addMessage (s : SIPSession) (message : SIPMessage) : SIPSession :=
  { s with messages := s.messages ++ [message] }

/-- The constructor `SIPSession(SIPRequest request)`. -/
def ofRequest (request : SIPRequest) : SIPSession where
  messages := [.request request]
  requestMethod := request.method
  callId := request.callID
  startTime := request.time
  state := .initiated
  fromUser := request.fromUser
  toUser := request.toUser

instance : Inhabited SIPSession :=
  ⟨{ state := .initiated, callId := "", requestMethod := "", fromUser := "",
     toUser := "" }⟩

end SIPSession

end Sipana
