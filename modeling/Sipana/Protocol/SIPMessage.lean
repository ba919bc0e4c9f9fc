import Mathlib.Tactic.Common

/-!
# SIP messages

`SIPMessage`, `SIPRequest` and `SIPResponse` as the agent fills them from a
captured packet: the Call-ID and the users come from the parsed headers, the
endpoints and the capture time from the packet. Java's abstract class is the
base record here and its two subclasses are the constructors of `SIPMessage`.
A field that may be `null` is an `Option`.
-/

namespace Sipana

/-! ## Constants of `javax.sip.message` -/

namespace Request

abbrev INVITE : String := "INVITE"
abbrev ACK : String := "ACK"
abbrev BYE : String := "BYE"
abbrev CANCEL : String := "CANCEL"
abbrev REGISTER : String := "REGISTER"

end Request

namespace Response

abbrev RINGING : Int := 180
abbrev SESSION_PROGRESS : Int := 183
abbrev OK : Int := 200

theorem values : RINGING = 180 ∧ SESSION_PROGRESS = 183 ∧ OK = 200 :=
  ⟨rfl, rfl, rfl⟩

end Response

/-! ## Messages -/

/-- The fields of the abstract class `SIPMessage`. -/
structure SIPMessageBase where
  id : Int := 0
  callID : String
  srcAddress : String := ""
  srcPort : Int := 0
  dstAddress : String := ""
  dstPort : Int := 0
  requestAddr : Option String := none
  fromUser : String := ""
  toUser : String := ""
  fromDisplay : Option String := none
  toDisplay : Option String := none
  maxForwards : Int := 0
  time : Int
deriving DecidableEq, Repr

structure SIPRequest extends SIPMessageBase where
  method : String
deriving DecidableEq, Repr

structure SIPResponse extends SIPMessageBase where
  statusCode : Int
  reasonPhrase : String := ""
  relatedRequestMethod : String
deriving DecidableEq, Repr

/-- An object of static type `SIPMessage`. -/
inductive SIPMessage
  | request (request : SIPRequest)
  | response (response : SIPResponse)
deriving DecidableEq, Repr

namespace SIPMessage

def base : SIPMessage → SIPMessageBase
  | request r => r.toSIPMessageBase
  | response r => r.toSIPMessageBase

def callID (m : SIPMessage) : String := m.base.callID

def time (m : SIPMessage) : Int := m.base.time

def setTime (t : Int) : SIPMessage → SIPMessage
  | request r => request { r with time := t }
  | response r => response { r with time := t }

/-- Setters of the abstract class. -/
def mapBase (f : SIPMessageBase → SIPMessageBase) : SIPMessage → SIPMessage
  | request r => request { r with toSIPMessageBase := f r.toSIPMessageBase }
  | response r => response { r with toSIPMessageBase := f r.toSIPMessageBase }

@[simp] theorem base_mapBase (f : SIPMessageBase → SIPMessageBase)
    (m : SIPMessage) : (m.mapBase f).base = f m.base := by
  cases m <;> rfl

@[simp] theorem callID_request (r : SIPRequest) :
    (request r).callID = r.callID := rfl

@[simp] theorem callID_response (r : SIPResponse) :
    (response r).callID = r.callID := rfl

@[simp] theorem callID_setTime (t : Int) (m : SIPMessage) :
    (m.setTime t).callID = m.callID := by
  cases m <;> rfl

end SIPMessage

end Sipana
