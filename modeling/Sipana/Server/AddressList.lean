import Sipana.Server.CsvText
import Sipana.Server.SIPSessionManager

/-!
# The address list of a search

The web page and the web service both take the addresses of a search as one
text, and each has its own `createIpAddrList`. They read every text alike. A
missing text is an empty list to the service, while the page dereferences it, so
`search` fails in the state that `reset` leaves.
-/

namespace Sipana

/-! ## The two front ends -/

structure SIPSessionController where
  startTime : Int := 0
  endTime : Int := 0
  requestMethod : Option String := none
  fromUser : Option String := none
  toUser : Option String := none
  callId : Option String := none
  ipAddrList : Option String := none
  selectedItems : Option (List String) := none
deriving DecidableEq, Repr

/-- `find(startTime, endTime, method, fromUser, toUser, callId, ipAddrList)`. -/
def SIPSessionManager.findBy (locale : Locale) (now : Int)
    (store : List SIPSession) (startTime endTime : Option Int)
    (method fromUser toUser callId : Option String)
    (ipAddrList : Option (List String)) : Option (List SIPSession) :=
  find locale now store {
    startDate := startTime
    endDate := endTime
    requestMethod := method
    fromUser := fromUser
    toUser := toUser
    callID := callId
    srcAddressList := ipAddrList }

namespace SIPSessionController

def createIpAddrList : Option String → Except RuntimeException (List String)
  | none => .error .nullPointer
  | some strIPAddrList => .ok (csvTokens strIPAddrList)

/-- The sessions that `search()` lists. `now` is the time of the call. -/
def search (locale : Locale) (now : Int) (store : List SIPSession)
    (c : SIPSessionController) :
    Except RuntimeException (Option (List SIPSession)) := do
  -- no end time has been set
  let endTimeFinal := if c.endTime = 0 then now else c.endTime
  let ipAddrList ← createIpAddrList c.ipAddrList
  return SIPSessionManager.findBy locale now store (some c.startTime)
    (some endTimeFinal) c.requestMethod c.fromUser c.toUser c.callId
    (some ipAddrList)

def reset (_ : SIPSessionController) : SIPSessionController where
  startTime := 0
  endTime := 0
  requestMethod := none
  fromUser := none
  toUser := none
  callId := none
  ipAddrList := none
  selectedItems := none

end SIPSessionController

namespace SIPSessionWSImpl

def createIpAddrList : Option String → Option (List String)
  | none => none
  | some strIPAddrList =>
    let tokens := csvTokens strIPAddrList
    -- a text without addresses is no list at all
    if tokens.length > 0 then some tokens else none

def getSIPSessionList (locale : Locale) (now : Int) (store : List SIPSession)
    (startTime endTime : Option Int)
    (method fromUser toUser callId strIpAddrList : Option String) :
    Option (List SIPSession) :=
  SIPSessionManager.findBy locale now store startTime endTime method fromUser
    toUser callId (createIpAddrList strIpAddrList)

theorem createIpAddrList_getD (text : String) :
    (createIpAddrList (some text)).getD [] = csvTokens text := by
  unfold createIpAddrList
  dsimp only
  split
  · rfl
  · next hlength => exact (List.length_eq_zero_iff.mp (by omega)).symm

end SIPSessionWSImpl

/-! ## What they read -/

/-- Both read the same addresses: the maximal runs of characters other than
space and comma. -/
def ReadAlike (input : Option String) : Prop :=
  ∃ addrList, SIPSessionController.createIpAddrList input = .ok addrList ∧
    (SIPSessionWSImpl.createIpAddrList input).getD [] = addrList ∧
    Separated spaceOrComma (input.getD "") addrList

/-- The page and the service read every text alike, and the page does not read
a missing one. -/
theorem readAlike_iff_given (input : Option String) :
    ReadAlike input ↔ input ≠ none := by
  cases input with
  | none =>
    refine ⟨fun h => ?_, fun h => absurd rfl h⟩
    obtain ⟨addrList, hread, -⟩ := h
    exact absurd hread nofun
  | some text =>
    refine ⟨fun _ => nofun, fun _ => ⟨csvTokens text, rfl, ?_, ?_⟩⟩
    · exact SIPSessionWSImpl.createIpAddrList_getD text
    · exact separated_csvTokens text

theorem missing_list_not_readAlike : ¬ ReadAlike none := by
  intro h
  obtain ⟨addrList, hread, -⟩ := h
  exact absurd hread nofun

/-! ## What they search -/

namespace SIPSessionController

variable {locale : Locale} {now : Int} {store : List SIPSession}
  {c : SIPSessionController}

/-- The manager makes no difference between no list and an empty one. -/
theorem findBy_getD (startTime endTime : Option Int)
    (method fromUser toUser callId : Option String)
    (ipAddrList : Option (List String)) :
    SIPSessionManager.findBy locale now store startTime endTime method fromUser
      toUser callId (some (ipAddrList.getD [])) =
    SIPSessionManager.findBy locale now store startTime endTime method fromUser
      toUser callId ipAddrList := by
  cases ipAddrList with
  | some list => rw [Option.getD_some]
  | none =>
    rw [Option.getD_none]
    unfold SIPSessionManager.findBy SIPSessionManager.find
    exact congrArg (Jpql.execute _ _) rfl

/-- A search on the page finds what the service finds for the same fields. -/
theorem search_eq_getSIPSessionList (h : c.ipAddrList ≠ none) :
    search locale now store c = .ok (SIPSessionWSImpl.getSIPSessionList locale
      now store (some c.startTime)
      (some (if c.endTime = 0 then now else c.endTime)) c.requestMethod
      c.fromUser c.toUser c.callId c.ipAddrList) := by
  obtain ⟨text, htext⟩ := Option.ne_none_iff_exists'.mp h
  have hread : createIpAddrList c.ipAddrList = .ok (csvTokens text) := by
    rw [htext]
    rfl
  rw [search, hread, htext, SIPSessionWSImpl.getSIPSessionList, ← findBy_getD,
    SIPSessionWSImpl.createIpAddrList_getD]
  rfl

/-- A search on the page fails exactly when there is no address text. -/
theorem search_fails_iff : search locale now store c = .error .nullPointer ↔
    c.ipAddrList = none := by
  constructor
  · intro h
    by_contra hgiven
    rw [search_eq_getSIPSessionList hgiven] at h
    exact absurd h nofun
  · intro h
    rw [search, h]
    rfl

end SIPSessionController

end Sipana
