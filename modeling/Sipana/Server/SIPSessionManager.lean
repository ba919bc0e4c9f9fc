import Sipana.Lib.JpqlMeaning
import Sipana.Protocol.SIPSession

/-!
# Searching sessions

`SIPSessionManagerBean.find(SIPSessionFindParams)` puts a query text together
from the parameters that are set and has it executed. Upper-casing depends on
the locale of the server and is a parameter; all that is used of it is that it
neither adds nor removes quotes.
-/

namespace Sipana

structure SIPSessionFindParams where
  startDate : Option Int := none
  endDate : Option Int := none
  requestMethod : Option String := none
  callID : Option String := none
  responseCode : Option Int := none
  fromUser : Option String := none
  toUser : Option String := none
  srcAddressList : Option (List String) := none
  dstAddressList : Option (List String) := none
  state : Option SIPSessionState := none
deriving DecidableEq, Repr

/-- The default locale. -/
structure Locale where
  toUpperCase : String → String
  quotes_toUpperCase : ∀ s, Jpql.quotes (toUpperCase s) = Jpql.quotes s

theorem toUpper_eq_quote (c : Char) : c.toUpper = '\'' ↔ c = '\'' := by
  refine ⟨fun h => ?_, fun h => by subst h; decide⟩
  unfold Char.toUpper at h
  split at h
  · -- the upper-case letters come after the quote
    next hlower =>
    have hval := congrArg Char.val h
    grind
  · exact h

/-- Upper-casing as most locales have it for ASCII texts. -/
def asciiLocale : Locale where
  toUpperCase s := String.ofList (s.toList.map Char.toUpper)
  quotes_toUpperCase s := by
    unfold Jpql.quotes
    rw [String.toList_ofList]
    induction s.toList with
    | nil => rfl
    | cons c cs ih => simp [List.count_cons, ih, toUpper_eq_quote]

namespace SIPSessionFindParams

/-- The test `value != null && !value.equals("")`. -/
def given (value : Option String) : Option String := value.filter (· ≠ "")

def ipAddrList (params : SIPSessionFindParams) : List String :=
  params.dstAddressList.getD [] ++ params.srcAddressList.getD []

end SIPSessionFindParams

namespace SIPSessionManager

open SIPSessionFindParams Jpql

variable (locale : Locale)

/-- What is appended if the value is given. -/
def appendIf (value : Option String) (text : String → String) : String :=
  ((given value).map text).getD ""

def appendAddresses (ipAddrList : List String) : String :=
  if ipAddrList.length > 0 then
    let csvList := "','".intercalate ipAddrList
    let ipAddrInList := "'" ++ csvList ++ "'"
    "AND (m.srcAddress IN (" ++ ipAddrInList ++
      ") OR m.dstAddress IN (" ++ ipAddrInList ++ ")) "
  else ""

/-- The part of the condition for the values that are given. -/
def appendFilters (params : SIPSessionFindParams) : String :=
  appendIf params.requestMethod (fun method =>
    "AND s.requestMethod = '" ++ locale.toUpperCase method ++ "' ") ++
  appendIf params.fromUser (fun fromUser =>
    "AND s.fromUser LIKE '%" ++ fromUser ++ "%' ") ++
  appendIf params.toUser (fun toUser =>
    "AND s.toUser LIKE '%" ++ toUser ++ "%' ") ++
  appendIf params.callID (fun callID =>
    "AND s.callId LIKE '%" ++ callID ++ "%' ") ++
  appendAddresses params.ipAddrList

/-- The content of `sbQuery` in the end. -/
def queryText (params : SIPSessionFindParams) : String :=
  "SELECT DISTINCT s FROM SIPSession s " ++
  (if params.ipAddrList.length > 0 then "INNER JOIN s.messages AS m "
    else "") ++
  "WHERE s.startTime >= :start AND s.endTime <= :end " ++
  appendFilters locale params ++
  "ORDER BY s.startTime DESC"

/-! ## The tables -/

def sessionFields (s : SIPSession) : Fields
  | "startTime" => some (.number s.startTime)
  | "endTime" => some (.number s.endTime)
  | "requestMethod" => some (.string s.requestMethod)
  | "fromUser" => some (.string s.fromUser)
  | "toUser" => some (.string s.toUser)
  | "callId" => some (.string s.callId)
  | _ => none

def messageFields (m : SIPMessage) : Fields
  | "srcAddress" => some (.string m.base.srcAddress)
  | "dstAddress" => some (.string m.base.dstAddress)
  | _ => none

/-- The sessions in the database, with their messages. -/
def database (store : List SIPSession) : Database SIPSession where
  entities
    | "SIPSession" => store
    | _ => []
  fields := sessionFields
  collection s
    | "messages" => s.messages.map messageFields
    | _ => []

/-- The parameters of the query. `now` is the time of the call. -/
def arguments (now : Int) (params : SIPSessionFindParams) :
    String → Option Value
  | "start" => some (.number (params.startDate.getD 0))
  | "end" => some (.number (params.endDate.getD now))
  | _ => none

/-- `find(SIPSessionFindParams)`; there is no result if the text is not a
query. -/
def find (now : Int) (store : List SIPSession) (params : SIPSessionFindParams) :
    Option (List SIPSession) :=
  execute (database store) (arguments now params) (queryText locale params)

/-! ## The query of a text -/

def methodCondition (method : String) : Condition :=
  .compare ⟨"s", "requestMethod"⟩ .eq (.literal (locale.toUpperCase method))

/-- A text is searched for. -/
def likeCondition (field value : String) : Condition :=
  .like ⟨"s", field⟩ ("%" ++ value ++ "%")

def addressConditions : List String → List Condition
  | [] => []
  | a :: as => [.or (.isIn ⟨"m", "srcAddress"⟩ a as)
      (.isIn ⟨"m", "dstAddress"⟩ a as)]

/-- The conditions besides those on the times. -/
def filters (params : SIPSessionFindParams) : List Condition :=
  ((given params.requestMethod).map (methodCondition locale)).toList ++
  ((given params.fromUser).map (likeCondition "fromUser")).toList ++
  ((given params.toUser).map (likeCondition "toUser")).toList ++
  ((given params.callID).map (likeCondition "callId")).toList ++
  addressConditions params.ipAddrList

/-- The query that `queryText` is meant to be. -/
def findQuery (params : SIPSessionFindParams) : Query where
  name := "s"
  entity := "SIPSession"
  join := if params.ipAddrList.length > 0 then some ⟨"messages", "m"⟩ else none
  condition := Condition.all
    (.compare ⟨"s", "startTime"⟩ .ge (.parameter "start"))
    (.compare ⟨"s", "endTime"⟩ .le (.parameter "end") :: filters locale params)
  orderBy := "startTime"

end SIPSessionManager

end Sipana
