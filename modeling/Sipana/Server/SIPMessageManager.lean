import Sipana.Lib.JpqlMembers
import Sipana.Server.QueryShape
import Sipana.Server.SessionIdList

/-!
# The messages of selected sessions

`SIPMessageManagerBean.findBySessionID` puts the ids of the sessions into the
text of a query, as string literals. The text is always read as the query it is
meant to be, as no id has a quote, and finds exactly the messages of these
sessions, the earliest first. A list that is `null` or empty finds nothing.

The id of a session is compared with a literal by the text of the number.
-/

namespace Sipana

namespace SIPMessageManager

open Jpql

/-- What `StringUtils.join` puts between commas, and `append` writes for the
`null` that it makes of `null`. -/
def idTexts : Option (List Int) → List String
  | none => ["null"]
  | some ids => ids.map toString

/-- The content of `sbQuery` in the end. -/
def queryText (sessionIdList : Option (List Int)) : String :=
  "SELECT m FROM SIPMessage m " ++ "INNER JOIN m.sipSession AS s " ++
    "WHERE s.id IN (" ++ "'" ++ "','".intercalate (idTexts sessionIdList) ++
    "') ORDER BY m.time"

/-! ## The tables -/

def messageFields (m : SIPMessage) : Fields
  | "time" => some (.number m.time)
  | _ => none

def sessionFields (s : SIPSession) : Fields
  | "id" => some (.string (toString s.id))
  | _ => none

/-- The rows of `sip_messages`, each with the session it refers to. -/
def messageRows (store : List SIPSession) : List (SIPMessage × SIPSession) :=
  store.flatMap fun s => s.messages.map fun m => (m, s)

def database (store : List SIPSession) :
    MemberDatabase (SIPMessage × SIPSession) where
  entities
    | "SIPMessage" => messageRows store
    | _ => []
  fields a := messageFields a.1
  owner a
    | "sipSession" => some (sessionFields a.2)
    | _ => none

/-- `findBySessionID(List<Long>)`; there is no result if the text is not a
query. -/
def findBySessionID (store : List SIPSession)
    (sessionIdList : Option (List Int)) : Option (List SIPMessage) :=
  (executeMembers (database store) (fun _ => none)
    (queryText sessionIdList)).map fun rows => rows.map Prod.fst

/-! ## The query of a text -/

def findQuery (value : String) (values : List String) : MemberQuery where
  name := "m"
  entity := "SIPMessage"
  join := ⟨"sipSession", "s"⟩
  condition := .isIn ⟨"s", "id"⟩ value values
  orderBy := "time"

/-- The text of a list of values is read as the query. -/
theorem tokens_text (value : String) (values : List String)
    (h : ∀ v ∈ value :: values, '\'' ∉ v.toList) :
    tokens ("SELECT m FROM SIPMessage m " ++ "INNER JOIN m.sipSession AS s " ++
      "WHERE s.id IN (" ++ "'" ++ "','".intercalate (value :: values) ++
      "') ORDER BY m.time") = (findQuery value values).tokens := by
  obtain ⟨ts, last, hlist, htokens⟩ :=
    SIPSessionManager.csvList_reads value values h
  have hselect : Reads .blank "SELECT m FROM SIPMessage m " [.word "SELECT",
      .word "m", .word "FROM", .word "SIPMessage", .word "m"] .blank := rfl
  have hjoin : Reads .blank "INNER JOIN m.sipSession AS s "
      ((⟨"sipSession", "s"⟩ : Join).tokens "m") .blank := rfl
  have hwhere : Reads .blank "WHERE s.id IN (" [.word "WHERE", .word "s",
      .symbol '.', .word "id", .word "IN", .symbol '('] .blank := rfl
  have hopen : Reads .blank "'" [] (.literal []) := rfl
  have hclose : Reads (.literal last) "') ORDER BY m.time"
      [.literal (String.ofList last), .symbol ')', .word "ORDER", .word "BY",
        .word "m", .symbol '.'] (.word ['t', 'i', 'm', 'e']) := rfl
  have hpending : (Mode.word ['t', 'i', 'm', 'e']).pending =
      [.word "time"] := rfl
  have hread := (((((hselect.append hjoin).append hwhere).append hopen).append
    hlist).append hclose).tokens
  rw [hpending] at hread
  rw [hread]
  -- the last value is emitted by the piece that follows the list
  have hlast : ∀ us, ts ++ .literal (String.ofList last) :: us =
      .literal value ::
        (values.flatMap fun v => [.symbol ',', .literal v]) ++ us := by
    intro us
    rw [← htokens, List.append_assoc]
    rfl
  simp only [List.append_assoc, List.cons_append, List.nil_append, hlast]
  simp [MemberQuery.tokens, findQuery, Join.tokens, Condition.tokens,
    Path.tokens]

/-! ## What is found -/

/-- A member is found if its session is among the values. -/
theorem meets_findQuery (store : List SIPSession) (value : String)
    (values : List String) (a : SIPMessage × SIPSession) :
    (findQuery value values).meets (database store) (fun _ => none) a =
      decide (toString a.2.id ∈ value :: values) := by
  simp [MemberQuery.meets, findQuery, database, Condition.holds, Path.value,
    MemberQuery.row, sessionFields]

/-- The messages of the sessions, the earliest first. -/
structure Retrieves (store : List SIPSession) (ids : List Int)
    (messages : List SIPMessage) : Prop where
  perm : messages.Perm
    ((store.filter (·.id ∈ ids)).flatMap SIPSession.messages)
  sorted : (messages.map SIPMessage.time).Pairwise (· ≤ ·)

theorem not_quote_mem_toString (id : Int) : '\'' ∉ (toString id).toList := by
  intro h
  rcases Decimal.mem_toString h with hminus | hdigit
  · exact absurd hminus (by decide)
  · exact absurd hdigit (by decide)

/-- Every list has values that stand for exactly its ids, the missing list and
the empty one a value that is the text of no number. -/
theorem exists_values (sessionIdList : Option (List Int)) :
    ∃ value values,
      "','".intercalate (idTexts sessionIdList) =
        "','".intercalate (value :: values) ∧
      (∀ v ∈ value :: values, '\'' ∉ v.toList) ∧
      ∀ id, toString id ∈ value :: values ↔ id ∈ sessionIdList.getD [] := by
  cases sessionIdList with
  | none =>
    refine ⟨"null", [], rfl, by decide, fun id => ?_⟩
    simp only [List.mem_singleton, Option.getD_none, List.not_mem_nil,
      iff_false]
    intro hnull
    have hn : 'n' ∈ (toString id).toList := by
      rw [hnull]
      decide
    rcases Decimal.mem_toString hn with hminus | hdigit
    · exact absurd hminus (by decide)
    · exact absurd hdigit (by decide)
  | some ids =>
    cases ids with
    | nil =>
      refine ⟨"", [], rfl, by decide, fun id => ?_⟩
      simp only [List.mem_singleton, Option.getD_some, List.not_mem_nil,
        iff_false]
      intro hempty
      exact Decimal.toList_toString_ne_nil (n := id) (by rw [hempty]; rfl)
    | cons id ids =>
      refine ⟨toString id, ids.map toString, rfl, ?_, fun id' => ?_⟩
      · rw [← List.map_cons, List.forall_mem_map]
        exact fun id' _ => not_quote_mem_toString id'
      · rw [← List.map_cons, Option.getD_some]
        exact List.mem_map_of_injective Decimal.toString_injective

/-- The rows of some of the sessions are their messages. -/
theorem filter_messageRows (store : List SIPSession) (p : SIPSession → Bool) :
    ((messageRows store).filter fun a => p a.2).map Prod.fst =
      (store.filter p).flatMap SIPSession.messages := by
  induction store with
  | nil => rfl
  | cons s store ih =>
    rw [messageRows, List.flatMap_cons, List.filter_append, List.map_append]
    change _ ++ ((messageRows store).filter _).map _ = _
    rw [ih, List.filter_map, List.map_map]
    cases hp : p s with
    | true =>
      rw [List.filter_cons_of_pos hp, List.flatMap_cons]
      simp [Function.comp_def, hp]
    | false =>
      rw [List.filter_cons_of_neg (by rw [hp]; exact Bool.false_ne_true)]
      simp [Function.comp_def, hp]

/-- The query finds the messages of the sessions with the given ids. -/
theorem findBySessionID_retrieves (store : List SIPSession)
    (sessionIdList : Option (List Int)) :
    ∃ messages, findBySessionID store sessionIdList = some messages ∧
      Retrieves store (sessionIdList.getD []) messages := by
  obtain ⟨value, values, htext, hquotes, hmem⟩ := exists_values sessionIdList
  have htokens : tokens (queryText sessionIdList) =
      (findQuery value values).tokens := by
    unfold queryText
    rw [htext]
    exact tokens_text value values hquotes
  have hparse := MemberQuery.parse_of_tokens htokens
  have hfind : findBySessionID store sessionIdList =
      some (((findQuery value values).select (database store)
        fun _ => none).map Prod.fst) := by
    rw [findBySessionID, executeMembers, hparse, Option.map_some,
      Option.map_some]
  refine ⟨_, hfind, ?_, ?_⟩
  · have hselected : ((database store).entities "SIPMessage").filter
        ((findQuery value values).meets (database store) fun _ => none) =
        (messageRows store).filter
          fun a => decide (a.2.id ∈ sessionIdList.getD []) := by
      refine List.filter_congr fun a _ => ?_
      rw [meets_findQuery, decide_eq_decide]
      exact hmem a.2.id
    have hperm := ((findQuery value values).perm_select (database store)
      fun _ => none).map Prod.fst
    change List.Perm _ (List.map _ (List.filter _
      ((database store).entities "SIPMessage"))) at hperm
    rw [hselected] at hperm
    rwa [filter_messageRows store fun s => decide (s.id ∈ _)] at hperm
  · rw [List.map_map, List.pairwise_map]
    exact (findQuery value values).sorted_select (database store) fun _ => none

end SIPMessageManager

end Sipana
