import Sipana.Server.QueryShape

/-!
# What a search finds

For values without quotes and wildcards the text of `find` is the query
`findQuery`, and that selects the sessions which meet the criteria of the
parameters, each once and the latest first. The criteria have three features of
their own: the method is compared in upper case, a session must not start before
time 0 if no start date is given, and an address of either list may be the
source or the destination of a message.
-/

namespace Sipana

namespace SIPSessionFindParams

/-- No value has a quote or a wildcard. -/
def Plain (params : SIPSessionFindParams) : Prop :=
  ∀ v ∈ params.strings, ∀ c ∈ v.toList, c ≠ '\'' ∧ c ≠ '%' ∧ c ≠ '_'

instance (params : SIPSessionFindParams) : Decidable params.Plain :=
  decidable_of_iff ((params.strings.all fun v => v.toList.all fun c =>
    decide (c ≠ '\'' ∧ c ≠ '%' ∧ c ≠ '_')) = true) (by simp [Plain])

theorem Plain.quoteFree {params : SIPSessionFindParams} (h : params.Plain) :
    params.QuoteFree :=
  fun v hv hquote => (h v hv _ hquote).1 rfl

end SIPSessionFindParams

namespace SIPSessionManager

open SIPSessionFindParams Jpql

/-! ## The criteria -/

def Contains (s v : String) : Prop := v.toList <:+: s.toList

instance (s v : String) : Decidable (Contains s v) :=
  inferInstanceAs (Decidable (_ <:+: _))

/-- The criteria that do not concern the messages. -/
structure SelectedHeader (locale : Locale) (now : Int)
    (params : SIPSessionFindParams) (s : SIPSession) : Prop where
  startTime : params.startDate.getD 0 ≤ s.startTime
  endTime : s.endTime ≤ params.endDate.getD now
  requestMethod : ∀ method ∈ given params.requestMethod,
    s.requestMethod = locale.toUpperCase method
  fromUser : ∀ v ∈ given params.fromUser, Contains s.fromUser v
  toUser : ∀ v ∈ given params.toUser, Contains s.toUser v
  callID : ∀ v ∈ given params.callID, Contains s.callId v

/-- The criteria of the query. -/
structure Selected (locale : Locale) (now : Int) (params : SIPSessionFindParams)
    (s : SIPSession) : Prop extends SelectedHeader locale now params s where
  addresses : params.ipAddrList ≠ [] → ∃ m ∈ s.messages,
    m.base.srcAddress ∈ params.ipAddrList ∨
      m.base.dstAddress ∈ params.ipAddrList

instance (locale : Locale) (now : Int) (params : SIPSessionFindParams)
    (s : SIPSession) : Decidable (SelectedHeader locale now params s) :=
  decidable_of_iff (_ ∧ _ ∧ _ ∧ _ ∧ _ ∧ _)
    ⟨fun ⟨h₁, h₂, h₃, h₄, h₅, h₆⟩ => ⟨h₁, h₂, h₃, h₄, h₅, h₆⟩,
      fun ⟨h₁, h₂, h₃, h₄, h₅, h₆⟩ => ⟨h₁, h₂, h₃, h₄, h₅, h₆⟩⟩

instance (locale : Locale) (now : Int) (params : SIPSessionFindParams)
    (s : SIPSession) : Decidable (Selected locale now params s) :=
  decidable_of_iff (_ ∧ _) ⟨fun ⟨h, ha⟩ => ⟨h, ha⟩, fun ⟨h, ha⟩ => ⟨h, ha⟩⟩

/-- Exactly the sessions of the store that meet the criteria are found, each
once and the latest first. -/
def Finds (store : List SIPSession) (criteria : SIPSession → Prop)
    (result : Option (List SIPSession)) : Prop :=
  ∃ sessions, result = some sessions ∧ sessions.Nodup ∧
    sessions.Pairwise (fun a b => b.startTime ≤ a.startTime) ∧
    ∀ s, s ∈ sessions ↔ s ∈ store ∧ criteria s

variable {locale : Locale} {now : Int} {store : List SIPSession}
  {params : SIPSessionFindParams}

/-! ## The conditions of the query -/

section Conditions

variable {row : Row} {s : SIPSession} (hs : row "s" = some (sessionFields s))

include hs

theorem start_holds :
    (Condition.compare ⟨"s", "startTime"⟩ .ge (.parameter "start")).holds
      (arguments now params) row = true ↔
        params.startDate.getD 0 ≤ s.startTime := by
  simp [Condition.holds, Path.value, Operand.value, hs, sessionFields,
    arguments, Comparison.holds]

theorem end_holds :
    (Condition.compare ⟨"s", "endTime"⟩ .le (.parameter "end")).holds
      (arguments now params) row = true ↔
        s.endTime ≤ params.endDate.getD now := by
  simp [Condition.holds, Path.value, Operand.value, hs, sessionFields,
    arguments, Comparison.holds]

theorem method_holds {method : String} :
    (methodCondition locale method).holds (arguments now params) row = true ↔
      s.requestMethod = locale.toUpperCase method := by
  simp [methodCondition, Condition.holds, Path.value, Operand.value, hs,
    sessionFields, Comparison.holds]

theorem like_holds {field v value : String}
    (hv : ∀ c ∈ v.toList, c ≠ '\'' ∧ c ≠ '%' ∧ c ≠ '_')
    (hfield : sessionFields s field = some (.string value)) :
    (likeCondition field v).holds (arguments now params) row = true ↔
      Contains value v := by
  have htext : ("%" ++ v ++ "%").toList = '%' :: v.toList ++ ['%'] := by
    simp
  simp only [likeCondition, Condition.holds, Path.value, hs, Option.bind_some,
    hfield, like, htext]
  exact likeChars_infix (fun c hc => (hv c hc).2) _

end Conditions

theorem address_holds {row : Row} {m : SIPMessage}
    (hm : row "m" = some (messageFields m)) (a : String) (as : List String) :
    (Condition.or (.isIn ⟨"m", "srcAddress"⟩ a as)
      (.isIn ⟨"m", "dstAddress"⟩ a as)).holds (arguments now params) row =
        true ↔ m.base.srcAddress ∈ a :: as ∨ m.base.dstAddress ∈ a :: as := by
  simp [Condition.holds, Path.value, hm, messageFields]

theorem given_hold (now : Int) (params : SIPSessionFindParams) (row : Row)
    (value : Option String) (c : String → Condition)
    {criterion : String → Prop}
    (h : ∀ v ∈ given value,
      ((c v).holds (arguments now params) row = true ↔ criterion v)) :
    (∀ d ∈ ((given value).map c).toList,
      d.holds (arguments now params) row = true) ↔
        ∀ v ∈ given value, criterion v := by
  cases hgiven : given value with
  | none => simp
  | some v => simpa using h v hgiven

theorem condition_holds (h : params.Plain) {row : Row} {s : SIPSession}
    (hs : row "s" = some (sessionFields s)) :
    (findQuery locale params).condition.holds (arguments now params) row =
        true ↔ SelectedHeader locale now params s ∧
        ∀ c ∈ addressConditions params.ipAddrList,
          c.holds (arguments now params) row = true := by
  have hplain : ∀ v ∈ params.strings, ∀ c ∈ v.toList,
      c ≠ '\'' ∧ c ≠ '%' ∧ c ≠ '_' := h
  simp only [strings, List.mem_append, Option.mem_toList] at hplain
  have hmethod := given_hold now params row params.requestMethod
    (methodCondition locale)
    fun _ _ => method_holds hs
  have hfrom := given_hold now params row params.fromUser
    (likeCondition "fromUser")
    fun v hv => like_holds hs
      (hplain v (by have := (Option.mem_filter_iff.mp hv).1; tauto)) rfl
  have hto := given_hold now params row params.toUser
    (likeCondition "toUser")
    fun v hv => like_holds hs
      (hplain v (by have := (Option.mem_filter_iff.mp hv).1; tauto)) rfl
  have hcall := given_hold now params row params.callID
    (likeCondition "callId")
    fun v hv => like_holds hs
      (hplain v (by have := (Option.mem_filter_iff.mp hv).1; tauto)) rfl
  simp only [findQuery, Condition.holds_all, List.all_eq_true,
    List.forall_mem_cons, filters, List.forall_mem_append, start_holds hs,
    end_holds hs, hmethod, hfrom, hto, hcall]
  refine ⟨?_, ?_⟩
  · intro hall
    obtain ⟨hstart, hend, ⟨⟨⟨hmethod, hfrom⟩, hto⟩, hcall⟩, haddress⟩ := hall
    exact ⟨⟨hstart, hend, hmethod, hfrom, hto, hcall⟩, haddress⟩
  · intro hall
    obtain ⟨⟨hstart, hend, hmethod, hfrom, hto, hcall⟩, haddress⟩ := hall
    exact ⟨hstart, hend, ⟨⟨⟨hmethod, hfrom⟩, hto⟩, hcall⟩, haddress⟩

/-! ## What is found -/

theorem mem_select (h : params.Plain) {s : SIPSession} :
    s ∈ (findQuery locale params).select (database store)
      (arguments now params) ↔ s ∈ store ∧ Selected locale now params s := by
  rw [Query.mem_select]
  refine and_congr Iff.rfl ?_
  cases hlist : params.ipAddrList with
  | nil =>
    have hrows : (findQuery locale params).rowsOf (database store) s =
        [(findQuery locale params).entityRow (database store) s] := by
      simp [Query.rowsOf, findQuery, hlist]
    simp only [hrows, List.mem_singleton, exists_eq_left]
    rw [condition_holds h rfl, hlist]
    refine ⟨?_, ?_⟩
    · intro hall
      exact ⟨hall.1, fun hne => absurd hlist hne⟩
    · intro hselected
      exact ⟨hselected.toSelectedHeader, by simp [addressConditions]⟩
  | cons a as =>
    have hrows : (findQuery locale params).rowsOf (database store) s =
        (s.messages.map messageFields).map
          ((findQuery locale params).joinRow (database store)
            ⟨"messages", "m"⟩ s) := by
      simp [Query.rowsOf, findQuery, hlist, database]
    simp only [hrows, List.mem_map]
    refine ⟨?_, ?_⟩
    · intro hex
      obtain ⟨_, ⟨_, ⟨m, hm, rfl⟩, rfl⟩, hholds⟩ := hex
      obtain ⟨hheader, haddress⟩ := (condition_holds h rfl).mp hholds
      rw [hlist] at haddress
      have hm' := (address_holds rfl a as).mp
        (haddress _ (List.mem_singleton_self _))
      exact ⟨hheader, fun _ => ⟨m, hm, hlist ▸ hm'⟩⟩
    · intro hselected
      obtain ⟨m, hm, hm'⟩ := hselected.addresses (by simp [hlist])
      refine ⟨_, ⟨_, ⟨m, hm, rfl⟩, rfl⟩, (condition_holds h rfl).mpr ?_⟩
      refine ⟨hselected.toSelectedHeader, ?_⟩
      rw [hlist] at hm' ⊢
      intro c hc
      obtain rfl := List.mem_singleton.mp hc
      exact (address_holds rfl a as).mpr hm'

/-- The text is that of the query. -/
theorem find_eq (h : params.Plain) :
    find locale now store params =
      some ((findQuery locale params).select (database store)
        (arguments now params)) := by
  have hparse : parse (queryText locale params) =
      some (findQuery locale params) :=
    parse_of_tokens (tokens_queryText h.quoteFree)
  rw [find, execute, hparse]
  rfl

/-- A search finds exactly the sessions that meet its criteria. There is none on
the state or the responses: the fields for them are not read. -/
theorem find_selected (h : params.Plain) :
    Finds store (Selected locale now params)
      (find locale now store params) :=
  ⟨_, find_eq h, Query.nodup_select (database store) _ _,
    Query.sorted_select (database store) _ (findQuery locale params),
    fun _ => mem_select h⟩

/-- What is found decides on every session of the store. -/
theorem Finds.selected_iff {C : SIPSession → Prop} (h : params.Plain)
    (hfinds : Finds store C (find locale now store params)) {s : SIPSession}
    (hs : s ∈ store) : Selected locale now params s ↔ C s := by
  obtain ⟨sessions, hfind, -, -, hmem⟩ := hfinds
  rw [find_eq h] at hfind
  obtain rfl := Option.some.inj hfind
  rw [← and_iff_right (a := s ∈ store) (b := C s) hs, ← hmem, mem_select h,
    and_iff_right hs]

/-- A call from `a` to `b`. -/
def call (startTime : Int) : SIPSession where
  startTime := startTime
  state := .completed
  callId := "1"
  requestMethod := Request.INVITE
  fromUser := "alice"
  toUser := "bob"
  messages := [.request {
    callID := "1"
    srcAddress := "a"
    dstAddress := "b"
    time := startTime
    method := Request.INVITE }]

def inviteSearch : SIPSessionFindParams where
  requestMethod := some "invite"
  fromUser := some "ali"
  dstAddressList := some ["b", "c"]

theorem invite_found :
    Finds [call 5] (Selected asciiLocale 10 inviteSearch)
      (find asciiLocale 10 [call 5] inviteSearch) ∧
    Selected asciiLocale 10 inviteSearch (call 5) :=
  ⟨find_selected (by decide), by decide⟩

/-! ## The criteria as they are given -/

/-- Every criterion by itself, as the fields of the parameters name it. -/
structure Matches (now : Int) (params : SIPSessionFindParams) (s : SIPSession) :
    Prop where
  startDate : ∀ d ∈ params.startDate, d ≤ s.startTime
  endDate : s.endTime ≤ params.endDate.getD now
  requestMethod : ∀ method ∈ given params.requestMethod,
    s.requestMethod = method
  fromUser : ∀ v ∈ given params.fromUser, Contains s.fromUser v
  toUser : ∀ v ∈ given params.toUser, Contains s.toUser v
  callID : ∀ v ∈ given params.callID, Contains s.callId v
  state : ∀ state ∈ params.state, s.state = state
  responseCode : ∀ code ∈ params.responseCode,
    ∃ response : SIPResponse, .response response ∈ s.messages ∧
      response.statusCode = code
  addresses : params.ipAddrList ≠ [] → ∃ m ∈ s.messages,
    m.base.srcAddress ∈ params.srcAddressList.getD [] ∨
      m.base.dstAddress ∈ params.dstAddressList.getD []

/-- The search finds what does not match, or misses what matches. -/
def Mismatch (store : List SIPSession) (params : SIPSessionFindParams) : Prop :=
  ¬ Finds store (Matches 10 params) (find asciiLocale 10 store params)

theorem mismatch_of_selected {s : SIPSession} {params : SIPSessionFindParams}
    (h : params.Plain) (hselected : Selected asciiLocale 10 params s)
    (hmatches : ¬ Matches 10 params s) : Mismatch [s] params :=
  fun hfinds => hmatches ((hfinds.selected_iff h
    (List.mem_singleton_self s)).mp hselected)

theorem mismatch_of_matches {s : SIPSession} {params : SIPSessionFindParams}
    (h : params.Plain) (hmatches : Matches 10 params s)
    (hselected : ¬ Selected asciiLocale 10 params s) : Mismatch [s] params :=
  fun hfinds => hselected ((hfinds.selected_iff h
    (List.mem_singleton_self s)).mpr hmatches)

theorem criteria_not_as_given :
    Mismatch [call 5] { requestMethod := some "invite" } ∧
    Mismatch [call 5] { dstAddressList := some ["a"] } ∧
    Mismatch [call (-1)] {} ∧
    Mismatch [call 5] { state := some .failed } ∧
    Mismatch [call 5] { responseCode := some Response.OK } := by
  refine ⟨?_, ?_, ?_, ?_, ?_⟩
  · apply mismatch_of_selected (by decide) (by decide)
    intro hmatches
    exact absurd (hmatches.requestMethod "invite" (by decide)) (by decide)
  · apply mismatch_of_selected (by decide) (by decide)
    intro hmatches
    exact absurd (hmatches.addresses (by decide)) (by decide)
  · apply mismatch_of_matches (by decide) _ (by decide)
    exact ⟨by decide, by decide, by decide, by decide, by decide, by decide,
      by decide, nofun, by decide⟩
  · apply mismatch_of_selected (by decide) (by decide)
    intro hmatches
    exact absurd (hmatches.state .failed rfl) (by decide)
  · apply mismatch_of_selected (by decide) (by decide)
    intro hmatches
    obtain ⟨response, hresponse, -⟩ := hmatches.responseCode Response.OK rfl
    simp [call] at hresponse

end SIPSessionManager

end Sipana
