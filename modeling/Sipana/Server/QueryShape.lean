import Sipana.Server.SIPSessionManager

/-!
# The shape of search queries

The values of a search enter the query text as they are. As long as none of them
has a quote, each stays inside the literal it is written in: the text is read as
`findQuery`, its tokens without the literals depend on which values are set
alone, and its literals are the values.
-/

namespace Sipana

namespace SIPSessionFindParams

/-- All values that enter the text. -/
def strings (params : SIPSessionFindParams) : List String :=
  params.requestMethod.toList ++ params.fromUser.toList ++
    params.toUser.toList ++ params.callID.toList ++ params.ipAddrList

def QuoteFree (params : SIPSessionFindParams) : Prop :=
  ∀ v ∈ params.strings, '\'' ∉ v.toList

instance (params : SIPSessionFindParams) : Decidable params.QuoteFree :=
  inferInstanceAs (Decidable (∀ v ∈ _, _))

end SIPSessionFindParams

namespace SIPSessionManager

open SIPSessionFindParams Jpql

variable {locale : Locale} {params : SIPSessionFindParams}

/-! ## Reading the text -/

/-- The tokens of a filter. -/
def filterTokens (c : Condition) : List Token :=
  .word "AND" :: c.tokensAt .primary

theorem appendIf_reads (value : Option String) {text : String → String}
    (c : String → Condition) (h : ∀ v ∈ given value,
      Reads .blank (text v) (filterTokens (c v)) .blank) :
    Reads .blank (appendIf value text)
      (((given value).map c).toList.flatMap filterTokens) .blank := by
  unfold appendIf
  cases hgiven : given value with
  | none => exact reads_empty .blank
  | some v =>
    have hv := h v hgiven
    simpa using hv

theorem quoteFree_given {value : Option String}
    (h : ∀ v ∈ value, '\'' ∉ v.toList) : ∀ v ∈ given value, '\'' ∉ v.toList :=
  fun v hv => h v (Option.mem_filter_iff.mp hv).1

theorem method_reads {method : String} (h : '\'' ∉ method.toList) :
    Reads .blank
      ("AND s.requestMethod = '" ++ locale.toUpperCase method ++ "' ")
      (filterTokens (methodCondition locale method)) .blank := by
  have hupper : '\'' ∉ (locale.toUpperCase method).toList := by
    rw [← quotes_eq_zero] at h ⊢
    rw [locale.quotes_toUpperCase, h]
  have hread : Reads .blank "AND s.requestMethod = '" [.word "AND", .word "s",
      .symbol '.', .word "requestMethod", .operator "="] (.literal []) := rfl
  have hclose : ∀ cs, Reads (.literal cs) "' " [.literal (String.ofList cs)]
      .blank := fun _ => rfl
  have htext := hread.value hupper (hclose _)
  rwa [List.nil_append, String.ofList_toList] at htext

/-- The field is part of the text before the value. -/
theorem like_reads {field text value : String}
    (htext : Reads .blank text [.word "AND", .word "s", .symbol '.',
      .word field, .word "LIKE"] (.literal ['%']))
    (h : '\'' ∉ value.toList) :
    Reads .blank (text ++ value ++ "%' ")
      (filterTokens (likeCondition field value)) .blank := by
  have hclose : ∀ cs, Reads (.literal cs) "%' "
      [.literal (String.ofList (cs ++ ['%']))] .blank := fun _ => rfl
  have hread := htext.value h (hclose _)
  have hvalue : String.ofList (['%'] ++ value.toList ++ ['%']) =
      "%" ++ value ++ "%" := by
    apply String.ext
    simp
  rwa [hvalue] at hread

theorem appendLike_reads (field text : String) (value : Option String)
    (htext : Reads .blank text [.word "AND", .word "s", .symbol '.',
      .word field, .word "LIKE"] (.literal ['%']))
    (h : ∀ v ∈ value, '\'' ∉ v.toList) :
    Reads .blank (appendIf value fun v => text ++ v ++ "%' ")
      (((given value).map (likeCondition field)).toList.flatMap filterTokens)
      .blank :=
  appendIf_reads value _ fun v hv =>
    like_reads htext (quoteFree_given h v hv)

/-- The last value of a list is still open at its end. -/
theorem csvList_reads (a : String) (as : List String)
    (h : ∀ v ∈ a :: as, '\'' ∉ v.toList) :
    ∃ ts last, Reads (.literal []) ("','".intercalate (a :: as)) ts
        (.literal last) ∧
      ts ++ [.literal (String.ofList last)] =
        .literal a :: as.flatMap fun v => [.symbol ',', .literal v] := by
  induction as generalizing a with
  | nil =>
    refine ⟨[], a.toList, ?_, by simp⟩
    rw [String.intercalate_singleton]
    exact reads_value [] (h a (by simp))
  | cons b bs ih =>
    obtain ⟨ts, last, hread, htokens⟩ :=
      ih b fun v hv => h v (List.mem_cons_of_mem a hv)
    refine ⟨[.literal a, .symbol ','] ++ ts, last, ?_, ?_⟩
    · rw [String.intercalate_cons_cons]
      have hcomma : ∀ cs, Reads (.literal cs) "','"
          [.literal (String.ofList cs), .symbol ','] (.literal []) :=
        fun _ => rfl
      have ha := (reads_value [] (h a (by simp))).append (hcomma _)
      have hall := ha.append hread
      rwa [List.nil_append, List.nil_append, String.ofList_toList] at hall
    · rw [List.append_assoc, htokens]
      rfl

theorem addresses_reads (ipAddrList : List String)
    (h : ∀ v ∈ ipAddrList, '\'' ∉ v.toList) :
    Reads .blank (appendAddresses ipAddrList)
      ((addressConditions ipAddrList).flatMap filterTokens) .blank := by
  cases ipAddrList with
  | nil => exact reads_empty .blank
  | cons a as =>
    obtain ⟨ts, last, hcsv, htokens⟩ := csvList_reads a as h
    have hopen : Reads .blank "'" [] (.literal []) := rfl
    have hclose : Reads (.literal last) "'" [] (.quoted last) := rfl
    have hlist := (hopen.append hcsv).append hclose
    rw [List.nil_append, List.append_nil] at hlist
    have hsrc : Reads .blank "AND (m.srcAddress IN (" [.word "AND",
        .symbol '(', .word "m", .symbol '.', .word "srcAddress", .word "IN",
        .symbol '('] .blank := rfl
    have hdst : Reads (.quoted last) ") OR m.dstAddress IN ("
        [.literal (String.ofList last), .symbol ')', .word "OR", .word "m",
          .symbol '.', .word "dstAddress", .word "IN", .symbol '(']
        .blank := rfl
    have hend : Reads (.quoted last) ")) " [.literal (String.ofList last),
        .symbol ')', .symbol ')'] .blank := rfl
    have hread := (((hsrc.append hlist).append hdst).append hlist).append hend
    -- the last value of either list is emitted by the piece that follows it
    have hlast : ∀ us, ts ++ .literal (String.ofList last) :: us =
        .literal a ::
          (as.flatMap fun v => [.symbol ',', .literal v]) ++ us := by
      intro us
      rw [← htokens, List.append_assoc]
      rfl
    have heq : [Token.word "AND", .symbol '(', .word "m", .symbol '.',
        .word "srcAddress", .word "IN", .symbol '('] ++ ts ++
          [.literal (String.ofList last), .symbol ')', .word "OR", .word "m",
            .symbol '.', .word "dstAddress", .word "IN", .symbol '('] ++ ts ++
          [.literal (String.ofList last), .symbol ')', .symbol ')'] =
        (addressConditions (a :: as)).flatMap filterTokens := by
      simp only [List.append_assoc, List.cons_append, List.nil_append, hlast]
      simp [addressConditions, filterTokens, Condition.tokensAt, Condition.wrap,
        Condition.tokens, Condition.level, Level.rank, Path.tokens]
    rw [← heq]
    exact hread

/-- All filters, one after another. -/
theorem filters_reads (locale : Locale) (h : params.QuoteFree) :
    Reads .blank (appendFilters locale params)
      ((filters locale params).flatMap filterTokens) .blank := by
  simp only [QuoteFree, strings, List.mem_append, Option.mem_toList] at h
  have hmethod := appendIf_reads params.requestMethod (methodCondition locale)
    fun v hv => method_reads (quoteFree_given (fun v hv => h v (by tauto)) v hv)
  have hfrom := appendLike_reads "fromUser" "AND s.fromUser LIKE '%"
    params.fromUser rfl fun v hv => h v (by tauto)
  have hto := appendLike_reads "toUser" "AND s.toUser LIKE '%"
    params.toUser rfl fun v hv => h v (by tauto)
  have hcall := appendLike_reads "callId" "AND s.callId LIKE '%"
    params.callID rfl fun v hv => h v (by tauto)
  have haddresses := addresses_reads params.ipAddrList
    fun v hv => h v (by tauto)
  have hread := (((hmethod.append hfrom).append hto).append hcall).append
    haddresses
  simpa [appendFilters, filters, List.flatMap_append] using hread

theorem filters_level :
    ∀ c ∈ filters locale params, c.level ≠ .conjunction := by
  intro c hc
  simp only [filters, List.mem_append, Option.mem_toList,
    Option.map_eq_some_iff] at hc
  rcases hc with
    (((⟨_, _, rfl⟩ | ⟨_, _, rfl⟩) | ⟨_, _, rfl⟩) | ⟨_, _, rfl⟩) | hc
  · exact nofun
  · exact nofun
  · exact nofun
  · exact nofun
  · cases hlist : params.ipAddrList with
    | nil => simp [hlist, addressConditions] at hc
    | cons a as =>
      rw [hlist, addressConditions, List.mem_singleton] at hc
      subst hc
      exact nofun

theorem join_reads (locale : Locale) (params : SIPSessionFindParams) :
    Reads .blank
      (if params.ipAddrList.length > 0 then "INNER JOIN s.messages AS m "
        else "")
      (((findQuery locale params).join.map (Join.tokens "s")).getD [])
      .blank := by
  unfold findQuery
  split
  · rfl
  · exact reads_empty .blank

theorem condition_tokens (locale : Locale) (params : SIPSessionFindParams) :
    (findQuery locale params).condition.tokens =
      [.word "s", .symbol '.', .word "startTime", .operator ">=", .symbol ':',
        .word "start", .word "AND", .word "s", .symbol '.', .word "endTime",
        .operator "<=", .symbol ':', .word "end"] ++
      (filters locale params).flatMap filterTokens := by
  have hlevel : ∀ c ∈ Condition.compare ⟨"s", "endTime"⟩ .le
      (.parameter "end") :: filters locale params, c.level ≠ .conjunction := by
    rw [List.forall_mem_cons]
    exact ⟨nofun, filters_level⟩
  show _ ++ .word "AND" :: (Condition.all _ _).tokensAt .conjunction = _
  rw [tokensAt_all hlevel]
  rfl

/-- Without quotes in its values the text is read as the query it is meant to
be. -/
theorem tokens_queryText (h : params.QuoteFree) :
    tokens (queryText locale params) = (findQuery locale params).tokens := by
  have hselect : Reads .blank "SELECT DISTINCT s FROM SIPSession s "
      [.word "SELECT", .word "DISTINCT", .word "s", .word "FROM",
        .word "SIPSession", .word "s"] .blank := rfl
  have hwhere : Reads .blank
      "WHERE s.startTime >= :start AND s.endTime <= :end "
      [.word "WHERE", .word "s", .symbol '.', .word "startTime",
        .operator ">=", .symbol ':', .word "start", .word "AND", .word "s",
        .symbol '.', .word "endTime", .operator "<=", .symbol ':',
        .word "end"] .blank := rfl
  have horder : Reads .blank "ORDER BY s.startTime DESC" [.word "ORDER",
      .word "BY", .word "s", .symbol '.', .word "startTime"]
      (.word ['D', 'E', 'S', 'C']) := rfl
  have hread := (((hselect.append (join_reads locale params)).append
    hwhere).append (filters_reads locale h)).append horder
  have hdesc : (Mode.word ['D', 'E', 'S', 'C']).pending = [.word "DESC"] := rfl
  have htokens := hread.tokens
  rw [hdesc] at htokens
  unfold queryText
  rw [htokens]
  unfold Query.tokens
  rw [condition_tokens]
  have hname : (findQuery locale params).name = "s" := rfl
  have hentity : (findQuery locale params).entity = "SIPSession" := rfl
  have horderBy : (findQuery locale params).orderBy = "startTime" := rfl
  rw [hname, hentity, horderBy]
  simp only [List.append_assoc, List.cons_append, List.nil_append]

/-! ## Literals and shape -/

/-- The values the literals are meant to have, in the order of the text. -/
def supplied (method : String → String) (params : SIPSessionFindParams) :
    List String :=
  ((given params.requestMethod).map method).toList ++
  ((given params.fromUser).map ("%" ++ · ++ "%")).toList ++
  ((given params.toUser).map ("%" ++ · ++ "%")).toList ++
  ((given params.callID).map ("%" ++ · ++ "%")).toList ++
  params.ipAddrList ++ params.ipAddrList

/-- The same values are given. -/
structure SamePresence (p q : SIPSessionFindParams) : Prop where
  requestMethod :
    (given p.requestMethod).isSome = (given q.requestMethod).isSome
  fromUser : (given p.fromUser).isSome = (given q.fromUser).isSome
  toUser : (given p.toUser).isSome = (given q.toUser).isSome
  callID : (given p.callID).isSome = (given q.callID).isSome
  srcAddressList :
    (p.srcAddressList.getD []).length = (q.srcAddressList.getD []).length
  dstAddressList :
    (p.dstAddressList.getD []).length = (q.dstAddressList.getD []).length

/-- The texts differ in their literals only, and these hold the values. -/
def KeepsShape (locale : Locale) (method : String → String)
    (p q : SIPSessionFindParams) : Prop :=
  shape (queryText locale p) = shape (queryText locale q) ∧
    literals (queryText locale p) = supplied method p ∧
    literals (queryText locale q) = supplied method q

theorem addresses_values (ipAddrList : List String) :
    (addressConditions ipAddrList).flatMap Condition.values =
      ipAddrList ++ ipAddrList := by
  cases ipAddrList with
  | nil => rfl
  | cons a as => simp [addressConditions, Condition.values]

theorem given_values {value : Option String} {c : String → Condition}
    {f : String → String} (h : ∀ v, (c v).values = [f v]) :
    ((given value).map c).toList.flatMap Condition.values =
      ((given value).map f).toList := by
  cases given value with
  | none => rfl
  | some v => simp [h]

theorem findQuery_values : (findQuery locale params).condition.values =
    supplied locale.toUpperCase params := by
  unfold findQuery supplied
  rw [Condition.values_all]
  simp only [filters, List.flatMap_cons, List.flatMap_append, addresses_values]
  rw [given_values (f := locale.toUpperCase) fun _ => rfl,
    given_values (f := ("%" ++ · ++ "%")) fun _ => rfl,
    given_values (f := ("%" ++ · ++ "%")) fun _ => rfl,
    given_values (f := ("%" ++ · ++ "%")) fun _ => rfl]
  simp [Condition.values, Operand.values]

theorem literals_queryText (h : params.QuoteFree) :
    literals (queryText locale params) =
      supplied locale.toUpperCase params := by
  unfold literals
  rw [tokens_queryText h, Query.tokens_values, findQuery_values]

theorem given_erase {value value' : Option String} {c : String → Condition}
    (h : (given value).isSome = (given value').isSome)
    (hc : ∀ v v', (c v).erase = (c v').erase) :
    ((given value).map c).toList.map Condition.erase =
      ((given value').map c).toList.map Condition.erase := by
  generalize given value = v at h ⊢
  generalize given value' = v' at h ⊢
  cases v with
  | none =>
    cases v' with
    | none => rfl
    | some v' => exact absurd h nofun
  | some v =>
    cases v' with
    | none => exact absurd h nofun
    | some v' => simp [hc v v']

theorem addresses_erase {as bs : List String} (h : as.length = bs.length) :
    (addressConditions as).map Condition.erase =
      (addressConditions bs).map Condition.erase := by
  cases as with
  | nil =>
    cases bs with
    | nil => rfl
    | cons b bs => exact absurd h nofun
  | cons a as =>
    cases bs with
    | nil => exact absurd h nofun
    | cons b bs =>
      have hlength : as.length = bs.length := Nat.succ.inj h
      simp [addressConditions, Condition.erase, hlength]

theorem findQuery_erase {p q : SIPSessionFindParams} (h : SamePresence p q) :
    (findQuery locale p).erase = (findQuery locale q).erase := by
  have hlength : p.ipAddrList.length = q.ipAddrList.length := by
    simp [ipAddrList, h.srcAddressList, h.dstAddressList]
  have hfilters : (filters locale p).map Condition.erase =
      (filters locale q).map Condition.erase := by
    simp only [filters, List.map_append]
    rw [given_erase h.requestMethod fun _ _ => rfl,
      given_erase h.fromUser fun _ _ => rfl,
      given_erase h.toUser fun _ _ => rfl,
      given_erase h.callID fun _ _ => rfl, addresses_erase hlength]
  simp only [findQuery, Query.erase, Condition.erase_all, List.map_cons,
    hfilters, hlength]

/-- Texts for the same values differ in their literals only, and the literals
hold the values, the method in upper case, if no value has a quote. -/
theorem queries_keep_shape {p q : SIPSessionFindParams}
    (h : SamePresence p q) (hp : p.QuoteFree) (hq : q.QuoteFree) :
    KeepsShape locale locale.toUpperCase p q := by
  refine ⟨?_, literals_queryText hp, literals_queryText hq⟩
  unfold shape
  rw [tokens_queryText hp, tokens_queryText hq, Query.tokens_erase,
    Query.tokens_erase, findQuery_erase h]

/-! ## What a quote does -/

theorem appendIf_quotes {value : Option String} {text f : String → String}
    (h : ∀ v, quotes (text v) = 2 + quotes (f v)) :
    quotes (appendIf value text) = delimiters ((given value).map f).toList := by
  unfold appendIf
  cases given value with
  | none => rfl
  | some v => simp [delimiters, h]

theorem csvList_quotes (a : String) (as : List String) :
    2 + quotes ("','".intercalate (a :: as)) = delimiters (a :: as) := by
  induction as generalizing a with
  | nil => simp [delimiters]
  | cons b bs ih =>
    have hcomma : quotes "','" = 2 := rfl
    have hb := ih b
    rw [String.intercalate_cons_cons, quotes_append, quotes_append, hcomma]
    simp only [delimiters, List.map_cons, List.sum_cons] at hb ⊢
    omega

theorem appendAddresses_quotes (ipAddrList : List String) :
    quotes (appendAddresses ipAddrList) =
      delimiters (ipAddrList ++ ipAddrList) := by
  cases ipAddrList with
  | nil => rfl
  | cons a as =>
    have hlist := csvList_quotes a as
    have hsrc : quotes "AND (m.srcAddress IN (" = 0 := rfl
    have hdst : quotes ") OR m.dstAddress IN (" = 0 := rfl
    have hend : quotes ")) " = 0 := rfl
    have hquote : quotes "'" = 1 := rfl
    rw [delimiters_append, ← hlist]
    simp only [appendAddresses, List.length_cons, Nat.zero_lt_succ, if_true,
      quotes_append, hsrc, hdst, hend, hquote]
    omega

theorem quotes_percent (v : String) : quotes ("%" ++ v ++ "%") = quotes v := by
  have hpercent : quotes "%" = 0 := rfl
  simp only [quotes_append, hpercent]
  omega

theorem appendLike_quotes (text : String) (h : quotes text = 1)
    (value : Option String) :
    quotes (appendIf value fun v => text ++ v ++ "%' ") =
      delimiters ((given value).map ("%" ++ · ++ "%")).toList := by
  have hend : quotes "%' " = 1 := rfl
  apply appendIf_quotes
  intro v
  rw [quotes_append, quotes_append, quotes_percent, h, hend]
  omega

theorem appendMethod_quotes (locale : Locale) (value : Option String) :
    quotes (appendIf value fun method =>
      "AND s.requestMethod = '" ++ locale.toUpperCase method ++ "' ") =
        delimiters ((given value).map locale.toUpperCase).toList := by
  have hfront : quotes "AND s.requestMethod = '" = 1 := rfl
  have hend : quotes "' " = 1 := rfl
  apply appendIf_quotes
  intro method
  rw [quotes_append, quotes_append, hfront, hend]
  omega

theorem appendFilters_quotes (locale : Locale) (params : SIPSessionFindParams) :
    quotes (appendFilters locale params) =
      delimiters (supplied locale.toUpperCase params) := by
  unfold appendFilters supplied
  rw [quotes_append, quotes_append, quotes_append, quotes_append,
    appendMethod_quotes, appendAddresses_quotes,
    appendLike_quotes "AND s.fromUser LIKE '%" rfl,
    appendLike_quotes "AND s.toUser LIKE '%" rfl,
    appendLike_quotes "AND s.callId LIKE '%" rfl]
  simp only [delimiters_append, Nat.add_assoc]

/-- Nothing is escaped. -/
theorem queryText_quotes : quotes (queryText locale params) =
    delimiters (supplied locale.toUpperCase params) := by
  have hselect : quotes "SELECT DISTINCT s FROM SIPSession s " = 0 := rfl
  have hjoin : quotes (if params.ipAddrList.length > 0 then
      "INNER JOIN s.messages AS m " else "") = 0 := by
    split <;> rfl
  have hwhere :
      quotes "WHERE s.startTime >= :start AND s.endTime <= :end " = 0 := rfl
  have horder : quotes "ORDER BY s.startTime DESC" = 0 := rfl
  unfold queryText
  rw [quotes_append, quotes_append, quotes_append, quotes_append, hselect,
    hjoin, hwhere, horder, appendFilters_quotes, Nat.zero_add, Nat.add_zero]

theorem quoteFree_of_given {value : Option String} {f : String → String}
    (hf : ∀ v, quotes (f v) = quotes v)
    (h : ∀ w ∈ ((given value).map f).toList, '\'' ∉ w.toList) :
    ∀ v ∈ value, '\'' ∉ v.toList := by
  intro v hv
  by_cases hempty : v = ""
  · subst hempty
    exact List.not_mem_nil
  · have hgiven : given value = some v :=
      Option.filter_eq_some_iff.mpr ⟨hv, by simpa using hempty⟩
    have hw := h (f v) (by simp [hgiven])
    rwa [← quotes_eq_zero, hf, quotes_eq_zero] at hw

/-- The literals hold the values exactly if no value has a quote. -/
theorem literals_eq_supplied_iff :
    literals (queryText locale params) = supplied locale.toUpperCase params ↔
      params.QuoteFree := by
  refine ⟨fun h => ?_, literals_queryText⟩
  have hquotes : quotes (queryText locale params) =
      delimiters (literals (queryText locale params)) := by
    rw [h, queryText_quotes]
  have hfree := quotes_of_literals hquotes
  rw [h] at hfree
  simp only [supplied, List.mem_append, or_imp, forall_and] at hfree
  obtain ⟨⟨⟨⟨⟨hmethod, hfrom⟩, hto⟩, hcall⟩, haddresses⟩, -⟩ := hfree
  intro v hv
  simp only [strings, List.mem_append, Option.mem_toList] at hv
  rcases hv with (((hv | hv) | hv) | hv) | hv
  · exact quoteFree_of_given locale.quotes_toUpperCase hmethod v hv
  · exact quoteFree_of_given quotes_percent hfrom v hv
  · exact quoteFree_of_given quotes_percent hto v hv
  · exact quoteFree_of_given quotes_percent hcall v hv
  · exact haddresses v hv

/-- Two searches for everything that can be searched for. -/
def searchFor (value : String) : SIPSessionFindParams where
  requestMethod := some value
  fromUser := some value
  srcAddressList := some [value, value]

theorem search_keeps_shape : KeepsShape asciiLocale asciiLocale.toUpperCase
    (searchFor "invite") (searchFor "a OR b") :=
  queries_keep_shape ⟨by decide, by decide, by decide, by decide, by decide,
    by decide⟩ (by decide) (by decide)

/-- A method is not searched for as it was given, and a quote ends its literal
and has the rest of the value read as a part of the query. -/
theorem values_not_kept :
    (¬ ∀ p q, SamePresence p q → p.QuoteFree → q.QuoteFree →
      KeepsShape asciiLocale id p q) ∧
    ¬ ∀ p q, SamePresence p q →
      KeepsShape asciiLocale asciiLocale.toUpperCase p q := by
  refine ⟨?_, ?_⟩
  · intro h
    have hsame : SamePresence (searchFor "invite") (searchFor "invite") :=
      ⟨rfl, rfl, rfl, rfl, rfl, rfl⟩
    have hkeeps := (h _ _ hsame (by decide) (by decide)).2.1
    rw [literals_queryText (by decide)] at hkeeps
    exact absurd hkeeps (by decide)
  · intro h
    have hsame : SamePresence { fromUser := some "' OR '%' = '" }
      { fromUser := some "bob" } := ⟨rfl, rfl, rfl, rfl, rfl, rfl⟩
    have hfree := literals_eq_supplied_iff.mp (h _ _ hsame).2.1
    exact absurd hfree (by decide)

end SIPSessionManager

end Sipana
