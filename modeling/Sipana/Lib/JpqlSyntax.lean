import Sipana.Lib.JpqlTokens

/-!
# Queries and their syntax

A fragment of the query language: a selection of distinct entities with at most
one inner join, a condition and a descending order. Conditions are comparisons,
`LIKE` and `IN` under `AND` and `OR`, where `AND` binds tighter and both
associate to the right.

`Query.tokens` writes a query, `parse` reads a text. What is written is read
back as the query it is (`query_run`), so a text has one meaning.
-/

namespace Jpql

structure Path where
  root : String
  field : String
deriving DecidableEq, Repr

inductive Comparison
  | eq
  | ge
  | le
deriving DecidableEq, Repr

inductive Operand
  | literal (value : String)
  | parameter (name : String)
deriving DecidableEq, Repr

inductive Condition
  | compare (path : Path) (comparison : Comparison) (operand : Operand)
  | like (path : Path) (pattern : String)
  | isIn (path : Path) (value : String) (values : List String)
  | and (a b : Condition)
  | or (a b : Condition)
deriving DecidableEq, Repr

structure Join where
  collection : String
  name : String
deriving DecidableEq, Repr

structure Query where
  name : String
  entity : String
  join : Option Join
  condition : Condition
  orderBy : String
deriving DecidableEq, Repr

/-! ## Writing -/

def Path.tokens (p : Path) : List Token :=
  [.word p.root, .symbol '.', .word p.field]

def Comparison.text : Comparison → String
  | .eq => "="
  | .ge => ">="
  | .le => "<="

def Operand.tokens : Operand → List Token
  | .literal value => [.literal value]
  | .parameter name => [.symbol ':', .word name]

/-- How tight a condition binds, and how tight it has to bind. -/
inductive Level
  | disjunction
  | conjunction
  | primary
deriving DecidableEq, Repr

def Level.rank : Level → Nat
  | .disjunction => 0
  | .conjunction => 1
  | .primary => 2

namespace Condition

def level : Condition → Level
  | compare .. | like .. | isIn .. => .primary
  | and .. => .conjunction
  | or .. => .disjunction

/-- Parentheses around what binds less tightly than it has to. -/
def wrap (required actual : Level) (ts : List Token) : List Token :=
  if required.rank ≤ actual.rank then ts
  else .symbol '(' :: ts ++ [.symbol ')']

def tokens : Condition → List Token
  | compare path comparison operand =>
    path.tokens ++ .operator comparison.text :: operand.tokens
  | like path pattern => path.tokens ++ [.word "LIKE", .literal pattern]
  | isIn path value values =>
    path.tokens ++ .word "IN" :: .symbol '(' :: .literal value ::
      values.flatMap (fun value => [.symbol ',', .literal value]) ++
      [.symbol ')']
  | and a b =>
    wrap .primary a.level a.tokens ++
      .word "AND" :: wrap .conjunction b.level b.tokens
  | or a b =>
    wrap .conjunction a.level a.tokens ++
      .word "OR" :: wrap .disjunction b.level b.tokens

/-- A condition where one of the given level is required. -/
def tokensAt (required : Level) (c : Condition) : List Token :=
  wrap required c.level c.tokens

/-- The conjunction of a list of conditions. -/
def all : Condition → List Condition → Condition
  | c, [] => c
  | c, d :: ds => and c (all d ds)

end Condition

def Join.tokens (name : String) (j : Join) : List Token :=
  [.word "INNER", .word "JOIN", .word name, .symbol '.', .word j.collection,
    .word "AS", .word j.name]

def Query.tokens (q : Query) : List Token :=
  [.word "SELECT", .word "DISTINCT", .word q.name, .word "FROM",
    .word q.entity, .word q.name] ++
  (q.join.map (Join.tokens q.name)).getD [] ++
  .word "WHERE" :: q.condition.tokens ++
  [.word "ORDER", .word "BY", .word q.name, .symbol '.', .word q.orderBy,
    .word "DESC"]

/-- A conjunction is written as its members after one another. -/
theorem tokensAt_all {c : Condition} {cs : List Condition}
    (h : ∀ d ∈ c :: cs, d.level ≠ .conjunction) :
    (Condition.all c cs).tokensAt .conjunction =
      c.tokensAt .primary ++
        cs.flatMap fun d => .word "AND" :: d.tokensAt .primary := by
  induction cs generalizing c with
  | nil =>
    have hc := h c (by simp)
    unfold Condition.tokensAt Condition.wrap Condition.all
    cases hlevel : c.level with
    | conjunction => exact absurd hlevel hc
    | primary | disjunction => simp [Level.rank]
  | cons d ds ih =>
    have hds := ih fun e he => h e (List.mem_cons_of_mem _ he)
    show c.tokensAt .primary ++
      .word "AND" :: (Condition.all d ds).tokensAt .conjunction = _
    rw [hds, List.flatMap_cons, List.cons_append]

/-! ## Reading -/

abbrev Parser := StateT (List Token) Option

def token : Parser Token
  | [] => none
  | t :: ts => some (t, ts)

def expect (t : Token) : Parser Unit := do
  if (← token) = t then return () else failure

def word : Parser String := do
  match ← token with
  | .word w => return w
  | _ => failure

def literal : Parser String := do
  match ← token with
  | .literal value => return value
  | _ => failure

/-- Read the token if it is the next one. -/
def accept (t : Token) : Parser Bool
  | [] => some (false, [])
  | t' :: ts => if t' = t then some (true, ts) else some (false, t' :: ts)

def path : Parser Path := do
  let root ← word
  expect (.symbol '.')
  let field ← word
  return ⟨root, field⟩

def comparison : String → Option Comparison
  | "=" => some .eq
  | ">=" => some .ge
  | "<=" => some .le
  | _ => none

def operand : Parser Operand := do
  if ← accept (.symbol ':') then
    return .parameter (← word)
  else
    return .literal (← literal)

/-- The values of a list after the first one. -/
def moreLiterals : Parser (List String)
  | .symbol ',' :: .literal value :: ts => do
    let (values, ts) ← moreLiterals ts
    return (value :: values, ts)
  | ts => some ([], ts)

def primary : Parser Condition := do
  let path ← path
  match ← token with
  | .operator text =>
    match comparison text with
    | some comparison => return .compare path comparison (← operand)
    | none => failure
  | .word "LIKE" => return .like path (← literal)
  | .word "IN" =>
    expect (.symbol '(')
    let value ← literal
    let values ← moreLiterals
    expect (.symbol ')')
    return .isIn path value values
  | _ => failure

/-- A condition of a level. The number bounds the depth of the recursion. -/
def condition : Nat → Level → Parser Condition
  | 0, _ => failure
  | n + 1, .disjunction => do
    let a ← condition n .conjunction
    if ← accept (.word "OR") then
      return .or a (← condition n .disjunction)
    else return a
  | n + 1, .conjunction => do
    let a ← condition n .primary
    if ← accept (.word "AND") then
      return .and a (← condition n .conjunction)
    else return a
  | n + 1, .primary => do
    if ← accept (.symbol '(') then
      let a ← condition n .disjunction
      expect (.symbol ')')
      return a
    else primary

/-- A condition of any depth the tokens can hold. -/
def conditional : Parser Condition :=
  fun ts => (condition (3 * ts.length) .disjunction).run ts

def join (name : String) : Parser (Option Join) := do
  if ← accept (.word "INNER") then
    expect (.word "JOIN")
    expect (.word name)
    expect (.symbol '.')
    let collection ← word
    expect (.word "AS")
    return some ⟨collection, ← word⟩
  else return none

def query : Parser Query := do
  expect (.word "SELECT")
  expect (.word "DISTINCT")
  let name ← word
  expect (.word "FROM")
  let entity ← word
  expect (.word name)
  let join ← join name
  expect (.word "WHERE")
  let condition ← conditional
  expect (.word "ORDER")
  expect (.word "BY")
  expect (.word name)
  expect (.symbol '.')
  let orderBy ← word
  expect (.word "DESC")
  return ⟨name, entity, join, condition, orderBy⟩

/-- The query a text is, if it is one. -/
def parse (text : String) : Option Query :=
  match (query.run (tokens text)) with
  | some (q, []) => some q
  | _ => none

/-! ## What is written is read back -/

variable {t : Token} {ts rest : List Token}

@[simp] theorem token_run : token.run (t :: ts) = some (t, ts) := rfl

@[simp] theorem expect_run : (expect t).run (t :: ts) = some ((), ts) := by
  simp [expect]

@[simp] theorem word_run (w : String) :
    word.run (.word w :: ts) = some (w, ts) := rfl

@[simp] theorem literal_run (value : String) :
    literal.run (.literal value :: ts) = some (value, ts) := rfl

@[simp] theorem accept_run (t' : Token) : (accept t).run (t' :: ts) =
    if t' = t then some (true, ts) else some (false, t' :: ts) := rfl

theorem accept_other (h : ts.head? ≠ some t) :
    (accept t).run ts = some (false, ts) := by
  cases ts with
  | nil => rfl
  | cons t' ts =>
    rw [accept_run, if_neg]
    simpa using h

@[simp] theorem path_run (p : Path) :
    path.run (p.tokens ++ rest) = some (p, rest) := by
  simp [path, Path.tokens]

@[simp] theorem operand_run (o : Operand) :
    operand.run (o.tokens ++ rest) = some (o, rest) := by
  cases o with
  | literal value =>
    simp [operand, Operand.tokens]
  | parameter name => simp [operand, Operand.tokens]

@[simp] theorem comparison_text (c : Comparison) :
    comparison c.text = some c := by
  cases c <;> rfl

theorem moreLiterals_run (values : List String) :
    moreLiterals.run (values.flatMap (fun value =>
      [.symbol ',', .literal value]) ++ .symbol ')' :: rest) =
        some (values, .symbol ')' :: rest) := by
  induction values with
  | nil => rfl
  | cons value values ih =>
    simp only [StateT.run] at ih
    simp [StateT.run, moreLiterals, ih]

theorem primary_run {c : Condition} (h : c.level = .primary) :
    primary.run (c.tokens ++ rest) = some (c, rest) := by
  cases c with
  | compare p comparison o =>
    simp [primary, Condition.tokens]
  | like p pattern => simp [primary, Condition.tokens]
  | isIn p value values =>
    simp [primary, Condition.tokens, moreLiterals_run]
  | and | or => exact absurd h nofun

/-- What may follow a condition of a level. -/
def Stops (l : Level) (ts : List Token) : Prop :=
  (l ≠ .primary → ts.head? ≠ some (.word "AND")) ∧
    (l = .disjunction → ts.head? ≠ some (.word "OR"))

theorem conjunction_of_primary {n : Nat} {c : Condition}
    (h : (condition n .primary).run ts = some (c, rest))
    (hstops : Stops .conjunction rest) :
    (condition (n + 1) .conjunction).run ts = some (c, rest) := by
  simp [condition, h, accept_other (hstops.1 nofun)]

theorem disjunction_of_conjunction {n : Nat} {c : Condition}
    (h : (condition n .conjunction).run ts = some (c, rest))
    (hstops : Stops .disjunction rest) :
    (condition (n + 1) .disjunction).run ts = some (c, rest) := by
  simp [condition, h, accept_other (hstops.2 rfl)]

theorem primary_of_disjunction {n : Nat} {c : Condition}
    (h : (condition n .disjunction).run (ts ++ .symbol ')' :: rest) =
      some (c, .symbol ')' :: rest)) :
    (condition (n + 1) .primary).run
      (.symbol '(' :: ts ++ [.symbol ')'] ++ rest) = some (c, rest) := by
  simp [condition, h]

theorem stops_close (l : Level) : Stops l (.symbol ')' :: rest) := by
  simp [Stops]

theorem stops_primary : Stops .primary ts := by
  simp [Stops]

theorem Stops.conjunction (h : Stops .disjunction ts) :
    Stops .conjunction ts :=
  ⟨fun _ => h.1 nofun, nofun⟩

/-- What is read at the level of the condition is read at every level. -/
theorem condition_lift {c : Condition} {k : Nat}
    (h : ∀ n rest, k ≤ n → Stops c.level rest →
      (condition n c.level).run (c.tokens ++ rest) = some (c, rest))
    {l : Level} {n : Nat} (hn : k + 2 ≤ n) (hstops : Stops l rest) :
    (condition n l).run (c.tokensAt l ++ rest) = some (c, rest) := by
  obtain ⟨n, rfl⟩ := Nat.exists_eq_add_of_le' hn
  rw [← Nat.add_assoc]
  unfold Condition.tokensAt
  cases hlevel : c.level with
  | primary =>
    rw [hlevel] at h
    cases l with
    | primary => exact h _ rest (by omega) stops_primary
    | conjunction =>
      exact conjunction_of_primary (h _ rest (by omega) stops_primary) hstops
    | disjunction =>
      apply disjunction_of_conjunction _ hstops
      exact conjunction_of_primary (h _ rest (by omega) stops_primary)
        hstops.conjunction
  | conjunction =>
    rw [hlevel] at h
    cases l with
    | primary =>
      apply primary_of_disjunction
      exact disjunction_of_conjunction (h _ _ (by omega) (stops_close _))
        (stops_close _)
    | conjunction => exact h _ rest (by omega) hstops
    | disjunction =>
      apply disjunction_of_conjunction _ hstops
      exact h _ rest (by omega) hstops.conjunction
  | disjunction =>
    rw [hlevel] at h
    cases l with
    | primary =>
      exact primary_of_disjunction (h _ _ (by omega) (stops_close _))
    | conjunction =>
      apply conjunction_of_primary _ hstops
      exact primary_of_disjunction (h _ _ (by omega) (stops_close _))
    | disjunction => exact h _ rest (by omega) hstops

def Condition.size : Condition → Nat
  | compare .. | like .. | isIn .. => 1
  | and a b | or a b => a.size + b.size + 1

theorem stops_or : Stops .conjunction (.word "OR" :: ts) := by
  simp [Stops]

theorem condition_run_primary {c : Condition} (h : c.level = .primary) {n : Nat}
    (hn : 1 ≤ n) :
    (condition n .primary).run (c.tokens ++ rest) = some (c, rest) := by
  obtain ⟨n, rfl⟩ := Nat.exists_eq_add_of_le' hn
  have hopen : (c.tokens ++ rest).head? ≠ some (.symbol '(') := by
    cases c with
    | compare | like | isIn => simp [Condition.tokens, Path.tokens]
    | and | or => exact absurd h nofun
  simp [condition, accept_other hopen, primary_run h]

theorem and_run {us : List Token} {n : Nat} {a b : Condition}
    (ha : (condition n .primary).run (ts ++ .word "AND" :: us) =
      some (a, .word "AND" :: us))
    (hb : (condition n .conjunction).run us = some (b, rest)) :
    (condition (n + 1) .conjunction).run (ts ++ .word "AND" :: us) =
      some (.and a b, rest) := by
  simp [condition, ha, hb]

theorem or_run {us : List Token} {n : Nat} {a b : Condition}
    (ha : (condition n .conjunction).run (ts ++ .word "OR" :: us) =
      some (a, .word "OR" :: us))
    (hb : (condition n .disjunction).run us = some (b, rest)) :
    (condition (n + 1) .disjunction).run (ts ++ .word "OR" :: us) =
      some (.or a b, rest) := by
  simp [condition, ha, hb]

/-- A condition is read back at every level. The induction is on the condition,
and each of its nodes needs three rounds at most. -/
theorem condition_run (c : Condition) {l : Level} {n : Nat}
    (hn : 3 * c.size ≤ n) (hstops : Stops l rest) :
    (condition n l).run (c.tokensAt l ++ rest) = some (c, rest) := by
  induction c generalizing l n rest with
  | compare | like | isIn =>
    refine condition_lift (k := 1) ?_ hn hstops
    exact fun _ _ hn _ => condition_run_primary rfl hn
  | and a b iha ihb =>
    refine condition_lift (k := 3 * (a.size + b.size) + 1) ?_ hn hstops
    intro n rest hn hstops
    obtain ⟨n, rfl⟩ := Nat.exists_eq_add_of_le' hn
    rw [Condition.tokens, List.append_assoc, ← Nat.add_assoc]
    exact and_run (iha (l := .primary) (by omega) stops_primary)
      (ihb (l := .conjunction) (by omega) hstops)
  | or a b iha ihb =>
    refine condition_lift (k := 3 * (a.size + b.size) + 1) ?_ hn hstops
    intro n rest hn hstops
    obtain ⟨n, rfl⟩ := Nat.exists_eq_add_of_le' hn
    rw [Condition.tokens, List.append_assoc, ← Nat.add_assoc]
    exact or_run (iha (l := .conjunction) (by omega) stops_or)
      (ihb (l := .disjunction) (by omega) hstops)

theorem length_le_wrap (l l' : Level) (ts : List Token) :
    ts.length ≤ (Condition.wrap l l' ts).length := by
  unfold Condition.wrap
  split
  · exact Nat.le_refl _
  · simp
    omega

theorem size_le_length (c : Condition) : c.size ≤ c.tokens.length := by
  induction c with
  | compare | like | isIn =>
    simp [Condition.size, Condition.tokens, Path.tokens]
  | and a b iha ihb =>
    have ha := length_le_wrap .primary a.level a.tokens
    have hb := length_le_wrap .conjunction b.level b.tokens
    simp only [Condition.size, Condition.tokens, List.length_append,
      List.length_cons]
    omega
  | or a b iha ihb =>
    have ha := length_le_wrap .conjunction a.level a.tokens
    have hb := length_le_wrap .disjunction b.level b.tokens
    simp only [Condition.size, Condition.tokens, List.length_append,
      List.length_cons]
    omega

@[simp] theorem join_run (name : String) (j : Option Join) :
    (join name).run
      ((j.map (Join.tokens name)).getD [] ++ .word "WHERE" :: ts) =
        some (j, .word "WHERE" :: ts) := by
  cases j with
  | none => simp [join]
  | some j => simp [join, Join.tokens]

/-- The fuel is enough. -/
theorem conditional_run (c : Condition) (hstops : Stops .disjunction rest) :
    conditional.run (c.tokens ++ rest) = some (c, rest) := by
  have hsize := size_le_length c
  apply condition_run c (l := .disjunction) _ hstops
  rw [List.length_append]
  omega

/-- A query is read back. -/
theorem query_run (q : Query) (rest : List Token) :
    query.run (q.tokens ++ rest) = some (q, rest) := by
  have hstops : Stops .disjunction (.word "ORDER" :: .word "BY" ::
      .word q.name :: .symbol '.' :: .word q.orderBy ::
      .word "DESC" :: rest) := by
    simp [Stops]
  have hcondition := conditional_run q.condition hstops
  simp [query, Query.tokens, hcondition]

/-- A text with the tokens of a query is that query. -/
theorem parse_of_tokens {text : String} {q : Query}
    (h : tokens text = q.tokens) : parse text = some q := by
  have hrun := query_run q []
  rw [List.append_nil] at hrun
  simp [parse, h, hrun]

/-! ## Literals -/

def Operand.values : Operand → List String
  | .literal value => [value]
  | .parameter _ => []

def Operand.erase : Operand → Operand
  | .literal _ => .literal ""
  | .parameter name => .parameter name

namespace Condition

/-- The string literals of a condition. -/
def values : Condition → List String
  | compare _ _ operand => operand.values
  | like _ pattern => [pattern]
  | isIn _ value values => value :: values
  | and a b | or a b => a.values ++ b.values

/-- The condition with empty literals. -/
def erase : Condition → Condition
  | compare path comparison operand => compare path comparison operand.erase
  | like path _ => like path ""
  | isIn path _ values => isIn path "" (values.map fun _ => "")
  | and a b => and a.erase b.erase
  | or a b => or a.erase b.erase

theorem wrap_values (l l' : Level) (ts : List Token) :
    (wrap l l' ts).filterMap Token.value? = ts.filterMap Token.value? := by
  unfold wrap
  split
  · rfl
  · simp [List.filterMap_cons, Token.value?]

theorem tokens_values (c : Condition) :
    c.tokens.filterMap Token.value? = c.values := by
  induction c with
  | compare path comparison operand =>
    cases operand <;> rfl
  | like path pattern => rfl
  | isIn path value values =>
    have hmore : (values.flatMap fun value =>
        [.symbol ',', .literal value]).filterMap Token.value? = values := by
      induction values with
      | nil => rfl
      | cons value values ih =>
        simp only [List.flatMap_cons, List.filterMap_append, ih]
        rfl
    simp [tokens, Condition.values, Path.tokens, List.filterMap_cons,
      Token.value?, hmore]
  | and a b iha ihb | or a b iha ihb =>
    simp [tokens, Condition.values, List.filterMap_cons, wrap_values, iha, ihb,
      Token.value?]

theorem level_erase (c : Condition) : c.erase.level = c.level := by
  cases c <;> rfl

theorem wrap_erase (l l' : Level) (ts : List Token) :
    (wrap l l' ts).map Token.erase = wrap l l' (ts.map Token.erase) := by
  unfold wrap
  split
  · rfl
  · simp [Token.erase]

theorem tokens_erase (c : Condition) :
    c.tokens.map Token.erase = c.erase.tokens := by
  induction c with
  | compare path comparison operand =>
    cases operand <;> rfl
  | like path pattern => rfl
  | isIn path value values =>
    simp [tokens, Condition.erase, Path.tokens, Token.erase, List.map_flatMap,
      List.flatMap_map, -List.map_const']
  | and a b iha ihb | or a b iha ihb =>
    simp [tokens, Condition.erase, wrap_erase, iha, ihb, level_erase,
      Token.erase]

theorem values_all (c : Condition) (cs : List Condition) :
    (all c cs).values = (c :: cs).flatMap values := by
  induction cs generalizing c with
  | nil => simp [all]
  | cons d ds ih => simp [all, values, ih]

theorem erase_all (c : Condition) (cs : List Condition) :
    (all c cs).erase = all c.erase (cs.map erase) := by
  induction cs generalizing c with
  | nil => rfl
  | cons d ds ih => simp [all, erase, ih]

end Condition

/-- The query with empty literals. -/
def Query.erase (q : Query) : Query := { q with condition := q.condition.erase }

theorem Query.tokens_values (q : Query) :
    q.tokens.filterMap Token.value? = q.condition.values := by
  obtain ⟨name, entity, join, condition, orderBy⟩ := q
  cases join <;>
    simp [Query.tokens, Join.tokens, List.filterMap_cons, Token.value?,
      Condition.tokens_values]

theorem Query.tokens_erase (q : Query) :
    q.tokens.map Token.erase = q.erase.tokens := by
  obtain ⟨name, entity, join, condition, orderBy⟩ := q
  cases join <;>
    simp [Query.tokens, Query.erase, Join.tokens, Token.erase,
      Condition.tokens_erase]

end Jpql
