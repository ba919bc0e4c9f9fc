import Sipana.Lib.JpqlMeaning

/-!
# Queries for the members of a collection

The second form of the fragment selects the entities on the other side of a
relation: every member that is joined with an owner which meets the condition,
in ascending order. There is no `DISTINCT`, so what is selected are exactly the
members, as often as they are stored.

Such a query is read back like the first form (`MemberQuery.parse_of_tokens`).
-/

namespace Jpql

structure MemberQuery where
  name : String
  entity : String
  join : Join
  condition : Condition
  orderBy : String
deriving DecidableEq, Repr

/-! ## Syntax -/

def MemberQuery.tokens (q : MemberQuery) : List Token :=
  [.word "SELECT", .word q.name, .word "FROM", .word q.entity, .word q.name] ++
  q.join.tokens q.name ++ .word "WHERE" :: q.condition.tokens ++
  [.word "ORDER", .word "BY", .word q.name, .symbol '.', .word q.orderBy]

def memberQuery : Parser MemberQuery := do
  expect (.word "SELECT")
  let name ← word
  expect (.word "FROM")
  let entity ← word
  expect (.word name)
  match ← join name with
  | some j =>
    expect (.word "WHERE")
    let condition ← conditional
    expect (.word "ORDER")
    expect (.word "BY")
    expect (.word name)
    expect (.symbol '.')
    return ⟨name, entity, j, condition, ← word⟩
  | none => failure

/-- The member query a text is, if it is one. -/
def parseMembers (text : String) : Option MemberQuery :=
  match memberQuery.run (tokens text) with
  | some (q, []) => some q
  | _ => none

theorem memberQuery_run (q : MemberQuery) (rest : List Token) :
    memberQuery.run (q.tokens ++ rest) = some (q, rest) := by
  have hstops : Stops .disjunction (.word "ORDER" :: .word "BY" ::
      .word q.name :: .symbol '.' :: .word q.orderBy :: rest) := by
    simp [Stops]
  have hcondition := conditional_run q.condition hstops
  have hjoin : ∀ ts, (join q.name).run
      (q.join.tokens q.name ++ .word "WHERE" :: ts) =
        some (some q.join, .word "WHERE" :: ts) :=
    fun ts => join_run q.name (some q.join)
  simp [memberQuery, MemberQuery.tokens, hjoin, hcondition]

/-- A text with the tokens of a member query is that query. -/
theorem MemberQuery.parse_of_tokens {text : String} {q : MemberQuery}
    (h : Jpql.tokens text = q.tokens) : parseMembers text = some q := by
  have hrun := memberQuery_run q []
  rw [List.append_nil] at hrun
  simp [parseMembers, h, hrun]

/-! ## Meaning -/

/-- Entities that may have an owner. -/
structure MemberDatabase (α : Type*) where
  entities : String → List α
  fields : α → Fields
  owner : α → String → Option Fields

section Select

variable {α : Type*} (db : MemberDatabase α)
  (arguments : String → Option Value) (q : MemberQuery)

/-- The row of a member and its owner. -/
def MemberQuery.row (a : α) (owner : Fields) : Row :=
  fun name => if name = q.join.name then some owner
    else if name = q.name then some (db.fields a) else none

/-- The inner join drops a member without an owner. -/
def MemberQuery.meets (a : α) : Bool :=
  match db.owner a q.join.collection with
  | some owner => q.condition.holds arguments (q.row db a owner)
  | none => false

/-- What the result is ordered by. -/
def MemberQuery.key (a : α) : Int :=
  match db.fields a q.orderBy with
  | some (.number n) => n
  | _ => 0

def MemberQuery.select : List α :=
  ((db.entities q.entity).filter (q.meets db arguments)).insertionSort
    fun a b => q.key db a ≤ q.key db b

/-- Run a text as a query for members. -/
def executeMembers (text : String) : Option (List α) :=
  (parseMembers text).map fun q => q.select db arguments

theorem MemberQuery.perm_select : (q.select db arguments).Perm
    ((db.entities q.entity).filter (q.meets db arguments)) :=
  List.perm_insertionSort _ _

theorem MemberQuery.sorted_select : (q.select db arguments).Pairwise
    fun a b => q.key db a ≤ q.key db b := by
  have : Std.Total fun a b => q.key db a ≤ q.key db b :=
    ⟨fun a b => Int.le_total _ _⟩
  have : IsTrans α fun a b => q.key db a ≤ q.key db b :=
    ⟨fun _ _ _ hab hbc => Int.le_trans hab hbc⟩
  exact List.pairwise_insertionSort _ _

end Select

end Jpql
