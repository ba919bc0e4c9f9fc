import Mathlib.Data.List.Dedup
import Mathlib.Data.List.Infix
import Mathlib.Data.List.Sort
import Sipana.Lib.JpqlSyntax

/-!
# What queries select

The rows of a query are the entities, paired with the members of a collection if
there is a join. A query selects the entities of the rows that meet its
condition, each once, in descending order.

A comparison with an absent value fails, as its result is unknown and there is
no negation.
-/

namespace Jpql

inductive Value
  | number (n : Int)
  | string (s : String)
deriving DecidableEq, Repr

/-- What can be read of an object. -/
abbrev Fields := String → Option Value

structure Database (α : Type*) where
  entities : String → List α
  fields : α → Fields
  collection : α → String → List Fields

/-- The objects the names of a query stand for. -/
abbrev Row := String → Option Fields

/-! ## `LIKE` -/

/-- One character of the text, then what `rest` accepts. -/
def likeChar (p : Char) (rest : List Char → Bool) : List Char → Bool
  | [] => false
  | c :: cs => (p = '_' ∨ p = c) && rest cs

/-- `%` stands for any text and `_` for any character. -/
def likeChars : List Char → List Char → Bool
  | [], cs => cs.isEmpty
  | p :: ps, cs =>
    if p = '%' then cs.tails.any (likeChars ps)
    else likeChar p (likeChars ps) cs

def like (pattern s : String) : Bool := likeChars pattern.toList s.toList

/-- A pattern without wildcards matches itself. -/
theorem likeChars_append {ps : List Char} (h : ∀ p ∈ ps, p ≠ '%' ∧ p ≠ '_')
    (qs cs : List Char) :
    likeChars (ps ++ qs) cs = true ↔ ∃ ds, cs = ps ++ ds ∧ likeChars qs ds := by
  induction ps generalizing cs with
  | nil => simp
  | cons p ps ih =>
    obtain ⟨hp, hps⟩ := List.forall_mem_cons.mp h
    rw [List.cons_append, likeChars, if_neg hp.1]
    cases cs with
    | nil => simp [likeChar]
    | cons c cs =>
      rw [likeChar, Bool.and_eq_true, decide_eq_true_iff, ih hps]
      refine ⟨?_, ?_⟩
      · intro hlike
        obtain ⟨hc, ds, rfl, hlike⟩ := hlike
        obtain rfl := hc.resolve_left hp.2
        exact ⟨ds, rfl, hlike⟩
      · intro hlike
        obtain ⟨ds, hcs, hlike⟩ := hlike
        obtain ⟨rfl, rfl⟩ := List.cons.inj hcs
        exact ⟨Or.inr rfl, ds, rfl, hlike⟩

theorem likeChars_any (cs : List Char) : likeChars ['%'] cs = true := by
  rw [likeChars, if_pos rfl, List.any_eq_true]
  exact ⟨[], by simp, rfl⟩

/-- Between two `%` such a pattern is searched for. -/
theorem likeChars_infix {ps : List Char} (h : ∀ p ∈ ps, p ≠ '%' ∧ p ≠ '_')
    (cs : List Char) :
    likeChars ('%' :: ps ++ ['%']) cs = true ↔ ps <:+: cs := by
  rw [List.cons_append, likeChars, if_pos rfl, List.any_eq_true]
  refine ⟨?_, ?_⟩
  · intro hany
    obtain ⟨ds, hds, hlike⟩ := hany
    obtain ⟨es, rfl, -⟩ := (likeChars_append h _ _).mp hlike
    obtain ⟨front, hfront⟩ := (List.mem_tails _ _).mp hds
    exact ⟨front, es, by rw [← hfront, List.append_assoc]⟩
  · intro hinfix
    obtain ⟨front, back, rfl⟩ := hinfix
    refine ⟨ps ++ back, (List.mem_tails _ _).mpr ⟨front, by simp⟩, ?_⟩
    exact (likeChars_append h _ _).mpr ⟨back, rfl, likeChars_any back⟩

/-! ## Conditions -/

def Path.value (row : Row) (p : Path) : Option Value :=
  (row p.root).bind fun fields => fields p.field

def Operand.value (arguments : String → Option Value) :
    Operand → Option Value
  | .literal value => some (.string value)
  | .parameter name => arguments name

/-- Numbers are compared by their order, strings for equality only. -/
def Comparison.holds : Comparison → Value → Value → Bool
  | .eq, a, b => a = b
  | .ge, .number a, .number b => b ≤ a
  | .le, .number a, .number b => a ≤ b
  | .ge, _, _ | .le, _, _ => false

def Condition.holds (arguments : String → Option Value) (row : Row) :
    Condition → Bool
  | compare path comparison operand =>
    match path.value row, operand.value arguments with
    | some a, some b => comparison.holds a b
    | _, _ => false
  | like path pattern =>
    match path.value row with
    | some (.string s) => Jpql.like pattern s
    | _ => false
  | isIn path value values =>
    match path.value row with
    | some (.string s) => s ∈ value :: values
    | _ => false
  | and a b => a.holds arguments row && b.holds arguments row
  | or a b => a.holds arguments row || b.holds arguments row

theorem Condition.holds_all (arguments : String → Option Value) (row : Row)
    (c : Condition) (cs : List Condition) :
    (Condition.all c cs).holds arguments row =
      (c :: cs).all fun d => d.holds arguments row := by
  induction cs generalizing c with
  | nil => simp [Condition.all]
  | cons d ds ih => simp [Condition.all, Condition.holds, ih]

/-! ## Queries -/

section Select

variable {α : Type*} [DecidableEq α] (db : Database α)
  (arguments : String → Option Value) (q : Query)

/-- The row of an entity. -/
def Query.entityRow (a : α) : Row :=
  fun name => if name = q.name then some (db.fields a) else none

/-- The row of an entity and a member of its collection. -/
def Query.joinRow (j : Join) (a : α) (member : Fields) : Row :=
  fun name => if name = j.name then some member else q.entityRow db a name

/-- The rows of one entity. -/
def Query.rowsOf (a : α) : List Row :=
  match q.join with
  | none => [q.entityRow db a]
  | some j => (db.collection a j.collection).map (q.joinRow db j a)

def Query.rows : List (α × Row) :=
  (db.entities q.entity).flatMap fun a =>
    (q.rowsOf db a).map fun row => (a, row)

/-- What the result is ordered by. -/
def Query.key (a : α) : Int :=
  match db.fields a q.orderBy with
  | some (.number n) => n
  | _ => 0

def Query.select : List α :=
  let rows := (q.rows db).filter fun r => q.condition.holds arguments r.2
  (rows.map Prod.fst).dedup.insertionSort fun a b => q.key db b ≤ q.key db a

/-- Run a text as a query. -/
def execute (text : String) : Option (List α) :=
  (parse text).map fun q => q.select db arguments

theorem Query.mem_select {a : α} :
    a ∈ q.select db arguments ↔ a ∈ db.entities q.entity ∧
      ∃ row ∈ q.rowsOf db a, q.condition.holds arguments row = true := by
  simp only [Query.select, Query.rows, List.mem_insertionSort, List.mem_dedup,
    List.mem_map, List.mem_filter, List.mem_flatMap]
  refine ⟨?_, ?_⟩
  · intro h
    obtain ⟨_, ⟨⟨_, ha, row, hrow, rfl⟩, hholds⟩, rfl⟩ := h
    exact ⟨ha, row, hrow, hholds⟩
  · intro h
    obtain ⟨ha, row, hrow, hholds⟩ := h
    exact ⟨(a, row), ⟨⟨a, ha, row, hrow, rfl⟩, hholds⟩, rfl⟩

theorem Query.nodup_select : (q.select db arguments).Nodup :=
  (List.perm_insertionSort _ _).nodup_iff.mpr (List.nodup_dedup _)

theorem Query.sorted_select :
    (q.select db arguments).Pairwise fun a b => q.key db b ≤ q.key db a := by
  have : Std.Total fun a b => q.key db b ≤ q.key db a :=
    ⟨fun a b => Int.le_total _ _⟩
  have : IsTrans α fun a b => q.key db b ≤ q.key db a :=
    ⟨fun _ _ _ hab hbc => Int.le_trans hbc hab⟩
  exact List.pairwise_insertionSort _ _

end Select

end Jpql
