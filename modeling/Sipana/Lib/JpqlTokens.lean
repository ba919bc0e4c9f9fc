import Mathlib.Algebra.BigOperators.Group.List.Basic
import Mathlib.Algebra.Ring.Nat
import Mathlib.Tactic.Common

/-!
# Query texts as tokens

A scanner for the texts of a query language. It is always in one of five modes
and moves by one character. A string literal stands between quotes, a doubled
quote inside it is the only escape.

`Reads` says what a piece of text is read as, from one mode to another, and
composes along concatenation. So a text that is put together from fixed pieces
and values is read piece by piece.
-/

namespace Jpql

inductive Token
  | word (text : String)
  | operator (text : String)
  | symbol (c : Char)
  /-- A string literal, decoded. -/
  | literal (value : String)
  /-- A string literal the text ends in. -/
  | unterminated (value : String)
deriving DecidableEq, Repr

/-- What the scanner is reading, with the characters read of it. -/
inductive Mode
  | blank
  | word (cs : List Char)
  | operator (cs : List Char)
  | literal (cs : List Char)
  /-- After a quote in a literal. -/
  | quoted (cs : List Char)
deriving DecidableEq, Repr

/-- The token that ends when nothing more is added to it. -/
def Mode.pending : Mode → List Token
  | .blank => []
  | .word cs => [.word (String.ofList cs)]
  | .operator cs => [.operator (String.ofList cs)]
  | .literal cs => [.unterminated (String.ofList cs)]
  | .quoted cs => [.literal (String.ofList cs)]

inductive CharClass
  | blank
  | quote
  | symbol
  | operator
  | letter
deriving DecidableEq, Repr

def classOf (c : Char) : CharClass :=
  if c.isWhitespace then .blank
  else if c = '\'' then .quote
  else if c ∈ ['(', ')', ',', '.', ':'] then .symbol
  else if c ∈ ['<', '>', '='] then .operator
  else .letter

/-- A character that starts something new. -/
def enter (c : Char) : List Token × Mode :=
  match classOf c with
  | .blank => ([], .blank)
  | .quote => ([], .literal [])
  | .symbol => ([.symbol c], .blank)
  | .operator => ([], .operator [c])
  | .letter => ([], .word [c])

/-- A character that ends what was read before. -/
def restart (m : Mode) (c : Char) : List Token × Mode :=
  (m.pending ++ (enter c).1, (enter c).2)

def scanChar (m : Mode) (c : Char) : List Token × Mode :=
  match m with
  | .blank => enter c
  | .word cs =>
    if classOf c = .letter then ([], .word (cs ++ [c])) else restart m c
  | .operator cs =>
    if classOf c = .operator then ([], .operator (cs ++ [c])) else restart m c
  | .literal cs =>
    if c = '\'' then ([], .quoted cs) else ([], .literal (cs ++ [c]))
  | .quoted cs =>
    if c = '\'' then ([], .literal (cs ++ [c])) else restart m c

def scan (m : Mode) : List Char → List Token × Mode
  | [] => ([], m)
  | c :: cs =>
    let (ts, m) := scanChar m c
    let (us, m) := scan m cs
    (ts ++ us, m)

/-- The tokens of a text. -/
def tokens (text : String) : List Token :=
  let (ts, m) := scan .blank text.toList
  ts ++ m.pending

def Token.value? : Token → Option String
  | .literal value => some value
  | .word _ | .operator _ | .symbol _ | .unterminated _ => none

/-- The values of the string literals of a text. -/
def literals (text : String) : List String :=
  (tokens text).filterMap Token.value?

def Token.erase : Token → Token
  | .literal _ => .literal ""
  | t => t

/-- The tokens of a text without the values of its literals. -/
def shape (text : String) : List Token := (tokens text).map Token.erase

/-! ## Reading piece by piece -/

theorem scan_append (m : Mode) (xs ys : List Char) :
    scan m (xs ++ ys) =
      ((scan m xs).1 ++ (scan (scan m xs).2 ys).1,
        (scan (scan m xs).2 ys).2) := by
  induction xs generalizing m with
  | nil => rfl
  | cons c xs ih => simp [scan, ih]

/-- From mode `m` on, `text` is read as `ts` and leaves the scanner in `m'`. -/
def Reads (m : Mode) (text : String) (ts : List Token) (m' : Mode) : Prop :=
  scan m text.toList = (ts, m')

instance (m : Mode) (text : String) (ts : List Token) (m' : Mode) :
    Decidable (Reads m text ts m') := inferInstanceAs (Decidable (_ = _))

variable {m m' m'' : Mode} {text text' : String} {ts us : List Token}

theorem reads_empty (m : Mode) : Reads m "" [] m := rfl

theorem Reads.append (h : Reads m text ts m') (h' : Reads m' text' us m'') :
    Reads m (text ++ text') (ts ++ us) m'' := by
  unfold Reads at h h' ⊢
  rw [String.toList_append, scan_append, h, h']

theorem Reads.tokens (h : Reads .blank text ts m) :
    tokens text = ts ++ m.pending := by
  unfold Reads at h
  unfold Jpql.tokens
  rw [h]

/-- A value without a quote is read as it is inside a literal. -/
theorem reads_value (cs : List Char) {value : String}
    (h : '\'' ∉ value.toList) :
    Reads (.literal cs) value [] (.literal (cs ++ value.toList)) := by
  unfold Reads
  generalize value.toList = rest at h ⊢
  induction rest generalizing cs with
  | nil => simp [scan]
  | cons c rest ih =>
    rw [List.mem_cons, not_or] at h
    have hstep : scanChar (.literal cs) c = ([], .literal (cs ++ [c])) :=
      if_neg (Ne.symm h.1)
    simp [scan, hstep, ih (cs ++ [c]) h.2]

/-- A value between the pieces of text that open and close its literal. -/
theorem Reads.value {front : List Char} {value back : String}
    (h : Reads m text ts (.literal front)) (hvalue : '\'' ∉ value.toList)
    (hback : Reads (.literal (front ++ value.toList)) back us m') :
    Reads m (text ++ value ++ back) (ts ++ us) m' := by
  have hread := (h.append (reads_value front hvalue)).append hback
  rwa [List.append_nil] at hread

example : tokens "s.callId LIKE '%a''b%' " =
    [.word "s", .symbol '.', .word "callId", .word "LIKE",
      .literal "%a'b%"] := by
  decide

/-! ## Counting quotes

Every quote of a text delimits a literal or is one half of an escape in it. -/

def quotes (s : String) : Nat := s.toList.count '\''

/-- The quotes a token takes. -/
def Token.quotes : Token → Nat
  | .literal value => 2 + 2 * Jpql.quotes value
  | .unterminated value => 1 + 2 * Jpql.quotes value
  | .word _ | .operator _ | .symbol _ => 0

/-- The quotes taken by what the scanner is reading. -/
def Mode.quotes : Mode → Nat
  | .literal cs => 1 + 2 * cs.count '\''
  | .quoted cs => 2 + 2 * cs.count '\''
  | .blank | .word _ | .operator _ => 0

theorem quotes_append (s t : String) :
    quotes (s ++ t) = quotes s + quotes t := by
  simp [quotes]

theorem quotes_eq_zero {s : String} : quotes s = 0 ↔ '\'' ∉ s.toList :=
  List.count_eq_zero

theorem pending_quotes (m : Mode) :
    (m.pending.map Token.quotes).sum = m.quotes := by
  cases m <;> simp [Mode.pending, Mode.quotes, Token.quotes, quotes]

theorem classOf_eq_quote {c : Char} : classOf c = .quote ↔ c = '\'' := by
  refine ⟨fun h => ?_, fun h => h ▸ (by decide)⟩
  unfold classOf at h
  split_ifs at h with _ hc
  exact hc

theorem ne_quote {c : Char} (h : classOf c ≠ .quote) : c ≠ '\'' :=
  mt classOf_eq_quote.mpr h

theorem enter_quotes (c : Char) :
    ((enter c).1.map Token.quotes).sum + (enter c).2.quotes =
      [c].count '\'' := by
  by_cases hc : c = '\''
  · subst hc
    decide
  · rw [List.count_singleton, if_neg (by simpa using hc)]
    have hclass : classOf c ≠ .quote := mt classOf_eq_quote.mp hc
    unfold enter
    cases hcl : classOf c <;> simp_all [Token.quotes, Mode.quotes]

theorem restart_quotes (m : Mode) (c : Char) :
    ((restart m c).1.map Token.quotes).sum + (restart m c).2.quotes =
      m.quotes + [c].count '\'' := by
  unfold restart
  rw [List.map_append, List.sum_append, pending_quotes, Nat.add_assoc,
    enter_quotes]

theorem scanChar_quotes (m : Mode) (c : Char) :
    ((scanChar m c).1.map Token.quotes).sum + (scanChar m c).2.quotes =
      m.quotes + [c].count '\'' := by
  cases m with
  | blank =>
    rw [show Mode.blank.quotes = 0 from rfl, Nat.zero_add]
    exact enter_quotes c
  | word cs =>
    simp only [scanChar]
    split_ifs with hclass
    · simp [Mode.quotes, ne_quote (by rw [hclass]; decide)]
    · exact restart_quotes _ c
  | operator cs =>
    simp only [scanChar]
    split_ifs with hclass
    · simp [Mode.quotes, ne_quote (by rw [hclass]; decide)]
    · exact restart_quotes _ c
  | literal cs =>
    simp only [scanChar]
    split_ifs with hc
    · subst hc
      simp [Mode.quotes]
      omega
    · simp [Mode.quotes, List.count_append, hc]
  | quoted cs =>
    simp only [scanChar]
    split_ifs with hc
    · subst hc
      simp [Mode.quotes, List.count_append]
      omega
    · exact restart_quotes _ c

theorem scan_quotes (m : Mode) (cs : List Char) :
    ((scan m cs).1.map Token.quotes).sum + (scan m cs).2.quotes =
      m.quotes + cs.count '\'' := by
  induction cs generalizing m with
  | nil => simp [scan]
  | cons c cs ih =>
    have hc := scanChar_quotes m c
    have hcs := ih (scanChar m c).2
    simp only [scan, List.map_append, List.sum_append]
    rw [← List.singleton_append, List.count_append]
    omega

/-- The tokens of a text take its quotes. -/
theorem tokens_quotes (text : String) :
    ((tokens text).map Token.quotes).sum = quotes text := by
  have h := scan_quotes .blank text.toList
  simp only [tokens, List.map_append, List.sum_append, pending_quotes]
  exact h.trans (Nat.zero_add _)

/-- The quotes taken by literals that hold `values`, if nothing is escaped. -/
def delimiters (values : List String) : Nat :=
  (values.map fun v => 2 + quotes v).sum

theorem delimiters_append (vs ws : List String) :
    delimiters (vs ++ ws) = delimiters vs + delimiters ws := by
  simp [delimiters]

theorem values_quotes_le (ts : List Token) :
    ((ts.filterMap Token.value?).map fun v => 2 + 2 * quotes v).sum ≤
      (ts.map Token.quotes).sum := by
  induction ts with
  | nil => exact Nat.le_refl 0
  | cons t ts ih =>
    rw [List.filterMap_cons, List.map_cons, List.sum_cons]
    cases t with
    | literal value => exact Nat.add_le_add_left ih _
    | _ => exact Nat.le_trans ih (Nat.le_add_left _ _)

/-- Values that were written without escapes are read back only if they have no
quotes. -/
theorem quotes_of_literals {text : String}
    (h : quotes text = delimiters (literals text)) :
    ∀ v ∈ literals text, '\'' ∉ v.toList := by
  have hle := values_quotes_le (tokens text)
  rw [tokens_quotes, h] at hle
  unfold literals delimiters at *
  generalize (tokens text).filterMap Token.value? = vs at hle ⊢
  have hsum : (vs.map fun v => 2 + 2 * quotes v).sum =
      (vs.map fun v => 2 + quotes v).sum + (vs.map quotes).sum := by
    rw [← List.sum_map_add]
    congr 2
    funext v
    omega
  intro v hv
  rw [← quotes_eq_zero]
  have hzero : (vs.map quotes).sum = 0 := by omega
  exact List.sum_eq_zero_iff_forall_eq_nat.mp hzero _ (List.mem_map_of_mem hv)

end Jpql
