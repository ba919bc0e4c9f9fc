import Mathlib.Data.List.DropRight
import Sipana.Lib.CharClass
import Sipana.Lib.Decimal
import Sipana.Lib.Tokens
import Sipana.Server.Calendar

/-!
# The converter of date fields

`MillisConverter` shows an instant as `dd/MM/yyyy HH:mm` and reads a date that
was typed. A text is first matched against two patterns of digits and then taken
apart; the numbers are set on a calendar of the current time. Digits are ASCII
digits, as in the default locale of the server.
-/

namespace Sipana

open RegularExpression

/-- A reference to a string. The literal `""` is one object, and other strings
may be empty too. -/
structure StringRef where
  text : String
  literal : Bool
  text_eq : literal = true → text = ""

namespace StringRef

def emptyLiteral : StringRef := ⟨"", true, fun _ => rfl⟩

def new (text : String) : StringRef := ⟨text, false, nofun⟩

end StringRef

/-! ## What is thrown -/

inductive Severity
  | info
  | warn
  | error
  | fatal
deriving DecidableEq, Repr

structure FacesMessage where
  summary : String
  detail : String
  severity : Severity := .info
deriving DecidableEq, Repr

inductive ConversionFailure
  | converterException (facesMessage : FacesMessage)
  | numberFormat
  | arrayIndexOutOfBounds
deriving DecidableEq, Repr

namespace MillisConverter

/-! ## Patterns -/

/-- `\d` -/
def digit : RegularExpression Char := CharClass.oneOf "0123456789".toList

/-- The characters of `\s`. -/
def whiteSpace : List Char :=
  [' ', '\t', '\n', Char.ofNat 11, Char.ofNat 12, '\r']

def space : RegularExpression Char := CharClass.oneOf whiteSpace

/-- `(\d{2}/){2}\d{4}\s+\d{2}:\d{2}\s*` -/
def dateTimePattern : RegularExpression Char :=
  (digit ^ 2 * char '/') ^ 2 * (digit ^ 4 * ((space * space.star) *
    (digit ^ 2 * (char ':' * (digit ^ 2 * space.star)))))

/-- `(\d{2}/){2}\d{4}\s*` -/
def datePattern : RegularExpression Char :=
  (digit ^ 2 * char '/') ^ 2 * (digit ^ 4 * space.star)

/-! ## `getAsObject` -/

def isSpace (c : Char) : Bool := whiteSpace.contains c

def isSeparator (c : Char) : Bool := c == '/' || c == ':'

/-- `split("/|\s+|:")`: a run of white space is one separator, and empty pieces
at the end are dropped. -/
def splitDate (param : String) : List (List Char) :=
  let pieces :=
    (Tokens.replaceRuns isSpace ':' false param.toList).splitOnP isSeparator
  -- a text without separators is returned as it is
  if pieces.length = 1 then pieces else pieces.rdropWhile List.isEmpty

def parseInt (R : Decimal.Reader) (s : List Char) :
    Except ConversionFailure Int :=
  match R.parse (-2 ^ 31) (2 ^ 31 - 1) s with
  | some value => .ok value
  | none => .error .numberFormat

/-- `parseInt(date[i])` -/
def parseItem (R : Decimal.Reader) (date : List (List Char)) (i : Nat) :
    Except ConversionFailure Int :=
  match date[i]? with
  | some s => parseInt R s
  | none => .error .arrayIndexOutOfBounds

def invalidDate : FacesMessage where
  summary := "InvalidDateFormatException"
  detail := "*Invalid Date - Try dd/MM/yyyy hh:mm"
  severity := .error

/-- The calendar after one of the two calls of `set`. -/
def setFields (R : Decimal.Reader) (date : List (List Char))
    (calendar : Calendar) : Except ConversionFailure Calendar := do
  -- three pieces are a date without a time
  if date.length = 3 then
    return calendar.setDate (← parseItem R date 2)
      ((← parseItem R date 1) - 1) (← parseItem R date 0)
  else
    return calendar.setDateTime (← parseItem R date 2)
      ((← parseItem R date 1) - 1) (← parseItem R date 0)
      (← parseItem R date 3) (← parseItem R date 4)

/-- `getAsObject(facesContext, uiComponent, param)` at the time `now`. The
result is a `Long`, or the `Integer` 0 if nothing was typed. -/
def getAsObject (R : Decimal.Reader) (zone : TimeZone) (now : Int)
    (param : StringRef) : Except ConversionFailure Int :=
  -- `param != ""` compares references
  if param.literal then .ok 0
  else if dateTimePattern.rmatch param.text.toList ∨
      datePattern.rmatch param.text.toList then
    (setFields R (splitDate param.text) (Calendar.getInstance zone now)).map
      (Calendar.getTimeInMillis zone)
  else .error (.converterException invalidDate)

/-! ## `getAsString` -/

/-- The pattern `dd/MM/yyyy HH:mm`. -/
def format (c : Calendar) : String :=
  String.ofList (Decimal.pad 2 c.dayOfMonth.toNat ++
    '/' :: (Decimal.pad 2 (c.month + 1).toNat ++
    '/' :: (Decimal.pad 4 c.year.toNat ++
    ' ' :: (Decimal.pad 2 c.hourOfDay.toNat ++
    ':' :: Decimal.pad 2 c.minute.toNat))))

/-- `getAsString(facesContext, uiComponent, obj)` of a number. -/
def getAsString (zone : TimeZone) (obj : Int) : StringRef :=
  let check := toString obj
  if (digit * digit.star).rmatch check.toList ∧ check ≠ "0" then
    .new (format (Calendar.setTimeInMillis zone obj))
  else .emptyLiteral

theorem mem_digits_iff {c : Char} :
    c ∈ "0123456789".toList ↔ c.isDigit = true := by
  constructor
  · intro h
    have hall : "0123456789".toList.all Char.isDigit = true := by decide
    exact List.all_eq_true.mp hall c h
  · intro h
    have hall : ∀ n < 58, (Char.ofNat n).isDigit = true →
        Char.ofNat n ∈ "0123456789".toList := by decide
    have hrange := Char.isDigit_iff_toNat.mp h
    have hc := hall c.toNat (Nat.lt_succ_of_le hrange.2)
    rw [Char.ofNat_toNat] at hc
    exact hc h

/-- Only a number that is not negative is all digits. -/
theorem digits_rmatch_iff {obj : Int} :
    (digit * digit.star).rmatch (toString obj).toList = true ↔ 0 ≤ obj := by
  rw [rmatch_iff_matches', matches'_mul, Language.mem_mul]
  constructor
  · intro h
    obtain ⟨w, hw, l, -, heq⟩ := h
    obtain ⟨c, hc, rfl⟩ := CharClass.mem_oneOf.mp hw
    by_contra hneg
    -- the text begins with a minus sign
    rw [Decimal.toList_toString, if_neg hneg] at heq
    obtain ⟨rfl, -⟩ := List.cons.inj heq
    exact absurd hc (by decide)
  · intro h
    rw [Decimal.toList_toString, if_pos h]
    obtain ⟨c, l, hcons⟩ :=
      List.exists_cons_of_ne_nil (Nat.toDigits_ne_nil (n := obj.toNat))
    have hdigits : ∀ d ∈ c :: l, d ∈ "0123456789".toList := by
      intro d hd
      rw [← hcons] at hd
      exact mem_digits_iff.mpr (Decimal.isDigit_of_mem_toDigits hd)
    rw [List.forall_mem_cons] at hdigits
    exact ⟨[c], CharClass.mem_oneOf.mpr ⟨c, hdigits.1, rfl⟩, l,
      CharClass.mem_oneOf_star.mpr hdigits.2, hcons.symm⟩

/-- A number is shown iff it is positive. -/
theorem getAsString_eq (zone : TimeZone) (obj : Int) :
    getAsString zone obj =
      if 0 < obj then .new (format (Calendar.setTimeInMillis zone obj))
      else .emptyLiteral := by
  have hzero : toString obj ≠ "0" ↔ obj ≠ 0 :=
    Decimal.toString_injective.ne_iff' (by rfl)
  simp only [getAsString, digits_rmatch_iff, hzero]
  by_cases hobj : 0 < obj
  · rw [if_pos hobj, if_pos (by omega)]
  · rw [if_neg hobj, if_neg (by omega)]

end MillisConverter

end Sipana
