import Sipana.Lib.Decimal
import Sipana.Lib.Tokens

/-!
# Lists in request parameters

The front ends take a list as one text. `csvTokens` is the way in which
`createIpAddrList` and `createSIPSessionIdList` take it apart; what it finds are
the maximal runs of characters other than space and comma. `StringUtils` is
commons-lang, of which the documented behaviour is used.
-/

namespace Sipana

inductive RuntimeException
  | nullPointer
  | numberFormat
deriving DecidableEq, Repr

/-! ## Taking a text apart -/

/-- The tokens of `new StringTokenizer(text.replaceAll(" +", ","), ",")`. -/
def csvTokens (text : String) : List String :=
  let csv := Tokens.replaceRuns (· == ' ') ',' false text.toList
  (Tokens.tokens (· == ',') csv).map String.ofList

/-- The list consists of the maximal runs of other characters. -/
def Separated (delimiter : Char → Bool) (text : String) (list : List String) :
    Prop := Tokens.Runs delimiter text.toList (list.map String.toList)

def spaceOrComma (c : Char) : Bool := c == ' ' || c == ','

theorem separated_iff {delimiter : Char → Bool} {text : String}
    {list : List String} : Separated delimiter text list ↔
      list = (Tokens.tokens delimiter text.toList).map String.ofList := by
  unfold Separated
  rw [Tokens.runs_iff]
  constructor
  · intro h
    rw [← h, List.map_map]
    simp [Function.comp_def]
  · intro h
    rw [h, List.map_map]
    simp [Function.comp_def]

theorem Separated.eq {delimiter : Char → Bool} {text : String}
    {list list' : List String} (h : Separated delimiter text list)
    (h' : Separated delimiter text list') : list = list' := by
  rw [separated_iff.mp h, separated_iff.mp h']

theorem separated_csvTokens (text : String) :
    Separated spaceOrComma text (csvTokens text) := by
  rw [separated_iff, csvTokens, Tokens.tokens_replaceRuns _ (by rfl)]
  rfl

example : csvTokens " 10.0.0.1,, 10.0.0.2 " = ["10.0.0.1", "10.0.0.2"] := by
  decide

/-! ## `StringUtils` -/

/-- `split(str, separatorChars)` and `join(array, separator)`. -/
structure StringUtils where
  split : Option String → String → Option (List String)
  join : Option (List String) → String → Option String
  split_null : ∀ separatorChars, split none separatorChars = none
  split_text : ∀ text separatorChars, ∃ list,
    split (some text) separatorChars = some list ∧
      Separated (fun c => separatorChars.toList.contains c) text list
  join_array : ∀ array separator,
    join (some array) separator = some (separator.intercalate array)

/-- As commons-lang documents it. -/
def commonsLang : StringUtils where
  split str separatorChars := str.map fun text =>
    (Tokens.tokens (fun c => separatorChars.toList.contains c)
      text.toList).map String.ofList
  join array separator := array.map separator.intercalate
  split_null _ := rfl
  split_text _ _ := ⟨_, rfl, separated_iff.mpr rfl⟩
  join_array _ _ := rfl

theorem StringUtils.split_comma (utils : StringUtils) (text : String) :
    ∃ list, utils.split (some text) "," = some list ∧
      Separated (· == ',') text list := by
  obtain ⟨list, hsplit, hlist⟩ := utils.split_text text ","
  refine ⟨list, hsplit, ?_⟩
  have hcomma : (fun c => ",".toList.contains c) = (· == ',') := by
    funext c
    simp [beq_eq_decide]
  rwa [hcomma] at hlist

end Sipana
