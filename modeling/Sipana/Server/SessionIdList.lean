import Sipana.Lib.FallibleLoop
import Sipana.Server.AddressList

/-!
# Lists of session ids

The page writes the selected ids as one text, which the diagram service and the
message service read. Both read back what the page writes. They differ on texts
with spaces: `createSIPSessionIdList` takes a space for a separator, and
`getMessageList` leaves it in the text of the number.
-/

namespace Sipana

open FallibleLoop

/-! ## Reading numbers -/

/-- `Long.parseLong`. -/
def parseLong (R : Decimal.Reader) (s : String) :
    Except RuntimeException Int :=
  match R.parse (-2 ^ 63) (2 ^ 63 - 1) s.toList with
  | some value => .ok value
  | none => .error .numberFormat

/-! ## The page and the services -/

/-- The ids of the selected sessions, as one text. -/
def SIPSessionController.getSelectedItemsCSV (utils : StringUtils)
    (c : SIPSessionController) : Option String :=
  utils.join c.selectedItems ","

def SIPScenarioWSImpl.createSIPSessionIdList (R : Decimal.Reader) :
    Option String → Except RuntimeException (Option (List Int))
  | none => .ok none
  | some strIdList =>
    let tokens := csvTokens strIdList
    if tokens.length > 0 then (tokens.mapM (parseLong R)).map some
    else .ok none

/-- The list of ids that `getMessageList(sessionList)` searches with. -/
def SIPMessageWSImpl.sessionIds (R : Decimal.Reader) (utils : StringUtils)
    (sessionList : Option String) : Except RuntimeException (List Int) :=
  match utils.split sessionList "," with
  | none => .error .nullPointer
  | some strList => strList.mapM (parseLong R)

variable {R : Decimal.Reader} {utils : StringUtils}

/-- The diagram service reads the ids, where `null` is the empty list. -/
def DiagramReads (R : Decimal.Reader) (strIdList : Option String)
    (ids : List Int) : Prop :=
  ∃ list, SIPScenarioWSImpl.createSIPSessionIdList R strIdList = .ok list ∧
    list.getD [] = ids

theorem diagramReads_iff {text : String} {ids : List Int} :
    DiagramReads R (some text) ids ↔
      (csvTokens text).mapM (parseLong R) = .ok ids := by
  unfold DiagramReads SIPScenarioWSImpl.createSIPSessionIdList
  dsimp only
  split
  · cases (csvTokens text).mapM (parseLong R) with
    | error e => simp [Except.map]
    | ok list => simp [Except.map]
  · next hlength =>
    rw [List.length_eq_zero_iff.mp (Nat.eq_zero_of_not_pos hlength)]
    simp [pure, Except.pure]

/-- The message service reads the ids. -/
def MessagesRead (R : Decimal.Reader) (utils : StringUtils)
    (sessionList : Option String) (ids : List Int) : Prop :=
  SIPMessageWSImpl.sessionIds R utils sessionList = .ok ids

/-! ## Spaces -/

/-- A text with a space in it is no number. -/
theorem parseLong_of_space {w : String} (h : ' ' ∈ w.toList) :
    parseLong R w = .error .numberFormat := by
  have hspace : R.digit ' ' = none := R.ascii ' ' (by decide)
  rw [parseLong, Decimal.Reader.parse_of_mem h hspace (by decide) (by decide)]

/-- Without spaces both services see the same words. -/
theorem messagesRead_iff_of_not_mem {text : String} (h : ' ' ∉ text.toList)
    {ids : List Int} : MessagesRead R utils (some text) ids ↔
      (csvTokens text).mapM (parseLong R) = .ok ids := by
  obtain ⟨list, hsplit, hlist⟩ := utils.split_comma text
  have hsame : Separated spaceOrComma text list := by
    refine Tokens.Runs.congr hlist fun c hc => ?_
    have hne : c ≠ ' ' := fun heq => h (heq ▸ hc)
    simp [spaceOrComma, hne]
  rw [MessagesRead, SIPMessageWSImpl.sessionIds, hsplit,
    hsame.eq (separated_csvTokens text)]

/-- The message service rejects every text with a space. -/
theorem not_messagesRead_of_mem {text : String} (h : ' ' ∈ text.toList)
    (ids : List Int) : ¬ MessagesRead R utils (some text) ids := by
  obtain ⟨list, hsplit, hlist⟩ := utils.split_comma text
  intro hread
  rw [MessagesRead, SIPMessageWSImpl.sessionIds, hsplit] at hread
  -- a space is no delimiter here, so it is in the text of some number
  obtain ⟨w, hw, hspace⟩ := Tokens.Runs.exists_mem hlist h (by rfl)
  obtain ⟨word, hword, rfl⟩ := List.mem_map.mp hw
  obtain ⟨n, hn⟩ := (exists_mapM_iff _ _).mp ⟨ids, hread⟩ word hword
  rw [parseLong_of_space hspace] at hn
  exact absurd hn nofun

/-- Some run of characters other than space and comma is not a number. -/
def Unreadable (R : Decimal.Reader) (text : String) : Prop :=
  ∃ words, Separated spaceOrComma text words ∧
    ∃ word ∈ words, parseLong R word = .error .numberFormat

theorem parseLong_error_iff {s : String} :
    parseLong R s = .error .numberFormat ↔ ∀ n, parseLong R s ≠ .ok n := by
  unfold parseLong
  split <;> simp

theorem unreadable_iff {text : String} : Unreadable R text ↔
    ∀ ids, (csvTokens text).mapM (parseLong R) ≠ .ok ids := by
  have hread := (exists_mapM_iff (parseLong R) (csvTokens text)).not
  push Not at hread
  rw [hread]
  constructor
  · intro h
    obtain ⟨words, hwords, word, hword, herror⟩ := h
    rw [hwords.eq (separated_csvTokens text)] at hword
    exact ⟨word, hword, parseLong_error_iff.mp herror⟩
  · intro h
    obtain ⟨word, hword, herror⟩ := h
    exact ⟨_, separated_csvTokens text, word, hword,
      parseLong_error_iff.mpr herror⟩

/-! ## Agreement -/

/-- Both services reject the list, or both read the same ids. -/
def ServicesAgree (R : Decimal.Reader) (utils : StringUtils)
    (list : Option String) : Prop :=
  ∀ ids, DiagramReads R list ids ↔ MessagesRead R utils list ids

theorem servicesAgree_iff (list : Option String) :
    ServicesAgree R utils list ↔ ∃ text, list = some text ∧
      (' ' ∉ text.toList ∨ Unreadable R text) := by
  cases list with
  | none =>
    constructor
    · -- only the diagram service takes `null` for the empty list
      intro h
      have hread : MessagesRead R utils none [] := (h []).mp ⟨none, rfl, rfl⟩
      rw [MessagesRead, SIPMessageWSImpl.sessionIds, utils.split_null] at hread
      exact absurd hread nofun
    · intro h
      obtain ⟨text, htext, -⟩ := h
      exact absurd htext nofun
  | some text =>
    simp only [Option.some.injEq, exists_eq_left']
    unfold ServicesAgree
    by_cases hspace : ' ' ∈ text.toList
    · simp only [diagramReads_iff, not_messagesRead_of_mem hspace,
        iff_false, hspace, not_true_eq_false, false_or]
      exact unreadable_iff.symm
    · simp only [diagramReads_iff, messagesRead_iff_of_not_mem hspace,
        implies_true, hspace, not_false_eq_true, true_or]

/-! ## What the page writes -/

/-- The texts of the ids are found between the commas. -/
theorem separated_intercalate {delimiter : Char → Bool}
    (hcomma : delimiter ',' = true)
    (h : ∀ c, c = '-' ∨ c.isDigit = true → delimiter c = false)
    (ids : List Int) :
    Separated delimiter (",".intercalate (ids.map toString))
      (ids.map toString) := by
  unfold Separated
  rw [String.toList_intercalate]
  refine Tokens.runs_intercalate hcomma fun w hw => ?_
  obtain ⟨_, hid, rfl⟩ := List.mem_map.mp hw
  obtain ⟨id, -, rfl⟩ := List.mem_map.mp hid
  exact ⟨Decimal.toList_toString_ne_nil,
    fun c hc => h c (Decimal.mem_toString hc)⟩

/-- A space and a comma are no part of a number. -/
theorem ne_of_number {c : Char} (h : c = '-' ∨ c.isDigit = true) :
    c ≠ ' ' ∧ c ≠ ',' := by
  refine ⟨?_, ?_⟩
  · rintro rfl
    exact absurd h (by decide)
  · rintro rfl
    exact absurd h (by decide)

theorem csvTokens_intercalate (ids : List Int) :
    csvTokens (",".intercalate (ids.map toString)) = ids.map toString := by
  refine (separated_csvTokens _).eq (separated_intercalate (by rfl) ?_ ids)
  intro c hc
  simp [spaceOrComma, ne_of_number hc]

theorem not_mem_intercalate (ids : List Int) :
    ' ' ∉ (",".intercalate (ids.map toString)).toList := by
  intro hspace
  have hwords : Separated (· == ',') (",".intercalate (ids.map toString))
      (ids.map toString) :=
    separated_intercalate (by rfl) (fun c hc => by simp [ne_of_number hc]) ids
  obtain ⟨w, hw, hmem⟩ := Tokens.Runs.exists_mem hwords hspace (by rfl)
  obtain ⟨_, hid, rfl⟩ := List.mem_map.mp hw
  obtain ⟨id, -, rfl⟩ := List.mem_map.mp hid
  exact (ne_of_number (Decimal.mem_toString hmem)).1 rfl

theorem mapM_parseLong {ids : List Int}
    (h : ∀ id ∈ ids, -2 ^ 63 ≤ id ∧ id ≤ 2 ^ 63 - 1) :
    (ids.map toString).mapM (parseLong R) = .ok ids := by
  rw [mapM_eq_ok_iff, List.forall₂_map_left_iff, List.forall₂_same]
  intro id hid
  obtain ⟨hlo, hhi⟩ := h id hid
  rw [parseLong, Decimal.Reader.parse_toString hlo hhi]

/-- The services read a list alike iff it is given and has no space in it or
a word that is no number; both read back the ids that the page writes. -/
theorem session_id_lists (R : Decimal.Reader) (utils : StringUtils) :
    (∀ list, ServicesAgree R utils list ↔ ∃ text, list = some text ∧
      (' ' ∉ text.toList ∨ Unreadable R text)) ∧
    ∀ (c : SIPSessionController) (ids : List Int),
      (∀ id ∈ ids, -2 ^ 63 ≤ id ∧ id ≤ 2 ^ 63 - 1) →
      c.selectedItems = some (ids.map toString) →
      DiagramReads R (c.getSelectedItemsCSV utils) ids ∧
        MessagesRead R utils (c.getSelectedItemsCSV utils) ids := by
  refine ⟨servicesAgree_iff, fun c ids hids hselected => ?_⟩
  have hcsv : c.getSelectedItemsCSV utils =
      some (",".intercalate (ids.map toString)) := by
    rw [SIPSessionController.getSelectedItemsCSV, hselected, utils.join_array]
  rw [hcsv, diagramReads_iff,
    messagesRead_iff_of_not_mem (not_mem_intercalate ids),
    csvTokens_intercalate]
  exact ⟨mapM_parseLong hids, mapM_parseLong hids⟩

theorem selected_ids_read_back :
    let c : SIPSessionController := { selectedItems := some ["4", "-7"] }
    DiagramReads Decimal.asciiReader (c.getSelectedItemsCSV commonsLang)
      [4, -7] ∧
    MessagesRead Decimal.asciiReader commonsLang
      (c.getSelectedItemsCSV commonsLang) [4, -7] :=
  (session_id_lists Decimal.asciiReader commonsLang).2 _ [4, -7] (by decide)
    (by rfl)

theorem space_between_ids :
    ¬ ServicesAgree Decimal.asciiReader commonsLang (some "1 2") := by
  intro h
  have hread := (h [1, 2]).mp ⟨some [1, 2], by rfl, rfl⟩
  exact not_messagesRead_of_mem (by decide) _ hread

end Sipana
