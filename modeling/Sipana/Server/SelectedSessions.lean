import Sipana.Scenario.Captions
import Sipana.Server.SIPMessageManager

/-!
# From the selected sessions to the diagram

The page writes the ids of the selected sessions as one text. The diagram
service reads them back, has the messages looked up and draws them; the message
service returns them as a list. `selection_drawn` puts all stages together: what
is drawn are exactly the messages of the selected sessions, the earliest on top,
with the times that have passed since.
-/

namespace Sipana

/-- The messages that `getSIPScenario(strIdList)` draws. -/
def SIPScenarioWSImpl.getSIPScenario (R : Decimal.Reader)
    (store : List SIPSession) (strIdList : Option String) :
    Except RuntimeException (Option (List SIPMessage)) := do
  let idList ← createSIPSessionIdList R strIdList
  return SIPMessageManager.findBySessionID store idList

def SIPMessageWSImpl.getMessageList (R : Decimal.Reader) (utils : StringUtils)
    (store : List SIPSession) (sessionList : Option String) :
    Except RuntimeException (Option (List SIPMessage)) := do
  let list ← sessionIds R utils sessionList
  return SIPMessageManager.findBySessionID store (some list)

open SIPMessageManager

variable {R : Decimal.Reader} {utils : StringUtils}

/-- Ids that are read are looked up. -/
theorem getSIPScenario_of_reads (store : List SIPSession)
    {strIdList : Option String} {ids : List Int}
    (h : DiagramReads R strIdList ids) :
    ∃ messages,
      SIPScenarioWSImpl.getSIPScenario R store strIdList =
        .ok (some messages) ∧ Retrieves store ids messages := by
  obtain ⟨list, hread, rfl⟩ := h
  obtain ⟨messages, hfind, hmessages⟩ := findBySessionID_retrieves store list
  refine ⟨messages, ?_, hmessages⟩
  rw [SIPScenarioWSImpl.getSIPScenario, hread, ← hfind]
  rfl

theorem getMessageList_of_reads (store : List SIPSession)
    {sessionList : Option String} {ids : List Int}
    (h : MessagesRead R utils sessionList ids) :
    ∃ messages,
      SIPMessageWSImpl.getMessageList R utils store sessionList =
        .ok (some messages) ∧ Retrieves store ids messages := by
  obtain ⟨messages, hfind, hmessages⟩ :=
    findBySessionID_retrieves store (some ids)
  refine ⟨messages, ?_, hmessages⟩
  rw [SIPMessageWSImpl.getMessageList, show _ = _ from h, ← hfind]
  rfl

/-- What the page writes is read by both services. -/
theorem reads_of_selected (utils : StringUtils) {c : SIPSessionController}
    {ids : List Int} (hids : ∀ id ∈ ids, -2 ^ 63 ≤ id ∧ id ≤ 2 ^ 63 - 1)
    (hselected : c.selectedItems = some (ids.map toString)) :
    DiagramReads R (c.getSelectedItemsCSV utils) ids ∧
      MessagesRead R utils (c.getSelectedItemsCSV utils) ids := by
  have hcsv : c.getSelectedItemsCSV utils =
      some (",".intercalate (ids.map toString)) := by
    rw [SIPSessionController.getSelectedItemsCSV, hselected, utils.join_array]
  rw [hcsv, diagramReads_iff,
    messagesRead_iff_of_not_mem (not_mem_intercalate ids),
    csvTokens_intercalate]
  exact ⟨mapM_parseLong hids, mapM_parseLong hids⟩

/-- The diagram of a selection has exactly the messages of the selected
sessions, the earliest on top. It is created unless the image is too large, and
then with the texts of these messages. The list of the message service has the
same messages. -/
theorem selection_drawn (R : Decimal.Reader) (utils : StringUtils)
    (store : List SIPSession) (c : SIPSessionController) (ids : List Int)
    (hids : ∀ id ∈ ids, -2 ^ 63 ≤ id ∧ id ≤ 2 ^ 63 - 1)
    (hselected : c.selectedItems = some (ids.map toString)) :
    (∃ messages, SIPScenarioWSImpl.getSIPScenario R store
        (c.getSelectedItemsCSV utils) = .ok (some messages) ∧
      Retrieves store ids messages ∧
      ∀ (colors : List Color) (arrowSize : ArrowSize) (order : KeyOrder),
        colors ≠ [] →
          let σ : SIPScenario colors := SIPScenario.ofMessages messages
          ((σ.create arrowSize order).isSome = true ↔
            SIPScenario.ImageFits σ.withSize.imgWidth σ.withSize.imgHeight) ∧
          ∀ calls σ', σ.create arrowSize order = some (calls, σ') →
            SIPScenario.Captioned messages (captions calls)) ∧
    ∃ messages, SIPMessageWSImpl.getMessageList R utils store
        (c.getSelectedItemsCSV utils) = .ok (some messages) ∧
      Retrieves store ids messages := by
  obtain ⟨hdiagram, hlist⟩ := reads_of_selected (R := R) utils hids hselected
  refine ⟨?_, getMessageList_of_reads store hlist⟩
  obtain ⟨messages, hget, hmessages⟩ :=
    getSIPScenario_of_reads store hdiagram
  refine ⟨messages, hget, hmessages, ?_⟩
  intro colors arrowSize order hcolors σ
  exact ⟨SIPScenario.create_isSome_iff hcolors σ,
    fun _ _ hcreate => SIPScenario.captioned_create hcreate⟩

/-- Two stored calls. -/
def twoCalls : List SIPSession :=
  [{ SIPSession.ofRequest { callID := "a", time := 3, method := "INVITE" }
      with id := 1 },
    { SIPSession.ofRequest { callID := "b", time := 2, method := "BYE" }
      with id := 2 }]

theorem second_session_drawn : ∃ messages,
    SIPScenarioWSImpl.getSIPScenario Decimal.asciiReader twoCalls
      (SIPSessionController.getSelectedItemsCSV commonsLang
        { selectedItems := some ["2"] }) = .ok (some messages) ∧
    Retrieves twoCalls [2] messages ∧
    ∃ calls σ', (SIPScenario.ofMessages messages :
        SIPScenario [⟨0x64ff64⟩]).create {} SIPScenario.alphabetical =
          some (calls, σ') ∧
      SIPScenario.Captioned messages (captions calls) := by
  obtain ⟨⟨messages, hget, hmessages, hdrawn⟩, -⟩ :=
    selection_drawn Decimal.asciiReader commonsLang twoCalls
      { selectedItems := some ["2"] } [2] (by decide) rfl
  obtain ⟨hcreated, hcaptions⟩ :=
    hdrawn [⟨0x64ff64⟩] {} SIPScenario.alphabetical (List.cons_ne_nil _ _)
  have hlength : messages.length = 1 := hmessages.perm.length_eq
  have hfits := SIPScenario.imageFits_of_length_le
    (SIPScenario.ofMessages messages : SIPScenario [⟨0x64ff64⟩])
    (show messages.length ≤ 500 by omega)
  obtain ⟨⟨calls, σ'⟩, hcreate⟩ :=
    Option.isSome_iff_exists.mp (hcreated.mpr hfits)
  exact ⟨messages, hget, hmessages, calls, σ', hcreate, hcaptions _ _ hcreate⟩

end Sipana
