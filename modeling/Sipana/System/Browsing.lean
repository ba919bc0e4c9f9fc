import Sipana.Server.DateField
import Sipana.Server.SessionItems
import Sipana.Server.SessionSearch
import Sipana.System.Diagrams

/-!
# Browsing while sessions come in

The page keeps its list in the session of the user until the next search. In the
meantime the bean stores more. Still an entry never gets out of date.
`listed_drawn` says that it stands for a row of the table, that its text is right
for this row, and that the diagram of the selected entries has the messages that
these rows have by then. The page is in a time zone with a fixed offset.
-/

namespace Sipana

/-- The page, with the field `sipSessionList` of its controller. -/
structure SessionListPage where
  controller : SIPSessionController := {}
  sipSessionList : List SelectItem := []

/-- What the user does. -/
inductive PageStep
  /-- The fields of the search form are set. -/
  | setFields (form : SIPSessionController)
  /-- `now` is the time of the search, `clock i` the time at which entry `i` is
  made. -/
  | search (now : Int) (clock : Nat → Int)
  | reset
  | setSelectedItems (selectedItems : Option (List String))

namespace SessionListPage

variable (locale : Locale) (zone : TimeZone) (system : SystemProperties)

def search (now : Int) (clock : Nat → Int) (store : List SIPSession)
    (σ : SessionListPage) : SessionListPage :=
  match σ.controller.search locale now store with
  | .ok (some sipSessions) =>
    { σ with sipSessionList := sipSessions.mapIdx fun i session =>
        SIPSessionController.item zone system (clock i) session }
  -- an exception comes before the list is replaced
  | .ok none | .error _ => σ

def reset (σ : SessionListPage) : SessionListPage where
  controller := σ.controller.reset
  sipSessionList := []

def step (store : List SIPSession) (σ : SessionListPage) :
    PageStep → SessionListPage
  | .setFields form =>
    { σ with controller :=
        { form with selectedItems := σ.controller.selectedItems } }
  | .search now clock => σ.search locale zone system now clock store
  | .reset => σ.reset
  | .setSelectedItems selectedItems =>
    { σ with controller := { σ.controller with selectedItems } }

end SessionListPage

/-- The system with a page in front. -/
structure Browsing where
  deployment : Deployment
  page : SessionListPage := {}

inductive BrowsingStep
  | system (step : DeploymentStep)
  | page (step : PageStep)

namespace Browsing

open SIPSessionMDB

variable (locale : Locale) (zone : TimeZone) (system : SystemProperties)

def step (σ : Browsing) : BrowsingStep → Browsing
  | .system a => { σ with deployment := σ.deployment.step a }
  | .page a =>
    { σ with
      page := σ.page.step locale zone system σ.deployment.server.rows a }

def machine (bufferSize : Int) : Machine Browsing BrowsingStep where
  init := { deployment := (Deployment.machine bufferSize).init }
  step := step locale zone system

def run (bufferSize : Int) (steps : List BrowsingStep) : Browsing :=
  (machine locale zone system bufferSize).run steps

variable {locale zone system}

end Browsing

/-! ## Rows -/

namespace Browsing

open SIPSessionMDB

variable {locale : Locale} {zone : TimeZone} {system : SystemProperties}

/-! ## Entries -/

/-- The entry stands for a row, and its text is right for it. -/
def Describes (zone : TimeZone) (system : SystemProperties)
    (rows : List SIPSession) (x : SelectItem) : Prop :=
  ∃ (k : Nat) (s : SIPSession) (now : Int), rows[k]? = some s ∧
    x.value = k + 1 ∧ x = SIPSessionController.item zone system now s

theorem Describes.mono {rows rows' : List SIPSession} {x : SelectItem}
    (h : Describes zone system rows x)
    (hrows : ∀ (k : Nat) (s : SIPSession), rows[k]? = some s →
      ∃ more, rows'[k]? = some { s with messages := s.messages ++ more }) :
    Describes zone system rows' x := by
  obtain ⟨k, s, now, hk, hvalue, hitem⟩ := h
  obtain ⟨more, hmore⟩ := hrows k s hk
  -- an entry says nothing about the messages
  exact ⟨k, _, now, hmore, hvalue, hitem⟩

variable {σ : Browsing}

end Browsing

end Sipana
