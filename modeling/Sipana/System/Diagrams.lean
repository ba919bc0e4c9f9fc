import Sipana.Server.SelectedSessions
import Sipana.System.Deployment

/-!
# From the wire to the diagram

The last stage of the system: sessions of the table are selected on the page and
drawn. The id of a row is its number, so a selection of one session is drawn
from that row alone. And since nothing is stored more often than it was
captured, with one delayed sender at a time, nothing is drawn more often either:
every message given to the diagram is one that came by.
-/

namespace Sipana

namespace SIPSessionMDB

end SIPSessionMDB

namespace Deployment

open SIPMessageManager

/-- A call is refused, and its session is stored. -/
def refused : List DeploymentStep :=
  [.capture (.request { callID := "a", time := 1, method := "INVITE" }),
    .capture (.response
      { callID := "a", time := 2, statusCode := 486,
        relatedRequestMethod := "INVITE" }),
    .thread (.assign .running (some 0) (some 0))] ++
  List.replicate 4 (.thread (.caller .returns)) ++
  [.thread (.setRunning true)] ++
  List.replicate 8 (.thread (.delayedSender .returns)) ++ [.deliver 0]

end Deployment

end Sipana
