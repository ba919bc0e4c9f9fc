import Sipana.Agent.Trace
import Sipana.Agent.Representation
import Sipana.Agent.Isolation
import Sipana.Agent.Completion
import Sipana.Agent.Retransmission
import Sipana.Agent.Lifecycle
import Sipana.Agent.BatchTiming
import Sipana.Agent.Cancel
import Sipana.Agent.LateMessages
import Sipana.Agent.CaptureStates
import Sipana.Agent.Population
import Sipana.Agent.ReceivePacket
import Sipana.Scenario.Geometry
import Sipana.Scenario.SessionColors
import Sipana.Server.DelayRange
import Sipana.Server.IneffectiveAttempts
import Sipana.Server.Attachment
import Sipana.Server.HopsPerRequest
import Sipana.Server.Averages
import Sipana.Server.Ratios
import Sipana.Server.SessionSearch
import Sipana.Server.AddressList
import Sipana.Server.SessionIdList
import Sipana.Server.DateField
import Sipana.Server.DateParser
import Sipana.Server.SessionItems
import Sipana.Sender.Drain
import Sipana.Sender.BufferBound
import Sipana.Sender.Accounting
import Sipana.Sender.DeliveryOrder
import Sipana.Sender.FailedSends
import Sipana.Sender.Resources
import Sipana.Sender.DrainGuard
import Sipana.Sender.StopFlush
import Sipana.Sender.Backlog
import Sipana.Sender.JmsObjects
import Sipana.System.ImmediateDeployment
import Sipana.System.Browsing
import Sipana.System.Ledger
import Sipana.System.WholeCalls
import Sipana.System.CompleteReport
import Sipana.System.BufferedDeployment
