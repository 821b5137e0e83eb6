import Hick.Mio.Receive
import Hick.Interfaces
import Hick.Patience
import Hick.Wire.Sections
import Hick.FloodHistory
import Hick.Wire.Pointers
import Hick.Service.Adjudication
import Hick.Service.Exposure
import Hick.Endpoint.Echo
import Hick.Endpoint.Reclaim
import Hick.Wire.Expansion
import Hick.Ancillary.Verdict
import Hick.Onlink.Admission
import Hick.SelfSend.EchoLog
import Hick.Compio.QueryStream
import Hick.WireGate.Schedule
import Hick.Routing.Suppression
import Hick.Mio.TxTurns
import Hick.Mio.LookupLife
import Hick.Endpoint.TransmitDrain
import Hick.Driver.ServiceMailbox
import Hick.Service.Conformance
import Hick.Endpoint.FloodFloor
import Hick.Endpoint.HostAgreement
import Hick.Endpoint.Statistics
import Hick.Engine.SlotRuns
import Hick.Reactor.TurnRuns
import Hick.Onlink.Freshness
import Hick.Driver.Shutdown
import Hick.Mio.RetirementRuns
import Hick.Reactor.DeafEndpoint
import Hick.Lib.Utf8
import Hick.Owners
