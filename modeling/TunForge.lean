import TunForge.Runs
import TunForge.SerialNumber
import TunForge.PbufChain
import TunForge.LwipTypes
import TunForge.TcpOut
import TunForge.TcpIn
import TunForge.Tcp
import TunForge.Connection
import TunForge.Callbacks
import TunForge.Stack
import TunForge.Boundary
import TunForge.Termination
import TunForge.OrdinarySteps
import TunForge.BoundaryRule
import TunForge.Lifecycle
import TunForge.PcbFrames
import TunForge.CalmSteps
import TunForge.InputCases
import TunForge.Refinement
import TunForge.WellFormed
import TunForge.StackRuns
import TunForge.Ownership
import TunForge.CallbackTrace
import TunForge.BufferCustody
import TunForge.ReceiveSteps
import TunForge.Inflow
import TunForge.InflowSteps
import TunForge.InflowEvents
import TunForge.InflowRuns
import TunForge.InflowCalls
import TunForge.InboundRule
import TunForge.TerminationReason
import TunForge.OrderlyClose
import TunForge.EndOfFile
import TunForge.SideFrames
import TunForge.WriteSignal
import TunForge.Unclaimed
import TunForge.AbortProtocol
import TunForge.WriteAdmission
import TunForge.BacklogSlots
import TunForge.IpStack
import TunForge.HostRuns
import TunForge.Backlog
import TunForge.FlowTable
import TunForge.StackLifecycle
import TunForge.PacketBoundary
import TunForge.AckBatching
import TunForge.DeliveryPaths
import TunForge.Demultiplexer
import TunForge.Reassembly
import TunForge.ReceiveBuffer
import TunForge.WindowLedger
import TunForge.Backpressure
import TunForge.StreamIntegrity
import TunForge.RefusedData
import TunForge.GracefulClose
import TunForge.SendOrder
import TunForge.SendEngine
import TunForge.SendGiveUp
import TunForge.SendAgreement
import TunForge.SendOutputs
import TunForge.SendSegments
import TunForge.SendCalls
import TunForge.SendTicks
import TunForge.SendRefinement
import TunForge.Checksum
import TunForge.PacketFormat
import TunForge.PacketRoundTrip
import TunForge.TimeoutRuns
import TunForge.TimerPace
