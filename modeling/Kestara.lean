import Kestara.Library.Interleaving
import Kestara.Library.LinkedMap
import Kestara.Library.BoundedQueue
import Kestara.Library.Endian
import Kestara.Models
import Kestara.Kotlin.State
import Kestara.Kotlin.Code
import Kestara.Kotlin.DataChannel
import Kestara.Kotlin.PeerConnection
import Kestara.Kotlin.WebRtcRuntime
import Kestara.Kotlin.Machine
import Kestara.Kotlin.Steps
import Kestara.Kotlin.Allocation
import Kestara.Kotlin.Control
import Kestara.Kotlin.ClosedQueues
import Kestara.Kotlin.OperationSteps
import Kestara.Kotlin.Locking
import Kestara.Kotlin.Accounting
import Kestara.Kotlin.Shutdown
import Kestara.Kotlin.Resolution
import Kestara.Library.Relay
import Kestara.Kotlin.DeliverySteps
import Kestara.Kotlin.Nesting
import Kestara.Kotlin.Registration
import Kestara.Kotlin.Relaying
import Kestara.Kotlin.StateFlows
import Kestara.Kotlin.DeliveryOrder
import Kestara.Library.Codec
import Kestara.Library.Utf8
import Kestara.Wire.StatsDecoder
import Kestara.Wire.StatsRoundTrip
import Kestara.Library.Budget
import Kestara.Kotlin.BridgeCalls
import Kestara.Kotlin.ShutdownOrder
import Kestara.Kotlin.ChannelStates
import Kestara.Kotlin.Teardown
import Kestara.Kotlin.CloseSteps
import Kestara.Kotlin.TeardownShape
import Kestara.Kotlin.QueueSteps
import Kestara.Kotlin.ChannelBudgets
import Kestara.Kotlin.TeardownProgress
import Kestara.Kotlin.RuntimeSteps
import Kestara.Kotlin.TeardownEnd
import Kestara.Kotlin.Waiting
import Kestara.Kotlin.QueueRoom
import Kestara.Kotlin.Backpressure
import Kestara.Kotlin.EventStream
import Kestara.Kotlin.EventOrder
import Kestara.Kotlin.ChannelEvents
import Kestara.Kotlin.EventHistory
import Kestara.Library.Exact
import Kestara.Wire.StatsExact
import Kestara.Native.Events
import Kestara.Wire.EventDecoder
import Kestara.Wire.EventExact
import Kestara.Native.Buffers
import Kestara.Wire.EventTransport
import Kestara.Wire.ChannelAnnouncement
import Kestara.Native.Bridge
import Kestara.Native.CBridge
import Kestara.Library.Results
import Kestara.Native.Validity
import Kestara.Native.CValidity
import Kestara.Wire.Bridges
import Kestara.Wire.CipherSuites
import Kestara.Kotlin.PeerStates
import Kestara.Native.Code
import Kestara.Native.Registry
import Kestara.Native.Runtime
import Kestara.Library.TaskRules
import Kestara.Native.Steps
import Kestara.Wire.Candidates
import Kestara.Native.PortSearch
import Kestara.Native.Handles
import Kestara.Native.ShutdownReport
import Kestara.Native.BinarySends
import Kestara.Native.ChannelStream
import Kestara.Native.PeerClosing
import Kestara.Native.Locks
import Kestara.Native.Delivery
import Kestara.Native.ChannelWatch
import Kestara.Library.Simulation
import Kestara.Native.ReceiveCapacity
import Kestara.Native.Settling
import Kestara.Native.Creations
import Kestara.Native.Attribution
import Kestara.Native.Views
