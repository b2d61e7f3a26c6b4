import Kestara.Library.BoundedQueue
import Kestara.Library.Interleaving
import Kestara.Library.LinkedMap
import Kestara.Models

/-!
# State of the Kotlin layer

Objects live on a heap and are named by numbers: a `PeerId` or `ChannelId` is the identity
of an object, a handle is the number the native side gave it. The application queues of all
objects are kept in one map, so that sending and closing are the same operation for each.
-/
namespace Kestara.Kotlin
open Interleaving

abbrev TaskId := ℕ
abbrev PeerId := ℕ
abbrev ChannelId := ℕ

inductive QueueRef
  | localDescription (p : PeerId)
  | localCandidate (p : PeerId)
  | incomingDataChannel (p : PeerId)
  | negotiationNeeded (p : PeerId)
  | message (c : ChannelId)
  | event (c : ChannelId)
  deriving DecidableEq, Repr

/-- `closedSend q` is the exception of a send on a `Channel` that has been closed. -/
inductive Exn
  | closedSend (q : QueueRef)
  | cancellation
  | illegalState (message : String)
  | illegalArgument (message : String)
  | webRtc (message : String)
  deriving DecidableEq, Repr

/-- The value of a completed `CompletableDeferred<Unit>`. -/
inductive Completion
  | done
  | failed (e : Exn)
  deriving DecidableEq, Repr

/-- The value of a completed `CompletableDeferred<NativeEvent>`. -/
inductive OperationResult
  | completed (e : NativeEvent)
  | failed (e : Exn)
  deriving DecidableEq, Repr

inductive Item
  | description (d : SessionDescription)
  | candidate (c : IceCandidate)
  | channel (c : ChannelId)
  | unit
  | message (m : DataChannelMessage)
  | event (e : DataChannelEvent)
  deriving DecidableEq, Repr

/-- `Channel.BUFFERED`. -/
def bufferedCapacity : ℕ := 64

/-- `SctpOptions.receiveQueueCapacity`, within the bounds its `init` block requires. -/
structure ReceiveQueueCapacity where
  value : ℕ
  range : 1 ≤ value ∧ value ≤ 65536
  deriving DecidableEq, Repr

structure DataChannel where
  handle : ℤ
  /-- The peer captured by the `onTerminal` callback. -/
  owner : PeerId
  info : ChannelInfo
  timeout : ℤ
  closing : Bool := false
  closed : Bool := false
  closeCompletion : Option Completion := none
  state : DataChannelState
  lowThreshold : ℤ := 0
  highThreshold : ℤ := 4294967295

structure PeerConnection where
  handle : ℤ
  timeout : ℤ
  receiveQueueCapacity : ReceiveQueueCapacity
  channels : LinkedMap ℤ ChannelId := ∅
  channelCount : ℕ := 0
  queuedChannelEvents : LinkedMap ℤ (List NativeEvent) := ∅
  closing : Bool := false
  closed : Bool := false
  closeCompletion : Option Completion := none
  state : PeerConnectionState := .new
  iceConnectionState : IceConnectionState := .new
  iceGatheringState : IceGatheringState := .new
  signalingState : SignalingState := .stable

structure WebRtcRuntime where
  shutdownTimeout : ℤ
  lifecycleMutex : Option TaskId := none
  peers : LinkedMap ℤ PeerId := ∅
  queuedPeerEvents : LinkedMap ℤ (List NativeEvent) := ∅
  /-- The deferred of a submission is named by its operation number: `submit` creates both. -/
  operations : LinkedMap ℤ ℤ := ∅
  nextOperation : ℤ := 1
  closing : Bool := false
  closed : Bool := false
  closeCompletion : Option Completion := none
  scopeActive : Bool := true
  fingerprint : String

/-- The submit functions of the native bridge. -/
inductive Request
  | createPeer | createDescription | setLocalDescription | setRemoteDescription
  | addIceCandidate | restartIce | setConfiguration | createDataChannel | sendText | sendBinary
  | dataChannelWritable | dataChannelOutstandingBytes | setDataChannelThresholds | getStats
  | rotateCertificate | closeDataChannel | closePeer | closeRuntime
  deriving DecidableEq, Repr

/-- A call of the bridge; a refused submission is one whose call threw. -/
inductive BridgeCall
  | submit (operation : ℤ) (request : Request) (target : ℤ)
  | refused (operation : ℤ) (request : Request) (target : ℤ)
  | wake
  | release
  deriving DecidableEq, Repr

/-- Who removed an entry of `operations`. -/
inductive Taker
  | completion (e : NativeEvent)
  | drain
  | submissionFailure
  deriving DecidableEq, Repr

/-- What has happened so far. The code does not read it. -/
structure History where
  submitter : ℤ → Option TaskId := fun _ => none
  inserted : List ℤ := []
  /-- `operations` before the latest insertion. -/
  before : LinkedMap ℤ ℤ := ∅
  taken : List (ℤ × Taker) := []
  drained : Bool := false
  calls : List BridgeCall := []
  polled : List NativeEvent := []
  peerStarted : List (PeerId × NativeEvent) := []
  peerHandled : List (PeerId × NativeEvent) := []
  channelStarted : List (ChannelId × NativeEvent) := []
  channelHandled : List (ChannelId × NativeEvent) := []
  put : List (QueueRef × Item) := []

structure Shared where
  runtime : WebRtcRuntime
  deferred : ℤ → Option OperationResult := fun _ => none
  peer : PeerId → PeerConnection
  channel : ChannelId → DataChannel
  queue : QueueRef → BoundedQueue Item
  nextPeer : PeerId := 0
  nextChannel : ChannelId := 0
  /-- The objects the application has been handed. -/
  knownPeers : List PeerId := []
  knownChannels : List ChannelId := []
  /-- The native event queue of the runtime. -/
  native : List NativeEvent := []
  /-- The application coroutines that have been cancelled. -/
  cancelled : TaskId → Bool := fun _ => false
  history : History := {}

namespace Shared

def setRuntime (s : Shared) (f : WebRtcRuntime → WebRtcRuntime) : Shared :=
  { s with runtime := f s.runtime }

def setPeer (s : Shared) (p : PeerId) (f : PeerConnection → PeerConnection) : Shared :=
  { s with peer := Function.update s.peer p (f (s.peer p)) }

def setChannel (s : Shared) (c : ChannelId) (f : DataChannel → DataChannel) : Shared :=
  { s with channel := Function.update s.channel c (f (s.channel c)) }

def setQueue (s : Shared) (q : QueueRef) (f : BoundedQueue Item → BoundedQueue Item) : Shared :=
  { s with queue := Function.update s.queue q (f (s.queue q)) }

def record (s : Shared) (f : History → History) : Shared := { s with history := f s.history }

/-- `isActive` of a coroutine; the event loop is cancelled with the scope. -/
def isActive (s : Shared) (t : TaskId) : Bool :=
  if t = 0 then s.runtime.scopeActive else !s.cancelled t

/-- Complete the deferred of an operation; a completed deferred keeps its value. -/
def completeOperation (s : Shared) (op : ℤ) (r : OperationResult) : Shared :=
  { s with deferred := Function.update s.deferred op (some ((s.deferred op).getD r)) }

end Shared

/-- Complete a `CompletableDeferred<Unit>`; a completed deferred keeps its value. -/
def complete (current : Option Completion) (r : Completion) : Option Completion :=
  some (current.getD r)

end Kestara.Kotlin
