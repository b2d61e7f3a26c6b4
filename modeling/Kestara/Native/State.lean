import Kestara.Library.LinkedMap
import Kestara.Native.Commands

/-!
# The state of one native runtime

The registry of registry.rs and the queues of runtime.rs. Peers and DataChannels of the WebRTC
library are known by reference, tasks by the order in which they were spawned.
-/
namespace Kestara.Native

abbrev PeerRef := ℕ

abbrev ChannelRef := ℕ

abbrev TaskId := ℕ

structure OperationValue where
  peer_handle : UInt64 := 0
  channel_handle : UInt64 := 0
  text : Option String := none
  data : Option (List UInt8) := none
  deriving DecidableEq, Repr

def OPERATION_COMPLETE : BitVec 32 := 12

/-- `NativeEvent::operation`. -/
def NativeEvent.operation (operation_handle : UInt64) : Except String OperationValue → NativeEvent
  | .ok value =>
    { kind := OPERATION_COMPLETE
      peer_handle := value.peer_handle
      channel_handle := value.channel_handle
      operation_handle := operation_handle
      text := value.text
      secondary_text := none
      number := 0
      data := value.data
      delivery_permit := none }
  | .error error => .failure operation_handle error

/-- `NativeEvent::peer`. -/
def NativeEvent.peer (kind : BitVec 32) (peer_handle : UInt64) (number : BitVec 32) :
    NativeEvent where
  kind := kind
  peer_handle := peer_handle
  channel_handle := 0
  operation_handle := 0
  text := none
  secondary_text := none
  number := number
  data := none
  delivery_permit := none

/-- `NativeEvent::channel`. -/
def NativeEvent.channel (kind : BitVec 32) (peer_handle channel_handle : UInt64) :
    NativeEvent where
  kind := kind
  peer_handle := peer_handle
  channel_handle := channel_handle
  operation_handle := 0
  text := none
  secondary_text := none
  number := 0
  data := none
  delivery_permit := none

structure RTCCertificate where
  pem : String
  fingerprints : List String
  deriving DecidableEq, Repr

def certificate_fingerprint_value (certificate : RTCCertificate) : Except String String :=
  match certificate.fingerprints with
  | fingerprint :: _ => .ok fingerprint
  | [] => .error "The runtime DTLS certificate has no fingerprint"

/-- A peer of the WebRTC library: the handle its `EventHandler` has, what it was built with, and
whether `close` has been called on it. -/
structure NativePeerConnection where
  handle : UInt64
  port : UInt16
  certificate : RTCCertificate
  closed : Bool := false
  deriving DecidableEq, Repr

/-- A DataChannel of the WebRTC library. -/
structure DataChannel where
  id : UInt16
  low_threshold : UInt32
  high_threshold : UInt32
  closed : Bool := false
  deriving DecidableEq, Repr

inductive DataChannelEvent
  | onOpen | onError | onClosing | onClose
  | onMessage (is_string : Bool) (data : List UInt8)
  | onBufferedAmountLow | onBufferedAmountHigh
  deriving DecidableEq, Repr

/-- The lock of `operations` is that of the peer. -/
structure PeerEntry where
  peer : PeerRef
  receive_queue_capacity : ℕ
  deriving DecidableEq, Repr

structure ChannelEntry where
  channel : ChannelRef
  peer_handle : UInt64
  deriving DecidableEq, Repr

structure Registry where
  peers : LinkedMap UInt64 PeerEntry := ∅
  channels : LinkedMap UInt64 ChannelEntry := ∅
  deriving DecidableEq

/-- What a handle is given to. -/
inductive Object
  | peer (peer : PeerRef)
  | channel (channel : ChannelRef) (peer_handle : UInt64)
  deriving DecidableEq, Repr

/-- An insertion into the registry: by which task, and what the handle is given to. -/
structure Registration where
  task : TaskId
  handle : UInt64
  object : Object
  deriving DecidableEq, Repr

inductive Payload
  | text (text : String)
  | binary (data : List UInt8)
  deriving DecidableEq, Repr

/-- A call of `build`: by which task, and for which port of a configuration. -/
structure Build where
  task : TaskId
  configuration : PeerConfiguration
  port : UInt16
  deriving DecidableEq, Repr

/-- A call of `send` or `try_send` of a DataChannel. -/
structure Sent where
  task : TaskId
  channel : ChannelRef
  payload : Payload
  deriving DecidableEq, Repr

/-- What has happened so far. The code does not read it. -/
structure History where
  /-- The commands that `submit` has accepted. -/
  submitted : List Command := []
  /-- The operations for which `complete_error` has been called. -/
  refused : List UInt64 := []
  builds : List Build := []
  /-- The results of `next_handle`. -/
  allocated : List UInt64 := []
  registered : List Registration := []
  /-- The handles for which a poll task has been spawned. -/
  polled : List UInt64 := []
  /-- The events that `poll` of a DataChannel has given, with its handle. -/
  polls : List (UInt64 × DataChannelEvent) := []
  sent : List Sent := []

structure RuntimeState where
  registry : Registry := {}
  next_handle : UInt64 := 1
  certificate : RTCCertificate
  /-- Every event sent so far. -/
  events : List NativeEvent := []
  commands : List Command := []
  /-- The join handles that the controller keeps. -/
  operations : List TaskId := []
  /-- The controller still receives commands. -/
  receiving : Bool := true
  peer : PeerRef → NativePeerConnection
  channel : ChannelRef → DataChannel
  nextPeer : ℕ := 0
  nextChannel : ℕ := 0
  /-- The operations lock of a peer is held. -/
  locked : PeerRef → Bool := fun _ => false
  /-- The permits that the delivery semaphore of a channel handle has left. -/
  slots : UInt64 → ℕ := fun _ => 0
  nextTask : ℕ := 1
  /-- What a task has been dispatched for. -/
  command : TaskId → Option Command := fun _ => none
  finished : TaskId → Bool := fun _ => false
  /-- The task is dropped at its next suspension point. -/
  aborted : TaskId → Bool := fun _ => false
  /-- The tokio runtime is being shut down. -/
  stopped : Bool := false
  history : History := {}

namespace RuntimeState

def record (s : RuntimeState) (f : History → History) : RuntimeState :=
  { s with history := f s.history }

def setRegistry (s : RuntimeState) (f : Registry → Registry) : RuntimeState :=
  { s with registry := f s.registry }

def setChannel (s : RuntimeState) (c : ChannelRef) (f : DataChannel → DataChannel) : RuntimeState :=
  { s with channel := Function.update s.channel c (f (s.channel c)) }

def send_event (s : RuntimeState) (e : NativeEvent) : RuntimeState :=
  { s with events := s.events ++ [e] }

/-- `poll` of a DataChannel gives an event. -/
def notePoll (s : RuntimeState) (channel_handle : UInt64) (e : DataChannelEvent) : RuntimeState :=
  s.record fun h => { h with polls := h.polls ++ [(channel_handle,e)] }

/-- `submit` puts a command into the queue of the controller. -/
def submit (s : RuntimeState) (command : Command) : RuntimeState :=
  ({ s with commands := s.commands ++ [command] }).record fun h =>
    { h with submitted := h.submitted ++ [command] }

def complete_error (s : RuntimeState) (operation_handle : UInt64) (error : String) :
    RuntimeState :=
  (s.send_event (.failure operation_handle error)).record fun h =>
    { h with refused := h.refused ++ [operation_handle] }

/-- `next_handle`: the handle and the state after `fetch_add`, which wraps. -/
def allocate (s : RuntimeState) : UInt64 × RuntimeState :=
  (s.next_handle,({ s with next_handle := s.next_handle+1 }).record fun h =>
    { h with allocated := h.allocated ++ [s.next_handle] })

def get_peer (s : RuntimeState) (peer_handle : UInt64) : Except String PeerEntry :=
  match s.registry.peers.lookup peer_handle with
  | some entry => .ok entry
  | none => .error s!"Unknown peer connection handle: {peer_handle}"

def get_channel (s : RuntimeState) (channel_handle : UInt64) : Except String ChannelEntry :=
  match s.registry.channels.lookup channel_handle with
  | some entry => .ok entry
  | none => .error s!"Unknown DataChannel handle: {channel_handle}"

end RuntimeState
end Kestara.Native
