import Kestara.Native.State
import Kestara.Library.Interleaving

/-!
# The steps of the native tasks

A task is cut where it takes a lock, reads or writes shared state, or awaits. A function that
returns, with a value or with an error, leaves by an exit, so that the guards it holds are dropped
on the way, as they are when the task is dropped or panics.
-/
namespace Kestara.Native

/-- What an awaited call of the WebRTC library gives, or what happens to the task instead. -/
inductive Choice
  | ok
  | fail (message : String)
  | sendBufferFull
  | description (sdp : String)
  | stats (report : Except String (List UInt8))
  | outstanding (count : ℕ)
  | channel (channel : DataChannel)
  | attributes (attributes : ChannelAttributes)
  | event (event : Option DataChannelEvent)
  | certificate (result : Except String RTCCertificate)
  /-- The timeout of the command expires. -/
  | expire
  /-- An aborted task is dropped. -/
  | drop

/-- What runs under the operations lock of a peer. -/
inductive Locked
  | request (operation : Operation)
  | createChannel (peer_handle : UInt64) (configuration : DataChannelConfiguration)
  | send (channel : ChannelRef) (operation : Operation)
  | closeChannel (channel : ChannelRef)
  | closePeer
  deriving DecidableEq, Repr

inductive Instr
  | execute (operation : Operation)
  /-- `create_peer`: the ports still to try, and the error of the last one. -/
  | bindPort (handle : UInt64) (configuration : PeerConfiguration) (ports : List UInt16)
    (last_error : Option String)
  | buildPeer (handle : UInt64) (configuration : PeerConfiguration) (port : UInt16)
    (ports : List UInt16) (certificate : RTCCertificate)
  | insertPeer (handle : UInt64) (peer : PeerRef) (receive_queue_capacity : ℕ)
  | getPeer (peer_handle : UInt64) (body : Locked)
  | lock (peer : PeerRef) (body : Locked)
  /-- The guard of the operations lock. -/
  | unlock (peer : PeerRef)
  /-- A function of a DataChannel is called; what it gives is awaited by `request`. -/
  | call (channel : ChannelRef) (operation : Operation)
  | request (operation : Operation)
  | createChannel (peer_handle : UInt64) (configuration : DataChannelConfiguration)
  /-- The two setters of `set_data_channel_thresholds`, each with the await that follows. -/
  | setLow (channel : ChannelRef) (low : UInt32)
  | awaitLow
  | setHigh (channel : ChannelRef) (high : UInt32)
  | awaitHigh
  | closeChannel (channel : ChannelRef)
  | awaitChannelClosed
  | closePeer (peer : PeerRef)
  | awaitPeerClosed
  /-- The task that `on_data_channel` spawns. -/
  | accept (peer_handle : UInt64) (channel : ChannelRef)
  | registerChannel (peer_handle : UInt64) (channel : ChannelRef) (emit_created_event : Bool)
  /-- The awaits of `register_channel` are one: nothing is read or written between them. -/
  | readAttributes (handle peer_handle : UInt64) (channel : ChannelRef) (emit_created_event : Bool)
  | insertChannel (handle peer_handle : UInt64) (channel : ChannelRef) (emit_created_event : Bool)
    (attributes : ChannelAttributes)
  | sendCreated (event : NativeEvent)
  | startPolling (handle peer_handle : UInt64) (channel : ChannelRef)
  | returnChannel (handle : UInt64) (id : UInt16)
  | poll (peer_handle channel_handle : UInt64)
  | deliver (peer_handle channel_handle : UInt64) (is_string : Bool) (data : List UInt8)
  | removePolled (channel_handle : UInt64)
  /-- The end of `dispatch`. -/
  | dispatched (operation_handle : UInt64)
  | post (operation_handle : UInt64) (result : Except String OperationValue)
  | finish
  /-- The loop of `run_runtime` and its Shutdown branch. -/
  | receive
  | join (task : TaskId)
  | clearRegistry
  | spawnCloses (peers : List PeerEntry) (closes : List TaskId)
  | joinClose (task : TaskId)
  | shutDown
  | graceful (operation_handle : UInt64)
  | abort
  | shutdownTimeout
  | stopReceiving

/-- How a function is left. -/
inductive Exit
  | done (result : Except String OperationValue)
  | dropped
  | panicked

/-- The points at which a task waits. -/
def Instr.suspends : Instr → Bool
  | .buildPeer _ _ _ _ _ | .lock _ _ | .request _ | .createChannel _ _ | .setLow _ _ | .awaitLow
  | .setHigh _ _ | .awaitHigh | .awaitChannelClosed | .awaitPeerClosed | .readAttributes _ _ _ _
  | .poll _ _ | .deliver _ _ _ _ => true
  | _ => false

/-- The first step of a spawned task, before which the task can be dropped too. -/
def Instr.starts : Instr → Bool
  | .execute _ | .accept _ _ => true
  | _ => false

abbrev Outcome := Interleaving.Outcome RuntimeState Instr Exit TaskId

abbrev Config := Interleaving.Config RuntimeState Instr TaskId

end Kestara.Native
