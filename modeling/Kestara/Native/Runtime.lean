import Kestara.Native.Registry

/-!
# The native runtime as a system of tasks

Task 0 is the controller thread of runtime.rs. It spawns a task for every command; further tasks
are spawned for channels of the remote side, to poll channels, and to close the peers.
-/
namespace Kestara.Native
open Interleaving Interleaving.Outcome

def get_channel (channel_handle : UInt64) (s : RuntimeState)
    (code : ChannelEntry → List Instr) : Outcome :=
  match s.get_channel channel_handle with
  | .ok entry => .next s (code entry)
  | .error error => .throw s (.done (.error error))

/-- RotateCertificate never waits. -/
def rotateCertificate (x : Choice) (s : RuntimeState) : Outcome :=
  match x with
  | .certificate (.error error) => .throw s (.done (.error error))
  | .certificate (.ok certificate) =>
    match certificate_fingerprint_value certificate with
    | .error error => .throw s (.done (.error error))
    | .ok fingerprint =>
      .throw { s with certificate := certificate } (.done (.ok { text := some fingerprint }))
  | _ => .blocked

/-- `execute` up to the first point where the function it calls waits or reads anew. -/
def execute (operation : Operation) (s : RuntimeState) : Outcome :=
  match operation with
  | .createPeer configuration => create_peer configuration s
  | .createDescription peer_handle _ | .setLocalDescription peer_handle _
  | .setRemoteDescription peer_handle _ | .addIceCandidate peer_handle _ | .restartIce peer_handle
  | .setConfiguration peer_handle _ _ | .getStats peer_handle =>
    getPeer peer_handle (.request operation) s
  | .createDataChannel peer_handle configuration =>
    getPeer peer_handle (.createChannel peer_handle configuration) s
  | .sendText channel_handle _ | .sendBinary channel_handle _ =>
    get_channel channel_handle s fun entry =>
      [.getPeer entry.peer_handle (.send entry.channel operation)]
  | .trySendText channel_handle _ | .trySendBinary channel_handle _
  | .dataChannelWritable channel_handle | .dataChannelOutstandingBytes channel_handle =>
    get_channel channel_handle s fun entry => [.call entry.channel operation]
  | .setDataChannelThresholds channel_handle low high =>
    get_channel channel_handle s fun entry =>
      [.setLow entry.channel low,.awaitLow,.setHigh entry.channel high,.awaitHigh]
  | .closeDataChannel channel_handle => close_data_channel channel_handle s
  | .closePeer peer_handle => close_peer peer_handle s
  | .rotateCertificate _ => .blocked
  | .shutdown => .throw s (.done (.error "Invalid asynchronous shutdown command"))

/-- The controller takes the next command. `release` submits Shutdown before it drops the last
sender, so `recv` does not fail. -/
def receive (s : RuntimeState) : Outcome :=
  match s.commands with
  | [] => .blocked
  | command :: commands =>
    let operations := s.operations.filter fun t => !s.finished t
    if command.operation = .shutdown then
      .next { s with commands,operations }
        (operations.map .join ++ [.clearRegistry,.graceful command.operation_handle])
    else
      .fork { s with
          commands
          operations := operations ++ [s.nextTask]
          nextTask := s.nextTask+1
          command := Function.update s.command s.nextTask (some command) }
        [.receive] s.nextTask
        [.execute command.operation,.dispatched command.operation_handle,.finish]

/-- `shutdown_all` spawns a task for every peer and waits for all of them. -/
def spawnCloses (peers : List PeerEntry) (closes : List TaskId) (s : RuntimeState) : Outcome :=
  match peers with
  | [] => .next s (closes.map .joinClose ++ [.shutDown])
  | entry :: peers =>
    .fork { s with nextTask := s.nextTask+1 } [.spawnCloses peers (closes ++ [s.nextTask])]
      s.nextTask [.lock entry.peer .closePeer,.finish]

/-- One step of a task that is not dropped. -/
def run (x : Choice) (t : TaskId) (i : Instr) (s : RuntimeState) : Outcome :=
  match i with
  | .execute (.rotateCertificate _) => rotateCertificate x s
  | .execute operation => execute operation s
  | .bindPort handle configuration ports last_error =>
    bindPort t handle configuration ports last_error s
  | .buildPeer handle configuration port ports certificate =>
    buildPeer handle configuration port ports certificate x s
  | .insertPeer handle peer receive_queue_capacity =>
    insertPeer t handle peer receive_queue_capacity s
  | .getPeer peer_handle body => getPeer peer_handle body s
  | .lock peer body => lock peer body s
  | .unlock peer => .next (unlock peer s) []
  | .call channel operation => call t channel operation s
  | .request operation => request operation x s
  | .createChannel peer_handle _ => createChannel peer_handle x s
  | .setLow channel low =>
    awaitUnit (.next (s.setChannel channel fun c => { c with low_threshold := low }) [])
      (fun error => s!"Failed to set DataChannel low threshold: {error}") x s
  | .setHigh channel high =>
    awaitUnit (.next (s.setChannel channel fun c => { c with high_threshold := high }) [])
      (fun error => s!"Failed to set DataChannel high threshold: {error}") x s
  | .awaitLow => .next s []
  | .awaitHigh => .throw s (.done (.ok {}))
  | .closeChannel channel =>
    .next (s.setChannel channel fun c => { c with closed := true }) [.awaitChannelClosed]
  | .awaitChannelClosed =>
    awaitUnit (.throw s (.done (.ok {})))
      (fun error => s!"Failed to close DataChannel: {error}") x s
  | .closePeer peer =>
    .next { s with peer := Function.update s.peer peer { s.peer peer with closed := true } }
      [.awaitPeerClosed]
  | .awaitPeerClosed =>
    awaitUnit (.throw s (.done (.ok {})))
      (fun error => s!"Failed to close peer connection: {error}") x s
  | .accept peer_handle channel => .next s [.registerChannel peer_handle channel true]
  | .registerChannel peer_handle channel emit_created_event =>
    registerChannel peer_handle channel emit_created_event s
  | .readAttributes handle peer_handle channel emit_created_event =>
    match x with
    | .attributes attributes =>
      .next s [.insertChannel handle peer_handle channel emit_created_event attributes]
    | _ => .blocked
  | .insertChannel handle peer_handle channel emit_created_event attributes =>
    insertChannel t handle peer_handle channel emit_created_event attributes s
  | .sendCreated event => .next (s.send_event event) []
  | .startPolling handle peer_handle channel => startPolling handle peer_handle channel s
  | .returnChannel handle id =>
    .throw s (.done (.ok { channel_handle := handle, text := some (toString id) }))
  | .poll peer_handle channel_handle => poll_data_channel peer_handle channel_handle x s
  | .deliver peer_handle channel_handle is_string data =>
    deliver peer_handle channel_handle is_string data s
  | .removePolled channel_handle =>
    .next (s.setRegistry fun r => { r with channels := r.channels.erase channel_handle }) []
  | .dispatched _ | .graceful _ => .next s []
  | .post operation_handle result => .next (s.send_event (.operation operation_handle result)) []
  | .finish => .next { s with finished := Function.update s.finished t true } []
  | .receive => receive s
  | .join task | .joinClose task => if s.finished task then .next s [] else .blocked
  | .clearRegistry => .next (s.setRegistry fun _ => {}) [.spawnCloses s.registry.peers.values []]
  | .spawnCloses peers closes => spawnCloses peers closes s
  | .shutDown => .throw s (.done (.ok {}))
  | .abort => .next { s with aborted := fun t => s.aborted t || s.operations.contains t } []
  | .shutdownTimeout => .next { s with stopped := true } []
  | .stopReceiving => .next { s with receiving := false } []

/-- The timeout of a command, or that of the graceful part of a shutdown. -/
def expire (t : TaskId) (i : Instr) (s : RuntimeState) : Outcome :=
  match i with
  | .join _ => .throw s (.done (.error "WebRTC runtime shutdown timed out"))
  | .joinClose task =>
    .throw { s with aborted := Function.update s.aborted task true }
      (.done (.error "WebRTC runtime shutdown timed out"))
  | i =>
    if i.suspends ∧ (s.command t).isSome then .throw s (.done (.error "WebRTC operation timed out"))
    else .blocked

/-- A task that has been aborted, or any task once the tokio runtime is shut down. -/
def drop (t : TaskId) (i : Instr) (s : RuntimeState) : Outcome :=
  if (i.suspends ∨ i.starts) ∧ t ≠ 0 ∧ (s.aborted t ∨ s.stopped) then .throw s .dropped
  else .blocked

def exec (x : Choice) (t : TaskId) (i : Instr) (s : RuntimeState) : Outcome :=
  match x with
  | .expire => expire t i s
  | .drop => drop t i s
  | x => run x t i s

/-- The end of `dispatch`, the end of the graceful part of a shutdown, and the end of every
task. -/
def handler : Exit → Instr → Option (List Instr)
  | .done result,.dispatched operation_handle => some [.post operation_handle result]
  | .done (.ok value),.graceful operation_handle =>
    some [.shutdownTimeout,.post operation_handle (.ok value),.stopReceiving]
  | .done (.error error),.graceful operation_handle =>
    some [.abort,.shutdownTimeout,.post operation_handle (.error error),.stopReceiving]
  | _,.finish => some [.finish]
  | _,_ => none

/-- The guards: that of a lock, and the join set, which aborts its tasks. -/
def release : Instr → RuntimeState → RuntimeState
  | .unlock peer,s => unlock peer s
  | .joinClose task,s => { s with aborted := Function.update s.aborted task true }
  | _,s => s

def machine : Machine RuntimeState Instr Exit TaskId Choice where
  exec := exec
  handler := handler
  release := release

/-- The callbacks of `EventHandler` that send one event. -/
inductive Callback
  | localCandidate (candidate : RTCIceCandidateInit)
  | state (kind number : BitVec 32)

def LOCAL_CANDIDATE : BitVec 32 := 1

/-- PEER_STATE, ICE_CONNECTION_STATE, ICE_GATHERING_STATE, NEGOTIATION_NEEDED and
SIGNALING_STATE. -/
def stateKinds : List (BitVec 32) := [2,3,4,15,16]

def Callback.event (peer_handle : UInt64) : Callback → NativeEvent
  | .localCandidate c =>
    { NativeEvent.peer LOCAL_CANDIDATE peer_handle (c.sdp_mline_index.elim (-1) i32OfU16) with
      text := some c.candidate
      secondary_text := c.sdp_mid }
  | .state kind number => .peer kind peer_handle number

def Callback.admitted : Callback → Bool
  | .localCandidate _ => true
  | .state kind _ => stateKinds.contains kind

inductive Label
  | submit (command : Command)
  | completeError (operation_handle : UInt64) (error : String)
  | task (t : TaskId) (x : Choice)
  /-- `on_data_channel` of the handler of a peer. -/
  | announce (peer : PeerRef) (channel : DataChannel)
  | callback (peer : PeerRef) (c : Callback)

/-- One step of the runtime. -/
def step (l : Label) (c : Config) : Option Config :=
  match l with
  | .submit command =>
    if c.shared.receiving then
      some { c with shared := c.shared.submit command }
    else none
  | .completeError operation_handle error =>
    some { c with shared := c.shared.complete_error operation_handle error }
  | .task t x => machine.stepTask x t c
  | .announce peer channel =>
    if peer < c.shared.nextPeer ∧ c.shared.receiving then
      some {
        shared := { c.shared with
          nextChannel := c.shared.nextChannel+1
          channel := Function.update c.shared.channel c.shared.nextChannel channel
          nextTask := c.shared.nextTask+1 }
        tasks := Function.update c.tasks c.shared.nextTask
          [.accept (c.shared.peer peer).handle c.shared.nextChannel,.finish] }
    else none
  | .callback peer x =>
    if peer < c.shared.nextPeer ∧ x.admitted then
      some { c with shared := c.shared.send_event (x.event (c.shared.peer peer).handle) }
    else none

/-- A runtime as `create` leaves it: the controller waits for commands. -/
def init (certificate : RTCCertificate) : Config where
  shared :=
    { certificate := certificate
      peer := fun _ => { handle := 0, port := 0, certificate := certificate }
      channel := fun _ => { id := 0, low_threshold := 0, high_threshold := 0 } }
  tasks := fun t => if t = 0 then [.receive] else []

/-- A state of the runtime that some run of it reaches. -/
abbrev Reachable (certificate : RTCCertificate) (ok : Label → Config → Prop) (c : Config) : Prop :=
  Reaches step ok (init certificate) c

end Kestara.Native
