import Kestara.Kotlin.WebRtcRuntime

/-!
# The Kotlin layer as a system of coroutines

Task 0 is the event loop. Every other task is an application coroutine: when it is idle the
application may start one call of the public API on an object it has been handed, or
receive one element from a queue of such an object. The application may cancel a coroutine,
and the native side may post an event, at any time.
-/
namespace Kestara.Kotlin
open Interleaving Interleaving.Outcome

def execOk (t : TaskId) (i : Instr) (s : Shared) : Outcome :=
  match i with
  | .send q x => execSend q x s
  | .sendSuspended q x => execSendSuspended q x s
  | .closeQueue q => .next (s.setQueue q (·.close)) []
  | .channel c i => DataChannel.exec c i s
  | .peer p i => PeerConnection.exec p i s
  | .submit i => WebRtcRuntime.execSubmit t i s
  | .loop i => WebRtcRuntime.execLoop i s
  | .runtime i => WebRtcRuntime.execRuntime t i s

/-- The calls of the native bridge that can throw. `completeShutdown` catches what `wake`
and `release` throw. -/
def execFail (message : String) (i : Instr) (s : Shared) : Outcome :=
  match i with
  | .loop .poll => .throw s (.webRtc message)
  | .submit (.call op b) => WebRtcRuntime.submissionFails op b message s
  | .runtime .wake => .next (s.record fun h => { h with calls := h.calls ++ [.wake] }) []
  | .runtime (.release failure) =>
    .next (s.record fun h => { h with calls := h.calls ++ [.release] })
      [.runtime .cancelScope,.runtime (.complete (some (failure.getD (.webRtc message))))]
  | _ => .blocked

/-- The suspension points, at which a cancelled coroutine throws if it has to suspend. -/
def execCancel (i : Instr) (s : Shared) : Outcome :=
  match i with
  | .sendSuspended _ _ | .channel _ .awaitClosed | .peer _ .awaitClosed
  | .peer _ (.registerChannel _ _ _ _) | .peer _ (.handle _) | .peer _ (.registerRemote _)
  | .peer _ (.unregisterDataChannel _) | .peer _ (.takeChannels _) | .submit (.await _ _)
  | .submit (.lock _ _) | .loop (.lookupPeer _) | .loop (.takeOperation _)
  | .runtime (.registerLock _) | .runtime (.unregisterPeer _) | .runtime (.drain _)
  | .runtime .awaitClosed | .runtime .diagnostics => .throw s .cancellation
  | _ => .blocked

def exec (x : Choice) (t : TaskId) (i : Instr) (s : Shared) : Outcome :=
  match x with
  | .ok => execOk t i s
  | .fail message => execFail message i s
  | .cancel => execCancel i s

/-- The `catch` blocks. -/
def handler (e : Exn) : Instr → Option (List Instr)
  | .loop .catch => some [.loop (.failed e)]
  | .channel c .catchClose =>
    some [.channel c (.markClosed false),.channel c (.complete (.failed e))]
  | .peer p .catchClose => some [.peer p (.markClosed false),.peer p (.complete (.failed e))]
  | .runtime .catchClose => some [.runtime (.completeShutdown (some e))]
  | _ => none

def machine : Machine Shared Instr Exn TaskId Choice where
  exec := exec
  handler := handler
  release _ s := s

abbrev Config := Interleaving.Config Shared Instr TaskId

inductive Mutex
  | lifecycle
  | channels (p : PeerId)
  deriving DecidableEq

/-- The mutex an instruction takes. -/
def Instr.mutex? : Instr → Option Mutex
  | .submit (.lock _ _) | .loop (.lookupPeer _) | .loop (.takeOperation _)
  | .runtime (.registerLock _) | .runtime (.unregisterPeer _) | .runtime (.drain _)
  | .runtime .diagnostics => some .lifecycle
  | .peer p (.registerChannel _ _ _ _) | .peer p (.unregisterDataChannel _)
  | .peer p (.takeChannels _) => some (.channels p)
  | .peer p (.handle e) => if PeerConnection.routed e then some (.channels p) else none
  | .peer p (.registerRemote e) => if (remoteChannelInfo e).isSome then some (.channels p) else none
  | _ => none

/-- The mutex whose body is the instruction itself; the bodies of the other two instructions
that take one follow them. -/
def Instr.body? : Instr → Option Mutex
  | .submit (.lock _ _) | .runtime (.registerLock _) => none
  | i => i.mutex?

/-- Coroutine `t` cannot take its next step, or coroutine `u` is inside the body of the mutex
that the step takes. -/
def hasToSuspend (t u : TaskId) (c : Config) : Bool :=
  match c.tasks t with
  | [] => false
  | i :: _ =>
    match execOk t i c.shared with
    | .blocked => true
    | _ => decide (u ≠ t ∧ i.mutex? ≠ none ∧ (c.tasks u).head?.bind Instr.body? = i.mutex?)

/-- The suspending functions of the public API. -/
inductive Api
  | createPeerConnection (capacity : ReceiveQueueCapacity) (timeout : ℤ)
  | rotateCertificate
  | runtimeClose
  | createDescription (p : PeerId)
  | setLocalDescription (p : PeerId) (d : SessionDescription)
  | peerRequest (p : PeerId) (request : Request)
  | getStats (p : PeerId)
  | createDataChannel (p : PeerId) (label : String) (options : DataChannelOptions)
  | peerClose (p : PeerId)
  | channelRequest (c : ChannelId) (request : Request)
  | outstandingBytes (c : ChannelId)
  | setBufferedAmountThresholds (c : ChannelId) (low high : ℤ)
  | channelClose (c : ChannelId)
  | diagnostics

/-- `setRemoteDescription`, `addIceCandidate`, `restartIce`, `setConfiguration`: they check
that the peer is open, submit, and return. -/
def peerRequests : List Request :=
  [.setRemoteDescription,.addIceCandidate,.restartIce,.setConfiguration]

/-- `send`, `trySend` and `awaitWritable`: they check that the channel is open, submit, and
return. -/
def channelRequests : List Request := [.sendText,.sendBinary,.dataChannelWritable]

/-- The application can make the call: it has the object, and the arguments are admitted. -/
def Api.admitted (s : Shared) : Api → Prop
  | .createPeerConnection _ timeout => 1 ≤ timeout
  | .rotateCertificate | .runtimeClose | .diagnostics => True
  | .createDescription p | .setLocalDescription p _ | .getStats p | .createDataChannel p _ _
  | .peerClose p => p ∈ s.knownPeers
  | .peerRequest p request => p ∈ s.knownPeers ∧ request ∈ peerRequests
  | .channelRequest c request => c ∈ s.knownChannels ∧ request ∈ channelRequests
  | .setBufferedAmountThresholds c low high =>
    c ∈ s.knownChannels ∧ 0 ≤ low ∧ low ≤ high ∧ high ≤ 4294967295
  | .outstandingBytes c | .channelClose c => c ∈ s.knownChannels

instance (s : Shared) : (a : Api) → Decidable (a.admitted s)
  | .createPeerConnection _ timeout => inferInstanceAs (Decidable (1 ≤ timeout))
  | .rotateCertificate | .runtimeClose | .diagnostics => inferInstanceAs (Decidable True)
  | .createDescription p | .setLocalDescription p _ | .getStats p | .createDataChannel p _ _
  | .peerClose p => inferInstanceAs (Decidable (p ∈ s.knownPeers))
  | .peerRequest p request =>
    inferInstanceAs (Decidable (p ∈ s.knownPeers ∧ request ∈ peerRequests))
  | .channelRequest c request =>
    inferInstanceAs (Decidable (c ∈ s.knownChannels ∧ request ∈ channelRequests))
  | .setBufferedAmountThresholds c low high =>
    inferInstanceAs (Decidable (c ∈ s.knownChannels ∧ 0 ≤ low ∧ low ≤ high ∧ high ≤ 4294967295))
  | .outstandingBytes c | .channelClose c => inferInstanceAs (Decidable (c ∈ s.knownChannels))

/-- The steps of a call of the public API. -/
def Api.code (s : Shared) : Api → List Instr
  | .createPeerConnection capacity timeout =>
    [.submit (.begin { request := .createPeer, timeout := timeout
                       resume := .registerPeer capacity timeout })]
  | .rotateCertificate =>
    [.submit (.begin { request := .rotateCertificate, timeout := s.runtime.shutdownTimeout
                       resume := .rotateCertificate })]
  | .runtimeClose => [.runtime .close]
  | .createDescription p =>
    [.peer p .requireOpen,
      .submit (.begin { request := .createDescription, target := (s.peer p).handle
                        timeout := (s.peer p).timeout
                        resume := .returnText "The native runtime did not return a session description" })]
  | .setLocalDescription p d =>
    [.peer p .requireOpen,
      .submit (.begin { request := .setLocalDescription, target := (s.peer p).handle
                        timeout := (s.peer p).timeout, resume := .sendLocalDescription p d })]
  | .peerRequest p request =>
    [.peer p .requireOpen,
      .submit (.begin { request := request, target := (s.peer p).handle
                        timeout := (s.peer p).timeout })]
  | .getStats p =>
    [.peer p .requireOpen,
      .submit (.begin { request := .getStats, target := (s.peer p).handle
                        timeout := (s.peer p).timeout
                        resume := .returnData "The native runtime did not return peer statistics" })]
  | .createDataChannel p label options =>
    [.peer p .requireOpen,
      .submit (.begin { request := .createDataChannel, target := (s.peer p).handle
                        timeout := (s.peer p).timeout
                        resume := .registerChannel p label options })]
  | .peerClose p => [.peer p .close]
  | .channelRequest c request =>
    [.channel c .requireOpen,
      .submit (.begin { request := request, target := (s.channel c).handle
                        timeout := (s.channel c).timeout })]
  | .outstandingBytes c =>
    [.submit (.begin { request := .dataChannelOutstandingBytes, target := (s.channel c).handle
                       timeout := (s.channel c).timeout })]
  | .setBufferedAmountThresholds c low high =>
    [.channel c .requireOpen,
      .submit (.begin { request := .setDataChannelThresholds, target := (s.channel c).handle
                        timeout := (s.channel c).timeout, resume := .setThresholds c low high })]
  | .channelClose c => [.channel c .close]
  | .diagnostics => [.runtime .diagnostics]

inductive Label
  | run (t : TaskId)
  | fail (t : TaskId) (message : String)
  | cancel (t : TaskId)
  | interrupt (t u : TaskId)
  | call (t : TaskId) (a : Api)
  | receive (t : TaskId) (q : QueueRef)
  | native (e : NativeEvent)

/-- The application has been handed the object the queue belongs to. -/
def QueueRef.handed (s : Shared) : QueueRef → Prop
  | .localDescription p | .localCandidate p | .incomingDataChannel p | .negotiationNeeded p =>
    p ∈ s.knownPeers
  | .message c | .event c => c ∈ s.knownChannels

instance (s : Shared) : (q : QueueRef) → Decidable (q.handed s)
  | .localDescription p | .localCandidate p | .incomingDataChannel p | .negotiationNeeded p =>
    inferInstanceAs (Decidable (p ∈ s.knownPeers))
  | .message c | .event c => inferInstanceAs (Decidable (c ∈ s.knownChannels))

/-- The application takes one element; a DataChannel it takes becomes known to it. -/
def receive (q : QueueRef) (s : Shared) : Option Shared :=
  (s.queue q).take.map fun (x,rest) =>
    let s := s.setQueue q fun _ => rest
    match x with
    | .channel c => { s with knownChannels := c :: s.knownChannels }
    | _ => s

/-- One step of the system. A cancellation marks the coroutine; the exception is thrown where
the marked coroutine has to suspend. -/
def step (l : Label) (c : Config) : Option Config :=
  match l with
  | .run t => machine.stepTask .ok t c
  | .fail t message => machine.stepTask (.fail message) t c
  | .cancel t =>
    if t ≠ 0 then
      some { c with shared :=
        { c.shared with cancelled := Function.update c.shared.cancelled t true } }
    else none
  | .interrupt t u =>
    if c.shared.isActive t = false ∧ hasToSuspend t u c = true then machine.stepTask .cancel t c
    else none
  | .call t a =>
    if t ≠ 0 ∧ (c.tasks t).isEmpty ∧ a.admitted c.shared then
      some { c with tasks := Function.update c.tasks t (a.code c.shared) }
    else none
  | .receive t q =>
    if t ≠ 0 ∧ (c.tasks t).isEmpty ∧ q.handed c.shared then
      (receive q c.shared).map fun s => { c with shared := s }
    else none
  | .native e => some { c with shared := { c.shared with native := c.shared.native ++ [e] } }

/-- A runtime as `WebRtcRuntime.create` returns it: the event loop has been launched. -/
def init (shutdownTimeout : ℤ) (fingerprint : String) : Config where
  shared :=
    { runtime := { shutdownTimeout := shutdownTimeout, fingerprint := fingerprint }
      peer := fun _ => { handle := 0, timeout := 1, receiveQueueCapacity := ⟨1,by decide⟩ }
      channel := fun _ =>
        { handle := 0, owner := 0, timeout := 1, state := .connecting
          info := { id := 0, label := "", protocol := "", ordered := true, negotiated := false
                    maxPacketLifeTime := none, maxRetransmits := none } }
      queue := fun _ => { capacity := some 1 } }
  tasks := fun t => if t = 0 then [.loop .head,.loop .catch] else []

/-- A state of the system that some run of it reaches. -/
abbrev Reachable (shutdownTimeout : ℤ) (fingerprint : String) (ok : Label → Config → Prop)
    (c : Config) : Prop :=
  Reaches step ok (init shutdownTimeout fingerprint) c

/-- The least receive queue capacity is within its bounds. -/
lemma least_range : 1 ≤ 1 ∧ 1 ≤ 65536 := ⟨le_rfl,by omega⟩

/-- The coroutine takes its next steps. -/
def steps (t : TaskId) (n : ℕ) : List Label := List.replicate n (.run t)

def completion (operation peerHandle channelHandle : ℤ) : NativeEvent :=
  { kind := NativeEventKind.operationComplete.number, operationHandle := operation
    peerHandle := peerHandle, channelHandle := channelHandle }

/-- The application creates a peer, to which the native side gives the handle 7. -/
def peerCreated : List Label :=
  [.call 1 (.createPeerConnection ⟨1,by decide⟩ 1000)] ++ steps 1 6 ++
    [.native (completion 1 7 0)] ++ steps 0 4 ++ steps 1 5

/-- It then creates a DataChannel, to which the native side gives the handle 9. -/
def channelCreated : List Label :=
  peerCreated ++ [.call 1 (.createDataChannel 0 "" .defaults)] ++ steps 1 7 ++
    [.native (completion 2 7 9)] ++ steps 0 4 ++ steps 1 3

/-- A message for that channel. -/
def textMessage (text : String) : NativeEvent :=
  { kind := NativeEventKind.dataChannelText.number, peerHandle := 7, channelHandle := 9
    text := some text }

end Kestara.Kotlin
