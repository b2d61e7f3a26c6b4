import Kestara.Kotlin.DataChannel

/-! The steps of PeerConnection.kt. -/
namespace Kestara.Kotlin
open Interleaving.Outcome

namespace Shared

/-- Construct a DataChannel object with its two queues. -/
def newChannel (s : Shared) (p : PeerId) (handle : ℤ) (info : ChannelInfo)
    (initiallyOpen : Bool) : Shared :=
  let c := s.nextChannel
  let peer := s.peer p
  { s with
    nextChannel := c+1
    channel := Function.update s.channel c
      { handle := handle
        owner := p
        info := info
        timeout := peer.timeout
        state := if initiallyOpen then .open else .connecting }
    queue := Function.update
      (Function.update s.queue (.message c) { capacity := some peer.receiveQueueCapacity.value })
      (.event c) { capacity := some bufferedCapacity } }

end Shared

namespace PeerConnection

/-- The events parked for a channel handle. -/
def parked (peer : PeerConnection) (handle : ℤ) : List NativeEvent :=
  (peer.queuedChannelEvents.lookup handle).getD []

/-- The body under `channelsMutex` of a registration. -/
def register (peer : PeerConnection) (handle : ℤ) (c : ChannelId) : PeerConnection :=
  let channels := peer.channels.insert handle c
  { peer with
    channels := channels
    channelCount := channels.entries.length
    queuedChannelEvents := peer.queuedChannelEvents.erase handle }

/-- Park an event for a channel that is not registered. -/
def park (peer : PeerConnection) (e : NativeEvent) : PeerConnection :=
  { peer with
    queuedChannelEvents :=
      peer.queuedChannelEvents.insert e.channelHandle (peer.parked e.channelHandle ++ [e]) }

def localChannelInfo (id : ℤ) (label : String) (options : DataChannelOptions) : ChannelInfo :=
  { id := id
    label := label
    protocol := options.protocol
    ordered := options.ordered
    negotiated := options.negotiatedId.isSome
    maxPacketLifeTime := options.maxPacketLifeTime
    maxRetransmits := options.maxRetransmits }

/-- `enumValue`: the member with the given ordinal. -/
def enumValue {α : Type} (values : List α) (ordinal : ℤ) (name : String) : Except Exn α :=
  match getOrNull values ordinal with
  | some v => .ok v
  | none => .error (.webRtc s!"Unknown {name}: {ordinal}")

/-- The candidate of a LOCAL_CANDIDATE event. -/
def localCandidate (e : NativeEvent) : IceCandidate where
  candidate := e.text.getD ""
  sdpMid := e.secondaryText
  sdpMLineIndex := if 0 ≤ e.number then some e.number else none
  index_nonneg := by
    intro n hn
    split_ifs at hn with h
    · cases hn; exact h
    · cases hn

/-- `routeDataChannelEvent`: deliver to the registered channel or park. -/
def routeDataChannelEvent (p : PeerId) (e : NativeEvent) (s : Shared) : Shared × List Instr :=
  match (s.peer p).channels.lookup e.channelHandle with
  | some c => (s,[.channel c (.handle e)])
  | none => (s.setPeer p (·.park e),[])

/-- The events that `handleNativeEvent` routes to a DataChannel. -/
def routed (e : NativeEvent) : Bool :=
  match e.kind? with
  | some .localCandidate | some .peerState | some .iceConnectionState | some .iceGatheringState
  | some .signalingState | some .negotiationNeeded | some .dataChannel | some .operationComplete
  | none => false
  | some _ => true

/-- `handleNativeEvent` up to the first access to shared state of each branch, included. -/
def handleNativeEvent (p : PeerId) (e : NativeEvent) (s : Shared) :
    Except Exn (Shared × List Instr) :=
  match e.kind? with
  | some .localCandidate =>
    .ok (s,[.send (.localCandidate p) (.candidate (localCandidate e))])
  | some .peerState => do
    let v ← enumValue PeerConnectionState.values e.number "peer connection state"
    return (s.setPeer p fun peer => { peer with state := v },[])
  | some .iceConnectionState => do
    let v ← enumValue IceConnectionState.values e.number "ICE connection state"
    return (s.setPeer p fun peer => { peer with iceConnectionState := v },[])
  | some .iceGatheringState => do
    let v ← enumValue IceGatheringState.values e.number "ICE gathering state"
    return (s.setPeer p fun peer => { peer with iceGatheringState := v },[])
  | some .signalingState => do
    let v ← enumValue SignalingState.values e.number "signaling state"
    return (s.setPeer p fun peer => { peer with signalingState := v },[])
  | some .negotiationNeeded => .ok (s,[.send (.negotiationNeeded p) .unit])
  | some .dataChannel => .ok (s,[.peer p (.registerRemote e)])
  | some .operationComplete | none => .error (.webRtc s!"Unsupported peer event: {e.kind}")
  | some _ => .ok (routeDataChannelEvent p e s)

/-- What `markClosed` does after it has won the compare-and-set on `closed`. -/
def teardown (p : PeerId) (runtimeShutdown : Bool) : List Instr :=
  [.peer p .setClosing,.peer p (.takeChannels runtimeShutdown),.peer p (.setState .closed),
    .peer p (.setSignalingState .closed),.closeQueue (.localDescription p),
    .closeQueue (.localCandidate p),.closeQueue (.incomingDataChannel p),
    .closeQueue (.negotiationNeeded p),.runtime (.unregisterPeer p)]

/-- `close` after it has won the compare-and-set on `closing`. -/
def closeBody (p : PeerId) (peer : PeerConnection) : List Instr :=
  [.submit (.begin { request := .closePeer, target := peer.handle, timeout := peer.timeout }),
    .peer p (.markClosed false),.peer p (.complete .done),.peer p .catchClose,
    .peer p .awaitClosed]

def exec (p : PeerId) (i : PeerInstr) (s : Shared) : Outcome :=
  let peer := s.peer p
  match i with
  | .requireOpen =>
    if peer.closing = false ∧ peer.closed = false then .next s []
    else .throw s (.illegalState "PeerConnection is closed")
  | .registerChannel handle id label options =>
    let c := s.nextChannel
    .next ((s.newChannel p handle (localChannelInfo id label options) false).setPeer p
        (·.register handle c))
      ((peer.parked handle).map (fun e => .channel c (.handle e)) ++ [.peer p (.returnChannel c)])
  | .returnChannel c => .next { s with knownChannels := c :: s.knownChannels } []
  | .close =>
    if peer.closing then .next s [.peer p .awaitClosed]
    else .next (s.setPeer p fun peer => { peer with closing := true }) (closeBody p peer)
  | .catchClose => .next s []
  | .awaitClosed => execAwait peer.closeCompletion s
  | .handle e =>
    match handleNativeEvent p e s with
    | .error x => .throw s x
    | .ok (s',code) =>
      .next (s'.record fun h => { h with peerStarted := h.peerStarted ++ [(p,e)] })
        (code ++ [.peer p (.handled e)])
  | .handled e =>
    .next (s.record fun h => { h with peerHandled := h.peerHandled ++ [(p,e)] }) []
  | .registerRemote e =>
    match remoteChannelInfo e with
    | none => .throw s (.illegalArgument "Invalid native DataChannel metadata")
    | some (info,initiallyOpen) =>
      let c := s.nextChannel
      .next ((s.newChannel p e.channelHandle info initiallyOpen).setPeer p
          (·.register e.channelHandle c))
        ([.send (.incomingDataChannel p) (.channel c)] ++
          (peer.parked e.channelHandle).map (fun e => .channel c (.handle e)) ++
          (if initiallyOpen then [.channel c .notifyOpen] else []))
  | .unregisterDataChannel handle =>
    .next (s.setPeer p fun peer =>
      let channels := peer.channels.erase handle
      { peer with channels := channels, channelCount := channels.entries.length }) []
  | .closeForRuntimeShutdown => .next s [.peer p (.markClosed true),.peer p (.complete .done)]
  | .markClosed runtimeShutdown =>
    if peer.closed then .next s []
    else .next (s.setPeer p fun peer => { peer with closed := true }) (teardown p runtimeShutdown)
  | .setClosing => .next (s.setPeer p fun peer => { peer with closing := true }) []
  | .takeChannels runtimeShutdown =>
    .next (s.setPeer p fun peer =>
        { peer with channels := ∅, channelCount := 0, queuedChannelEvents := ∅ })
      (peer.channels.values.map fun c => .channel c (.markClosed runtimeShutdown))
  | .setState v => .next (s.setPeer p fun peer => { peer with state := v }) []
  | .setSignalingState v => .next (s.setPeer p fun peer => { peer with signalingState := v }) []
  | .complete r =>
    .next (s.setPeer p fun peer =>
      { peer with closeCompletion := complete peer.closeCompletion r }) []

end PeerConnection
end Kestara.Kotlin
