import Kestara.Native.Code

/-! The steps of registry.rs. -/
namespace Kestara.Native
open Interleaving.Outcome

/-- `Bytes::from(data).try_into_mut()`: the empty buffer is the static one, which nobody owns. -/
def try_into_mut (data : List UInt8) : Option (List UInt8) :=
  if data = [] then none else some data

/-- The error of an operation whose library call fails. -/
def failureText : Operation → String → String
  | .createDescription _ _,error => s!"Failed to create session description: {error}"
  | .setLocalDescription _ _,error => s!"Failed to set local description: {error}"
  | .setRemoteDescription _ _,error => s!"Failed to set remote description: {error}"
  | .addIceCandidate _ _,error => s!"Failed to add ICE candidate: {error}"
  | .restartIce _,error => s!"Failed to restart ICE: {error}"
  | .setConfiguration _ _ _,error => s!"Failed to update peer configuration: {error}"
  | .sendText _ _,error | .trySendText _ _,error => s!"Failed to send DataChannel text: {error}"
  | .sendBinary _ _,error | .trySendBinary _ _,error => s!"Failed to send DataChannel data: {error}"
  | .dataChannelWritable _,error => s!"DataChannel cannot become writable: {error}"
  | .dataChannelOutstandingBytes _,error =>
    s!"Failed to read DataChannel outstanding bytes: {error}"
  | _,error => error

/-- The result of an operation that awaits one library call and passes on what it gives. -/
def reply : Operation → Choice → Option (Except String OperationValue)
  | .createDescription _ _,.description sdp => some (.ok { text := some sdp })
  | .getStats _,.stats report => some (report.map fun data => { data := some data })
  | .setLocalDescription _ _,.ok | .setRemoteDescription _ _,.ok | .addIceCandidate _ _,.ok
  | .restartIce _,.ok | .setConfiguration _ _ _,.ok | .sendText _ _,.ok | .sendBinary _ _,.ok
  | .dataChannelWritable _,.ok => some (.ok {})
  | .trySendText _ _,.ok | .trySendBinary _ _,.ok => some (.ok { text := some "true" })
  | .trySendText _ _,.sendBufferFull | .trySendBinary _ _,.sendBufferFull =>
    some (.ok { text := some "false" })
  | .dataChannelOutstandingBytes _,.outstanding count =>
    some (.ok { text := some (toString (min count (2^64-1))) })
  | .getStats _,.fail _ => none
  | operation,.fail message => some (.error (failureText operation message))
  | _,_ => none

def getPeer (peer_handle : UInt64) (body : Locked) (s : RuntimeState) : Outcome :=
  match s.get_peer peer_handle with
  | .ok entry => .next s [.lock entry.peer body]
  | .error error => .throw s (.done (.error error))

/-- The ports that `create_peer` tries. -/
def ports (configuration : PeerConfiguration) : List UInt16 :=
  if configuration.min_port = 0 then [0]
  else (List.range' configuration.min_port.toNat
    (configuration.max_port.toNat+1-configuration.min_port.toNat)).map UInt16.ofNat

def noPortText (configuration : PeerConfiguration) (last_error : Option String) : String :=
  let error := last_error.getD "unknown bind error"
  if configuration.min_port = 0 then s!"Failed to bind peer connection transports: {error}"
  else s!"No transport port is available in the configured range {configuration.min_port}-{configuration.max_port}: {error}"

/-- `create_peer` up to its loop. -/
def create_peer (configuration : PeerConfiguration) (s : RuntimeState) : Outcome :=
  let (handle,s) := s.allocate
  .next s [.bindPort handle configuration (ports configuration) none]

/-- An iteration of the loop up to `build`, or what follows the loop without a peer. -/
def bindPort (t : TaskId) (handle : UInt64) (configuration : PeerConfiguration)
    (ports : List UInt16) (last_error : Option String) (s : RuntimeState) : Outcome :=
  match ports with
  | port :: ports =>
    .next (s.record fun h => { h with builds := h.builds ++ [{ task := t,configuration,port }] })
      [.buildPeer handle configuration port ports s.certificate]
  | [] => .throw s (.done (.error (noPortText configuration last_error)))

def retryableText : String := "no udp_sockets or tcp_listeners available"

/-- `str::contains`. -/
def contains (message pattern : String) : Bool := decide (pattern.toList <:+: message.toList)

def buildPeer (handle : UInt64) (configuration : PeerConfiguration) (port : UInt16)
    (ports : List UInt16) (certificate : RTCCertificate) (x : Choice) (s : RuntimeState) : Outcome :=
  match x with
  | .ok =>
    let peer := s.nextPeer
    .next { s with
        nextPeer := peer+1
        peer := Function.update s.peer peer { handle,port,certificate } }
      [.insertPeer handle peer configuration.sctp.receive_queue_capacity]
  | .fail message =>
    if port = 0 ∨ contains message retryableText = false then
      .throw s (.done (.error s!"Failed to create peer connection: {message}"))
    else .next s [.bindPort handle configuration ports (some message)]
  | _ => .blocked

def insertPeer (t : TaskId) (handle : UInt64) (peer : PeerRef) (receive_queue_capacity : ℕ)
    (s : RuntimeState) : Outcome :=
  .throw ((s.setRegistry fun r =>
      { r with peers := r.peers.insert handle { peer,receive_queue_capacity } }).record fun h =>
        { h with registered := h.registered ++ [{ task := t,handle,object := .peer peer }] })
    (.done (.ok { peer_handle := handle }))

def createChannel (peer_handle : UInt64) (x : Choice) (s : RuntimeState) : Outcome :=
  match x with
  | .channel channel =>
    .next { s with
        nextChannel := s.nextChannel+1
        channel := Function.update s.channel s.nextChannel channel }
      [.registerChannel peer_handle s.nextChannel false]
  | .fail message => .throw s (.done (.error s!"Failed to create DataChannel: {message}"))
  | _ => .blocked

/-- The call of a function of the DataChannel, up to its first await. -/
def call (t : TaskId) (channel : ChannelRef) (operation : Operation) (s : RuntimeState) : Outcome :=
  let sends (payload : Payload) : RuntimeState :=
    s.record fun h => { h with sent := h.sent ++ [{ task := t,channel,payload }] }
  match operation with
  | .sendText _ text | .trySendText _ text => .next (sends (.text text)) [.request operation]
  | .sendBinary _ data | .trySendBinary _ data =>
    match try_into_mut data with
    | some data => .next (sends (.binary data)) [.request operation]
    | none => .throw s .panicked
  | _ => .next s [.request operation]

def request (operation : Operation) (x : Choice) (s : RuntimeState) : Outcome :=
  match reply operation x with
  | some result => .throw s (.done result)
  | none => .blocked

def Locked.first (peer : PeerRef) : Locked → Instr
  | .request operation => .request operation
  | .createChannel peer_handle configuration => .createChannel peer_handle configuration
  | .send channel operation => .call channel operation
  | .closeChannel channel => .closeChannel channel
  | .closePeer => .closePeer peer

/-- Take the lock of `operations`, if it is free. -/
def lock (peer : PeerRef) (body : Locked) (s : RuntimeState) : Outcome :=
  if s.locked peer then .blocked
  else
    .next { s with locked := Function.update s.locked peer true } [body.first peer,.unlock peer]

def unlock (peer : PeerRef) (s : RuntimeState) : RuntimeState :=
  { s with locked := Function.update s.locked peer false }

/-- An awaited call of the library that gives nothing. -/
def awaitUnit (success : Outcome) (error : String → String) (x : Choice) (s : RuntimeState) :
    Outcome :=
  match x with
  | .ok => success
  | .fail message => .throw s (.done (.error (error message)))
  | _ => .blocked

def close_data_channel (channel_handle : UInt64) (s : RuntimeState) : Outcome :=
  match s.registry.channels.lookup channel_handle with
  | none => .throw s (.done (.ok {}))
  | some entry =>
    .next (s.setRegistry fun r => { r with channels := r.channels.erase channel_handle })
      [.getPeer entry.peer_handle (.closeChannel entry.channel)]

/-- The registry after `close_peer` has taken the peer and its channels out of it. -/
def Registry.removePeer (r : Registry) (peer_handle : UInt64) : Registry where
  peers := r.peers.erase peer_handle
  channels := r.channels.retain fun _ entry => entry.peer_handle ≠ peer_handle

def close_peer (peer_handle : UInt64) (s : RuntimeState) : Outcome :=
  let s' := s.setRegistry (·.removePeer peer_handle)
  match s.registry.peers.lookup peer_handle with
  | none => .throw s' (.done (.ok {}))
  | some entry => .next s' [.lock entry.peer .closePeer]

/-- `register_channel` up to its first await. -/
def registerChannel (peer_handle : UInt64) (channel : ChannelRef) (emit_created_event : Bool)
    (s : RuntimeState) : Outcome :=
  let (handle,s) := s.allocate
  .next s [.readAttributes handle peer_handle channel emit_created_event]

def insertChannel (t : TaskId) (handle peer_handle : UInt64) (channel : ChannelRef)
    (emit_created_event : Bool) (attributes : ChannelAttributes) (s : RuntimeState) : Outcome :=
  .next ((s.setRegistry fun r =>
      { r with channels := r.channels.insert handle { channel,peer_handle } }).record fun h =>
        { h with registered :=
            h.registered ++ [{ task := t,handle,object := .channel channel peer_handle }] })
    ((if emit_created_event then [.sendCreated (created_event peer_handle handle attributes)]
      else []) ++ [.startPolling handle peer_handle channel])

/-- The end of `register_channel`, after which both its callers return. -/
def startPolling (handle peer_handle : UInt64) (channel : ChannelRef) (s : RuntimeState) :
    Outcome :=
  match s.get_peer peer_handle with
  | .error error => .throw s (.done (.error error))
  | .ok entry =>
    .fork (({ s with
        nextTask := s.nextTask+1
        slots := Function.update s.slots handle entry.receive_queue_capacity }).record fun h =>
          { h with polled := h.polled ++ [handle] })
      [.returnChannel handle (s.channel channel).id] s.nextTask
      [.poll peer_handle handle,.finish]

/-- What `poll_data_channel` does with an event, and how it goes on. -/
def poll_data_channel (peer_handle channel_handle : UInt64) (x : Choice) (s : RuntimeState) :
    Outcome :=
  match x with
  | .event none => .next s [.removePolled channel_handle]
  | .event (some e) =>
    let s := s.notePoll channel_handle e
    let sends (e : NativeEvent) : Outcome :=
      .next (s.send_event e) [.poll peer_handle channel_handle]
    match e with
    | .onOpen => sends (.channel DATA_CHANNEL_OPEN peer_handle channel_handle)
    | .onError =>
      sends { NativeEvent.channel DATA_CHANNEL_ERROR peer_handle channel_handle with
        text := some "The native DataChannel reported an error" }
    | .onClosing => sends (.channel DATA_CHANNEL_CLOSING peer_handle channel_handle)
    | .onClose =>
      .next (s.send_event (.channel DATA_CHANNEL_CLOSED peer_handle channel_handle))
        [.removePolled channel_handle]
    | .onMessage is_string data => .next s [.deliver peer_handle channel_handle is_string data]
    | .onBufferedAmountLow =>
      sends (.channel DATA_CHANNEL_BUFFERED_AMOUNT_LOW peer_handle channel_handle)
    | .onBufferedAmountHigh =>
      sends (.channel DATA_CHANNEL_BUFFERED_AMOUNT_HIGH peer_handle channel_handle)
  | _ => .blocked

/-- The event of a message, with its permit. -/
def message_event (peer_handle channel_handle : UInt64) (is_string : Bool) (data : List UInt8) :
    NativeEvent :=
  if is_string then
    { NativeEvent.channel DATA_CHANNEL_TEXT peer_handle channel_handle with
      text := some (Utf8.decode data)
      delivery_permit := some ⟨channel_handle.toNat⟩ }
  else
    { NativeEvent.channel DATA_CHANNEL_BINARY peer_handle channel_handle with
      data := some data
      delivery_permit := some ⟨channel_handle.toNat⟩ }

/-- Wait for a permit and send the message with it. -/
def deliver (peer_handle channel_handle : UInt64) (is_string : Bool) (data : List UInt8)
    (s : RuntimeState) : Outcome :=
  if s.slots channel_handle = 0 then .blocked
  else
    .next ({ s with slots := Function.update s.slots channel_handle (s.slots channel_handle-1) }
        |>.send_event (message_event peer_handle channel_handle is_string data))
      [.poll peer_handle channel_handle]

end Kestara.Native
