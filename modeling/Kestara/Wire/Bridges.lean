import Kestara.Native.CBridge
import Kestara.Wire.Configuration

/-!
# The two bridges to the native library

`JvmNativeBridge` with the JNI boundary and `NativeNativeBridge` with `NativeWire` and the C
boundary, as what they ask of the native runtime. A handle is a `Long`; `NativeInput` never makes
a null pointer of a given array.
-/
namespace Kestara.Wire
open Native

/-- A call of the `NativeBridge` interface that submits a command. -/
inductive BridgeCall
  | createPeer (configuration : PeerConnectionConfiguration)
  | restartIce (peer timeout : Int64)
  | setConfiguration (peer : Int64) (configuration : PeerConnectionConfiguration) (timeout : Int64)
  | createDescription (peer : Int64) (type : SessionDescriptionType) (timeout : Int64)
  | setLocalDescription (peer : Int64) (description : SessionDescription) (timeout : Int64)
  | setRemoteDescription (peer : Int64) (description : SessionDescription) (timeout : Int64)
  | addIceCandidate (peer : Int64) (candidate : String) (sdpMid : Option String)
      (sdpMLineIndex : Option Int32) (timeout : Int64)
  | createDataChannel (peer : Int64) (label : String) (options : DataChannelOptions)
      (timeout : Int64)
  | sendText (channel : Int64) (text : String) (timeout : Int64) (trySend : Bool)
  | sendBinary (channel : Int64) (data : List UInt8) (timeout : Int64) (trySend : Bool)
  | dataChannelWritable (channel timeout : Int64)
  | dataChannelOutstandingBytes (channel timeout : Int64)
  | setDataChannelThresholds (channel low high timeout : Int64)
  | getStats (peer timeout : Int64)
  | rotateCertificate (certificate : Option DtlsCertificate) (timeout : Int64)
  | closeDataChannel (channel timeout : Int64)
  | closePeer (peer timeout : Int64)
  | closeRuntime (timeout : Int64)

section Arguments

/-- `values.fold(0) { mask, value -> mask or (1 shl value.ordinal) }`. -/
def ordinalMask (ordinals : List ℕ) : Int32 :=
  ⟨⟨ordinals.foldl (fun mask ordinal => mask ||| (1 : BitVec 32) <<< ordinal) 0⟩⟩

def optionalMillis (duration : Option Int64) : Int64 := duration.getD (-1)

/-- An ordinal as an `Int`. -/
def jint (ordinal : ℕ) : Int32 := Int32.ofNat ordinal

/-- A channel option, an `Int` or null, or -1. -/
def optionalInt (value : Option ℤ) : Int32 := (value.map Int32.ofInt).getD (-1)

end Arguments

namespace JvmNativeBridge

/-- The three arrays of `flattenedServers`. -/
def flattenedServers (servers : List IceServer) : List String × List String × List String :=
  (servers.flatMap (·.urls),servers.flatMap (fun s => s.urls.map fun _ => s.username),
    servers.flatMap (fun s => s.urls.map fun _ => s.credential))

def array (values : List String) : JObjectArray := some (values.map some)

def createPeerArguments (configuration : PeerConnectionConfiguration) : CreatePeerArguments :=
  let servers := flattenedServers configuration.iceServers
  let ice := configuration.iceOptions
  let sctp := configuration.sctpOptions
  let dtls := configuration.dtlsOptions
  let transport := configuration.transportOptions
  { urls := array servers.1
    usernames := array servers.2.1
    credentials := array servers.2.2
    min_port := configuration.minPort
    max_port := configuration.maxPort
    ice_transport_policy := jint configuration.iceTransportPolicy.ordinal
    disconnected_timeout_millis := optionalMillis ice.disconnectedTimeout
    failed_timeout_millis := optionalMillis ice.failedTimeout
    keep_alive_interval_millis := optionalMillis ice.keepAliveInterval
    check_interval_millis := optionalMillis ice.checkInterval
    max_binding_requests := ice.maxBindingRequests.getD (-1)
    host_acceptance_min_wait_millis := optionalMillis ice.hostAcceptanceMinWait
    server_reflexive_acceptance_min_wait_millis :=
      optionalMillis ice.serverReflexiveAcceptanceMinWait
    peer_reflexive_acceptance_min_wait_millis := optionalMillis ice.peerReflexiveAcceptanceMinWait
    relay_acceptance_min_wait_millis := optionalMillis ice.relayAcceptanceMinWait
    network_type_mask := ordinalMask (ice.networkTypes.map (·.ordinal))
    mdns_mode := jint ice.mdnsMode.ordinal
    mdns_query_timeout_millis := optionalMillis ice.mdnsQueryTimeout
    ice_lite := ice.lite
    nat_addresses := array ((ice.natMapping.map (·.externalAddresses)).getD [])
    nat_mapping_type := (ice.natMapping.map fun m => jint m.type.ordinal).getD (-1)
    discard_local_candidates_on_restart := ice.discardLocalCandidatesOnRestart
    candidate_pool_size := ice.candidatePoolSize
    include_loopback_candidate := ice.includeLoopbackCandidate
    mdns_local_name := some (ice.mdnsLocalName.getD "")
    mdns_local_address := some (ice.mdnsLocalAddress.getD "")
    ice_username_fragment := some ((ice.credentials.map (·.usernameFragment)).getD "")
    ice_password := some ((ice.credentials.map (·.password)).getD "")
    sctp_send_buffer_limit := sctp.sendBufferLimit
    sctp_receive_buffer_size := sctp.receiveBufferSize
    sctp_maximum_message_size := sctp.maximumMessageSize
    data_channel_receive_queue_capacity := sctp.receiveQueueCapacity
    dtls_answering_role := jint dtls.answeringRole.ordinal
    media_level_fingerprints := dtls.mediaLevelFingerprints
    dtls_replay_protection_window := dtls.replayProtectionWindow
    dtls_cipher_suite_mask := ordinalMask (dtls.cipherSuites.map (·.ordinal))
    udp_bind_addresses := array transport.udpBindAddresses
    tcp_bind_addresses := array transport.tcpBindAddresses
    receive_mtu := transport.receiveMtu }

def createRuntime (x : Externals) (options : WebRtcRuntimeOptions) :
    Except String RuntimeConfiguration :=
  let sockets := options.sharedSockets
  Bridge.nativeCreateRuntime x options.workerThreads options.reactorThreads
    (some ((options.certificate.map (·.pem)).getD ""))
    (array ((sockets.map (·.udpBindAddresses)).getD []))
    (array ((sockets.map (·.tcpBindAddresses)).getD []))
    ((sockets.map (·.minPort)).getD 0) ((sockets.map (·.maxPort)).getD 0)

/-- The JNI function of a call and its timeout. -/
def jniCall : BridgeCall → JniCall × Int64
  | .createPeer configuration =>
    (.createPeer (createPeerArguments configuration),configuration.operationTimeout)
  | .restartIce peer timeout => (.restartIce peer,timeout)
  | .setConfiguration peer configuration timeout =>
    let servers := flattenedServers configuration.iceServers
    (.setConfiguration peer (array servers.1) (array servers.2.1) (array servers.2.2)
      (jint configuration.iceTransportPolicy.ordinal),timeout)
  | .createDescription peer type timeout => (.createDescription peer (jint type.ordinal),timeout)
  | .setLocalDescription peer description timeout =>
    (.setLocalDescription peer (some description.sdp) (jint description.type.ordinal),timeout)
  | .setRemoteDescription peer description timeout =>
    (.setRemoteDescription peer (some description.sdp) (jint description.type.ordinal),timeout)
  | .addIceCandidate peer candidate sdpMid sdpMLineIndex timeout =>
    (.addIceCandidate peer (some candidate) sdpMid (sdpMLineIndex.getD (-1)),timeout)
  | .createDataChannel peer label options timeout =>
    (.createDataChannel peer (some label) options.ordered (optionalInt options.maxPacketLifeTime)
      (optionalInt options.maxRetransmits) (some options.protocol)
      (optionalInt options.negotiatedId),timeout)
  | .sendText channel text timeout trySend =>
    (if trySend then .trySendDataChannelText channel (some text)
      else .sendDataChannelText channel (some text),timeout)
  | .sendBinary channel data timeout trySend =>
    (if trySend then .trySendDataChannelBinary channel (some data)
      else .sendDataChannelBinary channel (some data),timeout)
  | .dataChannelWritable channel timeout => (.dataChannelWritable channel,timeout)
  | .dataChannelOutstandingBytes channel timeout => (.dataChannelOutstandingBytes channel,timeout)
  | .setDataChannelThresholds channel low high timeout =>
    (.setDataChannelThresholds channel low high,timeout)
  | .getStats peer timeout => (.getStats peer,timeout)
  | .rotateCertificate certificate timeout =>
    (.rotateCertificate (some ((certificate.map (·.pem)).getD "")),timeout)
  | .closeDataChannel channel timeout => (.closeDataChannel channel,timeout)
  | .closePeer peer timeout => (.closePeer peer,timeout)
  | .closeRuntime timeout => (.closeRuntime,timeout)

def request (x : Externals) (runtime operation : Int64) (call : BridgeCall) :
    Except String Request :=
  (jniCall call).1.request x runtime operation (jniCall call).2

end JvmNativeBridge

/-- What kotlinx.serialization writes for a DTO. -/
structure Encoder where
  runtime : RuntimeDto → List UInt8
  peer : PeerDto → List UInt8
  dataChannel : DataChannelDto → List UInt8

namespace NativeWire

def runtime (options : WebRtcRuntimeOptions) : RuntimeDto :=
  let sockets := options.sharedSockets
  { worker_threads := options.workerThreads.toInt.toNat
    reactor_threads := options.reactorThreads.toInt.toNat
    certificate_pem := options.certificate.map (·.pem)
    shared_udp_addresses := (sockets.map (·.udpBindAddresses)).getD []
    shared_tcp_addresses := (sockets.map (·.tcpBindAddresses)).getD []
    shared_min_port := (sockets.map (·.minPort)).getD 0
    shared_max_port := (sockets.map (·.maxPort)).getD 0 }

/-- The fields of a peer document; those that the native side reads as unsigned are not negative
by the checks of their constructors. -/
def peer (configuration : PeerConnectionConfiguration) : PeerDto :=
  let ice := configuration.iceOptions
  let sctp := configuration.sctpOptions
  let dtls := configuration.dtlsOptions
  let transport := configuration.transportOptions
  { ice_servers := configuration.iceServers.map fun s =>
      { urls := s.urls,username := s.username,credential := s.credential }
    min_port := configuration.minPort
    max_port := configuration.maxPort
    relay_only := configuration.iceTransportPolicy.ordinal = 1
    disconnected_timeout_millis := optionalMillis ice.disconnectedTimeout
    failed_timeout_millis := optionalMillis ice.failedTimeout
    keep_alive_interval_millis := optionalMillis ice.keepAliveInterval
    check_interval_millis := optionalMillis ice.checkInterval
    max_binding_requests := ice.maxBindingRequests.getD (-1)
    host_acceptance_min_wait_millis := optionalMillis ice.hostAcceptanceMinWait
    server_reflexive_acceptance_min_wait_millis :=
      optionalMillis ice.serverReflexiveAcceptanceMinWait
    peer_reflexive_acceptance_min_wait_millis := optionalMillis ice.peerReflexiveAcceptanceMinWait
    relay_acceptance_min_wait_millis := optionalMillis ice.relayAcceptanceMinWait
    network_type_mask := ordinalMask (ice.networkTypes.map (·.ordinal))
    mdns_mode := jint ice.mdnsMode.ordinal
    mdns_query_timeout_millis := optionalMillis ice.mdnsQueryTimeout
    ice_lite := ice.lite
    nat_mapping := ice.natMapping.map fun m =>
      { addresses := m.externalAddresses,mapping_type := jint m.type.ordinal }
    discard_local_candidates_on_restart := ice.discardLocalCandidatesOnRestart
    candidate_pool_size := UInt8.ofNat ice.candidatePoolSize.toInt.toNat
    include_loopback_candidate := ice.includeLoopbackCandidate
    mdns_local_name := ice.mdnsLocalName
    mdns_local_address := ice.mdnsLocalAddress
    credentials := ice.credentials.map fun c =>
      { username_fragment := c.usernameFragment,password := c.password }
    sctp_send_buffer_limit := sctp.sendBufferLimit.toInt.toNat
    sctp_receive_buffer_size := sctp.receiveBufferSize
    sctp_maximum_message_size := sctp.maximumMessageSize
    receive_queue_capacity := sctp.receiveQueueCapacity.toInt.toNat
    dtls_answering_role := jint dtls.answeringRole.ordinal
    media_level_fingerprints := dtls.mediaLevelFingerprints
    dtls_replay_protection_window := dtls.replayProtectionWindow.toInt.toNat
    dtls_cipher_suite_mask := ordinalMask (dtls.cipherSuites.map (·.ordinal))
    udp_bind_addresses := transport.udpBindAddresses
    tcp_bind_addresses := transport.tcpBindAddresses
    receive_mtu := transport.receiveMtu.toInt.toNat }

def dataChannel (options : DataChannelOptions) : DataChannelDto where
  ordered := options.ordered
  max_packet_life_time := optionalInt options.maxPacketLifeTime
  max_retransmits := optionalInt options.maxRetransmits
  protocol := options.protocol
  negotiated_id := optionalInt options.negotiatedId

end NativeWire

namespace NativeNativeBridge

/-- `NativeInput` of a nullable array. -/
def nullableInput (text : Option String) : RawSlice :=
  match text with
  | some text => .bytes (Utf8.encode text)
  | none => .null 0

/-- `submit` with the defaults of its parameters. -/
def arguments (runtime operation : Int64) (command : Int32) (timeout : Int64) :
    SubmitArguments where
  runtime_handle := runtime.toUInt64
  operation_handle := operation.toUInt64
  command_kind := command
  target_handle := 0
  timeout_millis := timeout
  text := .null 0
  secondary_text := .null 0
  number := 0
  secondary_number := 0
  data := .bytes []
  configuration := .bytes []

def createRuntime (d : Documents) (e : Encoder) (options : WebRtcRuntimeOptions) :
    Except String RuntimeConfiguration :=
  CBridge.kestara_runtime_create d (.bytes (e.runtime (NativeWire.runtime options)))

def submitArguments (e : Encoder) (runtime operation : Int64) : BridgeCall → SubmitArguments
  | .createPeer configuration =>
    { arguments runtime operation 1 configuration.operationTimeout with
      configuration := .bytes (e.peer (NativeWire.peer configuration)) }
  | .restartIce peer timeout =>
    { arguments runtime operation 2 timeout with target_handle := peer.toUInt64 }
  | .setConfiguration peer configuration timeout =>
    { arguments runtime operation 3 timeout with
      target_handle := peer.toUInt64
      configuration := .bytes (e.peer (NativeWire.peer configuration)) }
  | .createDescription peer type timeout =>
    { arguments runtime operation 4 timeout with
      target_handle := peer.toUInt64
      number := Int64.ofNat type.ordinal }
  | .setLocalDescription peer description timeout =>
    { arguments runtime operation 5 timeout with
      target_handle := peer.toUInt64
      text := nullableInput (some description.sdp)
      number := Int64.ofNat description.type.ordinal }
  | .setRemoteDescription peer description timeout =>
    { arguments runtime operation 6 timeout with
      target_handle := peer.toUInt64
      text := nullableInput (some description.sdp)
      number := Int64.ofNat description.type.ordinal }
  | .addIceCandidate peer candidate sdpMid sdpMLineIndex timeout =>
    { arguments runtime operation 7 timeout with
      target_handle := peer.toUInt64
      text := nullableInput (some candidate)
      secondary_text := nullableInput sdpMid
      number := (sdpMLineIndex.getD (-1)).toInt64 }
  | .createDataChannel peer label options timeout =>
    { arguments runtime operation 8 timeout with
      target_handle := peer.toUInt64
      text := nullableInput (some label)
      configuration := .bytes (e.dataChannel (NativeWire.dataChannel options)) }
  | .sendText channel text timeout trySend =>
    { arguments runtime operation (if trySend then 11 else 9) timeout with
      target_handle := channel.toUInt64
      text := nullableInput (some text) }
  | .sendBinary channel data timeout trySend =>
    { arguments runtime operation (if trySend then 12 else 10) timeout with
      target_handle := channel.toUInt64
      data := .bytes data }
  | .dataChannelWritable channel timeout =>
    { arguments runtime operation 13 timeout with target_handle := channel.toUInt64 }
  | .dataChannelOutstandingBytes channel timeout =>
    { arguments runtime operation 14 timeout with target_handle := channel.toUInt64 }
  | .setDataChannelThresholds channel low high timeout =>
    { arguments runtime operation 15 timeout with
      target_handle := channel.toUInt64
      number := low
      secondary_number := high }
  | .getStats peer timeout =>
    { arguments runtime operation 16 timeout with target_handle := peer.toUInt64 }
  | .rotateCertificate certificate timeout =>
    { arguments runtime operation 17 timeout with
      text := nullableInput (certificate.map (·.pem)) }
  | .closeDataChannel channel timeout =>
    { arguments runtime operation 18 timeout with target_handle := channel.toUInt64 }
  | .closePeer peer timeout =>
    { arguments runtime operation 19 timeout with target_handle := peer.toUInt64 }
  | .closeRuntime timeout => arguments runtime operation 20 timeout

def request (x : Externals) (d : Documents) (e : Encoder) (runtime operation : Int64)
    (call : BridgeCall) : Except String Request :=
  CBridge.kestara_runtime_submit x d (submitArguments e runtime operation call)

end NativeNativeBridge

end Kestara.Wire
