import Kestara.Native.Events

/-!
# Commands of the native runtime

The configuration types of registry.rs, the commands of runtime.rs and the two ways a boundary
reaches a running controller. A duration is known by its milliseconds, a `usize` is a natural
number.
-/
namespace Kestara.Native

structure Duration where
  millis : ℕ
  deriving DecidableEq, Repr

structure RTCIceServer where
  urls : List String
  username : String
  credential : String
  deriving DecidableEq, Repr

inductive NetworkType
  | unspecified | udp4 | udp6 | tcp4 | tcp6
  deriving DecidableEq, Repr

inductive MulticastDnsMode
  | disabled | queryOnly | queryAndGather
  deriving DecidableEq, Repr

/-- The two candidate types that a NAT mapping can have. -/
inductive RTCIceCandidateType
  | host | srflx
  deriving DecidableEq, Repr

inductive RTCDtlsRole
  | client | server
  deriving DecidableEq, Repr

inductive CipherSuiteId
  | tls_Ecdhe_Ecdsa_With_Aes_128_Ccm
  | tls_Ecdhe_Ecdsa_With_Aes_128_Ccm_8
  | tls_Ecdhe_Ecdsa_With_Aes_128_Gcm_Sha256
  | tls_Ecdhe_Rsa_With_Aes_128_Gcm_Sha256
  | tls_Ecdhe_Ecdsa_With_Aes_256_Cbc_Sha
  | tls_Ecdhe_Rsa_With_Aes_256_Cbc_Sha
  | tls_Ecdhe_Rsa_With_ChaCha20_Poly1305_Sha256
  | tls_Ecdhe_Ecdsa_With_ChaCha20_Poly1305_Sha256
  deriving DecidableEq, Repr

inductive IpAddr
  | v4 (address : BitVec 32)
  | v6 (address : BitVec 128)
  deriving DecidableEq, Repr

structure IceConfiguration where
  disconnected_timeout : Option Duration
  failed_timeout : Option Duration
  keep_alive_interval : Option Duration
  check_interval : Option Duration
  max_binding_requests : Option UInt16
  host_acceptance_min_wait : Option Duration
  server_reflexive_acceptance_min_wait : Option Duration
  peer_reflexive_acceptance_min_wait : Option Duration
  relay_acceptance_min_wait : Option Duration
  network_types : List NetworkType
  mdns_mode : MulticastDnsMode
  mdns_query_timeout : Option Duration
  lite : Bool
  nat_mapping : Option (List String × RTCIceCandidateType)
  discard_local_candidates_on_restart : Bool
  candidate_pool_size : UInt8
  include_loopback_candidate : Bool
  mdns_local_name : Option String
  mdns_local_address : Option IpAddr
  credentials : Option (String × String)
  deriving DecidableEq, Repr

structure SctpConfiguration where
  send_buffer_limit : ℕ
  receive_buffer_size : UInt32
  maximum_message_size : UInt32
  receive_queue_capacity : ℕ
  deriving DecidableEq, Repr

structure DtlsConfiguration where
  answering_role : Option RTCDtlsRole
  media_level_fingerprints : Bool
  replay_protection_window : ℕ
  cipher_suites : List CipherSuiteId
  deriving DecidableEq, Repr

structure TransportConfiguration where
  udp_bind_addresses : List String
  tcp_bind_addresses : List String
  receive_mtu : ℕ
  deriving DecidableEq, Repr

structure PeerConfiguration where
  ice_servers : List RTCIceServer
  min_port : UInt16
  max_port : UInt16
  relay_only : Bool
  ice : IceConfiguration
  sctp : SctpConfiguration
  dtls : DtlsConfiguration
  transport : TransportConfiguration
  deriving DecidableEq, Repr

structure RuntimeConfiguration where
  worker_threads : ℕ
  reactor_threads : ℕ
  certificate_pem : Option String
  shared_udp_addresses : List String
  shared_tcp_addresses : List String
  shared_min_port : UInt16
  shared_max_port : UInt16
  deriving DecidableEq, Repr

structure DataChannelConfiguration where
  label : String
  ordered : Bool
  max_packet_life_time : Option UInt16
  max_retransmits : Option UInt16
  protocol : String
  negotiated_id : Option UInt16
  deriving DecidableEq, Repr

inductive RTCSdpType
  | offer | answer | pranswer | rollback
  deriving DecidableEq, Repr

structure RTCSessionDescription where
  sdp_type : RTCSdpType
  sdp : String
  deriving DecidableEq, Repr

/-- The fields that no boundary sets are left out. -/
structure RTCIceCandidateInit where
  candidate : String
  sdp_mid : Option String
  sdp_mline_index : Option UInt16
  deriving DecidableEq, Repr

/-- What a command asks for. -/
inductive Operation
  | createPeer (configuration : PeerConfiguration)
  | createDescription (peer_handle : UInt64) (answer : Bool)
  | setLocalDescription (peer_handle : UInt64) (description : RTCSessionDescription)
  | setRemoteDescription (peer_handle : UInt64) (description : RTCSessionDescription)
  | addIceCandidate (peer_handle : UInt64) (candidate : RTCIceCandidateInit)
  | restartIce (peer_handle : UInt64)
  | setConfiguration (peer_handle : UInt64) (ice_servers : List RTCIceServer) (relay_only : Bool)
  | createDataChannel (peer_handle : UInt64) (configuration : DataChannelConfiguration)
  | sendText (channel_handle : UInt64) (text : String)
  | sendBinary (channel_handle : UInt64) (data : List UInt8)
  | trySendText (channel_handle : UInt64) (text : String)
  | trySendBinary (channel_handle : UInt64) (data : List UInt8)
  | dataChannelWritable (channel_handle : UInt64)
  | dataChannelOutstandingBytes (channel_handle : UInt64)
  | setDataChannelThresholds (channel_handle : UInt64) (low high : UInt32)
  | getStats (peer_handle : UInt64)
  | closeDataChannel (channel_handle : UInt64)
  | closePeer (peer_handle : UInt64)
  | rotateCertificate (pem : Option String)
  | shutdown
  deriving DecidableEq, Repr

/-- A command, its two common fields apart. -/
structure Command where
  operation_handle : UInt64
  timeout : Duration
  operation : Operation
  deriving DecidableEq, Repr

/-- The event of a failed operation. -/
def NativeEvent.failure (operation_handle : UInt64) (error : String) : NativeEvent where
  kind := 12
  peer_handle := 0
  channel_handle := 0
  operation_handle := operation_handle
  text := none
  secondary_text := some error
  number := 1
  data := none
  delivery_permit := none

/-- The queues of one runtime; `receiving` is false once its controller has stopped. -/
structure RuntimeController where
  commands : List Command
  events : List NativeEvent
  receiving : Bool
  deriving DecidableEq, Repr

abbrev Runtimes := UInt64 → Option RuntimeController

def get_runtime (runtime_handle : UInt64) (r : Runtimes) : Except String RuntimeController :=
  match r runtime_handle with
  | some controller => .ok controller
  | none => .error s!"Unknown WebRTC runtime handle: {runtime_handle}"

def submit (runtime_handle : UInt64) (command : Command) (r : Runtimes) :
    Except String Runtimes := do
  let controller ← get_runtime runtime_handle r
  if controller.receiving then
    return Function.update r runtime_handle
      (some { controller with commands := controller.commands ++ [command] })
  else throw "The WebRTC runtime is shutting down"

def complete_error (runtime_handle operation_handle : UInt64) (error : String) (r : Runtimes) :
    Except String Runtimes := do
  let controller ← get_runtime runtime_handle r
  return Function.update r runtime_handle (some { controller with
    events := controller.events ++ [.failure operation_handle error] })

/-- The last call of a boundary function. -/
inductive Request
  | submit (runtime_handle : UInt64) (command : Command)
  | completeError (runtime_handle operation_handle : UInt64) (error : String)
  deriving DecidableEq, Repr

def Request.perform : Request → Runtimes → Except String Runtimes
  | .submit runtime_handle command => Native.submit runtime_handle command
  | .completeError runtime_handle operation_handle error =>
    complete_error runtime_handle operation_handle error

/-- A boundary call: its error, if any, and the runtimes after it. -/
def boundary (request : Except String Request) (r : Runtimes) : Option String × Runtimes :=
  match request >>= (·.perform r) with
  | .ok r' => (none,r')
  | .error error => (some error,r)

end Kestara.Native
