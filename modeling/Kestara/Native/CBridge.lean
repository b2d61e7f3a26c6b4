import Kestara.Native.Bridge

/-!
# The C boundary

`kestara_runtime_submit` of c_bridge.rs. An input slice is a null pointer with a length or the
bytes at a pointer. `Documents` is what serde_json makes of a document.
-/
namespace Kestara.Native

inductive RawSlice
  | null (length : ℕ)
  | bytes (data : List UInt8)
  deriving DecidableEq, Repr

structure RuntimeDto where
  worker_threads : ℕ
  reactor_threads : ℕ
  certificate_pem : Option String
  shared_udp_addresses : List String
  shared_tcp_addresses : List String
  shared_min_port : Int32
  shared_max_port : Int32
  deriving DecidableEq

structure IceServerDto where
  urls : List String
  username : String
  credential : String
  deriving DecidableEq, Repr

structure NatMappingDto where
  addresses : List String
  mapping_type : Int32
  deriving DecidableEq

structure CredentialsDto where
  username_fragment : String
  password : String
  deriving DecidableEq, Repr

structure PeerDto where
  ice_servers : List IceServerDto
  min_port : Int32
  max_port : Int32
  relay_only : Bool
  disconnected_timeout_millis : Int64
  failed_timeout_millis : Int64
  keep_alive_interval_millis : Int64
  check_interval_millis : Int64
  max_binding_requests : Int32
  host_acceptance_min_wait_millis : Int64
  server_reflexive_acceptance_min_wait_millis : Int64
  peer_reflexive_acceptance_min_wait_millis : Int64
  relay_acceptance_min_wait_millis : Int64
  network_type_mask : Int32
  mdns_mode : Int32
  mdns_query_timeout_millis : Int64
  ice_lite : Bool
  nat_mapping : Option NatMappingDto
  discard_local_candidates_on_restart : Bool
  candidate_pool_size : UInt8
  include_loopback_candidate : Bool
  mdns_local_name : Option String
  mdns_local_address : Option String
  credentials : Option CredentialsDto
  sctp_send_buffer_limit : ℕ
  sctp_receive_buffer_size : Int32
  sctp_maximum_message_size : Int32
  receive_queue_capacity : ℕ
  dtls_answering_role : Int32
  media_level_fingerprints : Bool
  dtls_replay_protection_window : ℕ
  dtls_cipher_suite_mask : Int32
  udp_bind_addresses : List String
  tcp_bind_addresses : List String
  receive_mtu : ℕ
  deriving DecidableEq

structure DataChannelDto where
  ordered : Bool
  max_packet_life_time : Int32
  max_retransmits : Int32
  protocol : String
  negotiated_id : Int32
  deriving DecidableEq

/-- The documents that serde_json accepts and the texts of its errors. -/
structure Documents where
  runtime : List UInt8 → Except String RuntimeDto
  peer : List UInt8 → Except String PeerDto
  dataChannel : List UInt8 → Except String DataChannelDto
  /-- The text of the error for bytes that are not UTF-8. -/
  utf8_error : List UInt8 → String

/-- The arguments of `kestara_runtime_submit`. -/
structure SubmitArguments where
  runtime_handle : UInt64
  operation_handle : UInt64
  command_kind : Int32
  target_handle : UInt64
  timeout_millis : Int64
  text : RawSlice
  secondary_text : RawSlice
  number : Int64
  secondary_number : Int64
  data : RawSlice
  configuration : RawSlice
  deriving DecidableEq

namespace CBridge
variable (x : Externals) (d : Documents)

/-- The kinds of commands, in the order of their numbers from 1 on. -/
inductive CommandKind
  | CREATE_PEER | RESTART_ICE | SET_CONFIGURATION | CREATE_DESCRIPTION | SET_LOCAL_DESCRIPTION
  | SET_REMOTE_DESCRIPTION | ADD_ICE_CANDIDATE | CREATE_DATA_CHANNEL | SEND_TEXT | SEND_BINARY
  | TRY_SEND_TEXT | TRY_SEND_BINARY | DATA_CHANNEL_WRITABLE | DATA_CHANNEL_OUTSTANDING_BYTES
  | SET_DATA_CHANNEL_THRESHOLDS | GET_STATS | ROTATE_CERTIFICATE | CLOSE_DATA_CHANNEL | CLOSE_PEER
  | CLOSE_RUNTIME
  deriving DecidableEq, Repr

def commandKind (command_kind : Int32) : Option CommandKind :=
  match command_kind.toInt with
  | 1 => some .CREATE_PEER
  | 2 => some .RESTART_ICE
  | 3 => some .SET_CONFIGURATION
  | 4 => some .CREATE_DESCRIPTION
  | 5 => some .SET_LOCAL_DESCRIPTION
  | 6 => some .SET_REMOTE_DESCRIPTION
  | 7 => some .ADD_ICE_CANDIDATE
  | 8 => some .CREATE_DATA_CHANNEL
  | 9 => some .SEND_TEXT
  | 10 => some .SEND_BINARY
  | 11 => some .TRY_SEND_TEXT
  | 12 => some .TRY_SEND_BINARY
  | 13 => some .DATA_CHANNEL_WRITABLE
  | 14 => some .DATA_CHANNEL_OUTSTANDING_BYTES
  | 15 => some .SET_DATA_CHANNEL_THRESHOLDS
  | 16 => some .GET_STATS
  | 17 => some .ROTATE_CERTIFICATE
  | 18 => some .CLOSE_DATA_CHANNEL
  | 19 => some .CLOSE_PEER
  | 20 => some .CLOSE_RUNTIME
  | _ => none

section Inputs

def input (value : RawSlice) : Except String (List UInt8) :=
  match value with
  | .null 0 => .ok []
  | .null _ => .error "A native input pointer is null"
  | .bytes data => .ok data

/-- `String::from_utf8`. -/
def fromUtf8 (data : List UInt8) : Except String String :=
  if Utf8.encode (Utf8.decode data) = data then .ok (Utf8.decode data)
  else .error (d.utf8_error data)

def optional_string (value : RawSlice) : Except String (Option String) :=
  match value with
  | .null _ => .ok none
  | .bytes data => some <$> fromUtf8 d data

def required (value : Option String) (name : String) : Except String String :=
  match value with
  | some value => .ok value
  | none => .error s!"The {name} is missing"

/-- `i32::try_from(number)` with its message. -/
def i32 (number : Int64) (message : String) : Except String Int32 :=
  if -2^31 ≤ number.toInt ∧ number.toInt < 2^31 then .ok (Int32.ofInt number.toInt)
  else .error message

/-- `u32::try_from(number)` with its message. -/
def u32 (number : Int64) (message : String) : Except String UInt32 :=
  match tryU32 number.toInt with
  | some value => .ok value
  | none => .error message

end Inputs

/-- The configuration that `kestara_runtime_create` gives to `runtime::create`. -/
def kestara_runtime_create (configuration : RawSlice) : Except String RuntimeConfiguration := do
  let document ← input configuration
  let configuration ← d.runtime document
  let shared_min_port ← port configuration.shared_min_port "shared minimum"
  let shared_max_port ← port configuration.shared_max_port "shared maximum"
  portRange shared_min_port shared_max_port "Invalid shared socket port range"
  return { worker_threads := configuration.worker_threads
           reactor_threads := configuration.reactor_threads
           certificate_pem := configuration.certificate_pem
           shared_udp_addresses := configuration.shared_udp_addresses
           shared_tcp_addresses := configuration.shared_tcp_addresses
           shared_min_port,shared_max_port }

def ice_servers (servers : List IceServerDto) : List RTCIceServer :=
  servers.map fun server =>
    { urls := server.urls,username := server.username,credential := server.credential }

def natMapping (nat_mapping : Option NatMappingDto) :
    Except String (Option (List String × RTCIceCandidateType)) :=
  match nat_mapping with
  | none => .ok none
  | some mapping =>
    if mapping.mapping_type = 0 ∧ mapping.addresses ≠ [] then
      .ok (some (mapping.addresses,.host))
    else if mapping.mapping_type = 1 ∧ mapping.addresses ≠ [] then
      .ok (some (mapping.addresses,.srflx))
    else .error "Invalid ICE NAT mapping"

def peer_configuration (value : PeerDto) : Except String PeerConfiguration := do
  let min_port ← port value.min_port "minimum"
  let max_port ← port value.max_port "maximum"
  portRange min_port max_port "Invalid UDP port range"
  let mdns_mode ← multicastDnsMode value.mdns_mode
  let nat_mapping ← natMapping value.nat_mapping
  let mdns_local_address ← value.mdns_local_address.mapM (mdnsLocalAddress x)
  let disconnected_timeout ← optional_duration value.disconnected_timeout_millis
    "ICE disconnected timeout"
  let failed_timeout ← optional_duration value.failed_timeout_millis "ICE failed timeout"
  let keep_alive_interval ← optional_duration value.keep_alive_interval_millis
    "ICE keep-alive interval"
  let check_interval ← optional_duration value.check_interval_millis "ICE check interval"
  let max_binding_requests ← optional_u16 value.max_binding_requests
    "maximum ICE binding requests"
  let host_acceptance_min_wait ← optional_duration value.host_acceptance_min_wait_millis
    "host candidate acceptance wait"
  let server_reflexive_acceptance_min_wait ←
    optional_duration value.server_reflexive_acceptance_min_wait_millis
      "server-reflexive candidate acceptance wait"
  let peer_reflexive_acceptance_min_wait ←
    optional_duration value.peer_reflexive_acceptance_min_wait_millis
      "peer-reflexive candidate acceptance wait"
  let relay_acceptance_min_wait ← optional_duration value.relay_acceptance_min_wait_millis
    "relay candidate acceptance wait"
  let network_types ← network_types value.network_type_mask
  let mdns_query_timeout ← optional_duration value.mdns_query_timeout_millis
    "mDNS query timeout"
  let receive_buffer_size ← positive_u32 value.sctp_receive_buffer_size
    "SCTP receive buffer size"
  let maximum_message_size ← positive_u32 value.sctp_maximum_message_size
    "SCTP maximum message size"
  let answering_role ← dtlsRole value.dtls_answering_role
  let cipher_suites ← cipher_suites value.dtls_cipher_suite_mask
  return { ice_servers := ice_servers value.ice_servers
           min_port,max_port
           relay_only := value.relay_only
           ice :=
             { disconnected_timeout,failed_timeout,keep_alive_interval,check_interval
               max_binding_requests,host_acceptance_min_wait
               server_reflexive_acceptance_min_wait,peer_reflexive_acceptance_min_wait
               relay_acceptance_min_wait,network_types,mdns_mode,mdns_query_timeout
               lite := value.ice_lite
               nat_mapping
               discard_local_candidates_on_restart := value.discard_local_candidates_on_restart
               candidate_pool_size := value.candidate_pool_size
               include_loopback_candidate := value.include_loopback_candidate
               mdns_local_name := value.mdns_local_name
               mdns_local_address
               credentials := value.credentials.map fun c => (c.username_fragment,c.password) }
           sctp := { send_buffer_limit := value.sctp_send_buffer_limit
                     receive_buffer_size,maximum_message_size
                     receive_queue_capacity := value.receive_queue_capacity }
           dtls := { answering_role
                     media_level_fingerprints := value.media_level_fingerprints
                     replay_protection_window := value.dtls_replay_protection_window
                     cipher_suites }
           transport := { udp_bind_addresses := value.udp_bind_addresses
                          tcp_bind_addresses := value.tcp_bind_addresses
                          receive_mtu := value.receive_mtu } }

/-- The command of an operation, as the last call of the boundary. -/
def SubmitArguments.queue (a : SubmitArguments) (timeout : Duration) (operation : Operation) :
    Request :=
  .submit a.runtime_handle { operation_handle := a.operation_handle,timeout,operation }

def createDescription (a : SubmitArguments) : Except String Operation :=
  match a.number.toInt with
  | 0 => .ok (.createDescription a.target_handle false)
  | 1 => .ok (.createDescription a.target_handle true)
  | _ => .error "Only offer and answer descriptions can be created"

/-- A description that does not parse is completed at once. -/
def setDescription (a : SubmitArguments) (timeout : Duration) (text : Option String)
    (operation : RTCSessionDescription → Operation) : Except String Request := do
  let sdp ← required text "session description"
  let number ← i32 a.number "Invalid session description type"
  match parse_description x sdp number with
  | .error error => return .completeError a.runtime_handle a.operation_handle error
  | .ok description => return SubmitArguments.queue a timeout (operation description)

def addIceCandidate (a : SubmitArguments) (text secondary_text : Option String) :
    Except String Operation := do
  let candidate ← required text "ICE candidate"
  let number ← i32 a.number "Invalid SDP m-line index"
  let sdp_mline_index ← optional_u16 number "SDP m-line index"
  return .addIceCandidate a.target_handle { candidate,sdp_mid := secondary_text,sdp_mline_index }

def createDataChannel (a : SubmitArguments) (text : Option String) : Except String Operation := do
  let document ← input a.configuration
  let configuration ← d.dataChannel document
  let label ← required text "DataChannel label"
  let max_packet_life_time ← optional_u16 configuration.max_packet_life_time
    "maximum packet lifetime"
  let max_retransmits ← optional_u16 configuration.max_retransmits "maximum retransmissions"
  let negotiated_id ← optional_u16 configuration.negotiated_id "negotiated DataChannel ID"
  return .createDataChannel a.target_handle
    { label
      ordered := configuration.ordered
      max_packet_life_time,max_retransmits
      protocol := configuration.protocol
      negotiated_id }

/-- The match on the command kind. -/
def command (a : SubmitArguments) (timeout : Duration) (text secondary_text : Option String)
    (data : List UInt8) : Except String Request :=
  let queue := SubmitArguments.queue a timeout
  match commandKind a.command_kind with
  | some .CREATE_PEER => do
    let document ← input a.configuration
    let configuration ← d.peer document
    let configuration ← peer_configuration x configuration
    return queue (.createPeer configuration)
  | some .RESTART_ICE => .ok (queue (.restartIce a.target_handle))
  | some .SET_CONFIGURATION => do
    let document ← input a.configuration
    let configuration ← d.peer document
    return queue (.setConfiguration a.target_handle (ice_servers configuration.ice_servers)
      configuration.relay_only)
  | some .CREATE_DESCRIPTION => do
    let operation ← createDescription a
    return queue operation
  | some .SET_LOCAL_DESCRIPTION =>
    setDescription x a timeout text (.setLocalDescription a.target_handle)
  | some .SET_REMOTE_DESCRIPTION =>
    setDescription x a timeout text (.setRemoteDescription a.target_handle)
  | some .ADD_ICE_CANDIDATE => do
    let operation ← addIceCandidate a text secondary_text
    return queue operation
  | some .CREATE_DATA_CHANNEL => do
    let operation ← createDataChannel d a text
    return queue operation
  | some .SEND_TEXT => do
    let text ← required text "DataChannel text"
    return queue (.sendText a.target_handle text)
  | some .SEND_BINARY => .ok (queue (.sendBinary a.target_handle data))
  | some .TRY_SEND_TEXT => do
    let text ← required text "DataChannel text"
    return queue (.trySendText a.target_handle text)
  | some .TRY_SEND_BINARY => .ok (queue (.trySendBinary a.target_handle data))
  | some .DATA_CHANNEL_WRITABLE => .ok (queue (.dataChannelWritable a.target_handle))
  | some .DATA_CHANNEL_OUTSTANDING_BYTES =>
    .ok (queue (.dataChannelOutstandingBytes a.target_handle))
  | some .SET_DATA_CHANNEL_THRESHOLDS => do
    let low ← u32 a.number "Invalid low buffered amount threshold"
    let high ← u32 a.secondary_number "Invalid high buffered amount threshold"
    return queue (.setDataChannelThresholds a.target_handle low high)
  | some .GET_STATS => .ok (queue (.getStats a.target_handle))
  | some .ROTATE_CERTIFICATE => .ok (queue (.rotateCertificate text))
  | some .CLOSE_DATA_CHANNEL => .ok (queue (.closeDataChannel a.target_handle))
  | some .CLOSE_PEER => .ok (queue (.closePeer a.target_handle))
  | some .CLOSE_RUNTIME => .ok (queue .shutdown)
  | none => .error ("Unknown native command: " ++ toString a.command_kind.toInt)

def kestara_runtime_submit (a : SubmitArguments) : Except String Request := do
  let timeout ← timeout a.timeout_millis
  let text ← optional_string d a.text
  let secondary_text ← optional_string d a.secondary_text
  let data ← input a.data
  command x d a timeout text secondary_text data

end CBridge

end Kestara.Native
