import Kestara.Native.Commands

/-!
# The JNI boundary

The submit functions of bridge.rs. A reference argument can be null; `jni_error` is the text with
which the JNI library refuses one. Each function ends in a request to a runtime or in an error.
-/
namespace Kestara.Native

/-- The functions that the native library takes from outside. -/
structure Externals where
  jni_error : String
  parse_ip_addr : String → Except String IpAddr
  /-- The checks of the constructors of a session description. -/
  parse_sdp : RTCSdpType → String → Except String Unit

abbrev JString := Option String

abbrev JObjectArray := Option (List JString)

abbrev JByteArray := Option (List UInt8)

section Arguments

def read_string (x : Externals) (value : JString) : Except String String :=
  match value with
  | some value => .ok value
  | none => .error x.jni_error

def read_string_array (x : Externals) (array : JObjectArray) : Except String (List String) :=
  match array with
  | some array => array.mapM (read_string x)
  | none => .error x.jni_error

def convert_byte_array (x : Externals) (data : JByteArray) : Except String (List UInt8) :=
  match data with
  | some data => .ok data
  | none => .error x.jni_error

def handle_from_jlong (value : Int64) : Except String UInt64 :=
  if 0 ≤ value.toInt then .ok (UInt64.ofNat value.toInt.toNat)
  else .error "Native handle must not be negative"

def timeout (millis : Int64) : Except String Duration :=
  if 0 ≤ millis.toInt then .ok ⟨millis.toInt.toNat⟩
  else .error "Operation timeout must not be negative"

def optional_duration (millis : Int64) (name : String) : Except String (Option Duration) :=
  if millis = -1 then .ok none
  else if 0 ≤ millis.toInt then .ok (some ⟨millis.toInt.toNat⟩)
  else .error s!"The {name} must not be negative"

/-- `u32::try_from(value)`. -/
def tryU32 (value : ℤ) : Option UInt32 :=
  if 0 ≤ value ∧ value < 2^32 then some (UInt32.ofNat value.toNat) else none

def positive_u32 (value : Int32) (name : String) : Except String UInt32 :=
  match tryU32 value.toInt with
  | none => .error s!"The {name} must be positive"
  | some value => if value = 0 then .error s!"The {name} must be positive" else .ok value

/-- `u16::try_from(value)`. -/
def tryU16 (value : ℤ) : Option UInt16 :=
  if 0 ≤ value ∧ value < 2^16 then some (UInt16.ofNat value.toNat) else none

def port (value : Int32) (name : String) : Except String UInt16 :=
  match tryU16 value.toInt with
  | some value => .ok value
  | none => .error s!"The {name} port must be between 0 and 65535"

def optional_u16 (value : Int32) (name : String) : Except String (Option UInt16) :=
  if value = -1 then .ok none
  else match tryU16 value.toInt with
    | some value => .ok (some value)
    | none => .error s!"The {name} must be between 0 and 65535"

/-- `usize::try_from(value)` with the message of its failure. -/
def usize (value : Int32) (message : String) : Except String ℕ :=
  if 0 ≤ value.toInt then .ok value.toInt.toNat else .error message

/-- The entries of a table whose bits are set in a mask. -/
def selected {α : Type} (all : List α) (mask : BitVec 32) : List α :=
  all.zipIdx.filterMap fun x => if mask &&& (1 : BitVec 32) <<< x.2 ≠ 0 then some x.1 else none

def network_types (mask : Int32) : Except String (List NetworkType) :=
  if mask.toInt ≤ 0 ∨ mask.toBitVec &&& ~~~0b1111 ≠ 0 then .error "Invalid ICE network type mask"
  else .ok (selected [.udp4,.udp6,.tcp4,.tcp6] mask.toBitVec)

def allCipherSuites : List CipherSuiteId :=
  [.tls_Ecdhe_Ecdsa_With_Aes_128_Ccm,
    .tls_Ecdhe_Ecdsa_With_Aes_128_Ccm_8,
    .tls_Ecdhe_Ecdsa_With_Aes_128_Gcm_Sha256,
    .tls_Ecdhe_Rsa_With_Aes_128_Gcm_Sha256,
    .tls_Ecdhe_Ecdsa_With_Aes_256_Cbc_Sha,
    .tls_Ecdhe_Rsa_With_Aes_256_Cbc_Sha,
    .tls_Ecdhe_Rsa_With_ChaCha20_Poly1305_Sha256,
    .tls_Ecdhe_Ecdsa_With_ChaCha20_Poly1305_Sha256]

def cipher_suites (mask : Int32) : Except String (List CipherSuiteId) :=
  if mask.toInt ≤ 0 ∨ mask.toBitVec &&& ~~~0xff ≠ 0 then .error "Invalid DTLS cipher suite mask"
  else .ok (selected allCipherSuites mask.toBitVec)

def parse_description (x : Externals) (sdp : String) (description_type : Int32) :
    Except String RTCSessionDescription :=
  let checked (sdp_type : RTCSdpType) : Except String RTCSessionDescription :=
    match x.parse_sdp sdp_type sdp with
    | .ok _ => .ok { sdp_type,sdp }
    | .error error => .error s!"Invalid session description: {error}"
  match description_type.toInt with
  | 0 => checked .offer
  | 1 => checked .answer
  | 2 => checked .pranswer
  | 3 => checked .rollback
  | other => .error s!"Unknown session description type: {other}"

/-- The match on the mDNS mode that both boundaries write out. -/
def multicastDnsMode (mdns_mode : Int32) : Except String MulticastDnsMode :=
  match mdns_mode.toInt with
  | 0 => .ok .disabled
  | 1 => .ok .queryOnly
  | 2 => .ok .queryAndGather
  | _ => .error "Invalid ICE mDNS mode"

/-- The match on the DTLS role that both boundaries write out. -/
def dtlsRole (dtls_answering_role : Int32) : Except String (Option RTCDtlsRole) :=
  match dtls_answering_role.toInt with
  | 0 => .ok none
  | 1 => .ok (some .client)
  | 2 => .ok (some .server)
  | _ => .error "Invalid DTLS answering role"

/-- The check of a port range that both boundaries write out, with its message. -/
def portRange (min_port max_port : UInt16) (message : String) : Except String Unit :=
  if (min_port == 0) ≠ (max_port == 0) ∨ min_port > max_port then .error message else .ok ()

/-- `address.parse::<IpAddr>()` with its message. -/
def mdnsLocalAddress (x : Externals) (address : String) : Except String IpAddr :=
  match x.parse_ip_addr address with
  | .ok address => .ok address
  | .error error => .error s!"Invalid mDNS local address: {error}"

/-- One server for each URL. -/
def zipServers (urls usernames credentials : List String) : List RTCIceServer :=
  ((urls.zip usernames).zip credentials).map fun x =>
    { urls := [x.1.1],username := x.1.2,credential := x.2 }

def require (condition : Bool) (message : String) : Except String Unit :=
  if condition then .ok () else .error message

end Arguments

structure CreatePeerArguments where
  urls : JObjectArray
  usernames : JObjectArray
  credentials : JObjectArray
  min_port : Int32
  max_port : Int32
  ice_transport_policy : Int32
  disconnected_timeout_millis : Int64
  failed_timeout_millis : Int64
  keep_alive_interval_millis : Int64
  check_interval_millis : Int64
  max_binding_requests : Int32
  host_acceptance_min_wait_millis : Int64
  server_reflexive_acceptance_min_wait_millis : Int64
  peer_reflexive_acceptance_min_wait_millis : Int64
  relay_acceptance_min_wait_millis : Int64
  network_type_mask : Int32
  mdns_mode : Int32
  mdns_query_timeout_millis : Int64
  ice_lite : Bool
  nat_addresses : JObjectArray
  nat_mapping_type : Int32
  discard_local_candidates_on_restart : Bool
  candidate_pool_size : Int32
  include_loopback_candidate : Bool
  mdns_local_name : JString
  mdns_local_address : JString
  ice_username_fragment : JString
  ice_password : JString
  sctp_send_buffer_limit : Int32
  sctp_receive_buffer_size : Int32
  sctp_maximum_message_size : Int32
  data_channel_receive_queue_capacity : Int32
  dtls_answering_role : Int32
  media_level_fingerprints : Bool
  dtls_replay_protection_window : Int32
  dtls_cipher_suite_mask : Int32
  udp_bind_addresses : JObjectArray
  tcp_bind_addresses : JObjectArray
  receive_mtu : Int32
  deriving DecidableEq

namespace Bridge
variable (x : Externals)

def natMapping (nat_addresses : List String) (nat_mapping_type : Int32) :
    Except String (Option (List String × RTCIceCandidateType)) :=
  match nat_mapping_type.toInt,nat_addresses with
  | -1,[] => .ok none
  | 0,address :: addresses => .ok (some (address :: addresses,.host))
  | 1,address :: addresses => .ok (some (address :: addresses,.srflx))
  | _,_ => .error "Invalid ICE NAT mapping"

def iceCredentials (ice_username_fragment ice_password : String) :
    Except String (Option (String × String)) :=
  match ice_username_fragment.isEmpty,ice_password.isEmpty with
  | true,true => .ok none
  | false,false => .ok (some (ice_username_fragment,ice_password))
  | _,_ => .error "ICE username fragment and password must be set together"

def candidatePoolSize (candidate_pool_size : Int32) : Except String UInt8 :=
  match candidate_pool_size.toInt with
  | 0 => .ok 0
  | 1 => .ok 1
  | _ => .error "ICE candidate pool size must be 0 or 1"

/-- The address of a text that is not empty. -/
def localAddress (mdns_local_address : String) : Except String (Option IpAddr) :=
  if mdns_local_address.isEmpty then .ok none
  else some <$> mdnsLocalAddress x mdns_local_address

/-- The text, if it is not empty. -/
def nonEmpty (text : String) : Option String := if text.isEmpty then none else some text

/-- The configuration that `nativeCreateRuntime` gives to `runtime::create`. -/
def nativeCreateRuntime (worker_threads reactor_threads : Int32) (certificate_pem : JString)
    (shared_udp_addresses shared_tcp_addresses : JObjectArray)
    (shared_min_port shared_max_port : Int32) : Except String RuntimeConfiguration := do
  let certificate_pem ← read_string x certificate_pem
  let shared_udp_addresses ← read_string_array x shared_udp_addresses
  let shared_tcp_addresses ← read_string_array x shared_tcp_addresses
  let worker_threads ← usize worker_threads "The worker thread count must not be negative"
  let reactor_threads ← usize reactor_threads "The reactor thread count must not be negative"
  let shared_min_port ← port shared_min_port "shared minimum"
  let shared_max_port ← port shared_max_port "shared maximum"
  portRange shared_min_port shared_max_port "Invalid shared socket port range"
  return { worker_threads,reactor_threads
           certificate_pem := nonEmpty certificate_pem
           shared_udp_addresses,shared_tcp_addresses,shared_min_port,shared_max_port }

def nativeSubmitCreatePeer (runtime_handle operation_handle : Int64) (a : CreatePeerArguments)
    (timeout_millis : Int64) : Except String Request := do
  let urls ← read_string_array x a.urls
  let usernames ← read_string_array x a.usernames
  let credentials ← read_string_array x a.credentials
  let nat_addresses ← read_string_array x a.nat_addresses
  let mdns_local_name ← read_string x a.mdns_local_name
  let mdns_local_address ← read_string x a.mdns_local_address
  let ice_username_fragment ← read_string x a.ice_username_fragment
  let ice_password ← read_string x a.ice_password
  let udp_bind_addresses ← read_string_array x a.udp_bind_addresses
  let tcp_bind_addresses ← read_string_array x a.tcp_bind_addresses
  let runtime_handle ← handle_from_jlong runtime_handle
  let operation_handle ← handle_from_jlong operation_handle
  require (urls.length = usernames.length ∧ urls.length = credentials.length)
    "ICE server arrays must have the same length"
  let min_port ← port a.min_port "minimum"
  let max_port ← port a.max_port "maximum"
  portRange min_port max_port "Invalid UDP port range"
  require (a.ice_transport_policy = 0 ∨ a.ice_transport_policy = 1) "Invalid ICE transport policy"
  let network_types ← network_types a.network_type_mask
  let mdns_mode ← multicastDnsMode a.mdns_mode
  let nat_mapping ← natMapping nat_addresses a.nat_mapping_type
  let receive_buffer_size ← positive_u32 a.sctp_receive_buffer_size "SCTP receive buffer size"
  let maximum_message_size ← positive_u32 a.sctp_maximum_message_size "SCTP maximum message size"
  let receive_queue_capacity ← usize a.data_channel_receive_queue_capacity
    "DataChannel receive queue capacity must be positive"
  require (receive_queue_capacity ≠ 0) "DataChannel receive queue capacity must be positive"
  require (maximum_message_size.toNat ≤ 256*1024)
    "SCTP maximum message size must not exceed 262144"
  require (1500 ≤ receive_buffer_size.toNat ∧
      maximum_message_size.toNat ≤ receive_buffer_size.toNat)
    "SCTP receive buffer size must cover the maximum message size"
  let timeout ← timeout timeout_millis
  let answering_role ← dtlsRole a.dtls_answering_role
  let replay_protection_window ← usize a.dtls_replay_protection_window
    "DTLS replay protection window must be positive"
  require (replay_protection_window ≠ 0) "DTLS replay protection window must be positive"
  let receive_mtu ← usize a.receive_mtu "Receive MTU must not be negative"
  let mdns_local_address ← localAddress x mdns_local_address
  let credentials' ← iceCredentials ice_username_fragment ice_password
  let disconnected_timeout ← optional_duration a.disconnected_timeout_millis
    "ICE disconnected timeout"
  let failed_timeout ← optional_duration a.failed_timeout_millis "ICE failed timeout"
  let keep_alive_interval ← optional_duration a.keep_alive_interval_millis
    "ICE keep-alive interval"
  let check_interval ← optional_duration a.check_interval_millis "ICE check interval"
  let max_binding_requests ← optional_u16 a.max_binding_requests "maximum ICE binding requests"
  let host_acceptance_min_wait ← optional_duration a.host_acceptance_min_wait_millis
    "host candidate acceptance wait"
  let server_reflexive_acceptance_min_wait ←
    optional_duration a.server_reflexive_acceptance_min_wait_millis
      "server-reflexive candidate acceptance wait"
  let peer_reflexive_acceptance_min_wait ←
    optional_duration a.peer_reflexive_acceptance_min_wait_millis
      "peer-reflexive candidate acceptance wait"
  let relay_acceptance_min_wait ← optional_duration a.relay_acceptance_min_wait_millis
    "relay candidate acceptance wait"
  let mdns_query_timeout ← optional_duration a.mdns_query_timeout_millis "mDNS query timeout"
  let candidate_pool_size ← candidatePoolSize a.candidate_pool_size
  let send_buffer_limit ← usize a.sctp_send_buffer_limit
    "SCTP send buffer limit must not be negative"
  let cipher_suites ← cipher_suites a.dtls_cipher_suite_mask
  return .submit runtime_handle
    { operation_handle,timeout
      operation := .createPeer
        { ice_servers := zipServers urls usernames credentials
          min_port,max_port
          relay_only := a.ice_transport_policy = 1
          ice :=
            { disconnected_timeout,failed_timeout,keep_alive_interval,check_interval
              max_binding_requests,host_acceptance_min_wait,server_reflexive_acceptance_min_wait
              peer_reflexive_acceptance_min_wait,relay_acceptance_min_wait,network_types,mdns_mode
              mdns_query_timeout
              lite := a.ice_lite
              nat_mapping
              discard_local_candidates_on_restart := a.discard_local_candidates_on_restart
              candidate_pool_size
              include_loopback_candidate := a.include_loopback_candidate
              mdns_local_name := nonEmpty mdns_local_name
              mdns_local_address
              credentials := credentials' }
          sctp := { send_buffer_limit,receive_buffer_size,maximum_message_size
                    receive_queue_capacity }
          dtls := { answering_role
                    media_level_fingerprints := a.media_level_fingerprints
                    replay_protection_window,cipher_suites }
          transport := { udp_bind_addresses,tcp_bind_addresses,receive_mtu } } }

/-- The end of every function that sends one operation to one object. -/
def submitTo (runtime_handle operation_handle target : Int64) (timeout_millis : Int64)
    (operation : UInt64 → Except String Operation) : Except String Request := do
  let runtime_handle ← handle_from_jlong runtime_handle
  let operation_handle ← handle_from_jlong operation_handle
  let timeout ← timeout timeout_millis
  let operation ← operation (← handle_from_jlong target)
  return .submit runtime_handle { operation_handle,timeout,operation }

def nativeSubmitRestartIce (runtime_handle operation_handle peer_handle timeout_millis : Int64) :
    Except String Request :=
  submitTo runtime_handle operation_handle peer_handle timeout_millis fun peer_handle =>
    return .restartIce peer_handle

def nativeSubmitSetConfiguration (runtime_handle operation_handle peer_handle : Int64)
    (urls usernames credentials : JObjectArray) (ice_transport_policy : Int32)
    (timeout_millis : Int64) : Except String Request := do
  let urls ← read_string_array x urls
  let usernames ← read_string_array x usernames
  let credentials ← read_string_array x credentials
  require (urls.length = usernames.length ∧ urls.length = credentials.length)
    "ICE server arrays must have the same length"
  require (ice_transport_policy = 0 ∨ ice_transport_policy = 1) "Invalid ICE transport policy"
  submitTo runtime_handle operation_handle peer_handle timeout_millis fun peer_handle =>
    return .setConfiguration peer_handle (zipServers urls usernames credentials)
      (ice_transport_policy = 1)

def answer (description_type : Int32) : Except String Bool :=
  match description_type.toInt with
  | 0 => .ok false
  | 1 => .ok true
  | _ => .error "Only offer and answer descriptions can be created"

def nativeSubmitCreateDescription (runtime_handle operation_handle peer_handle : Int64)
    (description_type : Int32) (timeout_millis : Int64) : Except String Request := do
  let runtime_handle ← handle_from_jlong runtime_handle
  let operation_handle ← handle_from_jlong operation_handle
  let peer_handle ← handle_from_jlong peer_handle
  let answer ← answer description_type
  let timeout ← timeout timeout_millis
  return .submit runtime_handle
    { operation_handle,timeout,operation := .createDescription peer_handle answer }

def submit_description (runtime_handle operation_handle peer_handle : Int64) (sdp : JString)
    (description_type : Int32) (timeout_millis : Int64) (local' : Bool) :
    Except String Request := do
  let sdp ← read_string x sdp
  let runtime_handle ← handle_from_jlong runtime_handle
  let operation_handle ← handle_from_jlong operation_handle
  let peer_handle ← handle_from_jlong peer_handle
  let timeout ← timeout timeout_millis
  match parse_description x sdp description_type with
  | .ok description =>
    return .submit runtime_handle
      { operation_handle,timeout
        operation := if local' then .setLocalDescription peer_handle description
          else .setRemoteDescription peer_handle description }
  | .error error => return .completeError runtime_handle operation_handle error

def nativeSubmitAddIceCandidate (runtime_handle operation_handle peer_handle : Int64)
    (candidate sdp_mid : JString) (sdp_mline_index : Int32) (timeout_millis : Int64) :
    Except String Request := do
  let candidate ← read_string x candidate
  submitTo runtime_handle operation_handle peer_handle timeout_millis fun peer_handle => do
    let sdp_mline_index ← optional_u16 sdp_mline_index "SDP m-line index"
    return .addIceCandidate peer_handle { candidate,sdp_mid,sdp_mline_index }

def nativeSubmitCreateDataChannel (runtime_handle operation_handle peer_handle : Int64)
    (label : JString) (ordered : Bool) (max_packet_life_time max_retransmits : Int32)
    (protocol : JString) (negotiated_id : Int32) (timeout_millis : Int64) :
    Except String Request := do
  let label ← read_string x label
  let protocol ← read_string x protocol
  submitTo runtime_handle operation_handle peer_handle timeout_millis fun peer_handle => do
    let max_packet_life_time ← optional_u16 max_packet_life_time "maximum packet lifetime"
    let max_retransmits ← optional_u16 max_retransmits "maximum retransmissions"
    let negotiated_id ← optional_u16 negotiated_id "negotiated DataChannel ID"
    return .createDataChannel peer_handle
      { label,ordered,max_packet_life_time,max_retransmits,protocol,negotiated_id }

def nativeSubmitSendDataChannelText (runtime_handle operation_handle channel_handle : Int64)
    (text : JString) (timeout_millis : Int64) : Except String Request := do
  let text ← read_string x text
  submitTo runtime_handle operation_handle channel_handle timeout_millis fun channel_handle =>
    return .sendText channel_handle text

def nativeSubmitSendDataChannelBinary (runtime_handle operation_handle channel_handle : Int64)
    (data : JByteArray) (timeout_millis : Int64) : Except String Request := do
  let data ← convert_byte_array x data
  submitTo runtime_handle operation_handle channel_handle timeout_millis fun channel_handle =>
    return .sendBinary channel_handle data

def nativeSubmitTrySendDataChannelText (runtime_handle operation_handle channel_handle : Int64)
    (text : JString) (timeout_millis : Int64) : Except String Request := do
  let text ← read_string x text
  submitTo runtime_handle operation_handle channel_handle timeout_millis fun channel_handle =>
    return .trySendText channel_handle text

def nativeSubmitTrySendDataChannelBinary (runtime_handle operation_handle channel_handle : Int64)
    (data : JByteArray) (timeout_millis : Int64) : Except String Request := do
  let data ← convert_byte_array x data
  submitTo runtime_handle operation_handle channel_handle timeout_millis fun channel_handle =>
    return .trySendBinary channel_handle data

def nativeSubmitDataChannelWritable
    (runtime_handle operation_handle channel_handle timeout_millis : Int64) :
    Except String Request :=
  submitTo runtime_handle operation_handle channel_handle timeout_millis fun channel_handle =>
    return .dataChannelWritable channel_handle

def nativeSubmitDataChannelOutstandingBytes
    (runtime_handle operation_handle channel_handle timeout_millis : Int64) :
    Except String Request :=
  submitTo runtime_handle operation_handle channel_handle timeout_millis fun channel_handle =>
    return .dataChannelOutstandingBytes channel_handle

/-- `u32::try_from` of a threshold with its message. -/
def threshold (value : Int64) (message : String) : Except String UInt32 :=
  match tryU32 value.toInt with
  | some value => .ok value
  | none => .error message

def nativeSubmitSetDataChannelThresholds (runtime_handle operation_handle channel_handle : Int64)
    (low high : Int64) (timeout_millis : Int64) : Except String Request := do
  let low ← threshold low "Low buffered amount threshold must not be negative"
  let high ← threshold high "High buffered amount threshold must not be negative"
  require (low ≤ high) "Low buffered amount threshold must not exceed high"
  submitTo runtime_handle operation_handle channel_handle timeout_millis fun channel_handle =>
    return .setDataChannelThresholds channel_handle low high

def nativeSubmitGetStats (runtime_handle operation_handle peer_handle timeout_millis : Int64) :
    Except String Request :=
  submitTo runtime_handle operation_handle peer_handle timeout_millis fun peer_handle =>
    return .getStats peer_handle

def nativeSubmitRotateCertificate (runtime_handle operation_handle : Int64)
    (certificate_pem : JString) (timeout_millis : Int64) : Except String Request := do
  let pem ← read_string x certificate_pem
  let runtime_handle ← handle_from_jlong runtime_handle
  let operation_handle ← handle_from_jlong operation_handle
  let timeout ← timeout timeout_millis
  return .submit runtime_handle
    { operation_handle,timeout,operation := .rotateCertificate (nonEmpty pem) }

def nativeSubmitCloseDataChannel
    (runtime_handle operation_handle channel_handle timeout_millis : Int64) :
    Except String Request :=
  submitTo runtime_handle operation_handle channel_handle timeout_millis fun channel_handle =>
    return .closeDataChannel channel_handle

def nativeSubmitClosePeer (runtime_handle operation_handle peer_handle timeout_millis : Int64) :
    Except String Request :=
  submitTo runtime_handle operation_handle peer_handle timeout_millis fun peer_handle =>
    return .closePeer peer_handle

def nativeSubmitCloseRuntime (runtime_handle operation_handle timeout_millis : Int64) :
    Except String Request := do
  let runtime_handle ← handle_from_jlong runtime_handle
  let operation_handle ← handle_from_jlong operation_handle
  let timeout ← timeout timeout_millis
  return .submit runtime_handle { operation_handle,timeout,operation := .shutdown }

end Bridge

/-- A call of one of the submit functions. -/
inductive JniCall
  | createPeer (a : CreatePeerArguments)
  | restartIce (peer_handle : Int64)
  | setConfiguration (peer_handle : Int64) (urls usernames credentials : JObjectArray)
      (ice_transport_policy : Int32)
  | createDescription (peer_handle : Int64) (description_type : Int32)
  | setLocalDescription (peer_handle : Int64) (sdp : JString) (description_type : Int32)
  | setRemoteDescription (peer_handle : Int64) (sdp : JString) (description_type : Int32)
  | addIceCandidate (peer_handle : Int64) (candidate sdp_mid : JString) (sdp_mline_index : Int32)
  | createDataChannel (peer_handle : Int64) (label : JString) (ordered : Bool)
      (max_packet_life_time max_retransmits : Int32) (protocol : JString) (negotiated_id : Int32)
  | sendDataChannelText (channel_handle : Int64) (text : JString)
  | sendDataChannelBinary (channel_handle : Int64) (data : JByteArray)
  | trySendDataChannelText (channel_handle : Int64) (text : JString)
  | trySendDataChannelBinary (channel_handle : Int64) (data : JByteArray)
  | dataChannelWritable (channel_handle : Int64)
  | dataChannelOutstandingBytes (channel_handle : Int64)
  | setDataChannelThresholds (channel_handle low high : Int64)
  | getStats (peer_handle : Int64)
  | rotateCertificate (certificate_pem : JString)
  | closeDataChannel (channel_handle : Int64)
  | closePeer (peer_handle : Int64)
  | closeRuntime

open Bridge in
def JniCall.request (x : Externals) (runtime operation timeout_millis : Int64) :
    JniCall → Except String Request
  | .createPeer a => nativeSubmitCreatePeer x runtime operation a timeout_millis
  | .restartIce peer => nativeSubmitRestartIce runtime operation peer timeout_millis
  | .setConfiguration peer urls usernames credentials ice_transport_policy =>
    nativeSubmitSetConfiguration x runtime operation peer urls usernames credentials
      ice_transport_policy timeout_millis
  | .createDescription peer description_type =>
    nativeSubmitCreateDescription runtime operation peer description_type timeout_millis
  | .setLocalDescription peer sdp description_type =>
    submit_description x runtime operation peer sdp description_type timeout_millis true
  | .setRemoteDescription peer sdp description_type =>
    submit_description x runtime operation peer sdp description_type timeout_millis false
  | .addIceCandidate peer candidate sdp_mid sdp_mline_index =>
    nativeSubmitAddIceCandidate x runtime operation peer candidate sdp_mid sdp_mline_index
      timeout_millis
  | .createDataChannel peer label ordered max_packet_life_time max_retransmits protocol
      negotiated_id =>
    nativeSubmitCreateDataChannel x runtime operation peer label ordered max_packet_life_time
      max_retransmits protocol negotiated_id timeout_millis
  | .sendDataChannelText channel text =>
    nativeSubmitSendDataChannelText x runtime operation channel text timeout_millis
  | .sendDataChannelBinary channel data =>
    nativeSubmitSendDataChannelBinary x runtime operation channel data timeout_millis
  | .trySendDataChannelText channel text =>
    nativeSubmitTrySendDataChannelText x runtime operation channel text timeout_millis
  | .trySendDataChannelBinary channel data =>
    nativeSubmitTrySendDataChannelBinary x runtime operation channel data timeout_millis
  | .dataChannelWritable channel =>
    nativeSubmitDataChannelWritable runtime operation channel timeout_millis
  | .dataChannelOutstandingBytes channel =>
    nativeSubmitDataChannelOutstandingBytes runtime operation channel timeout_millis
  | .setDataChannelThresholds channel low high =>
    nativeSubmitSetDataChannelThresholds runtime operation channel low high timeout_millis
  | .getStats peer => nativeSubmitGetStats runtime operation peer timeout_millis
  | .rotateCertificate certificate_pem =>
    nativeSubmitRotateCertificate x runtime operation certificate_pem timeout_millis
  | .closeDataChannel channel =>
    nativeSubmitCloseDataChannel runtime operation channel timeout_millis
  | .closePeer peer => nativeSubmitClosePeer runtime operation peer timeout_millis
  | .closeRuntime => nativeSubmitCloseRuntime runtime operation timeout_millis

end Kestara.Native
