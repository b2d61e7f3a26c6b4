import Kestara.Library.Codec
import Kestara.Library.Endian
import Kestara.Library.Utf8

/-!
# Encoding of a stats report

`encode_stats` of the native library. The report types belong to the WebRTC implementation:
an enumeration of it is known by the text its `Debug` gives, a report by the four ways in
which the encoder reads it.
-/
namespace Kestara.Wire
open Codec

/-- A value of an enumeration that the encoder only formats. -/
structure Debug where
  text : String
  deriving DecidableEq, Repr

structure RTCPeerConnectionStats where
  data_channels_opened : UInt32
  data_channels_closed : UInt32
  deriving DecidableEq, Repr

structure RTCTransportStats where
  packets_sent : UInt64
  packets_received : UInt64
  bytes_sent : UInt64
  bytes_received : UInt64
  ice_role : Debug
  ice_state : Debug
  dtls_role : Debug
  dtls_state : Debug
  tls_version : String
  dtls_cipher : String
  selected_candidate_pair_changes : UInt32
  selected_candidate_pair_id : String
  deriving DecidableEq, Repr

/-- The round-trip times are known by their bits. -/
structure RTCIceCandidatePairStats where
  id : String
  local_candidate_id : String
  remote_candidate_id : String
  packets_sent : UInt64
  packets_received : UInt64
  bytes_sent : UInt64
  bytes_received : UInt64
  current_round_trip_time : UInt64
  total_round_trip_time : UInt64
  requests_sent : UInt64
  requests_received : UInt64
  responses_sent : UInt64
  responses_received : UInt64
  state : Debug
  nominated : Bool
  deriving DecidableEq, Repr

structure RTCIceCandidateStats where
  id : String
  address : Option String
  port : UInt16
  protocol : String
  candidate_type : Debug
  priority : UInt32
  url : String
  relay_protocol : Debug
  foundation : String
  related_address : String
  related_port : UInt16
  username_fragment : String
  tcp_type : Debug
  deriving DecidableEq, Repr

structure RTCDataChannelStats where
  data_channel_identifier : UInt16
  label : String
  protocol : String
  state : Debug
  messages_sent : UInt32
  bytes_sent : UInt64
  messages_received : UInt32
  bytes_received : UInt64
  deriving DecidableEq, Repr

/-- The entries that the encoder tells apart. -/
inductive RTCStatsReportEntry
  | iceCandidatePair (pair : RTCIceCandidatePairStats)
  | localCandidate (candidate : RTCIceCandidateStats)
  | remoteCandidate (candidate : RTCIceCandidateStats)
  | dataChannel (channel : RTCDataChannelStats)
  | other
  deriving DecidableEq, Repr

structure RTCStatsReport where
  peer_connection : Option RTCPeerConnectionStats
  transport : Option RTCTransportStats
  get : String → Option RTCStatsReportEntry
  iter : List RTCStatsReportEntry

abbrev StatsWriter := Codec.Writer String

def write_u16 (value : UInt16) : StatsWriter Unit := write (Endian.beBytes 2 value.toNat)

def write_u32 (value : UInt32) : StatsWriter Unit := write (Endian.beBytes 4 value.toNat)

def write_u64 (value : UInt64) : StatsWriter Unit := write (Endian.beBytes 8 value.toNat)

def write_f64 (value : UInt64) : StatsWriter Unit := write (Endian.beBytes 8 value.toNat)

def push (value : UInt8) : StatsWriter Unit := write [value]

/-- `u8::from` of a truth value. -/
def byteOf (flag : Bool) : UInt8 := if flag then 1 else 0

def write_string (value : String) : StatsWriter Unit := do
  let size := (Utf8.encode value).length
  if size < 2^32 then
    write_u32 (UInt32.ofNat size)
    write (Utf8.encode value)
  else
    throw "Native stats string is too large"

def write_candidate (candidate : RTCIceCandidateStats) : StatsWriter Unit := do
  write_string candidate.id
  write_string (candidate.address.getD "")
  write_u16 candidate.port
  write_string candidate.protocol
  write_string candidate.candidate_type.text
  write_u32 candidate.priority
  write_string candidate.url
  write_string candidate.relay_protocol.text
  write_string candidate.foundation
  write_string candidate.related_address
  write_u16 candidate.related_port
  write_string candidate.username_fragment
  write_string candidate.tcp_type.text

def write_optional_candidate (candidate : Option RTCIceCandidateStats) : StatsWriter Unit := do
  push (byteOf candidate.isSome)
  match candidate with
  | some candidate => write_candidate candidate
  | none => pure ()

def RTCStatsReportEntry.candidate? : RTCStatsReportEntry → Option RTCIceCandidateStats
  | .localCandidate candidate => some candidate
  | .remoteCandidate candidate => some candidate
  | _ => none

def RTCStatsReportEntry.dataChannel? : RTCStatsReportEntry → Option RTCDataChannelStats
  | .dataChannel channel => some channel
  | _ => none

/-- By the identifier, else the first whose identifier ends with it. -/
def candidate (report : RTCStatsReport) (id : String) : Option RTCIceCandidateStats :=
  match (report.get id).bind (·.candidate?) with
  | some candidate => some candidate
  | none => report.iter.findSome? fun entry =>
      (entry.candidate?).filter fun candidate => id.toList.isSuffixOf candidate.id.toList

def write_pair (report : RTCStatsReport) (pair : RTCIceCandidatePairStats) : StatsWriter Unit := do
  push 1
  write_string pair.id
  write_string pair.local_candidate_id
  write_string pair.remote_candidate_id
  write_optional_candidate (candidate report pair.local_candidate_id)
  write_optional_candidate (candidate report pair.remote_candidate_id)
  write_u64 pair.packets_sent
  write_u64 pair.packets_received
  write_u64 pair.bytes_sent
  write_u64 pair.bytes_received
  write_f64 pair.current_round_trip_time
  write_f64 pair.total_round_trip_time
  write_u64 pair.requests_sent
  write_u64 pair.requests_received
  write_u64 pair.responses_sent
  write_u64 pair.responses_received
  write_string pair.state.text
  push (byteOf pair.nominated)

/-- The pair that the transport names, when the report has it as a pair. -/
def selectedPair (report : RTCStatsReport) (transport : RTCTransportStats) :
    Option RTCIceCandidatePairStats :=
  match report.get transport.selected_candidate_pair_id with
  | some (.iceCandidatePair pair) => some pair
  | _ => none

def write_selected_pair (report : RTCStatsReport) (transport : RTCTransportStats) :
    StatsWriter Unit :=
  match selectedPair report transport with
  | some pair => write_pair report pair
  | none => push 0

def write_channel (channel : RTCDataChannelStats) : StatsWriter Unit := do
  write_u16 channel.data_channel_identifier
  write_string channel.label
  write_string channel.protocol
  write_string channel.state.text
  write_u32 channel.messages_sent
  write_u64 channel.bytes_sent
  write_u32 channel.messages_received
  write_u64 channel.bytes_received

def dataChannels (report : RTCStatsReport) : List RTCDataChannelStats :=
  report.iter.filterMap (·.dataChannel?)

def write_channels (channels : List RTCDataChannelStats) : StatsWriter Unit := do
  if channels.length < 2^32 then
    write_u32 (UInt32.ofNat channels.length)
    channels.forM write_channel
  else
    throw "Too many DataChannel stats entries"

/-- The result of `SystemTime::now().duration_since(UNIX_EPOCH)`: milliseconds, or the text of
the error of a clock before the epoch. -/
abbrev Clock := Except String ℕ

/-- `u64::try_from(timestamp).unwrap_or(u64::MAX)`. -/
def timestampOf (millis : ℕ) : UInt64 := UInt64.ofNat (min millis (2^64-1))

def write_timestamp (now : Clock) : StatsWriter Unit :=
  match now with
  | .ok millis => write_u64 (timestampOf millis)
  | .error error => throw ("The system clock is before the Unix epoch: " ++ error)

def write_transport (report : RTCStatsReport) (transport : RTCTransportStats) :
    StatsWriter Unit := do
  write_u64 transport.packets_sent
  write_u64 transport.packets_received
  write_u64 transport.bytes_sent
  write_u64 transport.bytes_received
  write_string transport.ice_role.text
  write_string transport.ice_state.text
  write_string transport.dtls_role.text
  write_string transport.dtls_state.text
  write_string transport.tls_version
  write_string transport.dtls_cipher
  write_u32 transport.selected_candidate_pair_changes
  write_selected_pair report transport

def write_report (now : Clock) (report : RTCStatsReport) (peer : RTCPeerConnectionStats)
    (transport : RTCTransportStats) : StatsWriter Unit := do
  write_u32 2
  write_timestamp now
  write_u64 peer.data_channels_opened.toUInt64
  write_u64 peer.data_channels_closed.toUInt64
  write_transport report transport
  write_channels (dataChannels report)

def encode_stats (now : Clock) (report : RTCStatsReport) : Except String (List UInt8) :=
  match report.peer_connection with
  | none => .error "The native stats report has no peer connection entry"
  | some peer =>
    match report.transport with
    | none => .error "The native stats report has no transport entry"
    | some transport => (write_report now report peer transport []).map Prod.snd

end Kestara.Wire
