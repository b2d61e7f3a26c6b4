import Kestara.Library.Endian

/-!
# Public data types of the Kotlin library

Enumerations are inductive types whose order is the ordinal order of the source. A data
class with an `init` block carries what the block requires as a field, so that a value
the constructor would reject cannot be built.
-/
namespace Kestara

inductive DataChannelState
  | connecting | open | closing | closed
  deriving DecidableEq, Repr

inductive PeerConnectionState
  | new | connecting | connected | disconnected | failed | closed
  deriving DecidableEq, Repr

inductive IceConnectionState
  | new | checking | connected | completed | disconnected | failed | closed
  deriving DecidableEq, Repr

inductive IceGatheringState
  | new | gathering | complete
  deriving DecidableEq, Repr

inductive SignalingState
  | unspecified | stable | haveLocalOffer | haveRemoteOffer | haveLocalPranswer
  | haveRemotePranswer | closed
  deriving DecidableEq, Repr

inductive SessionDescriptionType
  | offer | answer | pranswer | rollback
  deriving DecidableEq, Repr

def PeerConnectionState.values : List PeerConnectionState :=
  [.new,.connecting,.connected,.disconnected,.failed,.closed]

def IceConnectionState.values : List IceConnectionState :=
  [.new,.checking,.connected,.completed,.disconnected,.failed,.closed]

def IceGatheringState.values : List IceGatheringState := [.new,.gathering,.complete]

def SignalingState.values : List SignalingState :=
  [.unspecified,.stable,.haveLocalOffer,.haveRemoteOffer,.haveLocalPranswer,.haveRemotePranswer,
    .closed]

/-- `List.getOrNull`: an index outside the list gives null. -/
def getOrNull {α : Type*} (values : List α) (ordinal : ℤ) : Option α :=
  if 0 ≤ ordinal then values[ordinal.toNat]? else none

structure SessionDescription where
  sdp : String
  type : SessionDescriptionType
  deriving DecidableEq, Repr

structure IceCandidate where
  candidate : String
  sdpMid : Option String := none
  sdpMLineIndex : Option ℤ := none
  index_nonneg : ∀ n ∈ sdpMLineIndex, 0 ≤ n
  deriving DecidableEq, Repr

/-- A bound the source writes `maxPacketLifeTime == null || maxPacketLifeTime in 0..65_535`. -/
def OptionalU16 (v : Option ℤ) : Prop := ∀ n ∈ v, 0 ≤ n ∧ n ≤ 65535

structure DataChannelOptions where
  ordered : Bool := true
  maxPacketLifeTime : Option ℤ := none
  maxRetransmits : Option ℤ := none
  protocol : String := ""
  negotiatedId : Option ℤ := none
  lifeTime_range : OptionalU16 maxPacketLifeTime
  retransmits_range : OptionalU16 maxRetransmits
  negotiatedId_range : OptionalU16 negotiatedId
  not_both : maxPacketLifeTime = none ∨ maxRetransmits = none

/-- `DataChannelOptions()`. -/
def DataChannelOptions.defaults : DataChannelOptions where
  lifeTime_range := by simp [OptionalU16]
  retransmits_range := by simp [OptionalU16]
  negotiatedId_range := by simp [OptionalU16]
  not_both := .inl rfl

inductive DataChannelMessage
  | text (value : String)
  | binary (data : List UInt8)
  deriving DecidableEq, Repr

inductive DataChannelEvent
  | open
  | closing
  | closed
  | error (message : String)
  | bufferedAmountLow
  | bufferedAmountHigh
  deriving DecidableEq, Repr

/-- A double-precision number, known by its bits. -/
structure Double where
  bits : BitVec 64
  deriving DecidableEq, Repr

structure Instant where
  epochMilliseconds : ℤ
  deriving DecidableEq, Repr

structure DataChannelStats where
  identifier : ℤ
  label : String
  protocol : String
  state : String
  messagesSent : ℤ
  bytesSent : ℤ
  messagesReceived : ℤ
  bytesReceived : ℤ
  deriving DecidableEq, Repr

structure IceCandidateStats where
  id : String
  address : String
  port : ℤ
  protocol : String
  candidateType : String
  priority : ℤ
  url : String
  relayProtocol : String
  foundation : String
  relatedAddress : String
  relatedPort : ℤ
  usernameFragment : String
  tcpType : String
  deriving DecidableEq, Repr

structure IceCandidatePairStats where
  id : String
  localCandidateId : String
  remoteCandidateId : String
  localCandidate : Option IceCandidateStats
  remoteCandidate : Option IceCandidateStats
  packetsSent : ℤ
  packetsReceived : ℤ
  bytesSent : ℤ
  bytesReceived : ℤ
  currentRoundTripTimeSeconds : Double
  totalRoundTripTimeSeconds : Double
  requestsSent : ℤ
  requestsReceived : ℤ
  responsesSent : ℤ
  responsesReceived : ℤ
  state : String
  nominated : Bool
  deriving DecidableEq, Repr

structure TransportStats where
  packetsSent : ℤ
  packetsReceived : ℤ
  bytesSent : ℤ
  bytesReceived : ℤ
  iceRole : String
  iceState : String
  dtlsRole : String
  dtlsState : String
  tlsVersion : String
  dtlsCipher : String
  selectedCandidatePairChanges : ℤ
  selectedCandidatePair : Option IceCandidatePairStats
  deriving DecidableEq, Repr

structure PeerConnectionStats where
  timestamp : Instant
  dataChannelsOpened : ℤ
  dataChannelsClosed : ℤ
  transport : TransportStats
  dataChannels : List DataChannelStats
  deriving DecidableEq, Repr

/-- An event as Kotlin sees it, on both platforms. -/
structure NativeEvent where
  kind : ℤ
  peerHandle : ℤ := 0
  channelHandle : ℤ := 0
  operationHandle : ℤ := 0
  text : Option String := none
  secondaryText : Option String := none
  number : ℤ := 0
  data : Option (List UInt8) := none
  deriving DecidableEq, Repr

inductive NativeEventKind
  | localCandidate | peerState | iceConnectionState | iceGatheringState | dataChannel
  | dataChannelOpen | dataChannelClosing | dataChannelClosed | dataChannelError
  | dataChannelText | dataChannelBinary | operationComplete | dataChannelBufferedAmountLow
  | dataChannelBufferedAmountHigh | negotiationNeeded | signalingState
  deriving DecidableEq, Repr

/-- The number by which the kind crosses the native boundary. -/
def NativeEventKind.number : NativeEventKind → ℤ
  | .localCandidate => 1
  | .peerState => 2
  | .iceConnectionState => 3
  | .iceGatheringState => 4
  | .dataChannel => 5
  | .dataChannelOpen => 6
  | .dataChannelClosing => 7
  | .dataChannelClosed => 8
  | .dataChannelError => 9
  | .dataChannelText => 10
  | .dataChannelBinary => 11
  | .operationComplete => 12
  | .dataChannelBufferedAmountLow => 13
  | .dataChannelBufferedAmountHigh => 14
  | .negotiationNeeded => 15
  | .signalingState => 16

def NativeEventKind.all : List NativeEventKind :=
  [.localCandidate,.peerState,.iceConnectionState,.iceGatheringState,.dataChannel,
    .dataChannelOpen,.dataChannelClosing,.dataChannelClosed,.dataChannelError,.dataChannelText,
    .dataChannelBinary,.operationComplete,.dataChannelBufferedAmountLow,
    .dataChannelBufferedAmountHigh,.negotiationNeeded,.signalingState]

/-- The kind of an event, if its number names one. -/
def NativeEvent.kind? (e : NativeEvent) : Option NativeEventKind :=
  NativeEventKind.all.find? (fun k => k.number = e.kind)

/-- The properties of a DataChannel object that its constructor fixes. -/
structure ChannelInfo where
  id : ℤ
  label : String
  protocol : String
  ordered : Bool
  negotiated : Bool
  maxPacketLifeTime : Option ℤ
  maxRetransmits : Option ℤ
  deriving DecidableEq, Repr

structure ChannelMetadata where
  negotiated : Bool
  maxPacketLifeTime : Option ℤ
  maxRetransmits : Option ℤ
  deriving DecidableEq, Repr

/-- A little-endian 32-bit two's complement integer at a byte offset. -/
def intAt (data : List UInt8) (offset : ℕ) : ℤ :=
  Endian.signed 32 (Endian.leNat ((data.drop offset).take 4))

/-- `none` is the failed `require` on the size of the metadata. -/
def decodeChannelMetadata (data : Option (List UInt8)) : Option ChannelMetadata :=
  match data with
  | none => none
  | some data =>
    if data.length = 9 then
      some { negotiated := data.head? ≠ some 0
             maxPacketLifeTime := if 0 ≤ intAt data 1 then some (intAt data 1) else none
             maxRetransmits := if 0 ≤ intAt data 5 then some (intAt data 5) else none }
    else none

/-- The bits of a 32-bit two's complement number. -/
def intBits (n : ℤ) : ℕ := (n % 2^32).toNat

/-- What `registerRemoteDataChannel` reads from a DATA_CHANNEL event: the properties of
the channel and whether it is initially open. -/
def remoteChannelInfo (e : NativeEvent) : Option (ChannelInfo × Bool) :=
  (decodeChannelMetadata e.data).map fun metadata =>
    ({ id := (intBits e.number / 4 : ℕ)
       label := e.text.getD ""
       protocol := e.secondaryText.getD ""
       ordered := intBits e.number % 2 ≠ 0
       negotiated := metadata.negotiated
       maxPacketLifeTime := metadata.maxPacketLifeTime
       maxRetransmits := metadata.maxRetransmits },
     intBits e.number / 2 % 2 ≠ 0)

end Kestara
