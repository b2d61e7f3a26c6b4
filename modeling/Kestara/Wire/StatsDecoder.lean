import Kestara.Models
import Kestara.Wire.StatsReport

/-!
# Decoding of a stats report

`StatsDecoder` of the Kotlin library. A reader holds the bytes from its offset on.
-/
namespace Kestara.Wire
open Codec

/-- An exception that ends `StatsDecoder.decode`, with the cause it wraps. -/
structure WebRtcException where
  message : String
  cause : Option String := none
  deriving DecidableEq, Repr

/-- What the body of `decode` can throw. -/
inductive StatsFailure
  | webRtc (message : String)
  | illegalArgument (message : String)
  | indexOutOfBounds
  deriving DecidableEq, Repr

abbrev BigEndianReader := Codec.Reader StatsFailure

namespace BigEndianReader

def require (condition : Bool) (message : String) : BigEndianReader Unit :=
  if condition then pure () else throw (.illegalArgument message)

def requireRemaining (count : ℕ) : BigEndianReader Unit := do
  require (count ≤ (← remaining)) "Native stats ended unexpectedly"

/-- `data[offset++]`, or the bytes of a range of the array. -/
def take (count : ℕ) : BigEndianReader (List UInt8) := fetch .indexOutOfBounds count

def readByte : BigEndianReader UInt8 := do
  requireRemaining 1
  return (← take 1).headD 0

def readBoolean : BigEndianReader Bool := do
  return (← readByte) ≠ 0

/-- Both bytes are shifted into an `Int`, of which `toShort` keeps the low half. -/
def readShort : BigEndianReader (BitVec 16) := do
  requireRemaining 2
  return ((← take 2).foldl Endian.shiftIn (0 : BitVec 32)).setWidth 16

def readInt : BigEndianReader (BitVec 32) := do
  requireRemaining 4
  return (← take 4).foldl Endian.shiftIn 0

def readLong : BigEndianReader (BitVec 64) := do
  requireRemaining 8
  return (← take 8).foldl Endian.shiftIn 0

def readString : BigEndianReader String := do
  let size := (← readInt).toInt
  require (0 ≤ size ∧ size ≤ (← remaining)) "Invalid native stats string length"
  return Utf8.decode (← take size.toNat)

/-- `if (readBoolean()) read() else null`. -/
def readOptional {α : Type} (read : BigEndianReader α) : BigEndianReader (Option α) := do
  if ← readBoolean then return some (← read) else return none

def readCandidate : BigEndianReader IceCandidateStats := do
  let id ← readString
  let address ← readString
  let port ← readShort
  let protocol ← readString
  let candidateType ← readString
  let priority ← readInt
  let url ← readString
  let relayProtocol ← readString
  let foundation ← readString
  let relatedAddress ← readString
  let relatedPort ← readShort
  let usernameFragment ← readString
  let tcpType ← readString
  return { id,address,port := port.toNat,protocol,candidateType,priority := priority.toNat,url,
           relayProtocol,foundation,relatedAddress,relatedPort := relatedPort.toNat,
           usernameFragment,tcpType }

def readPair : BigEndianReader IceCandidatePairStats := do
  let id ← readString
  let localCandidateId ← readString
  let remoteCandidateId ← readString
  let localCandidate ← readOptional readCandidate
  let remoteCandidate ← readOptional readCandidate
  let packetsSent ← readLong
  let packetsReceived ← readLong
  let bytesSent ← readLong
  let bytesReceived ← readLong
  let currentRoundTripTimeSeconds ← readLong
  let totalRoundTripTimeSeconds ← readLong
  let requestsSent ← readLong
  let requestsReceived ← readLong
  let responsesSent ← readLong
  let responsesReceived ← readLong
  let state ← readString
  let nominated ← readBoolean
  return { id,localCandidateId,remoteCandidateId,localCandidate,remoteCandidate,
           packetsSent := packetsSent.toInt,packetsReceived := packetsReceived.toInt,
           bytesSent := bytesSent.toInt,bytesReceived := bytesReceived.toInt,
           currentRoundTripTimeSeconds := ⟨currentRoundTripTimeSeconds⟩,
           totalRoundTripTimeSeconds := ⟨totalRoundTripTimeSeconds⟩,
           requestsSent := requestsSent.toInt,requestsReceived := requestsReceived.toInt,
           responsesSent := responsesSent.toInt,responsesReceived := responsesReceived.toInt,
           state,nominated }

def readTransport : BigEndianReader TransportStats := do
  let packetsSent ← readLong
  let packetsReceived ← readLong
  let bytesSent ← readLong
  let bytesReceived ← readLong
  let iceRole ← readString
  let iceState ← readString
  let dtlsRole ← readString
  let dtlsState ← readString
  let tlsVersion ← readString
  let dtlsCipher ← readString
  let selectedCandidatePairChanges ← readInt
  let selectedCandidatePair ← readOptional readPair
  return { packetsSent := packetsSent.toInt,packetsReceived := packetsReceived.toInt,
           bytesSent := bytesSent.toInt,bytesReceived := bytesReceived.toInt,
           iceRole,iceState,dtlsRole,dtlsState,tlsVersion,dtlsCipher,
           selectedCandidatePairChanges := selectedCandidatePairChanges.toNat,
           selectedCandidatePair }

def readChannel : BigEndianReader DataChannelStats := do
  let identifier ← readShort
  let label ← readString
  let protocol ← readString
  let state ← readString
  let messagesSent ← readInt
  let bytesSent ← readLong
  let messagesReceived ← readInt
  let bytesReceived ← readLong
  return { identifier := identifier.toNat,label,protocol,state,messagesSent := messagesSent.toNat,
           bytesSent := bytesSent.toInt,messagesReceived := messagesReceived.toNat,
           bytesReceived := bytesReceived.toInt }

def readChannels : BigEndianReader (List DataChannelStats) := do
  let channelCount := (← readInt).toInt
  require (0 ≤ channelCount ∧ channelCount ≤ 65535) "Invalid native DataChannel stats count"
  readMany readChannel channelCount.toNat

end BigEndianReader
open BigEndianReader

namespace StatsDecoder

def FORMAT_VERSION : ℤ := 2

def checkVersion (version : ℤ) : BigEndianReader Unit :=
  if version = FORMAT_VERSION then pure ()
  else throw (.webRtc ("Unsupported native stats format: " ++ toString version))

def readStats : BigEndianReader PeerConnectionStats := do
  let version ← readInt
  checkVersion version.toInt
  let timestamp ← readLong
  let opened ← readLong
  let closed ← readLong
  let transport ← readTransport
  let channels ← readChannels
  return ⟨⟨timestamp.toInt⟩,opened.toInt,closed.toInt,transport,channels⟩

/-- What stands inside `try`. -/
def body : BigEndianReader PeerConnectionStats := do
  let stats ← readStats
  require ((← remaining) = 0) "Native stats contain trailing data"
  return stats

def decode (data : List UInt8) : Except WebRtcException PeerConnectionStats :=
  match body data with
  | .ok (stats,_) => .ok stats
  | .error (.webRtc message) => .error { message }
  | .error (.illegalArgument message) =>
    .error { message := "Failed to decode native WebRTC stats",cause := some message }
  | .error .indexOutOfBounds =>
    .error { message := "Failed to decode native WebRTC stats",cause := some "IndexOutOfBoundsException" }

end StatsDecoder

end Kestara.Wire
