import Kestara.Library.Endian
import Kestara.Library.Utf8

/-!
# Events of the native library

The event type of events.rs and the bytes by which c_bridge.rs hands an event to Kotlin/Native.
-/
namespace Kestara.Native

/-- A permit of the delivery semaphore of one channel, known by the channel. -/
structure DeliveryPermit where
  slots : ℕ
  deriving DecidableEq, Repr

/-- An `i32` is known by its bits. -/
structure NativeEvent where
  kind : BitVec 32
  peer_handle : UInt64
  channel_handle : UInt64
  operation_handle : UInt64
  text : Option String
  secondary_text : Option String
  number : BitVec 32
  data : Option (List UInt8)
  delivery_permit : Option DeliveryPermit
  deriving DecidableEq, Repr

def WAKE : BitVec 32 := 0

def DATA_CHANNEL : BitVec 32 := 5

def DATA_CHANNEL_OPEN : BitVec 32 := 6

def DATA_CHANNEL_CLOSING : BitVec 32 := 7

def DATA_CHANNEL_CLOSED : BitVec 32 := 8

def DATA_CHANNEL_ERROR : BitVec 32 := 9

def DATA_CHANNEL_TEXT : BitVec 32 := 10

def DATA_CHANNEL_BINARY : BitVec 32 := 11

def DATA_CHANNEL_BUFFERED_AMOUNT_LOW : BitVec 32 := 13

def DATA_CHANNEL_BUFFERED_AMOUNT_HIGH : BitVec 32 := 14

/-- What `recv_timeout` gives. -/
inductive Received
  | event (e : NativeEvent)
  | timeout
  | disconnected
  deriving DecidableEq, Repr

/-- `events::poll`. -/
def poll (received : Received) : Option NativeEvent :=
  match received with
  | .event e => if e.kind ≠ WAKE then some e else none
  | .timeout | .disconnected => none

/-- What `register_channel` reads from a channel of the WebRTC library. -/
structure ChannelAttributes where
  label : String
  protocol : String
  ordered : Bool
  id : UInt16
  negotiated : Bool
  max_packet_life_time : Option UInt16
  max_retransmits : Option UInt16
  isOpen : Bool
  deriving DecidableEq, Repr

/-- `i32::from` of a flag. -/
def i32OfBool (b : Bool) : BitVec 32 := (BitVec.ofBool b).setWidth 32

/-- `i32::from` of a `u16`. -/
def i32OfU16 (v : UInt16) : BitVec 32 := v.toBitVec.setWidth 32

/-- `value.map_or(-1, i32::from)`. -/
def i32OfOptional (value : Option UInt16) : BitVec 32 := value.elim (-1) i32OfU16

def channel_metadata (negotiated : Bool) (max_packet_life_time max_retransmits : Option UInt16) :
    List UInt8 :=
  [if negotiated then 1 else 0] ++ Endian.leBytes 4 (i32OfOptional max_packet_life_time).toNat ++
    Endian.leBytes 4 (i32OfOptional max_retransmits).toNat

/-- The event by which `register_channel` announces a channel of the remote side. -/
def created_event (peer_handle handle : UInt64) (a : ChannelAttributes) : NativeEvent where
  kind := DATA_CHANNEL
  peer_handle := peer_handle
  channel_handle := handle
  operation_handle := 0
  text := some a.label
  secondary_text := some a.protocol
  number := i32OfBool a.ordered ||| i32OfBool a.isOpen <<< 1 ||| i32OfU16 a.id <<< 2
  data := some (channel_metadata a.negotiated a.max_packet_life_time a.max_retransmits)
  delivery_permit := none

/-- `i32::try_from(length).unwrap_or(i32::MAX)`. -/
def i32Length (length : ℕ) : ℕ := min length (2^31-1)

/-- A length and that many bytes, or -1. -/
def encode_optional (value : Option (List UInt8)) : List UInt8 :=
  match value with
  | some value =>
    Endian.leBytes 4 (i32Length value.length) ++ value.take (i32Length value.length)
  | none => Endian.leBytes 4 (-1 : BitVec 32).toNat

def encode_event (event : NativeEvent) : List UInt8 :=
  [1] ++ Endian.leBytes 4 event.kind.toNat ++ Endian.leBytes 8 event.peer_handle.toNat ++
    Endian.leBytes 8 event.channel_handle.toNat ++ Endian.leBytes 8 event.operation_handle.toNat ++
    Endian.leBytes 4 event.number.toNat ++ encode_optional (event.text.map Utf8.encode) ++
    encode_optional (event.secondary_text.map Utf8.encode) ++ encode_optional event.data

end Kestara.Native
