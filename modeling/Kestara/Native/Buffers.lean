import Kestara.Library.LinkedMap
import Kestara.Native.Events

/-!
# Message buffers of the JNI boundary

The buffers of runtime.rs and the event object that bridge.rs builds for the JVM. A direct buffer
is a view of a registered allocation: what it shows is what the registry holds.
-/
namespace Kestara.Native

structure NativeBufferEntry where
  data : List UInt8
  delivery_permit : Option DeliveryPermit
  deriving DecidableEq

/-- The address of the source is the allocation that the handle names. -/
structure NativeBufferView where
  handle : UInt64
  length : ℕ
  deriving DecidableEq, Repr

/-- The registry of a runtime and the next buffer handle. -/
structure Buffers where
  next_buffer_handle : UInt64 := 1
  buffers : LinkedMap UInt64 NativeBufferEntry := ∅
  deriving DecidableEq

def register_buffer (data : List UInt8) (delivery_permit : Option DeliveryPermit) (b : Buffers) :
    NativeBufferView × Buffers :=
  let handle := b.next_buffer_handle
  ({ handle,length := data.length },
    { next_buffer_handle := handle+1
      buffers := b.buffers.insert handle { data,delivery_permit } })

def register_delivery_buffer (data : Option (List UInt8)) (permit : DeliveryPermit) (b : Buffers) :
    NativeBufferView × Buffers :=
  register_buffer (data.getD []) (some permit) b

def release_buffer (buffer_handle : UInt64) (b : Buffers) : Buffers :=
  { b with buffers := b.buffers.erase buffer_handle }

/-- The bytes that a direct buffer shows. -/
def NativeBufferView.bytes (view : NativeBufferView) (b : Buffers) : List UInt8 :=
  (((b.buffers.lookup view.handle).map (·.data)).getD []).take view.length

/-- `jlong::try_from(value).unwrap_or_default()`. -/
def handle_to_jlong (value : UInt64) : ℤ := if value.toNat < 2^63 then value.toNat else 0

structure JvmNativeEvent where
  kind : ℤ
  peerHandle : ℤ
  channelHandle : ℤ
  operationHandle : ℤ
  text : Option String
  secondaryText : Option String
  number : ℤ
  data : Option (List UInt8)
  messageHandle : ℤ
  directData : Option NativeBufferView
  deriving DecidableEq, Repr

/-- The part of `nativePollRuntimeEvent` that follows the poll. -/
def jvmNativeEvent (event : NativeEvent) (data : Option (List UInt8)) (messageHandle : ℤ)
    (directData : Option NativeBufferView) : JvmNativeEvent where
  kind := event.kind.toInt
  peerHandle := handle_to_jlong event.peer_handle
  channelHandle := handle_to_jlong event.channel_handle
  operationHandle := handle_to_jlong event.operation_handle
  text := event.text
  secondaryText := event.secondary_text
  number := event.number.toInt
  data := data
  messageHandle := messageHandle
  directData := directData

def nativePollRuntimeEvent (received : Received) (b : Buffers) : Option JvmNativeEvent × Buffers :=
  match poll received with
  | none => (none,b)
  | some event =>
    match event.delivery_permit with
    | none => (some (jvmNativeEvent event event.data 0 none),b)
    | some permit =>
      let (view,b) := register_delivery_buffer event.data permit b
      let directData := if event.kind = DATA_CHANNEL_BINARY then some view else none
      (some (jvmNativeEvent event none (handle_to_jlong view.handle) directData),b)

end Kestara.Native
