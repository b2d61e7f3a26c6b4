import Kestara.Native.Buffers
import Kestara.Wire.EventExact

/-!
# Transport of events to Kotlin

Both ways of an event: as bytes through the C boundary, and as an object of the JNI boundary, with
the data of a message in a registered buffer that is released once it has been copied.
-/
namespace Kestara.Wire

/-- The event with its fields as Kotlin holds them. -/
def kotlinEvent (e : Native.NativeEvent) : NativeEvent where
  kind := e.kind.toInt
  peerHandle := e.peer_handle.toNat
  channelHandle := e.channel_handle.toNat
  operationHandle := e.operation_handle.toNat
  text := e.text
  secondaryText := e.secondary_text
  number := e.number.toInt
  data := e.data

/-- An event that the native library can queue for Kotlin. -/
structure Queued (e : Native.NativeEvent) : Prop where
  kind : e.kind ≠ Native.WAKE
  peer_handle : e.peer_handle.toNat < 2^63
  channel_handle : e.channel_handle.toNat < 2^63
  operation_handle : e.operation_handle.toNat < 2^63
  text : e.kind = Native.DATA_CHANNEL_TEXT → e.delivery_permit.isSome ∧ e.data = none
  binary : e.kind = Native.DATA_CHANNEL_BINARY → e.delivery_permit.isSome ∧ e.data.isSome
  others : e.kind ≠ Native.DATA_CHANNEL_TEXT → e.kind ≠ Native.DATA_CHANNEL_BINARY →
    e.delivery_permit = none
  size : (Native.encode_event e).length < 2^31

namespace JvmNativeBridge
open Native

def nativeReleaseBuffer (messageHandle : ℤ) (b : Buffers) : Buffers :=
  release_buffer (UInt64.ofNat messageHandle.toNat) b

def pollRuntimeEvent (received : Received) (b : Buffers) : Option Kestara.NativeEvent × Buffers :=
  match nativePollRuntimeEvent received b with
  | (none,b) => (none,b)
  | (some event,b) =>
    let copiedData := (event.directData.map (·.bytes b)).or event.data
    (some { kind := event.kind
            peerHandle := event.peerHandle
            channelHandle := event.channelHandle
            operationHandle := event.operationHandle
            text := event.text
            secondaryText := event.secondaryText
            number := event.number
            data := copiedData },
      if event.messageHandle ≠ 0 then nativeReleaseBuffer event.messageHandle b else b)

end JvmNativeBridge

namespace NativeNativeBridge
open Native

inductive PollFailure
  | negativeArraySize
  | decoding (failure : EventFailure)
  deriving DecidableEq, Repr

/-- What `kestara_runtime_poll` writes to its output. -/
def kestara_runtime_poll (received : Received) : List UInt8 :=
  (poll received).elim [] encode_event

/-- `readBytes(value.length.toInt())`, or no bytes for a null pointer. -/
def takeOwnedBytes (value : List UInt8) : Except PollFailure (List UInt8) :=
  let length := (BitVec.ofNat 32 value.length).toInt
  if length < 0 then .error .negativeArraySize else .ok (value.take length.toNat)

def pollRuntimeEvent (received : Received) : Except PollFailure (Option Kestara.NativeEvent) := do
  let bytes ← takeOwnedBytes (kestara_runtime_poll received)
  if bytes = [] then return none
  match NativeEventDecoder.decode bytes with
  | .ok event => return some event
  | .error failure => throw (.decoding failure)

end NativeNativeBridge

section Encoding

lemma encode_event_ne_nil (e : Native.NativeEvent) : Native.encode_event e ≠ [] := by
  simp [Native.encode_event]

/-- A field as long as an `Int` cannot say makes the whole encoding too long. -/
lemma fitsInt_of_encode {o : Option (List UInt8)} (h : (Native.encode_optional o).length < 2^31) :
    FitsInt o := by
  intro bytes hb
  cases hb
  simp only [Native.encode_optional,List.length_append,Endian.length_leBytes,List.length_take,
    Native.i32Length] at h
  omega

lemma toInt_handle {h : UInt64} (hh : h.toNat < 2^63) : h.toBitVec.toInt = h.toNat := by
  rw [BitVec.toInt_eq_toNat_cond,UInt64.toNat_toBitVec]
  split_ifs <;> omega

lemma Queued.fits {e : Native.NativeEvent} (h : Queued e) {o : Option (List UInt8)}
    (ho : o ∈ [e.text.map Utf8.encode,e.secondary_text.map Utf8.encode,e.data]) : FitsInt o := by
  apply fitsInt_of_encode
  have hs := h.size
  simp only [Native.encode_event,List.length_append] at hs
  simp only [List.mem_cons,List.not_mem_nil,or_false] at ho
  obtain rfl | rfl | rfl := ho <;> omega

/-- The fields of a queued event. -/
def Queued.fields {e : Native.NativeEvent} (h : Queued e) : EventFields where
  kind := e.kind
  peerHandle := e.peer_handle.toBitVec
  channelHandle := e.channel_handle.toBitVec
  operationHandle := e.operation_handle.toBitVec
  number := e.number
  text := e.text.map Utf8.encode
  secondaryText := e.secondary_text.map Utf8.encode
  data := e.data
  text_fits := h.fits (by simp)
  secondaryText_fits := h.fits (by simp)
  data_fits := h.fits (by simp)

lemma Queued.bytes_fields {e : Native.NativeEvent} (h : Queued e) :
    h.fields.bytes = Native.encode_event e := by
  have ht := NativeEventDecoder.encode_optional_field h.fields.text_fits
  have hs := NativeEventDecoder.encode_optional_field h.fields.secondaryText_fits
  have hd := NativeEventDecoder.encode_optional_field h.fields.data_fits
  simp only [EventFields.bytes,← ht,← hs,← hd]
  rfl

lemma decode_encode_text (o : Option String) : (o.map Utf8.encode).map Utf8.decode = o := by
  cases o with
  | none => rfl
  | some s => simp [Utf8.decode_encode]

lemma Queued.event_fields {e : Native.NativeEvent} (h : Queued e) :
    h.fields.event = kotlinEvent e := by
  simp only [EventFields.event,Queued.fields,kotlinEvent,decode_encode_text,
    toInt_handle h.peer_handle,toInt_handle h.channel_handle,toInt_handle h.operation_handle]

lemma decode_encode_event {e : Native.NativeEvent} (h : Queued e) :
    NativeEventDecoder.decode (Native.encode_event e) = .ok (kotlinEvent e) := by
  rw [NativeEventDecoder.decode_ok_iff]
  exact ⟨h.fields,h.bytes_fields.symm,h.event_fields.symm⟩

end Encoding

section Routes

lemma jlong_handle {h : UInt64} (hh : h.toNat < 2^63) : Native.handle_to_jlong h = h.toNat := by
  rw [Native.handle_to_jlong,if_pos hh]

/-- What a buffer shows right after its registration. -/
lemma bytes_register (data : List UInt8) (permit : Option Native.DeliveryPermit)
    (b : Native.Buffers) :
    (Native.register_buffer data permit b).1.bytes (Native.register_buffer data permit b).2 =
      data := by
  simp [Native.register_buffer,Native.NativeBufferView.bytes,LinkedMap.lookup_insert]

lemma jvm_poll_some {received : Native.Received} {e : Native.NativeEvent} (b : Native.Buffers)
    (hp : Native.poll received = some e) (h : Queued e) :
    (JvmNativeBridge.pollRuntimeEvent received b).1 = some (kotlinEvent e) := by
  have h₁ := jlong_handle h.peer_handle
  have h₂ := jlong_handle h.channel_handle
  have h₃ := jlong_handle h.operation_handle
  cases hd : e.delivery_permit with
  | none =>
    simp [JvmNativeBridge.pollRuntimeEvent,Native.nativePollRuntimeEvent,hp,hd,
      Native.jvmNativeEvent,kotlinEvent,h₁,h₂,h₃]
  | some permit =>
    have hkind : e.kind = Native.DATA_CHANNEL_TEXT ∨ e.kind = Native.DATA_CHANNEL_BINARY := by
      by_contra hn
      rw [not_or] at hn
      rw [h.others hn.1 hn.2] at hd
      cases hd
    obtain hk | hk := hkind
    · obtain ⟨-,hdata⟩ := h.text hk
      have hne : e.kind ≠ Native.DATA_CHANNEL_BINARY := by
        rw [hk]
        decide
      simp [JvmNativeBridge.pollRuntimeEvent,Native.nativePollRuntimeEvent,hp,hd,
        Native.jvmNativeEvent,kotlinEvent,h₁,h₂,h₃,hne,hdata]
    · obtain ⟨-,hdata⟩ := h.binary hk
      obtain ⟨data,hdata⟩ := Option.isSome_iff_exists.mp hdata
      have hbytes := bytes_register data (some permit) b
      simp [JvmNativeBridge.pollRuntimeEvent,Native.nativePollRuntimeEvent,hp,hd,
        Native.jvmNativeEvent,kotlinEvent,h₁,h₂,h₃,hk,hdata,Native.register_delivery_buffer,hbytes]

lemma jvm_poll_none {received : Native.Received} (b : Native.Buffers)
    (hp : Native.poll received = none) :
    (JvmNativeBridge.pollRuntimeEvent received b).1 = none := by
  simp [JvmNativeBridge.pollRuntimeEvent,Native.nativePollRuntimeEvent,hp]

lemma takeOwnedBytes_of_lt {value : List UInt8} (h : value.length < 2^31) :
    NativeNativeBridge.takeOwnedBytes value = .ok value := by
  have hval : (BitVec.ofNat 32 value.length).toInt = value.length := by
    rw [BitVec.toInt_eq_toNat_cond,BitVec.toNat_ofNat,Nat.mod_eq_of_lt (by omega)]
    split_ifs <;> omega
  simp [NativeNativeBridge.takeOwnedBytes,hval]

lemma native_poll_some {received : Native.Received} {e : Native.NativeEvent}
    (hp : Native.poll received = some e) (h : Queued e) :
    NativeNativeBridge.pollRuntimeEvent received = .ok (some (kotlinEvent e)) := by
  have hpoll : NativeNativeBridge.kestara_runtime_poll received = Native.encode_event e := by
    simp [NativeNativeBridge.kestara_runtime_poll,hp]
  unfold NativeNativeBridge.pollRuntimeEvent
  rw [hpoll,takeOwnedBytes_of_lt h.size]
  simp only [Bind.bind,Except.bind]
  rw [if_neg (encode_event_ne_nil e),decode_encode_event h]
  rfl

lemma native_poll_none {received : Native.Received} (hp : Native.poll received = none) :
    NativeNativeBridge.pollRuntimeEvent received = .ok none := by
  have hpoll : NativeNativeBridge.kestara_runtime_poll received = [] := by
    simp [NativeNativeBridge.kestara_runtime_poll,hp]
  unfold NativeNativeBridge.pollRuntimeEvent
  rw [hpoll,takeOwnedBytes_of_lt (by simp)]
  rfl

lemma poll_none_iff (received : Native.Received) :
    Native.poll received = none ↔ received = .timeout ∨ received = .disconnected ∨
      ∃ e, received = .event e ∧ e.kind = Native.WAKE := by
  cases received with
  | timeout => simp [Native.poll]
  | disconnected => simp [Native.poll]
  | event e => simp [Native.poll]

end Routes

/-- Whatever is received, both boundaries give Kotlin the polled event with each of its fields, and
the bytes of an event are never empty, so that null stands for no event only. -/
theorem transport_of_queued (received : Native.Received) (b : Native.Buffers)
    (h : ∀ e, Native.poll received = some e → Queued e) :
    (∀ e, Native.poll received = some e →
      NativeEventDecoder.decode (Native.encode_event e) = .ok (kotlinEvent e)) ∧
    (JvmNativeBridge.pollRuntimeEvent received b).1 = (Native.poll received).map kotlinEvent ∧
    NativeNativeBridge.pollRuntimeEvent received = .ok ((Native.poll received).map kotlinEvent) ∧
    (∀ e, Native.encode_event e ≠ []) ∧
    (NativeNativeBridge.pollRuntimeEvent received = .ok none ↔ Native.poll received = none) ∧
    (Native.poll received = none ↔ received = .timeout ∨ received = .disconnected ∨
      ∃ e, received = .event e ∧ e.kind = Native.WAKE) := by
  refine ⟨fun e he => decode_encode_event (h e he),?_,?_,encode_event_ne_nil,?_,
    poll_none_iff received⟩
  · cases hp : Native.poll received with
    | none => exact jvm_poll_none b hp
    | some e => exact jvm_poll_some b hp (h e hp)
  · cases hp : Native.poll received with
    | none => exact native_poll_none hp
    | some e => exact native_poll_some hp (h e hp)
  · cases hp : Native.poll received with
    | none => simp [native_poll_none hp]
    | some e => simp [native_poll_some hp (h e hp)]

/-- A binary message without bytes. -/
def emptyMessage : Native.NativeEvent where
  kind := Native.DATA_CHANNEL_BINARY
  peer_handle := 1
  channel_handle := 2
  operation_handle := 0
  text := none
  secondary_text := some ""
  number := -1
  data := some []
  delivery_permit := some ⟨1⟩

lemma queued_emptyMessage : Queued emptyMessage where
  kind := by decide
  peer_handle := by decide
  channel_handle := by decide
  operation_handle := by decide
  text := by decide
  binary := by decide
  others := by decide
  size := by decide

theorem transport_emptyMessage :
    NativeEventDecoder.decode (Native.encode_event emptyMessage) = .ok (kotlinEvent emptyMessage) ∧
      (JvmNativeBridge.pollRuntimeEvent (.event emptyMessage) {}).1 =
        some (kotlinEvent emptyMessage) ∧
      NativeNativeBridge.pollRuntimeEvent (.event emptyMessage) =
        .ok (some (kotlinEvent emptyMessage)) ∧ (kotlinEvent emptyMessage).data = some [] := by
  have h := transport_of_queued (.event emptyMessage) {} fun e he => by
    cases he
    exact queued_emptyMessage
  exact ⟨h.1 emptyMessage rfl,h.2.1,h.2.2.1,rfl⟩

end Kestara.Wire
