import Kestara.Library.Exact
import Kestara.Native.Events
import Kestara.Wire.EventDecoder

/-!
# The format of an event

What `NativeEventDecoder` accepts is exactly the layout of `encode_event`: each reader takes the
bytes of one field, and the bytes of a field are determined by what was read.
-/
namespace Kestara.Wire
open Codec LittleEndianReader

/-- A reader of the event format that stays inside the array. -/
abbrev EventReader {α : Type} (r : LittleEndianReader α) : Prop :=
  Exact EventFailure.indexOutOfBounds r

/-- The bytes of an optional field. -/
def optionalField : Option (List UInt8) → List UInt8
  | none => Endian.leBytes 4 (-1 : BitVec 32).toNat
  | some bytes => Endian.leBytes 4 bytes.length ++ bytes

/-- A length that is not negative as an `Int`. -/
def FitsInt (field : Option (List UInt8)) : Prop := ∀ bytes ∈ field, bytes.length < 2^31

/-- The fields of an event before its texts are decoded. -/
structure EventFields where
  kind : BitVec 32
  peerHandle : BitVec 64
  channelHandle : BitVec 64
  operationHandle : BitVec 64
  number : BitVec 32
  text : Option (List UInt8)
  secondaryText : Option (List UInt8)
  data : Option (List UInt8)
  text_fits : FitsInt text
  secondaryText_fits : FitsInt secondaryText
  data_fits : FitsInt data

namespace EventFields

/-- The byte 1, a 4-byte kind, three 8-byte handles, a 4-byte number, and three optional fields. -/
def bytes (f : EventFields) : List UInt8 :=
  [1] ++ Endian.leBytes 4 f.kind.toNat ++ Endian.leBytes 8 f.peerHandle.toNat ++
    Endian.leBytes 8 f.channelHandle.toNat ++ Endian.leBytes 8 f.operationHandle.toNat ++
    Endian.leBytes 4 f.number.toNat ++ optionalField f.text ++ optionalField f.secondaryText ++
    optionalField f.data

def event (f : EventFields) : NativeEvent where
  kind := f.kind.toInt
  peerHandle := f.peerHandle.toInt
  channelHandle := f.channelHandle.toInt
  operationHandle := f.operationHandle.toInt
  number := f.number.toInt
  text := f.text.map Utf8.decode
  secondaryText := f.secondaryText.map Utf8.decode
  data := f.data

end EventFields

section Readers

lemma eventRequire_run (condition : Bool) (message : String) (input : List UInt8) :
    require condition message input =
      if condition = true then .ok ((),input) else .error (.illegalArgument message) := by
  cases condition <;> rfl

lemma checks_requireAvailable (n : ℕ) :
    Checks (requireAvailable n) n (.illegalArgument "Native event ended unexpectedly") := by
  intro input
  change require (decide (n ≤ input.length)) _ input = _
  rw [eventRequire_run]
  simp

lemma eventReader_required {α : Type} (n : ℕ) (k : List UInt8 → α) :
    EventReader (do requireAvailable n; return k (← take n)) :=
  .required (checks_requireAvailable n) (by simp) k

lemma eventReader_take (n : ℕ) : EventReader (requireAvailable n >>= fun _ => take n) := by
  simpa only [id,bind_pure] using eventReader_required n id

lemma eventReader_byte : EventReader byte := eventReader_required 1 _

lemma eventReader_int : EventReader int := eventReader_required 4 _

lemma eventReader_long : EventReader long := eventReader_required 8 _

lemma eventReader_require (condition : Bool) (message : String) :
    EventReader (require condition message) := by
  cases condition with
  | false => exact .throw (by simp)
  | true => exact .pure ()

lemma eventReader_payload (length : ℤ) : EventReader (payload length) :=
  (eventReader_require _ _).bind fun _ => eventReader_take _

lemma eventReader_optional : EventReader optionalBytes := by
  refine eventReader_int.bind fun length => ?_
  exact .ite (.pure none) ((eventReader_payload _).bind fun bytes => .pure (some bytes))

end Readers

section Fields

/-- The bytes of a little-endian register. -/
lemma leBytes_of_orAt {n w : ℕ} (hw : 256^n ≤ 2^w) {bytes : List UInt8} (hn : bytes.length = n) :
    bytes = Endian.leBytes n (bytes.zipIdx.foldl Endian.orAt (0 : BitVec w)).toNat := by
  subst hn
  have hlt := Endian.leNat_lt bytes
  rw [Endian.foldl_orAt,BitVec.toNat_ofNat,Nat.mod_eq_of_lt (by omega),Endian.leBytes_leNat]

lemma orAt_leBytes {n w : ℕ} (hw : 2^w = 256^n) (v : BitVec w) :
    (Endian.leBytes n v.toNat).zipIdx.foldl Endian.orAt (0 : BitVec w) = v := by
  have hlt := v.isLt
  rw [hw] at hlt
  rw [Endian.foldl_orAt,Endian.leNat_leBytes,Nat.mod_eq_of_lt hlt,BitVec.ofNat_toNat,
    BitVec.setWidth_eq]

lemma byte_ok {input rest : List UInt8} {v : UInt8} (h : byte input = .ok (v,rest)) :
    input = [v] ++ rest := by
  obtain ⟨bytes,hl,rfl,rfl⟩ := (checks_requireAvailable _).read_ok h
  obtain ⟨b,rfl⟩ := List.length_eq_one_iff.mp hl
  rfl

lemma int_ok {input rest : List UInt8} {v : BitVec 32} (h : int input = .ok (v,rest)) :
    input = Endian.leBytes 4 v.toNat ++ rest := by
  obtain ⟨bytes,hl,rfl,rfl⟩ := (checks_requireAvailable _).read_ok h
  rw [← leBytes_of_orAt (by norm_num) hl]

lemma long_ok {input rest : List UInt8} {v : BitVec 64} (h : long input = .ok (v,rest)) :
    input = Endian.leBytes 8 v.toNat ++ rest := by
  obtain ⟨bytes,hl,rfl,rfl⟩ := (checks_requireAvailable _).read_ok h
  rw [← leBytes_of_orAt (by norm_num) hl]

lemma reads_byte (v : UInt8) : Reads byte [v] v :=
  (checks_requireAvailable 1).reads (·.headD 0) rfl

lemma reads_int (v : BitVec 32) : Reads int (Endian.leBytes 4 v.toNat) v := by
  have h : Reads int (Endian.leBytes 4 v.toNat) _ := (checks_requireAvailable 4).reads
    (·.zipIdx.foldl Endian.orAt 0) (Endian.length_leBytes 4 v.toNat)
  rwa [orAt_leBytes (by norm_num)] at h

lemma reads_long (v : BitVec 64) : Reads long (Endian.leBytes 8 v.toNat) v := by
  have h : Reads long (Endian.leBytes 8 v.toNat) _ := (checks_requireAvailable 8).reads
    (·.zipIdx.foldl Endian.orAt 0) (Endian.length_leBytes 8 v.toNat)
  rwa [orAt_leBytes (by norm_num)] at h

lemma payload_ok {length : ℤ} {input rest bytes : List UInt8}
    (h : payload length input = .ok (bytes,rest)) :
    0 ≤ length ∧ bytes.length = length.toNat ∧ input = bytes ++ rest := by
  obtain ⟨_,mid,h₁,h₂⟩ := reader_bind_ok h
  rw [eventRequire_run] at h₁
  split_ifs at h₁ with hl
  cases h₁
  have htake : (do requireAvailable length.toNat; return id (← take length.toNat)) input =
      .ok (bytes,rest) := by
    simpa only [id,bind_pure] using h₂
  obtain ⟨bytes',hlen,hin,hb⟩ := (checks_requireAvailable _).read_ok htake
  cases hb
  exact ⟨of_decide_eq_true hl,hlen,hin⟩

lemma reads_payload (bytes : List UInt8) : Reads (payload bytes.length) bytes bytes := by
  intro rest
  have htake : Reads (do requireAvailable bytes.length; return id (← take bytes.length)) bytes _ :=
    (checks_requireAvailable _).reads id rfl
  simp only [id,bind_pure] at htake
  have hcheck : require (decide (0 ≤ (bytes.length : ℤ))) "Invalid native event payload length"
      (bytes ++ rest) = .ok ((),bytes ++ rest) := by
    rw [eventRequire_run,if_pos]
    simp
  exact (reader_bind hcheck).trans (htake rest)

lemma optional_ok {input rest : List UInt8} {o : Option (List UInt8)}
    (h : optionalBytes input = .ok (o,rest)) : input = optionalField o ++ rest ∧ FitsInt o := by
  obtain ⟨v,mid,hint,h⟩ := reader_bind_ok h
  have hin := int_ok hint
  change (if v.toInt = -1 then pure none else payload v.toInt >>= fun b => pure (some b)) mid = _ at h
  split_ifs at h with hv
  · cases h
    have hone : v = -1 := BitVec.eq_of_toInt_eq hv
    subst hone
    exact ⟨hin,by simp [FitsInt]⟩
  · obtain ⟨bytes,mid',hpay,h⟩ := reader_bind_ok h
    cases h
    obtain ⟨hnonneg,hlen,rfl⟩ := payload_ok hpay
    have hlt := v.isLt
    have hval : v.toNat = bytes.length ∧ bytes.length < 2^31 := by
      rw [BitVec.toInt_eq_toNat_cond] at hnonneg hlen
      split_ifs at hnonneg hlen <;> omega
    refine ⟨?_,?_⟩
    · rw [hin,hval.1,optionalField,List.append_assoc]
    · intro b hb
      cases hb
      exact hval.2

lemma reads_optional {o : Option (List UInt8)} (ho : FitsInt o) :
    Reads optionalBytes (optionalField o) o := by
  cases o with
  | none =>
    have h := (reads_int (-1)).bind (k := fun length : BitVec 32 =>
      if length.toInt = -1 then pure none else return some (← payload length.toInt))
      (reads_pure none)
    rwa [List.append_nil] at h
  | some bytes =>
    have hlt : bytes.length < 2^31 := ho bytes rfl
    have hval : (BitVec.ofNat 32 bytes.length).toNat = bytes.length := by
      rw [BitVec.toNat_ofNat,Nat.mod_eq_of_lt (by omega)]
    have hint : (BitVec.ofNat 32 bytes.length).toInt = bytes.length := by
      rw [BitVec.toInt_eq_toNat_cond,hval]
      split_ifs <;> omega
    have hlen := reads_int (BitVec.ofNat 32 bytes.length)
    rw [hval] at hlen
    have hpay := (reads_payload bytes).bind (k := fun b => pure (some b)) (reads_pure (some bytes))
    rw [List.append_nil] at hpay
    refine hlen.bind ?_
    rw [hint,if_neg (by omega)]
    exact hpay

end Fields

namespace NativeEventDecoder

lemma eventReader_event : EventReader readEvent := by
  refine eventReader_byte.bind fun version => ?_
  refine Exact.bind (Exact.ite (.pure ()) (.throw (by simp))) fun _ => ?_
  refine eventReader_int.bind fun kind => eventReader_long.bind fun peerHandle => ?_
  refine eventReader_long.bind fun channelHandle => eventReader_long.bind fun operationHandle => ?_
  refine eventReader_int.bind fun number => eventReader_optional.bind fun text => ?_
  exact eventReader_optional.bind fun secondaryText => eventReader_optional.bind fun data => .pure _

/-- What is read is the bytes of its fields. -/
lemma readEvent_ok {input rest : List UInt8} {e : NativeEvent}
    (h : readEvent input = .ok (e,rest)) :
    ∃ f : EventFields, input = f.bytes ++ rest ∧ e = f.event := by
  obtain ⟨version,_,hversion,h⟩ := reader_bind_ok h
  obtain ⟨_,_,hcheck,h⟩ := reader_bind_ok h
  obtain ⟨kind,_,hkind,h⟩ := reader_bind_ok h
  obtain ⟨peerHandle,_,hpeer,h⟩ := reader_bind_ok h
  obtain ⟨channelHandle,_,hchannel,h⟩ := reader_bind_ok h
  obtain ⟨operationHandle,_,hoperation,h⟩ := reader_bind_ok h
  obtain ⟨number,_,hnumber,h⟩ := reader_bind_ok h
  obtain ⟨text,_,htext,h⟩ := reader_bind_ok h
  obtain ⟨secondaryText,_,hsecondary,h⟩ := reader_bind_ok h
  obtain ⟨data,_,hdata,h⟩ := reader_bind_ok h
  cases h
  have hone : version = 1 := by
    unfold checkVersion at hcheck
    split_ifs at hcheck with hv
    · exact hv
    · cases hcheck
  subst hone
  cases hcheck
  obtain ⟨htext,h₁⟩ := optional_ok htext
  obtain ⟨hsecondary,h₂⟩ := optional_ok hsecondary
  obtain ⟨hdata,h₃⟩ := optional_ok hdata
  refine ⟨⟨kind,peerHandle,channelHandle,operationHandle,number,text,secondaryText,data,h₁,h₂,h₃⟩,
    ?_,rfl⟩
  rw [byte_ok hversion,int_ok hkind,long_ok hpeer,long_ok hchannel,long_ok hoperation,
    int_ok hnumber,htext,hsecondary,hdata]
  simp only [EventFields.bytes,List.append_assoc]

lemma reads_event (f : EventFields) : Reads readEvent f.bytes f.event := by
  have hb : f.bytes = [1] ++ ([] ++ (Endian.leBytes 4 f.kind.toNat ++
      (Endian.leBytes 8 f.peerHandle.toNat ++ (Endian.leBytes 8 f.channelHandle.toNat ++
        (Endian.leBytes 8 f.operationHandle.toNat ++ (Endian.leBytes 4 f.number.toNat ++
          (optionalField f.text ++ (optionalField f.secondaryText ++
            (optionalField f.data ++ []))))))))) := by
    simp [EventFields.bytes]
  rw [hb]
  refine (reads_byte 1).bind ?_
  refine (reads_pure ()).bind ?_
  refine (reads_int f.kind).bind ?_
  refine (reads_long f.peerHandle).bind ?_
  refine (reads_long f.channelHandle).bind ?_
  refine (reads_long f.operationHandle).bind ?_
  refine (reads_int f.number).bind ?_
  refine (reads_optional f.text_fits).bind ?_
  refine (reads_optional f.secondaryText_fits).bind ?_
  refine (reads_optional f.data_fits).bind ?_
  exact reads_pure f.event

lemma body_ok {b rest : List UInt8} {e : NativeEvent} (h : body b = .ok (e,rest)) :
    readEvent b = .ok (e,[]) ∧ rest = [] := by
  obtain ⟨event,mid,h₁,h₂⟩ := reader_bind_ok h
  obtain ⟨n,mid',hn,h₃⟩ := reader_bind_ok h₂
  cases hn
  split_ifs at h₃ with hl
  · cases h₃
    have hnil : rest = [] := List.length_eq_zero_iff.mp hl
    subst hnil
    exact ⟨h₁,rfl⟩
  · cases h₃

lemma body_inside (b : List UInt8) : body b ≠ .error .indexOutOfBounds := by
  intro h
  obtain h | ⟨event,mid,-,h⟩ := reader_bind_error h
  · exact eventReader_event.inside b h
  · obtain h | ⟨n,mid',hn,h⟩ := reader_bind_error h
    · cases h
    · cases hn
      split_ifs at h <;> cases h

/-- An event is decoded exactly from the bytes of its fields. -/
lemma decode_ok_iff (b : List UInt8) (e : NativeEvent) :
    decode b = .ok e ↔ ∃ f : EventFields, b = f.bytes ∧ e = f.event := by
  constructor
  · intro h
    unfold decode at h
    split at h
    · next event rest hb =>
      cases h
      obtain ⟨hr,rfl⟩ := body_ok hb
      obtain ⟨f,hf,he⟩ := readEvent_ok hr
      rw [List.append_nil] at hf
      exact ⟨f,hf,he⟩
    · cases h
  · rintro ⟨f,rfl,rfl⟩
    have hr := reads_event f []
    rw [List.append_nil] at hr
    have hbody : body f.bytes = .ok (f.event,[]) := by
      unfold body
      rw [reader_bind hr]
      rfl
    simp only [decode,hbody]

lemma decode_inside (b : List UInt8) : decode b ≠ .error .indexOutOfBounds := by
  intro h
  unfold decode at h
  split at h
  · cases h
  · next hb =>
    cases h
    exact body_inside b hb

/-- The event as the native library would send it. -/
def toNative (e : NativeEvent) : Native.NativeEvent where
  kind := BitVec.ofInt 32 e.kind
  peer_handle := ⟨BitVec.ofInt 64 e.peerHandle⟩
  channel_handle := ⟨BitVec.ofInt 64 e.channelHandle⟩
  operation_handle := ⟨BitVec.ofInt 64 e.operationHandle⟩
  text := e.text
  secondary_text := e.secondaryText
  number := BitVec.ofInt 32 e.number
  data := e.data
  delivery_permit := none

/-- The field is absent or valid UTF-8. -/
def ValidText (field : Option (List UInt8)) : Prop :=
  ∀ bytes ∈ field, ∃ s : String, bytes = Utf8.encode s

lemma encode_optional_field {o : Option (List UInt8)} (ho : FitsInt o) :
    Native.encode_optional o = optionalField o := by
  cases o with
  | none => rfl
  | some bytes =>
    have hlt : bytes.length < 2^31 := ho bytes rfl
    have hlen : Native.i32Length bytes.length = bytes.length := by
      unfold Native.i32Length
      omega
    simp [Native.encode_optional,optionalField,hlen]

lemma encode_decode_text {o : Option (List UInt8)} (ho : ValidText o) :
    (o.map Utf8.decode).map Utf8.encode = o := by
  cases o with
  | none => rfl
  | some bytes =>
    obtain ⟨s,rfl⟩ := ho bytes rfl
    simp [Utf8.decode_encode]

/-- Encoding the decoded event gives the bytes back. -/
lemma encode_event_fields (f : EventFields) (ht : ValidText f.text)
    (hs : ValidText f.secondaryText) : Native.encode_event (toNative f.event) = f.bytes := by
  simp only [Native.encode_event,toNative,EventFields.event,BitVec.ofInt_toInt,
    encode_decode_text ht,encode_decode_text hs,encode_optional_field f.text_fits,
    encode_optional_field f.secondaryText_fits,encode_optional_field f.data_fits]
  rfl

/-- The decoder accepts exactly its format, throws on every other array without an index outside
of it, and no accepted array is a proper prefix of another one. When the texts are valid, encoding
the event again gives back the array. -/
theorem decode_exact_of_format (b : List UInt8) :
    (∀ e, decode b = .ok e ↔ ∃ f : EventFields, b = f.bytes ∧ e = f.event) ∧
    ((¬ ∃ f : EventFields, b = f.bytes) →
      ∃ failure, decode b = .error failure ∧ failure ≠ .indexOutOfBounds) ∧
    (∀ f : EventFields, b = f.bytes → ValidText f.text → ValidText f.secondaryText →
      ∃ e, decode b = .ok e ∧ Native.encode_event (toNative e) = b) ∧
    ∀ e e' more, decode b = .ok e → decode (b ++ more) = .ok e' → more = [] := by
  refine ⟨decode_ok_iff b,?_,?_,?_⟩
  · intro hn
    cases hd : decode b with
    | error failure => exact ⟨failure,rfl,fun he => decode_inside b (he ▸ hd)⟩
    | ok e =>
      obtain ⟨f,hf,-⟩ := (decode_ok_iff b e).mp hd
      exact absurd ⟨f,hf⟩ hn
  · rintro f rfl ht hs
    exact ⟨f.event,(decode_ok_iff _ _).mpr ⟨f,rfl,rfl⟩,encode_event_fields f ht hs⟩
  · intro e e' more he he'
    obtain ⟨f,rfl,rfl⟩ := (decode_ok_iff _ _).mp he
    obtain ⟨g,hg,rfl⟩ := (decode_ok_iff _ _).mp he'
    have hf := reads_event f []
    have hg' := reads_event g []
    rw [List.append_nil] at hf hg'
    rw [← hg] at hg'
    exact eventReader_event.prefix_free hf hg'

end NativeEventDecoder

end Kestara.Wire
