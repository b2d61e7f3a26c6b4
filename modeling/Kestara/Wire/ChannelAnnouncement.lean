import Kestara.Kotlin.PeerConnection
import Kestara.Wire.EventTransport

/-!
# Announcement of a remote channel

The attributes that `register_channel` packs into an event are those that
`registerRemoteDataChannel` constructs the channel with.
-/
namespace Kestara.Wire
open Native

/-- The properties of the channel that Kotlin should construct. -/
def channelInfo (a : ChannelAttributes) : ChannelInfo where
  id := a.id.toNat
  label := a.label
  protocol := a.protocol
  ordered := a.ordered
  negotiated := a.negotiated
  maxPacketLifeTime := a.max_packet_life_time.map (·.toNat)
  maxRetransmits := a.max_retransmits.map (·.toNat)

section Number

/-- The flags and the id do not overlap. -/
lemma toNat_number (ordered isOpen : Bool) (id : UInt16) :
    (i32OfBool ordered ||| i32OfBool isOpen <<< 1 ||| i32OfU16 id <<< 2).toNat =
      ordered.toNat + 2*isOpen.toNat + 4*id.toNat := by
  have hid : id.toNat < 2^16 := id.toNat_lt
  have hid' : i32OfU16 id = BitVec.ofNat 32 id.toNat := by
    apply BitVec.eq_of_toNat_eq
    simp [i32OfU16]
  have hshift : (i32OfU16 id <<< 2).toNat = id.toNat <<< 2 := by
    rw [hid',BitVec.toNat_shiftLeft,BitVec.toNat_ofNat,Nat.shiftLeft_eq,Nat.shiftLeft_eq]
    omega
  have hflags : (i32OfBool ordered ||| i32OfBool isOpen <<< 1).toNat =
      ordered.toNat + 2*isOpen.toNat := by
    cases ordered <;> cases isOpen <;> decide
  have hlt : ordered.toNat + 2*isOpen.toNat < 2^2 := by
    cases ordered <;> cases isOpen <;> decide
  rw [BitVec.toNat_or,hshift,hflags,Nat.or_comm,← Nat.shiftLeft_add_eq_or_of_lt hlt,
    Nat.shiftLeft_eq]
  omega

lemma intBits_toInt (v : BitVec 32) : intBits v.toInt = v.toNat := by
  have hlt := v.isLt
  rw [intBits,BitVec.toInt_eq_toNat_cond]
  split_ifs <;> omega

end Number

section Metadata

lemma leNat_bytes (v : BitVec 32) : Endian.leNat (Endian.leBytes 4 v.toNat) = v.toNat := by
  have hlt := v.isLt
  rw [Endian.leNat_leBytes,Nat.mod_eq_of_lt (by omega)]

/-- The bytes of an `i32` give back its value. -/
lemma signed_bytes (v : BitVec 32) :
    Endian.signed 32 (Endian.leNat (Endian.leBytes 4 v.toNat)) = v.toInt := by
  rw [leNat_bytes,Endian.signed,BitVec.toInt_eq_toNat_bmod]

lemma toInt_optional (o : Option UInt16) :
    (if 0 ≤ (i32OfOptional o).toInt then some (i32OfOptional o).toInt else none) =
      o.map fun v => (v.toNat : ℤ) := by
  cases o with
  | none => decide
  | some v =>
    have hv : v.toNat < 2^16 := v.toNat_lt
    have hval : (i32OfOptional (some v)).toInt = v.toNat := by
      have hnat : (i32OfU16 v).toNat = v.toNat := by
        simp only [i32OfU16,BitVec.toNat_setWidth,UInt16.toNat_toBitVec]
        omega
      rw [i32OfOptional,Option.elim_some,BitVec.toInt_eq_toNat_cond,hnat]
      split_ifs <;> omega
    rw [hval,if_pos (by omega)]
    rfl

/-- The nine bytes give back the flag and both limits. -/
lemma decode_channel_metadata (negotiated : Bool) (lifeTime retransmits : Option UInt16) :
    decodeChannelMetadata (some (channel_metadata negotiated lifeTime retransmits)) =
      some { negotiated := negotiated
             maxPacketLifeTime := lifeTime.map (·.toNat)
             maxRetransmits := retransmits.map (·.toNat) } := by
  have hlen : (channel_metadata negotiated lifeTime retransmits).length = 9 := by
    simp [channel_metadata]
  have h₁ : intAt (channel_metadata negotiated lifeTime retransmits) 1 =
      (i32OfOptional lifeTime).toInt := by
    have hbytes : ((channel_metadata negotiated lifeTime retransmits).drop 1).take 4 =
        Endian.leBytes 4 (i32OfOptional lifeTime).toNat := by
      simp [channel_metadata]
    rw [intAt,hbytes,signed_bytes]
  have h₅ : intAt (channel_metadata negotiated lifeTime retransmits) 5 =
      (i32OfOptional retransmits).toInt := by
    have hbytes : ((channel_metadata negotiated lifeTime retransmits).drop 5).take 4 =
        Endian.leBytes 4 (i32OfOptional retransmits).toNat := by
      simp [channel_metadata]
    rw [intAt,hbytes,signed_bytes]
  have hhead : (decide ((channel_metadata negotiated lifeTime retransmits).head? ≠ some 0)) =
      negotiated := by
    cases negotiated <;> simp [channel_metadata]
  simp only [decodeChannelMetadata,hlen,h₁,h₅,hhead,toInt_optional,↓reduceIte]

end Metadata

/-- What Kotlin reads from the announcement. -/
lemma remoteChannelInfo_created (peer_handle handle : UInt64) (a : ChannelAttributes) :
    remoteChannelInfo (kotlinEvent (created_event peer_handle handle a)) =
      some (channelInfo a,a.isOpen) := by
  have hnumber : intBits (kotlinEvent (created_event peer_handle handle a)).number =
      a.ordered.toNat + 2*a.isOpen.toNat + 4*a.id.toNat := by
    simp only [kotlinEvent,created_event,intBits_toInt,toNat_number]
  have hflag : a.ordered.toNat ≤ 1 ∧ a.isOpen.toNat ≤ 1 := ⟨Bool.toNat_le _,Bool.toNat_le _⟩
  have hid : (a.ordered.toNat + 2*a.isOpen.toNat + 4*a.id.toNat)/4 = a.id.toNat := by omega
  have hordered : (a.ordered.toNat + 2*a.isOpen.toNat + 4*a.id.toNat) % 2 = a.ordered.toNat := by
    omega
  have hopen : (a.ordered.toNat + 2*a.isOpen.toNat + 4*a.id.toNat)/2 % 2 = a.isOpen.toNat := by
    omega
  rw [remoteChannelInfo,hnumber,hid,hordered,hopen]
  simp only [kotlinEvent,created_event,decode_channel_metadata,Option.map_some,Option.getD_some]
  cases h₁ : a.ordered <;> cases h₂ : a.isOpen <;> simp [channelInfo,h₁]

/-- The announcement of a channel makes Kotlin construct a channel with the attributes that the
native library read, open from the start exactly when it was open there. -/
theorem registerRemote_created_event (s : Kotlin.Shared) (p : Kotlin.PeerId)
    (peer_handle handle : UInt64) (a : ChannelAttributes) :
    Kotlin.PeerConnection.handleNativeEvent p (kotlinEvent (created_event peer_handle handle a)) s =
      .ok (s,[.peer p (.registerRemote (kotlinEvent (created_event peer_handle handle a)))]) ∧
    ∃ s' code,
      Kotlin.PeerConnection.exec p
        (.registerRemote (kotlinEvent (created_event peer_handle handle a))) s = .next s' code ∧
      (s'.channel s.nextChannel).handle = handle.toNat ∧
      (s'.channel s.nextChannel).info =
        { id := a.id.toNat
          label := a.label
          protocol := a.protocol
          ordered := a.ordered
          negotiated := a.negotiated
          maxPacketLifeTime := a.max_packet_life_time.map (·.toNat)
          maxRetransmits := a.max_retransmits.map (·.toNat) } ∧
      ((s'.channel s.nextChannel).state = .open ↔ a.isOpen = true) ∧
      (.channel s.nextChannel .notifyOpen ∈ code ↔ a.isOpen = true) := by
  refine ⟨rfl,?_⟩
  simp only [Kotlin.PeerConnection.exec,remoteChannelInfo_created]
  refine ⟨_,_,rfl,?_,?_,?_,?_⟩
  · simp [Kotlin.Shared.newChannel,Kotlin.Shared.setPeer,kotlinEvent,created_event]
  · simp [Kotlin.Shared.newChannel,Kotlin.Shared.setPeer,channelInfo]
  · cases a.isOpen <;> simp [Kotlin.Shared.newChannel,Kotlin.Shared.setPeer]
  · cases a.isOpen <;> simp

end Kestara.Wire
