import Kestara.Library.Exact
import Kestara.Wire.StatsRoundTrip

/-!
# Arbitrary bytes for the stats decoder

Every read of `StatsDecoder` checks that the bytes are there before it takes them, and takes as
many as it has checked. So the decoder stays inside the array, whatever the lengths and counts
in it say, and an accepted array is no prefix of another one.
-/
namespace Kestara.Wire
open Codec BigEndianReader

/-- A reader of the stats format that stays inside the array. -/
abbrev StatsReader {α : Type} (r : BigEndianReader α) : Prop := Exact StatsFailure.indexOutOfBounds r

section Readers

lemma statsReader_require (condition : Bool) (message : String) :
    StatsReader (require condition message) := by
  cases condition with
  | false => exact .throw (by simp)
  | true => exact .pure ()

/-- The readers of a fixed number of bytes. -/
lemma statsReader_required {α : Type} (n : ℕ) (k : List UInt8 → α) :
    StatsReader (do requireRemaining n; return k (← take n)) :=
  .required (checks_requireRemaining n) (by simp) k

lemma statsReader_byte : StatsReader readByte := statsReader_required 1 _

lemma statsReader_boolean : StatsReader readBoolean := .bind statsReader_byte fun _ => .pure _

lemma statsReader_short : StatsReader readShort := statsReader_required 2 _

lemma statsReader_int : StatsReader readInt := statsReader_required 4 _

lemma statsReader_long : StatsReader readLong := statsReader_required 8 _

/-- The length of a string is only as good as the bytes that are left. -/
lemma statsReader_string : StatsReader readString := by
  refine .bind statsReader_int fun size => ?_
  have hcheck : StatsReader ((remaining >>= fun left =>
      require (0 ≤ size.toInt ∧ size.toInt ≤ left) "Invalid native stats string length") >>=
        fun _ => take size.toInt.toNat) := by
    refine Exact.checked (p := 0 ≤ size.toInt)
      (e := .illegalArgument "Invalid native stats string length") (by simp) fun input => ?_
    change require (decide (0 ≤ size.toInt ∧ size.toInt ≤ input.length)) _ input = _
    rw [require_run]
    have hiff : (0 ≤ size.toInt ∧ size.toInt ≤ input.length) ↔
        (0 ≤ size.toInt ∧ size.toInt.toNat ≤ input.length) := by omega
    simp only [decide_eq_true_eq,hiff]
  have h := hcheck.bind fun bytes => .pure (Utf8.decode bytes)
  rwa [bind_assoc,bind_assoc] at h

lemma statsReader_optional {α : Type} {read : BigEndianReader α} (h : StatsReader read) :
    StatsReader (readOptional read) := by
  refine .bind statsReader_boolean fun present => ?_
  cases present with
  | false => exact .pure none
  | true => exact h.bind fun a => .pure (some a)

lemma statsReader_candidate : StatsReader readCandidate := by
  refine .bind statsReader_string fun id => .bind statsReader_string fun address => ?_
  refine .bind statsReader_short fun port => .bind statsReader_string fun protocol => ?_
  refine .bind statsReader_string fun candidateType => .bind statsReader_int fun priority => ?_
  refine .bind statsReader_string fun url => .bind statsReader_string fun relayProtocol => ?_
  refine .bind statsReader_string fun foundation => .bind statsReader_string fun relatedAddress => ?_
  refine .bind statsReader_short fun relatedPort => .bind statsReader_string fun fragment => ?_
  exact .bind statsReader_string fun tcpType => .pure _

lemma statsReader_pair : StatsReader readPair := by
  refine .bind statsReader_string fun id => .bind statsReader_string fun localId => ?_
  refine .bind statsReader_string fun remoteId => ?_
  refine (statsReader_optional statsReader_candidate).bind fun localCandidate => ?_
  refine (statsReader_optional statsReader_candidate).bind fun remoteCandidate => ?_
  refine .bind statsReader_long fun packetsSent => .bind statsReader_long fun packetsReceived => ?_
  refine .bind statsReader_long fun bytesSent => .bind statsReader_long fun bytesReceived => ?_
  refine .bind statsReader_long fun current => .bind statsReader_long fun total => ?_
  refine .bind statsReader_long fun requestsSent => .bind statsReader_long fun requestsReceived => ?_
  refine .bind statsReader_long fun responsesSent => .bind statsReader_long fun responsesReceived => ?_
  exact .bind statsReader_string fun state => .bind statsReader_boolean fun nominated => .pure _

lemma statsReader_transport : StatsReader readTransport := by
  refine .bind statsReader_long fun packetsSent => .bind statsReader_long fun packetsReceived => ?_
  refine .bind statsReader_long fun bytesSent => .bind statsReader_long fun bytesReceived => ?_
  refine .bind statsReader_string fun iceRole => .bind statsReader_string fun iceState => ?_
  refine .bind statsReader_string fun dtlsRole => .bind statsReader_string fun dtlsState => ?_
  refine .bind statsReader_string fun tlsVersion => .bind statsReader_string fun dtlsCipher => ?_
  refine .bind statsReader_int fun changes => ?_
  exact (statsReader_optional statsReader_pair).bind fun pair => .pure _

lemma statsReader_channel : StatsReader readChannel := by
  refine .bind statsReader_short fun identifier => .bind statsReader_string fun label => ?_
  refine .bind statsReader_string fun protocol => .bind statsReader_string fun state => ?_
  refine .bind statsReader_int fun messagesSent => .bind statsReader_long fun bytesSent => ?_
  exact .bind statsReader_int fun messagesReceived => .bind statsReader_long fun bytesReceived => .pure _

end Readers

namespace StatsDecoder

/-- What comes before the channels. -/
def readHead : BigEndianReader (List DataChannelStats → PeerConnectionStats) := do
  let version ← readInt
  checkVersion version.toInt
  let timestamp ← readLong
  let opened ← readLong
  let closed ← readLong
  let transport ← readTransport
  return fun channels => ⟨⟨timestamp.toInt⟩,opened.toInt,closed.toInt,transport,channels⟩

lemma readStats_eq :
    readStats = readHead >>= fun f => readChannels >>= fun channels => pure (f channels) := by
  simp only [readStats,readHead,bind_assoc,pure_bind]

lemma statsReader_version (version : ℤ) : StatsReader (checkVersion version) := by
  unfold checkVersion
  exact Exact.ite (.pure ()) (.throw (by simp))

lemma statsReader_head : StatsReader readHead := by
  refine .bind statsReader_int fun version => (statsReader_version _).bind fun _ => ?_
  refine .bind statsReader_long fun timestamp => .bind statsReader_long fun opened => ?_
  exact .bind statsReader_long fun closed => .bind statsReader_transport fun transport => .pure _

lemma statsReader_channels : StatsReader readChannels := by
  refine .bind statsReader_int fun count => ?_
  exact (statsReader_require _ _).bind fun _ => Exact.many statsReader_channel _

lemma statsReader_stats : StatsReader readStats := by
  rw [readStats_eq]
  exact .bind statsReader_head fun f => .bind statsReader_channels fun channels => .pure _

/-- The body accepts what `readStats` reads to the end. -/
lemma body_ok {b rest : List UInt8} {v : PeerConnectionStats} (h : body b = .ok (v,rest)) :
    readStats b = .ok (v,[]) ∧ rest = [] := by
  obtain ⟨stats,mid,h₁,h₂⟩ := reader_bind_ok h
  obtain ⟨n,mid',hn,h₃⟩ := reader_bind_ok h₂
  cases hn
  obtain ⟨_,mid'',h₄,h₅⟩ := reader_bind_ok h₃
  rw [require_run] at h₄
  split_ifs at h₄ with hl
  cases h₄
  cases h₅
  have hnil : rest = [] := List.length_eq_zero_iff.mp (of_decide_eq_true hl)
  subst hnil
  exact ⟨h₁,rfl⟩

lemma body_inside (b : List UInt8) : body b ≠ .error .indexOutOfBounds := by
  intro h
  obtain h | ⟨stats,mid,-,h⟩ := reader_bind_error h
  · exact Exact.inside statsReader_stats b h
  · obtain h | ⟨n,mid',hn,h⟩ := reader_bind_error h
    · cases h
    · cases hn
      obtain h | ⟨_,mid'',-,h⟩ := reader_bind_error h
      · exact (statsReader_require _ _).inside _ h
      · cases h

lemma decode_ok {b : List UInt8} {v : PeerConnectionStats} (h : decode b = .ok v) :
    readStats b = .ok (v,[]) ∧ body b = .ok (v,[]) := by
  unfold decode at h
  split at h
  · next stats rest hb =>
    cases h
    obtain ⟨hr,rfl⟩ := body_ok hb
    exact ⟨hr,hb⟩
  all_goals cases h

lemma readInt_ok {input rest : List UInt8} {value : BitVec 32}
    (h : readInt input = .ok (value,rest)) : input = Endian.beBytes 4 value.toNat ++ rest := by
  obtain ⟨bytes,hl,rfl,rfl⟩ := (checks_requireRemaining _).read_ok h
  have hlt := Endian.leNat_lt bytes.reverse
  have hbytes := Endian.leBytes_leNat bytes.reverse
  rw [List.length_reverse,hl] at hlt hbytes
  rw [Endian.foldl_shiftIn,BitVec.toNat_ofNat,Nat.mod_eq_of_lt (by omega),Endian.beBytes,hbytes,
    List.reverse_reverse]

lemma readHead_channels {input rest : List UInt8} {f : List DataChannelStats → PeerConnectionStats}
    (h : readHead input = .ok (f,rest)) (channels : List DataChannelStats) :
    (f channels).dataChannels = channels := by
  obtain ⟨version,_,-,h⟩ := reader_bind_ok h
  obtain ⟨_,_,-,h⟩ := reader_bind_ok h
  obtain ⟨timestamp,_,-,h⟩ := reader_bind_ok h
  obtain ⟨opened,_,-,h⟩ := reader_bind_ok h
  obtain ⟨closed,_,-,h⟩ := reader_bind_ok h
  obtain ⟨transport,_,-,h⟩ := reader_bind_ok h
  cases h
  rfl

/-- An accepted array is the version, what belongs to it, a count, and as many channels. -/
lemma format_of_readStats {b : List UInt8} {v : PeerConnectionStats}
    (h : readStats b = .ok (v,[])) : ∃ front back f,
      b = Endian.beBytes 4 2 ++ front ++ Endian.beBytes 4 v.dataChannels.length ++ back ∧
      v.dataChannels.length ≤ 65535 ∧ Reads readHead (Endian.beBytes 4 2 ++ front) f ∧
      Reads (readMany readChannel v.dataChannels.length) back v.dataChannels ∧
      v = f v.dataChannels := by
  rw [readStats_eq] at h
  obtain ⟨f,mid,hhead,h⟩ := reader_bind_ok h
  obtain ⟨channels,rest,hchannels,h⟩ := reader_bind_ok h
  cases h
  obtain ⟨count,mid',hcount,hmany⟩ := reader_bind_ok hchannels
  obtain ⟨_,mid'',hrequire,hmany⟩ := reader_bind_ok hmany
  rw [require_run] at hrequire
  split_ifs at hrequire with hrange
  cases hrequire
  have hrange := of_decide_eq_true hrange
  have hlength := length_readMany hmany
  have hvalue : count.toNat = count.toInt.toNat := by
    rw [BitVec.toInt_eq_toNat_cond] at hrange ⊢
    split_ifs at hrange ⊢ <;> omega
  have hmid := readInt_ok hcount
  obtain ⟨whole,hb,hreads⟩ := Exact.reads statsReader_head _ _ _ hhead
  obtain ⟨version,mid₂,hversion,hcheck⟩ := reader_bind_ok (hreads [])
  obtain ⟨_,mid₃,hcheck,-⟩ := reader_bind_ok hcheck
  have hwhole := readInt_ok hversion
  rw [List.append_nil] at hwhole
  have htwo : version.toNat = 2 := by
    unfold checkVersion at hcheck
    split_ifs at hcheck with hv
    · simp only [FORMAT_VERSION,BitVec.toInt_eq_toNat_cond] at hv
      split_ifs at hv <;> omega
    · cases hcheck
  rw [htwo] at hwhole
  rw [hvalue,← hlength] at hmid
  rw [← hlength] at hmany
  subst hwhole
  rw [readHead_channels hhead]
  refine ⟨mid₂,mid',f,?_,by omega,hreads,(Exact.many statsReader_channel _).read_all hmany,rfl⟩
  rw [hb,hmid]
  simp only [List.append_assoc]

/-- An array the decoder refuses. -/
def Rejects (b : List UInt8) : Prop := ∃ e : WebRtcException, decode b = .error e

lemma rejects_of_not_ok {b : List UInt8} (h : ∀ v, decode b ≠ .ok v) : Rejects b := by
  cases hd : decode b with
  | error e => exact ⟨e,hd⟩
  | ok v => exact absurd hd (h v)

/-- On every array the decoder stays inside it, and either throws its own exception or has read it
to the end. What it accepts has version 2 and as many channels as its count says, at most 65535,
and no proper prefix and no proper extension of it is accepted. -/
theorem decode_exact_of_bytes (b : List UInt8) :
    body b ≠ .error .indexOutOfBounds ∧ (Rejects b ∨ ∃ v, decode b = .ok v ∧
      body b = .ok (v,[]) ∧
      (∃ front back f,
        b = Endian.beBytes 4 2 ++ front ++ Endian.beBytes 4 v.dataChannels.length ++ back ∧
        v.dataChannels.length ≤ 65535 ∧ Reads readHead (Endian.beBytes 4 2 ++ front) f ∧
        Reads (readMany readChannel v.dataChannels.length) back v.dataChannels ∧
        v = f v.dataChannels) ∧
      (∀ more, more ≠ [] → Rejects (b ++ more)) ∧
      ∀ front more, b = front ++ more → more ≠ [] → Rejects front) := by
  refine ⟨body_inside b,?_⟩
  by_cases hb : ∃ v, decode b = .ok v
  · obtain ⟨v,hv⟩ := hb
    obtain ⟨hread,hbody⟩ := decode_ok hv
    refine .inr ⟨v,hv,hbody,format_of_readStats hread,?_,?_⟩
    · intro more hmore
      apply rejects_of_not_ok
      intro w hw
      exact hmore (Exact.prefix_free statsReader_stats hread (decode_ok hw).1)
    · rintro front more rfl hmore
      apply rejects_of_not_ok
      intro w hw
      exact hmore (Exact.prefix_free statsReader_stats (decode_ok hw).1 hread)
  · exact .inl (rejects_of_not_ok fun v hv => hb ⟨v,hv⟩)

/-- A string length that lies far beyond the end of the array is refused by its check. -/
example : body (Endian.beBytes 4 2 ++ List.replicate 56 0 ++ [127,255,255,255,65]) =
    .error (.illegalArgument "Invalid native stats string length") := by
  rfl

end StatsDecoder

end Kestara.Wire
