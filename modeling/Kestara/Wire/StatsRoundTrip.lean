import Kestara.Wire.StatsDecoder

/-!
# Round trip of a stats report

Each writer is paired with the reader that takes its bytes back. The limit on the whole
encoding is also the limit on every string in it, since a string's bytes are part of it.
-/
namespace Kestara.Wire
open Codec BigEndianReader

/-- The encodings that fit a Kotlin byte array. -/
abbrev StatsCodes {α : Type} (w : StatsWriter Unit) (r : BigEndianReader α) (a : α) : Prop :=
  Codes (2^31) w r a

/-- A 64-bit pattern as a Kotlin `Long`. -/
def toLong (value : UInt64) : ℤ := value.toBitVec.toInt

theorem toLong_pattern (value : UInt64) : BitVec.ofInt 64 (toLong value) = value.toBitVec :=
  BitVec.ofInt_toInt

theorem toLong_of_lt {value : UInt64} (h : value.toNat < 2^63) : toLong value = value.toNat := by
  unfold toLong
  rw [BitVec.toInt_eq_toNat_of_lt]
  · rfl
  · rw [UInt64.toNat_toBitVec]
    omega

def candidateStats (c : RTCIceCandidateStats) : IceCandidateStats where
  id := c.id
  address := c.address.getD ""
  port := c.port.toNat
  protocol := c.protocol
  candidateType := c.candidate_type.text
  priority := c.priority.toNat
  url := c.url
  relayProtocol := c.relay_protocol.text
  foundation := c.foundation
  relatedAddress := c.related_address
  relatedPort := c.related_port.toNat
  usernameFragment := c.username_fragment
  tcpType := c.tcp_type.text

def pairStats (report : RTCStatsReport) (p : RTCIceCandidatePairStats) : IceCandidatePairStats where
  id := p.id
  localCandidateId := p.local_candidate_id
  remoteCandidateId := p.remote_candidate_id
  localCandidate := (candidate report p.local_candidate_id).map candidateStats
  remoteCandidate := (candidate report p.remote_candidate_id).map candidateStats
  packetsSent := toLong p.packets_sent
  packetsReceived := toLong p.packets_received
  bytesSent := toLong p.bytes_sent
  bytesReceived := toLong p.bytes_received
  currentRoundTripTimeSeconds := ⟨p.current_round_trip_time.toBitVec⟩
  totalRoundTripTimeSeconds := ⟨p.total_round_trip_time.toBitVec⟩
  requestsSent := toLong p.requests_sent
  requestsReceived := toLong p.requests_received
  responsesSent := toLong p.responses_sent
  responsesReceived := toLong p.responses_received
  state := p.state.text
  nominated := p.nominated

def transportStats (report : RTCStatsReport) (t : RTCTransportStats) : TransportStats where
  packetsSent := toLong t.packets_sent
  packetsReceived := toLong t.packets_received
  bytesSent := toLong t.bytes_sent
  bytesReceived := toLong t.bytes_received
  iceRole := t.ice_role.text
  iceState := t.ice_state.text
  dtlsRole := t.dtls_role.text
  dtlsState := t.dtls_state.text
  tlsVersion := t.tls_version
  dtlsCipher := t.dtls_cipher
  selectedCandidatePairChanges := t.selected_candidate_pair_changes.toNat
  selectedCandidatePair := (selectedPair report t).map (pairStats report)

def channelStats (c : RTCDataChannelStats) : DataChannelStats where
  identifier := c.data_channel_identifier.toNat
  label := c.label
  protocol := c.protocol
  state := c.state.text
  messagesSent := c.messages_sent.toNat
  bytesSent := toLong c.bytes_sent
  messagesReceived := c.messages_received.toNat
  bytesReceived := toLong c.bytes_received

/-- The Kotlin image of a report taken at a time: every field at its own value. -/
def reportStats (millis : ℕ) (report : RTCStatsReport) (peer : RTCPeerConnectionStats)
    (transport : RTCTransportStats) : PeerConnectionStats where
  timestamp := ⟨toLong (timestampOf millis)⟩
  dataChannelsOpened := peer.data_channels_opened.toNat
  dataChannelsClosed := peer.data_channels_closed.toNat
  transport := transportStats report transport
  dataChannels := (dataChannels report).map channelStats

lemma reads_remaining {α : Type} {k : ℕ → BigEndianReader α} {bytes : List UInt8} {a : α}
    (h : ∀ n, bytes.length ≤ n → Reads (k n) bytes a) : Reads (remaining >>= k) bytes a := by
  intro rest
  exact h (bytes ++ rest).length (by simp) rest

lemma reads_require {α : Type} {k : Unit → BigEndianReader α} {bytes : List UInt8} {a : α}
    {condition : Bool} {message : String} (hc : condition = true) (h : Reads (k ()) bytes a) :
    Reads (require condition message >>= k) bytes a := by
  subst hc
  exact h

lemma require_run (condition : Bool) (message : String) (input : List UInt8) :
    require condition message input =
      if condition = true then .ok ((),input) else .error (.illegalArgument message) := by
  cases condition <;> rfl

/-- A fixed number of bytes is taken after the check that they are there. -/
lemma checks_requireRemaining (n : ℕ) :
    Checks (requireRemaining n) n (.illegalArgument "Native stats ended unexpectedly") := by
  intro input
  change require (decide (n ≤ input.length)) _ input = _
  rw [require_run]
  simp

lemma codes_u16 (v : UInt16) : StatsCodes (write_u16 v) readShort v.toBitVec := by
  apply Codes.of_write
  intro _
  have hv : v.toBitVec = ((Endian.beBytes 2 v.toNat).foldl Endian.shiftIn
      (0 : BitVec 32)).setWidth 16 := by
    rw [Endian.foldl_shiftIn_beBytes]
    apply BitVec.eq_of_toNat_eq
    have := v.toNat_lt
    simp only [BitVec.toNat_setWidth,BitVec.toNat_ofNat,UInt16.toNat_toBitVec]
    omega
  rw [hv]
  exact (checks_requireRemaining _).reads (k := fun bytes => (bytes.foldl Endian.shiftIn (0 : BitVec 32)).setWidth 16)
    (by simp)

lemma codes_u32 (v : UInt32) : StatsCodes (write_u32 v) readInt v.toBitVec := by
  apply Codes.of_write
  intro _
  have hv : v.toBitVec = (Endian.beBytes 4 v.toNat).foldl Endian.shiftIn 0 := by
    rw [Endian.foldl_shiftIn_beBytes]
    apply BitVec.eq_of_toNat_eq
    have := v.toNat_lt
    simp only [BitVec.toNat_ofNat,UInt32.toNat_toBitVec]
    omega
  rw [hv]
  exact (checks_requireRemaining _).reads (k := fun bytes => bytes.foldl Endian.shiftIn 0) (by simp)

lemma codes_u64 (v : UInt64) : StatsCodes (write_u64 v) readLong v.toBitVec := by
  apply Codes.of_write
  intro _
  have hv : v.toBitVec = (Endian.beBytes 8 v.toNat).foldl Endian.shiftIn 0 := by
    rw [Endian.foldl_shiftIn_beBytes]
    apply BitVec.eq_of_toNat_eq
    have := v.toNat_lt
    simp only [BitVec.toNat_ofNat,UInt64.toNat_toBitVec]
    omega
  rw [hv]
  exact (checks_requireRemaining _).reads (k := fun bytes => bytes.foldl Endian.shiftIn 0) (by simp)

lemma codes_f64 (v : UInt64) : StatsCodes (write_f64 v) readLong v.toBitVec := codes_u64 v

lemma codes_flag (flag : Bool) : StatsCodes (push (byteOf flag)) readBoolean flag := by
  apply Codes.of_write
  intro _
  have hb : Reads readByte [byteOf flag] (byteOf flag) :=
    (checks_requireRemaining _).reads (k := fun bytes => bytes.headD 0) rfl
  have hf : flag = decide (byteOf flag ≠ 0) := by cases flag <;> rfl
  nth_rewrite 2 [hf]
  exact hb.bind (reads_pure _)

/-- The length is read back at its value because the bytes themselves stay below the limit. -/
lemma codes_string (s : String) : StatsCodes (write_string s) readString s := by
  unfold write_string
  by_cases hs : (Utf8.encode s).length < 2^32
  · simp only [hs,↓reduceIte]
    refine .bind (codes_u32 _) (.of_write fun hl => ?_)
    have hi : (UInt32.ofNat (Utf8.encode s).length).toBitVec.toInt = (Utf8.encode s).length := by
      rw [BitVec.toInt_eq_toNat_of_lt]
      · rw [UInt32.toNat_toBitVec,UInt32.toNat_ofNat_of_lt' hs]
      · rw [UInt32.toNat_toBitVec,UInt32.toNat_ofNat_of_lt' hs]
        omega
    rw [hi]
    refine reads_remaining fun n hn => reads_require (by simpa using hn) ?_
    have ha : Reads (take (Utf8.encode s).length) (Utf8.encode s) _ := reads_fetch rfl
    have hp := ha.bind (k := fun bytes => pure (Utf8.decode bytes)) (reads_pure _)
    rwa [List.append_nil,Utf8.decode_encode] at hp
  · simp only [hs,↓reduceIte]
    intro out out' hw
    cases hw

lemma codes_candidate (c : RTCIceCandidateStats) :
    StatsCodes (write_candidate c) readCandidate (candidateStats c) := by
  apply Codes.bind (codes_string c.id)
  apply Codes.bind (codes_string (c.address.getD ""))
  apply Codes.bind (codes_u16 c.port)
  apply Codes.bind (codes_string c.protocol)
  apply Codes.bind (codes_string c.candidate_type.text)
  apply Codes.bind (codes_u32 c.priority)
  apply Codes.bind (codes_string c.url)
  apply Codes.bind (codes_string c.relay_protocol.text)
  apply Codes.bind (codes_string c.foundation)
  apply Codes.bind (codes_string c.related_address)
  apply Codes.bind (codes_u16 c.related_port)
  apply Codes.bind (codes_string c.username_fragment)
  exact (codes_string c.tcp_type.text).last

/-- A flag, and behind a set flag the value. -/
lemma codes_optional {α β : Type} {w : α → StatsWriter Unit} {r : BigEndianReader β} {f : α → β}
    (h : ∀ a, StatsCodes (w a) r (f a)) (a : Option α) :
    StatsCodes (do push (byteOf a.isSome); (match a with | some a => w a | none => pure ()))
      (readOptional r) (a.map f) := by
  cases a with
  | none => exact Codes.bind (codes_flag false) (.done none)
  | some a => exact Codes.bind (codes_flag true) (h a).last

lemma codes_optional_candidate (c : Option RTCIceCandidateStats) :
    StatsCodes (write_optional_candidate c) (readOptional readCandidate) (c.map candidateStats) := by
  have h := codes_optional codes_candidate c
  cases c <;> exact h

lemma codes_pair (report : RTCStatsReport) (p : RTCIceCandidatePairStats) :
    StatsCodes (write_pair report p) (readOptional readPair) (some (pairStats report p)) := by
  apply Codes.bind (codes_flag true)
  refine Codes.last ?_
  apply Codes.bind (codes_string p.id)
  apply Codes.bind (codes_string p.local_candidate_id)
  apply Codes.bind (codes_string p.remote_candidate_id)
  apply Codes.bind (codes_optional_candidate (candidate report p.local_candidate_id))
  apply Codes.bind (codes_optional_candidate (candidate report p.remote_candidate_id))
  apply Codes.bind (codes_u64 p.packets_sent)
  apply Codes.bind (codes_u64 p.packets_received)
  apply Codes.bind (codes_u64 p.bytes_sent)
  apply Codes.bind (codes_u64 p.bytes_received)
  apply Codes.bind (codes_f64 p.current_round_trip_time)
  apply Codes.bind (codes_f64 p.total_round_trip_time)
  apply Codes.bind (codes_u64 p.requests_sent)
  apply Codes.bind (codes_u64 p.requests_received)
  apply Codes.bind (codes_u64 p.responses_sent)
  apply Codes.bind (codes_u64 p.responses_received)
  apply Codes.bind (codes_string p.state.text)
  exact (codes_flag p.nominated).last

lemma codes_selected_pair (report : RTCStatsReport) (t : RTCTransportStats) :
    StatsCodes (write_selected_pair report t) (readOptional readPair)
      ((selectedPair report t).map (pairStats report)) := by
  unfold write_selected_pair
  cases selectedPair report t with
  | none => exact (codes_flag false).finish (reads_pure none)
  | some p => exact codes_pair report p

lemma codes_channel (c : RTCDataChannelStats) :
    StatsCodes (write_channel c) readChannel (channelStats c) := by
  apply Codes.bind (codes_u16 c.data_channel_identifier)
  apply Codes.bind (codes_string c.label)
  apply Codes.bind (codes_string c.protocol)
  apply Codes.bind (codes_string c.state.text)
  apply Codes.bind (codes_u32 c.messages_sent)
  apply Codes.bind (codes_u64 c.bytes_sent)
  apply Codes.bind (codes_u32 c.messages_received)
  exact (codes_u64 c.bytes_received).last

lemma codes_channels {cs : List RTCDataChannelStats} (h : cs.length ≤ 65535) :
    StatsCodes (write_channels cs) readChannels (cs.map channelStats) := by
  have hc : cs.length < 2^32 := by omega
  unfold write_channels
  simp only [hc,↓reduceIte]
  refine .bind (codes_u32 _) ?_
  have hi : (UInt32.ofNat cs.length).toBitVec.toInt = cs.length := by
    rw [BitVec.toInt_eq_toNat_of_lt]
    · rw [UInt32.toNat_toBitVec,UInt32.toNat_ofNat_of_lt' hc]
    · rw [UInt32.toNat_toBitVec,UInt32.toNat_ofNat_of_lt' hc]
      omega
  rw [hi]
  have hr : decide (0 ≤ (cs.length : ℤ) ∧ (cs.length : ℤ) ≤ 65535) = true := by simpa using h
  dsimp only
  rw [hr]
  exact Codes.many codes_channel cs

lemma codes_transport (report : RTCStatsReport) (t : RTCTransportStats) :
    StatsCodes (write_transport report t) readTransport (transportStats report t) := by
  apply Codes.bind (codes_u64 t.packets_sent)
  apply Codes.bind (codes_u64 t.packets_received)
  apply Codes.bind (codes_u64 t.bytes_sent)
  apply Codes.bind (codes_u64 t.bytes_received)
  apply Codes.bind (codes_string t.ice_role.text)
  apply Codes.bind (codes_string t.ice_state.text)
  apply Codes.bind (codes_string t.dtls_role.text)
  apply Codes.bind (codes_string t.dtls_state.text)
  apply Codes.bind (codes_string t.tls_version)
  apply Codes.bind (codes_string t.dtls_cipher)
  apply Codes.bind (codes_u32 t.selected_candidate_pair_changes)
  exact (codes_selected_pair report t).last

/-- A counter of 32 bits is widened before it is written. -/
lemma toInt_toUInt64 (v : UInt32) : v.toUInt64.toBitVec.toInt = v.toNat := by
  have := v.toNat_lt
  rw [BitVec.toInt_eq_toNat_of_lt]
  · rw [UInt64.toNat_toBitVec,UInt32.toNat_toUInt64]
  · rw [UInt64.toNat_toBitVec,UInt32.toNat_toUInt64]
    omega

lemma codes_report {millis : ℕ} {report : RTCStatsReport} {peer : RTCPeerConnectionStats}
    {transport : RTCTransportStats} (h : (dataChannels report).length ≤ 65535) :
    StatsCodes (write_report (.ok millis) report peer transport) StatsDecoder.readStats
      (reportStats millis report peer transport) := by
  have hv : StatsDecoder.checkVersion (UInt32.toBitVec 2).toInt = pure () := rfl
  apply Codes.bind (codes_u32 2)
  rw [hv,pure_bind]
  apply Codes.bind (w := write_timestamp (.ok millis)) (codes_u64 (timestampOf millis))
  apply Codes.bind (codes_u64 peer.data_channels_opened.toUInt64)
  apply Codes.bind (codes_u64 peer.data_channels_closed.toUInt64)
  apply Codes.bind (codes_transport report transport)
  apply (codes_channels h).finish
  rw [toInt_toUInt64,toInt_toUInt64]
  exact reads_pure _

lemma decode_of_readStats {bytes : List UInt8} {stats : PeerConnectionStats}
    (h : StatsDecoder.readStats bytes = .ok (stats,[])) :
    StatsDecoder.decode bytes = .ok stats := by
  unfold StatsDecoder.decode StatsDecoder.body
  rw [reader_bind h]
  rfl

/-- A successful encoding has all three of its sources. -/
lemma encode_stats_ok {now : Clock} {report : RTCStatsReport} {bytes : List UInt8}
    (h : encode_stats now report = .ok bytes) :
    ∃ millis peer transport, now = .ok millis ∧ report.peer_connection = some peer ∧
      report.transport = some transport ∧
      write_report (.ok millis) report peer transport [] = .ok ((),bytes) := by
  unfold encode_stats at h
  cases hp : report.peer_connection with
  | none => simp [hp] at h
  | some peer =>
    cases ht : report.transport with
    | none => simp [hp,ht] at h
    | some transport =>
      simp only [hp,ht] at h
      cases now with
      | error error => cases h
      | ok millis =>
        refine ⟨millis,peer,transport,rfl,rfl,rfl,?_⟩
        cases hw : write_report (.ok millis) report peer transport [] with
        | error e =>
          rw [hw] at h
          cases h
        | ok x =>
          rw [hw] at h
          cases h
          rfl

/-- Every report that the native side encodes is what the Kotlin side decodes. -/
theorem decode_encode_stats (now : Clock) (report : RTCStatsReport) (bytes : List UInt8)
    (encoded : encode_stats now report = .ok bytes)
    (channels : (dataChannels report).length ≤ 65535) (size : bytes.length < 2^31) :
    ∃ millis peer transport, now = .ok millis ∧ report.peer_connection = some peer ∧
      report.transport = some transport ∧
      StatsDecoder.decode bytes = .ok (reportStats millis report peer transport) ∧
      ∀ counter : UInt64, BitVec.ofInt 64 (toLong counter) = counter.toBitVec ∧
        (counter.toNat < 2^63 → toLong counter = counter.toNat) := by
  obtain ⟨millis,peer,transport,hn,hp,ht,hw⟩ := encode_stats_ok encoded
  refine ⟨millis,peer,transport,hn,hp,ht,?_,fun counter => ⟨toLong_pattern counter,toLong_of_lt⟩⟩
  exact decode_of_readStats ((codes_report channels).read_all hw size)

/-- A report with a selected pair of which only the remote candidate is reported, found by the
end of its identifier, and numbers with their top bit set. -/
def topBits : RTCStatsReport where
  peer_connection := some ⟨3,1⟩
  transport := some ⟨UInt64.ofNat (2^64-1),2,3,4,⟨"Controlling"⟩,⟨"Connected"⟩,⟨"Client"⟩,
    ⟨"Connected"⟩,"FEFD","é",UInt32.ofNat (2^32-1),"pair"⟩
  get := fun id => if id = "pair" then
      some (.iceCandidatePair ⟨"pair","a","b",1,2,3,4,5,6,7,8,9,10,⟨"Succeeded"⟩,true⟩)
    else none
  iter := [.dataChannel ⟨65535,"x","",⟨"Open"⟩,1,2,3,4⟩,
    .remoteCandidate ⟨"remote-b",none,65535,"udp",⟨"Host"⟩,1,"",⟨"Unspecified"⟩,"","",0,"",
      ⟨"Unspecified"⟩⟩]

theorem decode_encode_stats_topBits :
    ∃ bytes stats, encode_stats (.ok 5) topBits = .ok bytes ∧
      StatsDecoder.decode bytes = .ok stats ∧ stats.timestamp = ⟨5⟩ ∧
      stats.transport.packetsSent = -1 ∧ stats.transport.selectedCandidatePairChanges = 2^32-1 ∧
      stats.transport.dtlsCipher = "é" ∧
      stats.transport.selectedCandidatePair.map (fun p => (p.localCandidate,
        p.remoteCandidate.map (fun c => (c.address,c.port)))) = some (none,some ("",65535)) ∧
      stats.dataChannels.map (·.identifier) = [65535] := by
  have hl : (encode_stats (.ok 5) topBits).toOption.map List.length = some 376 := by decide +kernel
  cases hb : encode_stats (.ok 5) topBits with
  | error e => simp [hb,Except.toOption] at hl
  | ok bytes =>
  have hs : bytes.length = 376 := by simpa [hb,Except.toOption] using hl
  obtain ⟨millis,peer,transport,hn,hp,ht,hd,-⟩ :=
    decode_encode_stats (.ok 5) topBits bytes hb (by decide) (by omega)
  cases hn
  cases hp
  cases ht
  exact ⟨bytes,_,rfl,hd,by decide⟩

end Kestara.Wire
