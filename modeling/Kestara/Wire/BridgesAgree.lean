import Kestara.Native.CValidity
import Kestara.Wire.Masks

/-!
# Agreement of the two bridges

Every call of the Kotlin library means the same on both platforms: both bridges reject it, or both
pass on the same request, up to the JNI boundary splitting a server with several URLs.
-/
namespace Kestara.Wire
open Native Results

/-- A server with several URLs as consecutive servers with one URL each. -/
def splitServers (servers : List RTCIceServer) : List RTCIceServer :=
  servers.flatMap fun s => s.urls.map fun url => { s with urls := [url] }

def splitOperation : Operation → Operation
  | .createPeer c => .createPeer { c with ice_servers := splitServers c.ice_servers }
  | .setConfiguration peer servers relay_only =>
    .setConfiguration peer (splitServers servers) relay_only
  | operation => operation

def splitRequest : Request → Request
  | .submit runtime command =>
    .submit runtime { command with operation := splitOperation command.operation }
  | request => request

/-- Both calls are rejected, or both make the same request up to the splitting of servers. -/
def Agree (jvm native : Except String Request) : Prop :=
  (¬ Accepts jvm ∧ ¬ Accepts native) ∨ ∃ r, native = .ok r ∧ jvm = .ok (splitRequest r)

section Values

lemma usize_eq {value : Int32} (message : String) (h : 0 ≤ value.toInt) :
    usize value message = .ok value.toInt.toNat := if_pos h

lemma port_eq {value : Int32} (name : String) (h : InU16 value.toInt) :
    port value name = .ok (UInt16.ofNat value.toInt.toNat) := by
  simp only [port,tryU16_eq h]

lemma positive_eq {value : Int32} (name : String) (h : 0 < value.toInt) :
    positive_u32 value name = .ok (UInt32.ofNat value.toInt.toNat) := by
  obtain ⟨v,hv⟩ := accepts_positive name h
  have hval := (positive_value hv).2
  have hlt := value.toInt_lt
  rw [hv]
  congr 1
  apply UInt32.toNat_inj.mp
  rw [UInt32.toNat_ofNat']
  omega

lemma optional_duration_eq {o : Option Int64} (name : String) (h : ∀ m ∈ o, 0 ≤ m.toInt) :
    optional_duration (optionalMillis o) name = .ok (o.map fun m => ⟨m.toInt.toNat⟩) := by
  cases o with
  | none => rfl
  | some m =>
    have hm : 0 ≤ m.toInt := h m rfl
    have hne : m ≠ -1 := by
      rintro rfl
      exact absurd hm (by decide)
    simp only [optionalMillis,Option.getD_some,optional_duration,hne,hm,↓reduceIte,Option.map_some]

lemma optional_u16_eq {o : Option Int32} (name : String) (h : ∀ n ∈ o, InU16 n.toInt) :
    optional_u16 (o.getD (-1)) name = .ok (o.map fun n => UInt16.ofNat n.toInt.toNat) := by
  cases o with
  | none => rfl
  | some n =>
    have hn : InU16 n.toInt := h n rfl
    have hne : n ≠ -1 := by
      rintro rfl
      exact absurd hn.1 (by decide)
    simp only [Option.getD_some,optional_u16,hne,tryU16_eq hn,↓reduceIte,Option.map_some]

lemma handle_eq {value : Int64} (h : 0 ≤ value.toInt) :
    handle_from_jlong value = .ok value.toUInt64 := by
  have hval : UInt64.ofNat value.toInt.toNat = value.toUInt64 := by
    apply UInt64.toNat_inj.mp
    have hlt := value.toInt_lt
    have hbits : value.toInt = value.toUInt64.toBitVec.toInt := rfl
    have hnat := value.toUInt64.toNat_lt
    rw [BitVec.toInt_eq_toNat_cond,UInt64.toNat_toBitVec] at hbits
    rw [UInt64.toNat_ofNat']
    split_ifs at hbits <;> omega
  rw [handle_from_jlong,if_pos h,hval]

lemma read_array (x : Externals) (values : List String) :
    read_string_array x (JvmNativeBridge.array values) = .ok values := by
  change (values.map some).mapM (read_string x) = _
  induction values with
  | nil => rfl
  | cons value values ih =>
    have hv : read_string x (some value) = .ok value := rfl
    rw [List.map_cons,List.mapM_cons,ok_bind hv,ok_bind ih]
    rfl

lemma ne_empty_of_notBlank {s : String} (h : isBlank s = false) : s ≠ "" := by
  rintro rfl
  exact absurd h (by decide)

lemma ne_empty_of_utf16Length {s : String} (h : 1 ≤ utf16Length s) : s ≠ "" := by
  rintro rfl
  exact absurd h (by decide)

lemma nonEmpty_eq {o : Option String} (h : ∀ s ∈ o, s ≠ "") : Bridge.nonEmpty (o.getD "") = o := by
  cases o with
  | none => rfl
  | some s =>
    have hs : s.isEmpty = false := by simpa using h s rfl
    simp [Bridge.nonEmpty,hs]

lemma nonEmpty_pem (o : Option DtlsCertificate) :
    Bridge.nonEmpty ((o.map DtlsCertificate.pem).getD "") = o.map DtlsCertificate.pem := by
  apply nonEmpty_eq
  intro s hs
  obtain ⟨c,-,rfl⟩ := Option.mem_map.mp hs
  exact ne_empty_of_notBlank c.pem_notBlank

lemma fromUtf8_encode (d : Documents) (s : String) :
    CBridge.fromUtf8 d (Utf8.encode s) = .ok s := by
  rw [CBridge.fromUtf8,Utf8.decode_encode,if_pos rfl]

lemma optional_string_eq (d : Documents) (o : Option String) :
    CBridge.optional_string d (NativeNativeBridge.nullableInput o) = .ok o := by
  cases o with
  | none => rfl
  | some s =>
    change some <$> CBridge.fromUtf8 d (Utf8.encode s) = _
    rw [fromUtf8_encode]
    rfl

end Values

section Options

def nativeMode : IceMdnsMode → MulticastDnsMode
  | .disabled => .disabled
  | .queryOnly => .queryOnly
  | .queryAndGather => .queryAndGather

def nativeRole : DtlsRole → Option RTCDtlsRole
  | .auto => none
  | .client => some .client
  | .server => some .server

def nativeMapping (m : IceNatMapping) : List String × RTCIceCandidateType :=
  (m.externalAddresses,match m.type with
    | .host => .host
    | .serverReflexive => .srflx)

lemma mode_eq (m : IceMdnsMode) : multicastDnsMode (jint m.ordinal) = .ok (nativeMode m) := by
  cases m <;> rfl

lemma role_eq (r : DtlsRole) : dtlsRole (jint r.ordinal) = .ok (nativeRole r) := by
  cases r <;> rfl

/-- Both native layers read the mapping that their side passes. -/
lemma natMapping_eq (o : Option IceNatMapping) :
    Bridge.natMapping ((o.map (·.externalAddresses)).getD [])
        ((o.map fun m => jint m.type.ordinal).getD (-1)) = .ok (o.map nativeMapping) ∧
      CBridge.natMapping (o.map fun m =>
        { addresses := m.externalAddresses,mapping_type := jint m.type.ordinal }) =
        .ok (o.map nativeMapping) := by
  cases o with
  | none => exact ⟨rfl,rfl⟩
  | some m =>
    obtain ⟨addresses,type,hgiven,-⟩ := m
    obtain ⟨a,as,rfl⟩ := List.exists_cons_of_ne_nil hgiven
    cases type <;> exact ⟨rfl,rfl⟩

lemma iceCredentials_eq (o : Option IceCredentials) :
    Bridge.iceCredentials ((o.map (·.usernameFragment)).getD "") ((o.map (·.password)).getD "") =
      .ok (o.map fun c => (c.usernameFragment,c.password)) := by
  cases o with
  | none => rfl
  | some c =>
    have hu : c.usernameFragment.isEmpty = false := by
      simpa using ne_empty_of_utf16Length (by have := c.usernameFragment_length; omega)
    have hp : c.password.isEmpty = false := by
      simpa using ne_empty_of_utf16Length (by have := c.password_length; omega)
    simp [Bridge.iceCredentials,hu,hp]

lemma candidatePoolSize_eq {size : Int32} (h : 0 ≤ size.toInt ∧ size.toInt ≤ 1) :
    Bridge.candidatePoolSize size = .ok (UInt8.ofNat size.toInt.toNat) := by
  have hcases : size.toInt = 0 ∨ size.toInt = 1 := by omega
  unfold Bridge.candidatePoolSize
  obtain h0 | h1 := hcases
  · rw [h0]
    rfl
  · rw [h1]
    rfl

lemma localAddress_eq (x : Externals) {o : Option String} (h : ∀ a ∈ o, isBlank a = false) :
    Bridge.localAddress x (o.getD "") = o.mapM (mdnsLocalAddress x) := by
  cases o with
  | none => rfl
  | some a =>
    have ha : a.isEmpty = false := by simpa using ne_empty_of_notBlank (h a rfl)
    simp only [Option.getD_some,Bridge.localAddress,ha,Bool.false_eq_true,↓reduceIte]
    cases hm : mdnsLocalAddress x a with
    | error e =>
      change _ = (mdnsLocalAddress x a >>= _)
      rw [hm]
      rfl
    | ok address =>
      change _ = (mdnsLocalAddress x a >>= _)
      rw [hm]
      rfl

lemma network_types_eq {types : List IceNetworkType} (h : types ≠ []) :
    network_types (ordinalMask (types.map (·.ordinal))) =
      .ok (selected [.udp4,.udp6,.tcp4,.tcp6] (ordinalMask (types.map (·.ordinal))).toBitVec) := by
  have hlt : ∀ o ∈ types.map (·.ordinal), o < 4 := by
    intro o ho
    obtain ⟨t,-,rfl⟩ := List.mem_map.mp ho
    cases t <;> decide
  obtain ⟨hpos,hmask⟩ := ordinalMask_range (by norm_num : 4 < 32) hlt (by simpa using h)
  unfold network_types
  rw [if_neg (by rw [not_or,not_le,not_not]; exact ⟨hpos,hmask⟩)]

lemma ordinal_lt (s : DtlsCipherSuite) : s.ordinal < 8 := by cases s <;> decide

lemma cipher_suites_eq {suites : List DtlsCipherSuite} (h : suites ≠ []) :
    cipher_suites (ordinalMask (suites.map (·.ordinal))) =
      .ok (selected allCipherSuites (ordinalMask (suites.map (·.ordinal))).toBitVec) := by
  have hlt : ∀ o ∈ suites.map (·.ordinal), o < 8 := by
    intro o ho
    obtain ⟨s,-,rfl⟩ := List.mem_map.mp ho
    exact ordinal_lt s
  obtain ⟨hpos,hmask⟩ := ordinalMask_range (by norm_num : 8 < 32) hlt (by simpa using h)
  unfold cipher_suites
  rw [if_neg (by rw [not_or,not_le,not_not]; exact ⟨hpos,hmask⟩)]

/-- The flattened arrays give the split servers. -/
lemma zipServers_flattened (servers : List IceServer) :
    zipServers (JvmNativeBridge.flattenedServers servers).1
      (JvmNativeBridge.flattenedServers servers).2.1
      (JvmNativeBridge.flattenedServers servers).2.2 =
      splitServers (servers.map fun s =>
        { urls := s.urls,username := s.username,credential := s.credential }) := by
  induction servers with
  | nil => rfl
  | cons s servers ih =>
    have hzip : zipServers s.urls (s.urls.map fun _ => s.username)
        (s.urls.map fun _ => s.credential) =
        s.urls.map fun url => { urls := [url],username := s.username,credential := s.credential } := by
      unfold zipServers
      generalize s.urls = urls
      induction urls with
      | nil => rfl
      | cons url urls ih => simpa using ih
    simp only [JvmNativeBridge.flattenedServers,splitServers,zipServers,List.flatMap_cons,
      List.map_cons] at ih hzip ⊢
    rw [List.zip_append (by simp),List.zip_append (by simp),List.map_append,hzip,ih]

end Options

section Peers
variable (x : Externals) (c : PeerConnectionConfiguration)

/-- What both boundaries make of a configuration, given its mDNS address. -/
def peerConfiguration (address : Option IpAddr) : PeerConfiguration :=
  let ice := c.iceOptions
  let sctp := c.sctpOptions
  let dtls := c.dtlsOptions
  let transport := c.transportOptions
  { ice_servers := c.iceServers.map fun s =>
      { urls := s.urls,username := s.username,credential := s.credential }
    min_port := UInt16.ofNat c.minPort.toInt.toNat
    max_port := UInt16.ofNat c.maxPort.toInt.toNat
    relay_only := c.iceTransportPolicy.ordinal = 1
    ice :=
      { disconnected_timeout := ice.disconnectedTimeout.map fun m => ⟨m.toInt.toNat⟩
        failed_timeout := ice.failedTimeout.map fun m => ⟨m.toInt.toNat⟩
        keep_alive_interval := ice.keepAliveInterval.map fun m => ⟨m.toInt.toNat⟩
        check_interval := ice.checkInterval.map fun m => ⟨m.toInt.toNat⟩
        max_binding_requests := ice.maxBindingRequests.map fun n => UInt16.ofNat n.toInt.toNat
        host_acceptance_min_wait := ice.hostAcceptanceMinWait.map fun m => ⟨m.toInt.toNat⟩
        server_reflexive_acceptance_min_wait :=
          ice.serverReflexiveAcceptanceMinWait.map fun m => ⟨m.toInt.toNat⟩
        peer_reflexive_acceptance_min_wait :=
          ice.peerReflexiveAcceptanceMinWait.map fun m => ⟨m.toInt.toNat⟩
        relay_acceptance_min_wait := ice.relayAcceptanceMinWait.map fun m => ⟨m.toInt.toNat⟩
        network_types := selected [.udp4,.udp6,.tcp4,.tcp6]
          (ordinalMask (ice.networkTypes.map (·.ordinal))).toBitVec
        mdns_mode := nativeMode ice.mdnsMode
        mdns_query_timeout := ice.mdnsQueryTimeout.map fun m => ⟨m.toInt.toNat⟩
        lite := ice.lite
        nat_mapping := ice.natMapping.map nativeMapping
        discard_local_candidates_on_restart := ice.discardLocalCandidatesOnRestart
        candidate_pool_size := UInt8.ofNat ice.candidatePoolSize.toInt.toNat
        include_loopback_candidate := ice.includeLoopbackCandidate
        mdns_local_name := ice.mdnsLocalName
        mdns_local_address := address
        credentials := ice.credentials.map fun c => (c.usernameFragment,c.password) }
    sctp :=
      { send_buffer_limit := sctp.sendBufferLimit.toInt.toNat
        receive_buffer_size := UInt32.ofNat sctp.receiveBufferSize.toInt.toNat
        maximum_message_size := UInt32.ofNat sctp.maximumMessageSize.toInt.toNat
        receive_queue_capacity := sctp.receiveQueueCapacity.toInt.toNat }
    dtls :=
      { answering_role := nativeRole dtls.answeringRole
        media_level_fingerprints := dtls.mediaLevelFingerprints
        replay_protection_window := dtls.replayProtectionWindow.toInt.toNat
        cipher_suites := selected allCipherSuites
          (ordinalMask (dtls.cipherSuites.map (·.ordinal))).toBitVec }
    transport :=
      { udp_bind_addresses := transport.udpBindAddresses
        tcp_bind_addresses := transport.tcpBindAddresses
        receive_mtu := transport.receiveMtu.toInt.toNat } }

/-- The address that both boundaries parse. -/
def address : Except String (Option IpAddr) :=
  c.iceOptions.mdnsLocalAddress.mapM (mdnsLocalAddress x)

variable {c}

lemma timeout_nonneg {o : Option Int64} (h : o ∈ [c.iceOptions.disconnectedTimeout,
    c.iceOptions.failedTimeout,c.iceOptions.keepAliveInterval,c.iceOptions.checkInterval,
    c.iceOptions.mdnsQueryTimeout]) : ∀ m ∈ o, 0 ≤ m.toInt := by
  intro m hm
  have := c.iceOptions.timeouts o h m hm
  omega

lemma bindings_range : ∀ n ∈ c.iceOptions.maxBindingRequests, InU16 n.toInt := by
  intro n hn
  obtain ⟨h₁,h₂⟩ := c.iceOptions.maxBindingRequests_range n hn
  exact ⟨h₁,by omega⟩

lemma inU16_minPort : InU16 c.minPort.toInt := ⟨c.ports.min.1,by have := c.ports.min.2; omega⟩

lemma inU16_maxPort : InU16 c.maxPort.toInt := ⟨c.ports.max.1,by have := c.ports.max.2; omega⟩

/-- The check of a range that Kotlin has checked. -/
lemma portRange_of_ports {minPort maxPort : Int32} (message : String)
    (h : PortRange minPort maxPort) :
    portRange (UInt16.ofNat minPort.toInt.toNat) (UInt16.ofNat maxPort.toInt.toNat) message =
      .ok () := by
  obtain ⟨⟨h₁,h₂⟩,⟨h₃,h₄⟩,hboth,hle⟩ := h
  apply portRange_eq
  · rw [UInt16.toNat_ofNat',UInt16.toNat_ofNat']
    omega
  · rw [UInt16.toNat_ofNat',UInt16.toNat_ofNat']
    omega

lemma local_ne_empty : ∀ s ∈ c.iceOptions.mdnsLocalName, s ≠ "" := by
  intro s hs
  obtain ⟨stem,rfl⟩ := c.iceOptions.mdnsLocalName_local s hs
  intro h
  have := congrArg String.toList h
  simp at this

lemma buffer_pos : 0 < c.sctpOptions.receiveBufferSize.toInt := by
  have := c.sctpOptions.receiveBufferSize_range
  omega

lemma message_pos : 0 < c.sctpOptions.maximumMessageSize.toInt := by
  have := c.sctpOptions.maximumMessageSize_range
  omega

lemma peer_configuration_peer :
    CBridge.peer_configuration x (NativeWire.peer c) =
      address x c >>= fun a => .ok (peerConfiguration c a) := by
  have hwait := c.iceOptions.waits
  unfold CBridge.peer_configuration
  refine (ok_bind (port_eq _ inU16_minPort)).trans ?_
  refine (ok_bind (port_eq _ inU16_maxPort)).trans ?_
  refine (ok_bind (portRange_of_ports _ c.ports)).trans ?_
  refine (ok_bind (mode_eq c.iceOptions.mdnsMode)).trans ?_
  refine (ok_bind (natMapping_eq c.iceOptions.natMapping).2).trans ?_
  change address x c >>= _ = _
  cases ha : address x c with
  | error e => rfl
  | ok a =>
    refine (ok_bind rfl).trans ?_
    refine (ok_bind (optional_duration_eq _ (timeout_nonneg (c := c) (by simp)))).trans ?_
    refine (ok_bind (optional_duration_eq _ (timeout_nonneg (c := c) (by simp)))).trans ?_
    refine (ok_bind (optional_duration_eq _ (timeout_nonneg (c := c) (by simp)))).trans ?_
    refine (ok_bind (optional_duration_eq _ (timeout_nonneg (c := c) (by simp)))).trans ?_
    refine (ok_bind (optional_u16_eq _ bindings_range)).trans ?_
    refine (ok_bind (optional_duration_eq _ (hwait _ (by simp)))).trans ?_
    refine (ok_bind (optional_duration_eq _ (hwait _ (by simp)))).trans ?_
    refine (ok_bind (optional_duration_eq _ (hwait _ (by simp)))).trans ?_
    refine (ok_bind (optional_duration_eq _ (hwait _ (by simp)))).trans ?_
    refine (ok_bind (network_types_eq c.iceOptions.networkTypes_given)).trans ?_
    refine (ok_bind (optional_duration_eq _ (timeout_nonneg (c := c) (by simp)))).trans ?_
    refine (ok_bind (positive_eq _ buffer_pos)).trans ?_
    refine (ok_bind (positive_eq _ message_pos)).trans ?_
    refine (ok_bind (role_eq c.dtlsOptions.answeringRole)).trans ?_
    refine (ok_bind (cipher_suites_eq c.dtlsOptions.cipherSuites_given)).trans ?_
    have hservers : CBridge.ice_servers (NativeWire.peer c).ice_servers =
        (peerConfiguration c a).ice_servers := by
      simp [CBridge.ice_servers,NativeWire.peer,peerConfiguration]
    have hcredentials : ((NativeWire.peer c).credentials.map fun c =>
        (c.username_fragment,c.password)) = (peerConfiguration c a).ice.credentials := by
      simp [NativeWire.peer,peerConfiguration,Function.comp_def]
    rw [hservers,hcredentials]
    rfl

lemma require_eq {condition : Prop} [Decidable condition] (message : String) (h : condition) :
    require condition message = .ok () := by
  rw [require,decide_eq_true h]
  rfl

lemma flattened_length (servers : List IceServer) :
    (JvmNativeBridge.flattenedServers servers).1.length =
      (JvmNativeBridge.flattenedServers servers).2.1.length ∧
    (JvmNativeBridge.flattenedServers servers).1.length =
      (JvmNativeBridge.flattenedServers servers).2.2.length := by
  simp [JvmNativeBridge.flattenedServers,List.length_flatMap]

lemma policy_range (policy : IceTransportPolicy) :
    jint policy.ordinal = 0 ∨ jint policy.ordinal = 1 := by
  cases policy
  · exact .inl rfl
  · exact .inr rfl

lemma timeout_eq {millis : Int64} (h : 0 ≤ millis.toInt) :
    timeout millis = .ok ⟨millis.toInt.toNat⟩ := if_pos h

/-- The command that both boundaries queue for a peer. -/
def peerRequest (runtime operation : Int64) (c : PeerConnectionConfiguration)
    (a : Option IpAddr) : Request :=
  .submit runtime.toUInt64
    { operation_handle := operation.toUInt64
      timeout := ⟨c.operationTimeout.toInt.toNat⟩
      operation := .createPeer (peerConfiguration c a) }

lemma jvm_createPeer {runtime operation : Int64} (hr : 0 ≤ runtime.toInt)
    (ho : 0 ≤ operation.toInt) :
    JvmNativeBridge.request x runtime operation (.createPeer c) =
      address x c >>= fun a => .ok (splitRequest (peerRequest runtime operation c a)) := by
  have hwait := c.iceOptions.waits
  have hcapacity := c.sctpOptions.receiveQueueCapacity_range
  have hcapacity₀ : 0 ≤ c.sctpOptions.receiveQueueCapacity.toInt := by omega
  have hmessage := c.sctpOptions.maximumMessageSize_range
  have hbuffer := c.sctpOptions.receiveBufferSize_range
  have hwindow := c.dtlsOptions.replayProtectionWindow_pos
  have hmtu : 0 ≤ c.transportOptions.receiveMtu.toInt := by
    obtain h | h := c.transportOptions.receiveMtu_range <;> omega
  have htimeout : 0 ≤ c.operationTimeout.toInt := by
    have := c.operationTimeout_range
    omega
  have hblt := c.sctpOptions.receiveBufferSize.toInt_lt
  have hbufferNat : (UInt32.ofNat c.sctpOptions.receiveBufferSize.toInt.toNat).toNat =
      c.sctpOptions.receiveBufferSize.toInt.toNat := by
    rw [UInt32.toNat_ofNat']
    omega
  have hmessageNat : (UInt32.ofNat c.sctpOptions.maximumMessageSize.toInt.toNat).toNat =
      c.sctpOptions.maximumMessageSize.toInt.toNat := by
    rw [UInt32.toNat_ofNat']
    omega
  change Bridge.nativeSubmitCreatePeer x runtime operation (JvmNativeBridge.createPeerArguments c)
    c.operationTimeout = _
  unfold Bridge.nativeSubmitCreatePeer
  refine (ok_bind (read_array x _)).trans ?_
  refine (ok_bind (read_array x _)).trans ?_
  refine (ok_bind (read_array x _)).trans ?_
  refine (ok_bind (read_array x _)).trans ?_
  refine (ok_bind rfl).trans ?_
  refine (ok_bind rfl).trans ?_
  refine (ok_bind rfl).trans ?_
  refine (ok_bind rfl).trans ?_
  refine (ok_bind (read_array x _)).trans ?_
  refine (ok_bind (read_array x _)).trans ?_
  refine (ok_bind (handle_eq hr)).trans ?_
  refine (ok_bind (handle_eq ho)).trans ?_
  refine (ok_bind (require_eq _ (flattened_length c.iceServers))).trans ?_
  refine (ok_bind (port_eq _ inU16_minPort)).trans ?_
  refine (ok_bind (port_eq _ inU16_maxPort)).trans ?_
  refine (ok_bind (portRange_of_ports _ c.ports)).trans ?_
  refine (ok_bind (require_eq _ (policy_range c.iceTransportPolicy))).trans ?_
  refine (ok_bind (network_types_eq c.iceOptions.networkTypes_given)).trans ?_
  refine (ok_bind (mode_eq c.iceOptions.mdnsMode)).trans ?_
  refine (ok_bind (natMapping_eq c.iceOptions.natMapping).1).trans ?_
  refine (ok_bind (positive_eq _ buffer_pos)).trans ?_
  refine (ok_bind (positive_eq _ message_pos)).trans ?_
  refine (ok_bind (usize_eq _ hcapacity₀)).trans ?_
  refine (ok_bind (require_eq _ (by omega))).trans ?_
  refine (ok_bind (require_eq _ (by rw [hmessageNat]; omega))).trans ?_
  refine (ok_bind (require_eq _ (by rw [hmessageNat,hbufferNat]; omega))).trans ?_
  refine (ok_bind (timeout_eq htimeout)).trans ?_
  refine (ok_bind (role_eq c.dtlsOptions.answeringRole)).trans ?_
  refine (ok_bind (usize_eq _ hwindow.le)).trans ?_
  refine (ok_bind (require_eq _ (by omega))).trans ?_
  refine (ok_bind (usize_eq _ hmtu)).trans ?_
  rw [show Bridge.localAddress x _ = address x c from
    localAddress_eq x c.iceOptions.mdnsLocalAddress_notBlank]
  cases ha : address x c with
  | error e => rfl
  | ok a =>
    refine (ok_bind rfl).trans ?_
    refine (ok_bind (iceCredentials_eq c.iceOptions.credentials)).trans ?_
    refine (ok_bind (optional_duration_eq _ (timeout_nonneg (c := c) (by simp)))).trans ?_
    refine (ok_bind (optional_duration_eq _ (timeout_nonneg (c := c) (by simp)))).trans ?_
    refine (ok_bind (optional_duration_eq _ (timeout_nonneg (c := c) (by simp)))).trans ?_
    refine (ok_bind (optional_duration_eq _ (timeout_nonneg (c := c) (by simp)))).trans ?_
    refine (ok_bind (optional_u16_eq _ bindings_range)).trans ?_
    refine (ok_bind (optional_duration_eq _ (hwait _ (by simp)))).trans ?_
    refine (ok_bind (optional_duration_eq _ (hwait _ (by simp)))).trans ?_
    refine (ok_bind (optional_duration_eq _ (hwait _ (by simp)))).trans ?_
    refine (ok_bind (optional_duration_eq _ (hwait _ (by simp)))).trans ?_
    refine (ok_bind (optional_duration_eq _ (timeout_nonneg (c := c) (by simp)))).trans ?_
    refine (ok_bind (candidatePoolSize_eq c.iceOptions.candidatePoolSize_range)).trans ?_
    refine (ok_bind (usize_eq _ c.sctpOptions.sendBufferLimit_nonneg)).trans ?_
    refine (ok_bind (cipher_suites_eq c.dtlsOptions.cipherSuites_given)).trans ?_
    have hservers := zipServers_flattened c.iceServers
    have hname := nonEmpty_eq (local_ne_empty (c := c))
    have hrelay : decide ((JvmNativeBridge.createPeerArguments c).ice_transport_policy = 1) =
        decide (c.iceTransportPolicy.ordinal = 1) := by
      change decide (jint c.iceTransportPolicy.ordinal = 1) = _
      cases c.iceTransportPolicy <;> rfl
    rw [hrelay]
    simp only [JvmNativeBridge.createPeerArguments,hservers,hname]
    rfl

end Peers

section Submits
variable (x : Externals) (d : Documents) (e : Encoder) {runtime operation : Int64}

lemma not_accepts_bind_error {α β : Type} {r : Except String α} {f : α → Except String β}
    {error : String} (h : r = .error error) : ¬ Accepts (r >>= f) := by
  rw [h]
  exact not_accepts_error error

lemma not_accepts_of_error {α β : Type} {r : Except String α} {f : α → Except String β}
    {error : String} (h : f = fun _ => .error error) : ¬ Accepts (r >>= f) := by
  subst h
  cases r with
  | error e => exact not_accepts_error e
  | ok a => exact not_accepts_error error

/-- Requests computed from one value agree. -/
lemma Agree.of_bind {α : Type} {jvm native : Except String Request} (r : Except String α)
    (f : α → Except String Request) (hn : native = r >>= f)
    (hj : jvm = r >>= fun a => splitRequest <$> f a) : Agree jvm native := by
  subst hn hj
  cases r with
  | error error => exact .inl ⟨not_accepts_bind_error rfl,not_accepts_bind_error rfl⟩
  | ok a =>
    cases hf : f a with
    | error error =>
      refine .inl ⟨?_,?_⟩
      · change ¬ Accepts (splitRequest <$> f a)
        rw [hf]
        exact not_accepts_error error
      · change ¬ Accepts (f a)
        rw [hf]
        exact not_accepts_error error
    | ok request =>
      refine .inr ⟨request,hf,?_⟩
      change splitRequest <$> f a = _
      rw [hf]
      rfl

lemma submitTo_eq {target millis : Int64} {make : UInt64 → Except String Operation}
    (hr : 0 ≤ runtime.toInt) (ho : 0 ≤ operation.toInt) (ht : 0 ≤ target.toInt) :
    Bridge.submitTo runtime operation target millis make =
      timeout millis >>= fun t => make target.toUInt64 >>= fun o =>
        .ok (.submit runtime.toUInt64
          { operation_handle := operation.toUInt64,timeout := t,operation := o }) := by
  unfold Bridge.submitTo
  refine (ok_bind (handle_eq hr)).trans ?_
  refine (ok_bind (handle_eq ho)).trans ?_
  cases timeout millis with
  | error error => rfl
  | ok t => exact (ok_bind (handle_eq ht))

lemma submit_eq {a : SubmitArguments} {text secondary : Option String} {data : List UInt8}
    (ht : CBridge.optional_string d a.text = .ok text)
    (hs : CBridge.optional_string d a.secondary_text = .ok secondary)
    (hd : CBridge.input a.data = .ok data) :
    CBridge.kestara_runtime_submit x d a =
      timeout a.timeout_millis >>= fun t => CBridge.command x d a t text secondary data := by
  unfold CBridge.kestara_runtime_submit
  cases timeout a.timeout_millis with
  | error error => rfl
  | ok t =>
    refine (ok_bind ht).trans ?_
    refine (ok_bind hs).trans ?_
    exact ok_bind hd

/-- A call that both boundaries turn into one operation on one object. -/
lemma agree_simple {target millis : Int64} {make : UInt64 → Except String Operation}
    {a : SubmitArguments} {text secondary : Option String} {data : List UInt8}
    (hr : 0 ≤ runtime.toInt) (ho : 0 ≤ operation.toInt) (ht : 0 ≤ target.toInt)
    (htext : CBridge.optional_string d a.text = .ok text)
    (hsecondary : CBridge.optional_string d a.secondary_text = .ok secondary)
    (hdata : CBridge.input a.data = .ok data) (hmillis : a.timeout_millis = millis)
    (hcommand : ∀ t, CBridge.command x d a t text secondary data =
      make target.toUInt64 >>= fun o => .ok (.submit runtime.toUInt64
        { operation_handle := operation.toUInt64,timeout := t,operation := o }))
    (hsplit : ∀ h o, make h = .ok o → splitOperation o = o) :
    Agree (Bridge.submitTo runtime operation target millis make)
      (CBridge.kestara_runtime_submit x d a) := by
  subst hmillis
  refine Agree.of_bind (timeout a.timeout_millis) _ (submit_eq x d htext hsecondary hdata) ?_
  rw [submitTo_eq hr ho ht]
  congr 1
  funext t
  rw [hcommand]
  cases hmake : make target.toUInt64 with
  | error error => rfl
  | ok o =>
    change Except.ok _ = Except.ok (splitRequest _)
    rw [splitRequest,hsplit _ _ hmake]

lemma i32_toInt64 (n : Int32) (message : String) : CBridge.i32 n.toInt64 message = .ok n := by
  have h₁ := n.le_toInt
  have h₂ := n.toInt_lt
  rw [CBridge.i32,Int32.toInt_toInt64,if_pos ⟨h₁,h₂⟩,Int32.ofInt_toInt]

end Submits

/-- The object that a call names, or 0. -/
def BridgeCall.target : BridgeCall → Int64
  | .createPeer _ | .rotateCertificate _ _ | .closeRuntime _ => 0
  | .restartIce peer _ | .setConfiguration peer _ _ | .createDescription peer _ _
  | .setLocalDescription peer _ _ | .setRemoteDescription peer _ _
  | .addIceCandidate peer _ _ _ _ | .createDataChannel peer _ _ _ | .getStats peer _
  | .closePeer peer _ => peer
  | .sendText channel _ _ _ | .sendBinary channel _ _ _ | .dataChannelWritable channel _
  | .dataChannelOutstandingBytes channel _ | .setDataChannelThresholds channel _ _ _
  | .closeDataChannel channel _ => channel

/-- The public API makes the call: handles are not negative, and thresholds are checked. -/
structure BridgeCall.Admitted (call : BridgeCall) : Prop where
  target : 0 ≤ call.target.toInt
  thresholds : ∀ channel low high timeout,
    call = .setDataChannelThresholds channel low high timeout →
    0 ≤ low.toInt ∧ low.toInt ≤ high.toInt ∧ high.toInt ≤ 4294967295

/-- The native side decodes the documents of the call to what Kotlin encoded. -/
def BridgeCall.Decodes (d : Documents) (e : Encoder) : BridgeCall → Prop
  | .createPeer c | .setConfiguration _ c _ =>
    d.peer (e.peer (NativeWire.peer c)) = .ok (NativeWire.peer c)
  | .createDataChannel _ _ options _ =>
    d.dataChannel (e.dataChannel (NativeWire.dataChannel options)) =
      .ok (NativeWire.dataChannel options)
  | _ => True

section Calls
variable (x : Externals) {d : Documents} {e : Encoder} {runtime operation : Int64}

lemma native_createPeer {c : PeerConnectionConfiguration}
    (hd : BridgeCall.Decodes d e (.createPeer c)) :
    NativeNativeBridge.request x d e runtime operation (.createPeer c) =
      address x c >>= fun a => .ok (peerRequest runtime operation c a) := by
  have htimeout : 0 ≤ c.operationTimeout.toInt := by
    have := c.operationTimeout_range
    omega
  have hcommand : ∀ t, CBridge.command x d
      (NativeNativeBridge.submitArguments e runtime operation (.createPeer c)) t none none [] =
      CBridge.peer_configuration x (NativeWire.peer c) >>= fun configuration =>
        .ok (CBridge.SubmitArguments.queue
          (NativeNativeBridge.submitArguments e runtime operation (.createPeer c)) t
          (.createPeer configuration)) := fun t =>
    (ok_bind rfl).trans (ok_bind hd)
  refine (submit_eq x d rfl rfl rfl).trans ?_
  refine (ok_bind (timeout_eq htimeout)).trans ?_
  rw [hcommand,peer_configuration_peer]
  cases address x c <;> rfl

variable (hr : 0 ≤ runtime.toInt) (ho : 0 ≤ operation.toInt)
include hr ho

lemma agree_createPeer {c : PeerConnectionConfiguration}
    (hd : BridgeCall.Decodes d e (.createPeer c)) :
    Agree (JvmNativeBridge.request x runtime operation (.createPeer c))
      (NativeNativeBridge.request x d e runtime operation (.createPeer c)) :=
  Agree.of_bind _ _ (native_createPeer x hd) (jvm_createPeer x hr ho)

lemma agree_setConfiguration {peer millis : Int64} {c : PeerConnectionConfiguration}
    (ht : 0 ≤ peer.toInt) (hd : BridgeCall.Decodes d e (.setConfiguration peer c millis)) :
    Agree (JvmNativeBridge.request x runtime operation (.setConfiguration peer c millis))
      (NativeNativeBridge.request x d e runtime operation (.setConfiguration peer c millis)) := by
  let servers := c.iceServers.map fun s : IceServer =>
    ({ urls := s.urls,username := s.username,credential := s.credential } : RTCIceServer)
  let queue (t : Duration) : Request :=
    .submit runtime.toUInt64
      { operation_handle := operation.toUInt64
        timeout := t
        operation := .setConfiguration peer.toUInt64 servers
          (decide (c.iceTransportPolicy.ordinal = 1)) }
  refine Agree.of_bind (timeout millis) (fun t => .ok (queue t)) ?_ ?_
  · refine (submit_eq x d rfl rfl rfl).trans ?_
    congr 1
    funext t
    refine (ok_bind rfl).trans ((ok_bind hd).trans ?_)
    have hservers : CBridge.ice_servers (NativeWire.peer c).ice_servers = servers := by
      simp [CBridge.ice_servers,NativeWire.peer,servers]
    rw [hservers]
    rfl
  · change Bridge.nativeSubmitSetConfiguration x runtime operation peer _ _ _ _ millis = _
    unfold Bridge.nativeSubmitSetConfiguration
    refine (ok_bind (read_array x _)).trans ?_
    refine (ok_bind (read_array x _)).trans ?_
    refine (ok_bind (read_array x _)).trans ?_
    refine (ok_bind (require_eq _ (flattened_length c.iceServers))).trans ?_
    refine (ok_bind (require_eq _ (policy_range c.iceTransportPolicy))).trans ?_
    have hrelay : decide (jint c.iceTransportPolicy.ordinal = 1) =
        decide (c.iceTransportPolicy.ordinal = 1) := by
      cases c.iceTransportPolicy <;> rfl
    rw [submitTo_eq hr ho ht,zipServers_flattened,hrelay]
    rfl

lemma agree_createDescription {peer millis : Int64} {type : SessionDescriptionType}
    (ht : 0 ≤ peer.toInt) :
    Agree (JvmNativeBridge.request x runtime operation (.createDescription peer type millis))
      (NativeNativeBridge.request x d e runtime operation
        (.createDescription peer type millis)) := by
  have hjvm : JvmNativeBridge.request x runtime operation (.createDescription peer type millis) =
      Bridge.answer (jint type.ordinal) >>= fun answer => timeout millis >>= fun t =>
        .ok (.submit runtime.toUInt64
          { operation_handle := operation.toUInt64
            timeout := t
            operation := .createDescription peer.toUInt64 answer }) := by
    change Bridge.nativeSubmitCreateDescription runtime operation peer _ millis = _
    unfold Bridge.nativeSubmitCreateDescription
    refine (ok_bind (handle_eq hr)).trans ?_
    refine (ok_bind (handle_eq ho)).trans ?_
    exact ok_bind (handle_eq ht)
  have hnative : NativeNativeBridge.request x d e runtime operation
      (.createDescription peer type millis) = timeout millis >>= fun t => CBridge.command x d
        (NativeNativeBridge.submitArguments e runtime operation
          (.createDescription peer type millis)) t none none [] := submit_eq x d rfl rfl rfl
  cases type with
  | offer => exact Agree.of_bind (timeout millis) _ hnative hjvm
  | answer => exact Agree.of_bind (timeout millis) _ hnative hjvm
  | pranswer => exact .inl ⟨hjvm ▸ not_accepts_error _,hnative ▸ not_accepts_of_error rfl⟩
  | rollback => exact .inl ⟨hjvm ▸ not_accepts_error _,hnative ▸ not_accepts_of_error rfl⟩

/-- What both boundaries do with a description once the arguments are read. -/
def descriptionRequest (x : Externals) (runtime operation peer : Int64)
    (description : SessionDescription) (isLocal : Bool) (t : Duration) : Request :=
  match parse_description x description.sdp (jint description.type.ordinal) with
  | .error error => .completeError runtime.toUInt64 operation.toUInt64 error
  | .ok parsed =>
    .submit runtime.toUInt64
      { operation_handle := operation.toUInt64
        timeout := t
        operation := if isLocal then .setLocalDescription peer.toUInt64 parsed
          else .setRemoteDescription peer.toUInt64 parsed }

omit hr ho in
lemma split_descriptionRequest (peer : Int64) (description : SessionDescription) (isLocal : Bool)
    (t : Duration) :
    splitRequest (descriptionRequest x runtime operation peer description isLocal t) =
      descriptionRequest x runtime operation peer description isLocal t := by
  unfold descriptionRequest
  split
  · rfl
  · cases isLocal <;> rfl

lemma submit_description_eq {peer : Int64} (millis : Int64) (description : SessionDescription)
    (isLocal : Bool) (ht : 0 ≤ peer.toInt) :
    Bridge.submit_description x runtime operation peer (some description.sdp)
      (jint description.type.ordinal) millis isLocal =
      timeout millis >>= fun t => splitRequest <$>
        (.ok (descriptionRequest x runtime operation peer description isLocal t)) := by
  unfold Bridge.submit_description
  refine (ok_bind rfl).trans ?_
  refine (ok_bind (handle_eq hr)).trans ?_
  refine (ok_bind (handle_eq ho)).trans ?_
  refine (ok_bind (handle_eq ht)).trans ?_
  congr 1
  funext t
  change _ = Except.ok (splitRequest _)
  rw [split_descriptionRequest]
  unfold descriptionRequest
  cases parse_description x description.sdp (jint description.type.ordinal) <;> rfl

omit hr ho in
lemma setDescription_eq (a : SubmitArguments) (peer : Int64) (description : SessionDescription)
    (isLocal : Bool) (t : Duration) {make : RTCSessionDescription → Operation}
    (hrun : a.runtime_handle = runtime.toUInt64) (hop : a.operation_handle = operation.toUInt64)
    (hnumber : a.number = Int64.ofNat description.type.ordinal)
    (hmake : ∀ parsed, make parsed = if isLocal then .setLocalDescription peer.toUInt64 parsed
      else .setRemoteDescription peer.toUInt64 parsed) :
    CBridge.setDescription x a t (some description.sdp) make =
      .ok (descriptionRequest x runtime operation peer description isLocal t) := by
  have hi : CBridge.i32 a.number "Invalid session description type" =
      .ok (jint description.type.ordinal) := by
    rw [hnumber]
    cases description.type <;> rfl
  unfold CBridge.setDescription
  refine (ok_bind rfl).trans ?_
  refine (ok_bind hi).trans ?_
  unfold descriptionRequest
  cases parse_description x description.sdp (jint description.type.ordinal) with
  | error error =>
    rw [← hrun,← hop]
    rfl
  | ok parsed =>
    simp only [CBridge.SubmitArguments.queue,hrun,hop,hmake]
    rfl

lemma agree_setLocalDescription {peer millis : Int64} {description : SessionDescription}
    (ht : 0 ≤ peer.toInt) :
    Agree (JvmNativeBridge.request x runtime operation (.setLocalDescription peer description millis))
      (NativeNativeBridge.request x d e runtime operation
        (.setLocalDescription peer description millis)) := by
  refine Agree.of_bind (timeout millis) _ ?_ (submit_description_eq x hr ho millis description true ht)
  refine (submit_eq x d (a := NativeNativeBridge.submitArguments e runtime operation
    (.setLocalDescription peer description millis))
    (optional_string_eq d (some description.sdp)) rfl rfl).trans ?_
  congr 1
  funext t
  exact setDescription_eq x _ peer description true t rfl rfl rfl fun _ => rfl

lemma agree_setRemoteDescription {peer millis : Int64} {description : SessionDescription}
    (ht : 0 ≤ peer.toInt) :
    Agree (JvmNativeBridge.request x runtime operation (.setRemoteDescription peer description millis))
      (NativeNativeBridge.request x d e runtime operation
        (.setRemoteDescription peer description millis)) := by
  refine Agree.of_bind (timeout millis) _ ?_ (submit_description_eq x hr ho millis description false ht)
  refine (submit_eq x d (a := NativeNativeBridge.submitArguments e runtime operation
    (.setRemoteDescription peer description millis))
    (optional_string_eq d (some description.sdp)) rfl rfl).trans ?_
  congr 1
  funext t
  exact setDescription_eq x _ peer description false t rfl rfl rfl fun _ => rfl

lemma agree_addIceCandidate {peer millis : Int64} {candidate : String} {sdpMid : Option String}
    {index : Option Int32} (ht : 0 ≤ peer.toInt) :
    Agree (JvmNativeBridge.request x runtime operation
        (.addIceCandidate peer candidate sdpMid index millis))
      (NativeNativeBridge.request x d e runtime operation
        (.addIceCandidate peer candidate sdpMid index millis)) := by
  refine agree_simple x d hr ho ht (optional_string_eq d (some candidate))
    (optional_string_eq d sdpMid) rfl rfl ?_ ?_
  · intro t
    have hadd : ∀ h, CBridge.addIceCandidate (NativeNativeBridge.submitArguments e runtime operation
        (.addIceCandidate peer candidate sdpMid index millis)) (some candidate) sdpMid = h →
        CBridge.command x d (NativeNativeBridge.submitArguments e runtime operation
          (.addIceCandidate peer candidate sdpMid index millis)) t (some candidate) sdpMid [] =
          h >>= fun o => .ok (.submit runtime.toUInt64
            { operation_handle := operation.toUInt64,timeout := t,operation := o }) := by
      rintro h rfl
      rfl
    apply hadd
    unfold CBridge.addIceCandidate
    refine (ok_bind rfl).trans ?_
    exact ok_bind (i32_toInt64 _ _)
  · intro h o hmake
    obtain ⟨_,_,hmake⟩ := bind_ok hmake
    cases hmake
    rfl

lemma agree_createDataChannel {peer millis : Int64} {label : String} {options : DataChannelOptions}
    (ht : 0 ≤ peer.toInt)
    (hd : BridgeCall.Decodes d e (.createDataChannel peer label options millis)) :
    Agree (JvmNativeBridge.request x runtime operation
        (.createDataChannel peer label options millis))
      (NativeNativeBridge.request x d e runtime operation
        (.createDataChannel peer label options millis)) := by
  refine agree_simple x d hr ho ht (optional_string_eq d (some label)) rfl rfl rfl ?_ ?_
  · intro t
    have hcreate : ∀ h, CBridge.createDataChannel d
        (NativeNativeBridge.submitArguments e runtime operation
          (.createDataChannel peer label options millis)) (some label) = h →
        CBridge.command x d (NativeNativeBridge.submitArguments e runtime operation
          (.createDataChannel peer label options millis)) t (some label) none [] =
          h >>= fun o => .ok (.submit runtime.toUInt64
            { operation_handle := operation.toUInt64,timeout := t,operation := o }) := by
      rintro h rfl
      rfl
    apply hcreate
    unfold CBridge.createDataChannel
    refine (ok_bind rfl).trans ?_
    refine (ok_bind hd).trans ?_
    exact ok_bind rfl
  · intro h o hmake
    obtain ⟨_,_,hmake⟩ := bind_ok hmake
    obtain ⟨_,_,hmake⟩ := bind_ok hmake
    obtain ⟨_,_,hmake⟩ := bind_ok hmake
    cases hmake
    rfl

lemma agree_thresholds {channel low high millis : Int64} (ht : 0 ≤ channel.toInt)
    (hlow : 0 ≤ low.toInt) (hle : low.toInt ≤ high.toInt) (hhigh : high.toInt ≤ 4294967295) :
    Agree (JvmNativeBridge.request x runtime operation
        (.setDataChannelThresholds channel low high millis))
      (NativeNativeBridge.request x d e runtime operation
        (.setDataChannelThresholds channel low high millis)) := by
  have hlow32 : tryU32 low.toInt = some (UInt32.ofNat low.toInt.toNat) :=
    tryU32_eq ⟨hlow,by omega⟩
  have hhigh32 : tryU32 high.toInt = some (UInt32.ofNat high.toInt.toNat) :=
    tryU32_eq ⟨by omega,by omega⟩
  have hjlow : ∀ m, Bridge.threshold low m = .ok (UInt32.ofNat low.toInt.toNat) := fun m => by
    simp only [Bridge.threshold,hlow32]
  have hjhigh : ∀ m, Bridge.threshold high m = .ok (UInt32.ofNat high.toInt.toNat) := fun m => by
    simp only [Bridge.threshold,hhigh32]
  have hclow : ∀ m, CBridge.u32 low m = .ok (UInt32.ofNat low.toInt.toNat) := fun m => by
    simp only [CBridge.u32,hlow32]
  have hchigh : ∀ m, CBridge.u32 high m = .ok (UInt32.ofNat high.toInt.toNat) := fun m => by
    simp only [CBridge.u32,hhigh32]
  have horder : UInt32.ofNat low.toInt.toNat ≤ UInt32.ofNat high.toInt.toNat := by
    rw [UInt32.le_iff_toNat_le,UInt32.toNat_ofNat',UInt32.toNat_ofNat']
    omega
  have hjvm : JvmNativeBridge.request x runtime operation
      (.setDataChannelThresholds channel low high millis) =
      Bridge.submitTo runtime operation channel millis fun channel_handle =>
        return .setDataChannelThresholds channel_handle (UInt32.ofNat low.toInt.toNat)
          (UInt32.ofNat high.toInt.toNat) := by
    refine (ok_bind (hjlow _)).trans ?_
    refine (ok_bind (hjhigh _)).trans ?_
    exact ok_bind (require_eq _ horder)
  rw [hjvm]
  refine agree_simple x d hr ho ht rfl rfl rfl rfl ?_ ?_
  · intro t
    exact (ok_bind (hclow _)).trans (ok_bind (hchigh _))
  · intro h o hmake
    cases hmake
    rfl

lemma agree_rotateCertificate {certificate : Option DtlsCertificate} {millis : Int64} :
    Agree (JvmNativeBridge.request x runtime operation (.rotateCertificate certificate millis))
      (NativeNativeBridge.request x d e runtime operation
        (.rotateCertificate certificate millis)) := by
  refine Agree.of_bind (timeout millis) _ (submit_eq x d (a := NativeNativeBridge.submitArguments e
    runtime operation (.rotateCertificate certificate millis))
    (optional_string_eq d (certificate.map DtlsCertificate.pem)) rfl rfl) ?_
  change Bridge.nativeSubmitRotateCertificate x runtime operation _ millis = _
  unfold Bridge.nativeSubmitRotateCertificate
  refine (ok_bind rfl).trans ?_
  refine (ok_bind (handle_eq hr)).trans ?_
  refine (ok_bind (handle_eq ho)).trans ?_
  rw [nonEmpty_pem]
  rfl

lemma agree_closeRuntime {millis : Int64} :
    Agree (JvmNativeBridge.request x runtime operation (.closeRuntime millis))
      (NativeNativeBridge.request x d e runtime operation (.closeRuntime millis)) := by
  refine Agree.of_bind (timeout millis) _ (submit_eq x d (a := NativeNativeBridge.submitArguments e
    runtime operation (.closeRuntime millis)) rfl rfl rfl) ?_
  change Bridge.nativeSubmitCloseRuntime runtime operation millis = _
  unfold Bridge.nativeSubmitCloseRuntime
  refine (ok_bind (handle_eq hr)).trans ?_
  exact ok_bind (handle_eq ho)

/-- A command that reads nothing but its object. -/
lemma agree_plain {target millis : Int64} {make : UInt64 → Operation} {a : SubmitArguments}
    (ht : 0 ≤ target.toInt) (htext : CBridge.optional_string d a.text = .ok none)
    (hsecondary : CBridge.optional_string d a.secondary_text = .ok none)
    (hdata : CBridge.input a.data = .ok []) (hmillis : a.timeout_millis = millis)
    (hcommand : ∀ t, CBridge.command x d a t none none [] = .ok (.submit runtime.toUInt64
        { operation_handle := operation.toUInt64
          timeout := t
          operation := make target.toUInt64 }))
    (hsplit : ∀ h, splitOperation (make h) = make h) :
    Agree (Bridge.submitTo runtime operation target millis fun h => .ok (make h))
      (CBridge.kestara_runtime_submit x d a) := by
  refine agree_simple x d hr ho ht htext hsecondary hdata hmillis hcommand ?_
  intro h o hmake
  cases hmake
  exact hsplit h

lemma agree_sendText {channel millis : Int64} {text : String} {trySend : Bool}
    (ht : 0 ≤ channel.toInt) :
    Agree (JvmNativeBridge.request x runtime operation (.sendText channel text millis trySend))
      (NativeNativeBridge.request x d e runtime operation
        (.sendText channel text millis trySend)) := by
  cases trySend with
  | false =>
    refine agree_simple x d hr ho ht (optional_string_eq d (some text)) rfl rfl rfl (fun t => rfl) ?_
    intro h o hmake
    cases hmake
    rfl
  | true =>
    refine agree_simple x d hr ho ht (optional_string_eq d (some text)) rfl rfl rfl (fun t => rfl) ?_
    intro h o hmake
    cases hmake
    rfl

lemma agree_sendBinary {channel millis : Int64} {data : List UInt8} {trySend : Bool}
    (ht : 0 ≤ channel.toInt) :
    Agree (JvmNativeBridge.request x runtime operation (.sendBinary channel data millis trySend))
      (NativeNativeBridge.request x d e runtime operation
        (.sendBinary channel data millis trySend)) := by
  cases trySend with
  | false =>
    refine agree_simple x d hr ho ht rfl rfl rfl rfl (fun t => rfl) ?_
    intro h o hmake
    cases hmake
    rfl
  | true =>
    refine agree_simple x d hr ho ht rfl rfl rfl rfl (fun t => rfl) ?_
    intro h o hmake
    cases hmake
    rfl

/-- Every call that the public API makes means the same on both platforms. -/
lemma agree_call {call : BridgeCall} (ha : call.Admitted) (hd : call.Decodes d e) :
    Agree (JvmNativeBridge.request x runtime operation call)
      (NativeNativeBridge.request x d e runtime operation call) := by
  have ht := ha.target
  cases call with
  | createPeer c => exact agree_createPeer x hr ho hd
  | setConfiguration peer c millis => exact agree_setConfiguration x hr ho ht hd
  | createDescription peer type millis => exact agree_createDescription x hr ho ht
  | setLocalDescription peer description millis => exact agree_setLocalDescription x hr ho ht
  | setRemoteDescription peer description millis => exact agree_setRemoteDescription x hr ho ht
  | addIceCandidate peer candidate sdpMid index millis => exact agree_addIceCandidate x hr ho ht
  | createDataChannel peer label options millis => exact agree_createDataChannel x hr ho ht hd
  | sendText channel text millis trySend => exact agree_sendText x hr ho ht
  | sendBinary channel data millis trySend => exact agree_sendBinary x hr ho ht
  | setDataChannelThresholds channel low high millis =>
    obtain ⟨h₁,h₂,h₃⟩ := ha.thresholds channel low high millis rfl
    exact agree_thresholds x hr ho ht h₁ h₂ h₃
  | rotateCertificate certificate millis => exact agree_rotateCertificate x hr ho
  | closeRuntime millis => exact agree_closeRuntime x hr ho
  | restartIce peer millis =>
    exact agree_plain x hr ho ht rfl rfl rfl rfl (fun t => rfl) fun h => rfl
  | dataChannelWritable channel millis =>
    exact agree_plain x hr ho ht rfl rfl rfl rfl (fun t => rfl) fun h => rfl
  | dataChannelOutstandingBytes channel millis =>
    exact agree_plain x hr ho ht rfl rfl rfl rfl (fun t => rfl) fun h => rfl
  | getStats peer millis =>
    exact agree_plain x hr ho ht rfl rfl rfl rfl (fun t => rfl) fun h => rfl
  | closeDataChannel channel millis =>
    exact agree_plain x hr ho ht rfl rfl rfl rfl (fun t => rfl) fun h => rfl
  | closePeer peer millis =>
    exact agree_plain x hr ho ht rfl rfl rfl rfl (fun t => rfl) fun h => rfl

/-- A peer is refused exactly for an address that is not an IP literal. -/
lemma createPeer_rejected_iff (c : PeerConnectionConfiguration) :
    ¬ Accepts (JvmNativeBridge.request x runtime operation (.createPeer c)) ↔
      ∃ a, c.iceOptions.mdnsLocalAddress = some a ∧ ¬ Accepts (x.parse_ip_addr a) := by
  rw [jvm_createPeer x hr ho]
  constructor
  · intro h
    by_contra hn
    apply h
    have hacc : Accepts (address x c) := accepts_address fun a hmem => by
      by_contra hp
      exact hn ⟨a,hmem,hp⟩
    exact hacc.bind fun a _ => accepts_ok _
  · rintro ⟨a,hmem,hp⟩ ⟨request,hacc⟩
    obtain ⟨r,hr,-⟩ := bind_ok hacc
    exact hp (address_ok hr a hmem)

end Calls

section Runtimes

lemma runtime_ports (options : WebRtcRuntimeOptions) :
    PortRange ((options.sharedSockets.map SharedSocketOptions.minPort).getD 0)
      ((options.sharedSockets.map SharedSocketOptions.maxPort).getD 0) := by
  cases options.sharedSockets with
  | none => exact ⟨by decide,by decide,by decide,by decide⟩
  | some sockets => exact sockets.ports

/-- Both bridges create a runtime with the same configuration. -/
lemma createRuntime_eq (x : Externals) {d : Documents} {e : Encoder} (options : WebRtcRuntimeOptions)
    (hd : d.runtime (e.runtime (NativeWire.runtime options)) = .ok (NativeWire.runtime options)) :
    Accepts (JvmNativeBridge.createRuntime x options) ∧
      JvmNativeBridge.createRuntime x options = NativeNativeBridge.createRuntime d e options := by
  have hports := runtime_ports options
  have hmin : InU16 ((options.sharedSockets.map SharedSocketOptions.minPort).getD 0).toInt :=
    ⟨hports.min.1,by have := hports.min.2; omega⟩
  have hmax : InU16 ((options.sharedSockets.map SharedSocketOptions.maxPort).getD 0).toInt :=
    ⟨hports.max.1,by have := hports.max.2; omega⟩
  have hworkers : 0 ≤ options.workerThreads.toInt := by
    have := options.workerThreads_range
    omega
  have hreactors : 0 ≤ options.reactorThreads.toInt := by
    have := options.reactorThreads_range
    omega
  let configuration : RuntimeConfiguration :=
    { worker_threads := options.workerThreads.toInt.toNat
      reactor_threads := options.reactorThreads.toInt.toNat
      certificate_pem := options.certificate.map (·.pem)
      shared_udp_addresses := (options.sharedSockets.map (·.udpBindAddresses)).getD []
      shared_tcp_addresses := (options.sharedSockets.map (·.tcpBindAddresses)).getD []
      shared_min_port := UInt16.ofNat
        ((options.sharedSockets.map SharedSocketOptions.minPort).getD 0).toInt.toNat
      shared_max_port := UInt16.ofNat
        ((options.sharedSockets.map SharedSocketOptions.maxPort).getD 0).toInt.toNat }
  have hjvm : JvmNativeBridge.createRuntime x options = .ok configuration := by
    unfold JvmNativeBridge.createRuntime Bridge.nativeCreateRuntime
    refine (ok_bind rfl).trans ?_
    refine (ok_bind (read_array x _)).trans ?_
    refine (ok_bind (read_array x _)).trans ?_
    refine (ok_bind (usize_eq _ hworkers)).trans ?_
    refine (ok_bind (usize_eq _ hreactors)).trans ?_
    refine (ok_bind (port_eq _ hmin)).trans ?_
    refine (ok_bind (port_eq _ hmax)).trans ?_
    refine (ok_bind (portRange_of_ports _ hports)).trans ?_
    rw [nonEmpty_pem]
    rfl
  have hnative : NativeNativeBridge.createRuntime d e options = .ok configuration := by
    unfold NativeNativeBridge.createRuntime CBridge.kestara_runtime_create
    refine (ok_bind rfl).trans ?_
    refine (ok_bind hd).trans ?_
    refine (ok_bind (port_eq _ hmin)).trans ?_
    refine (ok_bind (port_eq _ hmax)).trans ?_
    exact ok_bind (portRange_of_ports _ hports)
  exact ⟨⟨configuration,hjvm⟩,hjvm.trans hnative.symm⟩

end Runtimes

/-- The two bridges mean the same: for every call that the public API makes, both reject it or both
pass on the same request up to the splitting of servers; a peer is rejected only for its mDNS
address; a runtime is created with the same configuration; and every handle is passed on. -/
theorem bridges_agree (x : Externals) (d : Documents) (e : Encoder) (runtime operation : Int64)
    (hr : 0 ≤ runtime.toInt) (ho : 0 ≤ operation.toInt) :
    (∀ call : BridgeCall, call.Admitted → call.Decodes d e →
      Agree (JvmNativeBridge.request x runtime operation call)
        (NativeNativeBridge.request x d e runtime operation call)) ∧
    (∀ c : PeerConnectionConfiguration,
      ¬ Accepts (JvmNativeBridge.request x runtime operation (.createPeer c)) ↔
        ∃ a, c.iceOptions.mdnsLocalAddress = some a ∧ ¬ Accepts (x.parse_ip_addr a)) ∧
    (∀ options : WebRtcRuntimeOptions,
      d.runtime (e.runtime (NativeWire.runtime options)) = .ok (NativeWire.runtime options) →
      Accepts (JvmNativeBridge.createRuntime x options) ∧
        JvmNativeBridge.createRuntime x options = NativeNativeBridge.createRuntime d e options) ∧
    ∀ handle : Int64, 0 ≤ handle.toInt → handle_from_jlong handle = .ok handle.toUInt64 :=
  ⟨fun _ ha hd => agree_call x hr ho ha hd,createPeer_rejected_iff x hr ho,
    fun options hd => createRuntime_eq x options hd,fun _ => handle_eq⟩

section Witness

/-- Two servers with three URLs, a range of ports, and optional fields that are set. -/
def relayed (address : String) (given : isBlank address = false) : PeerConnectionConfiguration where
  iceServers := [{ urls := ["stun:a.example","stun:b.example"],urls_given := by decide },
    { urls := ["turn:c.example"],username := "user",credential := "secret"
      urls_given := by decide }]
  minPort := 5000
  maxPort := 5010
  iceTransportPolicy := .relay
  iceOptions :=
    { disconnectedTimeout := some 5000
      maxBindingRequests := some 7
      relayAcceptanceMinWait := some 0
      networkTypes := [.udp4,.tcp6]
      mdnsMode := .queryAndGather
      natMapping := some
        { externalAddresses := ["203.0.113.1"],type := .serverReflexive
          addresses_given := by decide }
      candidatePoolSize := 1
      mdnsLocalName := some "host.local"
      mdnsLocalAddress := some address
      credentials := some
        { usernameFragment := "user",password := "0123456789abcdefghijkl"
          usernameFragment_length := by decide
          password_length := by decide }
      timeouts := by simp
      waits := by simp
      maxBindingRequests_range := by simp
      networkTypes_given := by simp
      networkTypes_nodup := by simp
      candidatePoolSize_range := by decide
      mdns_together := rfl
      mdnsLocalName_local := by simpa using ⟨"host",rfl⟩
      mdnsLocalAddress_notBlank := by simpa using given }
  sctpOptions := .defaults
  dtlsOptions := .defaults
  transportOptions := .defaults
  operationTimeout := 12000
  ports := ⟨by decide,by decide,by decide,by decide⟩
  operationTimeout_range := by decide

/-- What kotlinx.serialization writes for it. -/
def relayedDocument (address : String) : List UInt8 :=
  Utf8.encode ("\x7b\"iceServers\":[\x7b\"urls\":[\"stun:a.example\",\"stun:b.example\"]," ++
    "\"username\":\"\",\"credential\":\"\"\x7d,\x7b\"urls\":[\"turn:c.example\"]," ++
    "\"username\":\"user\",\"credential\":\"secret\"\x7d],\"minPort\":5000,\"maxPort\":5010," ++
    "\"relayOnly\":true,\"disconnectedTimeoutMillis\":5000,\"failedTimeoutMillis\":-1," ++
    "\"keepAliveIntervalMillis\":-1,\"checkIntervalMillis\":-1,\"maxBindingRequests\":7," ++
    "\"hostAcceptanceMinWaitMillis\":-1,\"serverReflexiveAcceptanceMinWaitMillis\":-1," ++
    "\"peerReflexiveAcceptanceMinWaitMillis\":-1,\"relayAcceptanceMinWaitMillis\":0," ++
    "\"networkTypeMask\":9,\"mdnsMode\":2,\"mdnsQueryTimeoutMillis\":-1,\"iceLite\":false," ++
    "\"natMapping\":\x7b\"addresses\":[\"203.0.113.1\"],\"mappingType\":1\x7d," ++
    "\"discardLocalCandidatesOnRestart\":true,\"candidatePoolSize\":1," ++
    "\"includeLoopbackCandidate\":false,\"mdnsLocalName\":\"host.local\"," ++
    "\"mdnsLocalAddress\":\"" ++ address ++ "\",\"credentials\":\x7b" ++
    "\"usernameFragment\":\"user\",\"password\":\"0123456789abcdefghijkl\"\x7d," ++
    "\"sctpSendBufferLimit\":16777216,\"sctpReceiveBufferSize\":1048576," ++
    "\"sctpMaximumMessageSize\":65536,\"receiveQueueCapacity\":64,\"dtlsAnsweringRole\":0," ++
    "\"mediaLevelFingerprints\":false,\"dtlsReplayProtectionWindow\":64," ++
    "\"dtlsCipherSuiteMask\":148,\"udpBindAddresses\":[],\"tcpBindAddresses\":[]," ++
    "\"receiveMtu\":0\x7d")

/-- The encoder and the decoder where one configuration is the only one, with its document. -/
def onlyEncoder (document : List UInt8) : Encoder := ⟨fun _ => [],fun _ => document,fun _ => []⟩

def onlyDocuments (document : List UInt8) (c : PeerConnectionConfiguration) : Documents where
  runtime := fun _ => .error "EOF while parsing a value at line 1 column 0"
  peer := fun bytes => if bytes = document then .ok (NativeWire.peer c)
    else .error "EOF while parsing a value at line 1 column 0"
  dataChannel := fun _ => .error "EOF while parsing a value at line 1 column 0"
  utf8_error := fun _ => "invalid utf-8 sequence"

lemma onlyDocuments_decodes (document : List UInt8) (c : PeerConnectionConfiguration) :
    BridgeCall.Decodes (onlyDocuments document c) (onlyEncoder document) (.createPeer c) := by
  simp [BridgeCall.Decodes,onlyDocuments,onlyEncoder]

def relayedEncoder (address : String) : Encoder := onlyEncoder (relayedDocument address)

def relayedDocuments (address : String) (given : isBlank address = false) : Documents :=
  onlyDocuments (relayedDocument address) (relayed address given)

/-- One text is an IP literal. -/
def oneLiteral : Externals where
  jni_error := "Null pointer in call argument"
  parse_ip_addr := fun text =>
    if text = "192.0.2.1" then .ok (.v4 0xC0000201) else .error "invalid IP address syntax"
  parse_sdp := fun _ _ => .ok ()

/-- The configuration is passed on, to the JVM side with three servers, and refused on both
sides if the mDNS address is no IP literal. -/
theorem bridges_agree_relayed :
    (∃ r, NativeNativeBridge.request oneLiteral (relayedDocuments "192.0.2.1" (by decide))
        (relayedEncoder "192.0.2.1") 1 1 (.createPeer (relayed "192.0.2.1" (by decide))) = .ok r ∧
      JvmNativeBridge.request oneLiteral 1 1 (.createPeer (relayed "192.0.2.1" (by decide))) =
        .ok (splitRequest r)) ∧
    ¬ Accepts (JvmNativeBridge.request oneLiteral 1 1
      (.createPeer (relayed "localhost" (by decide)))) ∧
    ¬ Accepts (NativeNativeBridge.request oneLiteral (relayedDocuments "localhost" (by decide))
      (relayedEncoder "localhost") 1 1 (.createPeer (relayed "localhost" (by decide)))) := by
  have hagree : ∀ address given, Agree
      (JvmNativeBridge.request oneLiteral 1 1 (.createPeer (relayed address given)))
      (NativeNativeBridge.request oneLiteral (relayedDocuments address given)
        (relayedEncoder address) 1 1 (.createPeer (relayed address given))) := by
    intro address given
    refine (bridges_agree oneLiteral (relayedDocuments address given) (relayedEncoder address) 1 1
      (by decide) (by decide)).1 _ ⟨Int.le_refl 0,?_⟩ ?_
    · intro channel low high timeout hcall
      cases hcall
    · exact onlyDocuments_decodes _ _
  have hrejected := fun address given => (bridges_agree oneLiteral
    (relayedDocuments address given) (relayedEncoder address) 1 1 (by decide) (by decide)).2.1
      (relayed address given)
  refine ⟨?_,?_⟩
  · obtain ⟨hno,-⟩ | hr := hagree "192.0.2.1" (by decide)
    · obtain ⟨a,ha,hbad⟩ := (hrejected "192.0.2.1" (by decide)).mp hno
      cases ha
      exact absurd ⟨_,rfl⟩ hbad
    · exact hr
  · have hno := (hrejected "localhost" (by decide)).mpr ⟨"localhost",rfl,by
      rintro ⟨a,ha⟩
      cases ha⟩
    obtain ⟨-,hnative⟩ | ⟨r,-,hjvm⟩ := hagree "localhost" (by decide)
    · exact ⟨hno,hnative⟩
    · exact absurd ⟨_,hjvm⟩ hno

end Witness

end Kestara.Wire
