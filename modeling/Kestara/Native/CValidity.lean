import Kestara.Native.Validity

/-!
# What the C boundary checks

`peer_configuration` accepts exactly the documents that pass its own checks, and what it then
builds is valid exactly when the document also passes the checks that only the JNI boundary makes.
-/
namespace Kestara.Native
open Results CBridge

/-- The text of an optional duration: -1 or a number of milliseconds. -/
def OptionalMillis (millis : Int64) : Prop := millis = -1 ∨ 0 ≤ millis.toInt

def InU16 (value : ℤ) : Prop := 0 ≤ value ∧ value < 2^16

def InU32 (value : ℤ) : Prop := 0 ≤ value ∧ value < 2^32

/-- The checks that `peer_configuration` makes. -/
structure PeerDto.Checked (x : Externals) (v : PeerDto) : Prop where
  min_port : InU16 v.min_port.toInt
  max_port : InU16 v.max_port.toInt
  ports : (v.min_port.toInt = 0 ↔ v.max_port.toInt = 0) ∧ v.min_port.toInt ≤ v.max_port.toInt
  mode : v.mdns_mode.toInt ∈ [0,1,2]
  mapping : ∀ m ∈ v.nat_mapping, (m.mapping_type = 0 ∨ m.mapping_type = 1) ∧ m.addresses ≠ []
  address : ∀ text ∈ v.mdns_local_address, Accepts (x.parse_ip_addr text)
  disconnected : OptionalMillis v.disconnected_timeout_millis
  failed : OptionalMillis v.failed_timeout_millis
  keepAlive : OptionalMillis v.keep_alive_interval_millis
  check : OptionalMillis v.check_interval_millis
  bindings : v.max_binding_requests = -1 ∨ InU16 v.max_binding_requests.toInt
  host : OptionalMillis v.host_acceptance_min_wait_millis
  serverReflexive : OptionalMillis v.server_reflexive_acceptance_min_wait_millis
  peerReflexive : OptionalMillis v.peer_reflexive_acceptance_min_wait_millis
  relay : OptionalMillis v.relay_acceptance_min_wait_millis
  networks : 0 < v.network_type_mask.toInt ∧ v.network_type_mask.toBitVec &&& ~~~0b1111 = 0
  query : OptionalMillis v.mdns_query_timeout_millis
  buffer : 0 < v.sctp_receive_buffer_size.toInt
  message : 0 < v.sctp_maximum_message_size.toInt
  role : v.dtls_answering_role.toInt ∈ [0,1,2]
  suites : 0 < v.dtls_cipher_suite_mask.toInt ∧ v.dtls_cipher_suite_mask.toBitVec &&& ~~~0xff = 0

/-- The checks that only the JNI boundary makes. -/
structure PeerDto.Complete (v : PeerDto) : Prop where
  capacity : 1 ≤ v.receive_queue_capacity
  message : v.sctp_maximum_message_size.toInt ≤ 262144
  buffer : max 1500 v.sctp_maximum_message_size.toInt ≤ v.sctp_receive_buffer_size.toInt
  window : 1 ≤ v.dtls_replay_protection_window
  pool : v.candidate_pool_size ≤ 1
  credentials : ∀ c ∈ v.credentials, c.username_fragment ≠ "" ∧ c.password ≠ ""

section Helpers

lemma tryU16_eq {value : ℤ} (h : InU16 value) :
    tryU16 value = some (UInt16.ofNat value.toNat) := if_pos h

lemma tryU32_eq {value : ℤ} (h : InU32 value) :
    tryU32 value = some (UInt32.ofNat value.toNat) := if_pos h

lemma tryU16_some {value : ℤ} {v : UInt16} (h : tryU16 value = some v) :
    InU16 value ∧ (v.toNat : ℤ) = value := by
  unfold tryU16 at h
  split_ifs at h with hr
  cases h
  refine ⟨hr,?_⟩
  rw [UInt16.toNat_ofNat']
  omega

lemma tryU32_some {value : ℤ} {v : UInt32} (h : tryU32 value = some v) :
    InU32 value ∧ (v.toNat : ℤ) = value := by
  unfold tryU32 at h
  split_ifs at h with hr
  cases h
  refine ⟨hr,?_⟩
  rw [UInt32.toNat_ofNat']
  omega

lemma port_ok {value : Int32} {name : String} {p : UInt16} (h : port value name = .ok p) :
    InU16 value.toInt ∧ (p.toNat : ℤ) = value.toInt := by
  unfold port at h
  split at h
  · next hv =>
    cases h
    exact tryU16_some hv
  · cases h

lemma accepts_port {value : Int32} (name : String) (h : InU16 value.toInt) :
    Accepts (port value name) := by
  simp only [port,tryU16_eq h]
  exact accepts_ok _

lemma portRange_eq {p q : UInt16} (message : String) (h₁ : p.toNat = 0 ↔ q.toNat = 0)
    (h₂ : p.toNat ≤ q.toNat) : portRange p q message = .ok () := by
  have hz : ∀ r : UInt16, (r == 0) = decide (r.toNat = 0) := fun r => by
    rw [Bool.eq_iff_iff,beq_iff_eq,decide_eq_true_eq,← UInt16.toNat_inj]
    rfl
  unfold portRange
  rw [if_neg]
  rw [not_or,not_not,hz,hz,gt_iff_lt,UInt16.not_lt,UInt16.le_iff_toNat_le]
  exact ⟨by simp [h₁],h₂⟩

lemma accepts_optional_duration {millis : Int64} (name : String) (h : OptionalMillis millis) :
    Accepts (optional_duration millis name) := by
  unfold optional_duration
  split_ifs with h₁ h₂
  · exact accepts_ok _
  · exact accepts_ok _
  · exact absurd h (not_or.mpr ⟨h₁,h₂⟩)

lemma optional_duration_ok {millis : Int64} {name : String} {o : Option Duration}
    (h : optional_duration millis name = .ok o) : OptionalMillis millis := by
  unfold optional_duration at h
  split_ifs at h with h₁ h₂
  · exact .inl h₁
  · exact .inr h₂

lemma accepts_optional_u16 {value : Int32} (name : String)
    (h : value = -1 ∨ InU16 value.toInt) : Accepts (optional_u16 value name) := by
  unfold optional_u16
  split_ifs with h₁
  · exact accepts_ok _
  · rw [tryU16_eq (h.resolve_left h₁)]
    exact accepts_ok _

lemma optional_u16_ok {value : Int32} {name : String} {o : Option UInt16}
    (h : optional_u16 value name = .ok o) : value = -1 ∨ InU16 value.toInt := by
  unfold optional_u16 at h
  split_ifs at h with h₁
  · exact .inl h₁
  · split at h
    · next hv => exact .inr (tryU16_some hv).1
    · cases h

lemma positive_value {value : Int32} {name : String} {v : UInt32}
    (h : positive_u32 value name = .ok v) : 0 < value.toInt ∧ (v.toNat : ℤ) = value.toInt := by
  have hpos := positive_u32_ok h
  unfold positive_u32 at h
  split at h
  · cases h
  · next hv =>
    split_ifs at h
    cases h
    have heq := (tryU32_some hv).2
    exact ⟨by omega,heq⟩

lemma accepts_positive {value : Int32} (name : String) (h : 0 < value.toInt) :
    Accepts (positive_u32 value name) := by
  have hlt := value.toInt_lt
  have hr : InU32 value.toInt := ⟨h.le,by omega⟩
  have hne : UInt32.ofNat value.toInt.toNat ≠ 0 := by
    intro h0
    have hz := congrArg UInt32.toNat h0
    rw [UInt32.toNat_ofNat'] at hz
    change _ = 0 at hz
    omega
  simp only [positive_u32,tryU32_eq hr,hne,↓reduceIte]
  exact accepts_ok _

lemma network_types_mask {mask : Int32} {types : List NetworkType}
    (h : network_types mask = .ok types) :
    0 < mask.toInt ∧ mask.toBitVec &&& ~~~0b1111 = 0 := by
  unfold network_types at h
  split_ifs at h with hm
  rwa [not_or,not_le,not_not] at hm

lemma accepts_network_types {mask : Int32}
    (h : 0 < mask.toInt ∧ mask.toBitVec &&& ~~~0b1111 = 0) : Accepts (network_types mask) := by
  unfold network_types
  rw [if_neg (by rwa [not_or,not_le,not_not])]
  exact accepts_ok _

lemma cipher_suites_mask {mask : Int32} {suites : List CipherSuiteId}
    (h : cipher_suites mask = .ok suites) :
    0 < mask.toInt ∧ mask.toBitVec &&& ~~~0xff = 0 := by
  unfold cipher_suites at h
  split_ifs at h with hm
  rwa [not_or,not_le,not_not] at hm

lemma accepts_cipher_suites {mask : Int32}
    (h : 0 < mask.toInt ∧ mask.toBitVec &&& ~~~0xff = 0) : Accepts (cipher_suites mask) := by
  unfold cipher_suites
  rw [if_neg (by rwa [not_or,not_le,not_not])]
  exact accepts_ok _

lemma mode_ok {mode : Int32} {m : MulticastDnsMode} (h : multicastDnsMode mode = .ok m) :
    mode.toInt ∈ [0,1,2] := by
  unfold multicastDnsMode at h
  split at h <;> simp_all

lemma accepts_mode {mode : Int32} (h : mode.toInt ∈ [0,1,2]) : Accepts (multicastDnsMode mode) := by
  simp only [List.mem_cons,List.not_mem_nil,or_false] at h
  unfold multicastDnsMode
  obtain h | h | h := h <;> rw [h] <;> exact accepts_ok _

lemma role_ok {role : Int32} {r : Option RTCDtlsRole} (h : dtlsRole role = .ok r) :
    role.toInt ∈ [0,1,2] := by
  unfold dtlsRole at h
  split at h <;> simp_all

lemma accepts_role {role : Int32} (h : role.toInt ∈ [0,1,2]) : Accepts (dtlsRole role) := by
  simp only [List.mem_cons,List.not_mem_nil,or_false] at h
  unfold dtlsRole
  obtain h | h | h := h <;> rw [h] <;> exact accepts_ok _

lemma mapping_ok {o : Option NatMappingDto} {m : Option (List String × RTCIceCandidateType)}
    (h : natMapping o = .ok m) :
    (∀ d ∈ o, (d.mapping_type = 0 ∨ d.mapping_type = 1) ∧ d.addresses ≠ []) ∧
      ∀ mapping ∈ m, mapping.1 ≠ [] := by
  unfold natMapping at h
  split at h
  · cases h
    simp
  · split_ifs at h with h₀ h₁
    · cases h
      simp [h₀.1,h₀.2]
    · cases h
      simp [h₁.1,h₁.2]

lemma accepts_mapping {o : Option NatMappingDto}
    (h : ∀ d ∈ o, (d.mapping_type = 0 ∨ d.mapping_type = 1) ∧ d.addresses ≠ []) :
    Accepts (natMapping o) := by
  cases o with
  | none => exact accepts_ok _
  | some d =>
    obtain ⟨hkind,hne⟩ := h d rfl
    unfold natMapping
    obtain hk | hk := hkind
    · simp only [hk,hne,ne_eq,not_false_eq_true,and_self,↓reduceIte]
      exact accepts_ok _
    · simp only [hk,hne,ne_eq,not_false_eq_true,and_true,↓reduceIte]
      split_ifs <;> exact accepts_ok _

lemma address_ok {x : Externals} {o : Option String} {r : Option IpAddr}
    (h : o.mapM (mdnsLocalAddress x) = .ok r) : ∀ text ∈ o, Accepts (x.parse_ip_addr text) := by
  rintro text rfl
  obtain ⟨address,ha,-⟩ := bind_ok h
  unfold mdnsLocalAddress at ha
  split at ha
  · next hp => exact ⟨_,hp⟩
  · cases ha

lemma accepts_address {x : Externals} {o : Option String}
    (h : ∀ text ∈ o, Accepts (x.parse_ip_addr text)) : Accepts (o.mapM (mdnsLocalAddress x)) := by
  cases o with
  | none => exact accepts_ok _
  | some text =>
    obtain ⟨address,ha⟩ := h text rfl
    have hm : mdnsLocalAddress x text = .ok address := by simp [mdnsLocalAddress,ha]
    exact Accepts.bind ⟨address,hm⟩ fun a _ => accepts_ok _

end Helpers

section Peers
variable {x : Externals} {v : PeerDto}

/-- A configuration is built from the checked fields of its document. -/
lemma peer_configuration_ok {c : PeerConfiguration} (h : peer_configuration x v = .ok c) :
    v.Checked x ∧ (c.Valid ↔ v.Complete) := by
  unfold peer_configuration at h
  obtain ⟨min_port,hmin,h⟩ := bind_ok h
  obtain ⟨max_port,hmax,h⟩ := bind_ok h
  obtain ⟨_,hports,h⟩ := bind_ok h
  obtain ⟨mode,hmode,h⟩ := bind_ok h
  obtain ⟨mapping,hmapping,h⟩ := bind_ok h
  obtain ⟨address,haddress,h⟩ := bind_ok h
  obtain ⟨_,hdisconnected,h⟩ := bind_ok h
  obtain ⟨_,hfailed,h⟩ := bind_ok h
  obtain ⟨_,hkeepAlive,h⟩ := bind_ok h
  obtain ⟨_,hcheck,h⟩ := bind_ok h
  obtain ⟨_,hbindings,h⟩ := bind_ok h
  obtain ⟨_,hhost,h⟩ := bind_ok h
  obtain ⟨_,hserver,h⟩ := bind_ok h
  obtain ⟨_,hpeer,h⟩ := bind_ok h
  obtain ⟨_,hrelay,h⟩ := bind_ok h
  obtain ⟨types,htypes,h⟩ := bind_ok h
  obtain ⟨_,hquery,h⟩ := bind_ok h
  obtain ⟨buffer,hbuffer,h⟩ := bind_ok h
  obtain ⟨message,hmessage,h⟩ := bind_ok h
  obtain ⟨role,hrole,h⟩ := bind_ok h
  obtain ⟨suites,hsuites,h⟩ := bind_ok h
  cases h
  obtain ⟨hmin,hminValue⟩ := port_ok hmin
  obtain ⟨hmax,hmaxValue⟩ := port_ok hmax
  obtain ⟨hbufferPos,hbufferValue⟩ := positive_value hbuffer
  obtain ⟨hmessagePos,hmessageValue⟩ := positive_value hmessage
  have hports := portRange_ok hports
  have hcredentials : (∀ pair ∈ v.credentials.map fun c => (c.username_fragment,c.password),
      pair.1 ≠ "" ∧ pair.2 ≠ "") ↔
      ∀ c ∈ v.credentials, c.username_fragment ≠ "" ∧ c.password ≠ "" := by
    cases v.credentials <;> simp
  refine ⟨?_,?_,?_⟩
  · exact
      { min_port := hmin
        max_port := hmax
        ports := by
          rw [← hminValue,← hmaxValue]
          obtain ⟨rfl,rfl⟩ | ⟨hone,hle⟩ := hports
          · simp
          · rw [UInt16.le_iff_toNat_le] at hone hle
            change 1 ≤ _ at hone
            omega
        mode := mode_ok hmode
        mapping := (mapping_ok hmapping).1
        address := address_ok haddress
        disconnected := optional_duration_ok hdisconnected
        failed := optional_duration_ok hfailed
        keepAlive := optional_duration_ok hkeepAlive
        check := optional_duration_ok hcheck
        bindings := optional_u16_ok hbindings
        host := optional_duration_ok hhost
        serverReflexive := optional_duration_ok hserver
        peerReflexive := optional_duration_ok hpeer
        relay := optional_duration_ok hrelay
        networks := network_types_mask htypes
        query := optional_duration_ok hquery
        buffer := hbufferPos
        message := hmessagePos
        role := role_ok hrole
        suites := cipher_suites_mask hsuites }
  · intro hv
    have h₁ : message.toNat ≤ 262144 := hv.message.2
    have h₂ := hv.buffer
    simp only [max_le_iff] at h₂
    exact
      { capacity := hv.capacity
        message := by omega
        buffer := by rw [max_le_iff]; omega
        window := hv.window
        pool := hv.pool
        credentials := hcredentials.mp hv.credentials }
  · intro hv
    have h₁ := hv.message
    have h₂ := hv.buffer
    rw [max_le_iff] at h₂
    exact
      { ports := hports
        capacity := hv.capacity
        message := by
          simp only
          omega
        buffer := by
          simp only [max_le_iff]
          omega
        window := hv.window
        pool := hv.pool
        networks := network_types_ok htypes
        suites := cipher_suites_ok hsuites
        addresses := (mapping_ok hmapping).2
        credentials := hcredentials.mpr hv.credentials }

lemma accepts_peer_configuration (h : v.Checked x) : Accepts (peer_configuration x v) := by
  refine (accepts_port _ h.min_port).bind fun p hp => ?_
  refine (accepts_port _ h.max_port).bind fun q hq => ?_
  have hpv := (port_ok hp).2
  have hqv := (port_ok hq).2
  have hports := h.ports
  rw [← hpv,← hqv] at hports
  refine Accepts.bind ⟨_,portRange_eq _ (by omega) (by omega)⟩ fun _ _ => ?_
  refine (accepts_mode h.mode).bind fun _ _ => ?_
  refine (accepts_mapping h.mapping).bind fun _ _ => ?_
  refine (accepts_address h.address).bind fun _ _ => ?_
  refine (accepts_optional_duration _ h.disconnected).bind fun _ _ => ?_
  refine (accepts_optional_duration _ h.failed).bind fun _ _ => ?_
  refine (accepts_optional_duration _ h.keepAlive).bind fun _ _ => ?_
  refine (accepts_optional_duration _ h.check).bind fun _ _ => ?_
  refine (accepts_optional_u16 _ h.bindings).bind fun _ _ => ?_
  refine (accepts_optional_duration _ h.host).bind fun _ _ => ?_
  refine (accepts_optional_duration _ h.serverReflexive).bind fun _ _ => ?_
  refine (accepts_optional_duration _ h.peerReflexive).bind fun _ _ => ?_
  refine (accepts_optional_duration _ h.relay).bind fun _ _ => ?_
  refine (accepts_network_types h.networks).bind fun _ _ => ?_
  refine (accepts_optional_duration _ h.query).bind fun _ _ => ?_
  refine (accepts_positive _ h.buffer).bind fun _ _ => ?_
  refine (accepts_positive _ h.message).bind fun _ _ => ?_
  refine (accepts_role h.role).bind fun _ _ => ?_
  exact (accepts_cipher_suites h.suites).bind fun _ _ => accepts_ok _

end Peers

/-- The inputs that every command kind reads. -/
structure Readable (d : Documents) (a : SubmitArguments) : Prop where
  timeout : 0 ≤ a.timeout_millis.toInt
  text : Accepts (optional_string d a.text)
  secondary_text : Accepts (optional_string d a.secondary_text)
  data : Accepts (input a.data)

/-- The input is not one that only the missing checks would refuse. -/
structure Covered (x : Externals) (d : Documents) (a : SubmitArguments) : Prop where
  peer : Readable d a → commandKind a.command_kind = some .CREATE_PEER →
    ∀ bytes v, input a.configuration = .ok bytes → d.peer bytes = .ok v → v.Checked x → v.Complete
  thresholds : Readable d a → commandKind a.command_kind = some .SET_DATA_CHANNEL_THRESHOLDS →
    InU32 a.number.toInt → InU32 a.secondary_number.toInt →
    a.number.toInt ≤ a.secondary_number.toInt

section Submit
variable {x : Externals} {d : Documents} {a : SubmitArguments}

lemma u32_ok {number : Int64} {message : String} {v : UInt32} (h : u32 number message = .ok v) :
    InU32 number.toInt ∧ (v.toNat : ℤ) = number.toInt := by
  unfold u32 at h
  split at h
  · next hv =>
    cases h
    exact tryU32_some hv
  · cases h

lemma accepts_u32 {number : Int64} (message : String) (h : InU32 number.toInt) :
    Accepts (u32 number message) := by
  simp only [u32,tryU32_eq h]
  exact accepts_ok _

lemma timeout_ok {millis : Int64} {t : Duration} (h : timeout millis = .ok t) :
    0 ≤ millis.toInt := by
  unfold timeout at h
  split_ifs at h with ht
  exact ht

/-- An input that can be read is given to the match on its kind. -/
lemma submit_of_readable (h : Readable d a) :
    ∃ t text secondary data,
      kestara_runtime_submit x d a = command x d a t text secondary data := by
  obtain ⟨text,ht⟩ := h.text
  obtain ⟨secondary,hs⟩ := h.secondary_text
  obtain ⟨data,hd⟩ := h.data
  refine ⟨⟨a.timeout_millis.toInt.toNat⟩,text,secondary,data,?_⟩
  have htime : timeout a.timeout_millis = .ok ⟨a.timeout_millis.toInt.toNat⟩ := by
    rw [timeout,if_pos h.timeout]
  unfold kestara_runtime_submit
  rw [ok_bind htime,ok_bind ht,ok_bind hs,ok_bind hd]

lemma readable_of_submit {request : Request} (h : kestara_runtime_submit x d a = .ok request) :
    Readable d a ∧ ∃ t text secondary data, command x d a t text secondary data = .ok request := by
  obtain ⟨t,ht,h⟩ := bind_ok h
  obtain ⟨text,htext,h⟩ := bind_ok h
  obtain ⟨secondary,hsecondary,h⟩ := bind_ok h
  obtain ⟨data,hdata,h⟩ := bind_ok h
  exact ⟨⟨timeout_ok ht,⟨_,htext⟩,⟨_,hsecondary⟩,⟨_,hdata⟩⟩,t,text,secondary,data,h⟩

lemma valid_of_queue {r : Except String Operation} {t : Duration} {h : UInt64} {c : Command}
    (hr : ∀ o, r = .ok o → o.Valid)
    (hok : (do let operation ← r; return SubmitArguments.queue a t operation) =
      .ok (.submit h c)) : c.Valid := by
  obtain ⟨o,ho,hok⟩ := bind_ok hok
  cases hok
  exact hr o ho

lemma setDescription_valid {t : Duration} {text : Option String} {h : UInt64} {c : Command}
    {operation : RTCSessionDescription → Operation} (ho : ∀ r, (operation r).Valid)
    (hok : setDescription x a t text operation = .ok (.submit h c)) : c.Valid := by
  obtain ⟨_,_,hok⟩ := bind_ok hok
  obtain ⟨_,_,hok⟩ := bind_ok hok
  split at hok
  · cases hok
  · cases hok
    exact ho _

lemma createDescription_valid (o : Operation) (h : createDescription a = .ok o) : o.Valid := by
  unfold createDescription at h
  split at h <;> cases h <;> trivial

lemma addIceCandidate_valid {text secondary : Option String} (o : Operation)
    (h : addIceCandidate a text secondary = .ok o) : o.Valid := by
  obtain ⟨_,_,h⟩ := bind_ok h
  obtain ⟨_,_,h⟩ := bind_ok h
  obtain ⟨_,_,h⟩ := bind_ok h
  cases h
  trivial

lemma createDataChannel_valid {text : Option String} (o : Operation)
    (h : createDataChannel d a text = .ok o) : o.Valid := by
  obtain ⟨_,_,h⟩ := bind_ok h
  obtain ⟨_,_,h⟩ := bind_ok h
  obtain ⟨_,_,h⟩ := bind_ok h
  obtain ⟨_,_,h⟩ := bind_ok h
  obtain ⟨_,_,h⟩ := bind_ok h
  obtain ⟨_,_,h⟩ := bind_ok h
  cases h
  trivial

/-- What a covered input queues is valid. -/
lemma command_valid {t : Duration} {text secondary : Option String} {data : List UInt8} {h : UInt64}
    {c : Command} (hr : Readable d a) (hc : Covered x d a)
    (hok : command x d a t text secondary data = .ok (.submit h c)) : c.Valid := by
  unfold command at hok
  split at hok
  case h_1 hk =>
    obtain ⟨bytes,hbytes,hok⟩ := bind_ok hok
    obtain ⟨v,hv,hok⟩ := bind_ok hok
    obtain ⟨configuration,hconf,hok⟩ := bind_ok hok
    cases hok
    obtain ⟨hchecked,hiff⟩ := peer_configuration_ok hconf
    exact hiff.mpr (hc.peer hr hk bytes v hbytes hv hchecked)
  case h_3 =>
    obtain ⟨_,_,hok⟩ := bind_ok hok
    obtain ⟨_,_,hok⟩ := bind_ok hok
    cases hok
    trivial
  case h_4 => exact valid_of_queue createDescription_valid hok
  case h_5 | h_6 =>
    refine setDescription_valid ?_ hok
    intro description
    trivial
  case h_7 => exact valid_of_queue addIceCandidate_valid hok
  case h_8 => exact valid_of_queue createDataChannel_valid hok
  case h_9 | h_11 =>
    obtain ⟨_,_,hok⟩ := bind_ok hok
    cases hok
    trivial
  case h_15 hk =>
    obtain ⟨low,hlow,hok⟩ := bind_ok hok
    obtain ⟨high,hhigh,hok⟩ := bind_ok hok
    cases hok
    obtain ⟨hlow,hlowValue⟩ := u32_ok hlow
    obtain ⟨hhigh,hhighValue⟩ := u32_ok hhigh
    have hle := hc.thresholds hr hk hlow hhigh
    change low ≤ high
    rw [UInt32.le_iff_toNat_le]
    omega
  case h_21 => cases hok
  all_goals
    cases hok
    trivial

/-- A complete input is needed: the boundary queues what passes its own checks. -/
lemma covered_of_enforced (h : ∀ r c, kestara_runtime_submit x d a = .ok (.submit r c) → c.Valid) :
    Covered x d a where
  peer := by
    intro hr hk bytes v hbytes hv hchecked
    obtain ⟨t,text,secondary,data,hs⟩ := submit_of_readable (x := x) hr
    obtain ⟨configuration,hconf⟩ := accepts_peer_configuration hchecked
    have hok : kestara_runtime_submit x d a =
        .ok (SubmitArguments.queue a t (.createPeer configuration)) := by
      rw [hs]
      simp only [command,hk]
      rw [ok_bind hbytes,ok_bind hv,ok_bind hconf]
      rfl
    exact (peer_configuration_ok hconf).2.mp (h _ _ hok)
  thresholds := by
    intro hr hk hlow hhigh
    obtain ⟨t,text,secondary,data,hs⟩ := submit_of_readable (x := x) hr
    obtain ⟨low,hl⟩ := accepts_u32 "Invalid low buffered amount threshold" hlow
    obtain ⟨high,hh⟩ := accepts_u32 "Invalid high buffered amount threshold" hhigh
    have hok : kestara_runtime_submit x d a =
        .ok (SubmitArguments.queue a t (.setDataChannelThresholds a.target_handle low high)) := by
      rw [hs]
      simp only [command,hk]
      rw [ok_bind hl,ok_bind hh]
      rfl
    have hle : low ≤ high := h _ _ hok
    rw [UInt32.le_iff_toNat_le] at hle
    have h₁ := (u32_ok hl).2
    have h₂ := (u32_ok hh).2
    omega

end Submit

/-- The JNI boundary enforces the common predicate on every call; the C boundary does so exactly
for the inputs that the checks it lacks would not refuse. -/
theorem enforces_iff_covered (x : Externals) (runtime operation timeout_millis : Int64)
    (call : JniCall) (d : Documents) (a : SubmitArguments) :
    Enforces (call.request x runtime operation timeout_millis) ∧
      (Enforces (kestara_runtime_submit x d a) ↔ Covered x d a) := by
  refine ⟨?_,?_⟩
  · rw [enforces_iff]
    exact fun h c => jni_valid
  · rw [enforces_iff]
    constructor
    · exact covered_of_enforced
    · intro hc h c hok
      obtain ⟨hr,t,text,secondary,data,hcommand⟩ := readable_of_submit hok
      exact command_valid hr hc hcommand

/-- Thresholds whose low one exceeds the high one. -/
def crossedThresholds : SubmitArguments where
  runtime_handle := 1
  operation_handle := 1
  command_kind := 15
  target_handle := 2
  timeout_millis := 1000
  text := .null 0
  secondary_text := .null 0
  number := 2
  secondary_number := 1
  data := .null 0
  configuration := .null 0

theorem submit_crossedThresholds :
    ¬ ∀ (x : Externals) (d : Documents) (a : SubmitArguments),
      Enforces (kestara_runtime_submit x d a) := by
  intro h
  let x : Externals := ⟨"",fun _ => .error "invalid IP address syntax",fun _ _ => .ok ()⟩
  let d : Documents :=
    ⟨fun _ => .error "EOF",fun _ => .error "EOF",fun _ => .error "EOF",fun _ => "invalid utf-8"⟩
  have hok : kestara_runtime_submit x d crossedThresholds =
      .ok (.submit 1 { operation_handle := 1
                       timeout := ⟨1000⟩
                       operation := .setDataChannelThresholds 2 2 1 }) := by
    rfl
  have hv : (2 : UInt32) ≤ 1 := (enforces_iff _).mp (h x d crossedThresholds) _ _ hok
  exact absurd hv (by decide)

end Kestara.Native
