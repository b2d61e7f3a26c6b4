import Kestara.Wire.BridgesAgree

/-!
# Cipher suites across the bridges

Both bridges fold the list of cipher suites into a mask, and the native side expands the mask from
a table in declaration order. The suites survive, each once; their order in the list does not.
-/
namespace Kestara.Wire
open Native Results

/-- The suite of the same name. -/
def nativeSuite : DtlsCipherSuite → CipherSuiteId
  | .ecdheEcdsaAes128Ccm => .tls_Ecdhe_Ecdsa_With_Aes_128_Ccm
  | .ecdheEcdsaAes128Ccm8 => .tls_Ecdhe_Ecdsa_With_Aes_128_Ccm_8
  | .ecdheEcdsaAes128GcmSha256 => .tls_Ecdhe_Ecdsa_With_Aes_128_Gcm_Sha256
  | .ecdheRsaAes128GcmSha256 => .tls_Ecdhe_Rsa_With_Aes_128_Gcm_Sha256
  | .ecdheEcdsaAes256CbcSha => .tls_Ecdhe_Ecdsa_With_Aes_256_Cbc_Sha
  | .ecdheRsaAes256CbcSha => .tls_Ecdhe_Rsa_With_Aes_256_Cbc_Sha
  | .ecdheRsaChacha20Poly1305Sha256 => .tls_Ecdhe_Rsa_With_ChaCha20_Poly1305_Sha256
  | .ecdheEcdsaChacha20Poly1305Sha256 => .tls_Ecdhe_Ecdsa_With_ChaCha20_Poly1305_Sha256

/-- The suites in declaration order. -/
def DtlsCipherSuite.values : List DtlsCipherSuite :=
  [.ecdheEcdsaAes128Ccm,.ecdheEcdsaAes128Ccm8,.ecdheEcdsaAes128GcmSha256,.ecdheRsaAes128GcmSha256,
    .ecdheEcdsaAes256CbcSha,.ecdheRsaAes256CbcSha,.ecdheRsaChacha20Poly1305Sha256,
    .ecdheEcdsaChacha20Poly1305Sha256]

/-- The elements of a list in the order of their first occurrence. -/
def firstOccurrences (suites : List DtlsCipherSuite) : List DtlsCipherSuite :=
  suites.reverse.dedup.reverse

section Suites

lemma mem_values (s : DtlsCipherSuite) : s ∈ DtlsCipherSuite.values := by cases s <;> decide

lemma ordinal_injective {s t : DtlsCipherSuite} (h : s.ordinal = t.ordinal) : s = t := by
  cases s <;> cases t <;> first | rfl | cases h

lemma mem_ordinals (s : DtlsCipherSuite) (suites : List DtlsCipherSuite) :
    s.ordinal ∈ suites.map (·.ordinal) ↔ s ∈ suites := by
  rw [List.mem_map]
  constructor
  · rintro ⟨t,ht,heq⟩
    rwa [← ordinal_injective heq]
  · intro hs
    exact ⟨s,hs,rfl⟩

/-- The vector that the mask of a list of suites is expanded to. -/
lemma selected_suites (suites : List DtlsCipherSuite) :
    selected allCipherSuites (ordinalMask (suites.map (·.ordinal))).toBitVec =
      (DtlsCipherSuite.values.filter (· ∈ suites)).map nativeSuite := by
  have hlt : ∀ o ∈ suites.map (·.ordinal), o < 8 := by
    intro o ho
    obtain ⟨s,-,rfl⟩ := List.mem_map.mp ho
    exact ordinal_lt s
  have htable : allCipherSuites = DtlsCipherSuite.values.map nativeSuite := rfl
  have hfilter : (DtlsCipherSuite.values.filter fun s =>
      (ordinalMask (suites.map (·.ordinal))).toBitVec.getLsbD s.ordinal) =
      DtlsCipherSuite.values.filter (· ∈ suites) := by
    apply List.filter_congr
    intro s _
    rw [getLsbD_ordinalMask _ fun o ho => (hlt o ho).trans (by norm_num)]
    exact decide_eq_decide.mpr (mem_ordinals s suites)
  rw [htable,selected_map nativeSuite (·.ordinal) _ (by decide) (by decide),hfilter]

lemma nodup_firstOccurrences (suites : List DtlsCipherSuite) : (firstOccurrences suites).Nodup :=
  List.nodup_reverse.mpr (List.nodup_dedup _)

lemma mem_firstOccurrences (s : DtlsCipherSuite) (suites : List DtlsCipherSuite) :
    s ∈ firstOccurrences suites ↔ s ∈ suites := by
  simp [firstOccurrences]

/-- The list is in declaration order. -/
abbrev Declared (suites : List DtlsCipherSuite) : Prop :=
  suites.Pairwise fun s t => s.ordinal < t.ordinal

lemma declared_filter (suites : List DtlsCipherSuite) :
    Declared (DtlsCipherSuite.values.filter (· ∈ suites)) := by
  have hvalues : Declared DtlsCipherSuite.values := by decide
  exact hvalues.filter _

/-- Declaration order is the order of first occurrence exactly for a list in that order. -/
lemma filter_eq_firstOccurrences (suites : List DtlsCipherSuite) :
    DtlsCipherSuite.values.filter (· ∈ suites) = firstOccurrences suites ↔
      Declared (firstOccurrences suites) := by
  constructor
  · intro h
    rw [← h]
    exact declared_filter suites
  · intro h
    have hnodup : (DtlsCipherSuite.values.filter (· ∈ suites)).Nodup :=
      List.Nodup.filter _ (by decide)
    have hperm : (DtlsCipherSuite.values.filter (· ∈ suites)).Perm (firstOccurrences suites) := by
      rw [List.perm_ext_iff_of_nodup hnodup (nodup_firstOccurrences suites)]
      intro s
      rw [mem_firstOccurrences]
      simp [mem_values]
    exact hperm.eq_of_pairwise (fun s t _ _ hst hts => absurd hst (by omega))
      (declared_filter suites) h

end Suites

/-- The DTLS part of the settings that `create_peer` builds a peer with. -/
structure SettingEngine where
  dtls_cipher_suites : List CipherSuiteId
  answering_dtls_role : Option RTCDtlsRole
  sdp_media_level_fingerprints : Bool
  dtls_replay_protection_window : ℕ
  deriving DecidableEq, Repr

def setting_engine (configuration : PeerConfiguration) : SettingEngine where
  dtls_cipher_suites := configuration.dtls.cipher_suites
  answering_dtls_role := configuration.dtls.answering_role
  sdp_media_level_fingerprints := configuration.dtls.media_level_fingerprints
  dtls_replay_protection_window := configuration.dtls.replay_protection_window

/-- The suites that a request gives to the setting engine, if it creates a peer. -/
def engineSuites : Request → Option (List CipherSuiteId)
  | .submit _ { operation := .createPeer configuration, .. } =>
    some (setting_engine configuration).dtls_cipher_suites
  | _ => none

/-- On both platforms a peer gets exactly the suites of the list, each once, in declaration order;
so it gets them in the order of their first occurrence exactly when that is declaration order. -/
theorem engineSuites_of_bridges (x : Externals) (d : Documents) (e : Encoder)
    (runtime operation : Int64) (c : PeerConnectionConfiguration) (hr : 0 ≤ runtime.toInt)
    (ho : 0 ≤ operation.toInt) (hd : BridgeCall.Decodes d e (.createPeer c)) :
    (∀ request, JvmNativeBridge.request x runtime operation (.createPeer c) = .ok request →
      engineSuites request =
        some ((DtlsCipherSuite.values.filter (· ∈ c.dtlsOptions.cipherSuites)).map nativeSuite)) ∧
    (∀ request, NativeNativeBridge.request x d e runtime operation (.createPeer c) = .ok request →
      engineSuites request =
        some ((DtlsCipherSuite.values.filter (· ∈ c.dtlsOptions.cipherSuites)).map nativeSuite)) ∧
    (DtlsCipherSuite.values.filter (· ∈ c.dtlsOptions.cipherSuites) =
        firstOccurrences c.dtlsOptions.cipherSuites ↔
      Declared (firstOccurrences c.dtlsOptions.cipherSuites)) := by
  have hsuites : ∀ a, engineSuites (peerRequest runtime operation c a) =
      some ((DtlsCipherSuite.values.filter (· ∈ c.dtlsOptions.cipherSuites)).map nativeSuite) := by
    intro a
    exact congrArg some (selected_suites c.dtlsOptions.cipherSuites)
  refine ⟨?_,?_,filter_eq_firstOccurrences _⟩
  · intro request hok
    rw [jvm_createPeer x hr ho] at hok
    obtain ⟨a,-,hok⟩ := bind_ok hok
    cases hok
    exact hsuites a
  · intro request hok
    rw [native_createPeer x hd] at hok
    obtain ⟨a,-,hok⟩ := bind_ok hok
    cases hok
    exact hsuites a

/-- What kotlinx.serialization writes for the default configuration. -/
def defaultDocument : List UInt8 :=
  Utf8.encode ("\x7b\"iceServers\":[],\"minPort\":0,\"maxPort\":0,\"relayOnly\":false," ++
    "\"disconnectedTimeoutMillis\":-1,\"failedTimeoutMillis\":-1," ++
    "\"keepAliveIntervalMillis\":-1,\"checkIntervalMillis\":-1,\"maxBindingRequests\":-1," ++
    "\"hostAcceptanceMinWaitMillis\":-1,\"serverReflexiveAcceptanceMinWaitMillis\":-1," ++
    "\"peerReflexiveAcceptanceMinWaitMillis\":-1,\"relayAcceptanceMinWaitMillis\":-1," ++
    "\"networkTypeMask\":1,\"mdnsMode\":1,\"mdnsQueryTimeoutMillis\":-1,\"iceLite\":false," ++
    "\"natMapping\":null,\"discardLocalCandidatesOnRestart\":true,\"candidatePoolSize\":0," ++
    "\"includeLoopbackCandidate\":false,\"mdnsLocalName\":null,\"mdnsLocalAddress\":null," ++
    "\"credentials\":null,\"sctpSendBufferLimit\":16777216,\"sctpReceiveBufferSize\":1048576," ++
    "\"sctpMaximumMessageSize\":65536,\"receiveQueueCapacity\":64,\"dtlsAnsweringRole\":0," ++
    "\"mediaLevelFingerprints\":false,\"dtlsReplayProtectionWindow\":64," ++
    "\"dtlsCipherSuiteMask\":148,\"udpBindAddresses\":[],\"tcpBindAddresses\":[]," ++
    "\"receiveMtu\":0\x7d")

/-- No text is an IP literal. -/
def noExternals : Externals where
  jni_error := "Null pointer in call argument"
  parse_ip_addr := fun _ => .error "invalid IP address syntax"
  parse_sdp := fun _ _ => .ok ()

theorem engineSuites_defaults :
    ∃ request, JvmNativeBridge.request noExternals 1 1 (.createPeer .defaults) = .ok request ∧
      engineSuites request = some [.tls_Ecdhe_Ecdsa_With_Aes_128_Gcm_Sha256,
        .tls_Ecdhe_Ecdsa_With_Aes_256_Cbc_Sha,.tls_Ecdhe_Ecdsa_With_ChaCha20_Poly1305_Sha256] := by
  have h := (engineSuites_of_bridges noExternals (onlyDocuments defaultDocument .defaults)
    (onlyEncoder defaultDocument) 1 1 .defaults (by decide) (by decide)
    (onlyDocuments_decodes _ _)).1
  have hok := jvm_createPeer noExternals (c := .defaults) (by decide : 0 ≤ (1 : Int64).toInt)
    (by decide : 0 ≤ (1 : Int64).toInt)
  exact ⟨_,hok,h _ hok⟩

/-- The default list prefers ChaCha20 to AES-256-CBC; the native side gets them the other way. -/
theorem engineSuites_defaults_reordered :
    ¬ ∀ (x : Externals) (runtime operation : Int64) (c : PeerConnectionConfiguration)
      (request : Request),
      JvmNativeBridge.request x runtime operation (.createPeer c) = .ok request →
      engineSuites request =
        some ((firstOccurrences c.dtlsOptions.cipherSuites).map nativeSuite) := by
  intro h
  have hok := jvm_createPeer noExternals (c := .defaults) (by decide : 0 ≤ (1 : Int64).toInt)
    (by decide : 0 ≤ (1 : Int64).toInt)
  have hsuites := h _ _ _ _ _ hok
  have hengine := congrArg some
    (selected_suites PeerConnectionConfiguration.defaults.dtlsOptions.cipherSuites)
  exact absurd (hengine.symm.trans hsuites) (by decide)

end Kestara.Wire
