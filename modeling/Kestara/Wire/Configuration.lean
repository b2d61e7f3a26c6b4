import Kestara.Models

/-!
# Configuration types of the Kotlin library

What an `init` block requires is a field, so that a value the constructor would reject cannot be
built. An `Int` has 32 bits; a duration is known by its whole milliseconds, a `Long`.
-/
namespace Kestara

/-- `Char.isWhitespace`. -/
def isWhitespace (c : Char) : Bool :=
  let n := c.toNat
  (0x9 ≤ n && n ≤ 0xd) || (0x1c ≤ n && n ≤ 0x20) || n == 0xa0 || n == 0x1680 ||
    (0x2000 ≤ n && n ≤ 0x200a) || n == 0x2028 || n == 0x2029 || n == 0x202f || n == 0x205f ||
    n == 0x3000

/-- `String.isBlank`. -/
def isBlank (s : String) : Bool := s.toList.all isWhitespace

/-- `String.length`: the number of UTF-16 code units. -/
def utf16Length (s : String) : ℕ := (s.toList.map fun c => if c.toNat < 0x10000 then 1 else 2).sum

inductive IceTransportPolicy
  | all | relay
  deriving DecidableEq, Repr

inductive IceNetworkType
  | udp4 | udp6 | tcp4 | tcp6
  deriving DecidableEq, Repr

inductive IceMdnsMode
  | disabled | queryOnly | queryAndGather
  deriving DecidableEq, Repr

inductive IceNatMappingType
  | host | serverReflexive
  deriving DecidableEq, Repr

inductive DtlsRole
  | auto | client | server
  deriving DecidableEq, Repr

inductive DtlsCipherSuite
  | ecdheEcdsaAes128Ccm
  | ecdheEcdsaAes128Ccm8
  | ecdheEcdsaAes128GcmSha256
  | ecdheRsaAes128GcmSha256
  | ecdheEcdsaAes256CbcSha
  | ecdheRsaAes256CbcSha
  | ecdheRsaChacha20Poly1305Sha256
  | ecdheEcdsaChacha20Poly1305Sha256
  deriving DecidableEq, Repr

section Ordinals

def IceTransportPolicy.ordinal : IceTransportPolicy → ℕ
  | .all => 0
  | .relay => 1

def IceNetworkType.ordinal : IceNetworkType → ℕ
  | .udp4 => 0
  | .udp6 => 1
  | .tcp4 => 2
  | .tcp6 => 3

def IceMdnsMode.ordinal : IceMdnsMode → ℕ
  | .disabled => 0
  | .queryOnly => 1
  | .queryAndGather => 2

def IceNatMappingType.ordinal : IceNatMappingType → ℕ
  | .host => 0
  | .serverReflexive => 1

def DtlsRole.ordinal : DtlsRole → ℕ
  | .auto => 0
  | .client => 1
  | .server => 2

def SessionDescriptionType.ordinal : SessionDescriptionType → ℕ
  | .offer => 0
  | .answer => 1
  | .pranswer => 2
  | .rollback => 3

def DtlsCipherSuite.ordinal : DtlsCipherSuite → ℕ
  | .ecdheEcdsaAes128Ccm => 0
  | .ecdheEcdsaAes128Ccm8 => 1
  | .ecdheEcdsaAes128GcmSha256 => 2
  | .ecdheRsaAes128GcmSha256 => 3
  | .ecdheEcdsaAes256CbcSha => 4
  | .ecdheRsaAes256CbcSha => 5
  | .ecdheRsaChacha20Poly1305Sha256 => 6
  | .ecdheEcdsaChacha20Poly1305Sha256 => 7

end Ordinals

structure IceServer where
  urls : List String
  username : String := ""
  credential : String := ""
  urls_given : urls ≠ [] ∧ ∀ url ∈ urls, isBlank url = false

structure IceCredentials where
  usernameFragment : String
  password : String
  usernameFragment_length : 4 ≤ utf16Length usernameFragment ∧ utf16Length usernameFragment ≤ 256
  password_length : 22 ≤ utf16Length password ∧ utf16Length password ≤ 256

structure IceNatMapping where
  externalAddresses : List String
  type : IceNatMappingType
  addresses_given : externalAddresses ≠ [] ∧ ∀ a ∈ externalAddresses, isBlank a = false

structure SctpOptions where
  sendBufferLimit : Int32
  receiveBufferSize : Int32
  maximumMessageSize : Int32
  receiveQueueCapacity : Int32
  sendBufferLimit_nonneg : 0 ≤ sendBufferLimit.toInt
  maximumMessageSize_range : 1 ≤ maximumMessageSize.toInt ∧ maximumMessageSize.toInt ≤ 262144
  receiveBufferSize_range : 1500 ≤ receiveBufferSize.toInt ∧
    maximumMessageSize.toInt ≤ receiveBufferSize.toInt
  receiveQueueCapacity_range : 1 ≤ receiveQueueCapacity.toInt ∧ receiveQueueCapacity.toInt ≤ 65536

structure DtlsOptions where
  answeringRole : DtlsRole := .auto
  mediaLevelFingerprints : Bool := false
  replayProtectionWindow : Int32
  cipherSuites : List DtlsCipherSuite
  replayProtectionWindow_pos : 0 < replayProtectionWindow.toInt
  cipherSuites_given : cipherSuites ≠ []

structure TransportOptions where
  udpBindAddresses : List String := []
  tcpBindAddresses : List String := []
  receiveMtu : Int32
  receiveMtu_range : receiveMtu.toInt = 0 ∨ 576 ≤ receiveMtu.toInt

/-- A range of ports: both zero, or both set and in order. -/
structure PortRange (minPort maxPort : Int32) : Prop where
  min : 0 ≤ minPort.toInt ∧ minPort.toInt ≤ 65535
  max : 0 ≤ maxPort.toInt ∧ maxPort.toInt ≤ 65535
  both : minPort.toInt = 0 ↔ maxPort.toInt = 0
  order : minPort.toInt ≤ maxPort.toInt

structure SharedSocketOptions where
  udpBindAddresses : List String
  tcpBindAddresses : List String := []
  minPort : Int32
  maxPort : Int32
  addresses_given : udpBindAddresses ≠ [] ∨ tcpBindAddresses ≠ []
  udp_notBlank : ∀ a ∈ udpBindAddresses, isBlank a = false
  tcp_notBlank : ∀ a ∈ tcpBindAddresses, isBlank a = false
  ports : PortRange minPort maxPort

structure DtlsCertificate where
  pem : String
  pem_notBlank : isBlank pem = false

structure WebRtcRuntimeOptions where
  workerThreads : Int32
  reactorThreads : Int32
  shutdownTimeout : Int64
  certificate : Option DtlsCertificate := none
  sharedSockets : Option SharedSocketOptions := none
  workerThreads_range : 1 ≤ workerThreads.toInt
  reactorThreads_range : 1 ≤ reactorThreads.toInt ∧ reactorThreads.toInt ≤ 1024
  shutdownTimeout_range : 1 ≤ shutdownTimeout.toInt

/-- `networkTypes` is a set: a list without repetition, in iteration order. -/
structure IceOptions where
  disconnectedTimeout : Option Int64 := none
  failedTimeout : Option Int64 := none
  keepAliveInterval : Option Int64 := none
  checkInterval : Option Int64 := none
  maxBindingRequests : Option Int32 := none
  hostAcceptanceMinWait : Option Int64 := none
  serverReflexiveAcceptanceMinWait : Option Int64 := none
  peerReflexiveAcceptanceMinWait : Option Int64 := none
  relayAcceptanceMinWait : Option Int64 := none
  networkTypes : List IceNetworkType := [.udp4]
  mdnsMode : IceMdnsMode := .queryOnly
  mdnsQueryTimeout : Option Int64 := none
  lite : Bool := false
  natMapping : Option IceNatMapping := none
  discardLocalCandidatesOnRestart : Bool := true
  candidatePoolSize : Int32
  includeLoopbackCandidate : Bool := false
  mdnsLocalName : Option String := none
  mdnsLocalAddress : Option String := none
  credentials : Option IceCredentials := none
  timeouts : ∀ o ∈ [disconnectedTimeout,failedTimeout,keepAliveInterval,checkInterval,
    mdnsQueryTimeout], ∀ millis ∈ o, 1 ≤ millis.toInt
  waits : ∀ o ∈ [hostAcceptanceMinWait,serverReflexiveAcceptanceMinWait,
    peerReflexiveAcceptanceMinWait,relayAcceptanceMinWait], ∀ millis ∈ o, 0 ≤ millis.toInt
  maxBindingRequests_range : ∀ n ∈ maxBindingRequests, 0 ≤ n.toInt ∧ n.toInt ≤ 65535
  networkTypes_given : networkTypes ≠ []
  networkTypes_nodup : networkTypes.Nodup
  candidatePoolSize_range : 0 ≤ candidatePoolSize.toInt ∧ candidatePoolSize.toInt ≤ 1
  mdns_together : mdnsLocalName.isSome = mdnsLocalAddress.isSome
  mdnsLocalName_local : ∀ name ∈ mdnsLocalName, ∃ stem, name = stem ++ ".local"
  mdnsLocalAddress_notBlank : ∀ a ∈ mdnsLocalAddress, isBlank a = false

structure PeerConnectionConfiguration where
  iceServers : List IceServer := []
  minPort : Int32
  maxPort : Int32
  iceTransportPolicy : IceTransportPolicy := .all
  iceOptions : IceOptions
  sctpOptions : SctpOptions
  dtlsOptions : DtlsOptions
  transportOptions : TransportOptions
  operationTimeout : Int64
  ports : PortRange minPort maxPort
  operationTimeout_range : 1 ≤ operationTimeout.toInt

section Defaults

def SctpOptions.defaults : SctpOptions where
  sendBufferLimit := 16*1024*1024
  receiveBufferSize := 1024*1024
  maximumMessageSize := 65536
  receiveQueueCapacity := 64
  sendBufferLimit_nonneg := by decide
  maximumMessageSize_range := by decide
  receiveBufferSize_range := by decide
  receiveQueueCapacity_range := by decide

def DtlsOptions.defaults : DtlsOptions where
  replayProtectionWindow := 64
  cipherSuites := [.ecdheEcdsaAes128GcmSha256,.ecdheEcdsaChacha20Poly1305Sha256,
    .ecdheEcdsaAes256CbcSha]
  replayProtectionWindow_pos := by decide
  cipherSuites_given := by decide

def TransportOptions.defaults : TransportOptions where
  receiveMtu := 0
  receiveMtu_range := .inl rfl

def IceOptions.defaults : IceOptions where
  candidatePoolSize := 0
  timeouts := by simp
  waits := by simp
  maxBindingRequests_range := by simp
  networkTypes_given := by simp
  networkTypes_nodup := by simp
  candidatePoolSize_range := by decide
  mdns_together := rfl
  mdnsLocalName_local := by simp
  mdnsLocalAddress_notBlank := by simp

def PeerConnectionConfiguration.defaults : PeerConnectionConfiguration where
  minPort := 0
  maxPort := 0
  iceOptions := .defaults
  sctpOptions := .defaults
  dtlsOptions := .defaults
  transportOptions := .defaults
  operationTimeout := 10000
  ports := ⟨by decide,by decide,by decide,by decide⟩
  operationTimeout_range := by decide

end Defaults

end Kestara
