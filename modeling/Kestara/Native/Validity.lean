import Kestara.Library.Results
import Kestara.Native.CBridge

/-!
# Validity of queued commands

One predicate on commands for both boundaries. The JNI boundary enforces it. The C boundary lacks
some of its checks, and enforces it exactly for the inputs that meet them anyway.
-/
namespace Kestara.Native
open Results

structure PeerConfiguration.Valid (c : PeerConfiguration) : Prop where
  ports : (c.min_port = 0 ∧ c.max_port = 0) ∨ (1 ≤ c.min_port ∧ c.min_port ≤ c.max_port)
  capacity : 1 ≤ c.sctp.receive_queue_capacity
  message : 1 ≤ c.sctp.maximum_message_size.toNat ∧ c.sctp.maximum_message_size.toNat ≤ 262144
  buffer : max 1500 c.sctp.maximum_message_size.toNat ≤ c.sctp.receive_buffer_size.toNat
  window : 1 ≤ c.dtls.replay_protection_window
  pool : c.ice.candidate_pool_size ≤ 1
  networks : c.ice.network_types ≠ []
  suites : c.dtls.cipher_suites ≠ []
  addresses : ∀ mapping ∈ c.ice.nat_mapping, mapping.1 ≠ []
  credentials : ∀ pair ∈ c.ice.credentials, pair.1 ≠ "" ∧ pair.2 ≠ ""

def Operation.Valid : Operation → Prop
  | .createPeer configuration => configuration.Valid
  | .setDataChannelThresholds _ low high => low ≤ high
  | _ => True

def Command.Valid (c : Command) : Prop := c.operation.Valid

/-- Whatever command the call queues is valid, and a call that fails queues nothing. -/
def Enforces (request : Except String Request) : Prop :=
  ∀ r : Runtimes,
    (∀ h c k k', r h = some k → (boundary request r).2 h = some k' →
      k'.commands = k.commands ++ [c] → c.Valid) ∧
    ((boundary request r).1 ≠ none → (boundary request r).2 = r)

section Queues

lemma boundary_failed {request : Except String Request} {r : Runtimes}
    (h : (boundary request r).1 ≠ none) : (boundary request r).2 = r := by
  unfold boundary at *
  split at h
  · exact absurd rfl h
  · rfl

/-- What a runtime holds after a call. -/
lemma boundary_commands {request : Except String Request} {r : Runtimes} {h : UInt64}
    {k k' : RuntimeController} (hk : r h = some k) (hk' : (boundary request r).2 h = some k') :
    k'.commands = k.commands ∨
      ∃ c, request = .ok (.submit h c) ∧ k'.commands = k.commands ++ [c] := by
  unfold boundary at hk'
  split at hk'
  · next r' hr =>
    obtain ⟨req,rfl,hp⟩ := bind_ok hr
    cases req with
    | submit h' c =>
      obtain ⟨controller,hc,hp⟩ := bind_ok hp
      split_ifs at hp with hrec
      cases hp
      by_cases he : h = h'
      · subst he
        simp only [get_runtime,hk] at hc
        cases hc
        simp only [Function.update_self] at hk'
        cases hk'
        exact .inr ⟨c,rfl,rfl⟩
      · simp only [Function.update_of_ne he,hk] at hk'
        cases hk'
        exact .inl rfl
    | completeError h' operation error =>
      obtain ⟨controller,hc,hp⟩ := bind_ok hp
      cases hp
      by_cases he : h = h'
      · subst he
        simp only [get_runtime,hk] at hc
        cases hc
        simp only [Function.update_self] at hk'
        cases hk'
        exact .inl rfl
      · simp only [Function.update_of_ne he,hk] at hk'
        cases hk'
        exact .inl rfl
  · change r h = some k' at hk'
    rw [hk] at hk'
    cases hk'
    exact .inl rfl

/-- A runtime under every handle. -/
def listening : Runtimes := fun _ => some { commands := [],events := [],receiving := true }

lemma boundary_listening (h : UInt64) (c : Command) :
    (boundary (.ok (.submit h c)) listening).2 h =
      some { commands := [c],events := [],receiving := true } := by
  have hr : (Except.ok (.submit h c) >>= fun request : Request => request.perform listening) =
      .ok (Function.update listening h
        (some { commands := [c],events := [],receiving := true })) := rfl
  rw [boundary,hr]
  simp

/-- A call enforces validity when every command it submits is valid. -/
lemma enforces_iff (request : Except String Request) :
    Enforces request ↔ ∀ h c, request = .ok (.submit h c) → c.Valid := by
  constructor
  · rintro he h c rfl
    exact (he listening).1 h c _ _ rfl (boundary_listening h c) rfl
  · intro hv r
    refine ⟨?_,boundary_failed⟩
    intro h c k k' hk hk' hc
    obtain heq | ⟨c',hreq,hc'⟩ := boundary_commands hk hk'
    · rw [heq] at hc
      simp at hc
    · rw [hc',List.append_cancel_left_eq] at hc
      cases hc
      exact hv h c hreq

end Queues

section Checks

lemma require_ok {condition : Bool} {message : String} {u : Unit}
    (h : require condition message = .ok u) : condition = true := by
  unfold require at h
  split_ifs at h with hc
  exact hc

lemma portRange_ok {min_port max_port : UInt16} {message : String} {u : Unit}
    (h : portRange min_port max_port message = .ok u) :
    (min_port = 0 ∧ max_port = 0) ∨ (1 ≤ min_port ∧ min_port ≤ max_port) := by
  unfold portRange at h
  split_ifs at h with hc
  rw [not_or,not_not,gt_iff_lt,UInt16.not_lt] at hc
  obtain ⟨hz,hle⟩ := hc
  by_cases hmin : min_port = 0
  · have hmax : (max_port == 0) = true := by rw [← hz,hmin]; rfl
    exact .inl ⟨hmin,beq_iff_eq.mp hmax⟩
  · refine .inr ⟨?_,hle⟩
    have hne : min_port.toNat ≠ 0 := fun h0 => hmin (UInt16.toNat_inj.mp h0)
    rw [UInt16.le_iff_toNat_le]
    change 1 ≤ min_port.toNat
    omega

lemma positive_u32_ok {value : Int32} {name : String} {v : UInt32}
    (h : positive_u32 value name = .ok v) : 1 ≤ v.toNat := by
  unfold positive_u32 at h
  split at h
  · cases h
  · split_ifs at h with h0
    cases h
    have hne : v.toNat ≠ 0 := fun hz => h0 (UInt32.toNat_inj.mp hz)
    omega

lemma getLsbD_bit {i j : ℕ} (hi : i < 32) : ((1 : BitVec 32) <<< i).getLsbD j = decide (j = i) := by
  rw [BitVec.getLsbD_shiftLeft,BitVec.ofNat_eq_ofNat,BitVec.getLsbD_one]
  by_cases hj : j = i
  · subst hj
    simp [hi]
  · simp [hj]
    omega

lemma and_bit_ne_zero (mask : BitVec 32) {i : ℕ} (hi : i < 32) :
    mask &&& (1 : BitVec 32) <<< i ≠ 0 ↔ mask.getLsbD i = true := by
  constructor
  · intro h
    by_contra hbit
    apply h
    apply BitVec.eq_of_getLsbD_eq
    intro j hj
    rw [BitVec.getLsbD_and,getLsbD_bit hi]
    by_cases hij : j = i
    · subst hij
      simp [Bool.eq_false_iff.mpr hbit]
    · simp [hij]
  · intro hbit h
    have hz := congrArg (fun v : BitVec 32 => v.getLsbD i) h
    simp only [BitVec.getLsbD_and,getLsbD_bit hi,hbit] at hz
    simp at hz

/-- A set bit of the mask selects an entry. -/
lemma selected_ne_nil {α : Type} {all : List α} {mask : BitVec 32} {i : ℕ} (hi : i < all.length)
    (h : mask &&& (1 : BitVec 32) <<< i ≠ 0) : selected all mask ≠ [] := by
  have hmem : (all[i],i) ∈ all.zipIdx := List.mem_zipIdx_iff_getElem?.mpr (by simp [hi])
  have hsel : all[i] ∈ selected all mask := List.mem_filterMap.mpr ⟨_,hmem,by rw [if_pos h]⟩
  exact List.ne_nil_of_mem hsel

/-- A positive mask within the low `n` bits has one of them set. -/
lemma exists_bit {mask : BitVec 32} {n : ℕ} (hpos : 0 < mask.toInt)
    (hn : mask &&& ~~~(BitVec.ofNat 32 (2^n-1)) = 0) :
    ∃ i, i < n ∧ i < 32 ∧ mask.getLsbD i = true := by
  by_contra hnone
  have hzero : mask = 0 := by
    apply BitVec.eq_of_getLsbD_eq
    intro i hi
    have hbit : mask.getLsbD i = false := by
      by_cases hin : i < n
      · by_contra hb
        exact hnone ⟨i,hin,hi,by simpa using hb⟩
      · have hb := congrArg (fun v : BitVec 32 => v.getLsbD i) hn
        simp only [BitVec.getLsbD_and,BitVec.getLsbD_not,BitVec.getLsbD_ofNat,
          Nat.testBit_two_pow_sub_one,hi,hin] at hb
        simpa using hb
    rw [hbit]
    simp
  rw [hzero] at hpos
  simp at hpos

lemma network_types_ok {mask : Int32} {types : List NetworkType}
    (h : network_types mask = .ok types) : types ≠ [] := by
  unfold network_types at h
  split_ifs at h with hm
  cases h
  rw [not_or,not_le,not_not] at hm
  obtain ⟨i,hi,hlt,hbit⟩ := exists_bit (n := 4) hm.1 hm.2
  exact selected_ne_nil (i := i) hi ((and_bit_ne_zero _ hlt).mpr hbit)

lemma cipher_suites_ok {mask : Int32} {suites : List CipherSuiteId}
    (h : cipher_suites mask = .ok suites) : suites ≠ [] := by
  unfold cipher_suites at h
  split_ifs at h with hm
  cases h
  rw [not_or,not_le,not_not] at hm
  obtain ⟨i,hi,hlt,hbit⟩ := exists_bit (n := 8) hm.1 hm.2
  exact selected_ne_nil (i := i) hi ((and_bit_ne_zero _ hlt).mpr hbit)

end Checks

section Jni
variable {x : Externals}

lemma natMapping_ok {addresses : List String} {kind : Int32}
    {m : Option (List String × RTCIceCandidateType)} (h : Bridge.natMapping addresses kind = .ok m) :
    ∀ mapping ∈ m, mapping.1 ≠ [] := by
  unfold Bridge.natMapping at h
  split at h <;> cases h <;> simp

lemma iceCredentials_ok {username password : String} {c : Option (String × String)}
    (h : Bridge.iceCredentials username password = .ok c) :
    ∀ pair ∈ c, pair.1 ≠ "" ∧ pair.2 ≠ "" := by
  unfold Bridge.iceCredentials at h
  split at h
  · cases h
    simp
  · next hu hp =>
    cases h
    simp only [Option.mem_def,Option.some.injEq]
    rintro _ rfl
    exact ⟨by simpa using hu,by simpa using hp⟩
  · cases h

lemma candidatePoolSize_ok {size : Int32} {v : UInt8}
    (h : Bridge.candidatePoolSize size = .ok v) : v ≤ 1 := by
  unfold Bridge.candidatePoolSize at h
  split at h <;> cases h <;> decide

/-- The checks of `nativeSubmitCreatePeer` cover the predicate. -/
lemma createPeer_valid {runtime operation timeout_millis : Int64} {a : CreatePeerArguments}
    {h : UInt64} {c : Command}
    (hok : Bridge.nativeSubmitCreatePeer x runtime operation a timeout_millis =
      .ok (.submit h c)) : c.Valid := by
  unfold Bridge.nativeSubmitCreatePeer at hok
  obtain ⟨urls,_,hok⟩ := bind_ok hok
  obtain ⟨usernames,_,hok⟩ := bind_ok hok
  obtain ⟨credentials,_,hok⟩ := bind_ok hok
  obtain ⟨nat_addresses,_,hok⟩ := bind_ok hok
  obtain ⟨mdns_local_name,_,hok⟩ := bind_ok hok
  obtain ⟨mdns_local_address,_,hok⟩ := bind_ok hok
  obtain ⟨ice_username_fragment,_,hok⟩ := bind_ok hok
  obtain ⟨ice_password,_,hok⟩ := bind_ok hok
  obtain ⟨udp_bind_addresses,_,hok⟩ := bind_ok hok
  obtain ⟨tcp_bind_addresses,_,hok⟩ := bind_ok hok
  obtain ⟨runtime_handle,_,hok⟩ := bind_ok hok
  obtain ⟨operation_handle,_,hok⟩ := bind_ok hok
  obtain ⟨_,_,hok⟩ := bind_ok hok
  obtain ⟨min_port,_,hok⟩ := bind_ok hok
  obtain ⟨max_port,_,hok⟩ := bind_ok hok
  obtain ⟨_,hports,hok⟩ := bind_ok hok
  obtain ⟨_,_,hok⟩ := bind_ok hok
  obtain ⟨types,htypes,hok⟩ := bind_ok hok
  obtain ⟨mode,_,hok⟩ := bind_ok hok
  obtain ⟨mapping,hmapping,hok⟩ := bind_ok hok
  obtain ⟨buffer,hbuffer,hok⟩ := bind_ok hok
  obtain ⟨message,hmessage,hok⟩ := bind_ok hok
  obtain ⟨capacity,_,hok⟩ := bind_ok hok
  obtain ⟨_,hcapacity,hok⟩ := bind_ok hok
  obtain ⟨_,hsize,hok⟩ := bind_ok hok
  obtain ⟨_,hcover,hok⟩ := bind_ok hok
  obtain ⟨duration,_,hok⟩ := bind_ok hok
  obtain ⟨role,_,hok⟩ := bind_ok hok
  obtain ⟨window,_,hok⟩ := bind_ok hok
  obtain ⟨_,hwindow,hok⟩ := bind_ok hok
  obtain ⟨mtu,_,hok⟩ := bind_ok hok
  obtain ⟨address,_,hok⟩ := bind_ok hok
  obtain ⟨pair,hpair,hok⟩ := bind_ok hok
  obtain ⟨_,_,hok⟩ := bind_ok hok
  obtain ⟨_,_,hok⟩ := bind_ok hok
  obtain ⟨_,_,hok⟩ := bind_ok hok
  obtain ⟨_,_,hok⟩ := bind_ok hok
  obtain ⟨_,_,hok⟩ := bind_ok hok
  obtain ⟨_,_,hok⟩ := bind_ok hok
  obtain ⟨_,_,hok⟩ := bind_ok hok
  obtain ⟨_,_,hok⟩ := bind_ok hok
  obtain ⟨_,_,hok⟩ := bind_ok hok
  obtain ⟨_,_,hok⟩ := bind_ok hok
  obtain ⟨pool,hpool,hok⟩ := bind_ok hok
  obtain ⟨limit,_,hok⟩ := bind_ok hok
  obtain ⟨suites,hsuites,hok⟩ := bind_ok hok
  cases hok
  have hcover := of_decide_eq_true (require_ok hcover)
  exact
    { ports := portRange_ok hports
      capacity := Nat.one_le_iff_ne_zero.mpr (of_decide_eq_true (require_ok hcapacity))
      message := ⟨positive_u32_ok hmessage,of_decide_eq_true (require_ok hsize)⟩
      buffer := max_le hcover.1 hcover.2
      window := Nat.one_le_iff_ne_zero.mpr (of_decide_eq_true (require_ok hwindow))
      pool := candidatePoolSize_ok hpool
      networks := network_types_ok htypes
      suites := cipher_suites_ok hsuites
      addresses := natMapping_ok hmapping
      credentials := iceCredentials_ok hpair }

lemma submitTo_ok {runtime operation target timeout_millis : Int64}
    {make : UInt64 → Except String Operation} {h : UInt64} {c : Command}
    (hok : Bridge.submitTo runtime operation target timeout_millis make = .ok (.submit h c)) :
    ∃ handle, make handle = .ok c.operation := by
  unfold Bridge.submitTo at hok
  obtain ⟨_,_,hok⟩ := bind_ok hok
  obtain ⟨_,_,hok⟩ := bind_ok hok
  obtain ⟨_,_,hok⟩ := bind_ok hok
  obtain ⟨handle,_,hok⟩ := bind_ok hok
  obtain ⟨operation,hoperation,hok⟩ := bind_ok hok
  cases hok
  exact ⟨handle,hoperation⟩

lemma valid_of_submitTo {runtime operation target timeout_millis : Int64}
    {make : UInt64 → Except String Operation} {h : UInt64} {c : Command}
    (hok : Bridge.submitTo runtime operation target timeout_millis make = .ok (.submit h c))
    (hmake : ∀ handle o, make handle = .ok o → o.Valid) : c.Valid := by
  obtain ⟨handle,ho⟩ := submitTo_ok hok
  exact hmake handle _ ho

lemma valid_of_simple {runtime operation target timeout_millis : Int64}
    {make : UInt64 → Operation} {h : UInt64} {c : Command}
    (hok : Bridge.submitTo runtime operation target timeout_millis (fun handle => .ok (make handle)) =
      .ok (.submit h c))
    (hmake : ∀ handle, (make handle).Valid) : c.Valid := by
  refine valid_of_submitTo hok fun handle o ho => ?_
  cases ho
  exact hmake handle

lemma submit_description_valid {runtime operation peer timeout_millis : Int64} {sdp : JString}
    {kind : Int32} {isLocal : Bool} {h : UInt64} {c : Command}
    (hok : Bridge.submit_description x runtime operation peer sdp kind timeout_millis isLocal =
      .ok (.submit h c)) : c.Valid := by
  unfold Bridge.submit_description at hok
  obtain ⟨_,_,hok⟩ := bind_ok hok
  obtain ⟨_,_,hok⟩ := bind_ok hok
  obtain ⟨_,_,hok⟩ := bind_ok hok
  obtain ⟨_,_,hok⟩ := bind_ok hok
  obtain ⟨_,_,hok⟩ := bind_ok hok
  split at hok
  · cases hok
    cases isLocal <;> trivial
  · cases hok

lemma thresholds_valid {runtime operation channel low high timeout_millis : Int64} {h : UInt64}
    {c : Command}
    (hok : Bridge.nativeSubmitSetDataChannelThresholds runtime operation channel low high
      timeout_millis = .ok (.submit h c)) : c.Valid := by
  unfold Bridge.nativeSubmitSetDataChannelThresholds at hok
  obtain ⟨_,_,hok⟩ := bind_ok hok
  obtain ⟨_,_,hok⟩ := bind_ok hok
  obtain ⟨_,hle,hok⟩ := bind_ok hok
  have hle := of_decide_eq_true (require_ok hle)
  exact valid_of_simple hok fun _ => hle

/-- Every submit function of the JNI boundary checks what it queues. -/
lemma jni_valid {runtime operation timeout_millis : Int64} {call : JniCall} {h : UInt64}
    {c : Command} (hok : call.request x runtime operation timeout_millis = .ok (.submit h c)) :
    c.Valid := by
  cases call with
  | createPeer a => exact createPeer_valid hok
  | setDataChannelThresholds channel low high => exact thresholds_valid hok
  | setLocalDescription peer sdp kind => exact submit_description_valid hok
  | setRemoteDescription peer sdp kind => exact submit_description_valid hok
  | restartIce peer => exact valid_of_simple hok fun _ => trivial
  | dataChannelWritable channel => exact valid_of_simple hok fun _ => trivial
  | dataChannelOutstandingBytes channel => exact valid_of_simple hok fun _ => trivial
  | getStats peer => exact valid_of_simple hok fun _ => trivial
  | closeDataChannel channel => exact valid_of_simple hok fun _ => trivial
  | closePeer peer => exact valid_of_simple hok fun _ => trivial
  | setConfiguration peer urls usernames credentials policy =>
    obtain ⟨_,_,hok⟩ := bind_ok hok
    obtain ⟨_,_,hok⟩ := bind_ok hok
    obtain ⟨_,_,hok⟩ := bind_ok hok
    obtain ⟨_,_,hok⟩ := bind_ok hok
    obtain ⟨_,_,hok⟩ := bind_ok hok
    exact valid_of_simple hok fun _ => trivial
  | createDescription peer kind =>
    obtain ⟨_,_,hok⟩ := bind_ok hok
    obtain ⟨_,_,hok⟩ := bind_ok hok
    obtain ⟨_,_,hok⟩ := bind_ok hok
    obtain ⟨_,_,hok⟩ := bind_ok hok
    obtain ⟨_,_,hok⟩ := bind_ok hok
    cases hok
    trivial
  | addIceCandidate peer candidate mid index =>
    obtain ⟨_,_,hok⟩ := bind_ok hok
    refine valid_of_submitTo hok fun handle o ho => ?_
    obtain ⟨_,_,ho⟩ := bind_ok ho
    cases ho
    trivial
  | createDataChannel peer label ordered lifeTime retransmits protocol negotiated =>
    obtain ⟨_,_,hok⟩ := bind_ok hok
    obtain ⟨_,_,hok⟩ := bind_ok hok
    refine valid_of_submitTo hok fun handle o ho => ?_
    obtain ⟨_,_,ho⟩ := bind_ok ho
    obtain ⟨_,_,ho⟩ := bind_ok ho
    obtain ⟨_,_,ho⟩ := bind_ok ho
    cases ho
    trivial
  | sendDataChannelText channel text =>
    obtain ⟨_,_,hok⟩ := bind_ok hok
    exact valid_of_simple hok fun _ => trivial
  | sendDataChannelBinary channel data =>
    obtain ⟨_,_,hok⟩ := bind_ok hok
    exact valid_of_simple hok fun _ => trivial
  | trySendDataChannelText channel text =>
    obtain ⟨_,_,hok⟩ := bind_ok hok
    exact valid_of_simple hok fun _ => trivial
  | trySendDataChannelBinary channel data =>
    obtain ⟨_,_,hok⟩ := bind_ok hok
    exact valid_of_simple hok fun _ => trivial
  | rotateCertificate pem =>
    obtain ⟨_,_,hok⟩ := bind_ok hok
    obtain ⟨_,_,hok⟩ := bind_ok hok
    obtain ⟨_,_,hok⟩ := bind_ok hok
    obtain ⟨_,_,hok⟩ := bind_ok hok
    cases hok
    trivial
  | closeRuntime =>
    obtain ⟨_,_,hok⟩ := bind_ok hok
    obtain ⟨_,_,hok⟩ := bind_ok hok
    obtain ⟨_,_,hok⟩ := bind_ok hok
    cases hok
    trivial

end Jni

end Kestara.Native
