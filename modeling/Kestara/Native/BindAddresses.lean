import Kestara.Native.Bridge

/-!
# Bind addresses of a peer

`bind_addresses` of registry.rs. Without explicit addresses a peer binds one wildcard address for
every network type that is asked for.
-/
namespace Kestara.Native

def NetworkType.isUdp : NetworkType → Bool
  | .udp4 | .udp6 => true
  | _ => false

def NetworkType.isTcp : NetworkType → Bool
  | .tcp4 | .tcp6 => true
  | _ => false

/-- The wildcard address of a network type that is not unspecified. -/
def wildcard (port : UInt16) : NetworkType → String
  | .udp4 | .tcp4 => s!"0.0.0.0:{port}"
  | _ => s!"[::]:{port}"

/-- Push an address that is not in the list yet. -/
def pushNew (target : List String) (address : String) : List String :=
  if target.contains address then target else target ++ [address]

/-- An iteration over the network types. -/
def pushWildcard (port : UInt16) (addresses : List String × List String) :
    NetworkType → List String × List String
  | .unspecified => addresses
  | .udp4 => (pushNew addresses.1 s!"0.0.0.0:{port}",addresses.2)
  | .udp6 => (pushNew addresses.1 s!"[::]:{port}",addresses.2)
  | .tcp4 => (addresses.1,pushNew addresses.2 s!"0.0.0.0:{port}")
  | .tcp6 => (addresses.1,pushNew addresses.2 s!"[::]:{port}")

/-- An explicit address gets the port, unless it is no IP address. -/
def append_port (x : Externals) (port : UInt16) (address : String) : String :=
  match x.parse_ip_addr address with
  | .ok (.v4 _) => s!"{address}:{port}"
  | .ok (.v6 _) => s!"[{address}]:{port}"
  | .error _ => address

/-- The UDP and the TCP addresses. -/
def bind_addresses (x : Externals) (configuration : TransportConfiguration)
    (network_types : List NetworkType) (port : UInt16) : List String × List String :=
  if configuration.udp_bind_addresses = [] ∧ configuration.tcp_bind_addresses = [] then
    network_types.foldl (pushWildcard port) ([],[])
  else (configuration.udp_bind_addresses.map (append_port x port),
    configuration.tcp_bind_addresses.map (append_port x port))

/-- The network types that a predicate accepts, each once, in the order of their first
occurrence. -/
def requested (accepts : NetworkType → Bool) (network_types : List NetworkType) :
    List NetworkType := (network_types.filter accepts).reverse.dedup.reverse

section Requested
variable {accepts : NetworkType → Bool} {l : List NetworkType} {a : NetworkType}

lemma mem_requested : a ∈ requested accepts l ↔ a ∈ l ∧ accepts a = true := by
  simp [requested]

lemma nodup_requested : (requested accepts l).Nodup :=
  List.nodup_reverse.mpr (List.nodup_dedup _)

lemma requested_concat : requested accepts (l ++ [a]) =
    if accepts a = true ∧ a ∉ l then requested accepts l ++ [a] else requested accepts l := by
  unfold requested
  rw [List.filter_append,List.reverse_append]
  by_cases ha : accepts a = true
  · have hsingle : (List.filter accepts [a]).reverse = [a] := by simp [ha]
    rw [hsingle,List.singleton_append]
    by_cases hl : a ∈ l
    · rw [List.dedup_cons_of_mem (by simp [hl,ha]),if_neg (by simp [hl])]
    · rw [List.dedup_cons_of_notMem (by simp [hl]),if_pos ⟨ha,hl⟩,List.reverse_cons]
  · have hsingle : (List.filter accepts [a]).reverse = [] := by simp [ha]
    rw [hsingle,List.nil_append,if_neg (by simp [ha])]

end Requested

lemma wildcard_ne (port : UInt16) : s!"0.0.0.0:{port}" ≠ s!"[::]:{port}" := by
  intro h
  have hlist := congrArg String.toList h
  simp [toString] at hlist

/-- The network types that a predicate accepts have different wildcard addresses. -/
def Separates (accepts : NetworkType → Bool) : Prop :=
  ∀ port a b, accepts a = true → accepts b = true → wildcard port a = wildcard port b → a = b

lemma separates_of_kind {accepts : NetworkType → Bool} (hno : accepts .unspecified = false)
    (hkind : (accepts .udp4 || accepts .udp6) = false ∨ (accepts .tcp4 || accepts .tcp6) = false) :
    Separates accepts := by
  intro port a b ha hb h
  have hne := wildcard_ne port
  cases a <;> cases b <;>
    first | rfl | exact absurd h hne | exact absurd h.symm hne | simp_all

lemma separates_udp : Separates (·.isUdp) := separates_of_kind rfl (.inr rfl)

lemma separates_tcp : Separates (·.isTcp) := separates_of_kind rfl (.inl rfl)

lemma pushNew_requested {port : UInt16} {accepts : NetworkType → Bool} {l : List NetworkType}
    {a : NetworkType} (hs : Separates accepts) (ha : accepts a = true) :
    pushNew ((requested accepts l).map (wildcard port)) (wildcard port a) =
      (requested accepts (l ++ [a])).map (wildcard port) := by
  rw [requested_concat]
  unfold pushNew
  by_cases hl : a ∈ l
  · have hmem : ((requested accepts l).map (wildcard port)).contains (wildcard port a) = true := by
      rw [List.contains_iff_mem]
      exact List.mem_map_of_mem (mem_requested.mpr ⟨hl,ha⟩)
    rw [if_pos hmem,if_neg (by simp [hl])]
  · have hmem : ¬ ((requested accepts l).map (wildcard port)).contains (wildcard port a) = true := by
      rw [List.contains_iff_mem,List.mem_map]
      rintro ⟨b,hb,heq⟩
      obtain ⟨hb,hacc⟩ := mem_requested.mp hb
      exact hl (hs port b a hacc ha heq ▸ hb)
    rw [if_neg hmem,if_pos ⟨ha,hl⟩,List.map_append,List.map_singleton]

lemma requested_skip (accepts : NetworkType → Bool) {l : List NetworkType} {a : NetworkType}
    (ha : accepts a = false) : requested accepts (l ++ [a]) = requested accepts l := by
  rw [requested_concat,if_neg (by simp [ha])]

/-- What the loop has pushed after a list of network types. -/
lemma foldl_pushWildcard (port : UInt16) (network_types : List NetworkType) :
    network_types.foldl (pushWildcard port) ([],[]) =
      ((requested (·.isUdp) network_types).map (wildcard port),
        (requested (·.isTcp) network_types).map (wildcard port)) := by
  induction network_types using List.reverseRecOn with
  | nil => rfl
  | append_singleton l a ih =>
    rw [List.foldl_append,ih]
    simp only [List.foldl_cons,List.foldl_nil]
    cases a with
    | unspecified =>
      rw [requested_skip (·.isUdp) rfl,requested_skip (·.isTcp) rfl]
      rfl
    | udp4 | udp6 =>
      rw [requested_skip (·.isTcp) rfl,← pushNew_requested separates_udp rfl]
      rfl
    | tcp4 | tcp6 =>
      rw [requested_skip (·.isUdp) rfl,← pushNew_requested separates_tcp rfl]
      rfl

/-- Without explicit addresses: one wildcard address for every network type, UDP and TCP apart. -/
theorem bind_addresses_wildcards (x : Externals) {configuration : TransportConfiguration}
    (hu : configuration.udp_bind_addresses = []) (ht : configuration.tcp_bind_addresses = [])
    (network_types : List NetworkType) (port : UInt16) :
    bind_addresses x configuration network_types port =
      ((requested (·.isUdp) network_types).map (wildcard port),
        (requested (·.isTcp) network_types).map (wildcard port)) := by
  unfold bind_addresses
  rw [if_pos ⟨hu,ht⟩]
  exact foldl_pushWildcard port network_types

lemma nodup_wildcards {accepts : NetworkType → Bool} {network_types : List NetworkType}
    (port : UInt16) (hs : Separates accepts) :
    ((requested accepts network_types).map (wildcard port)).Nodup := by
  refine List.Nodup.map_on ?_ nodup_requested
  intro a ha b hb h
  exact hs port a b (mem_requested.mp ha).2 (mem_requested.mp hb).2 h

end Kestara.Native
