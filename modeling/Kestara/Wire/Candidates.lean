import Kestara.Library.LinkedMap
import Kestara.Wire.StatsReport

/-!
# The candidates of the selected pair

A stats report is a map of entries in some iteration order. A candidate that is not stored under
its identifier is looked for among all identifiers that end with it, and the first one is taken.
-/
namespace Kestara.Wire

/-- The order of the entries is that in which the report enumerates them. -/
abbrev StatsEntries := LinkedMap String RTCStatsReportEntry

def StatsEntries.report (peer_connection : Option RTCPeerConnectionStats)
    (transport : Option RTCTransportStats) (entries : StatsEntries) : RTCStatsReport where
  peer_connection := peer_connection
  transport := transport
  get := entries.lookup
  iter := entries.values

/-- The candidate stored under an identifier. -/
def stored (entries : StatsEntries) (id : String) : Option RTCIceCandidateStats :=
  (entries.lookup id).bind (·.candidate?)

/-- The candidates whose own identifier ends with the one looked for. -/
def matching (entries : StatsEntries) (id : String) : List RTCIceCandidateStats :=
  (entries.values.filterMap (·.candidate?)).filter fun c => id.toList.isSuffixOf c.id.toList

lemma findSome?_candidate (id : String) (l : List RTCStatsReportEntry) :
    (l.findSome? fun entry =>
        (entry.candidate?).filter fun c => id.toList.isSuffixOf c.id.toList) =
      ((l.filterMap (·.candidate?)).filter fun c => id.toList.isSuffixOf c.id.toList).head? := by
  induction l with
  | nil => rfl
  | cons entry l ih =>
    rw [List.findSome?_cons,List.filterMap_cons,ih]
    cases entry.candidate? with
    | none => rfl
    | some c => cases hc : id.toList.isSuffixOf c.id.toList <;> simp [Option.filter,hc]

section Report
variable {peer : Option RTCPeerConnectionStats} {t : Option RTCTransportStats}
variable {entries entries' : StatsEntries} {id : String}

lemma candidate_report :
    candidate (entries.report peer t) id = (stored entries id).or (matching entries id).head? := by
  unfold candidate
  split
  · next c hc =>
    have hs : stored entries id = some c := hc
    rw [hs]
    rfl
  · next hc =>
    have hs : stored entries id = none := hc
    rw [hs]
    exact findSome?_candidate id entries.values

lemma lookup_perm (h : entries'.entries.Perm entries.entries) (k : String) :
    entries'.lookup k = entries.lookup k := by
  apply Option.ext
  intro v
  simp only [LinkedMap.lookup_eq_some_iff]
  exact h.mem_iff

lemma matching_perm (h : entries'.entries.Perm entries.entries) :
    (matching entries' id).Perm (matching entries id) :=
  ((h.map Prod.snd).filterMap _).filter _

/-- What is found is the candidate stored under the identifier, or the only one that matches. -/
def Identified (entries : StatsEntries) (id : String) : Prop :=
  ∀ peer t c, candidate (entries.report peer t) id = some c →
    stored entries id = some c ∨ stored entries id = none ∧ matching entries id = [c]

/-- A candidate is stored under the identifier, or at most one matches it. -/
def Unambiguous (entries : StatsEntries) (id : String) : Prop :=
  (stored entries id).isSome ∨ (matching entries id).length ≤ 1

lemma identified_iff : Identified entries id ↔ Unambiguous entries id := by
  unfold Identified Unambiguous
  simp only [candidate_report]
  cases hs : stored entries id with
  | some c => simp
  | none =>
    cases hm : matching entries id with
    | nil => simp
    | cons c rest =>
      constructor
      · intro h
        obtain h | ⟨-,h⟩ := h none none c rfl
        · cases h
        · simp [h]
      · intro h peer t c' hc
        obtain rfl : rest = [] := by
          obtain h | h := h
          · cases h
          · simpa using h
        cases hc
        exact .inr ⟨rfl,rfl⟩

/-- An unambiguous candidate does not depend on the iteration order. -/
lemma candidate_perm (h : Unambiguous entries id) (hp : entries'.entries.Perm entries.entries) :
    candidate (entries'.report peer t) id = candidate (entries.report peer t) id := by
  have hstored : stored entries' id = stored entries id := by
    unfold stored
    rw [lookup_perm hp]
  rw [candidate_report,candidate_report,hstored]
  obtain h | h := h
  · obtain ⟨c,hc⟩ := Option.isSome_iff_exists.mp h
    rw [hc]
    rfl
  · have hmatch : (matching entries' id).Perm (matching entries id) := matching_perm hp
    cases hm : matching entries id with
    | nil =>
      rw [hm] at hmatch
      rw [hmatch.eq_nil]
    | cons c rest =>
      obtain rfl : rest = [] := by
        rw [hm] at h
        simpa using h
      rw [hm] at hmatch
      rw [List.perm_singleton.mp hmatch]

end Report

section Pair
variable (peer : Option RTCPeerConnectionStats) (transport : RTCTransportStats)
variable (entries : StatsEntries) (pair : RTCIceCandidatePairStats)

/-- Both candidates of the pair are identified, and another iteration order changes neither of
them, nor what is written for the pair. -/
structure PairIdentified : Prop where
  identified : ∀ id, id = pair.local_candidate_id ∨ id = pair.remote_candidate_id →
    Identified entries id
  candidates : ∀ entries' : StatsEntries, entries'.entries.Perm entries.entries →
    ∀ id, id = pair.local_candidate_id ∨ id = pair.remote_candidate_id →
      candidate (entries'.report peer (some transport)) id =
        candidate (entries.report peer (some transport)) id
  written : ∀ entries' : StatsEntries, entries'.entries.Perm entries.entries →
    write_selected_pair (entries'.report peer (some transport)) transport =
      write_selected_pair (entries.report peer (some transport)) transport

variable {peer transport entries pair}

/-- The candidates of the selected pair are identified exactly if neither identifier is ambiguous. -/
theorem pairIdentified_iff
    (hp : selectedPair (entries.report peer (some transport)) transport = some pair) :
    PairIdentified peer transport entries pair ↔
      Unambiguous entries pair.local_candidate_id ∧ Unambiguous entries pair.remote_candidate_id := by
  constructor
  · intro h
    exact ⟨identified_iff.mp (h.identified _ (.inl rfl)),identified_iff.mp (h.identified _ (.inr rfl))⟩
  · rintro ⟨hlocal,hremote⟩
    have hid : ∀ id, id = pair.local_candidate_id ∨ id = pair.remote_candidate_id →
        Unambiguous entries id := by
      rintro id (rfl | rfl)
      · exact hlocal
      · exact hremote
    refine ⟨fun id h => identified_iff.mpr (hid id h),fun entries' he id h =>
      candidate_perm (hid id h) he,fun entries' he => ?_⟩
    have hp' : selectedPair (entries'.report peer (some transport)) transport = some pair := by
      rw [← hp]
      simp only [selectedPair,StatsEntries.report,lookup_perm he]
    unfold write_selected_pair
    rw [hp,hp']
    change write_pair _ pair = write_pair _ pair
    unfold write_pair
    rw [candidate_perm hlocal he,candidate_perm hremote he]

end Pair

/-- A transport whose selected pair is stored under the given key. -/
def transportOf (selected : String) : RTCTransportStats where
  packets_sent := 0
  packets_received := 0
  bytes_sent := 0
  bytes_received := 0
  ice_role := ⟨"Controlling"⟩
  ice_state := ⟨"Connected"⟩
  dtls_role := ⟨"Client"⟩
  dtls_state := ⟨"Connected"⟩
  tls_version := "1.2"
  dtls_cipher := ""
  selected_candidate_pair_changes := 1
  selected_candidate_pair_id := selected

def pairOf (localId remoteId : String) : RTCIceCandidatePairStats where
  id := "pair"
  local_candidate_id := localId
  remote_candidate_id := remoteId
  packets_sent := 0
  packets_received := 0
  bytes_sent := 0
  bytes_received := 0
  current_round_trip_time := 0
  total_round_trip_time := 0
  requests_sent := 0
  requests_received := 0
  responses_sent := 0
  responses_received := 0
  state := ⟨"Succeeded"⟩
  nominated := true

def candidateOf (id : String) : RTCIceCandidateStats where
  id := id
  address := none
  port := 5000
  protocol := "udp"
  candidate_type := ⟨"Host"⟩
  priority := 0
  url := ""
  relay_protocol := ⟨"Unspecified"⟩
  foundation := ""
  related_address := ""
  related_port := 0
  username_fragment := ""
  tcp_type := ⟨"Unspecified"⟩

/-- A selected pair whose local candidate is stored under a longer identifier. -/
def pairEntries : StatsEntries where
  entries := [("pair",.iceCandidatePair (pairOf "7" "9")),
    ("candidate-7",.localCandidate (candidateOf "candidate-7")),
    ("9",.remoteCandidate (candidateOf "9"))]
  nodup := by decide

theorem pairIdentified_pairEntries :
    PairIdentified none (transportOf "pair") pairEntries (pairOf "7" "9") :=
  (pairIdentified_iff (by rfl)).mpr ⟨.inr (by decide),.inl (by decide)⟩

/-- Another local candidate has an identifier with the same end. -/
def ambiguousEntries : StatsEntries where
  entries := [("pair",.iceCandidatePair (pairOf "7" "9")),
    ("candidate-17",.localCandidate (candidateOf "candidate-17")),
    ("candidate-7",.localCandidate (candidateOf "candidate-7"))]
  nodup := by decide

theorem candidate_ambiguous :
    ¬ ∀ peer transport entries pair,
      selectedPair (StatsEntries.report peer (some transport) entries) transport = some pair →
        PairIdentified peer transport entries pair := by
  intro h
  have hp := h none (transportOf "pair") ambiguousEntries (pairOf "7" "9") (by rfl)
  obtain h₁ | ⟨-,h₂⟩ := hp.identified "7" (.inl rfl) none none (candidateOf "candidate-17") (by rfl)
  · exact absurd h₁ (by decide)
  · exact absurd h₂ (by decide)

end Kestara.Wire
