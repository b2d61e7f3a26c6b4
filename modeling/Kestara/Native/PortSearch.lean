import Kestara.Native.BindAddresses
import Kestara.Native.RegistrySteps

/-!
# The port search of create_peer

The loop of `create_peer` builds a peer for one port after the other until one build succeeds or
fails for another reason than that the port is taken. Other tasks may run between its steps.
-/
namespace Kestara.Native
open Interleaving

/-- What `build` gives for each port. -/
abbrev BuildOutcome := UInt16 → Except String Unit

section Ports
variable {configuration : PeerConfiguration}

lemma toNat_port {n : ℕ} (h : n < 2^16) : (UInt16.ofNat n).toNat = n :=
  UInt16.toNat_ofNat_of_lt' h

/-- Both ports are zero, or they bound a range of ports. -/
def PeerConfiguration.PortsAdmitted (c : PeerConfiguration) : Prop :=
  c.min_port = 0 ∧ c.max_port = 0 ∨ 1 ≤ c.min_port ∧ c.min_port ≤ c.max_port

lemma mem_ports (h : configuration.PortsAdmitted) (port : UInt16) :
    port ∈ ports configuration ↔ configuration.min_port ≤ port ∧ port ≤ configuration.max_port := by
  unfold ports
  obtain ⟨h₁,h₂⟩ | ⟨h₁,h₂⟩ := h
  · rw [if_pos h₁,h₁,h₂,List.mem_singleton]
    constructor
    · rintro rfl
      exact ⟨UInt16.le_refl _,UInt16.le_refl _⟩
    · rintro ⟨-,h⟩
      exact UInt16.le_zero_iff.mp h
  · have hne : configuration.min_port ≠ 0 := by
      intro h
      rw [h] at h₁
      exact absurd h₁ (by decide)
    have hmax := configuration.max_port.toNat_lt
    rw [if_neg hne,List.mem_map]
    simp only [List.mem_range'_1,UInt16.le_iff_toNat_le] at *
    constructor
    · rintro ⟨n,hn,rfl⟩
      rw [toNat_port (by omega)]
      omega
    · intro h
      exact ⟨port.toNat,by omega,UInt16.ofNat_toNat⟩

/-- The ports are tried in ascending order, each at most once. -/
lemma pairwise_ports : (ports configuration).Pairwise (· < ·) := by
  unfold ports
  split_ifs
  · simp
  · have hmax := configuration.max_port.toNat_lt
    rw [List.pairwise_map]
    refine List.Pairwise.imp_of_mem ?_ List.pairwise_lt_range'
    intro a b ha hb h
    rw [List.mem_range'_1] at ha hb
    rw [UInt16.lt_iff_toNat_lt,toNat_port (by omega),
      toNat_port (by omega)]
    exact h

end Ports

/-- The port is taken: the next one is tried. -/
def Retryable (outcome : BuildOutcome) (port : UInt16) : Prop :=
  ∃ message, outcome port = .error message ∧ contains message retryableText = true

/-- The first port of a list for which a peer is built: all ports before it are taken. -/
def FirstAt (outcome : BuildOutcome) (configuration : PeerConfiguration) (port : UInt16) : Prop :=
  ∃ tried rest, ports configuration = tried ++ port :: rest ∧
    (∀ q ∈ tried, Retryable outcome q) ∧ outcome port = .ok ()

/-- The least port of the range for which a peer is built, with all smaller ones taken. -/
def LeastAt (outcome : BuildOutcome) (configuration : PeerConfiguration) (port : UInt16) : Prop :=
  (configuration.min_port ≤ port ∧ port ≤ configuration.max_port) ∧ outcome port = .ok () ∧
    ∀ q, configuration.min_port ≤ q → q < port → Retryable outcome q

lemma firstAt_iff {outcome : BuildOutcome} {configuration : PeerConfiguration}
    (h : configuration.PortsAdmitted) {port : UInt16} :
    FirstAt outcome configuration port ↔ LeastAt outcome configuration port := by
  constructor
  · rintro ⟨tried,rest,hports,hfail,hok⟩
    have hmem : port ∈ ports configuration := by simp [hports]
    refine ⟨(mem_ports h port).mp hmem,hok,fun q hq hlt => ?_⟩
    have hmax := ((mem_ports h port).mp hmem).2
    have hq : q ∈ ports configuration :=
      (mem_ports h q).mpr ⟨hq,UInt16.le_of_lt (UInt16.lt_of_lt_of_le hlt hmax)⟩
    have hsorted : (ports configuration).Pairwise (· < ·) := pairwise_ports
    rw [hports] at hq hsorted
    rw [List.pairwise_append,List.pairwise_cons] at hsorted
    obtain hq | hq := List.mem_append.mp hq
    · exact hfail q hq
    · obtain rfl | hq := List.mem_cons.mp hq
      · exact absurd hlt (UInt16.lt_irrefl _)
      · exact absurd (hsorted.2.1.1 q hq) (UInt16.lt_asymm hlt)
  · rintro ⟨hrange,hok,hfail⟩
    obtain ⟨tried,rest,hports⟩ := List.append_of_mem ((mem_ports h port).mpr hrange)
    refine ⟨tried,rest,hports,fun q hq => ?_,hok⟩
    have hmem : q ∈ ports configuration := by simp [hports,hq]
    have hsorted : (ports configuration).Pairwise (· < ·) := pairwise_ports
    rw [hports,List.pairwise_append] at hsorted
    exact hfail q ((mem_ports h q).mp hmem).1 (hsorted.2.2 q hq port (by simp))

/-- The calls of `build` that a task has made. -/
def triedBy (t : TaskId) (s : RuntimeState) : List Build :=
  s.history.builds.filter (·.task = t)

/-- What a task has put into the registry. -/
def registeredBy (t : TaskId) (s : RuntimeState) : List Registration :=
  s.history.registered.filter (·.task = t)

/-- What the steps of other tasks leave as it is. -/
structure OtherSteps (t : TaskId) (s s' : RuntimeState) : Prop where
  builds : triedBy t s' = triedBy t s
  registered : registeredBy t s' = registeredBy t s
  peers : ∀ p : ℕ, p < s.nextPeer → p < s'.nextPeer ∧ (s'.peer p).handle = (s.peer p).handle ∧
    (s'.peer p).port = (s.peer p).port
  tasks : s.nextTask ≤ s'.nextTask
  events : ∀ e ∈ s.events, e ∈ s'.events

lemma other_of_does {t u : TaskId} {s : RuntimeState} {i : Instr} {o : Outcome} (hne : u ≠ t)
    (h : Does u s i o) : OtherSteps t s (after o s) := by
  cases h
  case bindPort handle configuration port ports last_error =>
    refine ⟨?_,rfl,fun _ hp => ⟨hp,rfl,rfl⟩,le_rfl,fun _ he => he⟩
    simp [triedBy,after,RuntimeState.record,hne]
  case built handle configuration port ports certificate =>
    refine ⟨rfl,rfl,fun p hp => ⟨Nat.lt_succ_of_lt hp,?_⟩,le_rfl,fun _ he => he⟩
    simp [after,Function.update_of_ne (Nat.ne_of_lt hp)]
  case insertPeer handle peer receive_queue_capacity =>
    refine ⟨rfl,?_,fun _ hp => ⟨hp,rfl,rfl⟩,le_rfl,fun _ he => he⟩
    simp [registeredBy,after,RuntimeState.record,RuntimeState.setRegistry,hne]
  case insertChannel handle peer_handle channel emit attributes =>
    refine ⟨rfl,?_,fun _ hp => ⟨hp,rfl,rfl⟩,le_rfl,fun _ he => he⟩
    simp [registeredBy,after,insertChannel,RuntimeState.record,RuntimeState.setRegistry,hne]
  case closePeer peer =>
    refine ⟨rfl,rfl,fun p hp => ⟨hp,?_⟩,le_rfl,fun _ he => he⟩
    by_cases he : p = peer
    · subst he
      simp [after]
    · simp [after,Function.update_of_ne he]
  case startPolling | dispatch | spawnClose =>
    exact ⟨rfl,rfl,fun _ hp => ⟨hp,rfl,rfl⟩,Nat.le_succ _,fun _ he => he⟩
  case polled | closed | deliver | sendCreated | post =>
    exact ⟨rfl,rfl,fun _ hp => ⟨hp,rfl,rfl⟩,le_rfl,fun _ he => List.mem_append_left _ he⟩
  all_goals exact ⟨rfl,rfl,fun _ hp => ⟨hp,rfl,rfl⟩,le_rfl,fun _ he => he⟩

section Others
variable {t : ℕ} {c c' : Config}

lemma other_taskStep {x : Choice} {u : ℕ} (hne : u ≠ t)
    (h : Machine.TaskStep machine x u c c') : OtherSteps t c.shared c'.shared := by
  obtain ⟨i,rest,o,locked,aborted,-,hdoes,hshared⟩ := shared_of_taskStep h
  have hother := other_of_does hne hdoes
  rw [hshared]
  exact ⟨hother.builds,hother.registered,hother.peers,hother.tasks,hother.events⟩

lemma other_step {l : Label} (hl : ∀ x, l ≠ .task t x) (h : step l c = some c') :
    OtherSteps t c.shared c'.shared := by
  cases step_cases h with
  | @task u x _ h =>
    refine other_taskStep (fun hu => ?_) h
    subst hu
    exact hl x rfl
  | announce peer channel =>
    exact ⟨rfl,rfl,fun _ hp => ⟨hp,rfl,rfl⟩,Nat.le_succ _,fun _ he => he⟩
  | submit => exact ⟨rfl,rfl,fun _ hp => ⟨hp,rfl,rfl⟩,le_rfl,fun _ he => he⟩
  | completeError | callback =>
    exact ⟨rfl,rfl,fun _ hp => ⟨hp,rfl,rfl⟩,le_rfl,fun _ he => List.mem_append_left _ he⟩

/-- A task that has not been spawned has built and registered nothing. -/
def Unused (c : Config) : Prop :=
  ∀ t : ℕ, c.shared.nextTask ≤ t → triedBy t c.shared = [] ∧ registeredBy t c.shared = []

lemma unused_step {l : Label} (hc : Spawned c) (hu : Unused c) (h : step l c = some c') :
    Unused c' := by
  intro t ht
  have hle : c.shared.nextTask ≤ t := (nextTask_le h).trans ht
  have hl : ∀ x, l ≠ .task t x := by
    rintro x rfl
    obtain ⟨i,rest,head,-⟩ := Machine.stepTask_cases h
    have hlt : t < c.shared.nextTask := hc.lt (i := i) (by simp [head])
    omega
  have ho := other_step hl h
  obtain ⟨hb,hr⟩ := hu t hle
  exact ⟨ho.builds.trans hb,ho.registered.trans hr⟩

lemma unused_of_reachable {certificate : RTCCertificate} {ok : Label → Config → Prop}
    (h : Reachable certificate ok c) : Unused c :=
  h.induct (fun _ _ => ⟨rfl,rfl⟩) fun _ _ _ hd hI _ hs =>
    unused_step (spawned_of_reachable hd) hI hs

end Others

/-- The command has its result, which is to be sent or has been. -/
def Ended (operation_handle : UInt64) (result : Except String OperationValue) (s : RuntimeState)
    (code : List Instr) : Prop :=
  code = [.post operation_handle result,.finish] ∨
    (code = [.finish] ∨ code = []) ∧ NativeEvent.operation operation_handle result ∈ s.events

lemma Ended.mono {operation_handle : UInt64} {result : Except String OperationValue}
    {s s' : RuntimeState} {code : List Instr} (h : Ended operation_handle result s code)
    (hs : ∀ e ∈ s.events, e ∈ s'.events) : Ended operation_handle result s' code :=
  h.imp_right fun ⟨hcode,he⟩ => ⟨hcode,hs _ he⟩

def rest (operation_handle : UInt64) : List Instr := [.dispatched operation_handle,.finish]

/-- The stages of a CreatePeer command: what is left to run, what has been tried, and what has
been registered. -/
inductive CallStage (outcome : BuildOutcome) (configuration : PeerConfiguration)
    (operation_handle : UInt64) (t : TaskId) (s : RuntimeState) : List Instr → Prop
  | start (hb : triedBy t s = []) (hr : registeredBy t s = []) :
      CallStage outcome configuration operation_handle t s
        (.execute (.createPeer configuration) :: rest operation_handle)
  | search {handle tried left last_error} (hp : ports configuration = tried ++ left)
      (hf : ∀ q ∈ tried, Retryable outcome q)
      (hb : triedBy t s = tried.map (Build.mk t configuration)) (hr : registeredBy t s = []) :
      CallStage outcome configuration operation_handle t s
        (.bindPort handle configuration left last_error :: rest operation_handle)
  | build {handle tried port left certificate} (hp : ports configuration = tried ++ port :: left)
      (hf : ∀ q ∈ tried, Retryable outcome q)
      (hb : triedBy t s = (tried ++ [port]).map (Build.mk t configuration))
      (hr : registeredBy t s = []) :
      CallStage outcome configuration operation_handle t s
        (.buildPeer handle configuration port left certificate :: rest operation_handle)
  | insert {handle tried port left} {peer : ℕ}
      (hp : ports configuration = tried ++ port :: left)
      (hf : ∀ q ∈ tried, Retryable outcome q) (ho : outcome port = .ok ())
      (hb : triedBy t s = (tried ++ [port]).map (Build.mk t configuration))
      (hr : registeredBy t s = []) (hl : peer < s.nextPeer)
      (hbuilt : (s.peer peer).handle = handle ∧ (s.peer peer).port = port) :
      CallStage outcome configuration operation_handle t s
        (.insertPeer handle peer configuration.sctp.receive_queue_capacity :: rest operation_handle)
  | found {handle tried port left} {peer : ℕ} {code}
      (hp : ports configuration = tried ++ port :: left)
      (hf : ∀ q ∈ tried, Retryable outcome q) (ho : outcome port = .ok ())
      (hb : triedBy t s = (tried ++ [port]).map (Build.mk t configuration))
      (hr : registeredBy t s = [⟨t,handle,.peer peer⟩])
      (hc : Ended operation_handle (.ok { peer_handle := handle }) s code) :
      CallStage outcome configuration operation_handle t s code
  | failed {error tried left code} (hp : ports configuration = tried ++ left)
      (hb : triedBy t s = tried.map (Build.mk t configuration)) (hr : registeredBy t s = [])
      (hn : ∀ port, ¬ FirstAt outcome configuration port)
      (hc : Ended operation_handle (.error error) s code) :
      CallStage outcome configuration operation_handle t s code

section Stages
variable {outcome : BuildOutcome} {configuration : PeerConfiguration} {op : UInt64} {t : ℕ}

lemma CallStage.mono {s s' : RuntimeState} {code : List Instr}
    (h : CallStage outcome configuration op t s code) (ho : OtherSteps t s s') :
    CallStage outcome configuration op t s' code := by
  cases h with
  | start hb hr => exact .start (ho.builds.trans hb) (ho.registered.trans hr)
  | search hp hf hb hr => exact .search hp hf (ho.builds.trans hb) (ho.registered.trans hr)
  | build hp hf hb hr => exact .build hp hf (ho.builds.trans hb) (ho.registered.trans hr)
  | insert hp hf hok hb hr hl hbuilt =>
    obtain ⟨hl',hhandle,hport⟩ := ho.peers _ hl
    exact .insert hp hf hok (ho.builds.trans hb) (ho.registered.trans hr) hl'
      ⟨hhandle.trans hbuilt.1,hport.trans hbuilt.2⟩
  | found hp hf hok hb hr hc =>
    exact .found hp hf hok (ho.builds.trans hb) (ho.registered.trans hr) (hc.mono ho.events)
  | failed hp hb hr hn hc =>
    exact .failed hp (ho.builds.trans hb) (ho.registered.trans hr) hn (hc.mono ho.events)

/-- The result of `build`. -/
def buildChoice (outcome : BuildOutcome) (port : UInt16) : Choice :=
  match outcome port with
  | .ok () => .ok
  | .error message => .fail message

/-- The builds of the task give what `outcome` says, and the task is not cancelled. -/
def Follows (outcome : BuildOutcome) (t : TaskId) (l : Label) (c : Config) : Prop :=
  ∀ x, l = .task t x → x ≠ .expire ∧ x ≠ .drop ∧
    ∀ handle configuration port left certificate code,
      c.tasks t = .buildPeer handle configuration port left certificate :: code →
        x = buildChoice outcome port

/-- No other port can be found once one has ended the search. -/
lemma not_firstAt {tried left : List UInt16} {port : UInt16}
    (hp : ports configuration = tried ++ port :: left) (hf : ∀ q ∈ tried, Retryable outcome q)
    (hno : Retryable outcome port → left = []) (hok : outcome port ≠ .ok ()) :
    ∀ q, ¬ FirstAt outcome configuration q := by
  rintro q ⟨tried',left',hp',hf',hok'⟩
  have hsplit := hp.symm.trans hp'
  obtain ⟨l,rfl,h⟩ | ⟨l,rfl,h⟩ := List.append_eq_append_iff.mp hsplit
  · cases l with
    | nil =>
      cases h
      exact hok hok'
    | cons a l =>
      obtain ⟨rfl,hleft⟩ := List.cons.inj h
      rw [hno (hf' _ (by simp))] at hleft
      simp at hleft
  · cases l with
    | nil =>
      cases h
      exact hok hok'
    | cons a l =>
      cases h
      obtain ⟨message,hm,-⟩ := hf q (by simp)
      rw [hok'] at hm
      cases hm

lemma not_firstAt_end (hf : ∀ q ∈ ports configuration, Retryable outcome q) :
    ∀ q, ¬ FirstAt outcome configuration q := by
  rintro q ⟨tried,left,hp,-,hok⟩
  obtain ⟨message,hm,-⟩ := hf q (by simp [hp])
  rw [hok] at hm
  cases hm

/-- Port 0 is never one of several. -/
lemma left_of_zero {tried left : List UInt16} (hp : ports configuration = tried ++ 0 :: left) :
    left = [] := by
  have hmem : (0 : UInt16) ∈ ports configuration := by simp [hp]
  unfold ports at hp hmem
  split_ifs at hp hmem with h
  · obtain ⟨-,h⟩ | ⟨-,h⟩ := List.singleton_eq_append_iff.mp hp
    · exact (List.cons.inj h).2
    · cases h
  · exfalso
    have hmax := configuration.max_port.toNat_lt
    obtain ⟨n,hn,hzero⟩ := List.mem_map.mp hmem
    rw [List.mem_range'_1] at hn
    have hn' := congrArg UInt16.toNat hzero
    rw [toNat_port (by omega)] at hn'
    apply h
    apply UInt16.toNat_inj.mp
    change _ = 0
    change n = 0 at hn'
    omega

lemma retryable_of_error {port : UInt16} {message : String} (h : outcome port = .error message) :
    Retryable outcome port ↔ contains message retryableText = true := by
  constructor
  · rintro ⟨m,hm,hc⟩
    rw [h] at hm
    cases hm
    exact hc
  · exact fun hc => ⟨message,h,hc⟩

/-- The steps of a call that are still ahead of it. -/
def callSize : List Instr → ℕ
  | .execute (.createPeer configuration) :: _ => 2*(ports configuration).length+5
  | .bindPort _ _ left _ :: _ => 2*left.length+4
  | .buildPeer _ _ _ left _ :: _ => 2*left.length+5
  | .insertPeer _ _ _ :: _ => 3
  | code => code.length

/-- What a step of the call does to the registry: nothing, or it enters the peer that has been
built for the first port that can be had, and gives its handle. -/
inductive Registers (found : UInt16 → Prop) (configuration : PeerConfiguration)
    (operation_handle : UInt64) (t : TaskId) (s s' : RuntimeState) (code' : List Instr) : Prop
  | unchanged (registry : s'.registry = s.registry)
      (registered : registeredBy t s' = registeredBy t s)
      (unnamed : ∀ handle, code' ≠ [.post operation_handle (.ok { peer_handle := handle }),.finish])
  | entered (handle : UInt64) (p : ℕ)
      (registry : s'.registry = { s.registry with
        peers := s.registry.peers.insert handle ⟨p,configuration.sctp.receive_queue_capacity⟩ })
      (registered : registeredBy t s = [] ∧ registeredBy t s' = [⟨t,handle,.peer p⟩])
      (built : (s.peer p).handle = handle ∧ found (s.peer p).port)
      (named : code' = [.post operation_handle (.ok { peer_handle := handle }),.finish])

/-- A step of the call. -/
structure Advance (outcome : BuildOutcome) (configuration : PeerConfiguration)
    (operation_handle : UInt64) (t : TaskId) (s : RuntimeState) (code : List Instr)
    (s' : RuntimeState) (code' : List Instr) : Prop where
  stage : CallStage outcome configuration operation_handle t s' code'
  size : callSize code' < callSize code
  registers : Registers (FirstAt outcome configuration) configuration operation_handle t s s' code'

/-- What a property of the state and the code of a task asks of the outcome of a step that neither
waits nor forks. -/
def Outcomes (Q : RuntimeState → List Instr → Prop) (code : List Instr) : Outcome → Prop
  | .next s' code' => Q s' (code' ++ code)
  | .throw s' e => Q (machine.unwind e code s').1 (machine.unwind e code s').2
  | .fork _ _ _ _ | .blocked => False

lemma exec_eq_run {x : Choice} (he : x ≠ .expire) (hd : x ≠ .drop) (i : Instr)
    (s : RuntimeState) : exec x t i s = run x t i s := by
  unfold exec
  split
  · exact absurd rfl he
  · exact absurd rfl hd
  · rfl

lemma unwind_dispatched (result : Except String OperationValue) (s : RuntimeState) :
    machine.unwind (.done result) (rest op) s = (s,[.post op result,.finish]) := rfl

lemma firstAt_of_split {tried left : List UInt16} {port : UInt16}
    (hp : ports configuration = tried ++ port :: left) (hf : ∀ q ∈ tried, Retryable outcome q)
    (ho : outcome port = .ok ()) : FirstAt outcome configuration port := ⟨tried,left,hp,hf,ho⟩

section Own
variable {s : RuntimeState}

lemma advance_bindPort {handle : UInt64} {tried left : List UInt16} {last_error : Option String}
    (hp : ports configuration = tried ++ left) (hf : ∀ q ∈ tried, Retryable outcome q)
    (hb : triedBy t s = tried.map (Build.mk t configuration)) (hr : registeredBy t s = []) :
    Outcomes (Advance outcome configuration op t s
        (.bindPort handle configuration left last_error :: rest op)) (rest op)
      (bindPort t handle configuration left last_error s) := by
  cases left with
  | nil =>
    refine ⟨?_,by simp [callSize,unwind_dispatched],
      .unchanged rfl rfl (by simp [unwind_dispatched])⟩
    rw [unwind_dispatched]
    rw [List.append_nil] at hp
    exact .failed (hp.trans (List.append_nil _).symm) hb hr (not_firstAt_end (by rwa [hp]))
      (.inl rfl)
  | cons port left =>
    refine ⟨?_,by simp [callSize]; omega,.unchanged rfl rfl (by simp)⟩
    refine .build hp hf ?_ hr
    simp only [triedBy,RuntimeState.record,List.filter_append] at hb ⊢
    rw [hb]
    simp

lemma advance_buildPeer {handle : UInt64} {tried left : List UInt16} {port : UInt16}
    {certificate : RTCCertificate}
    (hp : ports configuration = tried ++ port :: left) (hf : ∀ q ∈ tried, Retryable outcome q)
    (hb : triedBy t s = (tried ++ [port]).map (Build.mk t configuration))
    (hr : registeredBy t s = []) :
    Outcomes (Advance outcome configuration op t s
        (.buildPeer handle configuration port left certificate :: rest op)) (rest op)
      (buildPeer handle configuration port left certificate (buildChoice outcome port) s) := by
  unfold buildChoice
  cases ho : outcome port with
  | ok u =>
    refine ⟨?_,by simp [callSize],.unchanged rfl rfl (by simp)⟩
    exact .insert hp hf ho hb hr (Nat.lt_succ_self _) (by simp)
  | error message =>
    have hsplit : ports configuration = (tried ++ [port]) ++ left := by simpa using hp
    simp only [buildPeer]
    split_ifs with hstop
    · refine ⟨?_,by simp [callSize,unwind_dispatched],
        .unchanged rfl rfl (by simp [unwind_dispatched])⟩
      rw [unwind_dispatched]
      refine .failed hsplit hb hr (not_firstAt hp hf ?_ (by simp [ho])) (.inl rfl)
      intro hretry
      obtain hzero | hother := hstop
      · subst hzero
        exact left_of_zero hp
      · rw [(retryable_of_error ho).mp hretry] at hother
        cases hother
    · refine ⟨?_,by simp [callSize],.unchanged rfl rfl (by simp)⟩
      refine .search hsplit ?_ hb hr
      intro q hq
      obtain hq | hq := List.mem_append.mp hq
      · exact hf q hq
      · rw [List.mem_singleton.mp hq,retryable_of_error ho]
        simp only [not_or,Bool.not_eq_false] at hstop
        exact hstop.2

lemma advance_insertPeer {handle : UInt64} {tried left : List UInt16} {port : UInt16} {peer : ℕ}
    (hp : ports configuration = tried ++ port :: left) (hf : ∀ q ∈ tried, Retryable outcome q)
    (ho : outcome port = .ok ()) (hb : triedBy t s = (tried ++ [port]).map (Build.mk t configuration))
    (hr : registeredBy t s = [])
    (hbuilt : (s.peer peer).handle = handle ∧ (s.peer peer).port = port) :
    Outcomes (Advance outcome configuration op t s
        (.insertPeer handle peer configuration.sctp.receive_queue_capacity :: rest op)) (rest op)
      (insertPeer t handle peer configuration.sctp.receive_queue_capacity s) := by
  have hregistered : registeredBy t (after (insertPeer t handle peer
      configuration.sctp.receive_queue_capacity s) s) = [⟨t,handle,.peer peer⟩] := by
    simp only [registeredBy,after,insertPeer,RuntimeState.record,RuntimeState.setRegistry,
      List.filter_append] at hr ⊢
    rw [hr]
    simp
  refine ⟨?_,by simp [callSize,unwind_dispatched],
    .entered handle peer rfl ⟨hr,hregistered⟩ ⟨hbuilt.1,?_⟩ rfl⟩
  · rw [unwind_dispatched]
    exact .found hp hf ho hb hregistered (.inl rfl)
  · rw [hbuilt.2]
    exact firstAt_of_split hp hf ho

/-- What is left of a call that has its result. -/
lemma ended_advance {Q : RuntimeState → List Instr → Prop} {result : Except String OperationValue}
    {i : Instr} {code : List Instr} {x : Choice} (h : Ended op result s (i :: code))
    (hQ : ∀ s' code', OtherSteps t s s' → s'.registry = s.registry → Ended op result s' code' →
      code'.length < 2 → callSize code' < callSize (i :: code) → Q s' code') :
    Outcomes Q code (run x t i s) := by
  obtain h | ⟨h | h,hsent⟩ := h
  · cases h
    refine hQ _ _ ⟨rfl,rfl,fun _ hp => ⟨hp,rfl,rfl⟩,le_rfl,fun _ he => List.mem_append_left _ he⟩ rfl
      (.inr ⟨.inl rfl,?_⟩) (by simp) (by simp [callSize])
    simp [RuntimeState.send_event]
  · cases h
    exact hQ _ _ ⟨rfl,rfl,fun _ hp => ⟨hp,rfl,rfl⟩,le_rfl,fun _ he => he⟩ rfl
      (.inr ⟨.inr rfl,hsent⟩) (by simp) (by simp [callSize])
  · cases h

lemma unnamed_of_short {code : List Instr} (h : code.length < 2) (handle : UInt64) :
    code ≠ [.post op (.ok { peer_handle := handle }),.finish] := by
  rintro rfl
  simp at h

/-- A step of the call is always possible and brings it to its next stage. -/
theorem CallStage.advance {i : Instr} {code : List Instr} {x : Choice}
    (h : CallStage outcome configuration op t s (i :: code)) (he : x ≠ .expire) (hd : x ≠ .drop)
    (hx : ∀ handle configuration port left certificate,
      i = .buildPeer handle configuration port left certificate → x = buildChoice outcome port) :
    Outcomes (Advance outcome configuration op t s (i :: code)) code (exec x t i s) := by
  rw [exec_eq_run he hd]
  generalize hcode : i :: code = whole at h
  cases h with
  | start hb hr =>
    cases hcode
    refine ⟨.search (List.nil_append _).symm (by simp) hb hr,?_,.unchanged rfl rfl (by simp)⟩
    simp [callSize]
  | search hp hf hb hr =>
    cases hcode
    exact advance_bindPort hp hf hb hr
  | build hp hf hb hr =>
    cases hcode
    cases hx _ _ _ _ _ rfl
    exact advance_buildPeer hp hf hb hr
  | insert hp hf ho hb hr hl hbuilt =>
    cases hcode
    exact advance_insertPeer hp hf ho hb hr hbuilt
  | found hp hf ho hb hr hc =>
    subst hcode
    refine ended_advance hc fun s' code' hs hreg hc' hshort hsize =>
      ⟨?_,hsize,.unchanged hreg hs.registered (unnamed_of_short hshort)⟩
    exact .found hp hf ho (hs.builds.trans hb) (hs.registered.trans hr) hc'
  | failed hp hb hr hn hc =>
    subst hcode
    refine ended_advance hc fun s' code' hs hreg hc' hshort hsize =>
      ⟨?_,hsize,.unchanged hreg hs.registered (unnamed_of_short hshort)⟩
    exact .failed hp (hs.builds.trans hb) (hs.registered.trans hr) hn hc'

end Own

section Run
variable {c c' : Config}

/-- A step of the call's task. -/
lemma CallStage.own {x : Choice}
    (h : CallStage outcome configuration op t c.shared (c.tasks t))
    (hx : Follows outcome t (.task t x) c) (hs : step (.task t x) c = some c') :
    Advance outcome configuration op t c.shared (c.tasks t) c'.shared (c'.tasks t) := by
  obtain ⟨he,hd,hbuild⟩ := hx x rfl
  have hall : ∀ i code, c.tasks t = i :: code →
      Outcomes (Advance outcome configuration op t c.shared (i :: code)) code
        (machine.exec x t i c.shared) := by
    intro i code head
    rw [head] at h
    refine h.advance he hd ?_
    rintro handle configuration port left certificate rfl
    exact hbuild _ _ _ _ _ _ head
  cases Machine.taskStep_of_stepTask (M := machine) hs with
  | @next i code s code' head hexec =>
    have ho := hall i code head
    rw [hexec] at ho
    rw [head]
    simp only [Function.update_self]
    exact ho
  | @fork i code s code' child childCode head hexec =>
    have ho := hall i code head
    rw [hexec] at ho
    exact ho.elim
  | @throw i code s e head hexec =>
    have ho := hall i code head
    rw [hexec] at ho
    rw [head]
    simp only [Function.update_self]
    exact ho

/-- The call is never stuck. -/
lemma CallStage.possible (h : CallStage outcome configuration op t c.shared (c.tasks t))
    (hne : c.tasks t ≠ []) :
    ∃ x c', Follows outcome t (.task t x) c ∧ step (.task t x) c = some c' := by
  obtain ⟨i,code,head⟩ := List.exists_cons_of_ne_nil hne
  rw [head] at h
  obtain ⟨x,he,hd,hx⟩ : ∃ x : Choice, x ≠ .expire ∧ x ≠ .drop ∧
      ∀ handle configuration port left certificate,
        i = .buildPeer handle configuration port left certificate → x = buildChoice outcome port := by
    by_cases hi : ∃ handle configuration port left certificate,
        i = .buildPeer handle configuration port left certificate
    · obtain ⟨handle,configuration,port,left,certificate,rfl⟩ := hi
      refine ⟨buildChoice outcome port,?_,?_,?_⟩
      · unfold buildChoice
        split <;> simp
      · unfold buildChoice
        split <;> simp
      · rintro _ _ _ _ _ hi
        cases hi
        rfl
    · exact ⟨.ok,by simp,by simp,fun _ _ _ _ _ he => absurd ⟨_,_,_,_,_,he⟩ hi⟩
  have hadvance := h.advance he hd hx
  have hsome : (step (.task t x) c).isSome = true := by
    refine Machine.stepTask_isSome (M := machine) head fun hblocked => ?_
    change exec x t i c.shared = .blocked at hblocked
    rw [hblocked] at hadvance
    exact hadvance
  obtain ⟨c',hc'⟩ := Option.isSome_iff_exists.mp hsome
  refine ⟨x,c',fun y hy => ?_,hc'⟩
  cases hy
  refine ⟨he,hd,fun handle configuration port left certificate code' hbuild => ?_⟩
  rw [head] at hbuild
  exact hx _ _ _ _ _ (List.cons.inj hbuild).1

/-- The stages of the call over a whole run. -/
lemma stage_of_run (ht : t < c.shared.nextTask)
    (h : CallStage outcome configuration op t c.shared (c.tasks t))
    (hrun : Reaches step (Follows outcome t) c c') :
    t < c'.shared.nextTask ∧ CallStage outcome configuration op t c'.shared (c'.tasks t) := by
  refine hrun.invariant (I := fun d => t < d.shared.nextTask ∧
    CallStage outcome configuration op t d.shared (d.tasks t)) ⟨ht,h⟩ ?_
  rintro l d d' ⟨hlt,hstage⟩ hok hs
  refine ⟨lt_of_lt_of_le hlt (nextTask_le hs),?_⟩
  by_cases hl : ∃ x, l = .task t x
  · obtain ⟨x,rfl⟩ := hl
    exact (hstage.own hok hs).stage
  · have hl : ∀ x, l ≠ .task t x := fun x he => hl ⟨x,he⟩
    rw [other_code hlt hl hs]
    exact hstage.mono (other_step hl hs)

/-- What the call has registered stays the only thing it has. -/
lemma registered_of_run (ht : t < c.shared.nextTask)
    (h : CallStage outcome configuration op t c.shared (c.tasks t))
    (hrun : Reaches step (Follows outcome t) c c') {r : Registration}
    (hr : registeredBy t c.shared = [r]) : registeredBy t c'.shared = [r] := by
  refine hrun.induct (I := fun d => registeredBy t d.shared = [r]) hr ?_
  intro l d d' hd hI hok hs
  by_cases hl : ∃ x, l = .task t x
  · obtain ⟨x,rfl⟩ := hl
    obtain ⟨-,hstage⟩ := stage_of_run ht h hd
    cases (hstage.own hok hs).registers with
    | unchanged registry registered unnamed => exact registered.trans hI
    | entered handle p registry registered built named =>
      rw [hI] at registered
      cases registered.1
  · exact (other_step (fun x he => hl ⟨x,he⟩) hs).registered.trans hI

end Run
end Stages

/-- The controller dispatches a command. -/
lemma dispatch_cases {c₀ c : Config} {x : Choice} {command : Command} {commands : List Command}
    (hidle : c₀.tasks 0 = [.receive]) (hcommands : c₀.shared.commands = command :: commands)
    (hne : command.operation ≠ .shutdown) (hstep : step (.task 0 x) c₀ = some c) :
    c₀.shared.nextTask < c.shared.nextTask ∧ c.shared.history = c₀.shared.history ∧
      c.tasks c₀.shared.nextTask =
        .execute command.operation :: rest command.operation_handle := by
  have hexec : machine.exec x 0 .receive c₀.shared = .blocked ∨
      machine.exec x 0 .receive c₀.shared = receive c₀.shared := by
    cases x with
    | expire => exact .inl rfl
    | drop => exact .inl rfl
    | _ => exact .inr rfl
  simp only [step,Machine.stepTask,hidle] at hstep
  obtain hexec | hexec := hexec
  · rw [hexec] at hstep
    cases hstep
  · rw [hexec] at hstep
    simp only [receive,hcommands,if_neg hne] at hstep
    cases hstep
    exact ⟨Nat.lt_succ_self _,rfl,Function.update_self _ _ _⟩

/-- The controller starts the call. -/
lemma stage_of_dispatch {certificate : RTCCertificate} {ok : Label → Config → Prop}
    {c₀ c : Config} {x : Choice} {command : Command} {commands : List Command}
    {configuration : PeerConfiguration} (outcome : BuildOutcome)
    (hreach : Reachable certificate ok c₀) (hidle : c₀.tasks 0 = [.receive])
    (hcommands : c₀.shared.commands = command :: commands)
    (hcall : command.operation = .createPeer configuration)
    (hstep : step (.task 0 x) c₀ = some c) :
    c₀.shared.nextTask < c.shared.nextTask ∧ registeredBy c₀.shared.nextTask c.shared = [] ∧
      CallStage outcome configuration command.operation_handle c₀.shared.nextTask c.shared
        (c.tasks c₀.shared.nextTask) := by
  obtain ⟨hb,hr⟩ := unused_of_reachable hreach c₀.shared.nextTask le_rfl
  obtain ⟨hlt,hhistory,hcode⟩ := dispatch_cases hidle hcommands (by simp [hcall]) hstep
  have hempty : registeredBy c₀.shared.nextTask c.shared = [] := by
    rw [registeredBy,hhistory]
    exact hr
  refine ⟨hlt,hempty,?_⟩
  rw [hcode,hcall]
  refine .start ?_ hempty
  rw [triedBy,hhistory]
  exact hb

/-- The addresses that a build is offered. -/
def Build.addresses (x : Externals) (b : Build) : List String × List String :=
  bind_addresses x b.configuration.transport b.configuration.ice.network_types b.port

/-- A step of the call on the way from one state to another. -/
def OwnStep (outcome : BuildOutcome) (t : TaskId) (c d e e' : Config) : Prop :=
  Reaches step (Follows outcome t) c e ∧ Reaches step (Follows outcome t) e' d ∧
    ∃ x, Follows outcome t (.task t x) e ∧ step (.task t x) e = some e'

/-- No step of the call between two states changes the registry. -/
def Unchanged (outcome : BuildOutcome) (t : TaskId) (c d : Config) : Prop :=
  ∀ e e', OwnStep outcome t c d e e' → e'.shared.registry = e.shared.registry

/-- One step of the call enters the peer with the handle, which has been built for the least port
that can be had, and no other step of the call changes the registry. -/
def EnteredOnce (outcome : BuildOutcome) (configuration : PeerConfiguration) (t : TaskId)
    (c d : Config) (handle : UInt64) : Prop :=
  ∃ e e' p, OwnStep outcome t c d e e' ∧
    e'.shared.registry = { e.shared.registry with
      peers := e.shared.registry.peers.insert handle
        ⟨p,configuration.sctp.receive_queue_capacity⟩ } ∧
    (e.shared.peer p).handle = handle ∧ LeastAt outcome configuration (e.shared.peer p).port ∧
    Unchanged outcome t c e ∧ Unchanged outcome t e' d

/-- What `create_peer` gives, and what it has done to the registry since `c`. -/
def Returns (outcome : BuildOutcome) (configuration : PeerConfiguration) (t : TaskId)
    (c d : Config) (result : Except String OperationValue) : Prop :=
  (∃ handle : UInt64, result = .ok { peer_handle := handle } ∧
    EnteredOnce outcome configuration t c d handle) ∨
  (∃ error, result = .error error) ∧ Unchanged outcome t c d ∧
    ∀ port, ¬ LeastAt outcome configuration port

/-- The port search of a task that has been dispatched in `c`, in a later state. -/
structure PortSearch (outcome : BuildOutcome) (configuration : PeerConfiguration)
    (operation_handle : UInt64) (t : TaskId) (c d : Config) : Prop where
  range : ∀ b ∈ triedBy t d.shared, b.configuration = configuration ∧
    configuration.min_port ≤ b.port ∧ b.port ≤ configuration.max_port
  starts : ∀ b ∈ (triedBy t d.shared).head?, b.port = configuration.min_port
  ascending : ((triedBy t d.shared).map Build.port).Pairwise (· < ·)
  gapless : ∀ b ∈ triedBy t d.shared, ∀ q, configuration.min_port ≤ q → q < b.port →
    q ∈ (triedBy t d.shared).map Build.port
  /-- The call comes closer to its end with every step of its own, -/
  own : ∀ x d', Follows outcome t (.task t x) d → step (.task t x) d = some d' →
    callSize (d'.tasks t) < callSize (d.tasks t)
  /-- which others do not prevent, -/
  others : ∀ l d', (∀ x, l ≠ .task t x) → step l d = some d' → d'.tasks t = d.tasks t
  /-- and it never waits for them. -/
  possible : d.tasks t ≠ [] →
    ∃ x d', Follows outcome t (.task t x) d ∧ step (.task t x) d = some d'
  returns : ∀ result, d.tasks t = [.post operation_handle result,.finish] →
    Returns outcome configuration t c d result
  sent : d.tasks t = [] → ∃ result, NativeEvent.operation operation_handle result ∈
    d.shared.events ∧ Returns outcome configuration t c d result
  addresses : ∀ x, configuration.transport.udp_bind_addresses = [] →
    configuration.transport.tcp_bind_addresses = [] → ∀ b ∈ triedBy t d.shared,
      let udp := (requested (·.isUdp) configuration.ice.network_types).map (wildcard b.port)
      let tcp := (requested (·.isTcp) configuration.ice.network_types).map (wildcard b.port)
      b.addresses x = (udp,tcp) ∧ udp.Nodup ∧ tcp.Nodup

section Search
variable {outcome : BuildOutcome} {configuration : PeerConfiguration} {op : UInt64} {t : ℕ}
variable {c : Config} {s : RuntimeState} {code : List Instr}

/-- The builds are those for the first ports. -/
lemma CallStage.tried (h : CallStage outcome configuration op t s code) :
    ∃ tried left, ports configuration = tried ++ left ∧
      triedBy t s = tried.map (Build.mk t configuration) := by
  cases h with
  | start hb hr => exact ⟨[],_,rfl,hb⟩
  | search hp hf hb hr => exact ⟨_,_,hp,hb⟩
  | build hp hf hb hr => exact ⟨_,_,hp.trans (List.append_cons _ _ _),hb⟩
  | insert hp hf ho hb hr hl hbuilt => exact ⟨_,_,hp.trans (List.append_cons _ _ _),hb⟩
  | found hp hf ho hb hr hc => exact ⟨_,_,hp.trans (List.append_cons _ _ _),hb⟩
  | failed hp hb hr hn hc => exact ⟨_,_,hp,hb⟩

section Entries
variable {d : Config}

/-- A call that has registered nothing has left the registry as it was. -/
lemma unchanged_of_unregistered (ht : t < c.shared.nextTask)
    (h : CallStage outcome configuration op t c.shared (c.tasks t))
    (hr : registeredBy t d.shared = []) : Unchanged outcome t c d := by
  rintro e e' ⟨hce,hed,x,hx,hs⟩
  obtain ⟨hlt,hstage⟩ := stage_of_run ht h hce
  cases (hstage.own hx hs).registers with
  | unchanged registry registered unnamed => exact registry
  | entered handle p registry registered built named =>
    have hlater := registered_of_run (lt_of_lt_of_le hlt (nextTask_le hs)) (hstage.own hx hs).stage
      hed registered.2
    rw [hr] at hlater
    cases hlater

/-- A call that has registered its peer is done with the registry. -/
lemma unchanged_of_registered (ht : t < c.shared.nextTask)
    (h : CallStage outcome configuration op t c.shared (c.tasks t)) {r : Registration}
    (hr : registeredBy t c.shared = [r]) : Unchanged outcome t c d := by
  rintro e e' ⟨hce,hed,x,hx,hs⟩
  obtain ⟨hlt,hstage⟩ := stage_of_run ht h hce
  cases (hstage.own hx hs).registers with
  | unchanged registry registered unnamed => exact registry
  | entered handle p registry registered built named =>
    rw [registered_of_run ht h hce hr] at registered
    cases registered.1

/-- The step in which a call registers the peer it has built. -/
structure Registering (outcome : BuildOutcome) (configuration : PeerConfiguration) (t : TaskId)
    (c d e e' : Config) (handle : UInt64) (p : ℕ) : Prop where
  own : OwnStep outcome t c d e e'
  registry : e'.shared.registry = { e.shared.registry with
    peers := e.shared.registry.peers.insert handle ⟨p,configuration.sctp.receive_queue_capacity⟩ }
  registered : registeredBy t e.shared = [] ∧ registeredBy t e'.shared = [⟨t,handle,.peer p⟩]
  built : (e.shared.peer p).handle = handle ∧ FirstAt outcome configuration (e.shared.peer p).port

lemma Registering.tail {d' e e' : Config} {handle : UInt64} {p : ℕ} {l : Label}
    (h : Registering outcome configuration t c d e e' handle p) (hok : Follows outcome t l d)
    (hs : step l d = some d') : Registering outcome configuration t c d' e e' handle p :=
  ⟨⟨h.own.1,h.own.2.1.tail ⟨l,hok,hs⟩,h.own.2.2⟩,h.registry,h.registered,h.built⟩

lemma registering_of_run (ht : t < c.shared.nextTask)
    (h : CallStage outcome configuration op t c.shared (c.tasks t))
    (hempty : registeredBy t c.shared = []) (hrun : Reaches step (Follows outcome t) c d)
    {handle : UInt64} {p : ℕ} (hr : registeredBy t d.shared = [⟨t,handle,.peer p⟩]) :
    ∃ e e', Registering outcome configuration t c d e e' handle p := by
  revert hr
  refine hrun.induct (I := fun d => registeredBy t d.shared = [⟨t,handle,.peer p⟩] →
    ∃ e e', Registering outcome configuration t c d e e' handle p) ?_ ?_
  · intro hr
    rw [hempty] at hr
    cases hr
  · intro l d d' hd hI hok hs hr
    by_cases hl : ∃ x, l = .task t x
    · obtain ⟨x,rfl⟩ := hl
      obtain ⟨-,hstage⟩ := stage_of_run ht h hd
      cases (hstage.own hok hs).registers with
      | unchanged registry registered unnamed =>
        obtain ⟨e,e',he⟩ := hI (registered.symm.trans hr)
        exact ⟨e,e',he.tail hok hs⟩
      | entered handle' q registry registered built named =>
        cases registered.2.symm.trans hr
        exact ⟨d,d',⟨hd,.refl,x,hok,hs⟩,registry,registered,built⟩
    · have hother := other_step (fun x he => hl ⟨x,he⟩) hs
      obtain ⟨e,e',he⟩ := hI (hother.registered.symm.trans hr)
      exact ⟨e,e',he.tail hok hs⟩

/-- What the call has registered it has entered, once. -/
lemma enteredOnce_of_registered (ha : configuration.PortsAdmitted) (ht : t < c.shared.nextTask)
    (h : CallStage outcome configuration op t c.shared (c.tasks t))
    (hempty : registeredBy t c.shared = []) (hrun : Reaches step (Follows outcome t) c d)
    {handle : UInt64} {p : ℕ} (hr : registeredBy t d.shared = [⟨t,handle,.peer p⟩]) :
    EnteredOnce outcome configuration t c d handle := by
  obtain ⟨e,e',hstep⟩ := registering_of_run ht h hempty hrun hr
  obtain ⟨hce,hed,x,hx,hs⟩ := hstep.own
  obtain ⟨hlt,hstage⟩ := stage_of_run ht h hce
  exact ⟨e,e',p,hstep.own,hstep.registry,hstep.built.1,(firstAt_iff ha).mp hstep.built.2,
    unchanged_of_unregistered ht h hstep.registered.1,
    unchanged_of_registered (lt_of_lt_of_le hlt (nextTask_le hs)) (hstage.own hx hs).stage
      hstep.registered.2⟩

/-- A call that is past `create_peer` has its result. -/
lemma returns_of_ended (ha : configuration.PortsAdmitted) (ht : t < c.shared.nextTask)
    (h : CallStage outcome configuration op t c.shared (c.tasks t))
    (hempty : registeredBy t c.shared = []) (hrun : Reaches step (Follows outcome t) c d)
    (hc : (d.tasks t).length ≤ 2) :
    ∃ result, Ended op result d.shared (d.tasks t) ∧ Returns outcome configuration t c d result := by
  obtain ⟨-,hstage⟩ := stage_of_run ht h hrun
  generalize d.tasks t = code at hc hstage
  cases hstage with
  | start | search | build | insert => simp [rest] at hc
  | found hp hf ho hb hr hend =>
    exact ⟨_,hend,.inl ⟨_,rfl,enteredOnce_of_registered ha ht h hempty hrun hr⟩⟩
  | failed hp hb hr hn hend =>
    exact ⟨_,hend,.inr ⟨⟨_,rfl⟩,unchanged_of_unregistered ht h hr,
      fun port hport => hn port ((firstAt_iff ha).mpr hport)⟩⟩

end Entries

/-- `create_peer` tries the admitted ports in ascending order, registers one peer for the least
port that can be had if all before it are taken, and otherwise fails without registering one. -/
theorem create_peer_searches {certificate : RTCCertificate} {ok : Label → Config → Prop}
    {c₀ d : Config} {x : Choice} {command : Command} {commands : List Command}
    (hreach : Reachable certificate ok c₀) (hidle : c₀.tasks 0 = [.receive])
    (hcommands : c₀.shared.commands = command :: commands)
    (hcall : command.operation = .createPeer configuration)
    (ha : configuration.PortsAdmitted) (hstep : step (.task 0 x) c₀ = some c)
    (hrun : Reaches step (Follows outcome c₀.shared.nextTask) c d) :
    PortSearch outcome configuration command.operation_handle c₀.shared.nextTask c d := by
  obtain ⟨hlt₀,hempty,hstage₀⟩ := stage_of_dispatch outcome hreach hidle hcommands hcall hstep
  obtain ⟨hlt,hstage⟩ := stage_of_run hlt₀ hstage₀ hrun
  obtain ⟨tried,left,hports,htried⟩ := hstage.tried
  have hsorted : (ports configuration).Pairwise (· < ·) := pairwise_ports
  have hmem := mem_ports ha
  rw [hports] at hsorted hmem
  have hmap : (tried.map (Build.mk c₀.shared.nextTask configuration)).map Build.port = tried := by
    simp [Function.comp_def]
  have hin : ∀ port ∈ tried,
      configuration.min_port ≤ port ∧ port ≤ configuration.max_port := fun port hport =>
    (hmem port).mp (List.mem_append_left _ hport)
  constructor
  case range =>
    rw [htried]
    intro b hb
    obtain ⟨port,hport,rfl⟩ := List.mem_map.mp hb
    exact ⟨rfl,hin port hport⟩
  case starts =>
    rw [htried]
    intro b hb
    cases tried with
    | nil => cases hb
    | cons port tried =>
      cases hb
      obtain ⟨hmin,hmax⟩ := hin port (by simp)
      have hfirst := (hmem configuration.min_port).mpr
        ⟨UInt16.le_refl _,UInt16.le_trans hmin hmax⟩
      rw [List.cons_append] at hsorted hfirst
      obtain h | h := List.mem_cons.mp hfirst
      · exact h.symm
      · exact absurd ((List.pairwise_cons.mp hsorted).1 _ h) (UInt16.not_lt.mpr hmin)
  case ascending =>
    rw [htried,hmap]
    exact (List.pairwise_append.mp hsorted).1
  case gapless =>
    rw [htried,hmap]
    intro b hb q hq hlt
    obtain ⟨port,hport,rfl⟩ := List.mem_map.mp hb
    have hle : q ≤ configuration.max_port :=
      UInt16.le_of_lt (UInt16.lt_of_lt_of_le hlt (hin port hport).2)
    obtain h | h := List.mem_append.mp ((hmem q).mpr ⟨hq,hle⟩)
    · exact h
    · exact absurd ((List.pairwise_append.mp hsorted).2.2 port hport q h) (UInt16.lt_asymm hlt)
  case own => exact fun x d' hx hs => (hstage.own hx hs).size
  case others => exact fun l c' hl hs => other_code hlt hl hs
  case possible => exact hstage.possible
  case returns =>
    intro result hcode
    obtain ⟨result',hend,hreturns⟩ := returns_of_ended ha hlt₀ hstage₀ hempty hrun (by simp [hcode])
    rw [hcode] at hend
    obtain h | ⟨h | h,-⟩ := hend
    · cases h
      exact hreturns
    · cases h
    · cases h
  case sent =>
    intro hcode
    obtain ⟨result,hend,hreturns⟩ := returns_of_ended ha hlt₀ hstage₀ hempty hrun (by simp [hcode])
    rw [hcode] at hend
    obtain h | ⟨-,hsent⟩ := hend
    · cases h
    · exact ⟨result,hsent,hreturns⟩
  case addresses =>
    rw [htried]
    intro x hu ht b hb
    obtain ⟨port,-,rfl⟩ := List.mem_map.mp hb
    exact ⟨bind_addresses_wildcards x hu ht _ port,nodup_wildcards port separates_udp,
      nodup_wildcards port separates_tcp⟩

end Search

section SecondPort

/-- A configuration for two ports. -/
def twoPorts : PeerConfiguration where
  ice_servers := []
  min_port := 5000
  max_port := 5001
  relay_only := false
  ice :=
    { disconnected_timeout := none
      failed_timeout := none
      keep_alive_interval := none
      check_interval := none
      max_binding_requests := none
      host_acceptance_min_wait := none
      server_reflexive_acceptance_min_wait := none
      peer_reflexive_acceptance_min_wait := none
      relay_acceptance_min_wait := none
      network_types := [.udp4,.udp4]
      mdns_mode := .disabled
      mdns_query_timeout := none
      lite := false
      nat_mapping := none
      discard_local_candidates_on_restart := false
      candidate_pool_size := 0
      include_loopback_candidate := false
      mdns_local_name := none
      mdns_local_address := none
      credentials := none }
  sctp :=
    { send_buffer_limit := 65536
      receive_buffer_size := 65536
      maximum_message_size := 65536
      receive_queue_capacity := 1 }
  dtls :=
    { answering_role := none
      media_level_fingerprints := false
      replay_protection_window := 64
      cipher_suites := [] }
  transport :=
    { udp_bind_addresses := []
      tcp_bind_addresses := []
      receive_mtu := 1460 }

/-- The first of the two ports is taken. -/
def firstTaken : BuildOutcome := fun port =>
  if port = 5000 then .error retryableText else .ok ()

def twoPortsCommand : Command where
  operation_handle := 7
  timeout := ⟨1000⟩
  operation := .createPeer twoPorts

/-- The labels that `Follows` admits. -/
def follows (outcome : BuildOutcome) (t : TaskId) (l : Label) (c : Config) : Bool :=
  match l with
  | .task u x =>
    u ≠ t || match x,c.tasks t with
      | .expire,_ | .drop,_ => false
      | .ok,.buildPeer _ _ port _ _ :: _ => outcome port = .ok ()
      | .fail message,.buildPeer _ _ port _ _ :: _ => outcome port = .error message
      | _,.buildPeer _ _ _ _ _ :: _ => false
      | _,_ => true
  | _ => true

lemma follows_sound {outcome : BuildOutcome} {t : TaskId} (l : Label) (c : Config)
    (h : follows outcome t l c = true) : Follows outcome t l c := by
  rintro x rfl
  simp only [follows,ne_eq,not_true_eq_false,decide_false,Bool.false_or] at h
  refine ⟨?_,?_,?_⟩
  · rintro rfl
    cases h
  · rintro rfl
    cases h
  · intro handle configuration port left certificate code head
    rw [head] at h
    unfold buildChoice
    cases x with
    | ok =>
      rw [of_decide_eq_true h]
    | fail message =>
      rw [of_decide_eq_true h]
    | _ => cases h

/-- A taken port, a build for the next one, and its registration. -/
def secondPortRun : List Label :=
  [.task 1 .ok,.task 1 .ok,.task 1 (.fail retryableText),.task 1 .ok,.task 1 .ok,.task 1 .ok]

/-- The state in which the command waits for the controller. -/
def twoPortsWaiting : Config where
  shared := (init ⟨"",[]⟩).shared.submit twoPortsCommand
  tasks := (init ⟨"",[]⟩).tasks

theorem create_peer_searches_second : ∃ c d, step (.task 0 .ok) twoPortsWaiting = some c ∧
    Reaches step (Follows firstTaken 1) c d ∧ PortSearch firstTaken twoPorts 7 1 c d ∧
    registeredBy 1 d.shared = [⟨1,1,.peer 0⟩] := by
  have hreach : Reachable ⟨"",[]⟩ (fun _ _ => True) twoPortsWaiting :=
    .single ⟨.submit twoPortsCommand,trivial,rfl⟩
  have hrun : ((step (.task 0 .ok) twoPortsWaiting).bind fun c =>
      (Interleaving.run (fun l d => if follows firstTaken 1 l d then step l d else none)
        secondPortRun c).map fun d => (c,d,registeredBy 1 d.shared)).map (·.2.2) =
      some [⟨1,1,.peer 0⟩] := by rfl
  obtain ⟨⟨c,d,_⟩,hboth,hregistered⟩ := Option.map_eq_some_iff.mp hrun
  obtain ⟨_,hstep,hafter⟩ := Option.bind_eq_some_iff.mp hboth
  obtain ⟨_,hd,heq⟩ := Option.map_eq_some_iff.mp hafter
  cases heq
  have hfollows : Reaches step (Follows firstTaken 1) c d := reaches_of_checked follows_sound hd
  have hports : twoPorts.PortsAdmitted := .inr ⟨by decide,by decide⟩
  exact ⟨c,d,hstep,hfollows,
    create_peer_searches hreach rfl rfl rfl hports hstep hfollows,hregistered⟩

end SecondPort
end Kestara.Native
