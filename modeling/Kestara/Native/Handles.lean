import Kestara.Native.PortSearch

/-!
# Handles of the native registry

Peers and DataChannels draw their handles from one counter. Until the counter wraps, every handle
is given to one object only, and a handle that has been removed is never found again.
-/
namespace Kestara.Native
open Interleaving

/-- The handles that `next_handle` gives out, up to the given number of calls. -/
def firstHandles (n : ℕ) : List UInt64 := (List.range n).map fun i => UInt64.ofNat (i+1)

lemma nodup_firstHandles {n : ℕ} (h : n < 2^64) : (firstHandles n).Nodup := by
  refine List.Nodup.map_on ?_ List.nodup_range
  intro a ha b hb he
  rw [List.mem_range] at ha hb
  have hsize : UInt64.size = 2^64 := rfl
  have hnat := congrArg UInt64.toNat he
  rw [UInt64.toNat_ofNat_of_lt' (by omega),UInt64.toNat_ofNat_of_lt' (by omega)] at hnat
  omega

lemma firstHandles_succ (n : ℕ) : firstHandles (n+1) = firstHandles n ++ [UInt64.ofNat (n+1)] := by
  simp [firstHandles,List.range_succ]

/-- What `next_handle` has given out. -/
structure Counted (s : RuntimeState) : Prop where
  allocated : s.history.allocated = firstHandles s.history.allocated.length
  next : s.next_handle = UInt64.ofNat (s.history.allocated.length+1)

lemma Counted.allocate {s : RuntimeState} (h : Counted s) : Counted s.allocate.2 := by
  have hlength : s.allocate.2.history.allocated.length = s.history.allocated.length+1 := by
    simp [RuntimeState.allocate,RuntimeState.record]
  refine ⟨?_,?_⟩
  · rw [hlength,firstHandles_succ,← h.allocated,← h.next]
    rfl
  · rw [hlength]
    change s.next_handle+1 = _
    rw [h.next,← UInt64.ofNat_one,← UInt64.ofNat_add]

/-- The handle that an instruction is going to put into the registry. -/
def Instr.holds (h : UInt64) : Instr → ℕ
  | .bindPort handle _ _ _ | .buildPeer handle _ _ _ _ | .insertPeer handle _ _
  | .readAttributes handle _ _ _ | .insertChannel handle _ _ _ _ => if handle = h then 1 else 0
  | _ => 0

def registrations (h : UInt64) (s : RuntimeState) : ℕ :=
  (s.history.registered.map Registration.handle).count h

def allocations (h : UInt64) (s : RuntimeState) : ℕ := s.history.allocated.count h

section Steps
variable {x : Choice} {t : ℕ} {c c' : Config} {s : RuntimeState} {i : Instr} {o : Outcome}

lemma counted_of_does (h : Does t s i o) (hs : Counted s) : Counted (after o s) := by
  cases h
  case createPeer => exact hs.allocate
  case registerChannel => exact hs.allocate
  all_goals exact ⟨hs.allocated,hs.next⟩

/-- Only `next_handle` gives a task a handle, and only an insertion uses it up. -/
lemma covers_of_does (h : UInt64) (hd : Does t s i o) :
    Machine.Covers (Instr.holds h) (registrations h) (allocations h) s i o := by
  cases hd
  case createPeer =>
    simp [Machine.Covers,Instr.holds,registrations,allocations,RuntimeState.allocate,
      RuntimeState.record,List.count_singleton]
    omega
  case registerChannel =>
    simp [Machine.Covers,Instr.holds,registrations,allocations,RuntimeState.allocate,
      RuntimeState.record,List.count_singleton]
    omega
  case insertPeer =>
    simp [Machine.Covers,Instr.holds,registrations,allocations,RuntimeState.setRegistry,
      RuntimeState.record,List.count_singleton]
    omega
  case insertChannel handle peer_handle channel emit attributes =>
    cases emit <;>
      simp [Machine.Covers,Instr.holds,registrations,allocations,RuntimeState.setRegistry,
        RuntimeState.record,List.count_singleton,insertChannel] <;> omega
  case shutdown =>
    simp [Machine.Covers,Instr.holds,registrations,allocations,
      Machine.weight_map_eq_zero (w := Instr.holds h) (f := Instr.join) fun _ => rfl]
  case spawned =>
    simp [Machine.Covers,Instr.holds,registrations,allocations,
      Machine.weight_map_eq_zero (w := Instr.holds h) (f := Instr.joinClose) fun _ => rfl]
  case lock peer body hl =>
    cases body <;> simp [Machine.Covers,Locked.first,Instr.holds,registrations,allocations]
  all_goals
    simp [Machine.Covers,Instr.holds,registrations,allocations,RuntimeState.setRegistry,
      RuntimeState.record,RuntimeState.setChannel,RuntimeState.send_event,RuntimeState.notePoll,
      unlock]

lemma registrations_kept (h : UInt64) (j : Instr) (s : RuntimeState) :
    registrations h (machine.release j s) = registrations h s ∧
      allocations h (machine.release j s) = allocations h s := by
  cases j <;> exact ⟨rfl,rfl⟩

lemma handler_holds (h : UInt64) (e : Exit) (j : Instr) (code : List Instr)
    (hc : machine.handler e j = some code) :
    weight (Instr.holds h) code ≤ j.holds h := by
  have hzero : weight (Instr.holds h) code = 0 := by
    simp only [machine,handler] at hc
    split at hc <;> cases hc <;> rfl
  omega

end Steps

/-- What has been entered under a handle is still there under it, if anything is. -/
structure Entered (s : RuntimeState) : Prop where
  peers : ∀ h e, s.registry.peers.lookup h = some e →
    ∃ t, ⟨t,h,.peer e.peer⟩ ∈ s.history.registered
  channels : ∀ h e, s.registry.channels.lookup h = some e →
    ∃ t, ⟨t,h,.channel e.channel e.peer_handle⟩ ∈ s.history.registered

lemma Entered.step {t : TaskId} {i : Instr} {s s' : RuntimeState} (h : Entered s)
    (hs : RegistryStep t i s s') : Entered s' := by
  have hsubset := hs.registered_grows.subset
  refine ⟨fun k e hk => ?_,fun k e hk => ?_⟩
  · obtain hk | ⟨-,hk⟩ := hs.peer_source hk
    · obtain ⟨u,hu⟩ := h.peers k e hk
      exact ⟨u,hsubset hu⟩
    · exact ⟨t,hk⟩
  · obtain hk | ⟨-,hk⟩ := hs.channel_source hk
    · obtain ⟨u,hu⟩ := h.channels k e hk
      exact ⟨u,hsubset hu⟩
    · exact ⟨t,hk⟩

/-- The invariant behind the handles: a handle is on its way to the registry in one task only, and
not once it has been there. -/
structure HandleInv (c : Config) : Prop where
  spawned : Spawned c
  counted : Counted c.shared
  within : ∀ h, Within (Instr.holds h) c.tasks (registrations h c.shared) (allocations h c.shared)
  entered : Entered c.shared

section Invariant
variable {c c' : Config}

lemma HandleInv.task {x : Choice} {t : ℕ} (h : HandleInv c)
    (hs : Machine.TaskStep machine x t c c') : HandleInv c' := by
  obtain ⟨i,rest,o,locked,aborted,head,hdoes,hshared⟩ := shared_of_taskStep hs
  obtain ⟨j,-,hregistry⟩ := registryStep_of_taskStep hs
  refine ⟨h.spawned.task hs,?_,fun k => ?_,h.entered.step hregistry⟩
  · rw [hshared]
    have hcounted := counted_of_does hdoes h.counted
    exact ⟨hcounted.allocated,hcounted.next⟩
  · refine hs.within (handler_holds k) (registrations_kept k) ?_ ?_ (h.within k)
    · exact fun i s code child childCode he => h.spawned.forks he
    · intro i rest head
      obtain hblocked | hdoes := does_exec (x := x) (t := t) (i := i) (s := c.shared)
      · change Machine.Covers _ _ _ _ _ (exec x t i c.shared)
        rw [hblocked]
        trivial
      · exact covers_of_does k hdoes

theorem handleInv_step {l : Label} (h : HandleInv c) (hs : step l c = some c') :
    HandleInv c' := by
  have hspawned := spawned_step h.spawned hs
  cases step_cases hs with
  | task ht => exact h.task ht
  | announce peer channel hp =>
    refine ⟨hspawned,⟨h.counted.allocated,h.counted.next⟩,fun k => ?_,
      ⟨h.entered.peers,h.entered.channels⟩⟩
    apply (h.within k).update
    rw [h.spawned.idle _ le_rfl]
    simp [Instr.holds,registrations,allocations]
  | submit | completeError | callback =>
    exact ⟨hspawned,⟨h.counted.allocated,h.counted.next⟩,h.within,⟨h.entered.peers,
      h.entered.channels⟩⟩

theorem handleInv_of_reachable {certificate : RTCCertificate} {ok : Label → Config → Prop}
    (h : Reachable certificate ok c) : HandleInv c := by
  refine h.invariant ?_ fun _ _ _ hI _ hs => handleInv_step hI hs
  refine ⟨spawned_init certificate,⟨rfl,rfl⟩,fun k => ?_,⟨?_,?_⟩⟩
  · refine .of_idle (fun t => ?_) le_rfl
    simp only [init]
    split_ifs <;> rfl
  · intro k e hk
    cases hk
  · intro k e hk
    cases hk

lemma allocated_grows {l : Label} (hs : step l c = some c') :
    c.shared.history.allocated <+: c'.shared.history.allocated := by
  cases step_cases hs with
  | task ht =>
    obtain ⟨i,rest,o,locked,aborted,-,hdoes,hshared⟩ := shared_of_taskStep ht
    rw [hshared]
    cases hdoes
    case createPeer => exact List.prefix_append _ _
    case registerChannel => exact List.prefix_append _ _
    all_goals exact List.prefix_refl _
  | submit | completeError | announce | callback => exact List.prefix_refl _

lemma registered_grows {l : Label} (hs : step l c = some c') :
    c.shared.history.registered <+: c'.shared.history.registered := by
  cases step_cases hs with
  | task ht =>
    obtain ⟨i,-,hregistry⟩ := registryStep_of_taskStep ht
    exact hregistry.registered_grows
  | submit | completeError | announce | callback => exact List.prefix_refl _

/-- The counter of the handles has not wrapped. -/
def Unwrapped (s : RuntimeState) : Prop := s.history.allocated.length < 2^64

def Registered (k : UInt64) (s : RuntimeState) : Prop :=
  k ∈ s.history.registered.map Registration.handle

lemma HandleInv.allocations_le (h : HandleInv c) (hn : Unwrapped c.shared) (k : UInt64) :
    allocations k c.shared ≤ 1 := by
  unfold allocations
  rw [h.counted.allocated]
  exact List.nodup_iff_count_le_one.mp (nodup_firstHandles hn) k

lemma HandleInv.nodup (h : HandleInv c) (hn : Unwrapped c.shared) :
    (c.shared.history.registered.map Registration.handle).Nodup := by
  rw [List.nodup_iff_count_le_one]
  exact fun k => ((h.within k).spent_le).trans (h.allocations_le hn k)

/-- A handle that a task still holds has not been in the registry. -/
lemma HandleInv.fresh (h : HandleInv c) (hn : Unwrapped c.shared) {t : ℕ} {i : Instr}
    {k : UInt64} (hi : i ∈ c.tasks t) (hk : i.holds k = 1) : ¬ Registered k c.shared := by
  intro hreg
  have hcount : 0 < registrations k c.shared := List.count_pos_iff.mpr hreg
  have hmem := (h.within k).mem hi
  have hle := h.allocations_le hn k
  omega

/-- A known handle is not found in the later state unless it is found in the earlier one. -/
structure StaysRemoved (s s' : RuntimeState) : Prop where
  peers : ∀ k, Registered k s → s.registry.peers.lookup k = none →
    s'.registry.peers.lookup k = none
  channels : ∀ k, Registered k s → s.registry.channels.lookup k = none →
    s'.registry.channels.lookup k = none

lemma HandleInv.staysRemoved {l : Label} (h : HandleInv c) (hn : Unwrapped c.shared)
    (hs : step l c = some c') : StaysRemoved c.shared c'.shared := by
  cases step_cases hs with
  | submit | completeError | announce | callback => exact ⟨fun _ _ hk => hk,fun _ _ hk => hk⟩
  | @task t x _ ht =>
    obtain ⟨i,hi,hregistry⟩ := registryStep_of_taskStep ht
    refine ⟨fun k hreg hk => ?_,fun k hreg hk => ?_⟩
    · rw [Option.eq_none_iff_forall_ne_some]
      intro e he
      obtain hold | ⟨rfl,-⟩ := hregistry.peer_source he
      · rw [hk] at hold
        cases hold
      · exact h.fresh hn hi (by simp [Instr.holds]) hreg
    · rw [Option.eq_none_iff_forall_ne_some]
      intro e he
      obtain hold | ⟨⟨emit,attributes,rfl⟩,-⟩ := hregistry.channel_source he
      · rw [hk] at hold
        cases hold
      · exact h.fresh hn hi (by simp [Instr.holds]) hreg

lemma StaysRemoved.trans {s₁ s₂ s₃ : RuntimeState} (h₁ : StaysRemoved s₁ s₂)
    (h₂ : StaysRemoved s₂ s₃) (hr : ∀ k, Registered k s₁ → Registered k s₂) :
    StaysRemoved s₁ s₃ :=
  ⟨fun k hk hn => h₂.peers k (hr k hk) (h₁.peers k hk hn),
    fun k hk hn => h₂.channels k (hr k hk) (h₁.channels k hk hn)⟩

/-- Over a run on which the counter does not wrap. -/
lemma staysRemoved_of_reaches {ok : Label → Config → Prop} (h : HandleInv c)
    (hr : Reaches step ok c c') (hn : Unwrapped c'.shared) :
    HandleInv c' ∧ (∀ k, Registered k c.shared → Registered k c'.shared) ∧
      StaysRemoved c.shared c'.shared := by
  induction hr with
  | refl => exact ⟨h,fun _ hk => hk,⟨fun _ _ hk => hk,fun _ _ hk => hk⟩⟩
  | @tail d d' hd hst ih =>
    obtain ⟨l,-,hs⟩ := hst
    have hunwrapped : Unwrapped d.shared :=
      lt_of_le_of_lt (allocated_grows hs).length_le hn
    obtain ⟨hinv,hreg,hremoved⟩ := ih hunwrapped
    have hkept : ∀ k, Registered k d.shared → Registered k d'.shared := fun k hk =>
      ((registered_grows hs).map Registration.handle).subset hk
    exact ⟨handleInv_step hinv hs,fun k hk => hkept k (hreg k hk),
      hremoved.trans (hinv.staysRemoved hunwrapped hs) hreg⟩

end Invariant

/-- What may run under the lock in the task of a command. -/
def Locked.Serves (operation : Operation) : Locked → Prop
  | .createChannel peer_handle configuration =>
    operation = .createDataChannel peer_handle configuration
  | _ => True

/-- What the task of a command may have to run, as far as it concerns the registry. -/
def Instr.Serves (operation : Operation) : Instr → Prop
  | .execute operation' => operation' = operation
  | .bindPort _ configuration _ _ | .buildPeer _ configuration _ _ _ =>
    operation = .createPeer configuration
  | .insertPeer _ _ _ => ∃ configuration, operation = .createPeer configuration
  | .getPeer _ body | .lock _ body => body.Serves operation
  | .createChannel peer_handle configuration =>
    operation = .createDataChannel peer_handle configuration
  | .registerChannel peer_handle _ _ | .readAttributes _ peer_handle _ _
  | .insertChannel _ peer_handle _ _ _ =>
    ∃ configuration, operation = .createDataChannel peer_handle configuration
  | .accept _ _ | .poll _ _ | .deliver _ _ _ _ | .removePolled _ | .receive | .clearRegistry
  | .spawnCloses _ _ => False
  | _ => True

section Serves
variable {operation : Operation} {t : TaskId} {s : RuntimeState} {i : Instr} {o : Outcome}

lemma serves_first {peer : PeerRef} {body : Locked} (h : body.Serves operation) :
    (body.first peer).Serves operation := by
  cases body <;> exact h

lemma serves_found {peer_handle : UInt64} {body : Locked} (hi : i.finds = some (peer_handle,body))
    (h : i.Serves operation) : body.Serves operation := by
  cases i with
  | getPeer peer_handle' body' =>
    cases hi
    exact h
  | execute operation' =>
    cases operation' <;> cases hi <;> first | trivial | exact Eq.symm h
  | _ => cases hi

lemma serves_of_does (h : Does t s i o) (hi : i.Serves operation) :
    ∀ j ∈ codeOf o, j.Serves operation := by
  cases h with
  | findPeer hfind he =>
    intro j hj
    rw [List.mem_singleton.mp hj]
    exact serves_found hfind hi
  | lock peer body hl =>
    have hfirst : (body.first peer).Serves operation := serves_first hi
    intro j hj
    obtain rfl | hj := List.mem_cons.mp hj
    · exact hfirst
    · rw [List.mem_singleton.mp hj]
      trivial
  | insertChannel handle peer_handle channel emit attributes =>
    intro j hj
    obtain hj | hj := List.mem_append.mp hj
    · split_ifs at hj
      · rw [List.mem_singleton.mp hj]
        trivial
      · cases hj
    · rw [List.mem_singleton.mp hj]
      trivial
  | createPeer configuration =>
    intro j hj
    rw [List.mem_singleton.mp hj]
    exact Eq.symm hi
  | shutdown => cases hi
  | _ => simp_all [codeOf,Instr.Serves,Locked.Serves]

/-- An instruction of the task of a command serves that command. -/
def Assigned (s : RuntimeState) (t : TaskId) (j : Instr) : Prop :=
  ∀ command, s.command t = some command → j.Serves command.operation

lemma handler_serves {e : Exit} {k : Instr} {code : List Instr}
    (hc : machine.handler e k = some code) : ∀ j ∈ code, j.Serves operation := by
  simp only [machine,handler] at hc
  split at hc <;> cases hc <;> simp [Instr.Serves]

lemma commandRule_serves :
    CommandRule fun cmd j => ∀ command, cmd = some command → j.Serves command.operation where
  code hdoes hi j hj command hcmd := serves_of_does hdoes (hi command hcmd) j hj
  handler hc j hj command _ := handler_serves hc j hj
  dispatched command j hj command' hcmd := by
    cases hcmd
    simp only [List.mem_cons,List.not_mem_nil,or_false] at hj
    obtain rfl | rfl | rfl := hj
    · exact rfl
    · trivial
    · trivial
  spawned _ _ _ _ j _ command hcmd := by cases hcmd

theorem assigned_of_reachable {certificate : RTCCertificate} {ok : Label → Config → Prop}
    {c : Config} (h : Reachable certificate ok c) :
    ∀ u, ∀ j ∈ c.tasks u, Assigned c.shared u j :=
  commandRule_serves.of_reachable h

end Serves

/-- The peer that a command is for. -/
def Operation.peerTarget : Operation → Option UInt64
  | .createDescription peer_handle _ | .setLocalDescription peer_handle _
  | .setRemoteDescription peer_handle _ | .addIceCandidate peer_handle _ | .restartIce peer_handle
  | .setConfiguration peer_handle _ _ | .createDataChannel peer_handle _ | .getStats peer_handle
  | .closePeer peer_handle => some peer_handle
  | _ => none

/-- The channel that a command is for. -/
def Operation.channelTarget : Operation → Option UInt64
  | .sendText channel_handle _ | .sendBinary channel_handle _ | .trySendText channel_handle _
  | .trySendBinary channel_handle _ | .dataChannelWritable channel_handle
  | .dataChannelOutstandingBytes channel_handle | .setDataChannelThresholds channel_handle _ _
  | .closeDataChannel channel_handle => some channel_handle
  | _ => none

/-- A command leaves the entries of other peers as they are. -/
structure Confined (operation : Operation) (s s' : RuntimeState) : Prop where
  peers : ∀ k, operation.peerTarget ≠ some k →
    s'.registry.peers.lookup k = s.registry.peers.lookup k
  channels : ∀ k e, operation.channelTarget ≠ some k →
    operation.peerTarget ≠ some e.peer_handle →
    (s'.registry.channels.lookup k = some e ↔ s.registry.channels.lookup k = some e)

lemma confined_of_registryStep {t : TaskId} {i : Instr} {s s' : RuntimeState}
    {operation : Operation} (h : RegistryStep t i s s') (hi : i.Serves operation)
    (hfresh : ∀ k, i.holds k = 1 → s.registry.channels.lookup k = none)
    (ha : operation.peerTarget ≠ none ∨ operation.channelTarget ≠ none) :
    Confined operation s s' := by
  cases h with
  | keep hr hh => exact ⟨fun _ _ => by rw [hr],fun _ _ _ _ => by rw [hr]⟩
  | insertPeer handle peer capacity he hr hh =>
    subst he
    obtain ⟨configuration,rfl⟩ := hi
    simp [Operation.peerTarget,Operation.channelTarget] at ha
  | insertChannel handle peer_handle channel emit attributes he hr hh =>
    subst he
    obtain ⟨configuration,rfl⟩ := hi
    refine ⟨fun _ _ => by rw [hr],fun k e _ hk => ?_⟩
    rw [hr,LinkedMap.lookup_insert]
    split_ifs with heq
    · subst heq
      rw [hfresh k (by simp [Instr.holds])]
      constructor
      · rintro hnew
        cases hnew
        exact absurd rfl hk
      · intro hnone
        cases hnone
    · exact Iff.rfl
  | removeChannel channel_handle he hr hh =>
    obtain rfl | rfl := he
    · cases hi
      refine ⟨fun _ _ => by rw [hr],fun k e hk _ => ?_⟩
      have hne : k ≠ channel_handle := fun heq => hk (heq ▸ rfl)
      rw [hr,LinkedMap.lookup_erase,if_neg hne]
    · cases hi
  | removePeer peer_handle he hr hh =>
    subst he
    cases hi
    refine ⟨fun k hk => ?_,fun k e _ hk => ?_⟩
    · have hne : k ≠ peer_handle := fun heq => hk (heq ▸ rfl)
      rw [hr,Registry.removePeer,LinkedMap.lookup_erase,if_neg hne]
    · have hne : e.peer_handle ≠ peer_handle := fun heq => hk (heq ▸ rfl)
      rw [hr,Registry.removePeer,LinkedMap.lookup_retain]
      simp [hne]
  | clear he hr hh =>
    subst he
    cases hi

/-- No handle is that of two objects, and each is found as what it was given to. -/
structure Unaliased (s : RuntimeState) : Prop where
  allocated : s.history.allocated.Nodup
  registered : (s.history.registered.map Registration.handle).Nodup
  peers : ∀ k e, s.get_peer k = .ok e → ∃ t, ⟨t,k,.peer e.peer⟩ ∈ s.history.registered
  channels : ∀ k e, s.get_channel k = .ok e →
    ∃ t, ⟨t,k,.channel e.channel e.peer_handle⟩ ∈ s.history.registered
  apart : ∀ k e e', s.get_peer k = .ok e → s.get_channel k ≠ .ok e'

/-- A handle that was given to an object and is not found is not found later either. -/
structure NeverFound (s s' : RuntimeState) : Prop where
  peers : ∀ r ∈ s.history.registered, (∀ e, s.get_peer r.handle ≠ .ok e) →
    ∀ e, s'.get_peer r.handle ≠ .ok e
  channels : ∀ r ∈ s.history.registered, (∀ e, s.get_channel r.handle ≠ .ok e) →
    ∀ e, s'.get_channel r.handle ≠ .ok e

lemma get_peer_iff {s : RuntimeState} {k : UInt64} {e : PeerEntry} :
    s.get_peer k = .ok e ↔ s.registry.peers.lookup k = some e := by
  refine ⟨get_peer_ok,fun h => ?_⟩
  unfold RuntimeState.get_peer
  rw [h]

lemma get_channel_iff {s : RuntimeState} {k : UInt64} {e : ChannelEntry} :
    s.get_channel k = .ok e ↔ s.registry.channels.lookup k = some e := by
  refine ⟨get_channel_ok,fun h => ?_⟩
  unfold RuntimeState.get_channel
  rw [h]

lemma StaysRemoved.neverFound {s s' : RuntimeState} (h : StaysRemoved s s') : NeverFound s s' := by
  refine ⟨fun r hr hnone e he => ?_,fun r hr hnone e he => ?_⟩
  · have hlookup : s.registry.peers.lookup r.handle = none := by
      rw [Option.eq_none_iff_forall_ne_some]
      exact fun e' he' => hnone e' (get_peer_iff.mpr he')
    have hlater := h.peers r.handle (List.mem_map_of_mem hr) hlookup
    rw [get_peer_iff.mp he] at hlater
    cases hlater
  · have hlookup : s.registry.channels.lookup r.handle = none := by
      rw [Option.eq_none_iff_forall_ne_some]
      exact fun e' he' => hnone e' (get_channel_iff.mpr he')
    have hlater := h.channels r.handle (List.mem_map_of_mem hr) hlookup
    rw [get_channel_iff.mp he] at hlater
    cases hlater

section Main
variable {certificate : RTCCertificate} {ok : Label → Config → Prop} {c d : Config}

lemma HandleInv.unaliased (h : HandleInv c) (hn : Unwrapped c.shared) : Unaliased c.shared := by
  have hnodup := h.nodup hn
  constructor
  case allocated =>
    rw [h.counted.allocated]
    exact nodup_firstHandles hn
  case registered => exact hnodup
  case peers => exact fun k e he => h.entered.peers k e (get_peer_iff.mp he)
  case channels => exact fun k e he => h.entered.channels k e (get_channel_iff.mp he)
  case apart =>
    intro k e e' hp hq
    obtain ⟨t,ht⟩ := h.entered.peers k e (get_peer_iff.mp hp)
    obtain ⟨u,hu⟩ := h.entered.channels k e' (get_channel_iff.mp hq)
    have heq := List.inj_on_of_nodup_map hnodup ht hu rfl
    cases heq

/-- Until the counter wraps, handles are not reused and do not alias, and the commands for one
peer and its channels leave the entries of the others alone. -/
theorem handles_unaliased (hc : Reachable certificate ok c) (hd : Reaches step ok c d)
    (hn : Unwrapped d.shared) :
    Unaliased d.shared ∧ NeverFound c.shared d.shared ∧
      ∀ t x d', step (.task t x) d = some d' → ∀ command, d.shared.command t = some command →
        (command.operation.peerTarget ≠ none ∨ command.operation.channelTarget ≠ none) →
        Confined command.operation d.shared d'.shared := by
  obtain ⟨hinv,-,hremoved⟩ := staysRemoved_of_reaches (handleInv_of_reachable hc) hd hn
  refine ⟨hinv.unaliased hn,hremoved.neverFound,fun t x d' hs command hcommand ha => ?_⟩
  obtain ⟨i,hi,hregistry⟩ := registryStep_of_taskStep (Machine.taskStep_of_stepTask hs)
  have hserves := assigned_of_reachable (hc.trans hd) t i hi command hcommand
  refine confined_of_registryStep hregistry hserves (fun k hk => ?_) ha
  rw [Option.eq_none_iff_forall_ne_some]
  intro e he
  obtain ⟨u,hu⟩ := hinv.entered.channels k e he
  exact hinv.fresh hn hi hk (List.mem_map_of_mem hu)

end Main

/-- Two peers and a channel of the second one; the first peer is closed. -/
def removedRun : List Label :=
  [.submit twoPortsCommand,.task 0 .ok] ++ secondPortRun ++
    [.submit { twoPortsCommand with operation_handle := 8 },.task 0 .ok] ++
    List.replicate 4 (.task 2 .ok) ++
    [.submit { operation_handle := 9, timeout := ⟨1000⟩
               operation := .createDataChannel 2 ⟨"",true,none,none,"",none⟩ },.task 0 .ok,
      .task 3 .ok,.task 3 .ok,.task 3 (.channel ⟨1,0,0,false⟩),.task 3 .ok,
      .task 3 (.attributes ⟨"","",true,1,false,none,none,false⟩),.task 3 .ok,
      .submit { operation_handle := 10, timeout := ⟨1000⟩, operation := .closePeer 1 },.task 0 .ok,
      .task 4 .ok]

/-- A third peer is created, and a command comes to close it. -/
def createdAgainRun : List Label :=
  [.submit { twoPortsCommand with operation_handle := 11 },.task 0 .ok] ++
    List.replicate 4 (.task 5 .ok) ++
    [.submit { operation_handle := 12, timeout := ⟨1000⟩, operation := .closePeer 4 },.task 0 .ok]

def registryKeys (c : Config) : List UInt64 × List UInt64 :=
  (c.shared.registry.peers.keys,c.shared.registry.channels.keys)

theorem handles_unaliased_closed : ∃ c d d',
    Reachable ⟨"",[]⟩ (fun _ _ => True) c ∧ Reaches step (fun _ _ => True) c d ∧
      step (.task 6 .ok) d = some d' ∧ registryKeys c = ([2],[3]) ∧ registryKeys d = ([2,4],[3]) ∧
      registryKeys d' = ([2],[3]) ∧ Unaliased d.shared ∧ NeverFound c.shared d.shared ∧
      Confined (.closePeer 4) d.shared d'.shared := by
  have hrun : ((Interleaving.run step removedRun (init ⟨"",[]⟩)).bind fun c =>
      (Interleaving.run step createdAgainRun c).bind fun d => (step (.task 6 .ok) d).map fun d' =>
        (c,d,d',registryKeys c,registryKeys d,registryKeys d',d.shared.history.allocated.length,
          (d.shared.command 6).map Command.operation)).map (·.2.2.2) =
      some (([2],[3]),([2,4],[3]),([2],[3]),4,some (.closePeer 4)) := by rfl
  obtain ⟨⟨c,d,d',_⟩,hall,hobserved⟩ := Option.map_eq_some_iff.mp hrun
  obtain ⟨_,hc,hall⟩ := Option.bind_eq_some_iff.mp hall
  obtain ⟨_,hd,hall⟩ := Option.bind_eq_some_iff.mp hall
  obtain ⟨_,hs,heq⟩ := Option.map_eq_some_iff.mp hall
  cases heq
  obtain ⟨hc₁,hobserved⟩ := Prod.mk.inj hobserved
  obtain ⟨hd₁,hobserved⟩ := Prod.mk.inj hobserved
  obtain ⟨hd₂,hobserved⟩ := Prod.mk.inj hobserved
  obtain ⟨hlength,hcommand⟩ := Prod.mk.inj hobserved
  have hreach : Reachable ⟨"",[]⟩ (fun _ _ => True) c := reaches_of_run hc fun _ _ _ => trivial
  have hlater : Reaches step (fun _ _ => True) c d := reaches_of_run hd fun _ _ _ => trivial
  have hunwrapped : Unwrapped d.shared := by
    unfold Unwrapped
    rw [hlength]
    decide
  obtain ⟨hunaliased,hnever,hframe⟩ := handles_unaliased hreach hlater hunwrapped
  obtain ⟨command,hcommand,hoperation⟩ := Option.map_eq_some_iff.mp hcommand
  have hconfined := hframe 6 .ok _ hs command hcommand (by simp [hoperation,Operation.peerTarget])
  exact ⟨c,d,_,hreach,hlater,hs,hc₁,hd₁,hd₂,hunaliased,hnever,hoperation ▸ hconfined⟩

end Kestara.Native
