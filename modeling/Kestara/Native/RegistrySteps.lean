import Kestara.Native.Steps

/-!
# What a step does to the registry

The shared state after a step of a task, and the six ways in which the registry changes.
-/
namespace Kestara.Native
open Interleaving

/-- The state after an outcome. -/
def after : Outcome → RuntimeState → RuntimeState
  | .next s' _,_ | .fork s' _ _ _,_ | .throw s' _,_ => s'
  | .blocked,s => s

/-- The code that an outcome leaves to the task itself. -/
def codeOf : Outcome → List Instr
  | .next _ code | .fork _ code _ _ => code
  | .throw _ _ | .blocked => []

/-- A step of a task leaves the state that its instruction leaves, guards and aborts apart. -/
theorem shared_of_taskStep {x : Choice} {t : ℕ} {c c' : Config}
    (h : Machine.TaskStep machine x t c c') : ∃ i rest o locked aborted, c.tasks t = i :: rest ∧
      Does t c.shared i o ∧
        c'.shared = { after o c.shared with locked := locked, aborted := aborted } := by
  cases h with
  | @next i rest s code head he =>
    exact ⟨i,rest,_,s.locked,s.aborted,head,does_of he (by simp),rfl⟩
  | @fork i rest s code child childCode head he =>
    exact ⟨i,rest,_,s.locked,s.aborted,head,does_of he (by simp),rfl⟩
  | @throw i rest s e head he =>
    obtain ⟨locked,aborted,hu⟩ := unwind_kept e rest s
    exact ⟨i,rest,_,locked,aborted,head,does_of he (by simp),hu⟩

section Code
variable {x : Choice} {t u : ℕ} {c c' : Config}

/-- What a step of a task keeps of the code of any task: the task goes on or is unwound, and
another one is spawned by it or stays as it was. -/
theorem code_of_taskStep {P : List Instr → Prop} (hs : Machine.TaskStep machine x t c c')
    (h : P (c.tasks u))
    (hrun : ∀ {i rest o}, u = t → c.tasks t = i :: rest → machine.exec x t i c.shared = o →
      o ≠ .blocked → (∀ s e, o ≠ .throw s e) → P (codeOf o ++ rest))
    (hchild : ∀ {i rest s code childCode}, c.tasks t = i :: rest →
      Does t c.shared i (.fork s code u childCode) → P childCode)
    (hthrow : ∀ {i rest s e}, u = t → c.tasks t = i :: rest →
      machine.exec x t i c.shared = .throw s e → P (machine.unwind e rest s).2) :
    P (c'.tasks u) := by
  cases hs with
  | @next i rest s code head he =>
    by_cases hu : u = t
    · subst hu
      simpa [codeOf] using hrun rfl head he (by simp) (by simp)
    · simpa [Function.update_of_ne hu] using h
  | @fork i rest s code child childCode head he =>
    by_cases hc : u = child
    · subst hc
      simpa using hchild head (does_of he (by simp))
    · by_cases hu : u = t
      · subst hu
        simpa [codeOf,Function.update_of_ne hc] using hrun rfl head he (by simp) (by simp)
      · simpa [Function.update_of_ne hc,Function.update_of_ne hu] using h
  | @throw i rest s e head he =>
    by_cases hu : u = t
    · subst hu
      simpa using hthrow rfl head he
    · simpa [Function.update_of_ne hu] using h

/-- The instructions of a task stay of one kind if what they leave is of that kind. -/
theorem forall_own {P : Instr → Prop} (hs : Machine.TaskStep machine x t c c')
    (ht : t < c.shared.nextTask) (h : ∀ j ∈ c.tasks t, P j)
    (hrun : ∀ {i o}, Does t c.shared i o → P i → ∀ j ∈ codeOf o, P j)
    (hhandler : ∀ {e i code}, machine.handler e i = some code → P i → ∀ j ∈ code, P j) :
    ∀ j ∈ c'.tasks t, P j := by
  refine code_of_taskStep (P := fun code => ∀ j ∈ code, P j) hs h ?_ ?_ ?_
  · intro i rest o _ head he ho _ j hj
    obtain hj | hj := List.mem_append.mp hj
    · exact hrun (does_of he ho) (h i (by simp [head])) j hj
    · exact h j (by simp [head,hj])
  · intro i rest s code childCode head hdoes
    have hspawns : Spawns c.shared (.fork s code t childCode) := spawns_of_does hdoes
    exact absurd hspawns.1 (Nat.ne_of_gt ht)
  · intro i rest s e _ head _ j hj
    obtain hj | ⟨k,hk,code,hc,hj⟩ := Machine.mem_unwind hj
    · exact h j (by simp [head,hj])
    · exact hhandler hc (h k (by simp [head,hk])) j hj

end Code

/-- Only a task itself and the one that spawns it change its code. -/
lemma other_code {t : ℕ} {c c' : Config} {l : Label} (ht : t < c.shared.nextTask) (hl : ∀ x, l ≠ .task t x)
    (h : step l c = some c') : c'.tasks t = c.tasks t := by
  cases step_cases h with
  | @task u x _ h =>
    have hne : t ≠ u := fun hu => hl x (hu ▸ rfl)
    cases h with
    | next head he => simp [Function.update_of_ne hne]
    | @fork i rest s code child childCode head he =>
      have hs : Spawns c.shared (.fork s code child childCode) :=
        spawns_of_does (does_of he (by simp))
      have hchild : t ≠ child := hs.1 ▸ Nat.ne_of_lt ht
      simp [Function.update_of_ne hchild,Function.update_of_ne hne]
    | throw head he => simp [Function.update_of_ne hne]
  | announce peer channel => simp [Function.update_of_ne (Nat.ne_of_lt ht)]
  | submit | completeError | callback => rfl

lemma nextTask_le {c c' : Config} {l : Label} (h : step l c = some c') :
    c.shared.nextTask ≤ c'.shared.nextTask := by
  cases step_cases h with
  | task ht =>
    obtain ⟨i,rest,o,locked,aborted,-,hdoes,hshared⟩ := shared_of_taskStep ht
    rw [hshared]
    cases hdoes
    case startPolling | dispatch | spawnClose => exact Nat.le_succ _
    all_goals exact le_rfl
  | announce => exact Nat.le_succ _
  | submit | completeError | callback => exact le_rfl

/-- What an instruction of a task does to the registry, and what it notes down of that. -/
inductive RegistryStep (t : TaskId) (i : Instr) (s s' : RuntimeState) : Prop
  | keep (hr : s'.registry = s.registry) (hh : s'.history.registered = s.history.registered)
  | insertPeer (handle peer receive_queue_capacity)
      (hi : i = .insertPeer handle peer receive_queue_capacity)
      (hr : s'.registry = { s.registry with
        peers := s.registry.peers.insert handle { peer,receive_queue_capacity } })
      (hh : s'.history.registered = s.history.registered ++ [⟨t,handle,.peer peer⟩])
  | insertChannel (handle peer_handle channel emit attributes)
      (hi : i = .insertChannel handle peer_handle channel emit attributes)
      (hr : s'.registry = { s.registry with
        channels := s.registry.channels.insert handle { channel,peer_handle } })
      (hh : s'.history.registered = s.history.registered ++
        [⟨t,handle,.channel channel peer_handle⟩])
  | removeChannel (channel_handle)
      (hi : i = .execute (.closeDataChannel channel_handle) ∨ i = .removePolled channel_handle)
      (hr : s'.registry = { s.registry with channels := s.registry.channels.erase channel_handle })
      (hh : s'.history.registered = s.history.registered)
  | removePeer (peer_handle) (hi : i = .execute (.closePeer peer_handle))
      (hr : s'.registry = s.registry.removePeer peer_handle)
      (hh : s'.history.registered = s.history.registered)
  | clear (hi : i = .clearRegistry) (hr : s'.registry = {})
      (hh : s'.history.registered = s.history.registered)

namespace RegistryStep
variable {t : TaskId} {i : Instr} {s s' : RuntimeState} {k : UInt64}

/-- A peer that is found has been found before or is entered by this step. -/
lemma peer_source {e : PeerEntry} (h : RegistryStep t i s s')
    (hk : s'.registry.peers.lookup k = some e) : s.registry.peers.lookup k = some e ∨
      i = .insertPeer k e.peer e.receive_queue_capacity ∧
        ⟨t,k,.peer e.peer⟩ ∈ s'.history.registered := by
  cases h with
  | keep hr hh => exact .inl (hr ▸ hk)
  | insertPeer handle peer capacity hi hr hh =>
    rw [hr,LinkedMap.lookup_insert] at hk
    split_ifs at hk with he
    · cases hk
      subst he
      exact .inr ⟨hi,hh ▸ by simp⟩
    · exact .inl hk
  | insertChannel handle peer_handle channel emit attributes hi hr hh =>
    rw [hr] at hk
    exact .inl hk
  | removeChannel channel_handle hi hr hh =>
    rw [hr] at hk
    exact .inl hk
  | removePeer peer_handle hi hr hh =>
    rw [hr,Registry.removePeer,LinkedMap.lookup_erase] at hk
    split_ifs at hk
    exact .inl hk
  | clear hi hr hh =>
    rw [hr] at hk
    cases hk

/-- A channel that is found has been found before or is entered by this step. -/
lemma channel_source {e : ChannelEntry} (h : RegistryStep t i s s')
    (hk : s'.registry.channels.lookup k = some e) : s.registry.channels.lookup k = some e ∨
      (∃ emit attributes, i = .insertChannel k e.peer_handle e.channel emit attributes) ∧
        ⟨t,k,.channel e.channel e.peer_handle⟩ ∈ s'.history.registered := by
  cases h with
  | keep hr hh => exact .inl (hr ▸ hk)
  | insertPeer handle peer capacity hi hr hh =>
    rw [hr] at hk
    exact .inl hk
  | insertChannel handle peer_handle channel emit attributes hi hr hh =>
    rw [hr,LinkedMap.lookup_insert] at hk
    split_ifs at hk with he
    · cases hk
      subst he
      exact .inr ⟨⟨emit,attributes,hi⟩,hh ▸ by simp⟩
    · exact .inl hk
  | removeChannel channel_handle hi hr hh =>
    rw [hr,LinkedMap.lookup_erase] at hk
    split_ifs at hk
    exact .inl hk
  | removePeer peer_handle hi hr hh =>
    rw [hr,Registry.removePeer,LinkedMap.lookup_retain] at hk
    exact .inl hk.1
  | clear hi hr hh =>
    rw [hr] at hk
    cases hk

lemma registered_grows (h : RegistryStep t i s s') :
    s.history.registered <+: s'.history.registered := by
  cases h with
  | insertPeer handle peer capacity hi hr hh => exact hh ▸ List.prefix_append _ _
  | insertChannel handle peer_handle channel emit attributes hi hr hh =>
    exact hh ▸ List.prefix_append _ _
  | keep hr hh | removeChannel channel_handle hi hr hh | removePeer peer_handle hi hr hh
  | clear hi hr hh => exact hh ▸ List.prefix_refl _

end RegistryStep

lemma registryStep_of_does {t : TaskId} {s : RuntimeState} {i : Instr} {o : Outcome}
    (h : Does t s i o) : RegistryStep t i s (after o s) := by
  cases h
  case insertPeer => exact .insertPeer _ _ _ rfl rfl rfl
  case insertChannel => exact .insertChannel _ _ _ _ _ rfl rfl rfl
  case removeChannel channel_handle entry he => exact .removeChannel _ (.inl rfl) rfl rfl
  case removePolled => exact .removeChannel _ (.inr rfl) rfl rfl
  case noPeer => exact .removePeer _ rfl rfl rfl
  case removePeer => exact .removePeer _ rfl rfl rfl
  case clearRegistry => exact .clear rfl rfl rfl
  all_goals exact .keep rfl rfl

/-- A step of a task changes the registry as its first instruction says. -/
lemma registryStep_of_taskStep {x : Choice} {t : ℕ} {c c' : Config}
    (h : Machine.TaskStep machine x t c c') :
    ∃ i ∈ c.tasks t, RegistryStep t i c.shared c'.shared := by
  obtain ⟨i,rest,o,locked,aborted,head,hdoes,hshared⟩ := shared_of_taskStep h
  refine ⟨i,by simp [head],?_⟩
  rw [hshared]
  cases registryStep_of_does hdoes with
  | keep hr hh => exact .keep hr hh
  | insertPeer handle peer capacity hi hr hh => exact .insertPeer handle peer capacity hi hr hh
  | insertChannel handle peer_handle channel emit attributes hi hr hh =>
    exact .insertChannel handle peer_handle channel emit attributes hi hr hh
  | removeChannel channel_handle hi hr hh => exact .removeChannel channel_handle hi hr hh
  | removePeer peer_handle hi hr hh => exact .removePeer peer_handle hi hr hh
  | clear hi hr hh => exact .clear hi hr hh

/-- An assertion about the instructions of a task that depends on the command that the task has
been dispatched for, if any. -/
structure CommandRule (P : Option Command → Instr → Prop) : Prop where
  code : ∀ {t s i o}, Does t s i o → P (s.command t) i → ∀ j ∈ codeOf o, P (s.command t) j
  handler : ∀ {command e k code}, machine.handler e k = some code → ∀ j ∈ code, P command j
  dispatched : ∀ command : Command,
    ∀ j ∈ [.execute command.operation,.dispatched command.operation_handle,.finish],
      P (some command) j
  spawned : ∀ peer_handle handle channel peer, ∀ j ∈ [.accept peer_handle channel,
    .poll peer_handle handle,.lock peer .closePeer,.finish,.receive], P none j

section Commands
variable {P : Option Command → Instr → Prop} {x : Choice} {t : ℕ} {c c' : Config}

lemma CommandRule.child (hP : CommandRule P) {s s' : RuntimeState} {i : Instr}
    {code childCode : List Instr} {child : TaskId} (h : Does t s i (.fork s' code child childCode))
    (hnone : s.command s.nextTask = none) : ∀ j ∈ childCode, P (s'.command child) j := by
  cases h with
  | startPolling handle peer_handle channel entry he =>
    change ∀ j ∈ _, P (s.command s.nextTask) j
    rw [hnone]
    exact fun j hj => hP.spawned peer_handle handle 0 0 j (by
      simp only [List.mem_cons,List.not_mem_nil,or_false] at hj ⊢
      obtain rfl | rfl := hj <;> simp)
  | spawnClose entry peers closes =>
    change ∀ j ∈ _, P (s.command s.nextTask) j
    rw [hnone]
    exact fun j hj => hP.spawned 0 0 0 entry.peer j (by
      simp only [List.mem_cons,List.not_mem_nil,or_false] at hj ⊢
      obtain rfl | rfl := hj <;> simp)
  | dispatch command commands hc ho =>
    simp only [Function.update_self]
    exact hP.dispatched command

lemma CommandRule.task (hP : CommandRule P) (hc : Spawned c)
    (h : ∀ u, ∀ j ∈ c.tasks u, P (c.shared.command u) j)
    (hs : Machine.TaskStep machine x t c c') :
    ∀ u, ∀ j ∈ c'.tasks u, P (c'.shared.command u) j := by
  refine hs.assertions (A := fun s u j => P (s.command u) j) h ?_ ?_ ?_
  · intro i rest s code head he
    have hdoes := does_of he (by simp)
    obtain ⟨-,hcommand⟩ : Spawns c.shared (.next s code) := spawns_of_does hdoes
    rw [hcommand]
    exact ⟨hP.code hdoes (h t i (by simp [head])),fun _ _ _ hj => hj⟩
  · intro i rest s code child childCode head he
    have hdoes := does_of he (by simp)
    obtain ⟨hchild,hnext,hcommand⟩ : Spawns c.shared (.fork s code child childCode) :=
      spawns_of_does hdoes
    have hkept : ∀ u, ∀ j ∈ c.tasks u, s.command u = c.shared.command u := fun u j hj =>
      hcommand u (Nat.ne_of_lt (hc.lt hj))
    refine ⟨?_,hP.child hdoes (hc.command _ le_rfl),fun u j ho hj => ?_⟩
    · rw [hkept t i (by simp [head])]
      exact hP.code hdoes (h t i (by simp [head]))
    · rw [hkept u j (ho.mem head)]
      exact hj
  · intro i rest s e head he
    have hdoes := does_of he (by simp)
    obtain ⟨-,hcommand⟩ : Spawns c.shared (.throw s e) := spawns_of_does hdoes
    obtain ⟨locked,aborted,hu⟩ := unwind_kept e rest s
    rw [hu]
    simp only [hcommand]
    exact ⟨fun k _ _ code hcode => hP.handler hcode,fun _ _ _ hj => hj⟩

theorem CommandRule.of_reachable (hP : CommandRule P) {certificate : RTCCertificate}
    {ok : Label → Config → Prop} (h : Reachable certificate ok c) :
    ∀ u, ∀ j ∈ c.tasks u, P (c.shared.command u) j := by
  refine h.induct (I := fun c => ∀ u, ∀ j ∈ c.tasks u, P (c.shared.command u) j) ?_ ?_
  · intro u j hj
    by_cases hu : u = 0
    · simp only [init,hu,if_true,List.mem_singleton] at hj
      exact hP.spawned 0 0 0 0 j (by simp [hj])
    · simp [init,hu] at hj
  · intro l d d' hd hI _ hs
    have hc := spawned_of_reachable hd
    cases step_cases hs with
    | task ht => exact hP.task hc hI ht
    | submit | completeError | callback => exact hI
    | announce peer channel hp =>
      intro u j hj
      by_cases hu : u = d.shared.nextTask
      · subst hu
        change P (d.shared.command _) j
        rw [hc.command _ le_rfl]
        simp only [Function.update_self,List.mem_cons,List.not_mem_nil,or_false] at hj
        exact hP.spawned (d.shared.peer peer).handle 0 d.shared.nextChannel 0 j (by
          obtain rfl | rfl := hj <;> simp)
      · simp only [Function.update_of_ne hu] at hj
        exact hI u j hj

end Commands
end Kestara.Native
