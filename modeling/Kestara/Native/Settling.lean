import Kestara.Library.Settling
import Kestara.Library.Tally
import Kestara.Native.Locks
import Kestara.Native.ShutdownReport

/-!
# The runtime settles

Left to itself, with a library that answers, a runtime does what has been asked of it and comes to
rest. Only the channels that are polled go on.
-/
namespace Kestara.Native
open Interleaving

/-- The steps of a poll task that wait for the remote side or for the application. -/
def Instr.listens : Instr → Bool
  | .poll _ _ | .deliver _ _ _ _ => true
  | _ => false

/-- The most steps that an operation takes. -/
def Operation.work : Operation → ℕ
  | .createPeer configuration => 2*(ports configuration).length+18
  | _ => 14

/-- The most steps that an instruction leads to, the polling of channels apart. -/
def Instr.work : Instr → ℕ
  | .execute operation => operation.work
  | .bindPort _ _ ports _ => 2*ports.length+17
  | .buildPeer _ _ _ ports _ => 2*ports.length+18
  | .insertPeer _ _ _ => 16
  | .getPeer _ _ => 13
  | .lock _ _ => 12
  | .createChannel _ _ | .accept _ _ => 10
  | .registerChannel _ _ _ => 9
  | .readAttributes _ _ _ _ => 8
  | .insertChannel _ _ _ _ _ => 7
  | .startPolling _ _ _ => 5
  | .call _ _ | .closeChannel _ | .closePeer _ | .poll _ _ | .deliver _ _ _ _ => 2
  | .receive => 0
  | .clearRegistry => 3
  | .spawnCloses peers closes => 15*peers.length+closes.length+2
  | .graceful _ => 4
  | _ => 1

/-- What a queued command and a registered peer are still going to cost. -/
def reserve (s : RuntimeState) : ℕ :=
  15*s.registry.peers.tally (fun _ => true) +
    (s.commands.map fun command => command.operation.work+4).sum

/-- While the controller receives commands, it may have to join every task that it knows. -/
def handles (c : Config) : ℕ :=
  match c.tasks 0 with
  | [.receive] => c.shared.operations.length
  | _ => 0

/-- A bound for the steps that are left. -/
def work (c : Config) : ℕ :=
  load Instr.work c.tasks c.shared.nextTask + reserve c.shared + handles c

section Does
variable {x : Choice} {t : ℕ} {s : RuntimeState} {i : Instr} {o : Outcome}

attribute [local simp] Instr.work

lemma work_first (peer : PeerRef) (body : Locked) : (body.first peer).work ≤ 10 := by
  cases body <;> simp [Locked.first]

@[simp] lemma work_execute (operation : Operation) :
    (Instr.execute operation).work = operation.work := rfl

@[simp] lemma work_unlock (peer : PeerRef) : (Instr.unlock peer).work = 1 := rfl

@[simp] lemma work_lock (peer : PeerRef) (body : Locked) : (Instr.lock peer body).work = 12 := rfl

lemma le_work (operation : Operation) : 14 ≤ operation.work := by
  cases operation <;> simp [Operation.work]

lemma work_finds {peer_handle : UInt64} {body : Locked} (h : i.finds = some (peer_handle,body)) :
    13 ≤ i.work := by
  cases i with
  | getPeer => exact le_rfl
  | execute operation => exact (by omega : 13 ≤ 14).trans (le_work operation)
  | _ => cases h

lemma work_pos (hi : i ≠ .receive) : 0 < i.work := by
  cases i with
  | execute operation => exact Nat.lt_of_lt_of_le (by omega) (le_work operation)
  | receive => exact absurd rfl hi
  | _ => simp

lemma work_handler (e : Exit) (i : Instr) (code : List Instr)
    (hc : machine.handler e i = some code) : weight Instr.work code ≤ i.work := by
  simp only [machine,handler] at hc
  split at hc <;> cases hc <;> simp

/-- No step of a task other than the controller costs more than it does. -/
lemma cost_of_does (h : Does t s i o) (hi : i ≠ .receive) :
    Machine.left Instr.work o + reserve (after o s) ≤ i.work + reserve s ∧
      (i.listens = false →
        Machine.left Instr.work o + reserve (after o s) < i.work + reserve s) := by
  cases h with
  | leave | dropped | panicked | giveUp | rotate =>
    have := work_pos hi
    simp only [Machine.left,after,reserve]
    omega
  | skip hskip =>
    obtain ⟨op,rfl⟩ | ⟨op,rfl⟩ := hskip <;> simp [Machine.left,after]
  | joined task hjoin =>
    obtain rfl | rfl := hjoin <;> simp [Machine.left,after]
  | findPeer hfinds =>
    have := work_finds hfinds
    simp only [Machine.left,after,weight_cons,weight_nil,work_lock]
    omega
  | findSender channel_handle operation =>
    have := le_work operation
    simp only [Machine.left,after,weight_cons,weight_nil,Instr.work]
    omega
  | findChannel channel_handle operation =>
    have := le_work operation
    simp only [Machine.left,after,weight_cons,weight_nil,Instr.work]
    omega
  | noPeer peer_handle | removePeer peer_handle =>
    have := LinkedMap.tally_erase s.registry.peers peer_handle fun _ => true
    have hwork := le_work (.closePeer peer_handle)
    simp only [Machine.left,after,weight_cons,weight_nil,Instr.work,reserve,
      RuntimeState.setRegistry,Registry.removePeer]
    omega
  | insertPeer handle peer capacity =>
    have := LinkedMap.tally_insert s.registry.peers handle
      { peer,receive_queue_capacity := capacity } fun _ => true
    simp only [List.countP_cons,List.countP_nil] at this
    simp only [Machine.left,after,Instr.work,reserve,RuntimeState.setRegistry,RuntimeState.record]
    simp at this
    omega
  | lock peer body =>
    have := work_first peer body
    simp only [Machine.left,after,weight_cons,weight_nil,work_lock,work_unlock,reserve]
    omega
  | insertChannel handle peer_handle channel emit attributes =>
    cases emit <;> simp [Machine.left,after,insertChannel,reserve,
      RuntimeState.setRegistry,RuntimeState.record]
  | shutdown | dispatch => exact absurd rfl hi
  | clearRegistry =>
    simp only [Machine.left,after,weight_cons,weight_nil,Instr.work,reserve,
      RuntimeState.setRegistry,LinkedMap.tally,List.countP_true,List.length_nil]
    simp [LinkedMap.values,EmptyCollection.emptyCollection,LinkedMap.empty]
    omega
  | spawned closes =>
    have hjoins : weight Instr.work (closes.map .joinClose) = closes.length := by
      induction closes with
      | nil => rfl
      | cons u closes ih => simp [ih,Nat.add_comm]
    simp only [Machine.left,after,weight_append,weight_cons,weight_nil,hjoins,Instr.work]
    simp
  | spawnClose entry peers closes =>
    simp only [Machine.left,after,weight_cons,weight_nil,Instr.work,reserve,List.length_cons,
      List.length_append,List.length_nil]
    omega
  | _ =>
    simp [Machine.left,after,Operation.work,Instr.listens,reserve,RuntimeState.setRegistry,
      RuntimeState.record,RuntimeState.setChannel,RuntimeState.send_event,RuntimeState.notePoll,
      RuntimeState.allocate,unlock] <;> omega

/-- What taking a command leaves costs what the command and the known tasks have in reserve. -/
lemma cost_of_receive (h : Does t s .receive o) (hthrow : ∀ s' e, o ≠ .throw s' e) :
    Machine.left Instr.work o + reserve (after o s) < reserve s + s.operations.length ∧
        .receive ∉ codeOf o ∨
      Machine.left Instr.work o + reserve (after o s) + (after o s).operations.length <
        reserve s + s.operations.length ∧ codeOf o = [.receive] := by
  have hfilter := List.length_filter_le (fun t => !s.finished t) s.operations
  cases h with
  | leave | dropped => exact absurd rfl (hthrow _ _)
  | findPeer hfinds => cases hfinds
  | skip hskip => obtain ⟨op,he⟩ | ⟨op,he⟩ := hskip <;> cases he
  | joined task hjoin => obtain he | he := hjoin <;> cases he
  | shutdown command commands hc ho =>
    have hjoins : weight Instr.work ((s.operations.filter fun t => !s.finished t).map .join) =
        (s.operations.filter fun t => !s.finished t).length := by
      induction s.operations.filter fun t => !s.finished t with
      | nil => rfl
      | cons u left ih => simp [ih,Nat.add_comm]
    have hwork := le_work command.operation
    refine .inl ⟨?_,by simp [codeOf]⟩
    simp only [Machine.left,after,weight_append,weight_cons,weight_nil,hjoins,Instr.work,reserve,hc,
      List.map_cons,List.sum_cons]
    omega
  | dispatch command commands hc ho =>
    refine .inr ⟨?_,rfl⟩
    simp only [Machine.left,after,weight_cons,weight_nil,Instr.work,reserve,hc,List.map_cons,
      List.sum_cons,List.length_append,List.length_cons,List.length_nil]
    omega

end Does

section Receiving
variable {x : Choice} {t : ℕ} {s : RuntimeState} {i : Instr} {o : Outcome} {c c' : Config}
  {l : Label}

/-- Only the controller receives commands, and it does nothing else until it is shut down. -/
def Receiving (c : Config) : Prop := ∀ u, .receive ∈ c.tasks u → u = 0 ∧ c.tasks 0 = [.receive]

lemma receive_of_does (h : Does t s i o) (hr : .receive ∈ codeOf o) :
    i = .receive ∧ codeOf o = [.receive] := by
  cases h with
  | dispatch => exact ⟨rfl,rfl⟩
  | lock peer body => cases body <;> simp [codeOf,Locked.first] at hr
  | insertChannel handle peer_handle channel emit attributes =>
    cases emit <;> simp [codeOf,insertChannel] at hr
  | _ => simp [codeOf] at hr

lemma receive_unwind {e : Exit} {code : List Instr} (hr : .receive ∈ (machine.unwind e code s).2) :
    .receive ∈ code := by
  obtain hr | ⟨k,-,new,hc,hr⟩ := Machine.mem_unwind hr
  · exact hr
  · simp only [machine,handler] at hc
    split at hc <;> cases hc <;> simp at hr

lemma receive_child {s' : RuntimeState} {code childCode : List Instr} {child : TaskId}
    (h : Does t s i (.fork s' code child childCode)) : .receive ∉ childCode := by
  cases h <;> simp

/-- A task that receives commands after a step did so before. -/
lemma receive_source {u : ℕ} (hs : Machine.TaskStep machine x t c c')
    (hr : .receive ∈ c'.tasks u) : .receive ∈ c.tasks u := by
  refine code_of_taskStep (P := fun code => .receive ∈ code → .receive ∈ c.tasks u) hs id ?_ ?_ ?_ hr
  · rintro i rest o rfl head he ho - hr
    obtain hr | hr := List.mem_append.mp hr
    · obtain ⟨rfl,-⟩ := receive_of_does (does_of he ho) hr
      simp [head]
    · simp [head,hr]
  · exact fun _ hdoes hr => absurd hr (receive_child hdoes)
  · rintro i rest s e rfl head - hr
    exact head ▸ List.mem_cons_of_mem i (receive_unwind hr)

/-- What a step of a task does, and the state and the code that it leaves. -/
lemma own_taskStep {rest : List Instr} (hspawned : Spawned c)
    (hs : Machine.TaskStep machine x t c c') (head : c.tasks t = i :: rest) :
    Does t c.shared i (machine.exec x t i c.shared) ∧
      (∃ locked aborted, c'.shared = { after (machine.exec x t i c.shared) c.shared with
        locked := locked, aborted := aborted }) ∧
      ((∀ s e, machine.exec x t i c.shared ≠ .throw s e) →
        c'.tasks t = codeOf (machine.exec x t i c.shared) ++ rest) := by
  cases hs with
  | @next j rest s code head' he =>
    cases head.symm.trans head'
    exact he ▸ ⟨does_of he (by simp),⟨s.locked,s.aborted,rfl⟩,fun _ => by simp [codeOf]⟩
  | @fork j rest s code child childCode head' he =>
    cases head.symm.trans head'
    have hdoes := does_of he (by simp)
    have hspawns : Spawns c.shared (.fork s code child childCode) := spawns_of_does hdoes
    have hlt := hspawned.lt (t := t) (i := i) (by simp [head])
    have hne : t ≠ child := hspawns.1 ▸ Nat.ne_of_lt hlt
    exact he ▸ ⟨hdoes,⟨s.locked,s.aborted,rfl⟩,fun _ => by simp [codeOf,Function.update_of_ne hne]⟩
  | @throw j rest s e head' he =>
    cases head.symm.trans head'
    obtain ⟨locked,aborted,hu⟩ := unwind_kept e rest s
    exact he ▸ ⟨does_of he (by simp),⟨locked,aborted,hu⟩,fun hn => absurd rfl (hn s e)⟩

/-- The controller takes a command or waits for one. -/
lemma receive_plain (s' : RuntimeState) (e : Exit) :
    machine.exec x t .receive s ≠ .throw s' e := by
  obtain he | he := exec_plain (x := x) (t := t) (s := s) (i := .receive) rfl rfl (by simp)
  · change exec x t .receive s ≠ _
    simp [he]
  · change exec x t .receive s ≠ _
    rw [he]
    change receive s ≠ _
    unfold receive
    split
    · simp
    · dsimp only
      split_ifs <;> simp

lemma receiving_step (h : Receiving c) (hspawned : Spawned c) (hs : step l c = some c') :
    Receiving c' := by
  cases step_cases hs with
  | submit | completeError | callback => exact h
  | announce peer channel =>
    intro u hr
    have h₀ : c.shared.nextTask ≠ 0 := hspawned.pos.ne'
    by_cases hu : u = c.shared.nextTask
    · subst hu
      simp at hr
    · obtain ⟨rfl,hcode⟩ := h u (by simpa [Function.update_of_ne hu] using hr)
      exact ⟨rfl,by simpa [Function.update_of_ne hu] using hcode⟩
  | @task t x _ ht =>
    intro u hr
    obtain ⟨rfl,hcode⟩ := h u (receive_source ht hr)
    refine ⟨rfl,?_⟩
    by_cases h₀ : t = 0
    · subst h₀
      obtain ⟨hdoes,-,hnew⟩ := own_taskStep hspawned ht hcode
      have hleft := hnew receive_plain
      rw [List.append_nil] at hleft
      rw [hleft] at hr
      exact hleft.trans (receive_of_does hdoes hr).2
    · exact (other_code hspawned.pos (fun y he => h₀ (by cases he; rfl)) hs).trans hcode

theorem receiving_of_reachable {certificate : RTCCertificate} {ok : Label → Config → Prop}
    (h : Reachable certificate ok c) : Receiving c := by
  refine h.induct (I := Receiving) (fun u hr => ?_) fun _ _ _ hd hI _ hs =>
    receiving_step hI (spawned_of_reachable hd) hs
  simp only [init] at hr ⊢
  split_ifs at hr with hu
  · exact ⟨hu,rfl⟩
  · cases hr

end Receiving

section Work
variable {x : Choice} {t : ℕ} {s : RuntimeState} {i : Instr} {o : Outcome} {c c' : Config}
  {rest : List Instr}

lemma handles_receiving (h : c.tasks 0 = [.receive]) : handles c = c.shared.operations.length := by
  simp [handles,h]

lemma handles_of_ne (h : c.tasks 0 ≠ [.receive]) : handles c = 0 := by
  unfold handles
  split
  · next hcode => exact absurd hcode h
  · rfl

lemma operations_of_does (h : Does t s i o) (hi : i ≠ .receive) :
    (after o s).operations = s.operations := by
  cases h
  case shutdown | dispatch => exact absurd rfl hi
  all_goals rfl

lemma added_of_spawns (h : Spawns s o) (ho : o ≠ .blocked) :
    (after o s).nextTask = s.nextTask + Machine.added o := by
  cases o with
  | blocked => exact absurd rfl ho
  | next | throw => exact h.1
  | fork => exact h.2.1

/-- No task raises the bound, and all that do not listen lower it. -/
theorem work_taskStep (hr : Receiving c) (hspawned : Spawned c)
    (hs : Machine.TaskStep machine x t c c') (head : c.tasks t = i :: rest) :
    work c' ≤ work c ∧ (i.listens = false → work c' < work c) := by
  obtain ⟨hdoes,⟨locked,aborted,hshared⟩,hcode⟩ := own_taskStep hspawned hs head
  have hlt := hspawned.lt (t := t) (i := i) (by simp [head])
  have hspawns := spawns_of_does hdoes
  have hne : machine.exec x t i c.shared ≠ .blocked := by
    intro hb
    cases hs with
    | next head' he | fork head' he | throw head' he =>
      cases head.symm.trans head'
      exact absurd (hb.symm.trans he) (by simp)
  have hload := hs.load_le head work_handler hlt fun s code child childCode he => by
    rw [he] at hspawns
    exact hspawns.1.symm
  have hnext : c'.shared.nextTask = c.shared.nextTask +
      Machine.added (machine.exec x t i c.shared) := by
    rw [hshared]
    exact added_of_spawns hspawns hne
  have hreserve : reserve c'.shared = reserve (after (machine.exec x t i c.shared) c.shared) := by
    rw [hshared]
    rfl
  have hoperations : c'.shared.operations =
      (after (machine.exec x t i c.shared) c.shared).operations := by rw [hshared]
  rw [← hnext] at hload
  by_cases hi : i = .receive
  · subst hi
    obtain ⟨rfl,hcode₀⟩ := hr t (by simp [head])
    rw [head] at hcode₀
    cases hcode₀
    have hleft := hcode receive_plain
    rw [List.append_nil] at hleft
    have hhandles := handles_receiving head
    have hwork : Instr.work .receive = 0 := rfl
    have hless : work c' < work c := by
      obtain ⟨hcost,hgone⟩ | ⟨hcost,hkept⟩ := cost_of_receive hdoes receive_plain
      · have hzero : handles c' = 0 := handles_of_ne fun he => hgone (by simp [← hleft,he])
        simp only [work]
        omega
      · have hlen := handles_receiving (hleft.trans hkept)
        rw [hoperations] at hlen
        simp only [work]
        omega
    exact ⟨hless.le,fun _ => hless⟩
  · have hhandles : handles c' ≤ handles c := by
      by_cases hcode' : c'.tasks 0 = [.receive]
      · obtain ⟨-,hcode₀⟩ := hr 0 (receive_source hs (by simp [hcode']))
        rw [handles_receiving hcode',handles_receiving hcode₀,hoperations,
          operations_of_does hdoes hi]
      · simp [handles_of_ne hcode']
    obtain ⟨hle,hless⟩ := cost_of_does hdoes hi
    refine ⟨?_,fun hlistens => ?_⟩
    · simp only [work]
      omega
    · have := hless hlistens
      simp only [work]
      omega

end Work

section Joins
variable {x : Choice} {t u : ℕ} {s : RuntimeState} {i : Instr} {o : Outcome} {c c' : Config}
  {l : Label}

/-- The tasks that an instruction waits for, or is going to wait for. -/
def Instr.joins : Instr → List TaskId
  | .join u | .joinClose u => [u]
  | .spawnCloses _ closes => closes
  | _ => []

/-- The task ends without the remote side and without the controller. -/
structure Ending (u : ℕ) (c : Config) : Prop where
  ne : u ≠ 0
  lt : u < c.shared.nextTask
  code : ∀ j ∈ c.tasks u, j.listens = false

/-- The tasks that are waited for, and those of commands, end by themselves. -/
structure Joins (c : Config) : Prop where
  operations : ∀ u ∈ c.shared.operations, Ending u c
  pending : ∀ t, ∀ j ∈ c.tasks t, ∀ u ∈ j.joins, Ending u c
  commands : ∀ u, c.shared.command u ≠ none → Ending u c

lemma listens_of_does (h : Does t s i o) (hi : i.listens = false) :
    ∀ j ∈ codeOf o, j.listens = false := by
  cases h with
  | lock peer body => cases body <;> simp [codeOf,Locked.first,Instr.listens]
  | insertChannel handle peer_handle channel emit attributes =>
    cases emit <;> simp [codeOf,insertChannel,Instr.listens]
  | shutdown | spawned =>
    intro j hj
    simp only [codeOf,List.mem_append,List.mem_map,List.mem_cons,List.not_mem_nil,or_false] at hj
    obtain ⟨u,-,rfl⟩ | rfl | rfl := hj <;> rfl
  | polled | received | deliver => cases hi
  | _ => simp [codeOf,Instr.listens]

lemma listens_of_handler {e : Exit} {k : Instr} {code : List Instr}
    (hc : machine.handler e k = some code) : ∀ j ∈ code, j.listens = false := by
  intro j hj
  simp only [machine,handler] at hc
  split at hc <;> cases hc <;> (simp only [List.mem_cons,List.not_mem_nil,or_false] at hj; aesop)

lemma listens_own (hspawned : Spawned c) (hs : Machine.TaskStep machine x t c c')
    (h : ∀ j ∈ c.tasks t, j.listens = false) : ∀ j ∈ c'.tasks t, j.listens = false := by
  obtain ⟨i,rest,-,-,-,head,-,-⟩ := shared_of_taskStep hs
  exact forall_own hs (hspawned.lt (i := i) (by simp [head])) h
    (fun hdoes hi => listens_of_does hdoes hi) fun hc _ => listens_of_handler hc

lemma Ending.step (h : Ending u c) (hspawned : Spawned c) (hs : step l c = some c') :
    Ending u c' := by
  refine ⟨h.ne,h.lt.trans_le (nextTask_le hs),?_⟩
  by_cases hl : ∃ x, l = .task u x
  · obtain ⟨x,rfl⟩ := hl
    exact listens_own hspawned (Machine.taskStep_of_stepTask hs) h.code
  · rw [other_code h.lt (fun x he => hl ⟨x,he⟩) hs]
    exact h.code

/-- The outcome adds the task `u`, which does not listen. -/
def Adds (u : TaskId) (o : Outcome) : Prop :=
  ∃ s code childCode, o = .fork s code u childCode ∧ ∀ j ∈ childCode, j.listens = false

lemma Adds.ending {rest : List Instr} (h : Adds u (machine.exec x t i c.shared))
    (hspawned : Spawned c) (hs : Machine.TaskStep machine x t c c') (head : c.tasks t = i :: rest) :
    Ending u c' := by
  obtain ⟨s,code,childCode,he,hchild⟩ := h
  have hspawns : Spawns c.shared (.fork s code u childCode) := spawns_of_does (does_of he (by simp))
  cases hs with
  | next head' he' | throw head' he' =>
    cases head.symm.trans head'
    cases he.symm.trans he'
  | fork head' he' =>
    cases head.symm.trans head'
    cases he.symm.trans he'
    have hpos := hspawned.pos
    have hu : c.shared.nextTask = u := hspawns.1
    refine ⟨by omega,?_,by simpa using hchild⟩
    change u < s.nextTask
    rw [hspawns.2.1,hu]
    exact Nat.lt_succ_self u

lemma joins_of_does (h : Does t s i o) :
    (∀ u ∈ (after o s).operations, u ∈ s.operations ∨ Adds u o) ∧
      (∀ j ∈ codeOf o, ∀ u ∈ j.joins, u ∈ i.joins ∨ u ∈ s.operations ∨ Adds u o) ∧
      ∀ u, (after o s).command u ≠ none → s.command u ≠ none ∨ Adds u o := by
  cases h with
  | shutdown command commands hc ho =>
    refine ⟨fun u hu => .inl (List.mem_of_mem_filter hu),fun j hj u hu => ?_,fun u hu => .inl hu⟩
    simp only [codeOf,List.mem_append,List.mem_map,List.mem_cons,List.not_mem_nil,or_false] at hj
    obtain ⟨v,hv,rfl⟩ | rfl | rfl := hj
    · rw [List.mem_singleton.mp hu]
      exact .inr (.inl (List.mem_of_mem_filter hv))
    · cases hu
    · cases hu
  | dispatch command commands hc ho =>
    have hadds : Adds s.nextTask (.fork { s with
        commands
        operations := (s.operations.filter fun t => !s.finished t) ++ [s.nextTask]
        nextTask := s.nextTask+1
        command := Function.update s.command s.nextTask (some command) } [.receive] s.nextTask
        [.execute command.operation,.dispatched command.operation_handle,.finish]) :=
      ⟨_,_,_,rfl,by simp [Instr.listens]⟩
    refine ⟨fun u hu => ?_,by simp [codeOf,Instr.joins],fun u hu => ?_⟩
    · obtain hu | hu := List.mem_append.mp hu
      · exact .inl (List.mem_of_mem_filter hu)
      · rw [List.mem_singleton.mp hu]
        exact .inr hadds
    · by_cases hn : u = s.nextTask
      · exact .inr (hn ▸ hadds)
      · exact .inl (by simpa [after,Function.update_of_ne hn] using hu)
  | spawned closes =>
    refine ⟨fun u hu => .inl hu,fun j hj u hu => ?_,fun u hu => .inl hu⟩
    simp only [codeOf,List.mem_append,List.mem_map,List.mem_cons,List.not_mem_nil,or_false] at hj
    obtain ⟨v,hv,rfl⟩ | rfl := hj
    · rw [List.mem_singleton.mp hu]
      exact .inl hv
    · cases hu
  | spawnClose entry peers closes =>
    refine ⟨fun u hu => .inl hu,fun j hj u hu => ?_,fun u hu => .inl hu⟩
    rw [List.mem_singleton.mp hj] at hu
    obtain hu | hu := List.mem_append.mp hu
    · exact .inl hu
    · rw [List.mem_singleton.mp hu]
      exact .inr (.inr ⟨_,_,_,rfl,by simp [Instr.listens]⟩)
  | lock peer body =>
    refine ⟨fun u hu => .inl hu,?_,fun u hu => .inl hu⟩
    cases body <;> simp [codeOf,Locked.first,Instr.joins]
  | insertChannel handle peer_handle channel emit attributes =>
    refine ⟨fun u hu => .inl hu,?_,fun u hu => .inl hu⟩
    cases emit <;> simp [codeOf,insertChannel,Instr.joins]
  | _ => exact ⟨fun u hu => .inl hu,by simp [codeOf,Instr.joins],fun u hu => .inl hu⟩

lemma joins_child {s' : RuntimeState} {code childCode : List Instr} {child : TaskId}
    (h : Does t s i (.fork s' code child childCode)) : ∀ j ∈ childCode, j.joins = [] := by
  cases h <;> simp [Instr.joins]

lemma joins_handler {e : Exit} {k : Instr} {code : List Instr}
    (hc : machine.handler e k = some code) : ∀ j ∈ code, j.joins = [] := by
  simp only [machine,handler] at hc
  split at hc <;> cases hc <;> simp [Instr.joins]

theorem joins_step (h : Joins c) (hspawned : Spawned c) (hs : step l c = some c') : Joins c' := by
  have hend : ∀ {u}, Ending u c → Ending u c' := fun h => h.step hspawned hs
  cases step_cases hs with
  | submit | completeError | callback =>
    exact ⟨fun u hu => hend (h.operations u hu),fun t j hj u hu => hend (h.pending t j hj u hu),
      fun u hu => hend (h.commands u hu)⟩
  | announce peer channel =>
    refine ⟨fun u hu => hend (h.operations u hu),fun t j hj u hu => ?_,
      fun u hu => hend (h.commands u hu)⟩
    by_cases ht : t = c.shared.nextTask
    · subst ht
      simp only [Function.update_self,List.mem_cons,List.not_mem_nil,or_false] at hj
      obtain rfl | rfl := hj <;> cases hu
    · exact hend (h.pending t j (by simpa [Function.update_of_ne ht] using hj) u hu)
  | @task t x _ ht =>
    obtain ⟨i,rest,-,-,-,head,-,-⟩ := shared_of_taskStep ht
    obtain ⟨hdoes,⟨locked,aborted,hshared⟩,-⟩ := own_taskStep hspawned ht head
    obtain ⟨hoperations,hcode,hcommand⟩ := joins_of_does hdoes
    have hadds : ∀ {u}, Adds u (machine.exec x t i c.shared) → Ending u c' :=
      fun ha => ha.ending hspawned ht head
    have hrun : ∀ {o}, machine.exec x t i c.shared = o → ∀ j ∈ codeOf o, ∀ u ∈ j.joins,
        Ending u c' := by
      intro o he j hj u hu
      obtain hu | hu | hu := hcode j (he ▸ hj) u hu
      · exact hend (h.pending t i (by simp [head]) u hu)
      · exact hend (h.operations u hu)
      · exact hadds hu
    refine ⟨fun u hu => ?_,?_,fun u hu => ?_⟩
    · rw [hshared] at hu
      exact (hoperations u hu).elim (fun hu => hend (h.operations u hu)) hadds
    · refine ht.assertions (A := fun _ _ j => ∀ u ∈ j.joins, Ending u c')
        (fun t j hj u hu => hend (h.pending t j hj u hu)) ?_ ?_ ?_
      · intro j rest s code head' he
        cases head.symm.trans head'
        exact ⟨hrun he,fun _ _ _ hA => hA⟩
      · intro j rest s code child childCode head' he
        cases head.symm.trans head'
        refine ⟨hrun he,fun k hk u hu => ?_,fun _ _ _ hA => hA⟩
        rw [joins_child (does_of he (by simp)) k hk] at hu
        cases hu
      · intro j rest s e head' he
        refine ⟨fun k _ _ code hc j hj u hu => ?_,fun _ _ _ hA => hA⟩
        rw [joins_handler hc j hj] at hu
        cases hu
    · rw [hshared] at hu
      exact (hcommand u hu).elim (fun hu => hend (h.commands u hu)) hadds

theorem joins_of_reachable {certificate : RTCCertificate} {ok : Label → Config → Prop}
    (h : Reachable certificate ok c) : Joins c := by
  refine h.induct (I := Joins) ⟨by simp [init],fun t j hj u hu => ?_,by simp [init]⟩
    fun _ _ _ hd hI _ hs => joins_step hI (spawned_of_reachable hd) hs
  simp only [init] at hj
  split_ifs at hj
  · rw [List.mem_singleton.mp hj] at hu
    cases hu
  · cases hj

end Joins

section Finishing
variable {x : Choice} {t : ℕ} {s : RuntimeState} {c c' : Config} {l : Label}

/-- A task other than the controller is still going to finish or has finished. -/
def Finishing (c : Config) : Prop :=
  ∀ u : ℕ, u ≠ 0 → u < c.shared.nextTask → .finish ∈ c.tasks u ∨ c.shared.finished u = true

lemma finish_unwind (e : Exit) {code : List Instr} (hf : .finish ∈ code) (s : RuntimeState) :
    .finish ∈ (machine.unwind e code s).2 := by
  induction code generalizing s with
  | nil => cases hf
  | cons i code ih =>
    simp only [Machine.unwind]
    obtain rfl | hf := List.mem_cons.mp hf
    · have hc : machine.handler e .finish = some [.finish] := by
        cases e with
        | done result => cases result <;> rfl
        | dropped | panicked => rfl
      simp [hc]
    · cases machine.handler e i with
      | none => exact ih hf _
      | some new => exact List.mem_append_right _ hf

lemma finish_own (hspawned : Spawned c) (hs : Machine.TaskStep machine x t c c')
    (h : .finish ∈ c.tasks t) : .finish ∈ c'.tasks t ∨ c'.shared.finished t = true := by
  obtain ⟨i,rest,-,-,-,head,-,-⟩ := shared_of_taskStep hs
  by_cases hi : i = .finish
  · subst hi
    have hplain := taskStep_plain hs head rfl rfl (by simp) rfl
    exact .inr (by rw [hplain.1]; simp)
  · have hrest : .finish ∈ rest := by
      rw [head] at h
      exact (List.mem_cons.mp h).resolve_left fun he => hi he.symm
    left
    cases hs with
    | next head' he | fork head' he =>
      cases head.symm.trans head'
      have hcode := (own_taskStep hspawned (by first | exact .next head he | exact .fork head he)
        head).2.2 (by simp [he])
      rw [hcode]
      exact List.mem_append_right _ hrest
    | @throw _ _ s e head' he =>
      cases head.symm.trans head'
      simpa using finish_unwind e hrest s

lemma finish_child {i : Instr} {s' : RuntimeState} {code childCode : List Instr} {child : TaskId}
    (h : Does t s i (.fork s' code child childCode)) : .finish ∈ childCode := by
  cases h <;> simp

/-- A finished task stays finished. -/
lemma finished_kept {u : ℕ} (hs : step l c = some c') (h : c.shared.finished u = true) :
    c'.shared.finished u = true := by
  cases step_cases hs with
  | submit | completeError | announce | callback => exact h
  | task ht =>
    obtain ⟨i,rest,o,locked,aborted,-,hdoes,hshared⟩ := shared_of_taskStep ht
    by_cases hi : i = .finish
    · subst hi
      rw [hshared]
      cases hdoes
      case finish =>
        change Function.update c.shared.finished _ true u = true
        rw [Function.update_apply]
        split_ifs
        · rfl
        · exact h
      all_goals exact h
    · rw [hshared]
      exact (congrFun (finished_of_does hdoes hi) u).trans h

theorem finishing_step (h : Finishing c) (hspawned : Spawned c) (hs : step l c = some c') :
    Finishing c' := by
  intro u h₀ hu
  by_cases hlt : u < c.shared.nextTask
  · obtain hf | hf := h u h₀ hlt
    · by_cases hl : ∃ x, l = .task u x
      · obtain ⟨x,rfl⟩ := hl
        exact finish_own hspawned (Machine.taskStep_of_stepTask hs) hf
      · rw [other_code hlt (fun x he => hl ⟨x,he⟩) hs]
        exact .inl hf
    · exact .inr (finished_kept hs hf)
  · left
    cases step_cases hs with
    | submit | completeError | callback => exact absurd hu hlt
    | announce peer channel =>
      change u < c.shared.nextTask+1 at hu
      have hne : u = c.shared.nextTask := by omega
      simp [hne]
    | task ht =>
      have hnext : ∀ {o}, Spawns c.shared o → Machine.added o = 0 → o ≠ .blocked →
          (after o c.shared).nextTask = c.shared.nextTask := by
        intro o hspawns hadded ho
        rw [added_of_spawns hspawns ho,hadded,Nat.add_zero]
      cases ht with
      | @next i rest s code head he =>
        have hkeep := hnext (spawns_of_does (does_of he (by simp))) rfl (by simp)
        exact absurd (hkeep ▸ hu) hlt
      | @throw i rest s e head he =>
        have hkeep := hnext (spawns_of_does (does_of he (by simp))) rfl (by simp)
        obtain ⟨locked,aborted,hunwind⟩ := unwind_kept e rest s
        simp only [hunwind] at hu
        exact absurd (hkeep ▸ hu) hlt
      | @fork i rest s code child childCode head he =>
        have hdoes := does_of he (by simp)
        have hspawns : Spawns c.shared (.fork s code child childCode) := spawns_of_does hdoes
        change u < s.nextTask at hu
        rw [hspawns.2.1] at hu
        have hne : u = child := by
          have hchild : c.shared.nextTask = child := hspawns.1
          omega
        subst hne
        simpa using finish_child hdoes

theorem finishing_of_reachable {certificate : RTCCertificate} {ok : Label → Config → Prop}
    (h : Reachable certificate ok c) : Finishing c := by
  refine h.induct (I := Finishing) (fun u h₀ hu => ?_) fun _ _ _ hd hI _ hs =>
    finishing_step hI (spawned_of_reachable hd) hs
  change u < 1 at hu
  omega

end Finishing

section Progress
variable {t : ℕ} {s : RuntimeState} {i : Instr} {c c' : Config} {l : Label} {rest : List Instr}

/-- The steps of the tasks. -/
def IsTask (l : Label) (_ : Config) : Prop := ∃ t x, l = .task t x

/-- A task runs an instruction that does not wait for the remote side or the application. -/
def Working (l : Label) (c : Config) : Prop :=
  ∃ t x i rest, l = .task t x ∧ c.tasks t = i :: rest ∧ i.listens = false

/-- The library answers what a task awaits: no timeout expires, and nothing is dropped. -/
def Responding (l : Label) (c : Config) : Prop :=
  Working l c ∧ ∀ t x, l = .task t x → x ≠ .expire ∧ x ≠ .drop

/-- Nothing is left to do: the controller waits for commands or has ended, and every other task has
ended or listens to a channel. -/
def Quiet (c : Config) : Prop :=
  ∀ t : ℕ, c.tasks t = [] ∨ (∃ i rest, c.tasks t = i :: rest ∧ i.listens = true) ∨
    t = 0 ∧ c.tasks 0 = [.receive] ∧ c.shared.commands = []

/-- Some task can do its next step. -/
def Moves (c : Config) : Prop := ∃ l, Responding l c ∧ (step l c).isSome = true

lemma moves_of (head : c.tasks t = i :: rest) (hi : i.listens = false) {x : Choice}
    (hx : x ≠ .expire ∧ x ≠ .drop) (he : run x t i c.shared ≠ .blocked) : Moves c := by
  refine ⟨.task t x,⟨⟨t,x,i,rest,rfl,head,hi⟩,?_⟩,Machine.stepTask_isSome machine head ?_⟩
  · rintro u y he
    cases he
    exact hx
  · change exec x t i c.shared ≠ .blocked
    rwa [exec_eq_run hx.1 hx.2]

lemma getPeer_moves (peer_handle : UInt64) (body : Locked) :
    getPeer peer_handle body s ≠ .blocked := by
  unfold getPeer
  split <;> simp

lemma get_channel_moves (channel_handle : UInt64) (code : ChannelEntry → List Instr) :
    get_channel channel_handle s code ≠ .blocked := by
  unfold get_channel
  split <;> simp

lemma execute_moves (operation : Operation) : ∃ x : Choice, (x ≠ .expire ∧ x ≠ .drop) ∧
    run x t (.execute operation) s ≠ .blocked := by
  cases operation with
  | rotateCertificate pem =>
    refine ⟨.certificate (.error ""),by simp,?_⟩
    simp [run,rotateCertificate]
  | createPeer configuration => exact ⟨.ok,by simp,by simp [run,execute,create_peer]⟩
  | createDescription | setLocalDescription | setRemoteDescription | addIceCandidate | restartIce
  | setConfiguration | getStats | createDataChannel =>
    exact ⟨.ok,by simp,getPeer_moves _ _⟩
  | sendText | sendBinary | trySendText | trySendBinary | dataChannelWritable
  | dataChannelOutstandingBytes | setDataChannelThresholds =>
    exact ⟨.ok,by simp,get_channel_moves _ _⟩
  | closeDataChannel channel_handle =>
    refine ⟨.ok,by simp,?_⟩
    change close_data_channel channel_handle s ≠ .blocked
    unfold close_data_channel
    split <;> simp
  | closePeer peer_handle =>
    refine ⟨.ok,by simp,?_⟩
    change close_peer peer_handle s ≠ .blocked
    unfold close_peer
    split <;> simp
  | shutdown => exact ⟨.ok,by simp,by simp [run,execute]⟩

lemma answer_plain (operation : Operation) :
    answer operation ≠ .expire ∧ answer operation ≠ .drop := by
  cases operation <;> simp [answer]

/-- Apart from locks, from other tasks and from commands, a task waits for the library only. -/
lemma run_moves (hl : i.listens = false) (hlock : ∀ p body, i ≠ .lock p body)
    (hjoin : ∀ u, i ≠ .join u ∧ i ≠ .joinClose u) (hr : i ≠ .receive) :
    ∃ x : Choice, (x ≠ .expire ∧ x ≠ .drop) ∧ run x t i s ≠ .blocked := by
  have hok : Choice.ok ≠ .expire ∧ Choice.ok ≠ .drop := by simp
  cases i with
  | lock p body => exact absurd rfl (hlock p body)
  | join u => exact absurd rfl (hjoin u).1
  | joinClose u => exact absurd rfl (hjoin u).2
  | receive => exact absurd rfl hr
  | poll | deliver => cases hl
  | execute operation => exact execute_moves operation
  | getPeer => exact ⟨.ok,hok,getPeer_moves _ _⟩
  | bindPort handle configuration ports last_error =>
    refine ⟨.ok,hok,?_⟩
    change bindPort t handle configuration ports last_error s ≠ .blocked
    cases ports <;> simp [bindPort]
  | call channel operation =>
    refine ⟨.ok,hok,?_⟩
    change call t channel operation s ≠ .blocked
    unfold call
    dsimp only
    split
    · simp
    · simp
    · split <;> simp
    · split <;> simp
    · simp
  | request operation =>
    refine ⟨answer operation,answer_plain operation,?_⟩
    obtain ⟨result,hreply⟩ := Option.isSome_iff_exists.mp (reply_answer operation)
    change request operation (answer operation) s ≠ .blocked
    simp [request,hreply]
  | createChannel peer_handle configuration =>
    exact ⟨.fail "",by simp,by simp [run,createChannel]⟩
  | readAttributes handle peer_handle channel emit =>
    exact ⟨.attributes ⟨"","",true,0,false,none,none,true⟩,by simp,by simp [run]⟩
  | insertChannel handle peer_handle channel emit attributes =>
    exact ⟨.ok,hok,by simp [run,insertChannel]⟩
  | startPolling handle peer_handle channel =>
    refine ⟨.ok,hok,?_⟩
    change startPolling handle peer_handle channel s ≠ .blocked
    unfold startPolling
    split <;> simp
  | spawnCloses peers closes =>
    refine ⟨.ok,hok,?_⟩
    change spawnCloses peers closes s ≠ .blocked
    cases peers <;> simp [spawnCloses]
  | _ => exact ⟨.ok,hok,by simp [run,buildPeer,insertPeer,awaitUnit,registerChannel]⟩

/-- The task that holds a lock can go on. -/
lemma holder_moves {p : PeerRef} (hsole : Sole (Instr.guards p) c.tasks (c.shared.locked p))
    (hshape : ∀ u, Shape (c.tasks u)) (hl : c.shared.locked p = true) : Moves c := by
  obtain ⟨u,hu,-⟩ := (hl ▸ hsole).owner
  obtain ⟨pre,rest,hcode,hpre,-⟩ := (hshape u).guarded hu
  cases pre with
  | nil => exact moves_of hcode rfl (x := .ok) (by simp) (by simp [run])
  | cons j pre =>
    have hj := hpre j (by simp)
    have hlistens : j.listens = false := by
      cases j <;> first | rfl | exact absurd hj (lt_irrefl _)
    obtain ⟨x,hx,he⟩ := run_moves (t := u) (s := c.shared) hlistens
      (fun p body he => by subst he; exact absurd hj (lt_irrefl _))
      (fun u => ⟨fun he => by subst he; exact absurd hj (lt_irrefl _),
        fun he => by subst he; exact absurd hj (lt_irrefl _)⟩)
      (fun he => by subst he; exact absurd hj (lt_irrefl _))
    exact moves_of hcode hlistens hx he

lemma unjoined_moves (hsole : ∀ p, Sole (Instr.guards p) c.tasks (c.shared.locked p))
    (hshape : ∀ u, Shape (c.tasks u)) (head : c.tasks t = i :: rest) (hl : i.listens = false)
    (hjoin : ∀ u, i ≠ .join u ∧ i ≠ .joinClose u) (hr : i ≠ .receive) : Moves c := by
  by_cases hlock : ∃ p body, i = .lock p body
  · obtain ⟨p,body,rfl⟩ := hlock
    cases hlocked : c.shared.locked p with
    | true => exact holder_moves (hsole p) hshape hlocked
    | false => exact moves_of head rfl (x := .ok) (by simp) (by simp [run,lock,hlocked])
  · obtain ⟨x,hx,he⟩ := run_moves (t := t) (s := c.shared) hl
      (fun p body he => hlock ⟨p,body,he⟩) hjoin hr
    exact moves_of head hl hx he

/-- What the tasks of a runtime wait for, in every state that it reaches. -/
structure WaitInv (c : Config) : Prop where
  spawned : Spawned c
  receiving : Receiving c
  control : ControlOnly c
  sole : ∀ p, Sole (Instr.guards p) c.tasks (c.shared.locked p)
  shape : ∀ u, Shape (c.tasks u)
  joins : Joins c
  finishing : Finishing c

theorem waitInv_of_reachable {certificate : RTCCertificate} {ok : Label → Config → Prop}
    (h : Reachable certificate ok c) : WaitInv c :=
  ⟨spawned_of_reachable h,receiving_of_reachable h,controlOnly_of_reachable h,sole_of_reachable h,
    shape_of_reachable h,joins_of_reachable h,finishing_of_reachable h⟩

lemma controlOnly_step (h : ControlOnly c) (hs : step l c = some c') : ControlOnly c' := by
  cases step_cases hs with
  | task ht => exact controlOnly_task h ht
  | submit | completeError | callback => exact h
  | announce peer channel =>
    intro u j hj hctrl
    by_cases hu : u = c.shared.nextTask
    · subst hu
      simp only [Function.update_self,List.mem_cons,List.not_mem_nil,or_false] at hj
      obtain rfl | rfl := hj <;> cases hctrl
    · simp only [Function.update_of_ne hu] at hj
      exact h u j hj hctrl

theorem waitInv_step (h : WaitInv c) (hs : step l c = some c') : WaitInv c' :=
  ⟨spawned_step h.spawned hs,receiving_step h.receiving h.spawned hs,controlOnly_step h.control hs,
    fun p => sole_step (h.sole p) h.spawned hs,shape_step h.shape hs,joins_step h.joins h.spawned hs,
    finishing_step h.finishing h.spawned hs⟩

/-- A task that waits for another one is not stuck, since the other one can go on. -/
lemma joined_moves {u : ℕ} (h : WaitInv c) (head : c.tasks t = i :: rest) (hl : i.listens = false)
    (hi : i = .join u ∨ i = .joinClose u) : Moves c := by
  have hu : u ∈ i.joins := by obtain rfl | rfl := hi <;> exact List.mem_singleton_self u
  have hending := h.joins.pending t i (by simp [head]) u hu
  obtain hf | hf := h.finishing u hending.ne hending.lt
  · cases hcode : c.tasks u with
    | nil =>
      rw [hcode] at hf
      cases hf
    | cons j left =>
      have hmem : j ∈ c.tasks u := by simp [hcode]
      have hcontrol : j.control = false := by
        by_contra hn
        exact hending.ne (h.control u j hmem (by simpa using hn))
      refine unjoined_moves h.sole h.shape hcode (hending.code j hmem) (fun v => ⟨?_,?_⟩) ?_ <;>
        · rintro rfl
          cases hcontrol
  · refine moves_of head hl (x := .ok) (by simp) ?_
    obtain rfl | rfl := hi <;> simp [run,hf]

/-- The runtime is never stuck. -/
theorem quiet_or_moves (h : WaitInv c) : Quiet c ∨ Moves c := by
  by_contra hn
  obtain ⟨hquiet,hmoves⟩ := not_or.mp hn
  refine hquiet fun t => ?_
  cases hcode : c.tasks t with
  | nil => exact .inl rfl
  | cons i rest =>
    right
    cases hl : i.listens with
    | true => exact .inl ⟨i,rest,rfl,hl⟩
    | false =>
      right
      by_cases hr : i = .receive
      · subst hr
        obtain ⟨rfl,hcode₀⟩ := h.receiving t (by simp [hcode])
        refine ⟨rfl,hcode₀,?_⟩
        by_contra hne
        refine hmoves (moves_of hcode hl (x := .ok) (by simp) ?_)
        obtain ⟨command,commands,hc⟩ := List.exists_cons_of_ne_nil hne
        change receive c.shared ≠ .blocked
        simp only [receive,hc]
        split_ifs <;> simp
      · refine absurd ?_ hmoves
        by_cases hj : ∃ u, i = .join u ∨ i = .joinClose u
        · obtain ⟨u,hu⟩ := hj
          exact joined_moves h hcode hl hu
        · exact unjoined_moves h.sole h.shape hcode hl
            (fun u => ⟨fun he => hj ⟨u,.inl he⟩,fun he => hj ⟨u,.inr he⟩⟩) hr

end Progress

section Settles
variable {certificate : RTCCertificate} {ok : Label → Config → Prop} {c : Config}

/-- What becomes of a runtime that is left to itself. -/
structure Settles (c : Config) : Prop where
  /-- Its tasks have only so much to do, timeouts and aborts included, whatever is polled. -/
  bounded : ∀ n d, Takes step IsTask Working c n d → n ≤ work c
  /-- As long as it has something to do, some task can go on. -/
  alive : ∀ d, Reaches step IsTask c d → Quiet d ∨ Moves d
  /-- A library that answers lets it come to rest. -/
  settles : ∃ d, Reaches step Responding c d ∧ Quiet d

/-- What has become of the commands. -/
inductive Served (c : Config) : Prop
  | waiting (code : c.tasks 0 = [.receive]) (all : ∀ command ∈ c.shared.history.submitted,
      0 < completions command.operation_handle c.shared)
  | ended (code : c.tasks 0 = []) (dispatched : ∀ u command, c.shared.command u = some command →
      0 < completions command.operation_handle c.shared ∨
        c.shared.aborted u = true ∨ c.shared.stopped = true)

lemma Quiet.ended {u : ℕ} (h : Quiet c) (hu : Ending u c) : c.tasks u = [] := by
  obtain hnil | ⟨i,rest,head,hi⟩ | ⟨rfl,-⟩ := h u
  · exact hnil
  · exact absurd (hu.code i (by simp [head])) (by simp [hi])
  · exact absurd rfl hu.ne

lemma Quiet.answered {u : ℕ} {op : UInt64} (h : Quiet c) (hu : Ending u c) (hd : Duty c u op) :
    0 < completions op c.shared ∨ c.shared.aborted u = true ∨ c.shared.stopped = true := by
  have hnil := h.ended hu
  cases hd with
  | executing pre hc => simp [hnil] at hc
  | posting result hc => simp [hnil] at hc
  | answered _ hsent => exact .inl hsent
  | dropped _ hdrop => exact .inr hdrop

/-- The controller does not listen to channels. -/
lemma Phase.listens (h : Phase c) : ∀ j ∈ c.tasks 0, j.listens = false := by
  cases h with
  | receiving code => simp [code,Instr.listens]
  | joining op left code =>
    rw [code]
    intro j hj
    simp only [List.mem_append,List.mem_map,List.mem_cons,List.not_mem_nil,or_false] at hj
    obtain ⟨u,-,rfl⟩ | rfl | rfl := hj <;> rfl
  | closing op pre code hpre =>
    rw [code]
    cases hpre with
    | spawning => simp [Instr.listens]
    | joining =>
      intro j hj
      simp only [List.mem_append,List.mem_map,List.mem_cons,List.not_mem_nil,or_false] at hj
      obtain (⟨u,-,rfl⟩ | rfl) | rfl := hj <;> rfl
  | succeeded op value code =>
    obtain code | code | ⟨code | code,-⟩ := code <;> simp [code,Instr.listens]
  | failed op error code =>
    intro j hj
    have hmem := code.subset hj
    simp only [List.mem_cons,List.not_mem_nil,or_false] at hmem
    obtain rfl | rfl | rfl | rfl := hmem <;> rfl

lemma served (h : Reachable certificate NoPanic c) (hq : Quiet c) : Served c := by
  have hphase := phase_of_reachable h
  have hduty := (duties_of_reachable h).duty
  have hjoins := joins_of_reachable h
  have hanswered : ∀ u command, c.shared.command u = some command →
      0 < completions command.operation_handle c.shared ∨
        c.shared.aborted u = true ∨ c.shared.stopped = true := fun u command hu =>
    hq.answered (hjoins.commands u (by simp [hu])) (hduty u command hu)
  obtain hnil | ⟨i,rest,head,hi⟩ | ⟨-,hcode,hcommands⟩ := hq 0
  · exact .ended hnil hanswered
  · exact absurd (hphase.listens i (by simp [head])) (by simp [hi])
  · refine .waiting hcode fun command hmem => ?_
    cases hphase with
    | receiving _ live books =>
      obtain hqueue | ⟨u,hu⟩ | htaken := books.queue command hmem
      · rw [hcommands] at hqueue
        cases hqueue
      · obtain hsent | haborted | hstopped := hanswered u command hu
        · exact hsent
        · exact absurd haborted (by simp [live.aborted u])
        · exact absurd hstopped (by simp [live.stopped])
      · cases htaken
    | joining op left code =>
      have hlast := congrArg List.getLast? (hcode.symm.trans code)
      simp at hlast
    | closing op pre code =>
      have hlast := congrArg List.getLast? (hcode.symm.trans code)
      simp at hlast
    | succeeded op value code =>
      rw [hcode] at code
      simp at code
    | failed op error code =>
      rw [hcode] at code
      have hmem := code.subset (List.mem_singleton_self _)
      simp at hmem

theorem settles_of_waitInv (h : WaitInv c) : Settles c := by
  have hI : ∀ {ok' : Label → Config → Prop} l (d d' : Config), WaitInv d → ok' l d →
      step l d = some d' → WaitInv d' := fun _ _ _ hd _ hs => waitInv_step hd hs
  have hwork : ∀ l (d d' : Config), WaitInv d → Working l d → step l d = some d' →
      work d' < work d := by
    rintro _ d d' hd ⟨t,x,i,rest,rfl,head,hl⟩ hs
    exact (work_taskStep hd.receiving hd.spawned (Machine.taskStep_of_stepTask hs) head).2 hl
  refine ⟨fun n d hd => ?_,fun d hd => ?_,?_⟩
  · refine (Nat.le_add_right n _).trans (hd.add_le h hI ?_ fun l d d' hd _ => hwork l d d' hd).2
    rintro _ d d' hd ⟨t,x,rfl⟩ hs
    have ht := Machine.taskStep_of_stepTask hs
    obtain ⟨i,rest,-,-,-,head,-,-⟩ := shared_of_taskStep ht
    exact (work_taskStep hd.receiving hd.spawned ht head).1
  · exact quiet_or_moves (hd.invariant h fun _ _ _ hI _ hs => waitInv_step hI hs)
  · obtain ⟨d,hd,-,hq⟩ : ∃ d, Reaches step Responding c d ∧ WaitInv d ∧ Quiet d :=
      exists_rest h hI (fun l d d' hd hl => hwork l d d' hd hl.1) fun d hd => quiet_or_moves hd
    exact ⟨d,hd,hq⟩

/-- In every reachable state the tasks of a runtime have only so much left to do, whatever order
they run in, and they never wait for each other in vain; so a runtime that is left to itself, with a
library that answers, comes to rest. At rest every command is complete, or the runtime has been shut
down. -/
theorem runtime_settles (h : Reachable certificate ok c) :
    Settles c ∧ ((∀ l d, ok l d → NoPanic l d) → Quiet c → Served c) :=
  ⟨settles_of_waitInv (waitInv_of_reachable h),fun hok hq => served (h.weaken hok) hq⟩

end Settles

section Witness

/-- A channel that has not been opened yet. -/
def unopened : ChannelAttributes where
  label := ""
  protocol := ""
  ordered := true
  id := 1
  negotiated := false
  max_packet_life_time := none
  max_retransmits := none
  isOpen := false

/-- A peer and a channel are created; the statistics of the peer do not come in time. -/
def settlingRun : List Label :=
  [.submit twoPortsCommand,.task 0 .ok] ++ secondPortRun ++ [.task 1 .ok,.task 1 .ok] ++
    [.submit { operation_handle := 8, timeout := ⟨1000⟩
               operation := .createDataChannel 1 ⟨"",true,none,none,"",none⟩ },.task 0 .ok,
      .task 2 .ok,.task 2 .ok,.task 2 (.channel ⟨1,0,0,false⟩),.task 2 .ok,
      .task 2 (.attributes unopened)] ++ List.replicate 5 (.task 2 .ok) ++
    [.submit { operation_handle := 9, timeout := ⟨1000⟩, operation := .getStats 1 },.task 0 .ok,
      .task 4 .ok,.task 4 .ok,.task 4 .expire,.task 4 .ok,.task 4 .ok]

/-- The tasks of the commands have ended, and that of the channel polls it. -/
def settled (c : Config) : Bool :=
  decide (c.shared.nextTask = 5 ∧ c.shared.commands = []) &&
    (match c.tasks 0,c.tasks 3 with
      | [.receive],.poll _ _ :: _ => true
      | _,_ => false) &&
    [1,2,4].all fun t => (c.tasks t).isEmpty

lemma quiet_of_settled {certificate : RTCCertificate} {ok : Label → Config → Prop} {c : Config}
    (h : Reachable certificate ok c) (hs : settled c = true) : Quiet c := by
  simp only [settled,Bool.and_eq_true,decide_eq_true_eq,List.all_cons,List.all_nil,
    List.isEmpty_iff,and_true] at hs
  obtain ⟨⟨⟨hnext,hcommands⟩,hcode⟩,h₁,h₂,h₄⟩ := hs
  split at hcode
  · next i rest hcontroller hpoll =>
    intro t
    obtain rfl | rfl | rfl | rfl | rfl | ht :
      t = 0 ∨ t = 1 ∨ t = 2 ∨ t = 3 ∨ t = 4 ∨ 5 ≤ t := by omega
    · exact .inr (.inr ⟨rfl,hcontroller,hcommands⟩)
    · exact .inl h₁
    · exact .inl h₂
    · exact .inr (.inl ⟨_,_,hpoll,rfl⟩)
    · exact .inl h₄
    · exact .inl ((spawned_of_reachable h).idle t (hnext ▸ ht))
  · cases hcode

theorem runtime_settles_timedOut : ∃ c, Reachable ⟨"",[]⟩ NoPanic c ∧ Settles c ∧ Quiet c ∧
    Served c ∧ c.shared.registry.peers.keys = [1] ∧ c.shared.registry.channels.keys = [2] ∧
      [7,8,9].map (completions · c.shared) = [1,1,1] := by
  have hrun : (Interleaving.run guarded settlingRun (init ⟨"",[]⟩)).map (fun c =>
      (settled c,c.shared.registry.peers.keys,c.shared.registry.channels.keys,
        [7,8,9].map (completions · c.shared))) = some (true,[1],[2],[1,1,1]) := by rfl
  obtain ⟨c,hc,hseen⟩ := Option.map_eq_some_iff.mp hrun
  obtain ⟨hrest,hseen⟩ := Prod.mk.inj hseen
  obtain ⟨hpeers,hseen⟩ := Prod.mk.inj hseen
  obtain ⟨hchannels,hcompletions⟩ := Prod.mk.inj hseen
  have hreach : Reachable ⟨"",[]⟩ NoPanic c := reaches_of_checked noPanic_sound hc
  have hquiet := quiet_of_settled hreach hrest
  obtain ⟨hsettles,hserved⟩ := runtime_settles hreach
  exact ⟨c,hreach,hsettles,hquiet,hserved (fun _ _ h => h) hquiet,hpeers,hchannels,hcompletions⟩

end Witness
end Kestara.Native
