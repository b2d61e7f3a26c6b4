import Kestara.Library.Charges
import Kestara.Native.ShutdownPhases
import Kestara.Native.PortSearch

/-!
# No peer escapes closing

A peer that has been registered is still in the registry of a running runtime, or a task is going
to close it, or it has been closed. That fails where a task is cut off that has taken the peer out
of the registry, or where the runtime gives up waiting for its operations.
-/
namespace Kestara.Native
open Interleaving

/-- The instruction leads to `close` of a peer that is not in the registry. -/
def Instr.closes (p : PeerRef) : Instr → Bool
  | .lock peer .closePeer | .closePeer peer => peer = p
  | .spawnCloses peers _ => peers.any (·.peer = p)
  | _ => false

/-- The peer has not escaped. -/
def Attended (p : PeerRef) (c : Config) : Prop :=
  (c.tasks 0 ≠ [] ∧ ∃ h e, c.shared.registry.peers.lookup h = some e ∧ e.peer = p) ∨
    (∃ u, ∃ j ∈ c.tasks u, j.closes p = true) ∨ (c.shared.peer p).closed = true

/-- The step does not cut off a task that has taken a peer out of the registry, the controller does
not give up waiting for an operation, and no peer is entered in place of another. -/
def Uncut (l : Label) (c : Config) : Prop :=
  ∀ t x i rest, l = .task t x → c.tasks t = i :: rest →
    (∀ p, i = .lock p .closePeer → x ≠ .expire ∧ x ≠ .drop) ∧
    (∀ u, i = .join u → x ≠ .expire) ∧
    ∀ h p capacity, i = .insertPeer h p capacity → c.shared.registry.peers.lookup h = none

section Ends
variable {x : Choice} {t : ℕ} {s : RuntimeState} {i : Instr} {o : Outcome} {c c' : Config}
  {l : Label}

/-- `finish` is the last instruction of a task, and leaves nothing. -/
structure Ends (c : Config) : Prop where
  last : ∀ u, ∀ j ∈ (c.tasks u).dropLast, j ≠ .finish
  idle : ∀ u, c.shared.finished u = true → c.tasks u = []
  fresh : ∀ u : ℕ, c.shared.nextTask ≤ u → c.shared.finished u = false

lemma unfinished_of_does (h : Does t s i o) : ∀ j ∈ codeOf o, j ≠ .finish := by
  cases h with
  | lock peer body => cases body <;> simp [codeOf,Locked.first]
  | insertChannel handle peer_handle channel emit attributes =>
    cases emit <;> simp [codeOf,insertChannel]
  | shutdown | spawned =>
    rintro j hj rfl
    simp [codeOf] at hj
  | _ => simp [codeOf]

lemma mem_dropLast_append {code rest : List Instr} {j : Instr}
    (hj : j ∈ (code ++ rest).dropLast) : j ∈ code ∨ j ∈ rest.dropLast := by
  cases rest with
  | nil =>
    rw [List.append_nil] at hj
    exact .inl (List.dropLast_subset _ hj)
  | cons k rest =>
    rw [List.dropLast_append_of_ne_nil (by simp)] at hj
    exact List.mem_append.mp hj

lemma mem_dropLast_tail {i j : Instr} {rest : List Instr} (hj : j ∈ rest.dropLast) :
    j ∈ (i :: rest).dropLast := by
  cases rest with
  | nil => cases hj
  | cons k rest => exact List.mem_cons_of_mem _ hj

lemma finish_of_handler {e : Exit} {code : List Instr} (hc : machine.handler e i = some code)
    (hf : .finish ∈ code) : i = .finish := by
  simp only [machine,handler] at hc
  split at hc <;> cases hc <;> simp at hf
  rfl

lemma last_child {s' : RuntimeState} {code childCode : List Instr} {child : TaskId}
    (h : Does t s i (.fork s' code child childCode)) : ∀ j ∈ childCode.dropLast, j ≠ .finish := by
  cases h <;> simp

lemma last_unwind (e : Exit) {rest : List Instr} (hl : ∀ j ∈ rest.dropLast, j ≠ .finish)
    (s : RuntimeState) : ∀ j ∈ (machine.unwind e rest s).2.dropLast, j ≠ .finish := by
  induction rest generalizing s with
  | nil => simp [Machine.unwind]
  | cons i rest ih =>
    simp only [Machine.unwind]
    cases hc : machine.handler e i with
    | none => exact ih (fun j hj => hl j (mem_dropLast_tail hj)) _
    | some code =>
      cases rest with
      | nil =>
        simp only [machine,handler] at hc
        split at hc <;> cases hc <;> simp
      | cons k rest =>
        intro j hj
        obtain hj | hj := mem_dropLast_append hj
        · rintro rfl
          exact hl i (by simp) (finish_of_handler hc hj)
        · exact hl j (mem_dropLast_tail hj)

lemma last_taskStep (h : ∀ u, ∀ j ∈ (c.tasks u).dropLast, j ≠ .finish)
    (hs : Machine.TaskStep machine x t c c') : ∀ u, ∀ j ∈ (c'.tasks u).dropLast, j ≠ .finish := by
  intro u
  refine code_of_taskStep (P := fun code => ∀ j ∈ code.dropLast, j ≠ .finish) hs (h u) ?_ ?_ ?_
  · intro i rest o _ head he ho _ j hj
    obtain hj | hj := mem_dropLast_append hj
    · exact unfinished_of_does (does_of he ho) j hj
    · exact h t j (head ▸ mem_dropLast_tail hj)
  · exact fun _ hdoes => last_child hdoes
  · intro i rest s e _ head _
    exact last_unwind e (fun k hk => h t k (head ▸ mem_dropLast_tail hk)) s

lemma Ends.finish {rest : List Instr} (h : Ends c) (head : c.tasks t = .finish :: rest) :
    rest = [] := by
  cases rest with
  | nil => rfl
  | cons k rest => exact absurd rfl (h.last t .finish (by simp [head]))

lemma ends_step (h : Ends c) (hspawned : Spawned c) (hs : step l c = some c') : Ends c' := by
  have hfresh := fresh_step hspawned h.fresh hs
  have hlt : ∀ {u : ℕ}, c.shared.finished u = true → u < c.shared.nextTask := by
    intro u hf
    by_contra hle
    rw [h.fresh u (not_lt.mp hle)] at hf
    cases hf
  cases step_cases hs with
  | submit | completeError | callback => exact ⟨h.last,h.idle,hfresh⟩
  | announce peer channel hp =>
    refine ⟨fun u j hj => ?_,fun u hf => ?_,hfresh⟩
    · by_cases hu : u = c.shared.nextTask
      · subst hu
        simp at hj
        simp [hj]
      · exact h.last u j (by simpa [Function.update_of_ne hu] using hj)
    · simpa [Function.update_of_ne (Nat.ne_of_lt (hlt hf))] using h.idle u hf
  | @task t x _ ht =>
    refine ⟨last_taskStep h.last ht,fun u hf => ?_,hfresh⟩
    by_cases hu : u = t
    · subst hu
      obtain ⟨i,rest,o,locked,aborted,head,hdoes,hshared⟩ := shared_of_taskStep ht
      have hfin : i = .finish := by
        by_contra hne
        rw [hshared] at hf
        have hold := (congrFun (finished_of_does hdoes hne) u).symm.trans hf
        rw [h.idle u hold] at head
        cases head
      subst hfin
      cases h.finish head
      rw [(taskStep_plain ht head rfl rfl (by simp) rfl).2]
      simp
    · rw [finished_other hu ht] at hf
      rw [other_code (hlt hf) (fun y he => hu (by cases he; rfl)) hs]
      exact h.idle u hf

theorem ends_of_reachable {certificate : RTCCertificate} {ok : Label → Config → Prop}
    (h : Reachable certificate ok c) : Ends c := by
  refine h.induct (I := Ends) ⟨fun u j hj => ?_,fun u hf => ?_,fun _ _ => rfl⟩
    fun _ _ _ hd hI _ hs => ends_step hI (spawned_of_reachable hd) hs
  · simp only [init] at hj
    split_ifs at hj <;> cases hj
  · cases hf

end Ends
section Creates
variable {t : TaskId} {s : RuntimeState} {i : Instr} {o : Outcome}

/-- The instruction can lead to a new peer in the registry. -/
def Instr.creates : Instr → Bool
  | .execute _ | .bindPort _ _ _ _ | .buildPeer _ _ _ _ _ | .insertPeer _ _ _ => true
  | _ => false

lemma creates_of_does (h : Does t s i o) : ∀ j ∈ codeOf o, j.creates = true → i.creates = true := by
  cases h with
  | lock peer body => cases body <;> simp [codeOf,Locked.first,Instr.creates]
  | insertChannel handle peer_handle channel emit attributes =>
    cases emit <;> simp [codeOf,insertChannel,Instr.creates]
  | shutdown | spawned =>
    intro j hj hcreates
    simp only [codeOf,List.mem_append,List.mem_map,List.mem_cons,List.not_mem_nil,or_false] at hj
    obtain ⟨u,-,rfl⟩ | rfl | rfl := hj <;> cases hcreates
  | _ => simp [codeOf,Instr.creates]

lemma commandRule_creates :
    CommandRule fun command j => j.creates = true → command ≠ none where
  code hdoes hi j hj hcreates := hi (creates_of_does hdoes j hj hcreates)
  handler hc j hj hcreates := by
    simp only [machine,handler] at hc
    split at hc <;> cases hc <;> simp at hj
    · rw [hj] at hcreates
      cases hcreates
    · obtain rfl | rfl | rfl := hj <;> cases hcreates
    · obtain rfl | rfl | rfl | rfl := hj <;> cases hcreates
    · rw [hj] at hcreates
      cases hcreates
  dispatched command j _ _ := by simp
  spawned _ _ _ _ j hj hcreates := by
    simp only [List.mem_cons,List.not_mem_nil,or_false] at hj
    obtain rfl | rfl | rfl | rfl | rfl := hj <;> cases hcreates

end Creates

/-- The instructions of a controller that has cleared the registry. -/
def Instr.final : Instr → Bool
  | .spawnCloses _ _ | .joinClose _ | .shutDown | .graceful _ | .abort | .shutdownTimeout
  | .post _ _ | .stopReceiving => true
  | _ => false

/-- The operations that the controller knows of are those that still run. -/
def Running (s : RuntimeState) (tasks : TaskId → List Instr) (known : List TaskId) : Prop :=
  ∀ u, s.command u ≠ none → tasks u ≠ [] → u ∈ known

/-- The course of the controller, if it does not give up waiting for an operation. -/
inductive Course (c : Config) : Prop
  | receiving (code : c.tasks 0 = [.receive]) (live : Running c.shared c.tasks c.shared.operations)
  | joining (op) (left : List TaskId)
      (code : c.tasks 0 = left.map .join ++ [.clearRegistry,.graceful op])
      (live : Running c.shared c.tasks left)
  | cleared (code : ∀ j ∈ c.tasks 0, j.final = true) (live : Running c.shared c.tasks [])
      (empty : ∀ h, c.shared.registry.peers.lookup h = none)

section Course
variable {x : Choice} {c c' : Config} {l : Label} {known : List TaskId}

/-- No step of a task other than the controller makes a command run. -/
lemma Running.other (h : Running c.shared c.tasks known) (hspawned : Spawned c)
    (hcommand : c'.shared.command = c.shared.command) (hs : step l c = some c') :
    Running c'.shared c'.tasks known := by
  intro u hu hcode
  rw [hcommand] at hu
  have hlt : u < c.shared.nextTask := by
    by_contra hle
    exact hu (hspawned.command u (not_lt.mp hle))
  by_cases hl : ∃ x, l = .task u x
  · obtain ⟨x,rfl⟩ := hl
    refine h u hu fun hnil => ?_
    simp only [step,Machine.stepTask,hnil] at hs
    cases hs
  · rw [other_code hlt (fun x he => hl ⟨x,he⟩) hs] at hcode
    exact h u hu hcode

lemma final_of_does {t : TaskId} {s : RuntimeState} {i : Instr} {o : Outcome} (h : Does t s i o)
    (hi : i.final = true) :
    (after o s).command = s.command ∧ ∀ j ∈ codeOf o, j.final = true := by
  cases h with
  | findPeer hf =>
    cases i with
    | getPeer | execute => cases hi
    | _ => cases hf
  | spawned closes =>
    refine ⟨rfl,?_⟩
    intro j hj
    simp only [codeOf,List.mem_append,List.mem_map,List.mem_cons,List.not_mem_nil,or_false] at hj
    obtain ⟨u,-,rfl⟩ | rfl := hj <;> rfl
  | spawnClose => exact ⟨rfl,by simp [codeOf,Instr.final]⟩
  | leave | dropped | giveUp | skip | joined | post | abort | shutdownTimeout | stopReceiving =>
    exact ⟨rfl,by simp [codeOf]⟩
  | _ => cases hi

lemma final_of_handler {e : Exit} {k : Instr} {code : List Instr} (hk : k.final = true)
    (hc : machine.handler e k = some code) : ∀ j ∈ code, j.final = true := by
  simp only [machine,handler] at hc
  split at hc <;> cases hc
  · cases hk
  · simp [Instr.final]
  · simp [Instr.final]
  · cases hk

/-- No step of a cleared runtime enters a peer. -/
lemma empty_step (hempty : ∀ h, c.shared.registry.peers.lookup h = none)
    (hi : ∀ t x, l = .task t x → ∀ j ∈ c.tasks t, j.creates = false) (hs : step l c = some c') :
    ∀ h, c'.shared.registry.peers.lookup h = none := by
  intro h
  rw [Option.eq_none_iff_forall_ne_some]
  intro e he
  have hold : ∀ {e}, c.shared.registry.peers.lookup h ≠ some e := by simp [hempty h]
  cases step_cases hs with
  | submit | completeError | announce | callback => exact hold he
  | @task t x _ ht =>
    obtain ⟨i,hmem,hregistry⟩ := registryStep_of_taskStep ht
    obtain he | ⟨rfl,-⟩ := hregistry.peer_source he
    · exact hold he
    · cases hi t x rfl _ hmem

lemma Course.clear (hspawned : Spawned c) (hcode : ∀ j ∈ c.tasks 0, j.final = true)
    (live : Running c.shared c.tasks []) (hempty : ∀ h, c.shared.registry.peers.lookup h = none)
    (hs : step (.task 0 x) c = some c') : Course c' := by
  have ht := Machine.taskStep_of_stepTask (M := machine) hs
  have hno : ∀ t y, Label.task 0 x = .task t y → ∀ j ∈ c.tasks t, j.creates = false := by
    rintro t y he j hj
    cases he
    have hfinal := hcode j hj
    cases j <;> first | rfl | cases hfinal
  have hempty' := empty_step hempty hno hs
  have hcommand : c'.shared.command = c.shared.command := by
    obtain ⟨i,rest,o,locked,aborted,head,hdoes,hshared⟩ := shared_of_taskStep ht
    rw [hshared]
    exact (final_of_does hdoes (hcode i (by simp [head]))).1
  refine .cleared ?_ (live.other hspawned hcommand hs) hempty'
  exact forall_own ht hspawned.pos hcode (fun hdoes hi => (final_of_does hdoes hi).2)
    fun hc hi => final_of_handler hi hc

lemma Course.join {op : UInt64} {left : List TaskId} (hspawned : Spawned c) (hends : Ends c)
    (hcut : Uncut (.task 0 x) c) (code : c.tasks 0 = left.map .join ++ [.clearRegistry,.graceful op])
    (live : Running c.shared c.tasks left) (hs : step (.task 0 x) c = some c') : Course c' := by
  cases left with
  | nil =>
    obtain ⟨hshared,htasks⟩ :=
      taskStep_plain (Machine.taskStep_of_stepTask hs) code rfl rfl (by simp) rfl
    refine .cleared (by simp [htasks,Instr.final]) (live.other hspawned (by rw [hshared]; rfl) hs) ?_
    rw [hshared]
    exact fun _ => rfl
  | cons u left =>
    have head : c.tasks 0 = .join u :: (left.map .join ++ [.clearRegistry,.graceful op]) := by
      simp [code]
    obtain ⟨hf,hshared,hcode⟩ | ⟨hx,-⟩ := join_cases (.inl rfl) head hs
    · refine .joining op left hcode fun v hv hne => ?_
      have hmem := live.other hspawned (by rw [hshared]) hs v hv hne
      obtain rfl | hmem := List.mem_cons.mp hmem
      · have h0 : v ≠ 0 := by
          rintro rfl
          rw [hshared,hspawned.controller] at hv
          exact hv rfl
        have hlt : v < c.shared.nextTask := by
          by_contra hle
          rw [hshared,hspawned.command v (not_lt.mp hle)] at hv
          exact hv rfl
        rw [other_code hlt (fun y he => h0 (by cases he; rfl)) hs] at hne
        exact absurd (hends.idle v hf) hne
      · exact hmem
    · exact absurd hx ((hcut 0 x _ _ rfl head).2.1 u rfl)

lemma Course.receive (hspawned : Spawned c) (hends : Ends c) (code : c.tasks 0 = [.receive])
    (live : Running c.shared c.tasks c.shared.operations) (hs : step (.task 0 x) c = some c') :
    Course c' := by
  have hends' := ends_step hends hspawned hs
  have hunfinished : ∀ {u}, c'.tasks u ≠ [] → c'.shared.finished = c.shared.finished →
      (!c.shared.finished u) = true := by
    intro u hne hkept
    rw [Bool.not_eq_true']
    by_contra hf
    exact hne (hends'.idle u (by rw [hkept]; simpa using hf))
  obtain ⟨command,commands,-,⟨-,hshared,hcode⟩ | ⟨hshared,hcode⟩⟩ :=
    receive_cases hspawned code hs
  · refine .joining command.operation_handle _ hcode fun u hu hne => ?_
    have hmem := live.other hspawned (by rw [hshared]) hs u hu hne
    exact List.mem_filter.mpr ⟨hmem,hunfinished hne (by rw [hshared])⟩
  · refine .receiving hcode fun u hu hne => ?_
    rw [hshared] at hu ⊢
    by_cases hnew : u = c.shared.nextTask
    · exact List.mem_append_right _ (by simp [hnew])
    · simp only [Function.update_of_ne hnew] at hu
      have h0 : u ≠ 0 := by
        rintro rfl
        exact hu hspawned.controller
      have hlt : u < c.shared.nextTask := by
        by_contra hle
        exact hu (hspawned.command u (not_lt.mp hle))
      have hold := other_code hlt (fun y he => h0 (by cases he; rfl)) hs
      have hmem := live u hu (hold ▸ hne)
      exact List.mem_append_left _
        (List.mem_filter.mpr ⟨hmem,hunfinished hne (by rw [hshared])⟩)

theorem Course.step (h : Course c) (hspawned : Spawned c) (hends : Ends c) (hctrl : ControlOnly c)
    (hcreates : ∀ u, ∀ j ∈ c.tasks u, j.creates = true → c.shared.command u ≠ none)
    (hcut : Uncut l c) (hs : Native.step l c = some c') : Course c' := by
  by_cases hl : ∃ x, l = .task 0 x
  · obtain ⟨x,rfl⟩ := hl
    cases h with
    | receiving code live => exact .receive hspawned hends code live hs
    | joining op left code live => exact .join hspawned hends hcut code live hs
    | cleared code live hempty => exact .clear hspawned code live hempty hs
  · have hl : ∀ x, l ≠ .task 0 x := fun x he => hl ⟨x,he⟩
    have hcode := other_code hspawned.pos hl hs
    have hm := unmoved_of_step hctrl hl hs
    cases h with
    | receiving code live =>
      refine .receiving (hcode.trans code) ?_
      rw [hm.operations]
      exact live.other hspawned hm.command hs
    | joining op left code live =>
      exact .joining op left (hcode.trans code) (live.other hspawned hm.command hs)
    | cleared code live hempty =>
      refine .cleared (hcode ▸ code) (live.other hspawned hm.command hs)
        (empty_step hempty ?_ hs)
      rintro t x rfl j hj
      by_contra hj'
      have hcommand := hcreates t j hj (by simpa using hj')
      have hne : c.tasks t ≠ [] := List.ne_nil_of_mem hj
      cases live t hcommand hne

theorem course_of_reachable {certificate : RTCCertificate} (h : Reachable certificate Uncut c) :
    Course c := by
  refine h.induct (I := Course) (.receiving rfl fun u hu => absurd rfl hu) ?_
  intro l d d' hd hI hcut hs
  exact hI.step (spawned_of_reachable hd) (ends_of_reachable hd) (controlOnly_of_reachable hd)
    (commandRule_creates.of_reachable hd) hcut hs

end Course
/-- The peer is in the registry, or a task is going to close it, or it has been closed. -/
def Kept (p : PeerRef) (c : Config) : Prop :=
  (∃ h e, c.shared.registry.peers.lookup h = some e ∧ e.peer = p) ∨
    (∃ u, ∃ j ∈ c.tasks u, j.closes p = true) ∨ (c.shared.peer p).closed = true

/-- The invariant behind the peers: a peer that is on its way out of the registry is at the head of
a task. -/
structure PeerInv (c : Config) : Prop where
  built : ∀ u, ∀ j ∈ c.tasks u, ∀ h p capacity, j = .insertPeer h p capacity → p < c.shared.nextPeer
  known : ∀ t h p, ⟨t,h,.peer p⟩ ∈ c.shared.history.registered → p < c.shared.nextPeer
  heads : ∀ u p, ∀ j ∈ (c.tasks u).tail, j.closes p = false
  kept : ∀ t h p, ⟨t,h,.peer p⟩ ∈ c.shared.history.registered → Kept p c

section Kept
variable {x : Choice} {t : ℕ} {s s' : RuntimeState} {i : Instr} {o : Outcome} {c c' : Config}
  {l : Label} {p : PeerRef}

lemma nextPeer_of_does (h : Does t s i o) : s.nextPeer ≤ (after o s).nextPeer := by
  cases h
  case built => exact Nat.le_succ _
  all_goals exact le_rfl

lemma nextPeer_le (hs : step l c = some c') : c.shared.nextPeer ≤ c'.shared.nextPeer := by
  cases step_cases hs with
  | task ht =>
    obtain ⟨i,rest,o,locked,aborted,-,hdoes,hshared⟩ := shared_of_taskStep ht
    rw [hshared]
    exact nextPeer_of_does hdoes
  | submit | completeError | announce | callback => exact le_rfl

lemma closes_tail (h : Does t s i o) : ∀ j ∈ (codeOf o).tail, j.closes p = false := by
  cases h with
  | lock peer body => simp [codeOf,Instr.closes]
  | insertChannel handle peer_handle channel emit attributes =>
    cases emit <;> simp [codeOf,insertChannel,Instr.closes]
  | shutdown | spawned =>
    intro j hj
    have hmem := List.mem_of_mem_tail hj
    simp only [codeOf,List.mem_append,List.mem_map,List.mem_cons,List.not_mem_nil,or_false] at hmem
    obtain ⟨u,-,rfl⟩ | rfl | rfl := hmem <;> rfl
  | _ => simp [codeOf,Instr.closes]

lemma closes_of_handler {e : Exit} {k : Instr} {code : List Instr}
    (hc : machine.handler e k = some code) : ∀ j ∈ code, j.closes p = false := by
  simp only [machine,handler] at hc
  split at hc <;> cases hc <;> simp [Instr.closes]

lemma closes_child {s' : RuntimeState} {code childCode : List Instr} {child : TaskId}
    (h : Does t s i (.fork s' code child childCode)) :
    ∀ j ∈ childCode.tail, j.closes p = false := by
  cases h <;> simp [Instr.closes]

lemma mem_tail_append {code rest : List Instr} {j : Instr} (hj : j ∈ (code ++ rest).tail) :
    j ∈ code.tail ∨ j ∈ rest := by
  cases code with
  | nil => exact .inr (List.mem_of_mem_tail hj)
  | cons k code => exact List.mem_append.mp hj

lemma heads_taskStep (h : ∀ u p, ∀ j ∈ (c.tasks u).tail, j.closes p = false)
    (hs : Machine.TaskStep machine x t c c') :
    ∀ u p, ∀ j ∈ (c'.tasks u).tail, j.closes p = false := by
  intro u p
  refine code_of_taskStep (P := fun code => ∀ j ∈ code.tail, j.closes p = false) hs (h u p) ?_ ?_ ?_
  · intro i rest o _ head he ho _ j hj
    obtain hj | hj := mem_tail_append hj
    · exact closes_tail (does_of he ho) j hj
    · exact h t p j (by simp [head,hj])
  · exact fun _ hdoes => closes_child hdoes
  · intro i rest s e _ head _ j hj
    obtain hj | ⟨k,-,code,hc,hj⟩ := Machine.mem_unwind (List.mem_of_mem_tail hj)
    · exact h t p j (by simp [head,hj])
    · exact closes_of_handler hc j hj

/-- A peer that is taken out of the registry is going to be closed. -/
lemma kept_registered {h : UInt64} {e : PeerEntry} {rest : List Instr}
    (hk : c.shared.registry.peers.lookup h = some e) (hp : e.peer = p)
    (head : c.tasks t = i :: rest)
    (hinsert : ∀ h p capacity, i = .insertPeer h p capacity →
      c.shared.registry.peers.lookup h = none)
    (hs : Machine.TaskStep machine x t c c') : Kept p c' := by
  cases hs with
  | @next i' rest' s code head' he =>
    obtain ⟨rfl,rfl⟩ := List.cons.inj (head.symm.trans head')
    cases does_of he (by simp) with
    | removePeer peer_handle entry hentry =>
      by_cases hh : h = peer_handle
      · subst hh
        cases hk.symm.trans hentry
        exact .inr (.inl ⟨t,.lock e.peer .closePeer,by simp,by simp [Instr.closes,hp]⟩)
      · refine .inl ⟨h,e,?_,hp⟩
        simp only [RuntimeState.setRegistry,Registry.removePeer,LinkedMap.lookup_erase,if_neg hh]
        exact hk
    | clearRegistry =>
      refine .inr (.inl ⟨t,_,by simp; exact .inl rfl,?_⟩)
      simp only [Instr.closes,List.any_eq_true,decide_eq_true_eq]
      exact ⟨e,LinkedMap.mem_values_of_lookup hk,hp⟩
    | _ => exact .inl ⟨h,e,hk,hp⟩
  | fork head' he =>
    obtain ⟨rfl,rfl⟩ := List.cons.inj (head.symm.trans head')
    cases does_of he (by simp) with
    | _ => exact .inl ⟨h,e,hk,hp⟩
  | @throw i' rest' s exit head' he =>
    obtain ⟨rfl,rfl⟩ := List.cons.inj (head.symm.trans head')
    have hregistry : s.registry.peers.lookup h = some e := by
      cases does_of he (by simp) with
      | noPeer peer_handle hnone =>
        have hne : h ≠ peer_handle := by
          rintro rfl
          rw [hk] at hnone
          cases hnone
        simp only [RuntimeState.setRegistry,Registry.removePeer,LinkedMap.lookup_erase,if_neg hne]
        exact hk
      | insertPeer handle peer capacity =>
        have hne : h ≠ handle := by
          rintro rfl
          rw [hinsert h peer capacity rfl] at hk
          cases hk
        simp only [RuntimeState.record,RuntimeState.setRegistry,LinkedMap.lookup_insert,if_neg hne]
        exact hk
      | _ => exact hk
    obtain ⟨locked,aborted,hu⟩ := unwind_kept exit rest s
    refine .inl ⟨h,e,?_,hp⟩
    rw [hu]
    exact hregistry

/-- A task that is going to close the peer does so, or leaves it to another. -/
lemma closes_exec (hi : i.closes p = true)
    (hcut : ∀ p, i = .lock p .closePeer → x ≠ .expire ∧ x ≠ .drop) :
    Machine.PassesOn (fun j : Instr => j.closes p = true)
      (fun s : RuntimeState => (s.peer p).closed = true) (exec x t i s) := by
  cases i with
  | lock peer body =>
    cases body with
    | closePeer =>
      obtain ⟨he,hd⟩ := hcut peer rfl
      rw [exec_eq_run he hd]
      simp only [run,lock]
      split_ifs with hl
      · trivial
      · exact .inl ⟨.closePeer peer,by simp [Locked.first],hi⟩
    | _ => cases hi
  | closePeer peer =>
    obtain h | h := exec_plain (x := x) (t := t) (i := .closePeer peer) (s := s) rfl rfl (by simp)
    · rw [h]
      trivial
    · have hpeer : peer = p := by simpa [Instr.closes] using hi
      rw [h]
      exact .inr (by simp [hpeer])
  | spawnCloses peers closes =>
    obtain h | h := exec_plain (x := x) (t := t) (i := .spawnCloses peers closes) (s := s) rfl rfl
      (by simp)
    · rw [h]
      trivial
    · rw [h]
      cases peers with
      | nil => cases hi
      | cons entry peers =>
        obtain hp | hp := by simpa [Instr.closes] using hi
        · exact .inr (.inl ⟨.lock entry.peer .closePeer,by simp,by simp [Instr.closes,hp]⟩)
        · exact .inl ⟨.spawnCloses peers (closes ++ [s.nextTask]),by simp,
            by simpa [Instr.closes] using hp⟩
  | _ => cases hi

lemma closed_of_does (h : Does t s i o) (hp : p < s.nextPeer) (hc : (s.peer p).closed = true) :
    ((after o s).peer p).closed = true := by
  cases h
  case built => simpa [after,Function.update_of_ne (Nat.ne_of_lt hp)] using hc
  case closePeer peer =>
    by_cases hpeer : p = peer
    · simp [after,hpeer]
    · simpa [after,Function.update_of_ne hpeer] using hc
  all_goals exact hc

/-- A peer that is kept stays kept, in a step that cuts nothing off. -/
lemma Kept.task (h : Kept p c) (hspawned : Spawned c) (hp : p < c.shared.nextPeer)
    (hheads : ∀ j ∈ (c.tasks t).tail, j.closes p = false) (hcut : Uncut (.task t x) c)
    (hstep : step (.task t x) c = some c') : Kept p c' := by
  have hs := Machine.taskStep_of_stepTask (M := machine) hstep
  have hclosed : (c.shared.peer p).closed = true → (c'.shared.peer p).closed = true := by
    intro hc
    obtain ⟨i,rest,o,locked,aborted,-,hdoes,hshared⟩ := shared_of_taskStep hs
    rw [hshared]
    exact closed_of_does hdoes hp hc
  obtain ⟨h,e,hk,he⟩ | ⟨u,j,hj,hcloses⟩ | hc := h
  · obtain ⟨i,rest,o,locked,aborted,head,-,-⟩ := shared_of_taskStep hs
    exact kept_registered hk he head (hcut t x i rest rfl head).2.2 hs
  · refine .inr (hs.passesOn (D := fun j => j.closes p = true)
      (G := fun s => (s.peer p).closed = true) (fun _ _ _ _ _ => hspawned.forks) ?_ ?_ ?_ hj hcloses)
    · exact fun i rest head hi => closes_exec hi (hcut t x i rest rfl head).1
    · rintro i rest head ⟨k,hk,hk'⟩
      rw [hheads k (by simpa [head] using hk)] at hk'
      cases hk'
    · intro i s hc
      cases i <;> exact hc
  · exact .inr (.inr (hclosed hc))

lemma built_of_does (h : Does t s i o)
    (hi : ∀ h p capacity, i = .insertPeer h p capacity → p < s.nextPeer) :
    ∀ j ∈ codeOf o, ∀ h p capacity, j = .insertPeer h p capacity → p < (after o s).nextPeer := by
  cases h with
  | built handle configuration port ports certificate =>
    simp only [codeOf,List.mem_singleton,after]
    rintro j rfl h p capacity he
    cases he
    exact Nat.lt_succ_self _
  | lock peer body => cases body <;> simp [codeOf,Locked.first]
  | insertChannel handle peer_handle channel emit attributes =>
    cases emit <;> simp [codeOf,insertChannel]
  | shutdown | spawned =>
    rintro j hj h p capacity rfl
    simp [codeOf] at hj
  | _ => simp [codeOf]

lemma built_taskStep
    (h : ∀ u, ∀ j ∈ c.tasks u, ∀ h p capacity, j = .insertPeer h p capacity → p < c.shared.nextPeer)
    (hs : Machine.TaskStep machine x t c c') :
    ∀ u, ∀ j ∈ c'.tasks u, ∀ h p capacity, j = .insertPeer h p capacity → p < c'.shared.nextPeer := by
  refine hs.assertions (A := fun s _ j => ∀ h p capacity, j = .insertPeer h p capacity →
    p < s.nextPeer) h ?_ ?_ ?_
  · intro i rest s code head he
    have hdoes := does_of he (by simp)
    exact ⟨built_of_does hdoes (h t i (by simp [head])),
      fun u j _ hj k p capacity hins => (hj k p capacity hins).trans_le (nextPeer_of_does hdoes)⟩
  · intro i rest s code child childCode head he
    have hdoes := does_of he (by simp)
    refine ⟨built_of_does hdoes (h t i (by simp [head])),?_,
      fun u j _ hj k p capacity hins => (hj k p capacity hins).trans_le (nextPeer_of_does hdoes)⟩
    cases hdoes <;> simp
  · intro i rest s e head he
    have hle := nextPeer_of_does (does_of he (by simp))
    obtain ⟨locked,aborted,hu⟩ := unwind_kept e rest s
    rw [hu]
    refine ⟨fun k _ _ code hc j hj h p capacity hins => ?_,
      fun u j _ hj k p capacity hins => (hj k p capacity hins).trans_le hle⟩
    subst hins
    simp only [machine,handler] at hc
    split at hc <;> cases hc <;> simp at hj

theorem peerInv_step (h : PeerInv c) (hspawned : Spawned c) (hcut : Uncut l c)
    (hs : step l c = some c') : PeerInv c' := by
  have hle := nextPeer_le hs
  cases step_cases hs with
  | submit | completeError => exact ⟨h.built,h.known,h.heads,h.kept⟩
  | callback => exact ⟨h.built,h.known,h.heads,h.kept⟩
  | announce peer channel hp =>
    refine ⟨fun u j hj => ?_,h.known,fun u p j hj => ?_,fun t k p hr => ?_⟩
    · by_cases hu : u = c.shared.nextTask
      · subst hu
        simp only [Function.update_self,List.mem_cons,List.not_mem_nil,or_false] at hj
        obtain rfl | rfl := hj <;> simp
      · exact h.built u j (by simpa [Function.update_of_ne hu] using hj)
    · by_cases hu : u = c.shared.nextTask
      · subst hu
        simp only [Function.update_self,List.tail_cons,List.mem_singleton] at hj
        rw [hj]
        rfl
      · exact h.heads u p j (by simpa [Function.update_of_ne hu] using hj)
    · obtain hk | ⟨u,j,hj,hcloses⟩ | hk := h.kept t k p hr
      · exact .inl hk
      · have hne : u ≠ c.shared.nextTask := Nat.ne_of_lt (hspawned.lt hj)
        exact .inr (.inl ⟨u,j,by simpa [Function.update_of_ne hne] using hj,hcloses⟩)
      · exact .inr (.inr hk)
  | @task t x _ ht =>
    have hregistered : ∀ {u k p}, ⟨u,k,.peer p⟩ ∈ c'.shared.history.registered →
        ⟨u,k,.peer p⟩ ∈ c.shared.history.registered ∨
          p < c.shared.nextPeer ∧ ∃ e, c'.shared.registry.peers.lookup k = some e ∧ e.peer = p := by
      intro u k p hr
      obtain ⟨i,hi,hregistry⟩ := registryStep_of_taskStep ht
      cases hregistry with
      | keep hreg hh | removeChannel _ _ hreg hh | removePeer _ _ hreg hh | clear _ hreg hh =>
        exact .inl (hh ▸ hr)
      | insertChannel handle peer_handle channel emit attributes _ hreg hh =>
        rw [hh] at hr
        exact .inl (by simpa using hr)
      | insertPeer handle peer capacity hins hreg hh =>
        rw [hh] at hr
        obtain hr | hr := List.mem_append.mp hr
        · exact .inl hr
        · cases List.mem_singleton.mp hr
          refine .inr ⟨h.built t i hi _ _ _ hins,⟨p,capacity⟩,?_,rfl⟩
          rw [hreg,LinkedMap.lookup_insert]
          simp
    refine ⟨built_taskStep h.built ht,fun u k p hr => ?_,heads_taskStep h.heads ht,
      fun u k p hr => ?_⟩
    · obtain hr | ⟨hp,-⟩ := hregistered hr
      · exact (h.known u k p hr).trans_le hle
      · exact hp.trans_le hle
    · obtain hr | ⟨-,e,he,hp⟩ := hregistered hr
      · exact (h.kept u k p hr).task hspawned (h.known u k p hr) (h.heads t p) hcut hs
      · exact .inl ⟨k,e,he,hp⟩

theorem peerInv_of_reachable {certificate : RTCCertificate} (h : Reachable certificate Uncut c) :
    PeerInv c := by
  refine h.induct (I := PeerInv) ⟨fun u j hj => ?_,fun _ _ _ hr => ?_,fun u p j hj => ?_,
    fun _ _ _ hr => ?_⟩ fun l d d' hd hI hcut hs => peerInv_step hI (spawned_of_reachable hd) hcut hs
  · simp only [init] at hj
    split_ifs at hj
    · rw [List.mem_singleton.mp hj]
      simp
    · cases hj
  · cases hr
  · simp only [init] at hj
    split_ifs at hj <;> cases hj
  · cases hr

/-- A registered peer is never left behind open: it is in the registry of a runtime that has not
ended, or a task is about to close it, or it has been closed. -/
theorem peers_attended {certificate : RTCCertificate} (h : Reachable certificate Uncut c) :
    ∀ t k p, ⟨t,k,.peer p⟩ ∈ c.shared.history.registered → Attended p c := by
  intro t k p hr
  obtain ⟨k',e,hk,hp⟩ | hkept := (peerInv_of_reachable h).kept t k p hr
  · refine .inl ⟨fun hnil => ?_,k',e,hk,hp⟩
    cases course_of_reachable h with
    | receiving code => rw [hnil] at code; cases code
    | joining op left code =>
      rw [hnil] at code
      cases left <;> cases code
    | cleared code live hempty =>
      rw [hempty k'] at hk
      cases hk
  · exact .inr hkept

end Kept

section Witness

/-- The labels that `Uncut` admits. -/
def uncut (l : Label) (c : Config) : Bool :=
  match l with
  | .task t x =>
    match c.tasks t,x with
    | .lock _ .closePeer :: _,.expire | .lock _ .closePeer :: _,.drop | .join _ :: _,.expire => false
    | .insertPeer h _ _ :: _,_ => decide (c.shared.registry.peers.lookup h = none)
    | _,_ => true
  | _ => true

lemma uncut_sound (l : Label) (c : Config) (h : uncut l c = true) : Uncut l c := by
  rintro t x i rest rfl head
  refine ⟨?_,?_,?_⟩
  · rintro p rfl
    constructor <;> rintro rfl <;> simp [uncut,head] at h
  · rintro u rfl rfl
    simp [uncut,head] at h
  · rintro k p capacity rfl
    simpa [uncut,head] using h

def closingCommands : List Label :=
  [.submit { operation_handle := 8, timeout := ⟨1000⟩, operation := .createDescription 1 true },
    .submit { operation_handle := 9, timeout := ⟨1000⟩, operation := .closePeer 1 }]

/-- Close a peer while a description is being created under its lock. -/
def closingRun : List Label :=
  [.submit twoPortsCommand,.task 0 .ok] ++ secondPortRun ++ closingCommands ++
    [.task 0 .ok,.task 0 .ok,.task 2 .ok,.task 2 .ok,.task 3 .ok]

theorem peers_attended_closing : ∃ c, Reachable ⟨"",[]⟩ Uncut c ∧
    ⟨1,1,.peer 0⟩ ∈ c.shared.history.registered ∧ c.shared.registry.peers.lookup 1 = none ∧
      (c.shared.peer 0).closed = false ∧ Attended 0 c := by
  have hrun : (Interleaving.run (fun l c => if uncut l c then step l c else none) closingRun
      (init ⟨"",[]⟩)).map (fun c => (c.shared.history.registered,
        c.shared.registry.peers.lookup 1,(c.shared.peer 0).closed)) =
      some ([⟨1,1,.peer 0⟩],none,false) := by rfl
  obtain ⟨c,hc,hseen⟩ := Option.map_eq_some_iff.mp hrun
  obtain ⟨hregistered,hseen⟩ := Prod.mk.inj hseen
  obtain ⟨hgone,hopen⟩ := Prod.mk.inj hseen
  have hreach : Reachable ⟨"",[]⟩ Uncut c := reaches_of_checked uncut_sound hc
  have hin : ⟨1,1,.peer 0⟩ ∈ c.shared.history.registered := by simp [hregistered]
  exact ⟨c,hreach,hin,hgone,hopen,peers_attended hreach 1 1 0 hin⟩

end Witness
end Kestara.Native
