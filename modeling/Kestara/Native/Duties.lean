import Kestara.Native.Completions

/-!
# The duties of the tasks of commands

The task of a command runs the function of the command and then sends its completion, unless the
task is dropped.
-/
namespace Kestara.Native
open Interleaving

/-- The instructions of the controller and of its shutdown. -/
def Instr.control : Instr → Bool
  | .receive | .join _ | .clearRegistry | .spawnCloses _ _ | .joinClose _ | .shutDown | .graceful _
  | .abort | .shutdownTimeout | .stopReceiving => true
  | _ => false

/-- The instructions of the functions that tasks run. -/
def Instr.inner : Instr → Bool
  | .dispatched _ | .post _ _ | .finish => false
  | i => !i.control

/-- The instructions after which a function returns a result. -/
def Instr.returns : Instr → Bool
  | .execute _ | .bindPort _ _ _ _ | .buildPeer _ _ _ _ _ | .insertPeer _ _ _ | .getPeer _ _
  | .lock _ _ | .call _ _ | .request _ | .createChannel _ _ | .awaitHigh | .closeChannel _
  | .awaitChannelClosed | .closePeer _ | .awaitPeerClosed | .registerChannel _ _ _
  | .readAttributes _ _ _ _ | .insertChannel _ _ _ _ _ | .startPolling _ _ _
  | .returnChannel _ _ => true
  | _ => false

section Does
variable {t : ℕ} {s : RuntimeState} {i : Instr} {o : Outcome}

lemma returns_first (peer : PeerRef) (body : Locked) : (body.first peer).returns = true := by
  cases body <;> rfl

lemma inner_of_does (h : Does t s i o) (hi : i.inner = true) :
    ∀ j ∈ codeOf o, j.inner = true := by
  cases h with
  | lock peer body hl => cases body <;> simp [codeOf,Locked.first,Instr.inner,Instr.control]
  | insertChannel handle peer_handle channel emit attributes =>
    cases emit <;> simp [codeOf,insertChannel,Instr.inner,Instr.control]
  | shutdown | dispatch | clearRegistry | spawned | spawnClose => cases hi
  | _ => simp [codeOf,Instr.inner,Instr.control]

lemma returns_of_does (h : Does t s i o) (hi : i.returns = true)
    (ho : ∀ s' e, o ≠ .throw s' e) : ∃ j ∈ codeOf o, j.returns = true := by
  cases h with
  | lock peer body hl => exact ⟨_,by simp [codeOf],returns_first peer body⟩
  | findThresholds => exact ⟨.awaitHigh,by simp [codeOf],rfl⟩
  | insertChannel handle peer_handle channel emit attributes =>
    exact ⟨.startPolling handle peer_handle channel,by simp [codeOf,insertChannel],rfl⟩
  | leave | dropped | panicked | rotate | noPeer | insertPeer => exact absurd rfl (ho _ _)
  | skip hskip =>
    obtain ⟨op,rfl⟩ | ⟨op,rfl⟩ := hskip <;> cases hi
  | joined task hjoin =>
    obtain rfl | rfl := hjoin <;> cases hi
  | giveUp | unlock | setLow | awaitLow | setHigh | accept | sendCreated | polled | closed | ended
  | received | deliver | removePolled | post | finish | shutdown | dispatch | clearRegistry
  | spawned | spawnClose | abort | shutdownTimeout | stopReceiving => cases hi
  | _ => exact ⟨_,by simp [codeOf]; rfl,rfl⟩

lemma handler_inner (e : Exit) (hi : i.inner = true) : machine.handler e i = none := by
  cases i <;> first | exact absurd hi Bool.false_ne_true | simp [machine,handler]

/-- Instructions without a handler are dropped. -/
lemma unwind_skip {e : Exit} {pre : List Instr} (hpre : ∀ j ∈ pre, machine.handler e j = none)
    (rest : List Instr) (s : RuntimeState) :
    ∃ s', machine.unwind e (pre ++ rest) s = machine.unwind e rest s' := by
  induction pre generalizing s with
  | nil => exact ⟨s,rfl⟩
  | cons j pre ih =>
    obtain ⟨s',hs'⟩ := ih (fun k hk => hpre k (by simp [hk])) (machine.release j s)
    refine ⟨s',?_⟩
    rw [← hs']
    simp only [List.cons_append,Machine.unwind,hpre j (by simp)]

/-- How the code of a command is left. -/
lemma unwind_command (e : Exit) {pre : List Instr} (hpre : ∀ j ∈ pre, j.inner = true)
    (op : UInt64) (s : RuntimeState) :
    (machine.unwind e (pre ++ [.dispatched op,.finish]) s).2 =
      match e with
      | .done result => [.post op result,.finish]
      | _ => [.finish] := by
  obtain ⟨s',hs'⟩ := unwind_skip (fun j hj => handler_inner e (hpre j hj))
    [.dispatched op,.finish] s
  rw [hs']
  cases e <;> rfl

/-- No step unaborts a task. -/
lemma unwind_aborted (e : Exit) (l : List Instr) (s : RuntimeState) (u : TaskId)
    (h : s.aborted u = true) : (machine.unwind e l s).1.aborted u = true := by
  refine Machine.unwind_shared (M := machine) (P := fun s' => s'.aborted u = true) ?_ e l s h
  intro j s' hs'
  simp only [machine,release]
  split
  · exact hs'
  · next task =>
    by_cases hu : u = task
    · simp [hu]
    · simpa [Function.update_of_ne hu] using hs'
  · exact hs'

end Does

section Steps
variable {x : Choice} {t : ℕ} {c c' : Config} {l : Label}

/-- What a step of the runtime never takes back. -/
structure Ahead (s s' : RuntimeState) : Prop where
  aborted : ∀ u, s.aborted u = true → s'.aborted u = true
  stopped : s.stopped = true → s'.stopped = true
  completions : ∀ op, completions op s ≤ completions op s'

lemma ahead_of_does {s : RuntimeState} {i : Instr} {o : Outcome} (h : Does t s i o) :
    (∀ u, s.aborted u = true → (after o s).aborted u = true) ∧
      (s.stopped = true → (after o s).stopped = true) := by
  cases h
  case giveUp task result =>
    refine ⟨fun u hu => ?_,fun hs => hs⟩
    by_cases he : u = task
    · simp [after,he]
    · simpa [after,Function.update_of_ne he] using hu
  case abort => exact ⟨fun u hu => by simp [after,hu],fun hs => hs⟩
  case shutdownTimeout => exact ⟨fun u hu => hu,fun _ => rfl⟩
  all_goals exact ⟨fun u hu => hu,fun hs => hs⟩

lemma ahead_of_step (h : step l c = some c') : Ahead c.shared c'.shared := by
  have hcompletions := fun op => completions_mono op h
  cases step_cases h with
  | submit | completeError | announce | callback =>
    exact ⟨fun _ hu => hu,fun hs => hs,hcompletions⟩
  | task ht =>
    cases ht with
    | next head he =>
      obtain ⟨ha,hs⟩ := ahead_of_does (does_of he (by simp))
      exact ⟨ha,hs,hcompletions⟩
    | fork head he =>
      obtain ⟨ha,hs⟩ := ahead_of_does (does_of he (by simp))
      exact ⟨ha,hs,hcompletions⟩
    | @throw i rest s e head he =>
      obtain ⟨ha,hs⟩ := ahead_of_does (does_of he (by simp))
      refine ⟨fun u hu => unwind_aborted e rest s u (ha u hu),fun hst => ?_,hcompletions⟩
      obtain ⟨locked,aborted,hu⟩ := unwind_kept e rest s
      rw [hu]
      exact hs hst

/-- The function of a command does not panic. -/
def NoPanic (l : Label) (c : Config) : Prop :=
  ∀ t x, l = .task t x → ∀ i rest, c.tasks t = i :: rest →
    ∀ s, machine.exec x t i c.shared ≠ .throw s .panicked

/-- The labels that `NoPanic` admits. -/
def noPanic (l : Label) (c : Config) : Bool :=
  match l with
  | .task t x =>
    match c.tasks t with
    | [] => true
    | i :: _ =>
      match machine.exec x t i c.shared with
      | .throw _ .panicked => false
      | _ => true
  | _ => true

lemma noPanic_sound (l : Label) (c : Config) (h : noPanic l c = true) : NoPanic l c := by
  rintro t x rfl i rest head s he
  simp [noPanic,head,he] at h

/-- What the task of a command still has to do for its operation. -/
inductive Duty (c : Config) (u : ℕ) (op : UInt64) : Prop
  | executing (pre) (hc : c.tasks u = pre ++ [.dispatched op,.finish])
      (hi : ∀ j ∈ pre, j.inner = true) (hr : ∃ j ∈ pre, j.returns = true)
      (hf : c.shared.finished u = false)
  | posting (result) (hc : c.tasks u = [.post op result,.finish])
      (hf : c.shared.finished u = false)
  | answered (hc : c.tasks u = [.finish] ∨ c.tasks u = []) (ha : 0 < completions op c.shared)
  | dropped (hc : c.tasks u = [.finish] ∨ c.tasks u = [])
      (hd : c.shared.aborted u = true ∨ c.shared.stopped = true)

/-- An instruction at which a task neither waits nor starts is not interrupted. -/
lemma exec_plain {i : Instr} {s : RuntimeState} (hw : i.suspends = false) (hst : i.starts = false)
    (hj : ∀ u, i ≠ .join u ∧ i ≠ .joinClose u) :
    exec x t i s = .blocked ∨ exec x t i s = run x t i s := by
  unfold exec
  split
  · left
    unfold expire
    split
    · exact absurd rfl (hj _).1
    · exact absurd rfl (hj _).2
    · simp [hw]
  · left
    simp [drop,hw,hst]
  · exact .inr rfl

lemma finished_of_does {s : RuntimeState} {i : Instr} {o : Outcome} (h : Does t s i o)
    (hi : i ≠ .finish) : (after o s).finished = s.finished := by
  cases h
  case finish => exact absurd rfl hi
  all_goals rfl

/-- A step of the task of a command while it runs its function. -/
lemma Duty.execute {u : ℕ} {op : UInt64} {pre : List Instr} (hspawned : Spawned c)
    (hc : c.tasks u = pre ++ [.dispatched op,.finish]) (hi : ∀ j ∈ pre, j.inner = true)
    (hr : ∃ j ∈ pre, j.returns = true) (hf : c.shared.finished u = false)
    (hs : Machine.TaskStep machine x u c c') (hp : NoPanic (.task u x) c)
    (ha : Ahead c.shared c'.shared) : Duty c' u op := by
  obtain ⟨j,hj,hreturns⟩ := hr
  cases pre with
  | nil => cases hj
  | cons i pre =>
    have hinner : i.inner = true := hi i (by simp)
    have hpre : ∀ k ∈ pre, k.inner = true := fun k hk => hi k (by simp [hk])
    have hne : i ≠ .finish := by
      rintro rfl
      cases hinner
    have hstill : ∀ {o}, Does u c.shared i o → (∀ s' e, o ≠ .throw s' e) →
        ∃ k ∈ codeOf o ++ pre, k.returns = true := by
      intro o hdoes ho
      obtain rfl | hj := List.mem_cons.mp hj
      · obtain ⟨k,hk,hret⟩ := returns_of_does hdoes hreturns ho
        exact ⟨k,List.mem_append_left _ hk,hret⟩
      · exact ⟨j,List.mem_append_right _ hj,hreturns⟩
    have hall : ∀ {o}, Does u c.shared i o → ∀ k ∈ codeOf o ++ pre, k.inner = true := by
      intro o hdoes k hk
      obtain hk | hk := List.mem_append.mp hk
      · exact inner_of_does hdoes hinner k hk
      · exact hpre k hk
    cases hs with
    | @next i' rest s code head he =>
      obtain ⟨rfl,rfl⟩ := List.cons.inj (hc.symm.trans head)
      have hdoes := does_of he (by simp)
      refine .executing (code ++ pre) (by simp) (hall hdoes) (hstill hdoes (by simp)) ?_
      exact (congrFun (finished_of_does hdoes hne) u).trans hf
    | @fork i' rest s code child childCode head he =>
      obtain ⟨rfl,rfl⟩ := List.cons.inj (hc.symm.trans head)
      have hdoes := does_of he (by simp)
      have hchild : u ≠ child := by
        rintro rfl
        rw [hspawned.forks he] at hc
        cases hc
      refine .executing (code ++ pre) (by simp [Function.update_of_ne hchild]) (hall hdoes)
        (hstill hdoes (by simp)) ?_
      exact (congrFun (finished_of_does hdoes hne) u).trans hf
    | @throw i' rest s e head he =>
      obtain ⟨rfl,rfl⟩ := List.cons.inj (hc.symm.trans head)
      have hdoes := does_of he (by simp)
      have hcode := unwind_command e hpre op s
      have hfinished : (machine.unwind e (pre ++ [.dispatched op,.finish]) s).1.finished u =
          false := by
        obtain ⟨locked,aborted,hu⟩ := unwind_kept e (pre ++ [.dispatched op,.finish]) s
        rw [hu]
        exact (congrFun (finished_of_does hdoes hne) u).trans hf
      cases e with
      | done result => exact .posting result (by simpa using hcode) hfinished
      | dropped =>
        refine .dropped (.inl (by simpa using hcode)) ?_
        cases hdoes with
        | dropped ht hd => exact hd.imp (ha.aborted u) ha.stopped
      | panicked => exact absurd he (hp u x rfl _ _ hc s)

/-- An instruction that is not interrupted and does not throw. -/
lemma taskStep_plain {i : Instr} {rest code : List Instr} {s : RuntimeState}
    (hs : Machine.TaskStep machine x t c c') (head : c.tasks t = i :: rest)
    (hw : i.suspends = false) (hst : i.starts = false) (hj : ∀ u, i ≠ .join u ∧ i ≠ .joinClose u)
    (hrun : run x t i c.shared = .next s code) :
    c'.shared = s ∧ c'.tasks = Function.update c.tasks t (code ++ rest) := by
  have hexec : ∀ o, machine.exec x t i c.shared = o → o ≠ .blocked → o = .next s code := by
    intro o ho hne
    obtain h | h := exec_plain (x := x) (t := t) (s := c.shared) hw hst hj
    · exact absurd (ho.symm.trans h) hne
    · exact ho.symm.trans (h.trans hrun)
  cases hs with
  | next head' he =>
    obtain ⟨rfl,rfl⟩ := List.cons.inj (head.symm.trans head')
    cases hexec _ he (by simp)
    exact ⟨rfl,rfl⟩
  | fork head' he =>
    obtain ⟨rfl,rfl⟩ := List.cons.inj (head.symm.trans head')
    cases hexec _ he (by simp)
  | throw head' he =>
    obtain ⟨rfl,rfl⟩ := List.cons.inj (head.symm.trans head')
    cases hexec _ he (by simp)

/-- A step of the task that has only its last instruction left, if any. -/
lemma finish_step {u : ℕ} (hc : c.tasks u = [.finish] ∨ c.tasks u = [])
    (hs : Machine.TaskStep machine x u c c') : c'.tasks u = [.finish] ∨ c'.tasks u = [] := by
  obtain hc | hc := hc
  · have hnext := taskStep_plain hs hc rfl rfl (by simp) rfl
    rw [hnext.2]
    exact .inr (by simp)
  · cases hs with
    | next head he => cases hc.symm.trans head
    | fork head he => cases hc.symm.trans head
    | throw head he => cases hc.symm.trans head

lemma Duty.own {u : ℕ} {op : UInt64} (h : Duty c u op) (hspawned : Spawned c)
    (hs : Machine.TaskStep machine x u c c') (hp : NoPanic (.task u x) c)
    (ha : Ahead c.shared c'.shared) : Duty c' u op := by
  cases h with
  | executing pre hc hi hr hf => exact Duty.execute hspawned hc hi hr hf hs hp ha
  | posting result hc hf =>
    obtain ⟨hshared,htasks⟩ := taskStep_plain hs hc rfl rfl (by simp) rfl
    refine .answered (.inl (by simp [htasks])) ?_
    rw [hshared]
    simp
  | answered hc hsent =>
    exact .answered (finish_step hc hs) (hsent.trans_le (ha.completions op))
  | dropped hc hd =>
    exact .dropped (finish_step hc hs) (hd.imp (ha.aborted u) ha.stopped)

/-- A step of another task leaves the duty as it is. -/
lemma Duty.other {u : ℕ} {op : UInt64} (h : Duty c u op) (hcode : c'.tasks u = c.tasks u)
    (hf : c'.shared.finished u = c.shared.finished u) (ha : Ahead c.shared c'.shared) :
    Duty c' u op := by
  cases h with
  | executing pre hc hi hr hfin => exact .executing pre (hcode.trans hc) hi hr (hf.trans hfin)
  | posting result hc hfin => exact .posting result (hcode.trans hc) (hf.trans hfin)
  | answered hc hsent =>
    exact .answered (hcode.symm ▸ hc) (hsent.trans_le (ha.completions op))
  | dropped hc hd => exact .dropped (hcode.symm ▸ hc) (hd.imp (ha.aborted u) ha.stopped)

lemma finished_other {u : ℕ} (hu : u ≠ t) (hs : Machine.TaskStep machine x t c c') :
    c'.shared.finished u = c.shared.finished u := by
  obtain ⟨i,rest,o,locked,aborted,-,hdoes,hshared⟩ := shared_of_taskStep hs
  rw [hshared]
  cases hdoes
  case finish => exact Function.update_of_ne hu _ _
  all_goals rfl

/-- The command of a task does not change. -/
lemma command_kept {u : ℕ} (hu : u < c.shared.nextTask) (hs : step l c = some c') :
    c'.shared.command u = c.shared.command u := by
  cases step_cases hs with
  | task ht =>
    cases ht with
    | @next i rest s code head hexec =>
      have hspawns : Spawns c.shared (.next s code) := spawns_of_does (does_of hexec (by simp))
      exact congrFun hspawns.2 u
    | @fork i rest s code child childCode head hexec =>
      have hspawns : Spawns c.shared (.fork s code child childCode) :=
        spawns_of_does (does_of hexec (by simp))
      exact hspawns.2.2 u (Nat.ne_of_lt hu)
    | @throw i rest s e head hexec =>
      have hspawns : Spawns c.shared (.throw s e) := spawns_of_does (does_of hexec (by simp))
      obtain ⟨locked,aborted,hunwind⟩ := unwind_kept e rest s
      rw [hunwind]
      exact congrFun hspawns.2 u
  | submit | completeError | announce | callback => rfl

/-- A new task that a command is dispatched to. -/
lemma new_command {u : ℕ} {command : Command} (hold : c.shared.command u ≠ some command)
    (hs : step l c = some c') (hc : c'.shared.command u = some command) :
    c.shared.nextTask ≤ u ∧ c'.shared.finished u = c.shared.finished u ∧
      c'.tasks u =
        [.execute command.operation,.dispatched command.operation_handle,.finish] := by
  have hle : c.shared.nextTask ≤ u := by
    by_contra hu
    exact hold ((command_kept (not_le.mp hu) hs).symm.trans hc)
  cases step_cases hs with
  | submit | completeError | announce | callback => exact absurd hc hold
  | task ht =>
    cases ht with
    | @next i rest s code head he =>
      have hkept : Spawns c.shared (.next s code) := spawns_of_does (does_of he (by simp))
      exact absurd ((congrFun hkept.2 u).symm.trans hc) hold
    | @throw i rest s e head he =>
      have hkept : Spawns c.shared (.throw s e) := spawns_of_does (does_of he (by simp))
      obtain ⟨locked,aborted,hunwind⟩ := unwind_kept e rest s
      rw [hunwind] at hc
      exact absurd ((congrFun hkept.2 u).symm.trans hc) hold
    | @fork i rest s code child childCode head he =>
      have hdoes := does_of he (by simp)
      obtain ⟨hchild,-,hkept⟩ : Spawns c.shared (.fork s code child childCode) :=
        spawns_of_does hdoes
      have heq : u = child := by
        by_contra hn
        exact hold ((hkept u (hchild ▸ hn)).symm.trans hc)
      subst heq
      cases hdoes with
      | startPolling | spawnClose => exact absurd hc hold
      | dispatch command' commands hcommands ho =>
        simp only [Function.update_self,Option.some.injEq] at hc
        subst hc
        exact ⟨hle,rfl,by simp⟩

/-- The duties of the tasks that commands have been dispatched to. -/
structure Duties (c : Config) : Prop where
  fresh : ∀ u : ℕ, c.shared.nextTask ≤ u → c.shared.finished u = false
  duty : ∀ u command, c.shared.command u = some command → Duty c u command.operation_handle

lemma fresh_step (hspawned : Spawned c)
    (h : ∀ u : ℕ, c.shared.nextTask ≤ u → c.shared.finished u = false)
    (hs : step l c = some c') : ∀ u : ℕ, c'.shared.nextTask ≤ u → c'.shared.finished u = false := by
  intro u hu
  have hle := (nextTask_le hs).trans hu
  cases step_cases hs with
  | @task t x _ ht =>
    obtain ⟨i,rest,o,locked,aborted,head,-,-⟩ := shared_of_taskStep ht
    have hlt : t < c.shared.nextTask := hspawned.lt (i := i) (by simp [head])
    rw [finished_other (Nat.ne_of_gt (hlt.trans_le hle)) ht]
    exact h u hle
  | submit | completeError | announce | callback => exact h u hle

lemma duties_step (hspawned : Spawned c) (h : Duties c) (hp : NoPanic l c)
    (hs : step l c = some c') : Duties c' := by
  have ha := ahead_of_step hs
  refine ⟨fresh_step hspawned h.fresh hs,fun u command hcommand => ?_⟩
  by_cases hold : c.shared.command u = some command
  · have hlt : u < c.shared.nextTask := by
      by_contra hle
      rw [hspawned.command u (not_lt.mp hle)] at hold
      cases hold
    by_cases hl : ∃ x, l = .task u x
    · obtain ⟨x,rfl⟩ := hl
      exact (h.duty u command hold).own hspawned (Machine.taskStep_of_stepTask hs) hp ha
    · have hl : ∀ x, l ≠ .task u x := fun x he => hl ⟨x,he⟩
      refine (h.duty u command hold).other (other_code hlt hl hs) ?_ ha
      cases step_cases hs with
      | @task t x _ ht => exact finished_other (fun hu => hl x (hu ▸ rfl)) ht
      | submit | completeError | announce | callback => rfl
  · obtain ⟨hle,hfin,hcode⟩ := new_command hold hs hcommand
    exact .executing [.execute command.operation] hcode (by simp [Instr.inner,Instr.control])
      ⟨.execute command.operation,by simp,rfl⟩ (hfin.trans (h.fresh u hle))

end Steps

theorem duties_of_reachable {certificate : RTCCertificate} {c : Config}
    (h : Reachable certificate NoPanic c) : Duties c := by
  refine h.induct (I := Duties) ⟨fun _ _ => rfl,fun u command hu => ?_⟩
    fun l d d' hd hI hok hs => duties_step (spawned_of_reachable hd) hI hok hs
  cases hu

end Kestara.Native
