import Kestara.Native.Duties

/-!
# The phases of the controller

The controller receives commands, joins their tasks once it has received Shutdown, closes the
peers, and reports success or failure. Until it reports, it knows which operations are complete.
-/
namespace Kestara.Native
open Interleaving

section Control
variable {x : Choice} {t : ℕ} {s : RuntimeState} {i : Instr} {o : Outcome}

lemma control_of_does (h : Does t s i o) (hi : i.control = false) :
    ∀ j ∈ codeOf o, j.control = false := by
  cases h with
  | lock peer body hl => cases body <;> simp [codeOf,Locked.first,Instr.control]
  | insertChannel handle peer_handle channel emit attributes =>
    cases emit <;> simp [codeOf,insertChannel,Instr.control]
  | shutdown | dispatch | clearRegistry | spawned | spawnClose => cases hi
  | _ => simp [codeOf,Instr.control]

lemma control_of_child {s' : RuntimeState} {code childCode : List Instr} {child : TaskId}
    (h : Does t s i (.fork s' code child childCode)) : ∀ j ∈ childCode, j.control = false := by
  cases h <;> simp [Instr.control]

lemma control_of_handler {e : Exit} {k : Instr} {code : List Instr} (hk : k.control = false)
    (hc : machine.handler e k = some code) : ∀ j ∈ code, j.control = false := by
  simp only [machine,handler] at hc
  split at hc <;> cases hc
  · simp [Instr.control]
  · cases hk
  · cases hk
  · simp [Instr.control]

/-- Only the controller has instructions of the controller. -/
def ControlOnly (c : Config) : Prop := ∀ u, ∀ j ∈ c.tasks u, j.control = true → u = 0

variable {c c' : Config}

lemma controlOnly_task (h : ControlOnly c) (hs : Machine.TaskStep machine x t c c') :
    ControlOnly c' := by
  have keep : ∀ {i : Instr} {o : Outcome}, i ∈ c.tasks t → Does t c.shared i o →
      ∀ j ∈ codeOf o, j.control = true → t = 0 := by
    intro i o hi hdoes j hj hctrl
    by_contra hne
    have hi : i.control = false := by
      by_contra hc
      exact hne (h t i hi (by simpa using hc))
    rw [control_of_does hdoes hi j hj] at hctrl
    cases hctrl
  refine hs.assertions (A := fun (_ : RuntimeState) u (j : Instr) => j.control = true → u = 0) h ?_ ?_ ?_
  · intro i rest s code head he
    exact ⟨keep (by simp [head]) (does_of he (by simp)),fun _ _ _ hj => hj⟩
  · intro i rest s code child childCode head he
    have hdoes := does_of he (by simp)
    refine ⟨keep (by simp [head]) hdoes,fun j hj hctrl => ?_,fun _ _ _ hj => hj⟩
    rw [control_of_child hdoes j hj] at hctrl
    cases hctrl
  · intro i rest s e head he
    refine ⟨fun k _ hk code hc j hj hctrl => ?_,fun _ _ _ hj => hj⟩
    by_contra hne
    have hk : k.control = false := by
      by_contra hcontrol
      exact hne (hk (by simpa using hcontrol))
    rw [control_of_handler hk hc j hj] at hctrl
    cases hctrl

theorem controlOnly_of_reachable {certificate : RTCCertificate} {ok : Label → Config → Prop}
    (h : Reachable certificate ok c) : ControlOnly c := by
  refine h.induct (I := ControlOnly) ?_ ?_
  · intro u j hj hctrl
    by_contra hne
    simp [init,hne] at hj
  · intro l d d' hd hI _ hs
    cases step_cases hs with
    | task ht => exact controlOnly_task hI ht
    | submit | completeError | callback => exact hI
    | announce peer channel hp =>
      intro u j hj hctrl
      by_cases hu : u = d.shared.nextTask
      · subst hu
        simp only [Function.update_self,List.mem_cons,List.not_mem_nil,or_false] at hj
        obtain rfl | rfl := hj <;> cases hctrl
      · simp only [Function.update_of_ne hu] at hj
        exact hI u j hj hctrl

/-- What only the controller changes. -/
structure Unmoved (l : Label) (s s' : RuntimeState) : Prop where
  commands : s'.commands = s.commands ++ l.submits
  operations : s'.operations = s.operations
  command : s'.command = s.command
  aborted : s'.aborted = s.aborted
  stopped : s'.stopped = s.stopped

lemma unwind_uncontrolled (e : Exit) {l : List Instr} (hl : ∀ j ∈ l, j.control = false)
    (s : RuntimeState) : (machine.unwind e l s).1.aborted = s.aborted := by
  induction l generalizing s with
  | nil => rfl
  | cons j l ih =>
    simp only [Machine.unwind]
    split
    · rfl
    · rw [ih fun k hk => hl k (by simp [hk])]
      cases j with
      | joinClose task => cases hl (.joinClose task) (by simp)
      | _ => rfl

lemma unmoved_of_does (h : Does t s i o) (hi : i.control = false) :
    (after o s).commands = s.commands ∧ (after o s).operations = s.operations ∧
      (after o s).command = s.command ∧ (after o s).aborted = s.aborted ∧
        (after o s).stopped = s.stopped := by
  cases h
  case giveUp | shutdown | dispatch | abort | shutdownTimeout => cases hi
  all_goals exact ⟨rfl,rfl,rfl,rfl,rfl⟩

lemma unmoved_of_step {l : Label} (h : ControlOnly c) (hl : ∀ x, l ≠ .task 0 x)
    (hs : step l c = some c') : Unmoved l c.shared c'.shared := by
  cases step_cases hs with
  | submit command hr => exact ⟨rfl,rfl,rfl,rfl,rfl⟩
  | completeError | announce | callback => exact ⟨(List.append_nil _).symm,rfl,rfl,rfl,rfl⟩
  | @task t x _ ht =>
    have hne : t ≠ 0 := fun h0 => hl x (h0 ▸ rfl)
    have hctrl : ∀ j ∈ c.tasks t, j.control = false := by
      intro j hj
      by_contra hc
      exact hne (h t j hj (by simpa using hc))
    have hall : ∀ {i o}, i ∈ c.tasks t → Does t c.shared i o → Unmoved (.task t x) c.shared
        (after o c.shared) := by
      intro i o hi hdoes
      obtain ⟨h₁,h₂,h₃,h₄,h₅⟩ := unmoved_of_does hdoes (hctrl i hi)
      exact ⟨h₁.trans (List.append_nil _).symm,h₂,h₃,h₄,h₅⟩
    cases ht with
    | next head he => exact hall (by simp [head]) (does_of he (by simp))
    | fork head he => exact hall (by simp [head]) (does_of he (by simp))
    | @throw i rest s e head he =>
      have hmoved := hall (by simp [head]) (does_of he (by simp))
      have hrest : ∀ j ∈ rest, j.control = false := fun j hj => hctrl j (by simp [head,hj])
      have haborted := unwind_uncontrolled e hrest s
      obtain ⟨locked,aborted,hu⟩ := unwind_kept e rest s
      rw [hu] at haborted ⊢
      exact ⟨hmoved.commands,hmoved.operations,hmoved.command,haborted.trans hmoved.aborted,
        hmoved.stopped⟩

end Control

/-- No task can have been dropped. -/
structure Live (s : RuntimeState) : Prop where
  stopped : s.stopped = false
  aborted : ∀ u, s.aborted u = false

/-- Where the commands are: in the queue, dispatched, or the Shutdown that has been taken. Those
dispatched are complete, apart from the tasks that are still waited for. -/
structure Books (s : RuntimeState) (taken : Option UInt64) (waiting : List TaskId) : Prop where
  queue : ∀ command ∈ s.history.submitted, command ∈ s.commands ∨
    (∃ u, s.command u = some command) ∨ taken = some command.operation_handle
  done : ∀ u command, s.command u = some command →
    u ∈ waiting ∨ 0 < completions command.operation_handle s

/-- The code between the joins and the report. -/
inductive Closing : List Instr → Prop
  | spawning {peers closes} : Closing [.spawnCloses peers closes]
  | joining {closes : List TaskId} : Closing (closes.map .joinClose ++ [.shutDown])

/-- The phases of the controller. -/
inductive Phase (c : Config) : Prop
  | receiving (code : c.tasks 0 = [.receive]) (live : Live c.shared)
      (books : Books c.shared none c.shared.operations)
  | joining (op) (left : List TaskId) (code : c.tasks 0 = left.map .join ++ [.clearRegistry,.graceful op])
      (live : Live c.shared) (books : Books c.shared (some op) left)
  | closing (op pre) (code : c.tasks 0 = pre ++ [.graceful op]) (hpre : Closing pre)
      (live : Live c.shared) (books : Books c.shared (some op) [])
  | succeeded (op value)
      (code : c.tasks 0 = [.shutdownTimeout,.post op (.ok value),.stopReceiving] ∨
        c.tasks 0 = [.post op (.ok value),.stopReceiving] ∨
        (c.tasks 0 = [.stopReceiving] ∨ c.tasks 0 = []) ∧ 0 < completions op c.shared)
      (books : Books c.shared (some op) [])
  | failed (op error)
      (code : c.tasks 0 <:+ [.abort,.shutdownTimeout,.post op (.error error),.stopReceiving])

section Phases
variable {x : Choice} {c c' : Config} {l : Label} {s s' : RuntimeState}
  {taken : Option UInt64} {waiting : List TaskId}

lemma Books.other (h : Books s taken waiting) (hm : Unmoved l s s') (ha : Ahead s s')
    (hsub : s'.history.submitted = s.history.submitted ++ l.submits) :
    Books s' taken waiting := by
  refine ⟨fun command hc => ?_,fun u command hu => ?_⟩
  · rw [hsub] at hc
    rw [hm.commands,hm.command]
    obtain hc | hc := List.mem_append.mp hc
    · obtain h | h := h.queue command hc
      · exact .inl (List.mem_append_left _ h)
      · exact .inr h
    · exact .inl (List.mem_append_right _ hc)
  · rw [hm.command] at hu
    exact (h.done u command hu).imp_right fun hpos => hpos.trans_le (ha.completions _)

lemma Live.other (h : Live s) (hm : Unmoved l s s') : Live s' := by
  refine ⟨hm.stopped.trans h.stopped,fun u => ?_⟩
  rw [hm.aborted]
  exact h.aborted u

/-- A step that is not one of the controller. -/
lemma Phase.other (h : Phase c) (hspawned : Spawned c) (hctrl : ControlOnly c)
    (hl : ∀ x, l ≠ .task 0 x) (hs : step l c = some c') : Phase c' := by
  have hcode := other_code hspawned.pos hl hs
  have hm := unmoved_of_step hctrl hl hs
  have ha := ahead_of_step hs
  have hsub := (calls_step hs).1
  cases h with
  | receiving code live books =>
    refine .receiving (hcode.trans code) (live.other hm) ?_
    rw [hm.operations]
    exact books.other hm ha hsub
  | joining op left code live books =>
    exact .joining op left (hcode.trans code) (live.other hm) (books.other hm ha hsub)
  | closing op pre code hpre live books =>
    exact .closing op pre (hcode.trans code) hpre (live.other hm) (books.other hm ha hsub)
  | succeeded op value code books =>
    refine .succeeded op value ?_ (books.other hm ha hsub)
    rw [hcode]
    exact code.imp_right fun h => h.imp_right fun h =>
      ⟨h.1,h.2.trans_le (ha.completions op)⟩
  | failed op error code => exact .failed op error (hcode ▸ code)

/-- A task that has finished has completed its command. -/
lemma completed_of_finished (hd : Duties c) (live : Live c.shared) {u : ℕ} {command : Command}
    (hu : c.shared.command u = some command) (hf : c.shared.finished u = true) :
    0 < completions command.operation_handle c.shared := by
  cases hd.duty u command hu with
  | executing pre hc hi hr hfin => exact absurd (hf.symm.trans hfin) (by decide)
  | posting result hc hfin => exact absurd (hf.symm.trans hfin) (by decide)
  | answered hc hsent => exact hsent
  | dropped hc hdrop =>
    obtain h | h := hdrop
    · rw [live.aborted u] at h
      cases h
    · rw [live.stopped] at h
      cases h

/-- What the controller does with the next command. -/
lemma receive_cases (hspawned : Spawned c) (code : c.tasks 0 = [.receive])
    (hs : step (.task 0 x) c = some c') : ∃ command commands,
    c.shared.commands = command :: commands ∧
      let operations := c.shared.operations.filter fun t => !c.shared.finished t
      (command.operation = .shutdown ∧ c'.shared = { c.shared with commands,operations } ∧
        c'.tasks 0 = operations.map .join ++ [.clearRegistry,.graceful command.operation_handle] ∨
      c'.shared = { c.shared with
        commands
        operations := operations ++ [c.shared.nextTask]
        nextTask := c.shared.nextTask+1
        command := Function.update c.shared.command c.shared.nextTask (some command) } ∧
        c'.tasks 0 = [.receive]) := by
  simp only [step,Machine.stepTask,code] at hs
  have hexec := exec_plain (x := x) (t := 0) (i := .receive) (s := c.shared) rfl rfl (by simp)
  obtain hexec | hexec := hexec
  · change machine.exec x 0 .receive c.shared = .blocked at hexec
    rw [hexec] at hs
    cases hs
  · change machine.exec x 0 .receive c.shared = receive c.shared at hexec
    rw [hexec] at hs
    cases hcommands : c.shared.commands with
    | nil =>
      simp only [receive,hcommands] at hs
      cases hs
    | cons command commands =>
      refine ⟨command,commands,rfl,?_⟩
      simp only [receive,hcommands] at hs
      split_ifs at hs with ho
      · cases hs
        exact .inl ⟨ho,rfl,by simp⟩
      · cases hs
        exact .inr ⟨rfl,by simp [Function.update_of_ne (Nat.ne_of_lt hspawned.pos)]⟩

/-- The end of the graceful part by an error. -/
lemma unwind_graceful {pre : List Instr} (error : String) (op : UInt64) (s : RuntimeState)
    (hpre : ∀ j ∈ pre, ∀ e, machine.handler e j = none) :
    (machine.unwind (.done (.error error)) (pre ++ [.graceful op]) s).2 =
      [.abort,.shutdownTimeout,.post op (.error error),.stopReceiving] := by
  obtain ⟨s',hs'⟩ := unwind_skip (fun j hj => hpre j hj _) [.graceful op] s
  rw [hs']
  rfl

/-- The controller waits for a task. -/
lemma join_cases {u : ℕ} {i : Instr} {rest : List Instr} (hi : i = .join u ∨ i = .joinClose u)
    (head : c.tasks 0 = i :: rest) (hs : step (.task 0 x) c = some c') :
    c.shared.finished u = true ∧ c'.shared = c.shared ∧ c'.tasks 0 = rest ∨
      x = .expire ∧ ∃ error s, c'.tasks 0 = (machine.unwind (.done (.error error)) rest s).2 := by
  simp only [step,Machine.stepTask,head] at hs
  have hrun : ∀ o, machine.exec x 0 i c.shared = o →
      o = .blocked ∨ (c.shared.finished u = true ∧ o = .next c.shared []) ∨
        x = .expire ∧ ∃ error s, o = .throw s (.done (.error error)) := by
    rintro o rfl
    obtain rfl | rfl := hi
    · cases x with
      | expire => exact .inr (.inr ⟨rfl,_,_,rfl⟩)
      | drop => exact .inl rfl
      | _ =>
        simp only [machine,exec,run]
        split_ifs with hf
        · exact .inr (.inl ⟨hf,rfl⟩)
        · exact .inl rfl
    · cases x with
      | expire => exact .inr (.inr ⟨rfl,_,_,rfl⟩)
      | drop => exact .inl rfl
      | _ =>
        simp only [machine,exec,run]
        split_ifs with hf
        · exact .inr (.inl ⟨hf,rfl⟩)
        · exact .inl rfl
  obtain h | ⟨hf,h⟩ | ⟨hx,error,s,h⟩ := hrun _ rfl
  · rw [h] at hs
    cases hs
  · rw [h] at hs
    cases hs
    exact .inl ⟨hf,rfl,by simp⟩
  · rw [h] at hs
    cases hs
    exact .inr ⟨hx,error,s,by simp⟩

lemma Books.prune (h : Books c.shared taken c.shared.operations) (hd : Duties c)
    (live : Live c.shared) {u : ℕ} {command : Command} (hu : c.shared.command u = some command) :
    u ∈ (c.shared.operations.filter fun t => !c.shared.finished t) ∨
      0 < completions command.operation_handle c.shared := by
  obtain hmem | hdone := h.done u command hu
  · cases hf : c.shared.finished u with
    | true => exact .inr (completed_of_finished hd live hu hf)
    | false => exact .inl (List.mem_filter.mpr ⟨hmem,by simp [hf]⟩)
  · exact .inr hdone

lemma Phase.receive (hspawned : Spawned c) (hd : Duties c) (code : c.tasks 0 = [.receive])
    (live : Live c.shared) (books : Books c.shared none c.shared.operations)
    (hs : step (.task 0 x) c = some c') : Phase c' := by
  obtain ⟨command,commands,hcommands,⟨ho,hshared,hcode⟩ | ⟨hshared,hcode⟩⟩ :=
    receive_cases hspawned code hs
  · refine .joining command.operation_handle _ hcode ?_ ?_
    · rw [hshared]
      exact ⟨live.stopped,live.aborted⟩
    · rw [hshared]
      refine ⟨fun command' hc => ?_,fun u command' hu => books.prune hd live hu⟩
      obtain h | h | h := books.queue command' hc
      · rw [hcommands] at h
        obtain rfl | h := List.mem_cons.mp h
        · exact .inr (.inr rfl)
        · exact .inl h
      · exact .inr (.inl h)
      · cases h
  · refine .receiving hcode ?_ ?_
    · rw [hshared]
      exact ⟨live.stopped,live.aborted⟩
    · rw [hshared]
      refine ⟨fun command' hc => ?_,fun u command' hu => ?_⟩
      · obtain h | ⟨u,hu⟩ | h := books.queue command' hc
        · rw [hcommands] at h
          obtain rfl | h := List.mem_cons.mp h
          · exact .inr (.inl ⟨c.shared.nextTask,by simp⟩)
          · exact .inl h
        · have hne : u ≠ c.shared.nextTask := by
            rintro rfl
            rw [hspawned.command _ le_rfl] at hu
            cases hu
          exact .inr (.inl ⟨u,by simpa [Function.update_of_ne hne] using hu⟩)
        · cases h
      · by_cases hne : u = c.shared.nextTask
        · exact .inl (List.mem_append_right _ (by simp [hne]))
        · simp only [Function.update_of_ne hne] at hu
          exact (books.prune hd live hu).imp_left fun h => List.mem_append_left _ h

lemma handler_join (e : Exit) (u : TaskId) : machine.handler e (.join u) = none ∧
    machine.handler e (.joinClose u) = none := by
  cases e <;> simp [machine,handler]

lemma Phase.join {op : UInt64} {left : List TaskId} (hd : Duties c)
    (code : c.tasks 0 = left.map .join ++ [.clearRegistry,.graceful op])
    (live : Live c.shared) (books : Books c.shared (some op) left)
    (hs : step (.task 0 x) c = some c') : Phase c' := by
  cases left with
  | nil =>
    obtain ⟨hshared,htasks⟩ := taskStep_plain (Machine.taskStep_of_stepTask hs) code rfl rfl
      (by simp) rfl
    refine .closing op [.spawnCloses c.shared.registry.peers.values []] (by simp [htasks])
      .spawning ?_ ?_
    · rw [hshared]
      exact ⟨live.stopped,live.aborted⟩
    · rw [hshared]
      exact ⟨books.queue,books.done⟩
  | cons u left =>
    have head : c.tasks 0 = .join u :: (left.map .join ++ [.clearRegistry] ++ [.graceful op]) := by
      simp [code]
    obtain ⟨hf,hshared,hcode⟩ | ⟨-,error,s,hcode⟩ := join_cases (.inl rfl) head hs
    · refine .joining op left (by simp [hcode]) (hshared ▸ live) ?_
      rw [hshared]
      refine ⟨books.queue,fun v command hv => ?_⟩
      obtain h | h := books.done v command hv
      · obtain rfl | h := List.mem_cons.mp h
        · exact .inr (completed_of_finished hd live hv hf)
        · exact .inl h
      · exact .inr h
    · refine .failed op error ?_
      rw [hcode,unwind_graceful]
      intro j hj e
      obtain hj | hj := List.mem_append.mp hj
      · obtain ⟨v,-,rfl⟩ := List.mem_map.mp hj
        exact (handler_join e v).1
      · rw [List.mem_singleton.mp hj]
        cases e <;> simp [machine,handler]

/-- An instruction of the controller that is not interrupted. -/
lemma step_plain {i : Instr} {code : List Instr} {o : Outcome} (head : c.tasks 0 = i :: code)
    (hw : i.suspends = false) (hst : i.starts = false) (hj : ∀ u, i ≠ .join u ∧ i ≠ .joinClose u)
    (hrun : run x 0 i c.shared = o) (hs : step (.task 0 x) c = some c') :
    machine.exec x 0 i c.shared = o := by
  simp only [step,Machine.stepTask,head] at hs
  obtain h | h := exec_plain (x := x) (t := 0) (s := c.shared) hw hst hj
  · change machine.exec x 0 i c.shared = .blocked at h
    rw [h] at hs
    cases hs
  · exact h.trans hrun

lemma Phase.close {op : UInt64} {pre : List Instr} (hspawned : Spawned c)
    (code : c.tasks 0 = pre ++ [.graceful op]) (hpre : Closing pre) (live : Live c.shared)
    (books : Books c.shared (some op) []) (hs : step (.task 0 x) c = some c') : Phase c' := by
  have ha := ahead_of_step hs
  cases hpre with
  | @spawning peers closes =>
    cases peers with
    | nil =>
      obtain ⟨hshared,htasks⟩ := taskStep_plain (Machine.taskStep_of_stepTask hs) code rfl rfl
        (by simp) rfl
      exact .closing op (closes.map .joinClose ++ [.shutDown]) (by simp [htasks]) .joining
        (hshared ▸ live) (hshared ▸ books)
    | cons entry peers =>
      have hexec := step_plain code rfl rfl (by simp) rfl hs
      simp only [step,Machine.stepTask,code,List.cons_append,List.nil_append] at hs
      rw [hexec] at hs
      cases hs
      refine .closing op [.spawnCloses peers (closes ++ [c.shared.nextTask])] ?_ .spawning
        ⟨live.stopped,live.aborted⟩ ⟨books.queue,books.done⟩
      simp [Function.update_of_ne (Nat.ne_of_lt hspawned.pos)]
  | @joining closes =>
    cases closes with
    | nil =>
      have hexec := step_plain code rfl rfl (by simp) rfl hs
      simp only [step,Machine.stepTask,code,List.map_nil,List.cons_append,List.nil_append] at hs
      rw [hexec] at hs
      cases hs
      exact .succeeded op {} (.inl (by simp [Machine.unwind,machine,handler]))
        ⟨books.queue,books.done⟩
    | cons u closes =>
      have head : c.tasks 0 = .joinClose u ::
          (closes.map .joinClose ++ [.shutDown] ++ [.graceful op]) := by simp [code]
      obtain ⟨-,hshared,hcode⟩ | ⟨-,error,s,hcode⟩ := join_cases (.inr rfl) head hs
      · exact .closing op (closes.map .joinClose ++ [.shutDown]) (by simp [hcode]) .joining
          (hshared ▸ live) (hshared ▸ books)
      · refine .failed op error ?_
        rw [hcode,unwind_graceful]
        intro j hj e
        obtain hj | hj := List.mem_append.mp hj
        · obtain ⟨v,-,rfl⟩ := List.mem_map.mp hj
          exact (handler_join e v).2
        · rw [List.mem_singleton.mp hj]
          cases e <;> simp [machine,handler]

lemma Phase.report {op : UInt64} {value : OperationValue}
    (code : c.tasks 0 = [.shutdownTimeout,.post op (.ok value),.stopReceiving] ∨
      c.tasks 0 = [.post op (.ok value),.stopReceiving] ∨
      (c.tasks 0 = [.stopReceiving] ∨ c.tasks 0 = []) ∧ 0 < completions op c.shared)
    (books : Books c.shared (some op) []) (hs : step (.task 0 x) c = some c') : Phase c' := by
  have ha := ahead_of_step hs
  have hdone : ∀ u command, c.shared.command u = some command →
      u ∈ ([] : List TaskId) ∨ 0 < completions command.operation_handle c'.shared :=
    fun u command hu => (books.done u command hu).imp_right fun h =>
      h.trans_le (ha.completions _)
  have ht := Machine.taskStep_of_stepTask hs
  obtain code | code | ⟨code | code,hsent⟩ := code
  · obtain ⟨hshared,htasks⟩ := taskStep_plain ht code rfl rfl (by simp) rfl
    refine .succeeded op value (.inr (.inl (by simp [htasks]))) ?_
    rw [hshared] at hdone ⊢
    exact ⟨books.queue,hdone⟩
  · obtain ⟨hshared,htasks⟩ := taskStep_plain ht code rfl rfl (by simp) rfl
    refine .succeeded op value (.inr (.inr ⟨.inl (by simp [htasks]),?_⟩)) ?_
    · rw [hshared]
      simp
    · rw [hshared] at hdone ⊢
      exact ⟨books.queue,hdone⟩
  · obtain ⟨hshared,htasks⟩ := taskStep_plain ht code rfl rfl (by simp) rfl
    refine .succeeded op value (.inr (.inr ⟨.inr (by simp [htasks]),?_⟩)) ?_
    · exact hsent.trans_le (ha.completions op)
    · rw [hshared] at hdone ⊢
      exact ⟨books.queue,hdone⟩
  · simp only [step,Machine.stepTask,code] at hs
    cases hs

lemma Phase.fail {op : UInt64} {error : String}
    (code : c.tasks 0 <:+ [.abort,.shutdownTimeout,.post op (.error error),.stopReceiving])
    (hs : step (.task 0 x) c = some c') : Phase c' := by
  have ht := Machine.taskStep_of_stepTask hs
  cases head : c.tasks 0 with
  | nil =>
    simp only [step,Machine.stepTask,head] at hs
    cases hs
  | cons i rest =>
    rw [head] at code
    have hi : i ∈ [Instr.abort,.shutdownTimeout,.post op (.error error),.stopReceiving] :=
      code.subset (by simp)
    have hnext : ∃ s, run x 0 i c.shared = .next s [] := by
      simp only [List.mem_cons,List.not_mem_nil,or_false] at hi
      obtain rfl | rfl | rfl | rfl := hi <;> exact ⟨_,rfl⟩
    have hplain : i.suspends = false ∧ i.starts = false ∧
        ∀ u, i ≠ .join u ∧ i ≠ .joinClose u := by
      simp only [List.mem_cons,List.not_mem_nil,or_false] at hi
      obtain rfl | rfl | rfl | rfl := hi <;> exact ⟨rfl,rfl,by simp⟩
    obtain ⟨s,hrun⟩ := hnext
    obtain ⟨-,htasks⟩ := taskStep_plain ht head hplain.1 hplain.2.1 hplain.2.2 hrun
    refine .failed op error ?_
    rw [htasks]
    simp only [Function.update_self,List.nil_append]
    exact (List.suffix_cons i rest).trans code

theorem phase_step (h : Phase c) (hspawned : Spawned c) (hctrl : ControlOnly c) (hd : Duties c)
    (hs : step l c = some c') : Phase c' := by
  by_cases hl : ∃ x, l = .task 0 x
  · obtain ⟨x,rfl⟩ := hl
    cases h with
    | receiving code live books => exact Phase.receive hspawned hd code live books hs
    | joining op left code live books => exact Phase.join hd code live books hs
    | closing op pre code hpre live books => exact Phase.close hspawned code hpre live books hs
    | succeeded op value code books => exact Phase.report code books hs
    | failed op error code => exact Phase.fail code hs
  · exact h.other hspawned hctrl (fun x he => hl ⟨x,he⟩) hs

theorem phase_of_reachable {certificate : RTCCertificate} (h : Reachable certificate NoPanic c) :
    Phase c := by
  refine h.induct (I := Phase) ?_ fun l d d' hd hI _ hs =>
    phase_step hI (spawned_of_reachable hd) (controlOnly_of_reachable hd) (duties_of_reachable hd) hs
  refine .receiving rfl ⟨rfl,fun _ => rfl⟩ ⟨fun command hc => ?_,fun u command hu => ?_⟩
  · cases hc
  · cases hu

end Phases
end Kestara.Native
