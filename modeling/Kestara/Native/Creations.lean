import Kestara.Native.BinarySends
import Kestara.Native.ChannelStream
import Kestara.Native.PeerClosing
import Kestara.Native.Settling

/-!
# What commands create

A command that has entered a peer or a channel into the registry reports it: no timeout, panic or
abort comes between the two.
-/
namespace Kestara.Native
open Interleaving

section Frames
variable {x : Choice} {t : ℕ} {c c' : Config} {l : Label} {op : UInt64}

/-- The code of the task of a command: inside its function, or at its end. -/
inductive Frame (op : UInt64) : List Instr → Prop
  | running {pre} (hpre : ∀ j ∈ pre, j.inner = true) : Frame op (pre ++ [.dispatched op,.finish])
  | posting (result) : Frame op [.post op result,.finish]
  | finishing : Frame op [.finish]
  | finished : Frame op []

lemma Frame.of_exit {pre : List Instr} (e : Exit) (hpre : ∀ j ∈ pre, j.inner = true)
    (s : RuntimeState) : Frame op (machine.unwind e (pre ++ [.dispatched op,.finish]) s).2 := by
  rw [unwind_command e hpre]
  cases e with
  | done result => exact .posting result
  | dropped | panicked => exact .finishing

lemma Frame.own (h : Frame op (c.tasks t)) (hspawned : Spawned c)
    (hs : Machine.TaskStep machine x t c c') : Frame op (c'.tasks t) := by
  generalize hcode : c.tasks t = code at h
  cases h with
  | @running pre hpre =>
    cases pre with
    | nil =>
      have hplain := taskStep_plain hs hcode rfl rfl (by simp) rfl
      rw [hplain.2]
      simpa using Frame.finishing
    | cons i pre =>
      have head : c.tasks t = i :: (pre ++ [.dispatched op,.finish]) := hcode
      obtain ⟨hdoes,-,hleft⟩ := own_taskStep hspawned hs head
      have hgo : (∀ s e, machine.exec x t i c.shared ≠ .throw s e) → Frame op (c'.tasks t) := by
        intro hn
        rw [hleft hn,← List.append_assoc]
        refine .running fun j hj => ?_
        obtain hj | hj := List.mem_append.mp hj
        · exact inner_of_does hdoes (hpre i (by simp)) j hj
        · exact hpre j (by simp [hj])
      cases hs with
      | next head' he | fork head' he =>
        cases head.symm.trans head'
        exact hgo (by simp [he])
      | @throw _ _ s e head' he =>
        cases head.symm.trans head'
        simpa using Frame.of_exit e (fun j hj => hpre j (by simp [hj])) s
  | posting result =>
    have hplain := taskStep_plain hs hcode rfl rfl (by simp) rfl
    rw [hplain.2]
    simpa using Frame.finishing
  | finishing =>
    have hplain := taskStep_plain hs hcode rfl rfl (by simp) rfl
    rw [hplain.2]
    simpa using Frame.finished
  | finished =>
    obtain ⟨i,rest,-,-,-,head,-,-⟩ := shared_of_taskStep hs
    cases hcode.symm.trans head

/-- The tasks of commands have the code of commands. -/
def Frames (c : Config) : Prop :=
  ∀ u command, c.shared.command u = some command → Frame command.operation_handle (c.tasks u)

theorem frames_step (h : Frames c) (hspawned : Spawned c) (hs : step l c = some c') :
    Frames c' := by
  intro u command hc
  by_cases hu : u < c.shared.nextTask
  · rw [command_kept hu hs] at hc
    by_cases hl : ∃ x, l = .task u x
    · obtain ⟨x,rfl⟩ := hl
      exact (h u command hc).own hspawned (Machine.taskStep_of_stepTask hs)
    · rw [other_code hu (fun x he => hl ⟨x,he⟩) hs]
      exact h u command hc
  · have hold : c.shared.command u ≠ some command := by simp [hspawned.command u (not_lt.mp hu)]
    rw [(new_command hold hs hc).2.2]
    have hframe : Frame command.operation_handle
        ([.execute command.operation] ++ [.dispatched command.operation_handle,.finish]) :=
      .running (by simp [Instr.inner,Instr.control])
    exact hframe

theorem frames_of_reachable {certificate : RTCCertificate} {ok : Label → Config → Prop}
    (h : Reachable certificate ok c) : Frames c :=
  h.induct (I := Frames) (fun _ _ hc => by cases hc) fun _ _ _ hd hI _ hs =>
    frames_step hI (spawned_of_reachable hd) hs

end Frames

section Reports
variable {x : Choice} {t : ℕ} {c c' : Config} {l : Label} {op : UInt64}
  {result : Except String OperationValue}

/-- The task is going to report the result of the operation, or the result has been sent. -/
def Reports (t : TaskId) (op : UInt64) (result : Except String OperationValue) (c : Config) :
    Prop :=
  .post op result ∈ c.tasks t ∨ .operation op result ∈ c.shared.events

/-- A command whose result stands has nothing else left. -/
lemma Frame.post_eq {code : List Instr} (h : Frame op code) {op' : UInt64}
    (hp : .post op' result ∈ code) : code = [.post op' result,.finish] ∧ op' = op := by
  cases h with
  | running hpre =>
    obtain hp | hp := List.mem_append.mp hp
    · cases hpre _ hp
    · simp at hp
  | posting result' =>
    simp only [List.mem_cons,List.not_mem_nil,or_false,Instr.post.injEq,reduceCtorEq] at hp
    obtain ⟨rfl,rfl⟩ := hp
    exact ⟨rfl,rfl⟩
  | finishing => simp at hp
  | finished => cases hp

lemma Reports.step {command : Command} (h : Reports t command.operation_handle result c)
    (hframes : Frames c) (hspawned : Spawned c) (hc : c.shared.command t = some command)
    (hs : step l c = some c') : Reports t command.operation_handle result c' := by
  have hlt : t < c.shared.nextTask := by
    by_contra hle
    rw [hspawned.command t (not_lt.mp hle)] at hc
    cases hc
  obtain hp | he := h
  · by_cases hl : ∃ x, l = .task t x
    · obtain ⟨x,rfl⟩ := hl
      obtain ⟨hcode,-⟩ := (hframes t command hc).post_eq hp
      have hplain := taskStep_plain (Machine.taskStep_of_stepTask hs) hcode rfl rfl (by simp) rfl
      right
      rw [hplain.1]
      simp [RuntimeState.send_event]
    · left
      rw [other_code hlt (fun x he => hl ⟨x,he⟩) hs]
      exact hp
  · exact .inr ((events_grow hs).subset he)

/-- What `startPolling` reports if the peer is gone. -/
def unknownPeer (peer_handle : UInt64) : String := s!"Unknown peer connection handle: {peer_handle}"

/-- How far the report of a channel is that a command has entered. -/
inductive ChannelReport (t : TaskId) (op handle peer_handle : UInt64) (channel : ChannelRef)
    (c : Config) : Prop
  | entered (rest) (head : c.tasks t = .startPolling handle peer_handle channel :: rest)
  | polled (id rest) (head : c.tasks t = .returnChannel handle id :: rest)
  | reported (id : UInt16)
      (h : Reports t op (.ok { channel_handle := handle, text := some (toString id) }) c)
  | refused (h : Reports t op (.error (unknownPeer peer_handle)) c)

/-- A command at the last instruction of a function that throws its result reports it. -/
lemma Frame.reports {i : Instr} {rest : List Instr} {s : RuntimeState} (h : Frame op (c.tasks t))
    (head : c.tasks t = i :: rest) (hi : i.inner = true)
    (he : run x t i c.shared = .throw s (.done result)) (hw : i.suspends = false)
    (hst : i.starts = false) (hs : step (.task t x) c = some c') : Reports t op result c' := by
  have hpre : ∃ pre, rest = pre ++ [.dispatched op,.finish] ∧ ∀ j ∈ pre, j.inner = true := by
    generalize hcode : c.tasks t = code at h
    cases h with
    | @running pre hpre =>
      cases pre with
      | nil =>
        cases head.symm.trans hcode
        cases hi
      | cons j pre =>
        cases head.symm.trans hcode
        exact ⟨pre,rfl,fun k hk => hpre k (by simp [hk])⟩
    | posting | finishing =>
      cases head.symm.trans hcode
      cases hi
    | finished => cases head.symm.trans hcode
  obtain ⟨pre,rfl,hinner⟩ := hpre
  have hjoin : ∀ u, i ≠ .join u ∧ i ≠ .joinClose u := by
    refine fun u => ⟨?_,?_⟩ <;>
      · rintro rfl
        cases hi
  obtain hb | hr := exec_plain (x := x) (t := t) (s := c.shared) hw hst hjoin
  · simp only [step,Machine.stepTask,head,machine,hb] at hs
    cases hs
  · simp only [step,Machine.stepTask,head,machine,hr,he,Option.some.injEq] at hs
    subst hs
    left
    have hunwind := unwind_command (.done result) hinner op s
    simp only [machine] at hunwind
    simp [hunwind]

lemma get_peer_error {s : RuntimeState} {peer_handle : UInt64} {error : String}
    (h : s.get_peer peer_handle = .error error) : error = unknownPeer peer_handle := by
  unfold RuntimeState.get_peer at h
  split at h <;> cases h
  rfl

lemma ChannelReport.step {handle peer_handle : UInt64} {channel : ChannelRef} {command : Command}
    (h : ChannelReport t command.operation_handle handle peer_handle channel c)
    (hframes : Frames c) (hspawned : Spawned c) (hc : c.shared.command t = some command)
    (hs : step l c = some c') :
    ChannelReport t command.operation_handle handle peer_handle channel c' := by
  have hframe := hframes t command hc
  cases h with
  | reported id h => exact .reported id (h.step hframes hspawned hc hs)
  | refused h => exact .refused (h.step hframes hspawned hc hs)
  | entered rest head =>
    have hlt := hspawned.lt (t := t) (i := .startPolling handle peer_handle channel) (by simp [head])
    by_cases hl : ∃ x, l = .task t x
    · obtain ⟨x,rfl⟩ := hl
      have hrun : run x t (.startPolling handle peer_handle channel) c.shared =
          startPolling handle peer_handle channel c.shared := rfl
      cases hfound : c.shared.get_peer peer_handle with
      | error error =>
        have hthrow : run x t (.startPolling handle peer_handle channel) c.shared =
            .throw c.shared (.done (.error (unknownPeer peer_handle))) := by
          rw [hrun,startPolling,hfound,get_peer_error hfound]
        exact .refused (hframe.reports head rfl hthrow rfl rfl hs)
      | ok entry =>
        obtain ⟨-,-,hleft⟩ := own_taskStep hspawned (Machine.taskStep_of_stepTask hs) head
        have hexec : machine.exec x t (.startPolling handle peer_handle channel) c.shared =
            run x t (.startPolling handle peer_handle channel) c.shared := by
          obtain hb | hr := exec_plain (x := x) (t := t) (s := c.shared)
            (i := .startPolling handle peer_handle channel) rfl rfl (by simp)
          · simp only [Native.step,Machine.stepTask,head,machine,hb] at hs
            cases hs
          · exact hr
        rw [hexec,hrun,startPolling,hfound] at hleft
        exact .polled _ rest (hleft (by simp))
    · exact .entered rest ((other_code hlt (fun x he => hl ⟨x,he⟩) hs).trans head)
  | polled id rest head =>
    have hlt := hspawned.lt (t := t) (i := .returnChannel handle id) (by simp [head])
    by_cases hl : ∃ x, l = .task t x
    · obtain ⟨x,rfl⟩ := hl
      exact .reported id (hframe.reports head rfl rfl rfl rfl hs)
    · exact .polled id rest ((other_code hlt (fun x he => hl ⟨x,he⟩) hs).trans head)

/-- The task is going to announce the channel, or it has been announced. -/
def Announces (t : TaskId) (handle peer_handle : UInt64) (c : Config) : Prop :=
  ∃ attributes, (∃ rest, c.tasks t = .sendCreated (created_event peer_handle handle attributes) :: rest) ∨
    created_event peer_handle handle attributes ∈ c.shared.events

lemma Announces.step {handle peer_handle : UInt64} (h : Announces t handle peer_handle c)
    (hspawned : Spawned c) (hs : step l c = some c') : Announces t handle peer_handle c' := by
  obtain ⟨attributes,⟨rest,head⟩ | he⟩ := h
  · refine ⟨attributes,?_⟩
    by_cases hl : ∃ x, l = .task t x
    · obtain ⟨x,rfl⟩ := hl
      have hplain := taskStep_plain (Machine.taskStep_of_stepTask hs) head rfl rfl (by simp) rfl
      right
      rw [hplain.1]
      simp [RuntimeState.send_event]
    · have hlt := hspawned.lt (t := t)
        (i := .sendCreated (created_event peer_handle handle attributes)) (by simp [head])
      exact .inl ⟨rest,(other_code hlt (fun x he => hl ⟨x,he⟩) hs).trans head⟩
  · exact ⟨attributes,.inr ((events_grow hs).subset he)⟩

/-- Who learns of an object that has been entered into the registry. -/
inductive Acknowledged (r : Registration) (c : Config) : Prop
  | peer {peer command configuration} (ho : r.object = .peer peer)
      (hc : c.shared.command r.task = some command)
      (hop : command.operation = .createPeer configuration)
      (h : Reports r.task command.operation_handle (.ok { peer_handle := r.handle }) c)
  | channel {channel peer_handle command configuration} (ho : r.object = .channel channel peer_handle)
      (hc : c.shared.command r.task = some command)
      (hop : command.operation = .createDataChannel peer_handle configuration)
      (h : ChannelReport r.task command.operation_handle r.handle peer_handle channel c)
  | remote {channel peer_handle} (ho : r.object = .channel channel peer_handle)
      (hc : c.shared.command r.task = none) (h : Announces r.task r.handle peer_handle c)

lemma Acknowledged.step {r : Registration} (h : Acknowledged r c) (hlt : r.task < c.shared.nextTask)
    (hframes : Frames c) (hspawned : Spawned c) (hs : Native.step l c = some c') :
    Acknowledged r c' := by
  have hcommand := command_kept hlt hs
  cases h with
  | peer ho hc hop h => exact .peer ho (hcommand.trans hc) hop (h.step hframes hspawned hc hs)
  | channel ho hc hop h =>
    exact .channel ho (hcommand.trans hc) hop (h.step hframes hspawned hc hs)
  | remote ho hc h => exact .remote ho (hcommand.trans hc) (h.step hspawned hs)

/-- What a task may run, as far as objects are concerned. -/
structure Roles (c : Config) : Prop where
  creates : ∀ u, ∀ j ∈ c.tasks u, j.creates = true → c.shared.command u ≠ none
  serves : ∀ u, ∀ j ∈ c.tasks u, Assigned c.shared u j
  origin : ∀ u, ∀ j ∈ c.tasks u, ∀ remote, j.origin = some remote →
    (c.shared.command u = none ↔ remote = true)

theorem roles_of_reachable {certificate : RTCCertificate} {ok : Label → Config → Prop}
    (h : Reachable certificate ok c) : Roles c :=
  ⟨commandRule_creates.of_reachable h,assigned_of_reachable h,commandRule_origin.of_reachable h⟩

lemma acknowledged_peer {handle : UInt64} {peer : PeerRef} {capacity : ℕ} {rest : List Instr}
    (hroles : Roles c) (hframes : Frames c) (hlt : t < c.shared.nextTask)
    (head : c.tasks t = .insertPeer handle peer capacity :: rest)
    (hs : Native.step (.task t x) c = some c') : Acknowledged ⟨t,handle,.peer peer⟩ c' := by
  have hmem : .insertPeer handle peer capacity ∈ c.tasks t := by simp [head]
  obtain ⟨command,hc⟩ := Option.ne_none_iff_exists'.mp (hroles.creates t _ hmem rfl)
  obtain ⟨configuration,hop⟩ := hroles.serves t _ hmem command hc
  exact .peer rfl ((command_kept hlt hs).trans hc) hop
    ((hframes t command hc).reports head rfl rfl rfl rfl hs)

lemma acknowledged_channel {handle peer_handle : UInt64} {channel : ChannelRef} {emit : Bool}
    {attributes : ChannelAttributes} {rest : List Instr} (hroles : Roles c) (hspawned : Spawned c)
    (head : c.tasks t = .insertChannel handle peer_handle channel emit attributes :: rest)
    (hs : Native.step (.task t x) c = some c') :
    Acknowledged ⟨t,handle,.channel channel peer_handle⟩ c' := by
  have hmem : .insertChannel handle peer_handle channel emit attributes ∈ c.tasks t := by
    simp [head]
  have horigin := hroles.origin t _ hmem emit rfl
  have hcommand := command_kept (hspawned.lt hmem) hs
  have hexec : machine.exec x t (.insertChannel handle peer_handle channel emit attributes)
      c.shared = insertChannel t handle peer_handle channel emit attributes c.shared := by
    obtain hb | hr := exec_plain (x := x) (t := t) (s := c.shared)
      (i := .insertChannel handle peer_handle channel emit attributes) rfl rfl (by simp)
    · simp only [Native.step,Machine.stepTask,head,machine,hb] at hs
      cases hs
    · exact hr
  obtain ⟨-,-,hleft⟩ := own_taskStep hspawned (Machine.taskStep_of_stepTask hs) head
  rw [hexec] at hleft
  have hcode := hleft (by simp [insertChannel])
  cases emit with
  | true =>
    exact .remote rfl (hcommand.trans (horigin.mpr rfl)) ⟨attributes,.inl ⟨_,hcode⟩⟩
  | false =>
    have hne : c.shared.command t ≠ none := fun hn => Bool.false_ne_true (horigin.mp hn)
    obtain ⟨command,hc⟩ := Option.ne_none_iff_exists'.mp hne
    obtain ⟨configuration,hop⟩ := hroles.serves t _ hmem command hc
    exact .channel rfl (hcommand.trans hc) hop (.entered _ hcode)

/-- Every registration is that of a task, and is acknowledged. -/
def Acknowledging (c : Config) : Prop :=
  ∀ r ∈ c.shared.history.registered, r.task < c.shared.nextTask ∧ Acknowledged r c

theorem acknowledging_step (h : Acknowledging c) (hroles : Roles c) (hframes : Frames c)
    (hspawned : Spawned c) (hs : Native.step l c = some c') : Acknowledging c' := by
  have hnext := nextTask_le hs
  have hkept : ∀ r ∈ c.shared.history.registered,
      r.task < c'.shared.nextTask ∧ Acknowledged r c' := fun r hr =>
    ⟨(h r hr).1.trans_le hnext,(h r hr).2.step (h r hr).1 hframes hspawned hs⟩
  cases step_cases hs with
  | submit | completeError | announce | callback => exact hkept
  | @task t x _ ht =>
    obtain ⟨i,rest,-,-,-,head,-,-⟩ := shared_of_taskStep ht
    obtain ⟨hdoes,⟨locked,aborted,hshared⟩,-⟩ := own_taskStep hspawned ht head
    have hlt := hspawned.lt (t := t) (i := i) (by simp [head])
    have hnew : ∀ handle object, Acknowledged ⟨t,handle,object⟩ c' →
        c'.shared.history.registered = c.shared.history.registered ++ [⟨t,handle,object⟩] →
          ∀ r ∈ c'.shared.history.registered, r.task < c'.shared.nextTask ∧ Acknowledged r c' := by
      intro handle object hack hregistered r hr
      rw [hregistered] at hr
      obtain hr | hr := List.mem_append.mp hr
      · exact hkept r hr
      · rw [List.mem_singleton.mp hr]
        exact ⟨hlt.trans_le hnext,hack⟩
    have hregistry : c'.shared.history.registered =
        (after (machine.exec x t i c.shared) c.shared).history.registered := by rw [hshared]
    cases registryStep_of_does hdoes with
    | keep _ hh | removeChannel _ _ _ hh | removePeer _ _ _ hh | clear _ _ hh =>
      intro r hr
      rw [hregistry,hh] at hr
      exact hkept r hr
    | insertPeer handle peer capacity hi _ hh =>
      subst hi
      exact hnew handle (.peer peer) (acknowledged_peer hroles hframes hlt head hs)
        (hregistry.trans hh)
    | insertChannel handle peer_handle channel emit attributes hi _ hh =>
      subst hi
      exact hnew handle (.channel channel peer_handle)
        (acknowledged_channel hroles hspawned head hs) (hregistry.trans hh)

theorem acknowledging_of_reachable {certificate : RTCCertificate} {ok : Label → Config → Prop}
    (h : Reachable certificate ok c) : Acknowledging c :=
  h.induct (I := Acknowledging) (fun _ hr => by cases hr) fun _ _ _ hd hI _ hs =>
    acknowledging_step hI (roles_of_reachable hd) (frames_of_reachable hd) (spawned_of_reachable hd)
      hs

end Reports

section Failures
variable {t : ℕ} {c : Config} {op : UInt64} {e e' : NativeEvent}

/-- Two completions of one operation are the same event, if its handle is used once. -/
lemma completion_unique (h : Answering op c) (hd : Distinct c.shared) (he : e ∈ c.shared.events)
    (hc : e.completes op = true) (he' : e' ∈ c.shared.events) (hc' : e'.completes op = true) :
    e = e' := by
  have hle : (c.shared.events.filter (·.completes op)).length ≤ 1 := by
    rw [← List.countP_eq_length_filter]
    exact ((Nat.le_add_right _ _).trans h.spent_le).trans (hd.calls_le op)
  have hmem := List.mem_filter.mpr ⟨he,hc⟩
  have hmem' := List.mem_filter.mpr ⟨he',hc'⟩
  generalize c.shared.events.filter (·.completes op) = l at hle hmem hmem'
  match l with
  | [] => cases hmem
  | [a] => rw [List.mem_singleton.mp hmem,List.mem_singleton.mp hmem']
  | a :: b :: l => simp at hle

/-- An operation that is complete is not going to be completed again. -/
lemma completed_weight (h : Answering op c) (hd : Distinct c.shared) (he : e ∈ c.shared.events)
    (hc : e.completes op = true) (t : ℕ) : weight (Instr.completes op) (c.tasks t) = 0 := by
  have hbound := h {t}
  have hcalls := hd.calls_le op
  have hpos : 0 < completions op c.shared := List.countP_pos_iff.mpr ⟨e,he,hc⟩
  simp only [Finset.sum_singleton,answers] at hbound
  omega

lemma operation_injective {op : UInt64} {result result' : Except String OperationValue}
    (h : NativeEvent.operation op result = .operation op result') : result = result' := by
  cases result with
  | ok value =>
    cases result' with
    | ok value' =>
      obtain ⟨peer_handle,channel_handle,text,data⟩ := value
      obtain ⟨peer_handle',channel_handle',text',data'⟩ := value'
      simp only [NativeEvent.operation,NativeEvent.mk.injEq,true_and,and_true] at h
      obtain ⟨rfl,rfl,rfl,rfl⟩ := h
      rfl
    | error error' => simp [NativeEvent.operation,NativeEvent.failure] at h
  | error error =>
    cases result' with
    | ok value' => simp [NativeEvent.operation,NativeEvent.failure] at h
    | error error' =>
      simp only [NativeEvent.operation,NativeEvent.failure,NativeEvent.mk.injEq,Option.some.injEq,
        true_and,and_true] at h
      rw [h]

/-- What a command reports is what its completion says. -/
lemma Reports.eq {result result' : Except String OperationValue} (h : Reports t op result c)
    (ha : Answering op c) (hd : Distinct c.shared)
    (he : .operation op result' ∈ c.shared.events) : result = result' := by
  obtain hp | hsent := h
  · have hzero := completed_weight ha hd he (by simp) t
    have hle := le_weight (w := Instr.completes op) hp
    simp only [Instr.completes,if_true] at hle
    omega
  · exact operation_injective (completion_unique ha hd hsent (by simp) he (by simp))

/-- A function that still runs has not been completed. -/
lemma Frame.incomplete {i : Instr} {rest : List Instr} (h : Frame op (c.tasks t))
    (head : c.tasks t = i :: rest) (hi : i.inner = true) :
    weight (Instr.completes op) (c.tasks t) ≠ 0 := by
  generalize c.tasks t = code at h head
  cases h with
  | @running pre hpre =>
    have hmem : .dispatched op ∈ pre ++ [.dispatched op,.finish] := by simp
    have hle := le_weight (w := Instr.completes op) hmem
    simp only [Instr.completes,if_true] at hle
    omega
  | posting | finishing =>
    cases head
    cases hi
  | finished => cases head

/-- What becomes known of the objects that are entered into the registry. -/
structure Creations (c : Config) : Prop where
  /-- A command reports what it has entered, a channel of the remote side is announced. -/
  acknowledged : ∀ r ∈ c.shared.history.registered, Acknowledged r c
  /-- A command that fails has entered nothing, unless it is a channel whose peer is gone. -/
  failed : Distinct c.shared → ∀ r ∈ c.shared.history.registered, ∀ command error,
    c.shared.command r.task = some command →
      .operation command.operation_handle (.error error) ∈ c.shared.events →
        ∃ channel peer_handle, r.object = .channel channel peer_handle ∧
          error = unknownPeer peer_handle

/-- In every reachable state each peer and each channel that a command has entered is, or is about
to be, reported by the command, whatever times out or is aborted, and each channel of the remote
side is announced. -/
theorem creations_reported {certificate : RTCCertificate} {ok : Label → Config → Prop}
    (h : Reachable certificate ok c) : Creations c := by
  have hack := acknowledging_of_reachable h
  have hframes := frames_of_reachable h
  refine ⟨fun r hr => (hack r hr).2,fun hd r hr command error hc he => ?_⟩
  have ha := answering_of_reachable h command.operation_handle
  have hframe := hframes r.task command hc
  have hopen : ∀ {i rest}, c.tasks r.task = i :: rest → i.inner = true → False := fun head hi =>
    hframe.incomplete head hi (completed_weight ha hd he (by simp) r.task)
  cases (hack r hr).2 with
  | peer ho hc' _ hreports =>
    cases hc.symm.trans hc'
    cases hreports.eq ha hd he
  | channel ho hc' _ hreport =>
    cases hc.symm.trans hc'
    cases hreport with
    | entered rest head => exact (hopen head rfl).elim
    | polled id rest head => exact (hopen head rfl).elim
    | reported id hreports => cases hreports.eq ha hd he
    | refused hreports =>
      cases hreports.eq ha hd he
      exact ⟨_,_,ho,rfl⟩
  | remote ho hc' => cases hc.symm.trans hc'

end Failures

section Witness

/-- A channel is created, and its peer is closed before the channel is polled. -/
def abandonedRun : List Label :=
  peerCreated ++ [.submit { operation_handle := 8, timeout := ⟨1000⟩,
                            operation := .createDataChannel 1 orderedChannel },
    .task 0 .ok,.task 2 .ok,.task 2 .ok,.task 2 (.channel plainChannel),.task 2 .ok,
    .submit { operation_handle := 9, timeout := ⟨1000⟩, operation := .closePeer 1 },.task 0 .ok,
    .task 3 .ok,.task 2 (.attributes openAttributes),.task 2 .ok,.task 2 .ok,.task 2 .ok]

theorem creations_reported_abandoned : ∃ c, Reachable ⟨"",[]⟩ (fun _ _ => True) c ∧ Creations c ∧
    c.shared.registry.peers.keys = [] ∧ c.shared.registry.channels.keys = [2] ∧
      .operation 8 (.error (unknownPeer 1)) ∈ c.shared.events := by
  have hrun : (Interleaving.run step abandonedRun (init ⟨"",[]⟩)).map (fun c =>
      (c.shared.registry.peers.keys,c.shared.registry.channels.keys,c.shared.events.getLast?)) =
      some ([],[2],some (.operation 8 (.error (unknownPeer 1)))) := by rfl
  obtain ⟨c,hc,hseen⟩ := Option.map_eq_some_iff.mp hrun
  obtain ⟨hpeers,hseen⟩ := Prod.mk.inj hseen
  obtain ⟨hchannels,hlast⟩ := Prod.mk.inj hseen
  have hreach : Reachable ⟨"",[]⟩ (fun _ _ => True) c := reaches_of_run hc fun _ _ _ => trivial
  exact ⟨c,hreach,creations_reported hreach,hpeers,hchannels,List.mem_of_getLast? hlast⟩

end Witness
end Kestara.Native
