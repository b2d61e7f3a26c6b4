import Kestara.Native.RegistrySteps

/-!
# Completions of native operations

Every OPERATION_COMPLETE event answers a command that `submit` has accepted or a call of
`complete_error`, and no command or call is answered twice.
-/
namespace Kestara.Native
open Interleaving

/-- The event completes an operation. -/
def NativeEvent.completes (operation_handle : UInt64) (e : NativeEvent) : Bool :=
  e.kind = OPERATION_COMPLETE ∧ e.operation_handle = operation_handle

section Events
variable {op peer_handle channel_handle : UInt64}

@[simp] lemma completes_operation (operation_handle : UInt64)
    (result : Except String OperationValue) :
    (NativeEvent.operation operation_handle result).completes op =
      decide (operation_handle = op) := by
  cases result <;> simp [NativeEvent.operation,NativeEvent.failure,NativeEvent.completes,
    OPERATION_COMPLETE]

@[simp] lemma completes_failure (operation_handle : UInt64) (error : String) :
    (NativeEvent.failure operation_handle error).completes op =
      decide (operation_handle = op) := by
  simp [NativeEvent.failure,NativeEvent.completes,OPERATION_COMPLETE]

lemma completes_of_kind {e : NativeEvent} (kind : BitVec 32) (he : e.kind = kind)
    (hk : kind ≠ OPERATION_COMPLETE) : e.completes op = false := by
  simp [NativeEvent.completes,he,hk]

@[simp] lemma completes_created (attributes : ChannelAttributes) :
    (created_event peer_handle channel_handle attributes).completes op = false :=
  completes_of_kind DATA_CHANNEL rfl (by decide)

@[simp] lemma completes_message (is_string : Bool) (data : List UInt8) :
    (message_event peer_handle channel_handle is_string data).completes op = false := by
  cases is_string with
  | true => exact completes_of_kind DATA_CHANNEL_TEXT rfl (by decide)
  | false => exact completes_of_kind DATA_CHANNEL_BINARY rfl (by decide)

@[simp] lemma completes_image (event : DataChannelEvent) :
    (event.image peer_handle channel_handle).completes op = false := by
  cases event with
  | onMessage is_string data => exact completes_message is_string data
  | onOpen => exact completes_of_kind DATA_CHANNEL_OPEN rfl (by decide)
  | onError => exact completes_of_kind DATA_CHANNEL_ERROR rfl (by decide)
  | onClosing => exact completes_of_kind DATA_CHANNEL_CLOSING rfl (by decide)
  | onClose => exact completes_of_kind DATA_CHANNEL_CLOSED rfl (by decide)
  | onBufferedAmountLow =>
    exact completes_of_kind DATA_CHANNEL_BUFFERED_AMOUNT_LOW rfl (by decide)
  | onBufferedAmountHigh =>
    exact completes_of_kind DATA_CHANNEL_BUFFERED_AMOUNT_HIGH rfl (by decide)

lemma completes_callback {x : Callback} (h : x.admitted = true) :
    (x.event peer_handle).completes op = false := by
  cases x with
  | localCandidate candidate => exact completes_of_kind LOCAL_CANDIDATE rfl (by decide)
  | state kind number =>
    refine completes_of_kind kind rfl ?_
    rintro rfl
    have hnot : stateKinds.contains OPERATION_COMPLETE = false := by decide
    exact absurd (h.symm.trans hnot) (by decide)

end Events

/-- The completions of an operation that have been sent. -/
def completions (op : UInt64) (s : RuntimeState) : ℕ := s.events.countP (·.completes op)

@[simp] lemma completions_send_event (op : UInt64) (s : RuntimeState) (e : NativeEvent) :
    completions op (s.send_event e) = completions op s + if e.completes op then 1 else 0 := by
  simp [completions,RuntimeState.send_event,List.countP_append,List.countP_singleton]

/-- The completions that an instruction is going to send. -/
def Instr.completes (op : UInt64) : Instr → ℕ
  | .dispatched operation_handle | .post operation_handle _ | .graceful operation_handle =>
    if operation_handle = op then 1 else 0
  | .sendCreated event => if event.completes op then 1 else 0
  | _ => 0

def queued (op : UInt64) (s : RuntimeState) : ℕ := s.commands.countP (·.operation_handle = op)

/-- The completions that have been sent or that the queue asks for. -/
def answers (op : UInt64) (s : RuntimeState) : ℕ := completions op s + queued op s

/-- The calls that have an operation handle. -/
def calls (op : UInt64) (s : RuntimeState) : ℕ :=
  s.history.submitted.countP (·.operation_handle = op) + s.history.refused.count op

section Steps
variable {x : Choice} {t : ℕ} {c c' : Config} {s : RuntimeState} {i : Instr} {o : Outcome}

/-- A step of a task sends what its instructions were going to send. -/
lemma answers_of_does (op : UInt64) (h : Does t s i o) :
    Machine.Covers (Instr.completes op) (answers op) (calls op) s i o := by
  cases h with
  | createPeer =>
    simp [Machine.Covers,Instr.completes,answers,calls,queued,completions,RuntimeState.allocate,
      RuntimeState.record]
  | registerChannel =>
    simp [Machine.Covers,Instr.completes,answers,calls,queued,completions,RuntimeState.allocate,
      RuntimeState.record]
  | dispatch command commands hc ho =>
    simp [Machine.Covers,Instr.completes,answers,calls,queued,completions,hc,List.countP_cons]
    omega
  | shutdown command commands hc ho =>
    simp [Machine.Covers,Instr.completes,answers,calls,queued,completions,hc,List.countP_cons,
      Machine.weight_map_eq_zero (w := Instr.completes op) (f := Instr.join) fun _ => rfl]
    omega
  | insertChannel handle peer_handle channel emit attributes =>
    cases emit <;> simp [Machine.Covers,Instr.completes,answers,calls,queued,completions,
      insertChannel,RuntimeState.setRegistry,RuntimeState.record]
  | lock peer body hl =>
    cases body <;> simp [Machine.Covers,Locked.first,Instr.completes,answers,calls,queued,
      completions]
  | spawned closes =>
    simp [Machine.Covers,Instr.completes,
      Machine.weight_map_eq_zero (w := Instr.completes op) (f := Instr.joinClose) fun _ => rfl]
  | sendCreated event =>
    simp [Machine.Covers,Instr.completes,answers,calls]
    simp only [queued,RuntimeState.send_event]
    omega
  | post operation_handle result =>
    simp [Machine.Covers,Instr.completes,answers,calls]
    simp only [queued,RuntimeState.send_event]
    omega
  | _ =>
    simp [Machine.Covers,Instr.completes,answers,calls,queued,completions,RuntimeState.setRegistry,
      RuntimeState.record,RuntimeState.setChannel,RuntimeState.notePoll,RuntimeState.send_event,
      List.countP_append,unlock]

lemma handler_completes (op : UInt64) (e : Exit) (j : Instr) (code : List Instr)
    (hc : machine.handler e j = some code) : weight (Instr.completes op) code ≤ j.completes op := by
  simp only [machine,handler] at hc
  split at hc <;> cases hc <;> simp [Instr.completes]

lemma answers_kept (op : UInt64) (j : Instr) (s : RuntimeState) :
    answers op (machine.release j s) = answers op s ∧
      calls op (machine.release j s) = calls op s := by
  cases j <;> exact ⟨rfl,rfl⟩

/-- The completions sent, asked for by the queue, and ahead in the tasks are together at most as
many as the calls. -/
def Answering (op : UInt64) (c : Config) : Prop :=
  Within (Instr.completes op) c.tasks (answers op c.shared) (calls op c.shared)

lemma answering_step {op : UInt64} {l : Label} (hc : Spawned c) (h : Answering op c)
    (hs : step l c = some c') : Answering op c' := by
  cases step_cases hs with
  | @task t x _ ht =>
    refine ht.within (handler_completes op) (answers_kept op) ?_ ?_ h
    · exact fun i s code child childCode he => hc.forks he
    · intro i rest head
      obtain hblocked | hdoes := does_exec (x := x) (t := t) (i := i) (s := c.shared)
      · change Machine.Covers _ _ _ _ _ (exec x t i c.shared)
        rw [hblocked]
        trivial
      · exact answers_of_does op hdoes
  | submit command hr =>
    apply Within.shift h
    simp [answers,queued,calls,completions,RuntimeState.submit,RuntimeState.record,
      List.countP_append,List.countP_singleton]
    omega
  | completeError operation_handle error =>
    apply Within.shift h
    simp [answers,queued,calls,completions,RuntimeState.complete_error,RuntimeState.record,
      RuntimeState.send_event,List.countP_append,List.countP_singleton,List.count_singleton]
    omega
  | announce peer channel hp =>
    apply Within.update h
    rw [hc.idle _ le_rfl]
    simp [Instr.completes,answers,queued,calls,completions]
  | callback peer x hx =>
    apply Within.shift h
    simp [answers,queued,calls,completions_send_event,completes_callback hx]
    simp only [RuntimeState.send_event]
    omega

lemma events_grow {l : Label} (hs : step l c = some c') :
    c.shared.events <+: c'.shared.events := by
  cases step_cases hs with
  | task ht =>
    obtain ⟨i,rest,o,locked,aborted,-,hdoes,hshared⟩ := shared_of_taskStep ht
    rw [hshared]
    cases hdoes
    case polled | closed | deliver | sendCreated | post => exact List.prefix_append _ _
    all_goals exact List.prefix_refl _
  | submit | announce => exact List.prefix_refl _
  | completeError | callback => exact List.prefix_append _ _

lemma completions_mono {l : Label} (op : UInt64) (hs : step l c = some c') :
    completions op c.shared ≤ completions op c'.shared :=
  (events_grow hs).sublist.countP_le

/-- The calls that a step adds. -/
def Label.submits : Label → List Command
  | .submit command => [command]
  | _ => []

def Label.refuses : Label → List UInt64
  | .completeError operation_handle _ => [operation_handle]
  | _ => []

lemma calls_step {l : Label} (hs : step l c = some c') :
    c'.shared.history.submitted = c.shared.history.submitted ++ l.submits ∧
      c'.shared.history.refused = c.shared.history.refused ++ l.refuses := by
  cases step_cases hs with
  | task ht =>
    obtain ⟨i,rest,o,locked,aborted,-,hdoes,hshared⟩ := shared_of_taskStep ht
    rw [hshared]
    simp only [Label.submits,Label.refuses,List.append_nil]
    cases hdoes <;> exact ⟨rfl,rfl⟩
  | submit command hr => exact ⟨rfl,(List.append_nil _).symm⟩
  | completeError operation_handle error => exact ⟨(List.append_nil _).symm,rfl⟩
  | announce | callback => exact ⟨(List.append_nil _).symm,(List.append_nil _).symm⟩

/-- Every call of `complete_error` has sent its event. -/
lemma refused_step {op : UInt64} {l : Label}
    (h : c.shared.history.refused.count op ≤ completions op c.shared)
    (hs : step l c = some c') : c'.shared.history.refused.count op ≤ completions op c'.shared := by
  have hmono := completions_mono op hs
  rw [(calls_step hs).2,List.count_append]
  cases step_cases hs with
  | completeError operation_handle error =>
    have hone : completions op (c.shared.complete_error operation_handle error) =
        completions op c.shared+if operation_handle = op then 1 else 0 := by
      change completions op (c.shared.send_event (.failure operation_handle error)) = _
      simp
    change _ ≤ completions op (c.shared.complete_error operation_handle error)
    rw [hone]
    simp only [Label.refuses,List.count_singleton,beq_iff_eq]
    omega
  | submit | task | announce | callback => exact h.trans hmono

end Steps

/-- The calls of `submit` and `complete_error` have pairwise distinct operation handles. -/
def Distinct (s : RuntimeState) : Prop :=
  (s.history.submitted.map Command.operation_handle ++ s.history.refused).Nodup

lemma calls_eq_count (op : UInt64) (s : RuntimeState) : calls op s =
    (s.history.submitted.map Command.operation_handle ++ s.history.refused).count op := by
  rw [List.count_append,calls,List.count,List.countP_map]
  congr 2

lemma Distinct.calls_le {s : RuntimeState} (h : Distinct s) (op : UInt64) : calls op s ≤ 1 := by
  rw [calls_eq_count]
  exact List.nodup_iff_count_le_one.mp h op

/-- No call is answered twice, every refused one is answered, and nothing else is. -/
structure Accounted (s : RuntimeState) : Prop where
  commands : ∀ command ∈ s.history.submitted, completions command.operation_handle s ≤ 1
  errors : ∀ op ∈ s.history.refused, completions op s = 1
  others : ∀ op, (∀ command ∈ s.history.submitted, command.operation_handle ≠ op) →
    op ∉ s.history.refused → completions op s = 0

section Reachable
variable {certificate : RTCCertificate} {ok : Label → Config → Prop} {c : Config}

lemma answering_of_reachable (h : Reachable certificate ok c) (op : UInt64) : Answering op c := by
  refine h.induct (I := Answering op) ?_ fun l d d' hd hI _ hs =>
    answering_step (spawned_of_reachable hd) hI hs
  refine .of_idle (fun t => ?_) le_rfl
  simp only [init]
  split_ifs <;> rfl

lemma completions_le_calls (h : Reachable certificate ok c) (op : UInt64) :
    completions op c.shared ≤ calls op c.shared :=
  (Nat.le_add_right _ _).trans (answering_of_reachable h op).spent_le

lemma refused_le_completions (h : Reachable certificate ok c) (op : UInt64) :
    c.shared.history.refused.count op ≤ completions op c.shared :=
  h.invariant (I := fun c => c.shared.history.refused.count op ≤ completions op c.shared)
    (Nat.zero_le _) fun _ _ _ hI _ hs => refused_step hI hs

theorem accounted_of_reachable (h : Reachable certificate ok c) (hd : Distinct c.shared) :
    Accounted c.shared := by
  have hcalls : ∀ op, calls op c.shared ≤ 1 := hd.calls_le
  refine ⟨fun command _ => (completions_le_calls h _).trans (hcalls _),fun op hop => ?_,
    fun op hsubmitted hrefused => ?_⟩
  · have hpos : 0 < c.shared.history.refused.count op := List.count_pos_iff.mpr hop
    have hle := refused_le_completions h op
    have hup := (completions_le_calls h op).trans (hcalls op)
    omega
  · have hzero : calls op c.shared = 0 := by
      rw [calls_eq_count,List.count_eq_zero,List.mem_append]
      rintro (hmem | hmem)
      · obtain ⟨command,hc,rfl⟩ := List.mem_map.mp hmem
        exact hsubmitted command hc rfl
      · exact hrefused hmem
    have hle := completions_le_calls h op
    omega

end Reachable
end Kestara.Native
