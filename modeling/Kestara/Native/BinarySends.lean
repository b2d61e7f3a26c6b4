import Kestara.Native.PortSearch
import Kestara.Native.Duties

/-!
# Binary sends

A SendBinary or TrySendBinary command hands its payload to the channel and completes, unless the
payload is empty: no buffer can be taken out of the static one, and the task panics.
-/
namespace Kestara.Native
open Interleaving

/-- The two commands that send binary data. -/
inductive BinarySend
  | send | trySend
  deriving DecidableEq, Repr

def BinarySend.operation (channel_handle : UInt64) (data : List UInt8) : BinarySend → Operation
  | .send => .sendBinary channel_handle data
  | .trySend => .trySendBinary channel_handle data

/-- What a task has handed to channels. -/
def sentBy (t : TaskId) (s : RuntimeState) : List Sent := s.history.sent.filter (·.task = t)

section Panics

/-- The operation sends an empty payload. -/
def Operation.sendsEmpty : Operation → Bool
  | .sendBinary _ data | .trySendBinary _ data => data.isEmpty
  | _ => false

/-- The instruction comes to a send of an empty payload. -/
def Instr.sendsEmpty : Instr → Bool
  | .execute operation | .call _ operation | .getPeer _ (.send _ operation)
  | .lock _ (.send _ operation) => operation.sendsEmpty
  | _ => false

variable {x : Choice} {t : ℕ} {s s' : RuntimeState} {i : Instr} {o : Outcome} {c c' : Config}

lemma sendsEmpty_first (peer : PeerRef) (body : Locked) :
    (body.first peer).sendsEmpty = (Instr.lock peer body).sendsEmpty := by
  cases body <;> rfl

lemma finds_sendsEmpty {peer : PeerRef} {peer_handle : UInt64} {body : Locked}
    (hi : i.finds = some (peer_handle,body)) (h : i.sendsEmpty = false) :
    (Instr.lock peer body).sendsEmpty = false := by
  cases i with
  | getPeer =>
    cases hi
    cases body with
    | send => exact h
    | _ => rfl
  | execute operation => cases operation <;> cases hi <;> rfl
  | _ => cases hi

lemma sendsEmpty_of_does (h : Does t s i o) (hi : i.sendsEmpty = false) :
    ∀ j ∈ codeOf o, j.sendsEmpty = false := by
  cases h with
  | findPeer hf => simpa [codeOf] using finds_sendsEmpty hf hi
  | lock peer body =>
    simp only [codeOf,List.mem_cons,List.not_mem_nil,or_false,forall_eq_or_imp,forall_eq]
    exact ⟨(sendsEmpty_first peer body).trans hi,rfl⟩
  | findSender | findChannel =>
    simp only [codeOf,List.mem_cons,List.not_mem_nil,or_false,forall_eq]
    exact hi
  | insertChannel handle peer_handle channel emit attributes =>
    cases emit <;> simp [codeOf,insertChannel,Instr.sendsEmpty]
  | shutdown | spawned =>
    intro j hj
    simp only [codeOf,List.mem_append,List.mem_map,List.mem_cons,List.not_mem_nil,or_false] at hj
    obtain ⟨u,-,rfl⟩ | rfl | rfl := hj <;> rfl
  | _ => simp [codeOf,Instr.sendsEmpty]

/-- What is panicked is a send of an empty payload. -/
lemma sendsEmpty_of_panic (h : machine.exec x t i s = .throw s' .panicked) :
    i.sendsEmpty = true := by
  cases does_of h (by simp) with
  | @panicked channel operation =>
    cases x with
    | expire | drop => simp [machine,exec,expire,drop,Instr.suspends,Instr.starts] at h
    | _ =>
      cases operation with
      | sendBinary channel_handle data | trySendBinary channel_handle data =>
        simp only [machine,exec,run,call,try_into_mut] at h
        split_ifs at h with hdata
        · simp [Instr.sendsEmpty,Operation.sendsEmpty,hdata]
      | _ => simp [machine,exec,run,call] at h

lemma handler_sendsEmpty {e : Exit} {k : Instr} {code : List Instr}
    (hc : machine.handler e k = some code) : ∀ j ∈ code, j.sendsEmpty = false := by
  simp only [machine,handler] at hc
  split at hc <;> cases hc <;> simp [Instr.sendsEmpty]

/-- The task comes to no send of an empty payload. -/
def Fills (t : TaskId) (c : Config) : Prop := ∀ j ∈ c.tasks t, j.sendsEmpty = false

lemma Fills.step {l : Label} (h : Fills t c) (ht : t < c.shared.nextTask)
    (hs : step l c = some c') : Fills t c' := by
  by_cases hl : ∃ x, l = .task t x
  · obtain ⟨x,rfl⟩ := hl
    exact forall_own (Machine.taskStep_of_stepTask (M := machine) hs) ht h
      (fun hdoes hi => sendsEmpty_of_does hdoes hi) fun hc _ => handler_sendsEmpty hc
  · rw [Fills,other_code ht (fun x he => hl ⟨x,he⟩) hs]
    exact h

end Panics

/-- The stages of a binary send: what is left to run, and what has been handed to the channel. -/
inductive SendStage (kind : BinarySend) (channel_handle : UInt64) (data : List UInt8)
    (channel : ChannelRef) (operation_handle : UInt64) (t : TaskId) (s : RuntimeState) :
    List Instr → Prop
  | start (hs : sentBy t s = []) :
      SendStage kind channel_handle data channel operation_handle t s
        (.execute (kind.operation channel_handle data) :: rest operation_handle)
  | find {peer_handle} (hs : sentBy t s = []) :
      SendStage kind channel_handle data channel operation_handle t s
        (.getPeer peer_handle (.send channel (kind.operation channel_handle data)) ::
          rest operation_handle)
  | wait {peer} (hs : sentBy t s = []) :
      SendStage kind channel_handle data channel operation_handle t s
        (.lock peer (.send channel (kind.operation channel_handle data)) :: rest operation_handle)
  | call (guards) (hg : ∀ j ∈ guards, ∃ peer, j = .unlock peer) (hs : sentBy t s = []) :
      SendStage kind channel_handle data channel operation_handle t s
        (.call channel (kind.operation channel_handle data) :: (guards ++ rest operation_handle))
  | request (guards) (hg : ∀ j ∈ guards, ∃ peer, j = .unlock peer)
      (hs : sentBy t s = [⟨t,channel,.binary data⟩]) :
      SendStage kind channel_handle data channel operation_handle t s
        (.request (kind.operation channel_handle data) :: (guards ++ rest operation_handle))
  | ended {result code} (hs : sentBy t s = [⟨t,channel,.binary data⟩])
      (hc : Ended operation_handle result s code) :
      SendStage kind channel_handle data channel operation_handle t s code

/-- The steps of a binary send that are still ahead of it. -/
def sendSize : List Instr → ℕ
  | .execute _ :: _ => 7
  | .getPeer _ _ :: _ => 6
  | .lock _ _ :: _ => 5
  | .call _ _ :: _ => 4
  | .request _ :: _ => 3
  | code => code.length

/-- The steps of a task for which the channel of the handle is registered with its peer, and which
is not cut off. -/
def Sends (channel_handle : UInt64) (channel : ChannelRef) (t : TaskId) (l : Label) (c : Config) :
    Prop :=
  ∀ x, l = .task t x → x ≠ .expire ∧ x ≠ .drop ∧
    (∀ operation code, c.tasks t = .execute operation :: code →
      ∃ entry, c.shared.registry.channels.lookup channel_handle = some entry ∧
        entry.channel = channel) ∧
    ∀ peer_handle body code, c.tasks t = .getPeer peer_handle body :: code →
      (c.shared.registry.peers.lookup peer_handle).isSome

section Stages
variable {kind : BinarySend} {channel_handle : UInt64} {data : List UInt8} {channel : ChannelRef}
  {op : UInt64} {t : ℕ} {s s' : RuntimeState} {code : List Instr}

lemma SendStage.mono (h : SendStage kind channel_handle data channel op t s code)
    (hsent : sentBy t s' = sentBy t s) (he : ∀ e ∈ s.events, e ∈ s'.events) :
    SendStage kind channel_handle data channel op t s' code := by
  cases h with
  | start hs => exact .start (hsent.trans hs)
  | find hs => exact .find (hsent.trans hs)
  | wait hs => exact .wait (hsent.trans hs)
  | call guards hg hs => exact .call guards hg (hsent.trans hs)
  | request guards hg hs => exact .request guards hg (hsent.trans hs)
  | ended hs hc => exact .ended (hsent.trans hs) (hc.mono he)

lemma inner_guards {guards : List Instr} (hg : ∀ j ∈ guards, ∃ peer, j = .unlock peer) :
    ∀ j ∈ guards, j.inner = true := by
  intro j hj
  obtain ⟨peer,rfl⟩ := hg j hj
  rfl

/-- The library has answered. -/
lemma SendStage.answered {guards : List Instr} {result : Except String OperationValue}
    (hg : ∀ j ∈ guards, ∃ peer, j = .unlock peer)
    (hs : sentBy t s = [⟨t,channel,.binary data⟩]) :
    SendStage kind channel_handle data channel op t
        (machine.unwind (.done result) (guards ++ rest op) s).1
        (machine.unwind (.done result) (guards ++ rest op) s).2 ∧
      sendSize (machine.unwind (.done result) (guards ++ rest op) s).2 < 3 := by
  have hcode : (machine.unwind (.done result) (guards ++ rest op) s).2 =
      [.post op result,.finish] := unwind_command (.done result) (inner_guards hg) op s
  obtain ⟨locked,aborted,hu⟩ := unwind_kept (.done result) (guards ++ rest op) s
  rw [hcode,hu]
  exact ⟨.ended hs (.inl rfl),by simp [sendSize]⟩

/-- A step of the send brings it to its next stage, unless it waits. -/
theorem SendStage.advance {i : Instr} {x : Choice} (hdata : data ≠ [])
    (h : SendStage kind channel_handle data channel op t s (i :: code))
    (hexecute : ∀ operation, i = .execute operation →
      ∃ entry, s.registry.channels.lookup channel_handle = some entry ∧ entry.channel = channel)
    (hpeer : ∀ peer_handle body, i = .getPeer peer_handle body →
      (s.registry.peers.lookup peer_handle).isSome) :
    run x t i s = .blocked ∨
      Outcomes (fun s' code' => SendStage kind channel_handle data channel op t s' code' ∧
        sendSize code' < sendSize (i :: code)) code (run x t i s) := by
  generalize hcode : i :: code = whole at h
  cases h with
  | start hs =>
    cases hcode
    obtain ⟨entry,hentry,rfl⟩ := hexecute _ rfl
    right
    cases kind with
    | send =>
      simp only [BinarySend.operation,run,execute,get_channel,RuntimeState.get_channel,hentry]
      have hfind : SendStage .send channel_handle data entry.channel op t s
          (.getPeer entry.peer_handle (.send entry.channel (.sendBinary channel_handle data)) ::
            rest op) := .find hs
      exact ⟨hfind,by simp [sendSize]⟩
    | trySend =>
      simp only [BinarySend.operation,run,execute,get_channel,RuntimeState.get_channel,hentry]
      have hcall : SendStage .trySend channel_handle data entry.channel op t s
          (.call entry.channel (.trySendBinary channel_handle data) :: rest op) :=
        .call [] (by simp) hs
      exact ⟨hcall,by simp [sendSize]⟩
  | find hs =>
    cases hcode
    obtain ⟨entry,hentry⟩ := Option.isSome_iff_exists.mp (hpeer _ _ rfl)
    right
    simp only [run,getPeer,RuntimeState.get_peer,hentry]
    exact ⟨.wait hs,by simp [sendSize]⟩
  | wait hs =>
    cases hcode
    simp only [run,lock]
    split_ifs with hl
    · exact .inl rfl
    · exact .inr ⟨.call [.unlock _] (by simp) hs,by simp [sendSize,Locked.first]⟩
  | call guards hg hs =>
    cases hcode
    right
    have hsent : SendStage kind channel_handle data channel op t
        (s.record fun h => { h with sent := h.sent ++ [⟨t,channel,.binary data⟩] })
        (.request (kind.operation channel_handle data) :: (guards ++ rest op)) := by
      refine .request guards hg ?_
      simp only [sentBy,RuntimeState.record,List.filter_append] at hs ⊢
      rw [hs]
      simp
    cases kind with
    | send =>
      simp only [BinarySend.operation,run,Native.call,try_into_mut,if_neg hdata]
      exact ⟨hsent,by simp [sendSize]⟩
    | trySend =>
      simp only [BinarySend.operation,run,Native.call,try_into_mut,if_neg hdata]
      exact ⟨hsent,by simp [sendSize]⟩
  | request guards hg hs =>
    cases hcode
    simp only [run,Native.request]
    split
    · exact .inr (SendStage.answered hg hs)
    · exact .inl rfl
  | @ended result _ hs hc =>
    subst hcode
    right
    obtain h | ⟨h | h,hsent⟩ := hc
    · cases h
      have hend : Ended op result (s.send_event (.operation op result)) [.finish] :=
        .inr ⟨.inl rfl,by simp [RuntimeState.send_event]⟩
      exact ⟨.ended hs hend,by simp [sendSize]⟩
    · cases h
      exact ⟨.ended hs (.inr ⟨.inr rfl,hsent⟩),by simp [sendSize]⟩
    · cases h

section Run
variable {c c' : Config}

lemma sent_of_does {u : TaskId} {i : Instr} {o : Outcome} (hne : u ≠ t) (h : Does u s i o) :
    sentBy t (after o s) = sentBy t s := by
  cases h
  case call channel operation payloads =>
    simp [sentBy,after,RuntimeState.record,List.filter_append,List.filter_map,Function.comp_def,hne]
  all_goals rfl

/-- A step that is not one of the task. -/
lemma sent_other_step {l : Label} (hl : ∀ x, l ≠ .task t x) (hs : step l c = some c') :
    sentBy t c'.shared = sentBy t c.shared := by
  cases step_cases hs with
  | @task u x _ ht =>
    obtain ⟨i,code,o,locked,aborted,-,hdoes,hshared⟩ := shared_of_taskStep ht
    have hne : u ≠ t := fun hu => hl x (hu ▸ rfl)
    rw [hshared]
    exact sent_of_does hne hdoes
  | submit | completeError | announce | callback => rfl

/-- A task that has not been spawned has sent nothing. -/
lemma sentBy_unspawned {certificate : RTCCertificate} {ok : Label → Config → Prop}
    (h : Reachable certificate ok c) :
    ∀ t : ℕ, c.shared.nextTask ≤ t → sentBy t c.shared = [] := by
  refine h.induct (I := fun d => ∀ t : ℕ, d.shared.nextTask ≤ t → sentBy t d.shared = [])
    (fun _ _ => rfl) ?_
  intro l d d' hd hI _ hs t ht
  have hle : d.shared.nextTask ≤ t := (nextTask_le hs).trans ht
  have hl : ∀ x, l ≠ .task t x := by
    rintro x rfl
    obtain ⟨i,code,head,-⟩ := Machine.stepTask_cases hs
    have hlt : t < d.shared.nextTask := (spawned_of_reachable hd).lt (i := i) (by simp [head])
    omega
  rw [sent_other_step hl hs]
  exact hI t hle

lemma SendStage.own {x : Choice} (hdata : data ≠ [])
    (h : SendStage kind channel_handle data channel op t c.shared (c.tasks t))
    (hx : Sends channel_handle channel t (.task t x) c) (hs : step (.task t x) c = some c') :
    SendStage kind channel_handle data channel op t c'.shared (c'.tasks t) ∧
      sendSize (c'.tasks t) < sendSize (c.tasks t) := by
  obtain ⟨he,hd,hexecute,hpeer⟩ := hx x rfl
  have hall : ∀ i code, c.tasks t = i :: code → machine.exec x t i c.shared = .blocked ∨
      Outcomes (fun s' code' => SendStage kind channel_handle data channel op t s' code' ∧
        sendSize code' < sendSize (i :: code)) code (machine.exec x t i c.shared) := by
    intro i code head
    rw [head] at h
    change exec x t i c.shared = .blocked ∨ Outcomes _ code (exec x t i c.shared)
    rw [exec_eq_run he hd]
    refine h.advance hdata ?_ ?_
    · rintro operation rfl
      exact hexecute operation code head
    · rintro peer_handle body rfl
      exact hpeer peer_handle body code head
  cases Machine.taskStep_of_stepTask (M := machine) hs with
  | @next i code s code' head hexec =>
    have ho := hall i code head
    rw [hexec] at ho
    obtain ho | ho := ho
    · cases ho
    · simpa [head,Outcomes] using ho
  | @fork i code s code' child childCode head hexec =>
    have ho := hall i code head
    rw [hexec] at ho
    obtain ho | ho := ho
    · cases ho
    · exact ho.elim
  | @throw i code s e head hexec =>
    have ho := hall i code head
    rw [hexec] at ho
    obtain ho | ho := ho
    · cases ho
    · simpa [head,Outcomes] using ho

/-- The stages of the send over a whole run. -/
lemma sendStage_of_run (hdata : data ≠ []) (ht : t < c.shared.nextTask)
    (h : SendStage kind channel_handle data channel op t c.shared (c.tasks t))
    (hrun : Reaches step (Sends channel_handle channel t) c c') :
    t < c'.shared.nextTask ∧
      SendStage kind channel_handle data channel op t c'.shared (c'.tasks t) := by
  refine hrun.invariant (I := fun d => t < d.shared.nextTask ∧
    SendStage kind channel_handle data channel op t d.shared (d.tasks t)) ⟨ht,h⟩ ?_
  rintro l d d' ⟨hlt,hstage⟩ hok hs
  refine ⟨lt_of_lt_of_le hlt (nextTask_le hs),?_⟩
  by_cases hl : ∃ x, l = .task t x
  · obtain ⟨x,rfl⟩ := hl
    exact (hstage.own hdata hok hs).1
  · have hl : ∀ x, l ≠ .task t x := fun x he => hl ⟨x,he⟩
    rw [other_code hlt hl hs]
    exact hstage.mono (sent_other_step hl hs) (events_grow hs).subset

/-- The send is never stuck, unless the operations lock is held. -/
lemma SendStage.possible
    (h : SendStage kind channel_handle data channel op t c.shared (c.tasks t))
    (hne : c.tasks t ≠ []) : (step (.task t .ok) c).isSome = true ∨
      ∃ peer body code, c.tasks t = .lock peer body :: code ∧ c.shared.locked peer = true := by
  obtain ⟨i,code,head⟩ := List.exists_cons_of_ne_nil hne
  have hsome : run .ok t i c.shared ≠ .blocked → (step (.task t .ok) c).isSome = true := fun hrun =>
    Machine.stepTask_isSome (M := machine) head hrun
  rw [head] at h ⊢
  generalize hcode : i :: code = whole at h
  cases h with
  | start hs =>
    cases hcode
    refine .inl (hsome ?_)
    cases kind <;> simp only [BinarySend.operation,run,execute,get_channel] <;> split <;> simp
  | find hs =>
    cases hcode
    refine .inl (hsome ?_)
    simp only [run,getPeer]
    split <;> simp
  | @wait peer hs =>
    cases hcode
    by_cases hl : c.shared.locked peer = true
    · exact .inr ⟨_,_,_,rfl,hl⟩
    · exact .inl (hsome (by simp [run,lock,hl]))
  | call guards hg hs =>
    cases hcode
    refine .inl (hsome ?_)
    cases kind <;> simp only [BinarySend.operation,run,Native.call] <;> split <;> simp
  | request guards hg hs =>
    cases hcode
    refine .inl (hsome ?_)
    cases kind <;> simp [BinarySend.operation,run,Native.request,reply]
  | ended hs hc =>
    subst hcode
    refine .inl (hsome ?_)
    obtain h | ⟨h | h,-⟩ := hc <;> cases h <;> simp [run]

end Run
end Stages

/-- What the claim about binary sends asks of a state of the task of the command. -/
structure Delivered (channel_handle : UInt64) (data : List UInt8) (channel : ChannelRef)
    (operation_handle : UInt64) (t : TaskId) (d : Config) : Prop where
  /-- At its end the payload has been sent and the command is complete, -/
  ended : d.tasks t = [] → sentBy t d.shared = [⟨t,channel,.binary data⟩] ∧
    completions operation_handle d.shared = 1
  /-- to which it comes closer with every step of its own, -/
  closer : ∀ x d', Sends channel_handle channel t (.task t x) d → step (.task t x) d = some d' →
    sendSize (d'.tasks t) < sendSize (d.tasks t)
  /-- which others do not prevent, unless they hold the operations lock. -/
  others : ∀ l d', (∀ x, l ≠ .task t x) → step l d = some d' → d'.tasks t = d.tasks t
  moves : d.tasks t ≠ [] → (step (.task t .ok) d).isSome = true ∨
    ∃ peer body code, d.tasks t = .lock peer body :: code ∧ d.shared.locked peer = true

/-- In no run does the task of the command panic, and in every run in which it is not cut off and
finds the channel and its peer it hands the payload to the channel and completes. -/
def Delivers (kind : BinarySend) (data : List UInt8) : Prop :=
  ∀ certificate ok c₀ c x command commands channel_handle, Reachable certificate ok c₀ →
    c₀.tasks 0 = [.receive] → c₀.shared.commands = command :: commands →
      command.operation = kind.operation channel_handle data → step (.task 0 x) c₀ = some c →
        (∀ ok' d, Reaches step ok' c d → ∀ y s i code, d.tasks c₀.shared.nextTask = i :: code →
          machine.exec y c₀.shared.nextTask i d.shared ≠ .throw s .panicked) ∧
        ∀ channel d, Reaches step (Sends channel_handle channel c₀.shared.nextTask) c d →
          Distinct d.shared → Delivered channel_handle data channel command.operation_handle
            c₀.shared.nextTask d

section Delivery
variable {kind : BinarySend} {data : List UInt8}

lemma delivers_of_ne (hdata : data ≠ []) : Delivers kind data := by
  intro certificate ok c₀ c x command commands channel_handle hreach hidle hcommands hcall hstep
  have hne : command.operation ≠ .shutdown := by
    rw [hcall]
    cases kind <;> simp [BinarySend.operation]
  obtain ⟨hlt,hhistory,hcode⟩ := dispatch_cases hidle hcommands hne hstep
  have hfills : Fills c₀.shared.nextTask c := by
    intro j hj
    rw [hcode,hcall] at hj
    simp only [rest,List.mem_cons,List.not_mem_nil,or_false] at hj
    obtain rfl | rfl | rfl := hj
    · cases kind <;> simp [BinarySend.operation,Instr.sendsEmpty,Operation.sendsEmpty,hdata]
    · rfl
    · rfl
  have hc : Reachable certificate (fun _ _ => True) c :=
    .tail (hreach.weaken fun _ _ _ => trivial) ⟨_,trivial,hstep⟩
  constructor
  · intro ok' d hd y s i code head hpanic
    have hboth := hd.invariant (I := fun d => c₀.shared.nextTask < d.shared.nextTask ∧
      Fills c₀.shared.nextTask d) ⟨hlt,hfills⟩ fun l e e' hI _ hs =>
        ⟨hI.1.trans_le (nextTask_le hs),hI.2.step hI.1 hs⟩
    have hfull := hboth.2 i (by simp [head])
    rw [sendsEmpty_of_panic hpanic] at hfull
    cases hfull
  · intro channel d hd hdistinct
    have hstart : SendStage kind channel_handle data channel command.operation_handle
        c₀.shared.nextTask c.shared (c.tasks c₀.shared.nextTask) := by
      rw [hcode,hcall]
      refine .start ?_
      rw [sentBy,hhistory]
      exact sentBy_unspawned hreach _ le_rfl
    obtain ⟨hlt',hstage⟩ := sendStage_of_run hdata hlt hstart hd
    have hreach' : Reachable certificate (fun _ _ => True) d :=
      hc.trans (hd.weaken fun _ _ _ => trivial)
    refine ⟨fun hover => ?_,fun y d' hy hs => (hstage.own hdata hy hs).2,
      fun l d' hl hs => other_code hlt' hl hs,hstage.possible⟩
    rw [hover] at hstage
    generalize hnil : ([] : List Instr) = whole at hstage
    cases hstage with
    | ended hs hend =>
      subst hnil
      obtain h | ⟨-,hsent⟩ := hend
      · cases h
      · have hpos : 0 < completions command.operation_handle d.shared :=
          List.countP_pos_iff.mpr ⟨_,hsent,by simp⟩
        have hle := (completions_le_calls hreach' command.operation_handle).trans
          (hdistinct.calls_le _)
        exact ⟨hs,by omega⟩
    | start | find | wait | call | request => cases hnil

end Delivery

section EmptyPayload

def orderedChannel : DataChannelConfiguration where
  label := "data"
  ordered := true
  max_packet_life_time := none
  max_retransmits := none
  protocol := ""
  negotiated_id := none

def openAttributes : ChannelAttributes where
  label := "data"
  protocol := ""
  ordered := true
  id := 1
  negotiated := false
  max_packet_life_time := none
  max_retransmits := none
  isOpen := true

def emptySend (kind : BinarySend) : Command where
  operation_handle := 3
  timeout := ⟨1000⟩
  operation := kind.operation 2 []

/-- A peer and a channel of it are registered as 1 and 2, and an empty payload waits to be sent. -/
def emptyWaiting (kind : BinarySend) : List Label :=
  [.submit twoPortsCommand,
    .submit { operation_handle := 8, timeout := ⟨1000⟩,
              operation := .createDataChannel 1 orderedChannel },
    .submit (emptySend kind),.task 0 .ok,.task 1 .ok,.task 1 .ok,.task 1 .ok,.task 1 .ok,
    .task 0 .ok,.task 2 .ok,.task 2 .ok,
    .task 2 (.channel { id := 1, low_threshold := 0, high_threshold := 0 }),.task 2 .ok,
    .task 2 (.attributes openAttributes),.task 2 .ok,.task 2 .ok,.task 2 .ok]

/-- The labels that `Sends` admits for the channel 2, which is the first of the library. -/
def sends (l : Label) (c : Config) : Bool :=
  match l with
  | .task u x =>
    u ≠ 4 || match x,c.tasks 4 with
      | .expire,_ | .drop,_ => false
      | _,.execute _ :: _ => (c.shared.registry.channels.lookup 2).elim false (·.channel = 0)
      | _,.getPeer peer_handle _ :: _ => (c.shared.registry.peers.lookup peer_handle).isSome
      | _,_ => true
  | _ => true

lemma sends_sound (l : Label) (c : Config) (h : sends l c = true) : Sends 2 0 4 l c := by
  rintro x rfl
  simp only [sends,ne_eq,not_true_eq_false,decide_false,Bool.false_or] at h
  refine ⟨?_,?_,?_,?_⟩
  · rintro rfl
    cases h
  · rintro rfl
    cases h
  · intro operation code head
    rw [head] at h
    cases hl : c.shared.registry.channels.lookup 2 with
    | none =>
      rw [hl] at h
      cases x <;> cases h
    | some entry =>
      rw [hl] at h
      refine ⟨entry,rfl,?_⟩
      cases x <;> first | cases h | exact of_decide_eq_true h
  · intro peer_handle body code head
    rw [head] at h
    cases x <;> first | cases h | exact h

/-- The end of the command, at which nothing has been sent. -/
lemma empty_sent (kind : BinarySend) : ∃ c₀ c d,
    Interleaving.run step (emptyWaiting kind) (init ⟨"",[]⟩) = some c₀ ∧
    step (.task 0 .ok) c₀ = some c ∧ Reaches step (Sends 2 0 4) c d ∧
    c₀.tasks 0 = [.receive] ∧ c₀.shared.commands = [emptySend kind] ∧ c₀.shared.nextTask = 4 ∧
    d.tasks 4 = [] ∧ sentBy 4 d.shared = [] ∧
    d.shared.history.submitted.map Command.operation_handle ++ d.shared.history.refused =
      [7,8,3] := by
  have hrun : ((Interleaving.run step (emptyWaiting kind) (init ⟨"",[]⟩)).bind fun c₀ =>
      (step (.task 0 .ok) c₀).bind fun c =>
        (Interleaving.run (fun l d => if sends l d then step l d else none)
          ((List.range (if kind = .send then 5 else 3)).map fun _ => .task 4 .ok) c).map
            fun d => (c₀,c,d)).map (fun y => (y.1.tasks 0,y.1.shared.commands,y.1.shared.nextTask,
              y.2.2.tasks 4,sentBy 4 y.2.2.shared,
              y.2.2.shared.history.submitted.map Command.operation_handle ++
                y.2.2.shared.history.refused)) =
        some ([.receive],[emptySend kind],4,[],[],[7,8,3]) := by
    cases kind <;> rfl
  obtain ⟨⟨c₀,c,d⟩,hall,hseen⟩ := Option.map_eq_some_iff.mp hrun
  obtain ⟨_,hc₀,hall⟩ := Option.bind_eq_some_iff.mp hall
  obtain ⟨_,hc,hall⟩ := Option.bind_eq_some_iff.mp hall
  obtain ⟨_,hd,heq⟩ := Option.map_eq_some_iff.mp hall
  cases heq
  obtain ⟨hidle,hcommands,htask,hcode,hsent,hhandles⟩ := by simpa using hseen
  exact ⟨c₀,c,d,hc₀,hc,reaches_of_checked sends_sound hd,hidle,hcommands,htask,hcode,hsent,
    by simpa using hhandles⟩

lemma not_delivers_nil (kind : BinarySend) : ¬ Delivers kind [] := by
  intro h
  obtain ⟨c₀,c,d,hc₀,hc,hd,hidle,hcommands,htask,hcode,hsent,hhandles⟩ := empty_sent kind
  have hreach : Reachable ⟨"",[]⟩ (fun _ _ => True) c₀ :=
    reaches_of_run hc₀ fun _ _ _ => trivial
  have hdelivers := h _ _ c₀ c .ok (emptySend kind) [] 2 hreach hidle hcommands rfl hc
  rw [htask] at hdelivers
  have hdistinct : Distinct d.shared := by
    rw [Distinct,hhandles]
    decide
  have hdone := ((hdelivers.2 0 d hd hdistinct).ended hcode).1
  rw [hsent] at hdone
  cases hdone

/-- An empty payload is not delivered: the task panics and the command is never completed. -/
theorem empty_payload_panics : ¬ ∀ kind data, Delivers kind data := fun h =>
  not_delivers_nil .send (h .send [])

/-- A binary payload is delivered if and only if it is not empty. -/
theorem binary_delivered_iff (kind : BinarySend) (data : List UInt8) :
    Delivers kind data ↔ data ≠ [] := by
  refine ⟨?_,delivers_of_ne⟩
  rintro h rfl
  exact not_delivers_nil kind h

end EmptyPayload
end Kestara.Native
