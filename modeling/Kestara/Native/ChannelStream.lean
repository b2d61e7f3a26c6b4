import Kestara.Native.PortSearch
import Kestara.Native.Handles
import Kestara.Native.Duties

/-!
# The event stream of a channel

The events that carry the handle of one channel are its announcement, if the remote side has
opened it, and then the images of the events that its poll task has received.
-/
namespace Kestara.Native
open Interleaving

/-- The events of a channel handle, completions aside. -/
def streamOf (h : UInt64) (s : RuntimeState) : List NativeEvent :=
  s.events.filter fun e => e.channel_handle = h ∧ e.kind ≠ OPERATION_COMPLETE

/-- What `poll` has given for a channel handle. -/
def pollsOf (h : UInt64) (s : RuntimeState) : List DataChannelEvent :=
  (s.history.polls.filter (·.1 = h)).map (·.2)

section Events
variable {h peer_handle channel_handle : UInt64} {s : RuntimeState}

lemma streamOf_send_event (e : NativeEvent) : streamOf h (s.send_event e) =
    streamOf h s ++ if e.channel_handle = h ∧ e.kind ≠ OPERATION_COMPLETE then [e] else [] := by
  simp only [streamOf,RuntimeState.send_event,List.filter_append,List.filter_singleton]
  congr 1
  simp

lemma pollsOf_notePoll (e : DataChannelEvent) : pollsOf h (s.notePoll channel_handle e) =
    pollsOf h s ++ if channel_handle = h then [e] else [] := by
  simp only [pollsOf,RuntimeState.notePoll,RuntimeState.record,List.filter_append,List.map_append,
    List.filter_singleton]
  congr 1
  split_ifs with he <;> simp [he]

lemma image_handle (e : DataChannelEvent) :
    (e.image peer_handle channel_handle).channel_handle = channel_handle := by
  cases e with
  | onMessage is_string data => cases is_string <;> rfl
  | _ => rfl

/-- The kinds of the events that a poll task sends. -/
def polledKinds : List (BitVec 32) :=
  [DATA_CHANNEL_OPEN,DATA_CHANNEL_ERROR,DATA_CHANNEL_CLOSING,DATA_CHANNEL_CLOSED,DATA_CHANNEL_TEXT,
    DATA_CHANNEL_BINARY,DATA_CHANNEL_BUFFERED_AMOUNT_LOW,DATA_CHANNEL_BUFFERED_AMOUNT_HIGH]

lemma image_kind (e : DataChannelEvent) :
    (e.image peer_handle channel_handle).kind ∈ polledKinds := by
  cases e with
  | onMessage is_string data =>
    cases is_string <;> simp [DataChannelEvent.image,message_event,NativeEvent.channel,polledKinds]
  | _ => simp [DataChannelEvent.image,NativeEvent.channel,polledKinds]

/-- They are neither completions nor announcements nor events of a peer. -/
lemma polledKinds_apart : ∀ kind ∈ polledKinds, kind ≠ OPERATION_COMPLETE ∧ kind ≠ DATA_CHANNEL ∧
    kind ∉ stateKinds := by
  simp [polledKinds,stateKinds,OPERATION_COMPLETE,DATA_CHANNEL,DATA_CHANNEL_TEXT,
    DATA_CHANNEL_BINARY,DATA_CHANNEL_OPEN,DATA_CHANNEL_ERROR,DATA_CHANNEL_CLOSING,
    DATA_CHANNEL_CLOSED,DATA_CHANNEL_BUFFERED_AMOUNT_LOW,DATA_CHANNEL_BUFFERED_AMOUNT_HIGH]

lemma image_closed {e : DataChannelEvent}
    (he : (e.image peer_handle channel_handle).kind = DATA_CHANNEL_CLOSED) : e = .onClose := by
  cases e with
  | onClose => rfl
  | onMessage is_string data =>
    cases is_string <;> simp [DataChannelEvent.image,message_event,NativeEvent.channel,
      DATA_CHANNEL_TEXT,DATA_CHANNEL_BINARY,DATA_CHANNEL_CLOSED] at he
  | _ => simp [DataChannelEvent.image,NativeEvent.channel,DATA_CHANNEL_OPEN,DATA_CHANNEL_ERROR,
      DATA_CHANNEL_CLOSING,DATA_CHANNEL_CLOSED,DATA_CHANNEL_BUFFERED_AMOUNT_LOW,
      DATA_CHANNEL_BUFFERED_AMOUNT_HIGH] at he

end Events

/-- The instruction posts events of the channel handle, or leads to one that does. -/
def Instr.posts (h : UInt64) : Instr → Bool
  | .sendCreated event => event.channel_handle = h
  | .startPolling handle _ _ | .poll _ handle | .deliver _ handle _ _ => handle = h
  | _ => false

section Quiet
variable {x : Choice} {t : ℕ} {s : RuntimeState} {i : Instr} {o : Outcome} {h : UInt64}

/-- The instruction enters a channel under the handle. -/
def Instr.enters (h : UInt64) : Instr → Bool
  | .insertChannel handle _ _ _ _ => handle = h
  | _ => false

/-- What an instruction does that has nothing to do with the channel. -/
lemma quiet_of_does (hd : Does t s i o) (hp : i.posts h = false) (he : i.enters h = false) :
    (∀ j ∈ codeOf o, j.posts h = false) ∧ streamOf h (after o s) = streamOf h s ∧
      pollsOf h (after o s) = pollsOf h s := by
  cases hd with
  | insertChannel handle peer_handle channel emit attributes =>
    have hne : handle ≠ h := by simpa [Instr.enters] using he
    refine ⟨?_,rfl,rfl⟩
    cases emit <;> simp [codeOf,insertChannel,Instr.posts,created_event,hne]
  | lock peer body => cases body <;> exact ⟨by simp [codeOf,Locked.first,Instr.posts],rfl,rfl⟩
  | sendCreated event =>
    have hne : event.channel_handle ≠ h := by simpa [Instr.posts] using hp
    exact ⟨by simp [codeOf],by simp [after,streamOf_send_event,hne],rfl⟩
  | startPolling handle peer_handle channel entry =>
    have hne : handle ≠ h := by simpa [Instr.posts] using hp
    exact ⟨by simp [codeOf,Instr.posts],rfl,rfl⟩
  | polled peer_handle channel_handle event =>
    have hne : channel_handle ≠ h := by simpa [Instr.posts] using hp
    refine ⟨by simp [codeOf,Instr.posts,hne],?_,?_⟩
    · simp only [after,streamOf_send_event,image_handle,hne,false_and,if_false,List.append_nil]
      rfl
    · change pollsOf h (s.notePoll channel_handle event) = _
      simp [pollsOf_notePoll,hne]
  | closed peer_handle channel_handle =>
    have hne : channel_handle ≠ h := by simpa [Instr.posts] using hp
    refine ⟨by simp [codeOf,Instr.posts],?_,?_⟩
    · simp only [after,streamOf_send_event,image_handle,hne,false_and,if_false,List.append_nil]
      rfl
    · change pollsOf h (s.notePoll channel_handle .onClose) = _
      simp [pollsOf_notePoll,hne]
  | received peer_handle channel_handle is_string data =>
    have hne : channel_handle ≠ h := by simpa [Instr.posts] using hp
    refine ⟨by simp [codeOf,Instr.posts,hne],rfl,?_⟩
    simp [after,pollsOf_notePoll,hne]
  | deliver peer_handle channel_handle is_string data =>
    have hne : channel_handle ≠ h := by simpa [Instr.posts] using hp
    refine ⟨by simp [codeOf,Instr.posts,hne],?_,rfl⟩
    have himage : (message_event peer_handle channel_handle is_string data).channel_handle =
        channel_handle := image_handle (.onMessage is_string data)
    simp only [after,streamOf_send_event,himage,hne,false_and,if_false,List.append_nil]
    rfl
  | post operation_handle result =>
    refine ⟨by simp [codeOf],?_,rfl⟩
    cases result <;> simp [after,streamOf_send_event,NativeEvent.operation,NativeEvent.failure,
      OPERATION_COMPLETE]
  | shutdown | spawned =>
    refine ⟨?_,rfl,rfl⟩
    intro j hj
    simp only [codeOf,List.mem_append,List.mem_map,List.mem_cons,List.not_mem_nil,or_false] at hj
    obtain ⟨u,-,rfl⟩ | rfl | rfl := hj <;> rfl
  | _ => exact ⟨by simp [codeOf,Instr.posts],rfl,rfl⟩

/-- Whether a channel that the instruction is about to register has been opened by the remote
side. -/
def Instr.origin : Instr → Option Bool
  | .accept _ _ => some true
  | .execute _ | .getPeer _ _ | .lock _ (.createChannel _ _) | .createChannel _ _ => some false
  | .registerChannel _ _ emit | .readAttributes _ _ _ emit | .insertChannel _ _ _ emit _ =>
    some emit
  | _ => none

lemma origin_lock (peer : PeerRef) (body : Locked) : (Instr.lock peer body).origin = none ∨
    (Instr.lock peer body).origin = some false := by
  cases body with
  | createChannel => exact .inr rfl
  | _ => exact .inl rfl

lemma origin_first (peer : PeerRef) (body : Locked) : (body.first peer).origin = none ∨
    (body.first peer).origin = (Instr.lock peer body).origin := by
  cases body with
  | createChannel => exact .inr rfl
  | _ => exact .inl rfl

lemma finds_origin {peer_handle : UInt64} {body : Locked} (hi : i.finds = some (peer_handle,body)) :
    i.origin = some false := by
  cases i with
  | getPeer | execute => rfl
  | _ => cases hi

lemma origin_of_does (hd : Does t s i o) :
    ∀ j ∈ codeOf o, j.origin = none ∨ j.origin = i.origin := by
  cases hd with
  | @findPeer _ peer_handle body entry hi =>
    simp only [codeOf,List.mem_cons,List.not_mem_nil,or_false,forall_eq,finds_origin hi]
    exact origin_lock entry.peer body
  | lock peer body =>
    simp only [codeOf,List.mem_cons,List.not_mem_nil,or_false,forall_eq_or_imp,forall_eq]
    exact ⟨origin_first peer body,.inl rfl⟩
  | insertChannel handle peer_handle channel emit attributes =>
    cases emit <;> simp [codeOf,insertChannel,Instr.origin]
  | shutdown | spawned =>
    intro j hj
    simp only [codeOf,List.mem_append,List.mem_map,List.mem_cons,List.not_mem_nil,or_false] at hj
    obtain ⟨u,-,rfl⟩ | rfl | rfl := hj <;> exact .inl rfl
  | _ => simp [codeOf,Instr.origin]

lemma commandRule_origin :
    CommandRule fun cmd j => ∀ remote, j.origin = some remote → (cmd = none ↔ remote = true) where
  code hdoes hi j hj remote hremote := by
    obtain h | h := origin_of_does hdoes j hj
    · rw [h] at hremote
      cases hremote
    · exact hi remote (h ▸ hremote)
  handler hc j hj remote hremote := by
    simp only [machine,handler] at hc
    split at hc <;> cases hc <;> simp only [List.mem_cons,List.not_mem_nil,or_false] at hj
    · obtain rfl := hj
      cases hremote
    · obtain rfl | rfl | rfl := hj <;> cases hremote
    · obtain rfl | rfl | rfl | rfl := hj <;> cases hremote
    · obtain rfl := hj
      cases hremote
  dispatched command j hj remote hremote := by
    simp only [List.mem_cons,List.not_mem_nil,or_false] at hj
    obtain rfl | rfl | rfl := hj <;> cases hremote
    simp
  spawned _ _ _ _ j hj remote hremote := by
    simp only [List.mem_cons,List.not_mem_nil,or_false] at hj
    obtain rfl | rfl | rfl | rfl | rfl := hj <;> cases hremote
    simp

end Quiet

/-- The announcement of a channel that a task has registered: only a task that serves no command
has registered it for the remote side. -/
def Announced (t : TaskId) (handle peer_handle : UInt64) (s : RuntimeState)
    (announced : List NativeEvent) : Prop :=
  s.command t = none ∧ (∃ attributes, announced = [created_event peer_handle handle attributes]) ∨
    s.command t ≠ none ∧ announced = []

/-- A task has the code `pre` still to run for the channel handle, and no other task has any. -/
structure Owner (h : UInt64) (c : Config) (u : ℕ) (pre : List Instr) : Prop where
  code : ∃ rest, c.tasks u = pre ++ rest ∧ ∀ j ∈ rest, j.posts h = false
  others : ∀ v, v ≠ u → ∀ j ∈ c.tasks v, j.posts h = false

/-- The stages of a channel that a task has registered: who has to go on with it, and which events
have been sent for it. -/
inductive StreamStage (handle peer_handle : UInt64) (announced : List NativeEvent) (c : Config) :
    Prop
  | announcing (u channel e) (ho : Owner handle c u [.sendCreated e,.startPolling handle peer_handle channel])
      (ha : announced = [e]) (he : e.channel_handle = handle ∧ e.kind = DATA_CHANNEL)
      (hs : streamOf handle c.shared = []) (hp : pollsOf handle c.shared = [])
  | starting (u channel) (ho : Owner handle c u [.startPolling handle peer_handle channel])
      (hs : streamOf handle c.shared = announced) (hp : pollsOf handle c.shared = [])
  | polling (u) (ho : Owner handle c u [.poll peer_handle handle])
      (hn : c.shared.command u = none) (hu : u < c.shared.nextTask)
      (hs : streamOf handle c.shared =
        announced ++ (pollsOf handle c.shared).map (·.image peer_handle handle))
      (hp : .onClose ∉ pollsOf handle c.shared)
  | delivering (u is_string data polls)
      (ho : Owner handle c u [.deliver peer_handle handle is_string data])
      (hn : c.shared.command u = none) (hu : u < c.shared.nextTask)
      (hs : streamOf handle c.shared = announced ++ polls.map (·.image peer_handle handle))
      (hp : pollsOf handle c.shared = polls ++ [.onMessage is_string data])
      (hc : .onClose ∉ polls)
  | finished (hq : ∀ v, ∀ j ∈ c.tasks v, j.posts handle = false)
      (hs : streamOf handle c.shared =
        announced ++ (pollsOf handle c.shared).map (·.image peer_handle handle))
      (hp : ∀ before after, pollsOf handle c.shared = before ++ .onClose :: after → after = [])
  | cut (is_string data polls) (hq : ∀ v, ∀ j ∈ c.tasks v, j.posts handle = false)
      (hs : streamOf handle c.shared = announced ++ polls.map (·.image peer_handle handle))
      (hp : pollsOf handle c.shared = polls ++ [.onMessage is_string data])
      (hc : .onClose ∉ polls)
      (hd : c.shared.stopped = true ∨ ∃ u, c.shared.aborted u = true)

section Stages
variable {x : Choice} {c c' : Config} {l : Label} {h peer_handle : UInt64}
  {announced : List NativeEvent}

lemma posts_of_handler {e : Exit} {k : Instr} {code : List Instr}
    (hc : machine.handler e k = some code) : ∀ j ∈ code, j.posts h = false := by
  simp only [machine,handler] at hc
  split at hc <;> cases hc <;> simp [Instr.posts]

lemma quiet_unwind {rest : List Instr} (hrest : ∀ j ∈ rest, j.posts h = false) (e : Exit)
    (s : RuntimeState) : ∀ j ∈ (machine.unwind e rest s).2, j.posts h = false := by
  intro j hj
  obtain hj | ⟨k,-,code,hc,hj⟩ := Machine.mem_unwind hj
  · exact hrest j hj
  · exact posts_of_handler hc j hj

lemma quiet_child {t : ℕ} {s s' : RuntimeState} {i : Instr} {code childCode : List Instr}
    {child : TaskId} (hd : Does t s i (.fork s' code child childCode)) (hi : i.posts h = false) :
    ∀ j ∈ childCode, j.posts h = false := by
  cases hd with
  | startPolling handle peer_handle channel entry =>
    have hne : handle ≠ h := by simpa [Instr.posts] using hi
    simp [Instr.posts,hne]
  | spawnClose => simp [Instr.posts]
  | dispatch => simp [Instr.posts]

/-- What a step does that has nothing to do with the channel. -/
structure Silent (h : UInt64) (c c' : Config) : Prop where
  quiet : ∀ w, (∀ j ∈ c.tasks w, j.posts h = false) → ∀ j ∈ c'.tasks w, j.posts h = false
  stream : streamOf h c'.shared = streamOf h c.shared
  polls : pollsOf h c'.shared = pollsOf h c.shared

lemma silent_taskStep {v : ℕ} (hq : ∀ j ∈ c.tasks v, j.posts h = false)
    (he : ∀ i rest, c.tasks v = i :: rest → i.enters h = false)
    (hs : Machine.TaskStep machine x v c c') : Silent h c c' := by
  obtain ⟨i,rest,o,locked,aborted,head,hdoes,hshared⟩ := shared_of_taskStep hs
  obtain ⟨-,hstream,hpolls⟩ := quiet_of_does hdoes (hq i (by simp [head])) (he i rest head)
  refine ⟨fun w hw => ?_,hshared ▸ hstream,hshared ▸ hpolls⟩
  refine code_of_taskStep (P := fun code => ∀ j ∈ code, j.posts h = false) hs hw ?_ ?_ ?_
  · intro i rest o _ head hexec ho _ j hj
    obtain hj | hj := List.mem_append.mp hj
    · exact (quiet_of_does (does_of hexec ho) (hq i (by simp [head])) (he i rest head)).1 j hj
    · exact hq j (by simp [head,hj])
  · exact fun head hdoes => quiet_child hdoes (hq _ (by simp [head]))
  · intro i rest s e _ head _
    exact quiet_unwind (fun k hk => hq k (by simp [head,hk])) e s

lemma silent_step (hh : h ≠ 0) (hq : ∀ v x, l = .task v x → ∀ j ∈ c.tasks v, j.posts h = false)
    (he : ∀ v x, l = .task v x → ∀ i rest, c.tasks v = i :: rest → i.enters h = false)
    (hs : step l c = some c') : Silent h c c' := by
  cases step_cases hs with
  | @task v x _ ht => exact silent_taskStep (hq v x rfl) (he v x rfl) ht
  | submit command hr => exact ⟨fun _ hw => hw,rfl,rfl⟩
  | completeError operation_handle error =>
    refine ⟨fun _ hw => hw,?_,rfl⟩
    change streamOf h (c.shared.send_event (.failure operation_handle error)) = _
    simp [streamOf_send_event,NativeEvent.failure,OPERATION_COMPLETE]
  | announce peer channel hp =>
    refine ⟨fun w hw j hj => ?_,rfl,rfl⟩
    by_cases hv : w = c.shared.nextTask
    · subst hv
      simp only [Function.update_self,List.mem_cons,List.not_mem_nil,or_false] at hj
      obtain rfl | rfl := hj <;> rfl
    · exact hw j (by simpa [Function.update_of_ne hv] using hj)
  | callback peer y hy =>
    refine ⟨fun _ hw => hw,?_,rfl⟩
    have hzero : (y.event (c.shared.peer peer).handle).channel_handle = 0 := by cases y <;> rfl
    simp [streamOf_send_event,hzero,hh.symm]

lemma Owner.lt {u : ℕ} {i : Instr} {pre : List Instr} (ho : Owner h c u (i :: pre))
    (hspawned : Spawned c) : u < c.shared.nextTask := by
  obtain ⟨rest,hcode,-⟩ := ho.code
  exact hspawned.lt (i := i) (by simp [hcode])

lemma Owner.kept {u : ℕ} {i : Instr} {pre : List Instr} (ho : Owner h c u (i :: pre))
    (hspawned : Spawned c) (hsilent : Silent h c c') (hl : ∀ x, l ≠ .task u x)
    (hs : step l c = some c') : Owner h c' u (i :: pre) := by
  refine ⟨?_,fun v hv => hsilent.quiet v (ho.others v hv)⟩
  rw [other_code (ho.lt hspawned) hl hs]
  exact ho.code

/-- A step that does not go on with the channel. -/
lemma StreamStage.other (hstage : StreamStage h peer_handle announced c) (hspawned : Spawned c)
    (hh : h ≠ 0) (he : ∀ v i rest, c.tasks v = i :: rest → i.enters h = false)
    (hl : ∀ v x, l = .task v x → ∀ j ∈ c.tasks v, j.posts h = false) (hs : step l c = some c') :
    StreamStage h peer_handle announced c' := by
  have hsilent := silent_step hh hl (fun v _ _ => he v) hs
  have ha := ahead_of_step hs
  have hne : ∀ {u i pre}, Owner h c u (i :: pre) → i.posts h = true → ∀ x, l ≠ .task u x := by
    rintro u i pre ho hi x rfl
    obtain ⟨rest,hcode,-⟩ := ho.code
    rw [hl u x rfl i (by simp [hcode])] at hi
    cases hi
  cases hstage with
  | announcing u channel e ho hann hevent hstream hpolls =>
    exact .announcing u channel e
      (ho.kept hspawned hsilent (hne ho (by simp [Instr.posts,hevent.1])) hs) hann hevent
      (hsilent.stream.trans hstream) (hsilent.polls.trans hpolls)
  | starting u channel ho hstream hpolls =>
    exact .starting u channel (ho.kept hspawned hsilent (hne ho (by simp [Instr.posts])) hs)
      (hsilent.stream.trans hstream) (hsilent.polls.trans hpolls)
  | polling u ho hn hu hstream hpolls =>
    refine .polling u (ho.kept hspawned hsilent (hne ho (by simp [Instr.posts])) hs)
      ((command_kept hu hs).trans hn) (hu.trans_le (nextTask_le hs)) ?_ ?_
    · rw [hsilent.stream,hsilent.polls]
      exact hstream
    · rw [hsilent.polls]
      exact hpolls
  | delivering u is_string data polls ho hn hu hstream hpolls hclose =>
    exact .delivering u is_string data polls
      (ho.kept hspawned hsilent (hne ho (by simp [Instr.posts])) hs)
      ((command_kept hu hs).trans hn) (hu.trans_le (nextTask_le hs)) (hsilent.stream.trans hstream)
      (hsilent.polls.trans hpolls) hclose
  | finished hq hstream hpolls =>
    refine .finished (fun v => hsilent.quiet v (hq v)) ?_ ?_
    · rw [hsilent.stream,hsilent.polls]
      exact hstream
    · rw [hsilent.polls]
      exact hpolls
  | cut is_string data polls hq hstream hpolls hclose hd =>
    exact .cut is_string data polls (fun v => hsilent.quiet v (hq v))
      (hsilent.stream.trans hstream) (hsilent.polls.trans hpolls) hclose
      (hd.imp ha.stopped fun ⟨u,hu⟩ => ⟨u,ha.aborted u hu⟩)

lemma owner_update {u : ℕ} {pre rest : List Instr} (hrest : ∀ j ∈ rest, j.posts h = false)
    (hothers : ∀ v, v ≠ u → ∀ j ∈ c.tasks v, j.posts h = false)
    (htasks : c'.tasks = Function.update c.tasks u (pre ++ rest)) : Owner h c' u pre := by
  refine ⟨⟨rest,by simp [htasks],hrest⟩,fun v hv => ?_⟩
  rw [htasks,Function.update_of_ne hv]
  exact hothers v hv

lemma quiet_update {tasks : ℕ → List Instr} {u : ℕ} {code : List Instr}
    (hcode : ∀ j ∈ code, j.posts h = false)
    (hothers : ∀ v, v ≠ u → ∀ j ∈ tasks v, j.posts h = false) :
    ∀ v, ∀ j ∈ Function.update tasks u code v, j.posts h = false := by
  intro v
  by_cases hv : v = u
  · subst hv
    simpa using hcode
  · rw [Function.update_of_ne hv]
    exact hothers v hv

/-- A task that leaves its function leaves the channel as it is. -/
lemma throws_of_posts {t : ℕ} {s s' : RuntimeState} {i : Instr} {e : Exit}
    (hd : Does t s i (.throw s' e)) (hi : i.posts h = true) : s' = s := by
  cases hd with
  | leave | dropped => rfl
  | panicked | giveUp | rotate | noPeer | insertPeer => cases hi

/-- After the last event has been sent, the stream only ends. -/
lemma StreamStage.thrown {u : ℕ} {i : Instr} {rest : List Instr} {s : RuntimeState} {e : Exit}
    (hrest : ∀ j ∈ rest, j.posts h = false)
    (hothers : ∀ v, v ≠ u → ∀ j ∈ c.tasks v, j.posts h = false) (hi : i.posts h = true)
    (hd : Does u c.shared i (.throw s e))
    (hs : streamOf h c.shared =
      announced ++ (pollsOf h c.shared).map (·.image peer_handle h))
    (hp : .onClose ∉ pollsOf h c.shared) :
    StreamStage h peer_handle announced
      ⟨(machine.unwind e rest s).1,Function.update c.tasks u (machine.unwind e rest s).2⟩ := by
  cases throws_of_posts hd hi
  have hquiet := quiet_update (quiet_unwind hrest e c.shared) hothers
  obtain ⟨locked,aborted,hu⟩ := unwind_kept e rest c.shared
  refine .finished hquiet ?_ ?_
  · rw [hu]
    exact hs
  · rw [hu]
    intro before after hsplit
    refine absurd ?_ hp
    change pollsOf h c.shared = _ at hsplit
    simp [hsplit]

/-- The announcement is sent. -/
lemma StreamStage.announce {u : ℕ} {channel : ChannelRef} {e : NativeEvent}
    (ho : Owner h c u [.sendCreated e,.startPolling h peer_handle channel])
    (ha : announced = [e]) (he : e.channel_handle = h ∧ e.kind = DATA_CHANNEL)
    (hstream : streamOf h c.shared = []) (hp : pollsOf h c.shared = [])
    (hs : Machine.TaskStep machine x u c c') : StreamStage h peer_handle announced c' := by
  obtain ⟨rest,hcode,hrest⟩ := ho.code
  obtain ⟨hshared,htasks⟩ := taskStep_plain hs hcode rfl rfl (by simp) rfl
  refine .starting u channel (owner_update hrest ho.others (by simp [htasks])) ?_ ?_
  · have hkind : DATA_CHANNEL ≠ OPERATION_COMPLETE := by simp [DATA_CHANNEL,OPERATION_COMPLETE]
    rw [hshared,streamOf_send_event,hstream,ha]
    simp [he.1,he.2,hkind]
  · rw [hshared]
    exact hp

/-- The poll task is spawned. -/
lemma StreamStage.start {u : ℕ} {channel : ChannelRef} (hspawned : Spawned c)
    (ho : Owner h c u [.startPolling h peer_handle channel])
    (hstream : streamOf h c.shared = announced) (hp : pollsOf h c.shared = [])
    (hs : Machine.TaskStep machine x u c c') : StreamStage h peer_handle announced c' := by
  obtain ⟨rest,hcode,hrest⟩ := ho.code
  cases hs with
  | next head hexec =>
    cases hcode.symm.trans head
    cases does_of hexec (by simp) with
    | findPeer hi => cases hi
    | skip hi => obtain ⟨op,hi⟩ | ⟨op,hi⟩ := hi <;> cases hi
    | joined task hi => obtain hi | hi := hi <;> cases hi
  | throw head hexec =>
    cases hcode.symm.trans head
    refine .thrown hrest ho.others (by simp [Instr.posts]) (does_of hexec (by simp)) ?_ ?_
    · simp [hstream,hp]
    · simp [hp]
  | fork head hexec =>
    cases hcode.symm.trans head
    cases does_of hexec (by simp) with
    | startPolling handle peer_handle channel entry hentry =>
      have hu : u < c.shared.nextTask := ho.lt hspawned
      have hne : u ≠ c.shared.nextTask := Nat.ne_of_lt hu
      refine .polling c.shared.nextTask ⟨⟨[.finish],by simp,by simp [Instr.posts]⟩,?_⟩
        (hspawned.command _ le_rfl) (Nat.lt_succ_self _) ?_ ?_
      · intro v hv
        simp only [Function.update_of_ne hv]
        by_cases hvu : v = u
        · subst hvu
          simpa [Instr.posts] using hrest
        · rw [Function.update_of_ne hvu]
          exact ho.others v hvu
      · change streamOf _ c.shared = announced ++ (pollsOf _ c.shared).map _
        simp [hstream,hp]
      · change .onClose ∉ pollsOf _ c.shared
        simp [hp]

/-- The poll task receives an event, or the end of the channel. -/
lemma StreamStage.poll {u : ℕ} (ho : Owner h c u [.poll peer_handle h])
    (hn : c.shared.command u = none) (hu : u < c.shared.nextTask)
    (hstream : streamOf h c.shared =
      announced ++ (pollsOf h c.shared).map (·.image peer_handle h))
    (hp : .onClose ∉ pollsOf h c.shared)
    (hs : Machine.TaskStep machine x u c c') : StreamStage h peer_handle announced c' := by
  obtain ⟨rest,hcode,hrest⟩ := ho.code
  have hpolls : ∀ e, pollsOf h (c.shared.notePoll h e) = pollsOf h c.shared ++ [e] := fun e => by
    simp [pollsOf_notePoll]
  have hsent : ∀ e : DataChannelEvent,
      streamOf h ((c.shared.notePoll h e).send_event (e.image peer_handle h)) =
        announced ++ (pollsOf h c.shared ++ [e]).map (·.image peer_handle h) := fun e => by
    have hkept : streamOf h (c.shared.notePoll h e) = streamOf h c.shared := rfl
    simp [streamOf_send_event,image_handle,(polledKinds_apart _ (image_kind e)).1,hkept,hstream]
  cases hs with
  | fork head hexec =>
    cases hcode.symm.trans head
    cases does_of hexec (by simp)
  | throw head hexec =>
    cases hcode.symm.trans head
    exact .thrown hrest ho.others (by simp [Instr.posts]) (does_of hexec (by simp)) hstream hp
  | next head hexec =>
    cases hcode.symm.trans head
    cases does_of hexec (by simp) with
    | findPeer hi => cases hi
    | skip hi => obtain ⟨op,hi⟩ | ⟨op,hi⟩ := hi <;> cases hi
    | joined task hi => obtain hi | hi := hi <;> cases hi
    | polled _ _ event hm hc =>
      refine .polling u (owner_update hrest ho.others rfl) hn hu ?_ ?_
      · exact (hsent event).trans (by rw [← hpolls]; rfl)
      · change .onClose ∉ pollsOf h (c.shared.notePoll h event)
        rw [hpolls,List.mem_append,List.mem_singleton]
        rintro (hmem | rfl)
        · exact hp hmem
        · exact hc rfl
    | closed =>
      refine .finished (quiet_update (by simpa [Instr.posts] using hrest) ho.others) ?_ ?_
      · exact (hsent .onClose).trans (by rw [← hpolls]; rfl)
      · intro before after hsplit
        change pollsOf h (c.shared.notePoll h .onClose) = _ at hsplit
        rw [hpolls] at hsplit
        obtain ⟨left,hleft,hright⟩ | ⟨left,hleft,hright⟩ := List.append_eq_append_iff.mp hsplit
        · cases left with
          | nil => simpa using hright.symm
          | cons e left => simp at hright
        · cases left with
          | nil => simpa using hright
          | cons e left =>
            cases hright
            simp [hleft] at hp
    | ended =>
      refine .finished (quiet_update (by simpa [Instr.posts] using hrest) ho.others)
        hstream ?_
      intro before after hsplit
      simp [hsplit] at hp
    | received _ _ is_string data =>
      exact .delivering u is_string data (pollsOf h c.shared)
        (owner_update hrest ho.others rfl) hn hu hstream (hpolls _) hp

/-- A task without a command leaves the delivery only when it is dropped. -/
lemma dropped_of_deliver {u : ℕ} {is_string : Bool} {data : List UInt8} {s : RuntimeState}
    {e : Exit} (hn : c.shared.command u = none)
    (he : machine.exec x u (.deliver peer_handle h is_string data) c.shared = .throw s e) :
    c.shared.aborted u = true ∨ c.shared.stopped = true := by
  cases x with
  | expire => simp [machine,exec,expire,hn] at he
  | drop =>
    simp only [machine,exec,drop] at he
    split_ifs at he with hd
    exact hd.2.2
  | _ =>
    simp only [machine,exec,run,deliver] at he
    split_ifs at he

/-- The poll task has a permit for its message. -/
lemma StreamStage.deliver {u : ℕ} {is_string : Bool} {data : List UInt8}
    {polls : List DataChannelEvent} (ho : Owner h c u [.deliver peer_handle h is_string data])
    (hn : c.shared.command u = none) (hu : u < c.shared.nextTask)
    (hstream : streamOf h c.shared = announced ++ polls.map (·.image peer_handle h))
    (hp : pollsOf h c.shared = polls ++ [.onMessage is_string data]) (hclose : .onClose ∉ polls)
    (hs : Machine.TaskStep machine x u c c') : StreamStage h peer_handle announced c' := by
  obtain ⟨rest,hcode,hrest⟩ := ho.code
  cases hs with
  | fork head hexec =>
    cases hcode.symm.trans head
    cases does_of hexec (by simp)
  | @throw _ _ s e head hexec =>
    cases hcode.symm.trans head
    cases throws_of_posts (does_of hexec (by simp)) (h := h) (by simp [Instr.posts])
    have hd := dropped_of_deliver hn hexec
    have haborted := unwind_aborted e rest c.shared
    have hquiet := quiet_update (quiet_unwind hrest e c.shared) ho.others
    obtain ⟨locked,aborted,hunwind⟩ := unwind_kept e rest c.shared
    refine .cut is_string data polls hquiet ?_ ?_ hclose ?_
    · change streamOf h (machine.unwind e rest c.shared).1 = _
      rw [hunwind]
      exact hstream
    · change pollsOf h (machine.unwind e rest c.shared).1 = _
      rw [hunwind]
      exact hp
    · obtain hd | hd := hd
      · exact .inr ⟨u,haborted u hd⟩
      · left
        change (machine.unwind e rest c.shared).1.stopped = true
        rw [hunwind]
        exact hd
  | next head hexec =>
    cases hcode.symm.trans head
    cases does_of hexec (by simp) with
    | findPeer hi => cases hi
    | skip hi => obtain ⟨op,hi⟩ | ⟨op,hi⟩ := hi <;> cases hi
    | joined task hi => obtain hi | hi := hi <;> cases hi
    | deliver _ _ _ _ hslots =>
      refine .polling u (owner_update hrest ho.others rfl) hn hu ?_ ?_
      · have hkind : (message_event peer_handle h is_string data).kind ≠ OPERATION_COMPLETE :=
          (polledKinds_apart _ (image_kind (.onMessage is_string data))).1
        have hhandle : (message_event peer_handle h is_string data).channel_handle = h :=
          image_handle (.onMessage is_string data)
        change streamOf h (RuntimeState.send_event _ _) = announced ++ (pollsOf h c.shared).map _
        rw [streamOf_send_event,hp]
        change streamOf h c.shared ++ _ = _
        simp [hstream,hhandle,hkind,DataChannelEvent.image]
      · change .onClose ∉ pollsOf h c.shared
        rw [hp]
        simpa using hclose

/-- A step while the channel is registered. -/
lemma StreamStage.step (hstage : StreamStage h peer_handle announced c) (hspawned : Spawned c)
    (hh : h ≠ 0) (he : ∀ v i rest, c.tasks v = i :: rest → i.enters h = false)
    (hs : step l c = some c') : StreamStage h peer_handle announced c' := by
  by_cases hl : ∀ v x, l = .task v x → ∀ j ∈ c.tasks v, j.posts h = false
  · exact hstage.other hspawned hh he hl hs
  · push Not at hl
    obtain ⟨v,x,rfl,j,hj,hposts⟩ := hl
    have ht := Machine.taskStep_of_stepTask (M := machine) hs
    have howner : ∀ {u pre}, Owner h c u pre → u = v := by
      intro u pre ho
      by_contra hne
      exact hposts (ho.others v (Ne.symm hne) j hj)
    cases hstage with
    | announcing u channel e ho hann hevent hstream hpolls =>
      cases howner ho
      exact .announce ho hann hevent hstream hpolls ht
    | starting u channel ho hstream hpolls =>
      cases howner ho
      exact .start hspawned ho hstream hpolls ht
    | polling u ho hn hu hstream hpolls =>
      cases howner ho
      exact .poll ho hn hu hstream hpolls ht
    | delivering u is_string data polls ho hn hu hstream hpolls hclose =>
      cases howner ho
      exact .deliver ho hn hu hstream hpolls hclose ht
    | finished hq hstream hpolls => exact absurd (hq v j hj) hposts
    | cut is_string data polls hq hstream hpolls hclose hd => exact absurd (hq v j hj) hposts

/-- Nothing has been sent under the handle, and nothing is going to be. -/
structure Unseen (h : UInt64) (c : Config) : Prop where
  quiet : ∀ v, ∀ j ∈ c.tasks v, j.posts h = false
  stream : streamOf h c.shared = []
  polls : pollsOf h c.shared = []

/-- The channel is entered into the registry. -/
lemma StreamStage.enter {v : ℕ} {channel : ChannelRef} {emit : Bool}
    {attributes : ChannelAttributes} {rest : List Instr} (hu : Unseen h c)
    (head : c.tasks v = .insertChannel h peer_handle channel emit attributes :: rest)
    (hs : Native.step (.task v x) c = some c') :
    StreamStage h peer_handle
      (if emit then [created_event peer_handle h attributes] else []) c' := by
  obtain ⟨hshared,htasks⟩ :=
    taskStep_plain (Machine.taskStep_of_stepTask hs) head rfl rfl (by simp) rfl
  have hrest : ∀ j ∈ rest, j.posts h = false := fun j hj => hu.quiet v j (by simp [head,hj])
  have hstream : streamOf h c'.shared = [] := by
    rw [hshared]
    exact hu.stream
  have hpolls : pollsOf h c'.shared = [] := by
    rw [hshared]
    exact hu.polls
  cases emit with
  | true =>
    exact .announcing v channel _ (owner_update hrest (fun w _ => hu.quiet w) htasks) rfl ⟨rfl,rfl⟩
      hstream hpolls
  | false =>
    exact .starting v channel (owner_update hrest (fun w _ => hu.quiet w) htasks) hstream hpolls

end Stages
section Registered
variable {x : Choice} {t : ℕ} {s : RuntimeState} {i : Instr} {o : Outcome} {c c' : Config}
  {l : Label} {h : UInt64}

/-- What a step enters into the registry. -/
lemma entered_of_step (hs : step l c = some c') {r : Registration}
    (hr : r ∈ c'.shared.history.registered) : r ∈ c.shared.history.registered ∨
      ∃ x i rest, l = .task r.task x ∧ c.tasks r.task = i :: rest ∧ i.holds r.handle = 1 ∧
        ∀ channel peer_handle, r.object = .channel channel peer_handle →
          ∃ emit attributes, i = .insertChannel r.handle peer_handle channel emit attributes := by
  cases step_cases hs with
  | submit | completeError | announce | callback => exact .inl hr
  | @task v x _ ht =>
    obtain ⟨i,rest,o,locked,aborted,head,hdoes,hshared⟩ := shared_of_taskStep ht
    rw [hshared] at hr
    cases hdoes
    case insertPeer handle peer receive_queue_capacity =>
      simp only [after,RuntimeState.record,List.mem_append,List.mem_singleton] at hr
      obtain hr | rfl := hr
      · exact .inl hr
      · exact .inr ⟨x,_,rest,rfl,head,by simp [Instr.holds],by simp⟩
    case insertChannel handle peer_handle channel emit attributes =>
      simp only [after,insertChannel,RuntimeState.record,List.mem_append,List.mem_singleton] at hr
      obtain hr | rfl := hr
      · exact .inl hr
      · refine .inr ⟨x,_,rest,rfl,head,by simp [Instr.holds],?_⟩
        rintro channel' peer_handle' ⟨⟩
        exact ⟨emit,attributes,rfl⟩
    all_goals exact .inl hr

/-- The streams of all channels. -/
structure Streams (c : Config) : Prop where
  unseen : ∀ h, h ≠ 0 → ¬ Registered h c.shared → Unseen h c
  stage : ∀ t h channel peer_handle, h ≠ 0 →
    ⟨t,h,.channel channel peer_handle⟩ ∈ c.shared.history.registered →
      t < c.shared.nextTask ∧ ∃ announced, Announced t h peer_handle c.shared announced ∧
        StreamStage h peer_handle announced c

lemma enters_holds {j : Instr} (hj : j.enters h = true) : j.holds h = 1 := by
  cases j with
  | insertChannel handle peer_handle channel emit attributes =>
    simpa [Instr.holds,Instr.enters] using hj
  | _ => cases hj

lemma registered_of_enters {v : ℕ} {rest : List Instr} (head : c.tasks v = i :: rest)
    (hi : i.enters h = true) (hs : step (.task v x) c = some c') : Registered h c'.shared := by
  cases i with
  | insertChannel handle peer_handle channel emit attributes =>
    have hh : handle = h := by simpa [Instr.enters] using hi
    obtain ⟨hshared,-⟩ :=
      taskStep_plain (Machine.taskStep_of_stepTask hs) head rfl rfl (by simp) rfl
    rw [hshared,Registered]
    simp [RuntimeState.record,RuntimeState.setRegistry,hh]
  | _ => cases hi

lemma Streams.step (h : Streams c) (hinv : HandleInv c) (hn : Unwrapped c'.shared)
    (horigin : ∀ u, ∀ j ∈ c.tasks u, ∀ remote, j.origin = some remote →
      (c.shared.command u = none ↔ remote = true))
    (hs : Native.step l c = some c') : Streams c' := by
  have hunwrapped : Unwrapped c.shared := lt_of_le_of_lt (allocated_grows hs).length_le hn
  have hspawned := hinv.spawned
  have hkept : ∀ {k}, Registered k c.shared → Registered k c'.shared := fun hk =>
    ((registered_grows hs).map Registration.handle).subset hk
  constructor
  case unseen =>
    intro k hk hreg
    have hunseen := h.unseen k hk fun hr => hreg (hkept hr)
    have hsilent : Silent k c c' := by
      refine silent_step hk (fun v _ _ => hunseen.quiet v) ?_ hs
      rintro v x rfl i rest head
      by_contra henters
      exact hreg (registered_of_enters head (by simpa using henters) hs)
    exact ⟨fun v => hsilent.quiet v (hunseen.quiet v),hsilent.stream.trans hunseen.stream,
      hsilent.polls.trans hunseen.polls⟩
  case stage =>
    intro t k channel peer_handle hk hr
    obtain hr | ⟨x,i,rest,rfl,head,hholds,hentered⟩ := entered_of_step hs hr
    · obtain ⟨ht,announced,hannounced,hstage⟩ := h.stage t k channel peer_handle hk hr
      refine ⟨ht.trans_le (nextTask_le hs),announced,?_,?_⟩
      · rw [Announced,command_kept ht hs]
        exact hannounced
      · refine hstage.step hspawned hk (fun v i rest head => ?_) hs
        by_contra henters
        exact hinv.fresh hunwrapped (t := v) (i := i) (by simp [head]) (enters_holds (by simpa using henters))
          (List.mem_map.mpr ⟨_,hr,rfl⟩)
    · obtain ⟨emit,attributes,rfl⟩ := hentered channel peer_handle rfl
      change c.tasks t = .insertChannel k peer_handle channel emit attributes :: rest at head
      have hmem : Instr.insertChannel k peer_handle channel emit attributes ∈ c.tasks t := by
        simp [head]
      have hunseen := h.unseen k hk (hinv.fresh hunwrapped hmem hholds)
      have ht : t < c.shared.nextTask := hspawned.lt hmem
      refine ⟨ht.trans_le (nextTask_le hs),_,?_,.enter hunseen head hs⟩
      have hremote := horigin t _ hmem emit rfl
      rw [Announced,command_kept ht hs]
      cases emit with
      | true => exact .inl ⟨hremote.mpr rfl,attributes,rfl⟩
      | false => exact .inr ⟨fun hnone => absurd (hremote.mp hnone) (by simp),rfl⟩

end Registered
section Streams
variable {certificate : RTCCertificate} {ok : Label → Config → Prop} {c : Config} {h : UInt64}

theorem streams_of_reachable (hc : Reachable certificate ok c) (hn : Unwrapped c.shared) :
    Streams c := by
  refine hc.induct (I := fun d => Unwrapped d.shared → Streams d) ?_ ?_ hn
  · intro _
    refine ⟨fun h _ _ => ⟨fun v j hj => ?_,rfl,rfl⟩,fun t h channel peer_handle _ hr => ?_⟩
    · by_cases hv : v = 0
      · simp only [init,hv,if_true,List.mem_singleton] at hj
        rw [hj]
        rfl
      · simp [init,hv] at hj
    · cases hr
  · intro l d d' hd hI _ hs hn'
    have hunwrapped : Unwrapped d.shared := lt_of_le_of_lt (allocated_grows hs).length_le hn'
    exact (hI hunwrapped).step (handleInv_of_reachable hd) hn'
      (commandRule_origin.of_reachable hd) hs

/-- A handle that is in use is not the one of the events of a peer. -/
lemma HandleInv.handle_ne_zero (hinv : HandleInv c) (hn : Unwrapped c.shared)
    (hr : Registered h c.shared) : h ≠ 0 := by
  have hpos : 0 < registrations h c.shared := List.count_pos_iff.mpr hr
  have hmem : h ∈ c.shared.history.allocated :=
    List.count_pos_iff.mp (hpos.trans_le (hinv.within h).spent_le)
  rw [hinv.counted.allocated,firstHandles] at hmem
  obtain ⟨i,hi,rfl⟩ := List.mem_map.mp hmem
  have hlt : i+1 < 2^64 := lt_of_le_of_lt (List.mem_range.mp hi) hn
  intro hzero
  have hnat := congrArg UInt64.toNat hzero
  rw [UInt64.toNat_ofNat_of_lt' hlt] at hnat
  simp at hnat

/-- The events that have been sent for a channel that a task has registered. -/
structure ChannelStream (t : TaskId) (handle peer_handle : UInt64) (c : Config)
    (announced : List NativeEvent) : Prop where
  /-- The announcement, if there is one, is next, or the images of all that `poll` has given
  follow it, or the last message still waits for its permit, unless its task has been dropped. -/
  events : streamOf handle c.shared = [] ∧ pollsOf handle c.shared = [] ∧
      (∃ u e rest, c.tasks u = .sendCreated e :: rest ∧ announced = [e]) ∨
    streamOf handle c.shared =
      announced ++ (pollsOf handle c.shared).map (·.image peer_handle handle) ∨
    ∃ is_string data polls, pollsOf handle c.shared = polls ++ [.onMessage is_string data] ∧
      streamOf handle c.shared = announced ++ polls.map (·.image peer_handle handle) ∧
      ((∃ u rest, c.tasks u = .deliver peer_handle handle is_string data :: rest) ∨
        c.shared.stopped = true ∨ ∃ u, c.shared.aborted u = true)
  announced : Announced t handle peer_handle c.shared announced
  /-- Nothing is received after the end, -/
  closing : ∀ before after, pollsOf handle c.shared = before ++ .onClose :: after → after = []
  /-- nothing is sent after it, -/
  last : ∀ before e after, streamOf handle c.shared = before ++ e :: after →
    e.kind = DATA_CHANNEL_CLOSED → after = []
  /-- and nothing before the announcement. -/
  first : ∀ before e after, streamOf handle c.shared = before ++ e :: after →
    e.kind = DATA_CHANNEL → before = []

lemma split_stream {peer_handle : UInt64} {announced before after : List NativeEvent}
    {polls : List DataChannelEvent} {e : NativeEvent}
    (ha : ∀ a ∈ announced, a.kind = DATA_CHANNEL)
    (hs : announced ++ polls.map (·.image peer_handle h) = before ++ e :: after)
    (he : e.kind = DATA_CHANNEL_CLOSED) :
    ∃ left right, polls = left ++ .onClose :: right ∧ after = right.map (·.image peer_handle h) := by
  have hkind : DATA_CHANNEL ≠ DATA_CHANNEL_CLOSED := by simp [DATA_CHANNEL,DATA_CHANNEL_CLOSED]
  have hsplit : ∀ middle, polls.map (·.image peer_handle h) = middle ++ e :: after →
      ∃ left right, polls = left ++ .onClose :: right ∧
        after = right.map (·.image peer_handle h) := by
    intro middle hmiddle
    obtain ⟨left,tail,rfl,-,htail⟩ := List.map_eq_append_iff.mp hmiddle
    obtain ⟨x,right,rfl,rfl,rfl⟩ := List.map_eq_cons_iff.mp htail
    cases image_closed he
    exact ⟨left,right,rfl,rfl⟩
  obtain ⟨middle,-,hmiddle⟩ | ⟨middle,hmiddle,htail⟩ := List.append_eq_append_iff.mp hs
  · exact hsplit middle hmiddle
  · cases middle with
    | nil => exact hsplit [] htail.symm
    | cons a middle =>
      cases htail
      exact absurd ((ha e (by simp [hmiddle])).symm.trans he) hkind

lemma split_announced {peer_handle : UInt64} {announced before after : List NativeEvent}
    {polls : List DataChannelEvent} {e : NativeEvent} (ha : announced.length ≤ 1)
    (hs : announced ++ polls.map (·.image peer_handle h) = before ++ e :: after)
    (he : e.kind = DATA_CHANNEL) : before = [] := by
  have himage : ∀ middle, polls.map (·.image peer_handle h) ≠ middle ++ e :: after := by
    intro middle hmiddle
    have hmem : e ∈ polls.map (·.image peer_handle h) := by simp [hmiddle]
    obtain ⟨x,-,rfl⟩ := List.mem_map.mp hmem
    exact (polledKinds_apart _ (image_kind x)).2.1 he
  obtain ⟨middle,-,hmiddle⟩ | ⟨middle,hmiddle,htail⟩ := List.append_eq_append_iff.mp hs
  · exact absurd hmiddle (himage middle)
  · cases middle with
    | nil => exact absurd htail.symm (himage [])
    | cons a middle =>
      rw [hmiddle] at ha
      simp at ha
      exact List.eq_nil_of_length_eq_zero (by omega)

lemma Announced.kinds {t : TaskId} {peer_handle : UInt64} {s : RuntimeState}
    {announced : List NativeEvent} (ha : Announced t h peer_handle s announced) :
    announced.length ≤ 1 ∧ ∀ a ∈ announced, a.kind = DATA_CHANNEL := by
  obtain ⟨-,attributes,rfl⟩ | ⟨-,rfl⟩ := ha
  · simp [created_event]
  · simp

/-- The sent events are always the images of a part of the polled ones. -/
lemma channelStream_of_shape {t : TaskId} {peer_handle : UInt64} {announced : List NativeEvent}
    {polls : List DataChannelEvent} (ha : Announced t h peer_handle c.shared announced)
    (hs : streamOf h c.shared = announced ++ polls.map (·.image peer_handle h))
    (hp : ∀ left right, polls = left ++ .onClose :: right → right = []) :
    (∀ before e after, streamOf h c.shared = before ++ e :: after →
      e.kind = DATA_CHANNEL_CLOSED → after = []) ∧
    ∀ before e after, streamOf h c.shared = before ++ e :: after →
      e.kind = DATA_CHANNEL → before = [] := by
  obtain ⟨hlength,hkinds⟩ := ha.kinds
  refine ⟨fun before e after hsplit he => ?_,fun before e after hsplit he => ?_⟩
  · obtain ⟨left,right,hpolls,rfl⟩ := split_stream hkinds (hs.symm.trans hsplit) he
    rw [hp left right hpolls]
    rfl
  · exact split_announced hlength (hs.symm.trans hsplit) he

lemma closing_of_notMem {polls : List DataChannelEvent} (hp : .onClose ∉ polls) :
    ∀ left right, polls = left ++ .onClose :: right → right = [] := by
  rintro left right rfl
  simp at hp

lemma StreamStage.channelStream {t : TaskId} {peer_handle : UInt64} {announced : List NativeEvent}
    (ha : Announced t h peer_handle c.shared announced)
    (hstage : StreamStage h peer_handle announced c) :
    ChannelStream t h peer_handle c announced := by
  cases hstage with
  | announcing u channel e ho hann he hs hp =>
    obtain ⟨rest,hcode,-⟩ := ho.code
    refine ⟨.inl ⟨hs,hp,u,e,_,hcode,hann⟩,ha,?_,?_,?_⟩
    · simp [hp]
    · simp [hs]
    · simp [hs]
  | starting u channel ho hs hp =>
    have hall : streamOf h c.shared =
        announced ++ (pollsOf h c.shared).map (·.image peer_handle h) := by simp [hs,hp]
    have hclosing : ∀ left right, pollsOf h c.shared = left ++ .onClose :: right → right = [] :=
      closing_of_notMem (by simp [hp])
    obtain ⟨hlast,hfirst⟩ := channelStream_of_shape ha hall hclosing
    exact ⟨.inr (.inl hall),ha,hclosing,hlast,hfirst⟩
  | polling u ho hn hu hs hp =>
    obtain ⟨hlast,hfirst⟩ := channelStream_of_shape ha hs (closing_of_notMem hp)
    exact ⟨.inr (.inl hs),ha,closing_of_notMem hp,hlast,hfirst⟩
  | finished hq hs hp =>
    obtain ⟨hlast,hfirst⟩ := channelStream_of_shape ha hs hp
    exact ⟨.inr (.inl hs),ha,hp,hlast,hfirst⟩
  | delivering u is_string data polls ho hn hu hs hp hc =>
    obtain ⟨rest,hcode,-⟩ := ho.code
    obtain ⟨hlast,hfirst⟩ := channelStream_of_shape ha hs (closing_of_notMem hc)
    refine ⟨.inr (.inr ⟨_,_,polls,hp,hs,.inl ⟨u,rest,hcode⟩⟩),ha,?_,hlast,hfirst⟩
    rw [hp]
    exact closing_of_notMem (by simpa using hc)
  | cut is_string data polls hq hs hp hc hd =>
    obtain ⟨hlast,hfirst⟩ := channelStream_of_shape ha hs (closing_of_notMem hc)
    refine ⟨.inr (.inr ⟨_,_,polls,hp,hs,.inr hd⟩),ha,?_,hlast,hfirst⟩
    rw [hp]
    exact closing_of_notMem (by simpa using hc)

lemma channelStream_of_registered (hc : Reachable certificate ok c) (hn : Unwrapped c.shared)
    {t : TaskId} {channel : ChannelRef} {peer_handle : UInt64}
    (hr : ⟨t,h,.channel channel peer_handle⟩ ∈ c.shared.history.registered) :
    ∃ announced, ChannelStream t h peer_handle c announced := by
  have hne := (handleInv_of_reachable hc).handle_ne_zero hn (List.mem_map.mpr ⟨_,hr,rfl⟩)
  obtain ⟨-,announced,ha,hstage⟩ :=
    (streams_of_reachable hc hn).stage t h channel peer_handle hne hr
  exact ⟨announced,hstage.channelStream ha⟩

/-- Until the counter of the handles wraps, the events of a channel are its announcement, if the
remote side has opened it, and the images of its polled events in their order. -/
theorem channel_streams (hc : Reachable certificate ok c) (hn : Unwrapped c.shared) :
    ∀ t h channel peer_handle,
      ⟨t,h,.channel channel peer_handle⟩ ∈ c.shared.history.registered →
        ∃ announced, ChannelStream t h peer_handle c announced :=
  fun _ _ _ _ => channelStream_of_registered hc hn

end Streams
section Remote

def remoteAttributes : ChannelAttributes where
  label := "data"
  protocol := ""
  ordered := true
  id := 1
  negotiated := false
  max_packet_life_time := none
  max_retransmits := none
  isOpen := true

def plainChannel : DataChannel where
  id := 1
  low_threshold := 0
  high_threshold := 0

/-- A peer is created and reports a state. -/
def peerCreated : List Label :=
  [.submit twoPortsCommand,.task 0 .ok,.task 1 .ok,.task 1 .ok,.task 1 .ok,.task 1 .ok,
    .callback 0 (.state 2 0)]

/-- The remote side opens a channel, sends a message and closes the channel. -/
def remoteRun : List Label :=
  peerCreated ++ [.announce 0 plainChannel,.task 2 .ok,.task 2 .ok,
    .task 2 (.attributes remoteAttributes),.task 2 .ok,.task 2 .ok,.task 2 .ok,
    .task 3 (.event (some .onOpen)),.task 3 (.event (some (.onMessage true [104,105]))),.task 3 .ok,
    .task 3 (.event (some .onClose))]

theorem channel_streams_remote : ∃ c announced, Reachable ⟨"",[]⟩ (fun _ _ => True) c ∧
    ChannelStream 2 2 1 c announced ∧
      (streamOf 2 c.shared).map NativeEvent.kind =
        [DATA_CHANNEL,DATA_CHANNEL_OPEN,DATA_CHANNEL_TEXT,DATA_CHANNEL_CLOSED] := by
  have hrun : (Interleaving.run step remoteRun (init ⟨"",[]⟩)).map (fun c =>
      (c.shared.history.registered,c.shared.history.allocated.length,
        (streamOf 2 c.shared).map NativeEvent.kind)) =
      some ([⟨1,1,.peer 0⟩,⟨2,2,.channel 0 1⟩],2,
        [DATA_CHANNEL,DATA_CHANNEL_OPEN,DATA_CHANNEL_TEXT,DATA_CHANNEL_CLOSED]) := by rfl
  obtain ⟨c,hc,hseen⟩ := Option.map_eq_some_iff.mp hrun
  obtain ⟨hregistered,hseen⟩ := Prod.mk.inj hseen
  obtain ⟨hallocated,hkinds⟩ := Prod.mk.inj hseen
  have hreach : Reachable ⟨"",[]⟩ (fun _ _ => True) c := reaches_of_run hc fun _ _ _ => trivial
  have hunwrapped : Unwrapped c.shared := by
    rw [Unwrapped,hallocated]
    decide
  obtain ⟨announced,hstream⟩ := channel_streams hreach hunwrapped 2 2 0 1 (by simp [hregistered])
  exact ⟨c,announced,hreach,hstream,hkinds⟩

end Remote

section Wrap

/-- The event of a peer that `peerCreated` ends with. -/
def peerState : NativeEvent := .peer 2 1 0

/-- A peer has reported its state, and the next handle is `n`. -/
structure Ready (n : ℕ) (c : Config) : Prop where
  reach : Reachable ⟨"",[]⟩ (fun _ _ => True) c
  receiving : c.shared.receiving = true
  peers : 0 < c.shared.nextPeer
  next : c.shared.next_handle = UInt64.ofNat n
  event : peerState ∈ c.shared.events

lemma ready_two : ∃ c, Ready 2 c := by
  have hrun : (Interleaving.run step peerCreated (init ⟨"",[]⟩)).map (fun c =>
      (c.shared.receiving,c.shared.nextPeer,c.shared.next_handle,c.shared.events)) =
      some (true,1,2,[peerState]) := by rfl
  obtain ⟨c,hc,hseen⟩ := Option.map_eq_some_iff.mp hrun
  obtain ⟨hreceiving,hseen⟩ := Prod.mk.inj hseen
  obtain ⟨hpeers,hseen⟩ := Prod.mk.inj hseen
  obtain ⟨hnext,hevents⟩ := Prod.mk.inj hseen
  refine ⟨c,reaches_of_run hc fun _ _ _ => trivial,hreceiving,by omega,hnext,?_⟩
  simp [hevents]

variable {n : ℕ} {c : Config} {t : ℕ} {x : Choice}

lemma Ready.announce (h : Ready n c) : ∃ c', Ready n c' ∧ c'.tasks c.shared.nextTask =
    [.accept (c.shared.peer 0).handle c.shared.nextChannel,.finish] := by
  obtain ⟨c',hs⟩ : ∃ c', step (.announce 0 plainChannel) c = some c' := by
    simp [step,h.peers,h.receiving]
  have hreach : Reachable ⟨"",[]⟩ (fun _ _ => True) c' := h.reach.tail ⟨_,trivial,hs⟩
  simp only [step,h.peers,h.receiving,and_self,if_true] at hs
  cases hs
  exact ⟨_,⟨hreach,rfl,h.peers,h.next,h.event⟩,Function.update_self _ _ _⟩

/-- A step of a task that leaves what `Ready` is about. -/
lemma Ready.task {m : ℕ} {i : Instr} {rest code : List Instr} {s : RuntimeState} (h : Ready n c)
    (head : c.tasks t = i :: rest) (he : exec x t i c.shared = .next s code)
    (hkept : s.receiving = c.shared.receiving ∧ s.nextPeer = c.shared.nextPeer ∧
      s.events = c.shared.events) (hnext : s.next_handle = UInt64.ofNat m) :
    ∃ c', Ready m c' ∧ c'.shared = s ∧ c'.tasks t = code ++ rest := by
  have hs : step (.task t x) c = some ⟨s,Function.update c.tasks t (code ++ rest)⟩ := by
    simp [step,Machine.stepTask,head,machine,he]
  refine ⟨_,⟨h.reach.tail ⟨_,trivial,hs⟩,hkept.1.trans h.receiving,?_,hnext,?_⟩,rfl,
    Function.update_self _ _ _⟩
  · rw [hkept.2.1]
    exact h.peers
  · rw [hkept.2.2]
    exact h.event

/-- A channel of the remote side takes the next handle. -/
lemma Ready.allocate (h : Ready n c) : ∃ c' u peer_handle channel, Ready (n+1) c' ∧
    c'.tasks u = [.readAttributes (UInt64.ofNat n) peer_handle channel true,.finish] := by
  obtain ⟨c₁,h₁,hcode₁⟩ := h.announce
  obtain ⟨c₂,h₂,hshared₂,hcode₂⟩ := h₁.task (x := .ok) hcode₁ rfl ⟨rfl,rfl,rfl⟩ h₁.next
  obtain ⟨c₃,h₃,-,hcode₃⟩ := h₂.task (m := n+1) (x := .ok) hcode₂ rfl ⟨rfl,rfl,rfl⟩ (by
    change c₂.shared.next_handle+1 = _
    rw [h₂.next,← UInt64.ofNat_one,← UInt64.ofNat_add])
  refine ⟨c₃,c.shared.nextTask,(c.shared.peer 0).handle,c.shared.nextChannel,h₃,?_⟩
  rw [hcode₃,h₂.next]
  rfl

lemma ready (k : ℕ) : ∃ c, Ready (2+k) c := by
  induction k with
  | zero => exact ready_two
  | succ k ih =>
    obtain ⟨c,hc⟩ := ih
    obtain ⟨c',-,-,-,hc',-⟩ := hc.allocate
    exact ⟨c',hc'⟩

/-- After 2^64 handles a channel gets the handle 0, which the events of all peers carry. -/
lemma zero_registered : ∃ c t channel peer_handle, Reachable ⟨"",[]⟩ (fun _ _ => True) c ∧
    ⟨t,0,.channel channel peer_handle⟩ ∈ c.shared.history.registered ∧
      peerState ∈ streamOf 0 c.shared := by
  obtain ⟨c,hc⟩ := ready (2^64-2)
  obtain ⟨c₁,u,peer_handle,channel,h₁,hcode₁⟩ := hc.allocate
  obtain ⟨c₂,h₂,-,hcode₂⟩ :=
    h₁.task (x := .attributes remoteAttributes) hcode₁ rfl ⟨rfl,rfl,rfl⟩ h₁.next
  obtain ⟨c₃,h₃,hshared₃,-⟩ := h₂.task (x := .ok) hcode₂ rfl ⟨rfl,rfl,rfl⟩ h₂.next
  have hzero : UInt64.ofNat (2+(2^64-2)) = 0 := by decide
  rw [hzero] at hshared₃
  refine ⟨c₃,u,channel,peer_handle,h₃.reach,?_,List.mem_filter.mpr ⟨h₃.event,?_⟩⟩
  · rw [hshared₃]
    simp [RuntimeState.record]
  · simp [peerState,NativeEvent.peer,OPERATION_COMPLETE]

/-- Once the counter of the handles has wrapped, a channel can share its handle with the events of
peers. -/
theorem channel_streams_wrap : ¬ ∀ certificate ok c, Reachable certificate ok c →
    ∀ t h channel peer_handle,
      ⟨t,h,.channel channel peer_handle⟩ ∈ c.shared.history.registered →
        ∃ announced, ChannelStream t h peer_handle c announced := by
  intro hall
  obtain ⟨c,t,channel,peer_handle,hreach,hregistered,hmem⟩ := zero_registered
  obtain ⟨announced,hstream⟩ := hall _ _ c hreach t 0 channel peer_handle hregistered
  have hkinds := hstream.announced.kinds.2
  have himages : ∀ polls : List DataChannelEvent,
      peerState ∉ announced ++ polls.map (·.image peer_handle 0) := by
    intro polls hin
    obtain hin | hin := List.mem_append.mp hin
    · have hkind := hkinds _ hin
      simp [peerState,NativeEvent.peer,DATA_CHANNEL] at hkind
    · obtain ⟨e,-,he⟩ := List.mem_map.mp hin
      have hkind : peerState.kind ∈ polledKinds := he ▸ image_kind e
      refine (polledKinds_apart _ hkind).2.2 ?_
      simp [peerState,NativeEvent.peer,stateKinds]
  obtain ⟨hnil,-⟩ | hstream | ⟨-,-,polls,-,hstream,-⟩ := hstream.events
  · rw [hnil] at hmem
    cases hmem
  · rw [hstream] at hmem
    exact himages _ hmem
  · rw [hstream] at hmem
    exact himages _ hmem

end Wrap
end Kestara.Native
