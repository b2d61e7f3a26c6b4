import Kestara.Library.Tally
import Kestara.Native.Buffers
import Kestara.Native.Handles
import Kestara.Native.Duties
import Kestara.Native.ChannelStream

/-!
# Delivery permits

A message of a channel is queued with a permit of its semaphore. The permit comes back when the
buffer of the message is released or, on the C boundary, when the event has been encoded.
-/
namespace Kestara.Native
open Interleaving

/-- A runtime together with the calls that poll it. -/
structure Delivery where
  runtime : Config
  /-- How many events have been received from the queue. -/
  received : ℕ := 0
  /-- The received events that a call is still converting. -/
  handing : List NativeEvent := []
  buffers : Buffers := {}

/-- Dropping a permit gives it back to its semaphore. -/
def dropPermit (permit : Option DeliveryPermit) (s : RuntimeState) : RuntimeState :=
  { s with slots := fun k => if permit = some ⟨k.toNat⟩ then s.slots k+1 else s.slots k }

inductive DeliveryLabel
  | runtime (l : Label)
  | wake
  /-- `events::poll` receives an event. -/
  | receive
  /-- The JNI boundary hands over one of the received events. -/
  | jni (n : ℕ)
  /-- The C boundary encodes one of the received events and drops it. -/
  | c (n : ℕ)
  | releaseBuffer (buffer_handle : UInt64)
  /-- Another runtime of the process takes the next buffer handle. -/
  | elsewhere

namespace Delivery

def dropPermit (permit : Option DeliveryPermit) (s : Delivery) : Delivery :=
  { s with runtime := { s.runtime with shared := Native.dropPermit permit s.runtime.shared } }

/-- The permit of the buffer that a handle names. -/
def permitOf (buffer_handle : UInt64) (s : Delivery) : Option DeliveryPermit :=
  (s.buffers.buffers.lookup buffer_handle).bind (·.delivery_permit)

/-- A buffer that is entered in place of another one drops that. -/
def handOver (event : NativeEvent) (s : Delivery) : Delivery :=
  { s.dropPermit (if event.delivery_permit.isSome then s.permitOf s.buffers.next_buffer_handle
      else none) with
    buffers := (nativePollRuntimeEvent (.event event) s.buffers).2 }

/-- One step of the runtime, of a poll, or of the application. -/
def step (l : DeliveryLabel) (s : Delivery) : Option Delivery :=
  match l with
  | .runtime l => (Native.step l s.runtime).map fun c => { s with runtime := c }
  | .wake =>
    some { s with runtime :=
      { s.runtime with shared := s.runtime.shared.send_event (.peer WAKE 0 0) } }
  | .receive =>
    match s.runtime.shared.events[s.received]? with
    | none => none
    | some event =>
      if event.kind = WAKE then
        some { s.dropPermit event.delivery_permit with received := s.received+1 }
      else some { s with received := s.received+1, handing := s.handing ++ [event] }
  | .jni n =>
    match s.handing[n]? with
    | none => none
    | some event => some { s.handOver event with handing := s.handing.eraseIdx n }
  | .c n =>
    match s.handing[n]? with
    | none => none
    | some event =>
      some { s.dropPermit event.delivery_permit with handing := s.handing.eraseIdx n }
  | .releaseBuffer buffer_handle =>
    some { s.dropPermit (s.permitOf buffer_handle) with
      buffers := release_buffer buffer_handle s.buffers }
  | .elsewhere =>
    some { s with buffers :=
      { s.buffers with next_buffer_handle := s.buffers.next_buffer_handle+1 } }

def init (certificate : RTCCertificate) : Delivery where
  runtime := Native.init certificate

/-- The event or buffer has a permit of the channel. -/
def ofChannel (k : UInt64) (permit : Option DeliveryPermit) : Bool := permit = some ⟨k.toNat⟩

def permitsIn (k : UInt64) (events : List NativeEvent) : ℕ :=
  events.countP fun e => ofChannel k e.delivery_permit

/-- The permits of a channel that are out: with queued messages, with messages that are being handed
over, and with buffers. -/
def used (k : UInt64) (s : Delivery) : ℕ :=
  permitsIn k (s.runtime.shared.events.drop s.received) + permitsIn k s.handing +
    s.buffers.buffers.tally fun e => ofChannel k e.delivery_permit

end Delivery

/-- Messages have the permit of their own channel, and no other event has one. -/
def OwnPermit (e : NativeEvent) : Prop :=
  e.delivery_permit =
    if e.kind = DATA_CHANNEL_TEXT ∨ e.kind = DATA_CHANNEL_BINARY then
      some ⟨e.channel_handle.toNat⟩
    else none

section Own

/-- The event is no message and has no permit. -/
def NoMessage (e : NativeEvent) : Prop := OwnPermit e ∧ e.delivery_permit = none

lemma noMessage_of_kind {e : NativeEvent} (kind : BitVec 32) (hk : e.kind = kind)
    (ht : kind ≠ DATA_CHANNEL_TEXT) (hb : kind ≠ DATA_CHANNEL_BINARY)
    (hp : e.delivery_permit = none) : NoMessage e := by
  subst hk
  simp [NoMessage,OwnPermit,ht,hb,hp]

lemma noMessage_operation (op : UInt64) (result : Except String OperationValue) :
    NoMessage (.operation op result) := by
  cases result <;>
    exact noMessage_of_kind OPERATION_COMPLETE rfl (by decide) (by decide) rfl

lemma ownPermit_message (peer_handle channel_handle : UInt64) (is_string : Bool)
    (data : List UInt8) : OwnPermit (message_event peer_handle channel_handle is_string data) ∧
      (message_event peer_handle channel_handle is_string data).delivery_permit =
        some ⟨channel_handle.toNat⟩ := by
  cases is_string <;> exact ⟨rfl,rfl⟩

lemma noMessage_image (peer_handle channel_handle : UInt64) {e : DataChannelEvent}
    (hm : ∀ is_string data, e ≠ .onMessage is_string data) :
    NoMessage (e.image peer_handle channel_handle) := by
  cases e with
  | onMessage is_string data => exact absurd rfl (hm is_string data)
  | onOpen => exact noMessage_of_kind DATA_CHANNEL_OPEN rfl (by decide) (by decide) rfl
  | onError => exact noMessage_of_kind DATA_CHANNEL_ERROR rfl (by decide) (by decide) rfl
  | onClosing => exact noMessage_of_kind DATA_CHANNEL_CLOSING rfl (by decide) (by decide) rfl
  | onClose => exact noMessage_of_kind DATA_CHANNEL_CLOSED rfl (by decide) (by decide) rfl
  | onBufferedAmountLow =>
    exact noMessage_of_kind DATA_CHANNEL_BUFFERED_AMOUNT_LOW rfl (by decide) (by decide) rfl
  | onBufferedAmountHigh =>
    exact noMessage_of_kind DATA_CHANNEL_BUFFERED_AMOUNT_HIGH rfl (by decide) (by decide) rfl

lemma noMessage_callback (peer_handle : UInt64) {x : Callback} (hx : x.admitted = true) :
    NoMessage (x.event peer_handle) := by
  cases x with
  | localCandidate candidate =>
    exact noMessage_of_kind LOCAL_CANDIDATE rfl (by decide) (by decide) rfl
  | state kind number =>
    refine noMessage_of_kind kind rfl ?_ ?_ rfl <;>
      · rintro rfl
        simp [Callback.admitted,stateKinds,DATA_CHANNEL_TEXT,DATA_CHANNEL_BINARY] at hx

end Own

section Permits
variable {x : Choice} {t : ℕ} {s : RuntimeState} {i : Instr} {o : Outcome} {c c' : Config}

/-- The channel that an instruction polls or delivers for. -/
def Instr.serves : Instr → Option UInt64
  | .poll _ channel_handle | .deliver _ channel_handle _ _ => some channel_handle
  | _ => none

/-- The instruction is going to poll the channel for the first time. -/
def Instr.starting (k : UInt64) : Instr → ℕ
  | .startPolling handle _ _ => if handle = k then 1 else 0
  | _ => 0

/-- How often a poll task has been spawned for the channel. -/
def pollings (k : UInt64) (s : RuntimeState) : ℕ := s.history.polled.count k

/-- Only channels with a poll task are polled, and only messages have permits. -/
def Permitted (s : RuntimeState) (_ : ℕ) (j : Instr) : Prop :=
  (∀ k, j.serves = some k → k ∈ s.history.polled) ∧
    ∀ e, j = .sendCreated e → NoMessage e

/-- What a step does to the permits: nothing, hand one out with a message, or make those of a
channel. -/
inductive PermitStep (i : Instr) (s s' : RuntimeState) : Prop
  | keep (events) (he : s'.events = s.events ++ events)
      (hp : ∀ e ∈ events, NoMessage e) (hs : s'.slots = s.slots)
      (hh : s'.history.polled = s.history.polled)
  | deliver (k) (event) (hi : i.serves = some k) (he : s'.events = s.events ++ [event])
      (hp : OwnPermit event ∧ event.delivery_permit = some ⟨k.toNat⟩) (hk : s.slots k ≠ 0)
      (hs : s'.slots = Function.update s.slots k (s.slots k-1))
      (hh : s'.history.polled = s.history.polled)
  | start (k) (entry : PeerEntry) (peer_handle channel) (hi : i = .startPolling k peer_handle channel)
      (hl : s.registry.peers.lookup peer_handle = some entry) (he : s'.events = s.events)
      (hs : s'.slots = Function.update s.slots k entry.receive_queue_capacity)
      (hh : s'.history.polled = s.history.polled ++ [k])

lemma permitStep_of_does (h : Does t s i o) (hi : Permitted s t i) : PermitStep i s (after o s) := by
  have hone : ∀ {e : NativeEvent}, NoMessage e → ∀ e' ∈ [e], NoMessage e' := by
    intro e he e' hm
    rw [List.mem_singleton.mp hm]
    exact he
  cases h
  case sendCreated event => exact .keep [event] rfl (hone (hi.2 event rfl)) rfl rfl
  case post op result => exact .keep [_] rfl (hone (noMessage_operation op result)) rfl rfl
  case polled peer_handle channel_handle event hm hc =>
    exact .keep [_] rfl (hone (noMessage_image peer_handle channel_handle hm)) rfl rfl
  case closed peer_handle channel_handle =>
    exact .keep [_] rfl (hone (noMessage_image peer_handle channel_handle (by simp))) rfl rfl
  case deliver peer_handle channel_handle is_string data hs =>
    exact .deliver channel_handle _ rfl rfl (ownPermit_message _ _ _ _) hs
      rfl rfl
  case startPolling handle peer_handle channel entry he =>
    exact .start handle entry peer_handle channel rfl he rfl rfl rfl
  all_goals exact .keep [] (List.append_nil _).symm (by simp) rfl rfl

lemma permitStep_of_taskStep (h : Machine.TaskStep machine x t c c')
    (hI : ∀ u, ∀ j ∈ c.tasks u, Permitted c.shared u j) :
    ∃ i ∈ c.tasks t, PermitStep i c.shared c'.shared := by
  obtain ⟨i,rest,o,locked,aborted,head,hdoes,hshared⟩ := shared_of_taskStep h
  have hi : i ∈ c.tasks t := by simp [head]
  refine ⟨i,hi,?_⟩
  rw [hshared]
  cases permitStep_of_does hdoes (hI t i hi) with
  | keep events he hp hs hh => exact .keep events he hp hs hh
  | deliver k event hserves he hp hk hs hh => exact .deliver k event hserves he hp hk hs hh
  | start k entry peer_handle channel hstart hl he hs hh =>
    exact .start k entry peer_handle channel hstart hl he hs hh

lemma permitted_of_does (h : Does t s i o) (hi : Permitted s t i) :
    ∀ j ∈ codeOf o, Permitted (after o s) t j := by
  cases h with
  | insertChannel handle peer_handle channel emit attributes =>
    have hcreated : NoMessage (created_event peer_handle handle attributes) :=
      noMessage_of_kind DATA_CHANNEL rfl (by decide) (by decide) rfl
    cases emit <;> simp [codeOf,insertChannel,Permitted,Instr.serves,hcreated]
  | polled peer_handle channel_handle | received peer_handle channel_handle
  | deliver peer_handle channel_handle =>
    have hpolled : channel_handle ∈ s.history.polled := hi.1 channel_handle rfl
    intro j hj
    rw [List.mem_singleton.mp hj]
    refine ⟨fun k hk => ?_,by simp⟩
    cases hk
    exact hpolled
  | lock peer body => cases body <;> simp [codeOf,Locked.first,Permitted,Instr.serves]
  | shutdown | spawned =>
    intro j hj
    simp only [codeOf,List.mem_append,List.mem_map,List.mem_cons,List.not_mem_nil,or_false] at hj
    obtain ⟨u,-,rfl⟩ | rfl | rfl := hj <;> simp [Permitted,Instr.serves]
  | _ => simp [codeOf,Permitted,Instr.serves]

lemma permitted_child {s' : RuntimeState} {code childCode : List Instr} {child : TaskId}
    (h : Does t s i (.fork s' code child childCode)) :
    ∀ j ∈ childCode, Permitted s' child j := by
  cases h <;> simp [Permitted,Instr.serves,RuntimeState.record]

lemma polled_grows (h : PermitStep i s c.shared) :
    s.history.polled <+: c.shared.history.polled := by
  cases h with
  | keep events he hp hs hh => exact hh ▸ List.prefix_refl _
  | deliver k event hi he hp hk hs hh => exact hh ▸ List.prefix_refl _
  | start k entry peer_handle channel hi hl he hs hh => exact hh ▸ List.prefix_append _ _

lemma permitted_of_handler {e : Exit} {j : Instr} {code : List Instr}
    (hc : machine.handler e j = some code) : ∀ k ∈ code, Permitted s t k := by
  simp only [machine,handler] at hc
  split at hc <;> cases hc <;> simp [Permitted,Instr.serves]

lemma Permitted.mono {s s' : RuntimeState} {u : ℕ} {j : Instr} (h : Permitted s u j)
    (hs : s.history.polled <+: s'.history.polled) : Permitted s' u j :=
  ⟨fun k hk => hs.subset (h.1 k hk),h.2⟩

lemma covers_starting (k : UInt64) (h : Does t s i o) :
    Machine.Covers (Instr.starting k) (pollings k) (registrations k) s i o := by
  cases h
  case startPolling =>
    simp [Machine.Covers,Instr.starting,pollings,registrations,RuntimeState.record,List.count_singleton]
    omega
  case insertPeer =>
    simp [Machine.Covers,Instr.starting,pollings,registrations,RuntimeState.setRegistry,
      RuntimeState.record,List.count_singleton]
  case insertChannel handle peer_handle channel emit attributes =>
    cases emit <;>
      simp [Machine.Covers,Instr.starting,pollings,registrations,RuntimeState.setRegistry,
        RuntimeState.record,List.count_singleton,insertChannel] <;> omega
  case shutdown =>
    simp [Machine.Covers,Instr.starting,pollings,registrations,
      Machine.weight_map_eq_zero (w := Instr.starting k) (f := Instr.join) fun _ => rfl]
  case spawned =>
    simp [Machine.Covers,Instr.starting,pollings,registrations,
      Machine.weight_map_eq_zero (w := Instr.starting k) (f := Instr.joinClose) fun _ => rfl]
  case lock peer body hl =>
    cases body <;> simp [Machine.Covers,Locked.first,Instr.starting,pollings,registrations]
  all_goals
    simp [Machine.Covers,Instr.starting,pollings,registrations,RuntimeState.setRegistry,
      RuntimeState.record,RuntimeState.setChannel,RuntimeState.send_event,RuntimeState.notePoll,
      RuntimeState.allocate,unlock]

lemma pollings_kept (k : UInt64) (j : Instr) (s : RuntimeState) :
    pollings k (machine.release j s) = pollings k s ∧
      registrations k (machine.release j s) = registrations k s := by
  cases j <;> exact ⟨rfl,rfl⟩

lemma handler_starting (k : UInt64) (e : Exit) (j : Instr) (code : List Instr)
    (hc : machine.handler e j = some code) :
    weight (Instr.starting k) code ≤ j.starting k := by
  have hzero : weight (Instr.starting k) code = 0 := by
    simp only [machine,handler] at hc
    split at hc <;> cases hc <;> rfl
  omega

/-- The invariant behind the permits. -/
structure PermitInv (c : Config) : Prop where
  handles : HandleInv c
  starting : ∀ k, Within (Instr.starting k) c.tasks (pollings k c.shared)
    (registrations k c.shared)
  permitted : ∀ u, ∀ j ∈ c.tasks u, Permitted c.shared u j
  own : ∀ e ∈ c.shared.events, OwnPermit e

lemma PermitInv.task (h : PermitInv c) (hs : Machine.TaskStep machine x t c c') : PermitInv c' := by
  obtain ⟨i,hi,hpermit⟩ := permitStep_of_taskStep hs h.permitted
  have hgrows := polled_grows hpermit
  refine ⟨h.handles.task hs,fun k => ?_,?_,fun e he => ?_⟩
  · refine hs.within (handler_starting k) (pollings_kept k) ?_ ?_
      (h.starting k)
    · exact fun i s code child childCode he => h.handles.spawned.forks he
    · intro i rest head
      obtain hblocked | hdoes := does_exec (x := x) (t := t) (i := i) (s := c.shared)
      · change Machine.Covers _ _ _ _ _ (exec x t i c.shared)
        rw [hblocked]
        trivial
      · exact covers_starting k hdoes
  · refine hs.assertions h.permitted ?_ ?_ ?_
    · intro i rest s code head he
      have hdoes := does_of he (by simp)
      have hi := h.permitted t i (by simp [head])
      have hstep := permitStep_of_does hdoes hi
      refine ⟨permitted_of_does hdoes hi,fun u j _ hj => hj.mono ?_⟩
      exact polled_grows (c := ⟨s,c.tasks⟩) hstep
    · intro i rest s code child childCode head he
      have hdoes := does_of he (by simp)
      have hi := h.permitted t i (by simp [head])
      have hstep := permitStep_of_does hdoes hi
      refine ⟨permitted_of_does hdoes hi,permitted_child hdoes,fun u j _ hj => hj.mono ?_⟩
      exact polled_grows (c := ⟨s,c.tasks⟩) hstep
    · intro i rest s e head he
      have hdoes := does_of he (by simp)
      have hi := h.permitted t i (by simp [head])
      have hstep := permitStep_of_does hdoes hi
      obtain ⟨locked,aborted,hu⟩ := unwind_kept e rest s
      rw [hu]
      exact ⟨fun k _ _ code hcode => permitted_of_handler hcode,
        fun u j _ hj => hj.mono (polled_grows (c := ⟨s,c.tasks⟩) hstep)⟩
  · cases hpermit with
    | keep events hevents hp hslots hh =>
      rw [hevents] at he
      obtain he | he := List.mem_append.mp he
      · exact h.own e he
      · exact (hp e he).1
    | deliver k event hi hevents hp hk hslots hh =>
      rw [hevents] at he
      obtain he | he := List.mem_append.mp he
      · exact h.own e he
      · rw [List.mem_singleton.mp he]
        exact hp.1
    | start k entry peer_handle channel hstart hl hevents hslots hh =>
      rw [hevents] at he
      exact h.own e he

theorem permitInv_step {l : Label} (h : PermitInv c) (hs : Native.step l c = some c') :
    PermitInv c' := by
  have hhandles := handleInv_step h.handles hs
  have hevent : ∀ {event : NativeEvent}, OwnPermit event →
      ∀ e ∈ c.shared.events ++ [event], OwnPermit e := by
    intro event hown e he
    obtain he | he := List.mem_append.mp he
    · exact h.own e he
    · rw [List.mem_singleton.mp he]
      exact hown
  cases step_cases hs with
  | task ht => exact h.task ht
  | submit => exact ⟨hhandles,h.starting,h.permitted,h.own⟩
  | completeError op error =>
    exact ⟨hhandles,h.starting,h.permitted,hevent (noMessage_operation op (.error error)).1⟩
  | callback peer x hx => exact ⟨hhandles,h.starting,h.permitted,hevent (noMessage_callback _ hx).1⟩
  | announce peer channel hp =>
    refine ⟨hhandles,fun k => ?_,fun u j hj => ?_,h.own⟩
    · apply (h.starting k).update
      rw [h.handles.spawned.idle _ le_rfl]
      simp [Instr.starting,pollings,registrations]
    · by_cases hu : u = c.shared.nextTask
      · subst hu
        simp only [Function.update_self,List.mem_cons,List.not_mem_nil,or_false] at hj
        obtain rfl | rfl := hj <;> simp [Permitted,Instr.serves]
      · simp only [Function.update_of_ne hu] at hj
        exact h.permitted u j hj

/-- The invariant does not depend on the permits that are left. -/
lemma PermitInv.frame (h : PermitInv c) {events : List NativeEvent} (slots : UInt64 → ℕ)
    (he : ∀ e ∈ events, OwnPermit e) :
    PermitInv ⟨{ c.shared with events := events, slots := slots },c.tasks⟩ :=
  ⟨⟨⟨h.handles.spawned.pos,h.handles.spawned.controller,h.handles.spawned.idle,
      h.handles.spawned.command⟩,⟨h.handles.counted.allocated,h.handles.counted.next⟩,
      h.handles.within,⟨h.handles.entered.peers,h.handles.entered.channels⟩⟩,
    h.starting,h.permitted,he⟩

/-- A channel is polled for the first time once. -/
lemma PermitInv.fresh (h : PermitInv c) (hn : Unwrapped c.shared) {k : UInt64} {peer_handle : UInt64}
    {channel : ChannelRef} (hi : .startPolling k peer_handle channel ∈ c.tasks t) :
    k ∉ c.shared.history.polled := by
  intro hk
  have hcount : 0 < pollings k c.shared := List.count_pos_iff.mpr hk
  have hmem := (h.starting k).mem hi
  have hle := (h.handles.within k).spent_le
  have hone := h.handles.allocations_le hn k
  simp only [Instr.starting,if_true] at hmem
  omega

/-- What a step of the runtime does to the permits. -/
lemma permitStep_of_step {l : Label} (h : PermitInv c) (hs : Native.step l c = some c') :
    ∃ i, PermitStep i c.shared c'.shared ∧
      (∀ k, i.serves = some k → k ∈ c.shared.history.polled) ∧
        ∀ k peer_handle channel, i = .startPolling k peer_handle channel → Unwrapped c.shared →
          k ∉ c.shared.history.polled := by
  have hkeep : ∀ events, c'.shared.events = c.shared.events ++ events →
      (∀ e ∈ events, NoMessage e) → c'.shared.slots = c.shared.slots →
        c'.shared.history.polled = c.shared.history.polled →
        ∃ i, PermitStep i c.shared c'.shared ∧
          (∀ k, i.serves = some k → k ∈ c.shared.history.polled) ∧
            ∀ k peer_handle channel, i = .startPolling k peer_handle channel →
              Unwrapped c.shared → k ∉ c.shared.history.polled :=
    fun events he hp hslots hh =>
      ⟨.finish,.keep events he hp hslots hh,by simp [Instr.serves],by simp⟩
  cases step_cases hs with
  | @task u _ _ ht =>
    obtain ⟨i,hi,hpermit⟩ := permitStep_of_taskStep ht h.permitted
    refine ⟨i,hpermit,(h.permitted u i hi).1,fun k peer_handle channel he hn => ?_⟩
    subst he
    exact h.fresh hn hi
  | submit | announce => exact hkeep [] (List.append_nil _).symm (by simp) rfl rfl
  | completeError op error =>
    refine hkeep [_] rfl (fun e he => ?_) rfl rfl
    rw [List.mem_singleton.mp he]
    exact noMessage_operation op (.error error)
  | callback peer x hx =>
    refine hkeep [_] rfl (fun e he => ?_) rfl rfl
    rw [List.mem_singleton.mp he]
    exact noMessage_callback _ hx

end Permits

namespace Delivery
variable {l : DeliveryLabel} {s s' : Delivery} {k : UInt64}

/-- The permits that the semaphore of a channel has left. -/
def available (k : UInt64) (s : Delivery) : ℕ := s.runtime.shared.slots k

lemma permitsIn_append (k : UInt64) (events rest : List NativeEvent) :
    permitsIn k (events ++ rest) = permitsIn k events + permitsIn k rest :=
  List.countP_append

lemma permitsIn_one (k : UInt64) (e : NativeEvent) :
    permitsIn k [e] = (ofChannel k e.delivery_permit).toNat := by
  cases h : ofChannel k e.delivery_permit <;> simp [permitsIn,h]

@[simp] lemma available_dropPermit (k : UInt64) (permit : Option DeliveryPermit) (s : Delivery) :
    (s.dropPermit permit).available k = s.available k + (ofChannel k permit).toNat := by
  simp only [available,dropPermit,Native.dropPermit,ofChannel]
  split_ifs with h <;> simp [h]

/-- The invariant of the runtime with its polls. -/
structure Inv (s : Delivery) : Prop where
  permits : PermitInv s.runtime
  received : s.received ≤ s.runtime.shared.events.length
  handing : ∀ e ∈ s.handing, e.kind ≠ WAKE
  /-- A channel that nobody polls has no permit out. -/
  unused : ∀ k, k ∉ s.runtime.shared.history.polled → s.used k = 0

/-- Taking an event out of a list takes its permit out. -/
lemma permitsIn_eraseIdx {events : List NativeEvent} {n : ℕ} {e : NativeEvent}
    (he : events[n]? = some e) :
    permitsIn k (events.eraseIdx n) + (ofChannel k e.delivery_permit).toNat =
      permitsIn k events := by
  obtain ⟨hn,rfl⟩ := List.getElem?_eq_some_iff.mp he
  have hperm := List.getElem_cons_eraseIdx_perm hn
  have hcount : permitsIn k ([events[n]] ++ events.eraseIdx n) = permitsIn k events :=
    hperm.countP_eq _
  rw [permitsIn_append] at hcount
  rw [← permitsIn_one]
  omega

/-- The next event of the queue. -/
lemma permitsIn_drop {events : List NativeEvent} {n : ℕ} {e : NativeEvent}
    (he : events[n]? = some e) :
    permitsIn k (events.drop n) =
      permitsIn k (events.drop (n+1)) + (ofChannel k e.delivery_permit).toNat := by
  obtain ⟨hn,rfl⟩ := List.getElem?_eq_some_iff.mp he
  rw [List.drop_eq_getElem_cons hn,← permitsIn_one,← List.singleton_append,permitsIn_append]
  omega

lemma tally_permitOf (k buffer_handle : UInt64) (s : Delivery) :
    (s.buffers.buffers.lookup buffer_handle).toList.countP
      (fun e => ofChannel k e.delivery_permit) =
        (ofChannel k (s.permitOf buffer_handle)).toNat := by
  unfold permitOf
  cases s.buffers.buffers.lookup buffer_handle with
  | none => simp [ofChannel]
  | some entry =>
    cases h : ofChannel k entry.delivery_permit <;> simp [h]

/-- What a hand-over does to the buffers, and to the permit of a buffer that it replaces. -/
lemma tally_handOver (k : UInt64) {event : NativeEvent} (s : Delivery) (hk : event.kind ≠ WAKE) :
    ∃ d, (s.handOver event).available k = s.available k+d ∧
      (s.handOver event).buffers.buffers.tally (fun e => ofChannel k e.delivery_permit)+d =
        s.buffers.buffers.tally (fun e => ofChannel k e.delivery_permit) +
          (ofChannel k event.delivery_permit).toNat := by
  cases hp : event.delivery_permit with
  | none =>
    refine ⟨0,?_,?_⟩
    · change (s.dropPermit _).available k = _
      simp [hp,ofChannel]
    · simp [handOver,nativePollRuntimeEvent,poll,hk,hp,ofChannel]
  | some permit =>
    refine ⟨(ofChannel k (s.permitOf s.buffers.next_buffer_handle)).toNat,?_,?_⟩
    · change (s.dropPermit _).available k = _
      simp [hp]
    · have hinsert := LinkedMap.tally_insert s.buffers.buffers s.buffers.next_buffer_handle
        { data := event.data.getD [], delivery_permit := some permit }
        (fun e => ofChannel k e.delivery_permit)
      rw [tally_permitOf] at hinsert
      have hbuffers : (s.handOver event).buffers.buffers =
          s.buffers.buffers.insert s.buffers.next_buffer_handle
            { data := event.data.getD [], delivery_permit := some permit } := by
        simp [handOver,nativePollRuntimeEvent,poll,hk,hp,register_delivery_buffer,register_buffer]
      rw [hbuffers,hinsert]
      cases h : ofChannel k (some permit) <;> simp [h]

/-- A step of a poll or of the application moves permits, and makes and loses none. -/
lemma total_poll (hl : ∀ l', l ≠ .runtime l') (h : s.Inv) (hs : s.step l = some s') (k : UInt64) :
    s'.available k + s'.used k = s.available k + s.used k ∧ s'.used k ≤ s.used k := by
  cases l with
  | runtime l => exact absurd rfl (hl l)
  | wake =>
    cases hs
    have hwake : permitsIn k ((s.runtime.shared.events ++ [NativeEvent.peer WAKE 0 0]).drop s.received) =
        permitsIn k (s.runtime.shared.events.drop s.received) := by
      rw [List.drop_append_of_le_length h.received,permitsIn_append,permitsIn_one]
      simp [NativeEvent.peer,ofChannel]
    simp only [used,available,RuntimeState.send_event] at *
    omega
  | receive =>
    simp only [step] at hs
    split at hs
    · cases hs
    · next event he =>
      have hdrop := permitsIn_drop (k := k) he
      split_ifs at hs with hw
      · cases hs
        have havailable := available_dropPermit k event.delivery_permit s
        simp only [used,available] at havailable ⊢
        simp only [dropPermit,Native.dropPermit] at havailable ⊢
        omega
      · cases hs
        simp only [used,available,permitsIn_append,permitsIn_one]
        omega
  | jni n =>
    simp only [step] at hs
    split at hs
    · cases hs
    · next event he =>
      cases hs
      have herase := permitsIn_eraseIdx (k := k) he
      obtain ⟨d,hd,htally⟩ := tally_handOver k s (h.handing event (List.mem_of_getElem? he))
      have hevents : (s.handOver event).runtime.shared.events = s.runtime.shared.events := rfl
      have hreceived : (s.handOver event).received = s.received := rfl
      simp only [used,available] at hd ⊢
      rw [hevents,hreceived]
      omega
  | c n =>
    simp only [step] at hs
    split at hs
    · cases hs
    · next event he =>
      cases hs
      have herase := permitsIn_eraseIdx (k := k) he
      have havailable := available_dropPermit k event.delivery_permit s
      have hevents : (s.dropPermit event.delivery_permit).runtime.shared.events =
        s.runtime.shared.events := rfl
      simp only [used,available] at havailable ⊢
      rw [hevents]
      simp only [dropPermit] at havailable ⊢
      omega
  | releaseBuffer buffer_handle =>
    cases hs
    have herase := LinkedMap.tally_erase s.buffers.buffers buffer_handle
      (fun e => ofChannel k e.delivery_permit)
    rw [tally_permitOf] at herase
    have havailable := available_dropPermit k (s.permitOf buffer_handle) s
    have hevents : (s.dropPermit (s.permitOf buffer_handle)).runtime.shared.events =
      s.runtime.shared.events := rfl
    simp only [used,available,release_buffer] at havailable ⊢
    rw [hevents]
    simp only [dropPermit] at havailable ⊢
    omega
  | elsewhere =>
    cases hs
    exact ⟨rfl,le_rfl⟩

/-- The queue after a step of the runtime. -/
lemma used_runtime {c : Config} {events : List NativeEvent} (k : UInt64)
    (he : c.shared.events = s.runtime.shared.events ++ events)
    (hr : s.received ≤ s.runtime.shared.events.length) :
    ({ s with runtime := c } : Delivery).used k = s.used k + permitsIn k events := by
  simp only [used]
  rw [he,List.drop_append_of_le_length hr,permitsIn_append]
  omega

/-- A step of the runtime hands out permits with messages, and makes them once for a channel. -/
lemma total_runtime {c : Config} {l : Label} (h : s.Inv) (hs : Native.step l s.runtime = some c) :
    ∀ k, (k ∉ s.runtime.shared.history.polled → k ∉ c.shared.history.polled →
        ({ s with runtime := c } : Delivery).used k = s.used k) ∧
      (k ∈ s.runtime.shared.history.polled → Unwrapped s.runtime.shared →
        ({ s with runtime := c } : Delivery).available k +
            ({ s with runtime := c } : Delivery).used k = s.available k + s.used k) := by
  obtain ⟨i,hpermit,hserves,hstarts⟩ := permitStep_of_step h.permits hs
  intro k
  cases hpermit with
  | keep events he hp hslots hh =>
    have hused := used_runtime k he h.received
    have hzero : permitsIn k events = 0 := by
      refine List.countP_eq_zero.mpr fun e hm => ?_
      rw [(hp e hm).2]
      simp [ofChannel]
    refine ⟨fun _ _ => by omega,fun _ _ => ?_⟩
    have havailable : ({ s with runtime := c } : Delivery).available k = s.available k :=
      congrFun hslots k
    omega
  | deliver j event hi he hp hk hslots hh =>
    have hused := used_runtime k he h.received
    rw [permitsIn_one,hp.2] at hused
    have hj := hserves j hi
    by_cases hkj : k = j
    · subst hkj
      refine ⟨fun hn => absurd hj hn,fun _ _ => ?_⟩
      have havailable : ({ s with runtime := c } : Delivery).available k = s.available k-1 :=
        (congrFun hslots k).trans (Function.update_self _ _ _)
      have hpos : s.available k ≠ 0 := hk
      simp only [ofChannel,decide_true,Bool.toNat_true] at hused
      omega
    · have hne : ofChannel k (some ⟨j.toNat⟩) = false := by
        simp only [ofChannel,Option.some.injEq,DeliveryPermit.mk.injEq,decide_eq_false_iff_not]
        exact fun he => hkj (UInt64.toNat_inj.mp he.symm)
      rw [hne,Bool.toNat_false] at hused
      refine ⟨fun _ _ => by omega,fun _ _ => ?_⟩
      have havailable : ({ s with runtime := c } : Delivery).available k = s.available k :=
        (congrFun hslots k).trans (Function.update_of_ne hkj _ _)
      omega
  | start j entry peer_handle channel hi hl he hslots hh =>
    have hevents : c.shared.events = s.runtime.shared.events ++ [] := by
      rw [he,List.append_nil]
    have hused := used_runtime k hevents h.received
    refine ⟨fun _ _ => hused,fun hk hn => ?_⟩
    have hkj : k ≠ j := by
      rintro rfl
      exact hstarts k peer_handle channel hi hn hk
    have havailable : ({ s with runtime := c } : Delivery).available k = s.available k :=
      (congrFun hslots k).trans (Function.update_of_ne hkj _ _)
    change _ = s.used k + 0 at hused
    omega

lemma polled_subset {c c' : Config} {l : Label} (h : PermitInv c)
    (hs : Native.step l c = some c') :
    c.shared.history.polled <+: c'.shared.history.polled := by
  obtain ⟨i,hpermit,-,-⟩ := permitStep_of_step h hs
  exact polled_grows hpermit

/-- What a step never takes back. -/
lemma kept_step (h : s.Inv) (hs : s.step l = some s') :
    (∀ k, k ∈ s.runtime.shared.history.polled → k ∈ s'.runtime.shared.history.polled) ∧
      (Unwrapped s'.runtime.shared → Unwrapped s.runtime.shared) := by
  have hsame : s'.runtime.shared.history = s.runtime.shared.history →
      (∀ k, k ∈ s.runtime.shared.history.polled → k ∈ s'.runtime.shared.history.polled) ∧
        (Unwrapped s'.runtime.shared → Unwrapped s.runtime.shared) := by
    intro he
    simp only [Unwrapped,he]
    exact ⟨fun _ hk => hk,fun hn => hn⟩
  cases l with
  | runtime l =>
    obtain ⟨c,hc,rfl⟩ := Option.map_eq_some_iff.mp hs
    exact ⟨fun k hk => (polled_subset h.permits hc).subset hk,
      fun hn => (allocated_grows hc).length_le.trans_lt hn⟩
  | wake =>
    cases hs
    exact hsame rfl
  | receive =>
    simp only [step] at hs
    split at hs
    · cases hs
    · split_ifs at hs <;> (cases hs; exact hsame rfl)
  | jni n | c n =>
    simp only [step] at hs
    split at hs <;> cases hs
    exact hsame rfl
  | releaseBuffer buffer_handle =>
    cases hs
    exact hsame rfl
  | elsewhere =>
    cases hs
    exact hsame rfl

theorem inv_step (h : s.Inv) (hs : s.step l = some s') : s'.Inv := by
  by_cases hl : ∃ l', l = .runtime l'
  · obtain ⟨l,rfl⟩ := hl
    have hkept := kept_step h hs
    obtain ⟨c,hc,rfl⟩ := Option.map_eq_some_iff.mp hs
    obtain ⟨i,hpermit,-,-⟩ := permitStep_of_step h.permits hc
    refine ⟨permitInv_step h.permits hc,?_,h.handing,fun k hk => ?_⟩
    · have hevents : ∃ events, c.shared.events = s.runtime.shared.events ++ events := by
        cases hpermit with
        | keep events he => exact ⟨events,he⟩
        | deliver k event hi he => exact ⟨[event],he⟩
        | start k entry peer_handle channel hi hl he => exact ⟨[],by rw [he,List.append_nil]⟩
      obtain ⟨events,he⟩ := hevents
      have hr := h.received
      change s.received ≤ c.shared.events.length
      rw [he,List.length_append]
      omega
    · have hold : k ∉ s.runtime.shared.history.polled := fun hk' => hk (hkept.1 k hk')
      exact ((total_runtime h hc k).1 hold hk).trans (h.unused k hold)
  · have htotal := total_poll (fun l' he => hl ⟨l',he⟩) h hs
    have hunused : s'.runtime.shared.history = s.runtime.shared.history →
        ∀ k, k ∉ s'.runtime.shared.history.polled → s'.used k = 0 := by
      intro he k hk
      rw [he] at hk
      have hzero := h.unused k hk
      have hle := (htotal k).2
      omega
    have hhanded : ∀ n, ∀ e ∈ s.handing.eraseIdx n, e.kind ≠ WAKE :=
      fun n e he => h.handing e (List.mem_of_mem_eraseIdx he)
    cases l with
    | runtime l => exact absurd ⟨l,rfl⟩ hl
    | wake =>
      cases hs
      refine ⟨h.permits.frame s.runtime.shared.slots fun e he => ?_,?_,h.handing,hunused rfl⟩
      · obtain he | he := List.mem_append.mp he
        · exact h.permits.own e he
        · rw [List.mem_singleton.mp he]
          exact (noMessage_of_kind WAKE rfl (by decide) (by decide) rfl).1
      · have hr := h.received
        simp only [RuntimeState.send_event,List.length_append]
        omega
    | receive =>
      simp only [step] at hs
      split at hs
      · cases hs
      · next event he =>
        have hlt : s.received+1 ≤ s.runtime.shared.events.length :=
          (List.getElem?_eq_some_iff.mp he).1
        split_ifs at hs with hw
        · cases hs
          exact ⟨h.permits.frame _ h.permits.own,hlt,h.handing,hunused rfl⟩
        · cases hs
          refine ⟨h.permits,hlt,fun e hm => ?_,hunused rfl⟩
          obtain hm | hm := List.mem_append.mp hm
          · exact h.handing e hm
          · rw [List.mem_singleton.mp hm]
            exact hw
    | jni n | c n =>
      simp only [step] at hs
      split at hs <;> cases hs
      exact ⟨h.permits.frame _ h.permits.own,h.received,hhanded n,hunused rfl⟩
    | releaseBuffer buffer_handle =>
      cases hs
      exact ⟨h.permits.frame _ h.permits.own,h.received,h.handing,hunused rfl⟩
    | elsewhere =>
      cases hs
      exact ⟨h.permits,h.received,h.handing,hunused rfl⟩

/-- A state that a runtime with its polls reaches. -/
abbrev Reachable (certificate : RTCCertificate) (ok : DeliveryLabel → Delivery → Prop)
    (s : Delivery) : Prop :=
  Reaches step ok (init certificate) s

theorem inv_of_reachable {certificate : RTCCertificate} {ok : DeliveryLabel → Delivery → Prop}
    (h : Reachable certificate ok s) : s.Inv := by
  refine h.invariant ⟨⟨?_,fun k => ?_,fun u j hj => ?_,by simp [init,Native.init]⟩,le_rfl,
    by simp [init],fun _ _ => rfl⟩ fun _ _ _ hI _ hs => inv_step hI hs
  · have hinit : Native.Reachable certificate (fun _ _ => True) (Native.init certificate) := .refl
    exact handleInv_of_reachable hinit
  · refine .of_idle (fun t => ?_) le_rfl
    simp only [init,Native.init]
    split_ifs <;> rfl
  · simp only [init,Native.init] at hj
    split_ifs at hj
    · rw [List.mem_singleton.mp hj]
      simp [Permitted,Instr.serves]
    · cases hj

lemma total_step (h : s.Inv) (hs : s.step l = some s')
    (hk : k ∈ s.runtime.shared.history.polled) (hn : Unwrapped s.runtime.shared) :
    s'.available k + s'.used k = s.available k + s.used k := by
  by_cases hl : ∃ l', l = .runtime l'
  · obtain ⟨l,rfl⟩ := hl
    obtain ⟨c,hc,rfl⟩ := Option.map_eq_some_iff.mp hs
    exact (total_runtime h hc k).2 hk hn
  · exact (total_poll (fun l' he => hl ⟨l',he⟩) h hs k).1

/-- The poll task of a channel starts with all its permits. -/
lemma started {c : Delivery} {t : ℕ} {x : Choice} {peer_handle : UInt64} {channel : ChannelRef}
    {rest : List Instr} {entry : PeerEntry} (h : s.Inv)
    (head : s.runtime.tasks t = .startPolling k peer_handle channel :: rest)
    (he : s.runtime.shared.registry.peers.lookup peer_handle = some entry)
    (hs : s.step (.runtime (.task t x)) = some c) : k ∈ c.runtime.shared.history.polled ∧
      (Unwrapped s.runtime.shared →
        c.available k + c.used k = entry.receive_queue_capacity) := by
  obtain ⟨cc,hc,rfl⟩ := Option.map_eq_some_iff.mp hs
  have hfound : s.runtime.shared.get_peer peer_handle = .ok entry := by
    simp [RuntimeState.get_peer,he]
  have hrun : run x t (.startPolling k peer_handle channel) s.runtime.shared =
      startPolling k peer_handle channel s.runtime.shared := rfl
  obtain hx | hx := exec_plain (x := x) (t := t) (s := s.runtime.shared)
    (i := .startPolling k peer_handle channel) rfl rfl (by simp)
  · simp [Native.step,Machine.stepTask,head,machine,hx] at hc
  · simp only [startPolling,hfound] at hrun
    simp only [Native.step,Machine.stepTask,head,machine,hx,hrun,Option.some.injEq] at hc
    subst hc
    refine ⟨by simp [RuntimeState.record],fun hn => ?_⟩
    have hmem : .startPolling k peer_handle channel ∈ s.runtime.tasks t := by simp [head]
    have hzero := h.unused k (h.permits.fresh hn hmem)
    have havailable : ∀ code, ({ s with runtime := ⟨({ s.runtime.shared with
        nextTask := s.runtime.shared.nextTask+1
        slots := Function.update s.runtime.shared.slots k entry.receive_queue_capacity }).record
          fun h => { h with polled := h.polled ++ [k] },code⟩ } : Delivery).available k =
            entry.receive_queue_capacity := fun _ => Function.update_self _ _ _
    rw [havailable]
    change _ + s.used k = _
    omega

/-- Where the permits of a channel of the given capacity are. -/
structure Conserved (k : UInt64) (capacity : ℕ) (s : Delivery) : Prop where
  /-- They are left, queued with messages, handed over, or kept by buffers. -/
  total : s.available k + s.used k = capacity
  /-- Exactly the messages are queued with a permit, that of their channel. -/
  own : ∀ e ∈ s.runtime.shared.events, OwnPermit e

/-- From the step on in which `register_channel` spawns the poll task of a channel, the permits of
the channel are conserved, whatever is polled, released, or received. -/
theorem permits_conserved {certificate : RTCCertificate}
    {ok : DeliveryLabel → Delivery → Prop} {c d : Delivery} {t : ℕ} {x : Choice}
    {peer_handle : UInt64} {channel : ChannelRef} {rest : List Instr} {entry : PeerEntry}
    (h : Reachable certificate ok s)
    (head : s.runtime.tasks t = .startPolling k peer_handle channel :: rest)
    (he : s.runtime.shared.registry.peers.lookup peer_handle = some entry)
    (hs : s.step (.runtime (.task t x)) = some c) (hd : Reaches step ok c d)
    (hn : Unwrapped d.runtime.shared) : Conserved k entry.receive_queue_capacity d := by
  have hs₀ := inv_of_reachable h
  have hc := inv_step hs₀ hs
  have hback := kept_step hs₀ hs
  obtain ⟨hpolled,htotal⟩ := started hs₀ head he hs
  have hrun : d.Inv ∧ k ∈ d.runtime.shared.history.polled ∧
      (Unwrapped d.runtime.shared → Unwrapped c.runtime.shared ∧
        d.available k + d.used k = c.available k + c.used k) := by
    refine hd.invariant (I := fun d => d.Inv ∧ k ∈ d.runtime.shared.history.polled ∧
      (Unwrapped d.runtime.shared → Unwrapped c.runtime.shared ∧
        d.available k + d.used k = c.available k + c.used k)) ⟨hc,hpolled,fun hn => ⟨hn,rfl⟩⟩ ?_
    intro l e e' hI _ hstep
    obtain ⟨hI,hk,htot⟩ := hI
    have hkept := kept_step hI hstep
    refine ⟨inv_step hI hstep,hkept.1 k hk,fun hn => ?_⟩
    obtain ⟨hunwrapped,heq⟩ := htot (hkept.2 hn)
    exact ⟨hunwrapped,(total_step hI hstep hk (hkept.2 hn)).trans heq⟩
  obtain ⟨hunwrapped,heq⟩ := hrun.2.2 hn
  exact ⟨heq.trans (htotal (hback.2 hunwrapped)),hrun.1.permits.own⟩

section Witness

/-- The remote side opens a channel, up to the step that starts to poll it. -/
def openingRun : List Label :=
  peerCreated ++ [.announce 0 plainChannel,.task 2 .ok,.task 2 .ok,
    .task 2 (.attributes remoteAttributes),.task 2 .ok,.task 2 .ok]

/-- Two messages arrive for one permit, and the first is handed over to the JVM. -/
def deliveringRun : List DeliveryLabel :=
  [.runtime (.task 3 (.event (some (.onMessage true [104,105])))),.runtime (.task 3 .ok),
    .runtime (.task 3 (.event (some (.onMessage false [1])))),.receive,.receive,.receive,.c 0,
    .jni 1,.wake]

theorem permits_conserved_handedOver : ∃ d, Reachable ⟨"",[]⟩ (fun _ _ => True) d ∧
    Conserved 2 1 d ∧ d.used 2 = 1 ∧ d.buffers.buffers.keys = [1] := by
  have hrun : ((Interleaving.run step (openingRun.map .runtime) (init ⟨"",[]⟩)).bind fun s =>
      (step (.runtime (.task 2 .ok)) s).bind fun c =>
        (Interleaving.run step deliveringRun c).map fun d => (s,c,d)).map (fun y =>
          (y.1.runtime.tasks 2,y.1.runtime.shared.registry.peers.lookup 1,
            y.2.2.runtime.shared.history.allocated.length,y.2.2.used 2,
            y.2.2.buffers.buffers.keys)) =
      some ([.startPolling 2 1 0,.finish],some ⟨0,1⟩,2,1,[1]) := by rfl
  obtain ⟨⟨s,c,d⟩,hall,hseen⟩ := Option.map_eq_some_iff.mp hrun
  obtain ⟨_,hs,hall⟩ := Option.bind_eq_some_iff.mp hall
  obtain ⟨_,hc,hall⟩ := Option.bind_eq_some_iff.mp hall
  obtain ⟨_,hd,heq⟩ := Option.map_eq_some_iff.mp hall
  cases heq
  obtain ⟨head,hseen⟩ := Prod.mk.inj hseen
  obtain ⟨hentry,hseen⟩ := Prod.mk.inj hseen
  obtain ⟨hallocated,hseen⟩ := Prod.mk.inj hseen
  obtain ⟨hused,hkeys⟩ := Prod.mk.inj hseen
  have hreach : Reachable ⟨"",[]⟩ (fun _ _ => True) s := reaches_of_run hs fun _ _ _ => trivial
  have hafter : Reaches step (fun _ _ => True) c d := reaches_of_run hd fun _ _ _ => trivial
  have hunwrapped : Unwrapped d.runtime.shared := by
    rw [Unwrapped,hallocated]
    decide
  exact ⟨d,(hreach.tail ⟨_,trivial,hc⟩).trans hafter,
    permits_conserved hreach head hentry hc hafter hunwrapped,hused,hkeys⟩

end Witness
end Delivery
end Kestara.Native
