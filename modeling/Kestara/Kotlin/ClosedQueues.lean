import Kestara.Kotlin.Allocation
import Kestara.Kotlin.Control

/-!
# Deliveries and closed queues

`markClosed` closes the queues of an object while the event loop may be on its way to send
into one of them: it has looked the object up and released the mutex. The exception of that
send ends the loop and shuts the runtime down. Runs without such a meeting are safe.
-/
namespace Kestara.Kotlin
open Interleaving

/-- The queue into which `DataChannel.handleNativeEvent` sends an event without looking at
`closed` first. -/
def DataChannel.target (c : ChannelId) (e : NativeEvent) : Option QueueRef :=
  match e.kind? with
  | some .dataChannelClosing | some .dataChannelError | some .dataChannelBufferedAmountLow
  | some .dataChannelBufferedAmountHigh => some (.event c)
  | some .dataChannelText | some .dataChannelBinary => some (.message c)
  | _ => none

/-- The queue of its own into which `PeerConnection.handleNativeEvent` sends for an event. -/
def PeerConnection.target (p : PeerId) (e : NativeEvent) : Option QueueRef :=
  match e.kind? with
  | some .localCandidate => some (.localCandidate p)
  | some .negotiationNeeded => some (.negotiationNeeded p)
  | some .dataChannel => some (.incomingDataChannel p)
  | _ => none

/-- The queue a pending delivery is going to send into. A send of `setLocalDescription` is not
a delivery, and a sender that is suspended already is not affected by a close. -/
def Instr.target : Instr → Option QueueRef
  | .send (.localDescription _) _ => none
  | .send q _ => some q
  | .channel c (.handle e) => DataChannel.target c e
  | .channel c .notifyOpenState => some (.event c)
  | .peer p (.handle e) => PeerConnection.target p e
  | .peer p (.registerRemote _) => some (.incomingDataChannel p)
  | _ => none

/-- The queues of the deliveries that an instruction starts, by finding the object of an event. -/
def deliveries (s : Shared) : Instr → List QueueRef
  | .loop (.lookupPeer e) =>
    ((s.runtime.peers.lookup e.peerHandle).bind (PeerConnection.target · e)).toList
  | .peer p (.handle e) =>
    (((s.peer p).channels.lookup e.channelHandle).bind (DataChannel.target · e)).toList
  | .runtime (.registerPeer p) =>
    (s.runtime.parked (s.peer p).handle).filterMap (PeerConnection.target p)
  | _ => []

/-- No close comes between a delivery and its send: a queue is closed only while no delivery
into it is pending, and a delivery starts only into a queue that is open. -/
def Undisturbed (l : Label) (c : Config) : Prop :=
  ∀ t x i rest, l.scheduled = some (t,x) → c.tasks t = i :: rest →
    (∀ q, i = .closeQueue q → ∀ t' j, Machine.Others c t rest t' j → j.target ≠ some q) ∧
      ∀ q ∈ deliveries c.shared i, (c.shared.queue q).closed = false

/-- Closing a peer or a channel does not reach the event loop. -/
structure ClosingIsLocal (c : Config) : Prop where
  /-- No delivery throws because its queue has been closed. -/
  delivered : ∀ t q x rest s, c.tasks t = .send q x :: rest → (∀ p, q ≠ .localDescription p) →
    exec .ok t (.send q x) c.shared ≠ .throw s (.closedSend q)
  /-- The event loop throws no such exception, and has not caught one. -/
  loop : ∀ i rest x s q, c.tasks 0 = i :: rest → exec x 0 i c.shared ≠ .throw s (.closedSend q)
  caught : ∀ q, .loop (.failed (.closedSend q)) ∉ c.tasks 0
  shutdown : ∀ q, .runtime (.completeShutdown (some (.closedSend q))) ∉ c.tasks 0

/-- What an instruction does to queues, `closed` flags and pending deliveries. -/
structure Effect (s : Shared) (i : Instr) (s' : Shared) (code : List Instr) : Prop where
  queues : ∀ q, (s'.queue q).closed = true → (s.queue q).closed = true ∨ i = .closeQueue q
  channels : ∀ d < s.nextChannel, (s.channel d).closed = true → (s'.channel d).closed = true
  targets : ∀ j ∈ code, ∀ q, j.target = some q → i.target = some q ∨ q ∈ deliveries s i ∨
    (s'.queue q).closed = false ∨ ∃ d, q = .event d ∧ (s.channel d).closed = false
  closes : ∀ j ∈ code, ∀ d, j = .closeQueue (.event d) → (s'.channel d).closed = true

/-- An instruction that changes neither queues nor `closed` flags. -/
lemma Effect.frame {s s' : Shared} {i : Instr} {code : List Instr} (hq : s'.queue = s.queue)
    (hc : s'.channel = s.channel)
    (ht : ∀ j ∈ code, ∀ q, j.target = some q → i.target = some q ∨ q ∈ deliveries s i)
    (hd : ∀ j ∈ code, ∀ d, j ≠ .closeQueue (.event d)) : Effect s i s' code where
  queues := by rw [hq]; exact fun q h => .inl h
  channels := by rw [hc]; exact fun d _ h => h
  targets := fun j hj q hjq => (ht j hj q hjq).imp_right .inl
  closes := fun j hj d hjd => (hd j hj d hjd).elim

lemma Effect.quiet {s s' : Shared} {i : Instr} {code : List Instr} (hq : s'.queue = s.queue)
    (hc : s'.channel = s.channel) (ht : ∀ j ∈ code, j.target = none)
    (hd : ∀ j ∈ code, ∀ d, j ≠ .closeQueue (.event d)) : Effect s i s' code :=
  .frame hq hc (fun j hj q hjq => by simp [ht j hj] at hjq) hd

/-- The effect of an outcome; an exception leaves no code of its own. -/
def HasEffect (s : Shared) (i : Instr) : Outcome → Prop
  | .next s' code => Effect s i s' code
  | .throw s' _ => Effect s i s' []
  | _ => True

section Effects
variable (s : Shared)

lemma effect_execAwait (i : Instr) (r : Option Completion) : HasEffect s i (execAwait r s) := by
  fun_cases execAwait r s
  · trivial
  · exact .quiet rfl rfl (by simp) (by simp)
  · exact .quiet rfl rfl (by simp) (by simp)

lemma target_handleNativeEvent {c : ChannelId} {e : NativeEvent} {code : List Instr}
    (h : DataChannel.handleNativeEvent c e = .ok code) :
    ∀ j ∈ code, (∀ q, j.target = some q → DataChannel.target c e = some q) ∧
      ∀ d, j ≠ .closeQueue (.event d) := by
  unfold DataChannel.handleNativeEvent at h
  split at h <;> cases h <;> simp_all [Instr.target,DataChannel.target]

/-- A channel's own fields may change, except that `closed` is never taken back. -/
lemma Effect.setChannel {c : ChannelId} {f : DataChannel → DataChannel} {i : Instr}
    {code : List Instr} (hf : (s.channel c).closed = true → (f (s.channel c)).closed = true)
    (ht : ∀ j ∈ code, ∀ q, j.target = some q → ∃ d, q = .event d ∧ (s.channel d).closed = false)
    (hd : ∀ j ∈ code, ∀ d, j = .closeQueue (.event d) → d = c ∧ (f (s.channel c)).closed = true) :
    Effect s i (s.setChannel c f) code where
  queues := fun q h => .inl h
  channels := by
    intro d _ h
    simp only [Shared.setChannel,Function.update_apply]
    split_ifs with he
    · subst he; exact hf h
    · exact h
  targets := fun j hj q hq => .inr (.inr (.inr (ht j hj q hq)))
  closes := by
    intro j hj d hjd
    obtain ⟨rfl,h⟩ := hd j hj d hjd
    simpa [Shared.setChannel] using h

lemma target_teardown (c : ChannelId) (b : Bool) : ∀ j ∈ DataChannel.teardown c b,
    (∀ q, j.target = some q → q = .event c) ∧ ∀ d, j = .closeQueue (.event d) → d = c := by
  cases b <;> simp [DataChannel.teardown,Instr.target,eq_comm]

lemma effect_channel (c : ChannelId) (i : ChannelInstr) :
    HasEffect s (.channel c i) (DataChannel.exec c i s) := by
  fun_cases DataChannel.exec c i s
  case case7 => exact effect_execAwait s _ _
  case case9 e code he =>
    have h := target_handleNativeEvent he
    refine .frame rfl rfl ?_ ?_
    · intro j hj q hq
      rcases List.mem_append.mp hj with hj | hj
      · exact .inl ((h j hj).1 q hq)
      · cases List.mem_singleton.mp hj; cases hq
    · intro j hj
      rcases List.mem_append.mp hj with hj | hj
      · exact (h j hj).2
      · cases List.mem_singleton.mp hj; simp
  case case12 hc =>
    refine ⟨fun q h => .inl h,fun d _ h => h,?_,by simp⟩
    intro j hj q hq
    cases List.mem_singleton.mp hj
    cases hq
    exact .inr (.inr (.inr ⟨c,rfl,by simpa using hc⟩))
  case case14 => exact .frame rfl rfl (by simp [Instr.target]) (by simp)
  case case17 b hc =>
    have h := target_teardown c b
    exact .setChannel s (fun _ => rfl) (fun j hj q hq => ⟨c,(h j hj).1 q hq,by simpa using hc⟩)
      fun j hj d hjd => ⟨(h j hj).2 d hjd,rfl⟩
  case case3 | case5 | case15 | case18 | case20 =>
    exact .setChannel s (fun h => h) (by simp [DataChannel.closeBody,Instr.target])
      (by simp [DataChannel.closeBody])
  all_goals exact .quiet rfl rfl (by simp [Instr.target]) (by simp)

lemma target_handled {p : PeerId} {e : NativeEvent} {s' : Shared} {code : List Instr}
    (h : PeerConnection.Handled p e s s' code) :
    s'.queue = s.queue ∧ s'.channel = s.channel ∧ ∀ j ∈ code,
      (∀ q, j.target = some q → (Instr.peer p (.handle e)).target = some q ∨
        q ∈ deliveries s (.peer p (.handle e))) ∧ ∀ d, j ≠ .closeQueue (.event d) := by
  cases h with
  | candidate hk | negotiation hk | register hk =>
    simp [Instr.target,PeerConnection.target,hk]
  | state v ice gathering signaling => simp [Shared.setPeer]
  | deliver hc =>
    refine ⟨rfl,rfl,?_⟩
    simp only [List.mem_singleton,forall_eq]
    refine ⟨fun q hq => .inr ?_,by simp⟩
    simp only [Instr.target] at hq
    simp [deliveries,hc,hq]
  | park hc => simp [Shared.setPeer]

/-- The queues of a new channel are open. -/
lemma newChannel_queue (p : PeerId) (handle : ℤ) (info : ChannelInfo) (b : Bool) (q : QueueRef) :
    ((s.newChannel p handle info b).queue q).closed = true → (s.queue q).closed = true ∧
      q ≠ .message s.nextChannel ∧ q ≠ .event s.nextChannel := by
  simp only [Shared.newChannel,Function.update_apply]
  split_ifs with h₁ h₂
  · simp
  · simp
  · exact fun h => ⟨h,h₂,h₁⟩

lemma newChannel_channel (p : PeerId) (handle : ℤ) (info : ChannelInfo) (b : Bool) {d : ChannelId}
    (hd : d < s.nextChannel) : (s.newChannel p handle info b).channel d = s.channel d := by
  simp [Shared.newChannel,Function.update_of_ne hd.ne]

lemma target_of_handle {c : ChannelId} {e : NativeEvent} {q : QueueRef}
    (h : DataChannel.target c e = some q) : q = .message c ∨ q = .event c := by
  unfold DataChannel.target at h
  split at h <;> simp_all

/-- A registration leaves deliveries into the queues it has just made. -/
lemma effect_register {p : PeerId} {i : Instr} {handle : ℤ} {info : ChannelInfo} {b : Bool}
    {f : PeerConnection → PeerConnection} {code : List Instr}
    (ht : ∀ j ∈ code, ∀ q, j.target = some q →
      i.target = some q ∨ ∃ e, DataChannel.target s.nextChannel e = some q)
    (hd : ∀ j ∈ code, ∀ d, j ≠ .closeQueue (.event d)) :
    Effect s i ((s.newChannel p handle info b).setPeer p f) code where
  queues := fun q h => .inl (newChannel_queue s p handle info b q h).1
  channels := fun d hd h => (newChannel_channel s p handle info b hd).symm ▸ h
  targets := by
    intro j hj q hq
    rcases ht j hj q hq with h | ⟨e,he⟩
    · exact .inl h
    · refine .inr (.inr (.inl ?_))
      rw [Bool.eq_false_iff]
      intro hc
      obtain ⟨-,hm,hv⟩ := newChannel_queue s p handle info b q hc
      rcases target_of_handle he with h | h
      · exact hm h
      · exact hv h
  closes := fun j hj d hjd => (hd j hj d hjd).elim

lemma effect_peer (p : PeerId) (i : PeerInstr) :
    HasEffect s (.peer p i) (PeerConnection.exec p i s) := by
  fun_cases PeerConnection.exec p i s
  case case3 =>
    refine effect_register s ?_ ?_
    · intro j hj q hq
      rcases List.mem_append.mp hj with hj | hj
      · obtain ⟨e,-,rfl⟩ := List.mem_map.mp hj
        exact .inr ⟨e,hq⟩
      · cases List.mem_singleton.mp hj; cases hq
    · intro j hj
      rcases List.mem_append.mp hj with hj | hj
      · obtain ⟨e,-,rfl⟩ := List.mem_map.mp hj
        simp
      · cases List.mem_singleton.mp hj; simp
  case case8 => exact effect_execAwait s _ _
  case case10 e s' code he =>
    obtain ⟨hq,hc,h⟩ := target_handled s (PeerConnection.handled_of_handleNativeEvent he)
    refine .frame hq hc ?_ ?_
    · intro j hj q hjq
      rcases List.mem_append.mp hj with hj | hj
      · exact (h j hj).1 q hjq
      · cases List.mem_singleton.mp hj; cases hjq
    · intro j hj
      rcases List.mem_append.mp hj with hj | hj
      · exact (h j hj).2
      · cases List.mem_singleton.mp hj; simp
  case case13 b _ _ =>
    refine effect_register s ?_ ?_
    · intro j hj q hq
      simp only [List.mem_append,List.mem_singleton,List.mem_map,or_assoc] at hj
      rcases hj with rfl | ⟨e,-,rfl⟩ | hj
      · exact .inl hq
      · exact .inr ⟨e,hq⟩
      · split_ifs at hj
        · cases List.mem_singleton.mp hj; cases hq
        · simp at hj
    · intro j hj
      simp only [List.mem_append,List.mem_singleton,List.mem_map,or_assoc] at hj
      rcases hj with rfl | ⟨e,-,rfl⟩ | hj
      · simp
      · simp
      · split_ifs at hj
        · cases List.mem_singleton.mp hj; simp
        · simp at hj
  all_goals
    exact .quiet rfl rfl (by simp [PeerConnection.closeBody,PeerConnection.teardown,Instr.target])
      (by simp [PeerConnection.closeBody,PeerConnection.teardown])

lemma newPeer_queue (handle : ℤ) (capacity : ReceiveQueueCapacity) (timeout : ℤ) (q : QueueRef)
    (h : ((s.newPeer handle capacity timeout).queue q).closed = true) :
    (s.queue q).closed = true := by
  simp only [Shared.newPeer,Function.update_apply] at h
  split_ifs at h
  exact h

lemma effect_resume (r : Resume) (i : Instr) (e : NativeEvent) :
    HasEffect s i (WebRtcRuntime.resume r e s) := by
  fun_cases WebRtcRuntime.resume r e s
  case case8 =>
    exact ⟨fun q h => .inl (newPeer_queue s _ _ _ q h),fun d _ h => h,by simp [Instr.target],by simp⟩
  all_goals exact .quiet rfl rfl (by simp [Instr.target]) (by simp)

lemma effect_submit (t : TaskId) (i : SubmitInstr) :
    HasEffect s (.submit i) (WebRtcRuntime.execSubmit t i s) := by
  fun_cases WebRtcRuntime.execSubmit t i s
  case case3 => exact WebRtcRuntime.withLock_of trivial (.quiet rfl rfl (by simp [Instr.target]) (by simp))
  case case10 => trivial
  case case11 => exact effect_resume s _ _ _
  all_goals exact .quiet rfl rfl (by simp [Instr.target]) (by simp)

lemma effect_loop (i : LoopInstr) : HasEffect s (.loop i) (WebRtcRuntime.execLoop i s) := by
  fun_cases WebRtcRuntime.execLoop i s
  case case4 =>
    refine .quiet rfl rfl ?_ ?_
    · simp only [List.mem_singleton,forall_eq]
      split_ifs <;> rfl
    · simp only [List.mem_singleton,forall_eq]
      split_ifs <;> simp
  case case5 e =>
    refine WebRtcRuntime.withLock_of trivial ?_
    split
    · next p hp =>
      refine .frame rfl rfl ?_ (by simp)
      simp only [List.mem_singleton,forall_eq]
      intro q hq
      change s.runtime.peers.lookup e.peerHandle = some p at hp
      simp only [Instr.target] at hq
      exact .inr (by simp [deliveries,hp,hq])
    · exact .quiet rfl rfl (by simp) (by simp)
  case case6 =>
    refine WebRtcRuntime.withLock_of trivial ?_
    split <;> exact .quiet rfl rfl (by simp [Instr.target]) (by simp)
  all_goals exact .quiet rfl rfl (by simp [Instr.target]) (by simp)

lemma effect_runtime (t : TaskId) (i : RuntimeInstr) :
    HasEffect s (.runtime i) (WebRtcRuntime.execRuntime t i s) := by
  fun_cases WebRtcRuntime.execRuntime t i s
  case case2 | case21 =>
    exact WebRtcRuntime.withLock_of trivial (.quiet rfl rfl (by simp [Instr.target]) (by simp))
  case case5 p _ =>
    refine .frame rfl rfl ?_ ?_
    · intro j hj q hq
      rcases List.mem_append.mp hj with hj | hj
      · obtain ⟨e,he,rfl⟩ := List.mem_map.mp hj
        exact .inr (List.mem_filterMap.mpr ⟨e,he,hq⟩)
      · cases List.mem_singleton.mp hj; cases hq
    · intro j hj
      rcases List.mem_append.mp hj with hj | hj
      · obtain ⟨e,-,rfl⟩ := List.mem_map.mp hj
        simp
      · cases List.mem_singleton.mp hj; simp
  case case7 =>
    refine WebRtcRuntime.withLock_of trivial ?_
    split_ifs <;> exact .quiet rfl rfl (by simp) (by simp)
  case case11 => exact effect_execAwait s _ _
  case case15 =>
    have h : ∀ peers pending failure, ∀ j ∈ WebRtcRuntime.afterDrain peers pending failure,
        j.target = none ∧ ∀ d, j ≠ .closeQueue (.event d) := by
      intro peers pending failure j hj
      simp only [WebRtcRuntime.afterDrain,List.mem_append,List.mem_map,List.mem_cons,
        List.not_mem_nil,or_false] at hj
      rcases hj with (⟨p,-,rfl⟩ | ⟨op,-,rfl⟩) | rfl | rfl <;> exact ⟨rfl,by simp⟩
    exact WebRtcRuntime.withLock_of trivial
      (.quiet rfl rfl (fun j hj => (h _ _ _ j hj).1) fun j hj => (h _ _ _ j hj).2)
  all_goals
    exact .quiet rfl rfl (by simp [WebRtcRuntime.closeBody,WebRtcRuntime.teardown,Instr.target])
      (by simp [WebRtcRuntime.closeBody,WebRtcRuntime.teardown])

lemma effect_put (q : QueueRef) (x : Item) (i : Instr) (f : History → History) :
    Effect s i ((s.setQueue q (·.put x)).record f) [] := by
  refine ⟨fun r h => .inl ?_,fun d _ h => h,by simp,by simp⟩
  simp only [Shared.record,Shared.setQueue,Function.update_apply] at h
  split_ifs at h with he
  · subst he; simpa using h
  · exact h

theorem effect_exec (x : Choice) (t : TaskId) (i : Instr) : HasEffect s i (exec x t i s) := by
  cases x with
  | ok =>
    cases i with
    | send q y =>
      simp only [exec,execOk,execSend]
      split_ifs
      · exact .quiet rfl rfl (by simp) (by simp)
      · exact effect_put s q y _ _
      · exact .quiet rfl rfl (by simp [Instr.target]) (by simp)
    | sendSuspended q y =>
      simp only [exec,execOk,execSendSuspended]
      split_ifs
      · exact effect_put s q y _ _
      · trivial
    | closeQueue q =>
      refine ⟨fun r h => ?_,fun d _ h => h,by simp,by simp⟩
      simp only [Shared.setQueue,Function.update_apply] at h
      split_ifs at h with he
      · exact .inr (by rw [he])
      · exact .inl h
    | channel c i => exact effect_channel s c i
    | peer p i => exact effect_peer s p i
    | submit i => exact effect_submit s t i
    | loop i => exact effect_loop s i
    | runtime i => exact effect_runtime s t i
  | fail message =>
    simp only [exec]
    fun_cases execFail message i s
    case case5 => trivial
    all_goals exact .quiet rfl rfl (by simp [Instr.target]) (by simp)
  | cancel =>
    simp only [exec]
    fun_cases execCancel i s <;> first | exact .quiet rfl rfl (by simp) (by simp) | trivial

end Effects

/-- The delivery finds its queue open, and the event queue of a channel is going to be closed
only after its `closed` flag has been set. -/
def FindsOpen (s : Shared) (j : Instr) : Prop :=
  (∀ q, j.target = some q → (s.queue q).closed = false) ∧
    ∀ d, j = .closeQueue (.event d) → (s.channel d).closed = true

structure DeliveriesOpen (c : Config) : Prop where
  pending : ∀ t, ∀ j ∈ c.tasks t, FindsOpen c.shared j
  event : ∀ d, (c.shared.queue (.event d)).closed = true →
    d < c.shared.nextChannel ∧ (c.shared.channel d).closed = true

section Step
variable {c : Config} {t : TaskId} {i : Instr} {rest code : List Instr} {s : Shared}

lemma event_effect (hcon : Constructed c) (h : DeliveriesOpen c) (hi : i ∈ c.tasks t)
    (he : Effect c.shared i s code) (hg : Grows c.shared s) (d : ChannelId)
    (hd : (s.queue (.event d)).closed = true) : d < s.nextChannel ∧ (s.channel d).closed = true := by
  obtain ⟨hlt,hc⟩ : d < c.shared.nextChannel ∧ (c.shared.channel d).closed = true := by
    rcases he.queues _ hd with h' | rfl
    · exact h.event d h'
    · exact ⟨hcon.code t _ hi,(h.pending t _ hi).2 d rfl⟩
  exact ⟨lt_of_lt_of_le hlt hg.2,he.channels d hlt hc⟩

/-- A delivery that stays pending keeps its open queue. -/
lemma findsOpen_others (he : Effect c.shared i s code) {j : Instr}
    (hclose : ∀ q, i = .closeQueue q → j.target ≠ some q) (hA : FindsOpen c.shared j)
    (ha : j.Allocated c.shared) : FindsOpen s j := by
  refine ⟨?_,?_⟩
  · intro q hq
    rw [Bool.eq_false_iff]
    intro hs
    rcases he.queues q hs with h' | h'
    · rw [hA.1 q hq] at h'; cases h'
    · exact hclose q h' hq
  · rintro d rfl
    exact he.channels d ha (hA.2 d rfl)

/-- A delivery that an instruction starts or passes on has an open queue. -/
lemma findsOpen_code (h : DeliveriesOpen c) (hi : i ∈ c.tasks t) (he : Effect c.shared i s code)
    (hstart : ∀ q ∈ deliveries c.shared i, (c.shared.queue q).closed = false)
    (hl : ∀ j ∈ code, i.leaves j) : ∀ j ∈ code, FindsOpen s j := by
  intro j hj
  refine ⟨?_,he.closes j hj⟩
  intro q hq
  have keep : (c.shared.queue q).closed = false → (s.queue q).closed = false := by
    intro hc
    rw [Bool.eq_false_iff]
    intro hs
    rcases he.queues q hs with h' | rfl
    · rw [hc] at h'; cases h'
    · exact hl j hj
  rcases he.targets j hj q hq with h' | h' | h' | ⟨d,rfl,hd⟩
  · exact keep ((h.pending t i hi).1 q h')
  · exact keep (hstart q h')
  · exact h'
  · refine keep ?_
    rw [Bool.eq_false_iff]
    intro hc
    rw [(h.event d hc).2] at hd
    cases hd

/-- No `catch` block delivers or closes a queue. -/
lemma findsOpen_handler {e : Exn} (h : handler e i = some code) : ∀ j ∈ code, FindsOpen s j := by
  unfold handler at h
  split at h <;> cases h <;> simp [FindsOpen,Instr.target]

end Step

lemma DeliveriesOpen.task {l : Label} {x : Choice} {t : TaskId} {c c' : Config}
    (hcon : Constructed c) (h : DeliveriesOpen c) (hok : Undisturbed l c)
    (hl : l.scheduled = some (t,x)) (hs : TaskStep x t c c') : DeliveriesOpen c' := by
  refine ⟨?_,?_⟩
  · refine hs.assertions (A := fun s _ j => FindsOpen s j) h.pending ?_ ?_
    · intro i rest s code head he
      have hi : i ∈ c.tasks t := by simp [head]
      obtain ⟨hclose,hstart⟩ := hok t x i rest hl head
      have heff := effect_exec c.shared x t i
      have hleaves := leaves_exec c.shared x t i
      rw [he] at heff hleaves
      refine ⟨findsOpen_code h hi heff hstart hleaves,fun t' j hj hA => ?_⟩
      exact findsOpen_others heff (fun q hq => hclose q hq t' j hj) hA
        (hcon.code t' j (Machine.Others.mem head hj))
    · intro i rest s e head he
      obtain ⟨hclose,-⟩ := hok t x i rest hl head
      have heff := effect_exec c.shared x t i
      rw [he] at heff
      refine ⟨fun k _ _ code hc => findsOpen_handler hc,fun t' j hj hA => ?_⟩
      exact findsOpen_others heff (fun q hq => hclose q hq t' j hj) hA
        (hcon.code t' j (Machine.Others.mem head hj))
  · cases hs with
    | @next i rest s code head he =>
      have hi : i ∈ c.tasks t := by simp [head]
      have heff := effect_exec c.shared x t i
      have hsound := sound_exec hcon.heap (x := x) (t := t) (hcon.code t i hi)
      rw [he] at heff hsound
      exact event_effect hcon h hi heff hsound.2.1
    | @throw i rest s e head he =>
      have hi : i ∈ c.tasks t := by simp [head]
      have heff := effect_exec c.shared x t i
      have hsound := sound_exec hcon.heap (x := x) (t := t) (hcon.code t i hi)
      rw [he] at heff hsound
      exact event_effect hcon h hi heff hsound.2

lemma findsOpen_api (s : Shared) (a : Api) : ∀ j ∈ a.code s, FindsOpen s j := by
  cases a <;> simp [Api.code,FindsOpen,Instr.target]

lemma deliveriesOpen_receive {q : QueueRef} {c : Config} {s : Shared} (h : DeliveriesOpen c)
    (hs : receive q c.shared = some s) : DeliveriesOpen { c with shared := s } := by
  obtain ⟨y,ys,known,-,-,rfl⟩ := receive_cases hs
  have hq : ∀ r, ((c.shared.setQueue q fun b => { b with buffer := ys }).queue r).closed =
      (c.shared.queue r).closed := by
    intro r
    simp only [Shared.setQueue,Function.update_apply]
    split_ifs with he
    · rw [he]
    · rfl
  refine ⟨fun t j hj => ⟨fun r hr => ?_,(h.pending t j hj).2⟩,fun d hd => ?_⟩
  · rw [← (h.pending t j hj).1 r hr]
    exact hq r
  · exact h.event d ((hq _).symm.trans hd)

theorem deliveriesOpen_of_reachable {shutdownTimeout : ℤ} {fingerprint : String} {c : Config}
    (h : Reachable shutdownTimeout fingerprint Undisturbed c) : DeliveriesOpen c := by
  suffices hc : Constructed c ∧ DeliveriesOpen c from hc.2
  refine h.invariant (I := fun c => Constructed c ∧ DeliveriesOpen c) ⟨constructed_init _ _,?_⟩ ?_
  · refine ⟨fun t j hj => ?_,by simp [init]⟩
    simp only [init] at hj
    split_ifs at hj
    · simp only [List.mem_cons,List.not_mem_nil,or_false] at hj
      rcases hj with rfl | rfl <;> simp [FindsOpen,Instr.target]
    · simp at hj
  · intro l d d' hd hok hs
    refine ⟨constructed_step hd.1 hs,?_⟩
    cases step_cases hs with
    | task hl active ht => exact hd.2.task hd.1 hok hl ht
    | @call t a ht idle admitted =>
      refine ⟨fun t' j hj => ?_,hd.2.event⟩
      by_cases he : t' = t
      · subst t'
        simp only [Function.update_self] at hj
        exact findsOpen_api d.shared a j hj
      · simp only [Function.update_of_ne he] at hj
        exact hd.2.pending t' j hj
    | receive ht idle hr => exact deliveriesOpen_receive hd.2 hr
    | cancel | native => exact ⟨hd.2.pending,hd.2.event⟩

/-- The outcome is not the exception of a send on a closed queue. -/
def NotClosedSend : Outcome → Prop
  | .throw _ (.closedSend _) => False
  | _ => True

lemma notClosedSend_channel {c : ChannelId} {i : ChannelInstr} (hi : i.inLoop = true) (s : Shared) :
    NotClosedSend (DataChannel.exec c i s) := by
  fun_cases DataChannel.exec c i s
  case case7 => cases hi
  case case8 e x he =>
    unfold DataChannel.handleNativeEvent at he
    split at he <;> cases he
    trivial
  all_goals trivial

lemma enumValue_error {α : Type} {values : List α} {n : ℤ} {name : String} {x : Exn}
    (h : PeerConnection.enumValue values n name = .error x) : ∃ m, x = .webRtc m := by
  unfold PeerConnection.enumValue at h
  split at h <;> cases h
  exact ⟨_,rfl⟩

lemma handleNativeEvent_error {p : PeerId} {e : NativeEvent} {s : Shared} {x : Exn}
    (h : PeerConnection.handleNativeEvent p e s = .error x) : ∃ m, x = .webRtc m := by
  unfold PeerConnection.handleNativeEvent at h
  split at h
  case h_2 | h_3 | h_4 | h_5 =>
    simp only [bind,Except.bind] at h
    split at h
    · next hv => cases h; exact enumValue_error hv
    · cases h
  all_goals cases h; try exact ⟨_,rfl⟩

lemma notClosedSend_peer {p : PeerId} {i : PeerInstr} (hi : i.inLoop = true) (s : Shared) :
    NotClosedSend (PeerConnection.exec p i s) := by
  fun_cases PeerConnection.exec p i s
  case case8 => cases hi
  case case9 e x he =>
    obtain ⟨m,rfl⟩ := handleNativeEvent_error he
    trivial
  all_goals trivial

lemma notClosedSend_loop (i : LoopInstr) (s : Shared) :
    NotClosedSend (WebRtcRuntime.execLoop i s) := by
  fun_cases WebRtcRuntime.execLoop i s
  case case5 | case6 =>
    refine WebRtcRuntime.withLock_of trivial ?_
    split <;> trivial
  all_goals trivial

lemma notClosedSend_runtime {i : RuntimeInstr} (hi : i.inLoop = true) (t : TaskId) (s : Shared) :
    NotClosedSend (WebRtcRuntime.execRuntime t i s) := by
  fun_cases WebRtcRuntime.execRuntime t i s
  case case2 | case7 | case15 | case21 => exact WebRtcRuntime.withLock_of trivial trivial
  case case11 => cases hi
  all_goals trivial

/-- In the event loop only a send on a closed queue throws this exception. -/
lemma throw_closedSend {x : Choice} {i : Instr} {s s' : Shared} {q : QueueRef}
    (hi : i.inLoop = true) (h : exec x 0 i s = .throw s' (.closedSend q)) :
    i.target = some q ∧ (s.queue q).closed = true := by
  have hn : ¬NotClosedSend (exec x 0 i s) := by simp [h,NotClosedSend]
  cases x with
  | ok =>
    cases i with
    | send r y =>
      simp only [exec,execOk,execSend] at h
      split_ifs at h with hr
      cases h
      cases q <;> first | exact ⟨rfl,hr⟩ | cases hi
    | sendSuspended r y =>
      simp only [exec,execOk,execSendSuspended] at h
      split_ifs at h
    | closeQueue r => cases h
    | channel c i => exact (hn (notClosedSend_channel hi s)).elim
    | peer p i => exact (hn (notClosedSend_peer hi s)).elim
    | submit i => cases hi
    | loop i => exact (hn (notClosedSend_loop i s)).elim
    | runtime i => exact (hn (notClosedSend_runtime hi 0 s)).elim
  | fail message =>
    refine (hn ?_).elim
    simp only [exec]
    fun_cases execFail message i s <;> trivial
  | cancel =>
    refine (hn ?_).elim
    simp only [exec]
    fun_cases execCancel i s <;> trivial

/-- The instruction carries the exception of a send on a closed queue into the shutdown. -/
def Instr.failsClosed (j : Instr) : Prop :=
  ∃ q, j = .loop (.failed (.closedSend q)) ∨ j = .runtime (.completeShutdown (some (.closedSend q)))

lemma failsClosed_leaves {i j : Instr} (hi : i.inLoop = true) (hc : i ≠ .loop .catch)
    (h : i.leaves j) (hj : j.failsClosed) : i.failsClosed := by
  obtain ⟨q,rfl | rfl⟩ := hj
  · exact (hc (origin_of_leaves h)).elim
  · obtain ⟨e,rfl,he⟩ := leaves_completeShutdown hi h
    cases he
    exact ⟨q,.inl rfl⟩

lemma failsClosed_handler {e : Exn} {i j : Instr} {code : List Instr} (hi : i.inLoop = true)
    (h : handler e i = some code) (hj : j ∈ code) (hf : j.failsClosed) : ∃ q, e = .closedSend q := by
  obtain ⟨q,hf⟩ := hf
  unfold handler at h
  split at h <;> cases h <;> simp_all [Instr.inLoop,PeerInstr.inLoop,ChannelInstr.inLoop,
    RuntimeInstr.inLoop]

section Loop
variable {shutdownTimeout : ℤ} {fingerprint : String} {c : Config}

lemma loop_not_closedSend (h : Reachable shutdownTimeout fingerprint Undisturbed c) {i : Instr}
    {rest : List Instr} {x : Choice} {s : Shared} {q : QueueRef} (head : c.tasks 0 = i :: rest) :
    exec x 0 i c.shared ≠ .throw s (.closedSend q) := by
  intro he
  have hi : i ∈ c.tasks 0 := by simp [head]
  obtain ⟨ht,hq⟩ := throw_closedSend (inLoop_of_reachable h i hi) he
  rw [((deliveriesOpen_of_reachable h).pending 0 i hi).1 q ht] at hq
  cases hq

lemma not_failsClosed (h : Reachable shutdownTimeout fingerprint Undisturbed c) :
    ∀ j ∈ c.tasks 0, ¬j.failsClosed := by
  refine h.induct (I := fun c => ∀ j ∈ c.tasks 0, ¬j.failsClosed) ?_ ?_
  · simp [init,Instr.failsClosed]
  · intro l d d' hd hI hok hs
    cases step_cases hs with
    | @task _ x t _ hl active ht =>
      cases ht with
      | @next i rest s code head he =>
        intro j hj hf
        by_cases h0 : 0 = t
        · subst h0
          simp only [Function.update_self,List.mem_append] at hj
          have hi : i ∈ d.tasks 0 := by simp [head]
          have hleaves := leaves_exec d.shared x 0 i
          rw [he] at hleaves
          rcases hj with hj | hj
          · refine hI i hi (failsClosed_leaves (inLoop_of_reachable hd i hi) ?_ (hleaves j hj) hf)
            rintro rfl
            cases x <;> cases he
            cases hj
          · exact hI j (by simp [head,hj]) hf
        · simp only [Function.update_of_ne h0] at hj
          exact hI j hj hf
      | @throw i rest s e head he =>
        intro j hj hf
        by_cases h0 : 0 = t
        · subst h0
          simp only [Function.update_self] at hj
          rcases mem_afterThrow hj with hj | ⟨k,hk,code,hh,hj⟩
          · exact hI j (by simp [head,hj]) hf
          · obtain ⟨q,rfl⟩ := failsClosed_handler
              (inLoop_of_reachable hd k (by simp [head,hk])) hh hj hf
            exact loop_not_closedSend hd head he
        · simp only [Function.update_of_ne h0] at hj
          exact hI j hj hf
    | @call t a ht idle admitted =>
      intro j hj
      simp only [Function.update_of_ne ht.symm] at hj
      exact hI j hj
    | receive ht idle hr => exact hI
    | cancel | native => exact hI

/-- In a run in which no close comes between a delivery and its send, no delivery throws and
the event loop survives every close. -/
theorem closingIsLocal_of_undisturbed (h : Reachable shutdownTimeout fingerprint Undisturbed c) :
    ClosingIsLocal c where
  delivered := by
    intro t q x rest s head hq he
    have htarget : (Instr.send q x).target = some q := by
      cases q <;> first | rfl | exact (hq _ rfl).elim
    have hopen := ((deliveriesOpen_of_reachable h).pending t _ (by simp [head])).1 q htarget
    simp only [exec,execOk,execSend,hopen,Bool.false_eq_true,if_false] at he
    split_ifs at he
  loop := fun i rest x s q head => loop_not_closedSend h head
  caught := fun q hq => not_failsClosed h _ hq ⟨q,.inl rfl⟩
  shutdown := fun q hq => not_failsClosed h _ hq ⟨q,.inr rfl⟩

end Loop

/-- An executable form of the condition for the event loop and coroutine 1: a queue is closed
while neither of them is going to send into it, and a delivery that starts finds its queue open. -/
def calm (l : Label) (c : Config) : Bool :=
  (l.task?.all fun t => decide (t < 2)) &&
    match l.scheduled with
    | none => true
    | some (t,_) =>
      match c.tasks t with
      | [] => true
      | .closeQueue q :: rest => (rest ++ c.tasks (1-t)).all fun j => decide (j.target ≠ some q)
      | i :: _ => (deliveries c.shared i).all fun q => !(c.shared.queue q).closed

lemma twoTasks_of_calm (l : Label) (c c' : Config) (h : TwoTasks c) (hl : calm l c = true)
    (hs : step l c = some c') : TwoTasks c' := by
  refine h.step hs fun t ht => ?_
  simp only [calm,ht,Option.all_some,Bool.and_eq_true,decide_eq_true_eq] at hl
  exact hl.1

lemma undisturbed_of_calm (l : Label) (c : Config) (htwo : TwoTasks c) (h : calm l c = true) :
    Undisturbed l c := by
  intro t x i rest hl head
  have htask : l.task? = some t := by cases l <;> cases hl <;> rfl
  simp only [calm,htask,hl,head,Option.all_some,Bool.and_eq_true,decide_eq_true_eq] at h
  obtain ⟨ht,h⟩ := h
  split at h
  · contradiction
  · next q rest' he =>
    cases he
    refine ⟨?_,by simp [deliveries]⟩
    rintro q' ⟨⟩ u j hj
    have hall : ∀ k ∈ rest ++ c.tasks (1-t), k.target ≠ some q := by
      simpa [or_imp,forall_and] using h
    unfold Machine.Others at hj
    split_ifs at hj with hu
    · exact hall j (List.mem_append_left _ hj)
    · exact hall j (List.mem_append_right _ (htwo.mem_other ht hu hj))
  · next i' rest' hne he =>
    cases he
    refine ⟨fun q hq => (hne q hq).elim,fun q hq => ?_⟩
    simpa using List.all_eq_true.mp h q hq

/-- The event loop delivers a candidate, and then the application closes the peer. -/
def candidateDelivered : List Label :=
  peerCreated ++ [.native { kind := 1, peerHandle := 7 }] ++ steps 0 5 ++ [.call 1 (.peerClose 0)] ++
    steps 1 7 ++ [.native (completion 2 7 0)] ++ steps 0 5 ++ steps 1 14

/-- The candidate is there, the peer is closed and the runtime is not. -/
def closedAfterDelivery (c : Config) : Bool :=
  decide ((c.shared.queue (.localCandidate 0)).buffer.length = 1 ∧
    (c.shared.queue (.localCandidate 0)).closed = true ∧
    (c.shared.peer 0).closeCompletion = some .done ∧ c.shared.runtime.closed = false) &&
    (c.tasks 1).isEmpty

theorem closingIsLocal_candidateDelivered : ∃ c, Reachable 1000 "" Undisturbed c ∧
    closedAfterDelivery c = true ∧ ClosingIsLocal c := by
  have hrun : (run (fun a d => if calm a d then step a d else none) candidateDelivered
      (init 1000 "")).map closedAfterDelivery = some true := by
    rfl
  obtain ⟨c,hc,hclosed⟩ := Option.map_eq_some_iff.mp hrun
  have hr : Reachable 1000 "" Undisturbed c :=
    reaches_of_guarded twoTasks_of_calm undisturbed_of_calm (twoTasks_init 1000 "") hc
  exact ⟨c,hr,hclosed,closingIsLocal_of_undisturbed hr⟩

/-- The application closes the peer while the event loop delivers a candidate: the loop has
looked the peer up before `markClosed` closes the queue, and sends after it. -/
def closeRace : List Label :=
  peerCreated ++ [.call 1 (.peerClose 0)] ++ steps 1 7 ++
    [.native (completion 2 7 0),.native { kind := 1, peerHandle := 7 }] ++ steps 0 7 ++ steps 1 8 ++
    steps 0 2

/-- The loop is in its `catch` block with the exception of a closed queue, and its next two
steps shut the runtime down. -/
def closeKillsLoop (c : Config) : Bool :=
  match c.tasks 0 with
  | .loop (.failed (.closedSend (.localCandidate 0))) :: _ =>
    (run step (steps 0 2) c).elim false (·.shared.runtime.closed)
  | _ => false

theorem closing_is_not_local : ∃ c, Reachable 1000 "" (fun _ _ => True) c ∧
    closeKillsLoop c = true ∧ ¬ClosingIsLocal c := by
  have hrun : (run step closeRace (init 1000 "")).map closeKillsLoop = some true := by rfl
  obtain ⟨c,hc,hk⟩ := Option.map_eq_some_iff.mp hrun
  refine ⟨c,reaches_of_run hc (fun _ _ _ => trivial),hk,fun hl => ?_⟩
  unfold closeKillsLoop at hk
  split at hk
  · next rest head => exact hl.caught (.localCandidate 0) (by simp [head])
  · cases hk

end Kestara.Kotlin
