import Kestara.Kotlin.Machine

/-! What one step of the system can be, said once for all invariants. -/
namespace Kestara.Kotlin
open Interleaving

/-- What an exception leaves of the code it passes through. -/
def afterThrow (e : Exn) : List Instr → List Instr
  | [] => []
  | i :: rest =>
    match handler e i with
    | some code => code ++ rest
    | none => afterThrow e rest

theorem machine_unwind (e : Exn) (l : List Instr) (s : Shared) :
    machine.unwind e l s = (s,afterThrow e l) := by
  induction l with
  | nil => rfl
  | cons i rest ih =>
    simp only [Machine.unwind,afterThrow,machine] at *
    split <;> simp_all

/-- An exception ends the call or is caught by the first handler in its way. -/
theorem afterThrow_cases (e : Exn) (l : List Instr) :
    afterThrow e l = [] ∨ ∃ skipped i rest code, l = skipped ++ i :: rest ∧
      handler e i = some code ∧ afterThrow e l = code ++ rest := by
  induction l with
  | nil => exact .inl rfl
  | cons i rest ih =>
    simp only [afterThrow]
    split
    · next code hc => exact .inr ⟨[],i,rest,code,rfl,hc,rfl⟩
    · rcases ih with h | ⟨skipped,k,rest',code,rfl,hc,he⟩
      · exact .inl h
      · exact .inr ⟨i :: skipped,k,rest',code,rfl,hc,he⟩

theorem mem_afterThrow {e : Exn} {l : List Instr} {j : Instr} (h : j ∈ afterThrow e l) :
    j ∈ l ∨ ∃ i ∈ l, ∃ code, handler e i = some code ∧ j ∈ code := by
  rcases afterThrow_cases e l with h' | ⟨skipped,i,rest,code,rfl,hc,he⟩
  · simp [h'] at h
  · rw [he,List.mem_append] at h
    rcases h with h | h
    · exact .inr ⟨i,by simp,code,hc,h⟩
    · exact .inl (by simp [h])

theorem forall_afterThrow {P : Instr → Prop} {e : Exn} {l : List Instr} (h : ∀ j ∈ l, P j)
    (hP : ∀ i code, handler e i = some code → ∀ j ∈ code, P j) : ∀ j ∈ afterThrow e l, P j := by
  intro j hj
  obtain hj | ⟨i,-,code,hc,hj⟩ := mem_afterThrow hj
  · exact h j hj
  · exact hP i code hc j hj

/-- The first steps of the `catch` blocks. -/
lemma mem_handler {e : Exn} {i j : Instr} {code : List Instr} (h : handler e i = some code)
    (hj : j ∈ code) :
    j = .loop (.failed e) ∨
      (∃ c, j = .channel c (.markClosed false) ∨ j = .channel c (.complete (.failed e))) ∨
      (∃ p, j = .peer p (.markClosed false) ∨ j = .peer p (.complete (.failed e))) ∨
      j = .runtime (.completeShutdown (some e)) := by
  unfold handler at h
  split at h <;> cases h <;> simp only [List.mem_cons,List.not_mem_nil,or_false] at hj
  · exact .inl hj
  · exact .inr (.inl ⟨_,hj⟩)
  · exact .inr (.inr (.inl ⟨_,hj⟩))
  · exact .inr (.inr (.inr hj))

section NoFork
variable (t u : TaskId) (s s' : Shared) (code childCode : List Instr)

lemma execAwait_ne_fork (r : Option Completion) :
    execAwait r s ≠ .fork s' code u childCode := by
  unfold execAwait
  split <;> simp

lemma channel_exec_ne_fork (c : ChannelId) (i : ChannelInstr) :
    DataChannel.exec c i s ≠ .fork s' code u childCode := by
  fun_cases DataChannel.exec c i s <;> simp [execAwait_ne_fork]

lemma peer_exec_ne_fork (p : PeerId) (i : PeerInstr) :
    PeerConnection.exec p i s ≠ .fork s' code u childCode := by
  fun_cases PeerConnection.exec p i s <;> simp [execAwait_ne_fork]

lemma resume_ne_fork (r : Resume) (e : NativeEvent) :
    WebRtcRuntime.resume r e s ≠ .fork s' code u childCode := by
  fun_cases WebRtcRuntime.resume r e s <;> simp

lemma submit_exec_ne_fork (i : SubmitInstr) :
    WebRtcRuntime.execSubmit t i s ≠ .fork s' code u childCode := by
  fun_cases WebRtcRuntime.execSubmit t i s <;> simp [resume_ne_fork,WebRtcRuntime.withLock]
  split <;> simp

lemma loop_exec_ne_fork (i : LoopInstr) :
    WebRtcRuntime.execLoop i s ≠ .fork s' code u childCode := by
  fun_cases WebRtcRuntime.execLoop i s <;> simp [WebRtcRuntime.withLock] <;> split <;>
    first | simp | (split <;> simp)

lemma runtime_exec_ne_fork (i : RuntimeInstr) :
    WebRtcRuntime.execRuntime t i s ≠ .fork s' code u childCode := by
  fun_cases WebRtcRuntime.execRuntime t i s <;>
    simp [execAwait_ne_fork,WebRtcRuntime.withLock] <;> split <;> simp

/-- Kotlin code starts no coroutine of its own besides the event loop. -/
theorem exec_ne_fork (x : Choice) (i : Instr) :
    exec x t i s ≠ .fork s' code u childCode := by
  cases x with
  | ok =>
    cases i with
    | send q y => simp only [exec,execOk,execSend]; split <;> [simp; (split <;> simp)]
    | sendSuspended q y => simp only [exec,execOk,execSendSuspended]; split <;> simp
    | closeQueue q => simp [exec,execOk]
    | channel c i => exact channel_exec_ne_fork u s s' code childCode c i
    | peer p i => exact peer_exec_ne_fork u s s' code childCode p i
    | submit i => exact submit_exec_ne_fork t u s s' code childCode i
    | loop i => exact loop_exec_ne_fork u s s' code childCode i
    | runtime i => exact runtime_exec_ne_fork t u s s' code childCode i
  | fail message =>
    simp only [exec]
    fun_cases execFail message i s <;> simp [WebRtcRuntime.submissionFails]
  | cancel =>
    simp only [exec]
    fun_cases execCancel i s <;> simp

end NoFork

namespace PeerConnection

/-- What `handleNativeEvent` of a peer does with an event it accepts. -/
inductive Handled (p : PeerId) (e : NativeEvent) (s : Shared) : Shared → List Instr → Prop
  | candidate (hk : e.kind? = some .localCandidate) :
      Handled p e s s [.send (.localCandidate p) (.candidate (localCandidate e))]
  | state (v : PeerConnection → PeerConnectionState) (ice : PeerConnection → IceConnectionState)
      (gathering : PeerConnection → IceGatheringState) (signaling : PeerConnection → SignalingState) :
      Handled p e s (s.setPeer p fun peer =>
        { peer with state := v peer, iceConnectionState := ice peer
                    iceGatheringState := gathering peer, signalingState := signaling peer }) []
  | negotiation (hk : e.kind? = some .negotiationNeeded) :
      Handled p e s s [.send (.negotiationNeeded p) .unit]
  | register (hk : e.kind? = some .dataChannel) : Handled p e s s [.peer p (.registerRemote e)]
  | deliver {c} (hc : (s.peer p).channels.lookup e.channelHandle = some c) :
      Handled p e s s [.channel c (.handle e)]
  | park (hc : (s.peer p).channels.lookup e.channelHandle = none) :
      Handled p e s (s.setPeer p (·.park e)) []

theorem handled_of_handleNativeEvent {p : PeerId} {e : NativeEvent} {s s' : Shared}
    {code : List Instr} (h : handleNativeEvent p e s = .ok (s',code)) : Handled p e s s' code := by
  unfold handleNativeEvent enumValue at h
  split at h
  · next hk => cases h; exact .candidate hk
  · split at h
    · next v _ => cases h; exact .state (fun _ => v) (·.iceConnectionState) (·.iceGatheringState) (·.signalingState)
    · cases h
  · split at h
    · next v _ => cases h; exact .state (·.state) (fun _ => v) (·.iceGatheringState) (·.signalingState)
    · cases h
  · split at h
    · next v _ => cases h; exact .state (·.state) (·.iceConnectionState) (fun _ => v) (·.signalingState)
    · cases h
  · split at h
    · next v _ => cases h; exact .state (·.state) (·.iceConnectionState) (·.iceGatheringState) (fun _ => v)
    · cases h
  · next hk => cases h; exact .negotiation hk
  · next hk => cases h; exact .register hk
  · cases h
  · cases h
  · unfold routeDataChannelEvent at h
    split at h
    · next hc => cases h; exact .deliver hc
    · next hc => cases h; exact .park hc

end PeerConnection

/-- The task and the external result a label schedules. -/
def Label.scheduled : Label → Option (TaskId × Choice)
  | .run t => some (t,.ok)
  | .fail t message => some (t,.fail message)
  | .interrupt t _ => some (t,.cancel)
  | _ => none

/-- One step of a coroutine: its first instruction is replaced, or throws. -/
inductive TaskStep (x : Choice) (t : TaskId) (c : Config) : Config → Prop
  | next {i rest s code} (head : c.tasks t = i :: rest)
      (he : exec x t i c.shared = .next s code) :
      TaskStep x t c ⟨s,Function.update c.tasks t (code ++ rest)⟩
  | throw {i rest s e} (head : c.tasks t = i :: rest) (he : exec x t i c.shared = .throw s e) :
      TaskStep x t c ⟨s,Function.update c.tasks t (afterThrow e rest)⟩

theorem taskStep_of_stepTask {x : Choice} {t : TaskId} {c c' : Config}
    (h : machine.stepTask x t c = some c') : TaskStep x t c c' := by
  obtain ⟨i,rest,hi,⟨s,code,he,rfl⟩ | ⟨s,code,child,childCode,he,-⟩ | ⟨s,e,he,rfl⟩⟩ :=
    Machine.stepTask_cases h
  · exact .next hi he
  · exact (exec_ne_fork _ _ _ _ _ _ _ _ he).elim
  · simp only [machine_unwind]
    exact .throw hi he

/-- Assertions about pending instructions are kept if the code an instruction leaves behind
satisfies them and no other pending instruction loses its own. -/
theorem TaskStep.assertions {A : Shared → TaskId → Instr → Prop} {x : Choice} {t : TaskId}
    {c c' : Config} (h : TaskStep x t c c') (hA : ∀ t', ∀ j ∈ c.tasks t', A c.shared t' j)
    (hnext : ∀ i rest s code, c.tasks t = i :: rest → exec x t i c.shared = .next s code →
      (∀ j ∈ code, A s t j) ∧
        ∀ t' j, Machine.Others c t rest t' j → A c.shared t' j → A s t' j)
    (hthrow : ∀ i rest s e, c.tasks t = i :: rest → exec x t i c.shared = .throw s e →
      (∀ k ∈ rest, A c.shared t k → ∀ code, handler e k = some code → ∀ j ∈ code, A s t j) ∧
        ∀ t' j, Machine.Others c t rest t' j → A c.shared t' j → A s t' j) :
    ∀ t', ∀ j ∈ c'.tasks t', A c'.shared t' j := by
  cases h with
  | @next i rest s code head he =>
    obtain ⟨hc,ho⟩ := hnext i rest s code head he
    intro t' j hj
    by_cases ht : t' = t
    · subst t'
      simp only [Function.update_self,List.mem_append] at hj
      rcases hj with hj | hj
      · exact hc j hj
      · exact ho t j (by simpa [Machine.Others] using hj) (hA t j (by simp [head,hj]))
    · simp only [Function.update_of_ne ht] at hj
      exact ho t' j (by simpa [Machine.Others,ht] using hj) (hA t' j hj)
  | @throw i rest s e head he =>
    obtain ⟨hc,ho⟩ := hthrow i rest s e head he
    intro t' j hj
    by_cases ht : t' = t
    · subst t'
      simp only [Function.update_self] at hj
      rcases mem_afterThrow hj with hj | ⟨k,hk,code,hh,hj⟩
      · exact ho t j (by simpa [Machine.Others] using hj) (hA t j (by simp [head,hj]))
      · exact hc k hk (hA t k (by simp [head,hk])) code hh j hj
    · simp only [Function.update_of_ne ht] at hj
      exact ho t' j (by simpa [Machine.Others,ht] using hj) (hA t' j hj)

/-- Receiving removes the oldest element and touches no other part of the system. -/
theorem receive_cases {q : QueueRef} {s s' : Shared} (h : receive q s = some s') :
    ∃ x xs known, (s.queue q).buffer = x :: xs ∧
      (∀ d ∈ known, d ∈ s.knownChannels ∨ x = .channel d) ∧
      s' = { s.setQueue q (fun b => { b with buffer := xs }) with knownChannels := known } := by
  obtain ⟨⟨x,rest⟩,hx,rfl⟩ := Option.map_eq_some_iff.mp h
  unfold BoundedQueue.take at hx
  split at hx
  · cases hx
  · next y ys hb =>
    cases hx
    cases x with
    | channel d =>
      refine ⟨_,_,_,hb,?_,rfl⟩
      simp only [Shared.setQueue,List.mem_cons]
      rintro e (rfl | he)
      · exact .inr rfl
      · exact .inl he
    | description _ | candidate _ | unit | message _ | event _ =>
      exact ⟨_,_,_,hb,fun d hd => .inl hd,rfl⟩

/-- The application keeps the DataChannels it knows, and comes to know one that it takes. -/
lemma receive_known {q : QueueRef} {s s' : Shared} (h : receive q s = some s') :
    s.knownChannels ⊆ s'.knownChannels ∧
      ∀ d xs, (s.queue q).buffer = .channel d :: xs → d ∈ s'.knownChannels := by
  obtain ⟨⟨x,rest⟩,hx,rfl⟩ := Option.map_eq_some_iff.mp h
  unfold BoundedQueue.take at hx
  split at hx
  · cases hx
  · next y ys hb =>
    cases hx
    rw [hb]
    cases x <;> simp [Shared.setQueue]

/-- One step of the system. -/
inductive SystemStep (c : Config) : Label → Config → Prop
  | task {l x t c'} (hl : l.scheduled = some (t,x))
      (active : x = .cancel → t = 0 → c.shared.runtime.scopeActive = false)
      (h : TaskStep x t c c') : SystemStep c l c'
  | call {t a} (ht : t ≠ 0) (idle : c.tasks t = []) (admitted : a.admitted c.shared) :
      SystemStep c (.call t a) { c with tasks := Function.update c.tasks t (a.code c.shared) }
  | receive {t q s} (ht : t ≠ 0) (idle : c.tasks t = []) (h : receive q c.shared = some s)
      (handed : q.handed c.shared) : SystemStep c (.receive t q) { c with shared := s }
  | cancel {t} (ht : t ≠ 0) :
      SystemStep c (.cancel t) { c with shared :=
        { c.shared with cancelled := Function.update c.shared.cancelled t true } }
  | native (e : NativeEvent) :
      SystemStep c (.native e)
        { c with shared := { c.shared with native := c.shared.native ++ [e] } }

theorem step_cases {l : Label} {c c' : Config} (h : step l c = some c') : SystemStep c l c' := by
  cases l with
  | run t => exact .task rfl (by simp) (taskStep_of_stepTask h)
  | fail t message => exact .task rfl (by simp) (taskStep_of_stepTask h)
  | cancel t =>
    simp only [step] at h
    split at h
    · next ht =>
      cases h
      exact .cancel ht
    · contradiction
  | interrupt t u =>
    simp only [step] at h
    split at h
    · next hc =>
      refine .task rfl ?_ (taskStep_of_stepTask h)
      rintro - rfl
      exact hc.1
    · contradiction
  | call t a =>
    simp only [step] at h
    split at h
    · next hc =>
      cases h
      exact .call hc.1 (List.isEmpty_iff.mp hc.2.1) hc.2.2
    · contradiction
  | receive t q =>
    simp only [step] at h
    split at h
    · next hc =>
      obtain ⟨s,hs,rfl⟩ := Option.map_eq_some_iff.mp h
      exact .receive hc.1 (List.isEmpty_iff.mp hc.2.1) hs hc.2.2
    · contradiction
  | native e =>
    cases h
    exact .native e

/-- A step of one coroutine leaves the code of the others. -/
lemma TaskStep.other {x : Choice} {t u : TaskId} {c c' : Config} (h : TaskStep x t c c')
    (hu : u ≠ t) : c'.tasks u = c.tasks u := by
  cases h <;> exact Function.update_of_ne hu _ _

/-- The coroutine that a label moves. -/
def Label.task? : Label → Option TaskId
  | .run t | .fail t _ | .interrupt t _ | .call t _ => some t
  | .cancel _ | .receive _ _ | .native _ => none

lemma step_other {l : Label} {c c' : Config} {t : TaskId} (hs : step l c = some c')
    (ht : l.task? ≠ some t) : c'.tasks t = c.tasks t := by
  cases step_cases hs with
  | @task _ x u _ hl active h =>
    have hne : t ≠ u := by
      rintro rfl
      apply ht
      cases l <;> cases hl <;> rfl
    exact h.other hne
  | @call u a hu idle admitted =>
    have hne : t ≠ u := fun h => ht (h ▸ rfl)
    exact Function.update_of_ne hne _ _
  | receive | cancel | native => rfl

lemma run_other {as : List Label} {c c' : Config} {t : TaskId} (h : run step as c = some c')
    (ht : ∀ l ∈ as, l.task? ≠ some t) : c'.tasks t = c.tasks t := by
  induction as generalizing c with
  | nil =>
    cases h
    rfl
  | cons a as ih =>
    simp only [run,Option.bind_eq_some_iff] at h
    obtain ⟨d,hd,hr⟩ := h
    rw [ih hr fun l hl => ht l (by simp [hl])]
    exact step_other hd (ht a (by simp))

/-- Only the event loop and one other coroutine have code. -/
def TwoTasks (c : Config) : Prop := ∀ t : ℕ, 2 ≤ t → c.tasks t = []

lemma twoTasks_init (shutdownTimeout : ℤ) (fingerprint : String) :
    TwoTasks (init shutdownTimeout fingerprint) := by
  intro t ht
  have hne : t ≠ 0 := by omega
  exact if_neg hne

lemma TwoTasks.step {l : Label} {c c' : Config} (h : TwoTasks c) (hs : step l c = some c')
    (hl : ∀ t : ℕ, l.task? = some t → t < 2) : TwoTasks c' := by
  intro u hu
  rw [step_other hs fun ht => absurd (hl u ht) (not_lt.mpr hu)]
  exact h u hu

lemma TwoTasks.mem_other {c : Config} (h : TwoTasks c) {t u : ℕ} {j : Instr} (ht : t < 2)
    (hu : u ≠ t) (hj : j ∈ c.tasks u) : j ∈ c.tasks (1-t) := by
  obtain hlt | hge := lt_or_ge u 2
  · obtain rfl : u = 1-t := by omega
    exact hj
  · rw [h u hge] at hj
    cases hj

end Kestara.Kotlin
