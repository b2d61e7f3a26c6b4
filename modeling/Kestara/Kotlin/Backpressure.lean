import Kestara.Kotlin.Closures
import Kestara.Kotlin.QueueRoom
import Kestara.Kotlin.Resolution

/-!
# Backpressure

The event loop carries both the completions of operations and the sends into bounded queues.
When all collectors of a queue wait, for operations or for the ends of closes, and the loop
waits for room in it, nobody goes on. The loop gets there by coming to a full queue that no
collector attends, or because a coroutine comes to wait, or is cancelled, while the loop is
suspended and nobody else attends the queue.
-/
namespace Kestara.Kotlin
open Interleaving

/-- The DataChannel a queue belongs to. -/
def QueueRef.channel? : QueueRef → Option ChannelId
  | .message d | .event d => some d
  | _ => none

/-- The application can receive from `r`, and so gets to receive from `q`: it is the same queue,
or the DataChannel of `q` is in `r`. -/
def LeadsTo (s : Shared) (r q : QueueRef) : Prop :=
  r.handed s ∧ (r = q ∨ ∃ p d, r = .incomingDataChannel p ∧ q.channel? = some d ∧
    .channel d ∈ (s.queue r).buffer)

/-- The event loop is suspended in a send into the queue. -/
def Suspended (c : Config) (q : QueueRef) : Prop :=
  ∃ x rest, c.tasks 0 = .sendSuspended q x :: rest

/-- The coroutine is about to put an element into the queue. -/
def Puts (c : Config) (t : TaskId) (q : QueueRef) : Prop :=
  ∃ x rest, c.tasks t = .send q x :: rest ∨ c.tasks t = .sendSuspended q x :: rest

/-- The coroutine comes to wait, or is cancelled. -/
def Stops (l : Label) (c : Config) (t : TaskId) : Prop :=
  l = .cancel t ∨ l = .run t ∧ ∃ i rest, c.tasks t = i :: rest ∧ i.comesToWait c.shared

section Collectors
variable (collector : TaskId → Option QueueRef)

/-- The coroutine collects the queue, is not cancelled and does not wait: it receives, or is in a
call of its own that goes on. -/
def Ready (c : Config) (q : QueueRef) (t : TaskId) : Prop :=
  t ≠ 0 ∧ collector t = some q ∧ c.shared.cancelled t = false ∧ ¬Waits c t

/-- A collector of the queue is ready, and so is one that leads to the queue, neither of them
being `u`. -/
def Attended (c : Config) (q : QueueRef) (u : TaskId) : Prop :=
  (∃ t ≠ u, Ready collector c q t) ∧ ∃ r, ∃ t ≠ u, LeadsTo c.shared r q ∧ Ready collector c r t

/-- The event loop comes to a full queue only while it is attended; while the loop is suspended
there, a coroutine comes to wait or is cancelled only if others attend the queue, and another
coroutine puts an element into it only while it is attended. -/
structure Collected (l : Label) (c : Config) : Prop where
  uncancelled : ShutdownUncancelled l c
  suspends : ∀ q x rest, l = .run 0 → c.tasks 0 = .send q x :: rest → Full c.shared q →
    (c.shared.queue q).closed = false → Attended collector c q 0
  stops : ∀ t q, Stops l c t → t ≠ 0 → Suspended c q → Full c.shared q → Attended collector c q t
  puts : ∀ t q, l = .run t → t ≠ 0 → Puts c t q → Suspended c q → Attended collector c q 0

/-- The event loop, a collector, or a coroutine that is inside `lifecycleMutex` or in
`completeShutdown` can take a step. -/
def CanMove (c : Config) : Prop :=
  (step (.run 0) c).isSome = true ∨
    (∃ t q, collector t = some q ∧ ((step (.receive t q) c).isSome = true ∨
      (step (.run t) c).isSome = true)) ∨
    ∃ t, (∃ i rest, c.tasks t = i :: rest ∧ (i.locked = true ∨ ∃ j ∈ i :: rest, j.inShutdown = true)) ∧
      (step (.run t) c).isSome = true

structure DeadlockFree (c : Config) : Prop where
  /-- The completion of a pending operation that has arrived is going to be handled. -/
  moves : ∀ op e, op ∈ c.shared.runtime.operations.keys → e ∈ c.shared.native →
    e.kind? = some .operationComplete → e.operationHandle = op → CanMove collector c
  /-- While the loop waits for room, a collector that leads to the queue can receive, go on with
  its call, or go on with it once the holder of `lifecycleMutex` has left, which it can. -/
  drains : ∀ q, Suspended c q → Full c.shared q → ∃ r t, LeadsTo c.shared r q ∧
    collector t = some r ∧ ((step (.receive t r) c).isSome = true ∨
      (step (.run t) c).isSome = true ∨
      ∃ u, c.shared.runtime.lifecycleMutex = some u ∧ (step (.run u) c).isSome = true)

end Collectors

section Steps
variable {l : Label} {c c' : Config}

lemma TaskStep.room {x : Choice} {t : TaskId} (hs : TaskStep x t c c') :
    ∃ i rest, c.tasks t = i :: rest ∧ RoomEffect c.shared x i c'.shared ∧
      ∀ u ≠ t, c'.tasks u = c.tasks u := by
  cases hs with
  | @next i rest s code head he =>
    have := roomEffect_exec c.shared x i t
    rw [he] at this
    exact ⟨i,rest,head,this,fun u hu => Function.update_of_ne hu _ _⟩
  | @throw i rest s e head he =>
    have := roomEffect_exec c.shared x i t
    rw [he] at this
    exact ⟨i,rest,head,this,fun u hu => Function.update_of_ne hu _ _⟩

/-- A coroutine takes nothing out of a queue that is not conflated. -/
lemma TaskStep.buffer {x : Choice} {t : TaskId} (hs : TaskStep x t c c') {q : QueueRef} {y : Item}
    (hq : q.Allocated c.shared) (hcap : (c.shared.queue q).capacity ≠ none)
    (hy : y ∈ (c.shared.queue q).buffer) : y ∈ (c'.shared.queue q).buffer := by
  cases hs with
  | @next i rest s code head he =>
    obtain ⟨-,hsame⟩ | ⟨r,z,-,-,-,-,hput,hother⟩ := (queueEffect_exec c.shared he).contents
    · exact (hsame q hq).symm ▸ hy
    · by_cases hr : q = r
      · subst hr
        exact hput.symm ▸ BoundedQueue.mem_put_of_mem hcap hy
      · exact (hother q hr).symm ▸ hy
  | @throw i rest s e head he => exact (objects_of_throw he).queue.symm ▸ hy

lemma deferred_of_step (hs : step l c = some c') {op : ℤ}
    (h : (c.shared.deferred op).isSome = true) : (c'.shared.deferred op).isSome = true := by
  cases step_cases hs with
  | task hl active ht =>
    obtain ⟨i,rest,code,rest',-,hf,-⟩ := ht.flags
    exact hf.deferred op h
  | call | cancel | native => exact h
  | receive ht idle hr =>
    obtain ⟨y,ys,known,-,-,rfl⟩ := receive_cases hr
    exact h

/-- What has been completed stays so. -/
lemma awaits_of_step (hs : step l c = some c') {i : Instr} (hi : i.Allocated c.shared)
    (h : i.awaits c'.shared) : i.awaits c.shared := by
  have hclosures := closures_of_step hs
  have hnone : ∀ {α : Type} {a b : Option α}, (a.isSome = true → b.isSome = true) → b = none →
      a = none := by
    intro α a b hab hb
    cases a with
    | none => rfl
    | some a => simp [hb] at hab
  unfold Instr.awaits at h ⊢
  split at h
  · exact hnone (hclosures.channelCompletion _ hi) h
  · exact hnone (hclosures.peerCompletion _ hi) h
  · exact hnone hclosures.completion h
  · exact hnone (deferred_of_step hs) h
  · exact h

/-- The application keeps what it has been handed. -/
lemma known_of_step (hs : step l c = some c') : c.shared.knownPeers ⊆ c'.shared.knownPeers ∧
    c.shared.knownChannels ⊆ c'.shared.knownChannels := by
  cases step_cases hs with
  | task hl active ht =>
    obtain ⟨i,rest,-,hroom,-⟩ := ht.room
    exact ⟨hroom.kept.knownPeers,hroom.kept.knownChannels⟩
  | call | cancel | native => exact ⟨.refl _,.refl _⟩
  | receive ht idle hr =>
    obtain ⟨y,ys,known,-,-,rfl⟩ := receive_cases hr
    exact ⟨.refl _,(receive_known hr).1⟩

lemma handed_of_step (hs : step l c = some c') {q : QueueRef} (h : q.handed c.shared) :
    q.handed c'.shared := by
  obtain ⟨hp,hd⟩ := known_of_step hs
  cases q with
  | message d | event d => exact hd h
  | localDescription p | localCandidate p | incomingDataChannel p | negotiationNeeded p =>
    exact hp h

/-- A DataChannel that waits to be received is still there, or has been handed to the
application. -/
lemma incoming_of_step (hc : Constructed c) (hroomy : Roomy c.shared) (hs : step l c = some c')
    {p : PeerId} {d : ChannelId} (hp : p ∈ c.shared.knownPeers)
    (h : .channel d ∈ (c.shared.queue (.incomingDataChannel p)).buffer) :
    .channel d ∈ (c'.shared.queue (.incomingDataChannel p)).buffer ∨
      d ∈ c'.shared.knownChannels := by
  cases step_cases hs with
  | task hl active ht =>
    refine .inl (ht.buffer (hc.heap.knownPeers p hp) (fun hcap => ?_) h)
    obtain ⟨_,hq⟩ := (hroomy _).2 hcap
    cases hq
  | call | cancel | native => exact .inl h
  | @receive t q s ht idle hr =>
    have hknown := receive_known hr
    obtain ⟨y,ys,known,hb,-,rfl⟩ := receive_cases hr
    by_cases hq : .incomingDataChannel p = q
    · subst hq
      rw [hb] at h
      obtain rfl | h := List.mem_cons.mp h
      · exact .inr (hknown.2 d ys hb)
      · exact .inl (by simpa [Shared.setQueue] using h)
    · exact .inl (by simpa [Shared.setQueue,hq] using h)

/-- What leads to a queue still does so, or the application has been handed the queue. -/
lemma LeadsTo.step (hc : Constructed c) (hroomy : Roomy c.shared) (hs : step l c = some c')
    {r q : QueueRef} (h : LeadsTo c.shared r q) :
    LeadsTo c'.shared r q ∨ LeadsTo c'.shared q q := by
  obtain ⟨hr,rfl | ⟨p,d,rfl,hq,hd⟩⟩ := h
  · exact .inl ⟨handed_of_step hs hr,.inl rfl⟩
  · obtain hd | hd := incoming_of_step hc hroomy hs hr hd
    · exact .inl ⟨handed_of_step hs hr,.inr ⟨p,d,rfl,hq,hd⟩⟩
    · refine .inr ⟨?_,.inl rfl⟩
      cases q <;> cases hq <;> exact hd

variable {collector : TaskId → Option QueueRef}

/-- A collector that does not come to wait and is not cancelled stays ready. -/
lemma Ready.step (hc : Constructed c) (hchain : ∀ u, Chained (c.tasks u))
    (hs : step l c = some c') {q : QueueRef} {t : TaskId} (hstop : ¬Stops l c t)
    (h : Ready collector c q t) : Ready collector c' q t := by
  obtain ⟨ht,hcol,hactive,hgo⟩ := h
  have hsame : c'.tasks t = c.tasks t → ¬Waits c' t := by
    rintro htasks ⟨i,rest,head,hw⟩
    rw [htasks] at head
    exact hgo ⟨i,rest,head,hw.imp_left (awaits_of_step hs (hc.code t i (by simp [head])))⟩
  cases step_cases hs with
  | @task _ x u _ hl active hu =>
    obtain ⟨i,rest,-,hroom,hother⟩ := hu.room
    refine ⟨ht,hcol,by rw [hroom.kept.cancelled]; exact hactive,?_⟩
    by_cases hut : t = u
    · subst hut
      intro hw
      obtain ⟨rfl,i,rest,head,hi⟩ := (hu.chained hchain).2 hw
      have hlabel : l = .run t := by cases l <;> simp [Label.scheduled] at hl; rw [hl]
      exact hstop (.inr ⟨hlabel,i,rest,head,hi⟩)
    · exact hsame (hother t hut)
  | @call u a hu idle admitted =>
    refine ⟨ht,hcol,hactive,?_⟩
    by_cases hut : t = u
    · subst hut
      rintro ⟨i,rest,head,hw⟩
      simp only [Function.update_self] at head
      have := (chained_api c.shared a).2 i (by simp [head])
      rw [waiting_of_waits hw] at this
      cases this
    · exact hsame (Function.update_of_ne hut _ _)
  | @cancel u hu =>
    have hut : t ≠ u := by
      rintro rfl
      exact hstop (.inl rfl)
    exact ⟨ht,hcol,by simpa [Function.update_of_ne hut] using hactive,hsame rfl⟩
  | receive hu idle hr =>
    obtain ⟨y,ys,known,-,-,rfl⟩ := receive_cases hr
    exact ⟨ht,hcol,hactive,hsame rfl⟩
  | native e => exact ⟨ht,hcol,hactive,hsame rfl⟩

/-- A queue stays attended if no other of its collectors stops. -/
lemma Attended.step (hc : Constructed c) (hchain : ∀ u, Chained (c.tasks u))
    (hroomy : Roomy c.shared) (hs : step l c = some c') {q : QueueRef} {u : TaskId}
    (hstop : ∀ t ≠ u, t ≠ 0 → ¬Stops l c t) (h : Attended collector c q u) :
    Attended collector c' q 0 := by
  obtain ⟨⟨t,ht,hready⟩,r,v,hv,hleads,hready'⟩ := h
  have hkeep : ∀ {r t}, t ≠ u → Ready collector c r t → Ready collector c' r t :=
    fun ht hr => hr.step hc hchain hs (hstop _ ht hr.1)
  refine ⟨⟨t,hready.1,hkeep ht hready⟩,?_⟩
  obtain hleads | hleads := hleads.step hc hroomy hs
  · exact ⟨r,v,hready'.1,hleads,hkeep hv hready'⟩
  · exact ⟨q,t,hready.1,hleads,hkeep ht hready⟩

/-- The loop comes to be suspended only by a send into a full queue. -/
lemma suspends_of_loop {x : Choice} {q : QueueRef} (hchain : ∀ u, Chained (c.tasks u))
    (hs : TaskStep x 0 c c') (h : Suspended c' q) :
    ∃ y rest, x = .ok ∧ c.tasks 0 = .send q y :: rest ∧ Full c.shared q ∧
      (c.shared.queue q).closed = false := by
  obtain ⟨y,r,hr⟩ := h
  cases hs with
  | @next i rest s code head he =>
    simp only [Function.update_self] at hr
    cases code with
    | nil =>
      obtain rfl : rest = .sendSuspended q y :: r := hr
      have hfirst : Precedes i (.sendSuspended q y) :=
        (List.isChain_cons_cons.mp (head ▸ hchain 0)).1
      have := hfirst rfl
      unfold Instr.awaited at this
      split at this <;> cases this
    | cons k code =>
      cases hr
      obtain ⟨rfl,rfl,-,hf,hopen⟩ := exec_suspends he List.mem_cons_self
      exact ⟨y,rest,rfl,head,hf,hopen⟩
  | @throw i rest s e head he =>
    simp only [Function.update_self] at hr
    have := (Chained.afterThrow e (List.isChain_cons.mp (head ▸ hchain 0)).2).2 (.sendSuspended q y)
    simp [hr,Instr.waiting] at this

end Steps

section Pressure
variable {collector : TaskId → Option QueueRef}

/-- The queues have room, and the one that the loop is suspended on is attended. -/
structure Pressure (collector : TaskId → Option QueueRef) (c : Config) : Prop where
  roomy : Roomy c.shared
  attended : ∀ q, Suspended c q → Full c.shared q → Attended collector c q 0

section Step
variable {l : Label} {c c' : Config} (hc : Constructed c) (hchain : ∀ u, Chained (c.tasks u))
  (h : Pressure collector c) (hok : Collected collector l c) (hs : step l c = some c')
include hc hchain h hok hs

/-- While the loop is suspended the queue stays attended, whoever stops. -/
lemma Pressure.keeps {q : QueueRef} (hq : Suspended c q) (hf : Full c.shared q) :
    Attended collector c' q 0 := by
  by_cases hstop : ∃ t, Stops l c t ∧ t ≠ 0
  · obtain ⟨t,hstop,ht⟩ := hstop
    refine (hok.stops t q hstop ht hq hf).step hc hchain h.roomy hs ?_
    rintro u hu - hu'
    obtain rfl | ⟨rfl,-⟩ := hstop <;> obtain he | ⟨he,-⟩ := hu' <;> cases he <;> exact hu rfl
  · refine (h.attended q hq hf).step hc hchain h.roomy hs ?_
    exact fun t _ ht hstop' => hstop ⟨t,hstop',ht⟩

lemma Pressure.task {x : Choice} {t : TaskId} (hl : l.scheduled = some (t,x))
    (ht : TaskStep x t c c') : Pressure collector c' := by
  obtain ⟨i,rest,head,hroom,hother⟩ := ht.room
  have hlabel : x = .ok → l = .run t := by
    rintro rfl
    cases l <;> simp [Label.scheduled] at hl
    rw [hl]
  refine ⟨hroom.roomy h.roomy,fun q hq hfull => ?_⟩
  by_cases h0 : t = 0
  · subst h0
    obtain ⟨y,r,hx,hsend,hf,hopen⟩ := suspends_of_loop hchain ht hq
    obtain rfl := hlabel hx
    refine (hok.suspends q y r rfl hsend hf hopen).step hc hchain h.roomy hs ?_
    rintro u hu - (he | ⟨he,-⟩) <;> cases he
    exact hu rfl
  · have hq' : Suspended c q := by
      obtain ⟨y,r,hr⟩ := hq
      exact ⟨y,r,(hother 0 (fun h => h0 h.symm)).symm.trans hr⟩
    by_cases hf : Full c.shared q
    · exact h.keeps hc hchain hok hs hq' hf
    · obtain hf' | ⟨hx,y,hi⟩ := hroom.room q hfull
      · exact absurd hf' hf
      · obtain rfl := hlabel hx
        have hputs : Puts c t q := ⟨y,rest,by obtain rfl | rfl := hi <;> simp [head]⟩
        refine (hok.puts t q rfl h0 hputs hq').step hc hchain h.roomy hs ?_
        rintro u - - (he | ⟨he,k,r,hk,hstop⟩) <;> cases he
        cases head.symm.trans hk
        obtain rfl | rfl := hi
        · exact hf hstop.1
        · exact hstop

lemma Pressure.step : Pressure collector c' := by
  cases step_cases hs with
  | task hl active ht => exact h.task hc hchain hok hs hl ht
  | @call t a ht idle admitted =>
    refine ⟨h.roomy,fun q hq hf => h.keeps hc hchain hok hs ?_ hf⟩
    obtain ⟨y,r,hr⟩ := hq
    exact ⟨y,r,(Function.update_of_ne ht.symm _ _).symm.trans hr⟩
  | @receive t q s ht idle hr =>
    have hkeeps := fun q => h.keeps hc hchain hok hs (q := q)
    obtain ⟨y,ys,known,hb,-,rfl⟩ := receive_cases hr
    refine ⟨fun r => ?_,fun r hr' hf => hkeeps r hr' ?_⟩
    · have hcap : ((c.shared.setQueue q fun b => { b with buffer := ys }).queue r).capacity =
          (c.shared.queue r).capacity := by
        simp only [Shared.setQueue,Function.update_apply]
        split_ifs with he
        · rw [he]
        · rfl
      exact hcap ▸ h.roomy r
    · simp only [Full,Shared.setQueue,Function.update_apply] at hf ⊢
      split_ifs at hf with he
      · subst he
        rw [Bool.eq_false_iff]
        intro hroom
        rw [BoundedQueue.hasRoom_of_tail hb hroom] at hf
        cases hf
      · exact hf
  | cancel | native => exact ⟨h.roomy,fun q hq hf => h.keeps hc hchain hok hs hq hf⟩

end Step

theorem pressure_of_reachable {shutdownTimeout : ℤ} {fingerprint : String} {c : Config}
    (h : Reachable shutdownTimeout fingerprint (Collected collector) c) : Pressure collector c := by
  refine h.induct ⟨fun q => ⟨?_,?_⟩,?_⟩ ?_
  · intro n hn
    cases hn
    decide
  · intro hn
    cases hn
  · rintro q ⟨y,r,hr⟩
    simp [init] at hr
  · exact fun l d d' hr hd hok hs =>
      hd.step (constructed_of_reachable hr) (chained_of_reachable hr) hok hs

end Pressure

section Theorem
variable {collector : TaskId → Option QueueRef} {c : Config}

/-- The holder of the mutex can go on. -/
lemma canMove_of_held (hlock : Locking c) (h : c.shared.runtime.lifecycleMutex ≠ none) :
    CanMove collector c := by
  obtain ⟨t,ht⟩ := Option.ne_none_iff_exists'.mp h
  obtain ⟨i,rest,head,hi⟩ := hlock.held t ht
  exact .inr (.inr ⟨t,⟨i,rest,head,.inl hi⟩,run_isSome head (locked_runs hi c.shared)⟩)

/-- The coroutine that is going to drain the operations can go on. -/
lemma canMove_of_drain (hlock : Locking c) (hlife : Lifecycle c) {t : TaskId} {f : Option Exn}
    (h : .runtime (.drain f) ∈ c.tasks t) : CanMove collector c := by
  cases hcode : c.tasks t with
  | nil => rw [hcode] at h; cases h
  | cons i rest =>
    rw [hcode] at h
    have hq : i.quiet = true := by
      have hpair := hlife.shielded t
      rw [hcode,List.pairwise_cons] at hpair
      rcases List.mem_cons.mp h with rfl | h
      · rfl
      · exact hpair.1 _ h rfl
    by_cases hb : exec .ok t i c.shared = .blocked
    · have hw := waitsFor_exec t i c.shared
      rw [hb] at hw
      rcases hw with ⟨q,y,rfl,-⟩ | hm | ha
      · cases hq
      · exact canMove_of_held hlock hm
      · unfold Instr.awaits at ha
        split at ha <;> first | cases hq | cases ha
    · exact .inr (.inr ⟨t,⟨i,rest,hcode,.inr ⟨_,h,rfl⟩⟩,run_isSome hcode hb⟩)

/-- A ready collector can receive, go on with its call, or wait for the holder of the mutex. -/
lemma goes_of_ready (hlock : Locking c) {r : QueueRef} {t : TaskId} (hr : r.handed c.shared)
    (htake : (c.shared.queue r).take.isSome = true) (h : Ready collector c r t) :
    (step (.receive t r) c).isSome = true ∨ (step (.run t) c).isSome = true ∨
      ∃ u, c.shared.runtime.lifecycleMutex = some u ∧ (step (.run u) c).isSome = true := by
  obtain ⟨ht,-,-,hgo⟩ := h
  cases hcode : c.tasks t with
  | nil => exact .inl (by simpa [step,ht,hcode,hr,receive] using htake)
  | cons i rest =>
    by_cases hb : exec .ok t i c.shared = .blocked
    · have hw := waitsFor_exec t i c.shared
      rw [hb] at hw
      obtain ⟨q,y,rfl,-⟩ | hm | ha := hw
      · exact absurd ⟨_,rest,hcode,.inr rfl⟩ hgo
      · obtain ⟨u,hu⟩ := Option.ne_none_iff_exists'.mp hm
        obtain ⟨k,rest',head,hk⟩ := hlock.held u hu
        exact .inr (.inr ⟨u,hu,run_isSome head (locked_runs hk c.shared)⟩)
      · exact absurd ⟨_,rest,hcode,.inl ha⟩ hgo
    · exact .inr (.inl (run_isSome hcode hb))

lemma drains_of_pressure (hlock : Locking c) (h : Pressure collector c) {q : QueueRef}
    (hq : Suspended c q) (hf : Full c.shared q) : ∃ r t, LeadsTo c.shared r q ∧
      collector t = some r ∧ ((step (.receive t r) c).isSome = true ∨
        (step (.run t) c).isSome = true ∨
        ∃ u, c.shared.runtime.lifecycleMutex = some u ∧ (step (.run u) c).isSome = true) := by
  obtain ⟨-,r,t,-,hleads,hready⟩ := h.attended q hq hf
  have htake : (c.shared.queue r).take.isSome = true := by
    obtain ⟨-,rfl | ⟨p,d,-,-,hd⟩⟩ := hleads
    · exact BoundedQueue.take_isSome_of_full (h.roomy r).1 hf
    · obtain ⟨x,xs,hb⟩ := List.exists_cons_of_ne_nil (List.ne_nil_of_mem hd)
      simp [BoundedQueue.take,hb]
  exact ⟨r,t,hleads,hready.2.1,goes_of_ready hlock hleads.1 htake hready⟩

lemma canMove_of_suspended (hlock : Locking c) (h : Pressure collector c) {q : QueueRef}
    (hq : Suspended c q) (hf : Full c.shared q) : CanMove collector c := by
  obtain ⟨r,t,-,hcol,hgo | hgo | ⟨u,hu,-⟩⟩ := drains_of_pressure hlock h hq hf
  · exact .inr (.inl ⟨t,r,hcol,.inl hgo⟩)
  · exact .inr (.inl ⟨t,r,hcol,.inr hgo⟩)
  · exact canMove_of_held hlock (by simp [hu])

/-- In a run in which a queue on which the loop is suspended stays attended, nobody waits for
ever. -/
theorem deadlockFree_of_collected {shutdownTimeout : ℤ} {fingerprint : String}
    (h : Reachable shutdownTimeout fingerprint (Collected collector) c) :
    DeadlockFree collector c := by
  have hpress := pressure_of_reachable h
  have hweak : Reachable shutdownTimeout fingerprint ShutdownUncancelled c :=
    h.weaken fun _ _ hok => hok.uncancelled
  have hlife := lifecycle_of_reachable hweak
  have hlock := locking_of_reachable h
  refine ⟨?_,fun q => drains_of_pressure hlock hpress⟩
  intro op e hop _ _ _
  cases hcode : c.tasks 0 with
  | nil =>
    have hclosed : c.shared.runtime.closed = true := by
      rw [← Bool.not_eq_false]
      intro hc
      have hgo := hlife.going hc
      rw [hcode] at hgo
      obtain ⟨pre,hpre⟩ | ⟨x,r,hpre⟩ | ⟨f,r,hpre⟩ := hgo
      · simp at hpre
      · cases hpre
      · cases hpre
    rcases hlife.drain hclosed with hd | ⟨t,f,hd⟩
    · rw [(hlife.drained hd).2.1] at hop
      cases hop
    · exact canMove_of_drain hlock hlife hd
  | cons i rest =>
    by_cases hb : exec .ok 0 i c.shared = .blocked
    · have hw := waitsFor_exec 0 i c.shared
      rw [hb] at hw
      rcases hw with ⟨q,y,rfl,hf⟩ | hm | ha
      · exact canMove_of_suspended hlock hpress ⟨y,rest,hcode⟩ hf
      · exact canMove_of_held hlock hm
      · have hi := inLoop_of_reachable h i (by simp [hcode])
        unfold Instr.awaits at ha
        split at ha <;> first | cases hi | cases ha
    · exact .inl (run_isSome hcode hb)

end Theorem

/-- Coroutine 1 is the only collector, of the messages of the first channel. -/
def onlyCollector (t : TaskId) : Option QueueRef := if t = 1 then some (.message 0) else none

/-- An executable form of the condition for it: nothing is cancelled, it holds the channel and is
in no call when the loop meets a full queue, and no other coroutine goes on while the loop is
suspended. -/
def collected (l : Label) (c : Config) : Bool :=
  match l with
  | .cancel _ | .interrupt _ _ => false
  | .run t =>
    match c.tasks 0 with
    | .sendSuspended _ _ :: _ => decide (t = 0)
    | .send q _ :: _ => decide (t ≠ 0) || (c.shared.queue q).hasRoom ||
      decide (q = .message 0 ∧ 0 ∈ c.shared.knownChannels ∧ c.shared.cancelled 1 = false) &&
        (c.tasks 1).isEmpty
    | _ => true
  | _ => true

lemma collected_of_check (l : Label) (c : Config) (h : collected l c = true) :
    Collected onlyCollector l c where
  uncancelled := by
    rintro t u rfl
    cases h
  suspends := by
    rintro q x rest rfl head hf _
    simp only [collected,head] at h
    unfold Full at hf
    simp only [hf,ne_eq,not_true,decide_false,Bool.false_or,Bool.and_eq_true,
      decide_eq_true_eq] at h
    obtain ⟨⟨rfl,hknown,hactive⟩,hidle⟩ := h
    have hready : Ready onlyCollector c (.message 0) 1 := by
      refine ⟨by decide,rfl,hactive,?_⟩
      rintro ⟨i,r,hi,-⟩
      rw [List.isEmpty_iff.mp hidle] at hi
      cases hi
    exact ⟨⟨1,by decide,hready⟩,.message 0,1,by decide,⟨hknown,.inl rfl⟩,hready⟩
  stops := by
    rintro t q (rfl | ⟨rfl,-⟩) ht ⟨x,rest,hs⟩
    · cases h
    · simp [collected,hs,ht] at h
  puts := by
    rintro t q rfl ht - ⟨x,rest,hs⟩
    simp [collected,hs,ht] at h

/-- The collector receives a message, awaits an operation and gets it; two messages follow, and
the loop suspends on the second one. -/
def alternatingCollector : List Label :=
  channelCreated ++ [.native (textMessage "1")] ++ steps 0 8 ++
    [.receive 1 (.message 0),.call 1 (.peerRequest 0 .restartIce)] ++ steps 1 7 ++
    [.native (completion 3 7 0)] ++ steps 0 4 ++ steps 1 1 ++
    [.native (textMessage "2"),.native (textMessage "3")] ++ steps 0 14

/-- The loop is suspended on a full queue whose collector is in no call. -/
def waitsForIdle (c : Config) : Bool :=
  match c.tasks 0 with
  | .sendSuspended (.message 0) _ :: _ => (c.tasks 1).isEmpty
  | _ => false

theorem deadlockFree_waitsForIdle : ∃ c, Reachable 1000 "" (Collected onlyCollector) c ∧
    waitsForIdle c = true ∧ DeadlockFree onlyCollector c := by
  have hrun : (run (fun a d => if collected a d then step a d else none) alternatingCollector
      (init 1000 "")).map waitsForIdle = some true := by
    rfl
  obtain ⟨c,hc,hw⟩ := Option.map_eq_some_iff.mp hrun
  have hr : Reachable 1000 "" (Collected onlyCollector) c := reaches_of_checked collected_of_check hc
  exact ⟨c,hr,hw,deadlockFree_of_collected hr⟩

/-- The collector has received a message and awaits `getStats`; the next message fills the
queue, the loop suspends on the one after it, and the completion is behind that one. -/
def awaitingCollector : List Label :=
  channelCreated ++ [.native (textMessage "1")] ++ steps 0 8 ++
    [.receive 1 (.message 0),.call 1 (.getStats 0)] ++ steps 1 7 ++
    [.native (textMessage "2"),.native (textMessage "3"),.native (completion 3 7 0)] ++ steps 0 14

def stuck (c : Config) : Bool :=
  decide (c.shared.runtime.lifecycleMutex = none ∧ c.shared.runtime.closed = false ∧
    3 ∈ c.shared.runtime.operations.keys ∧ completion 3 7 0 ∈ c.shared.native) &&
    (step (.run 0) c).isNone && (step (.run 1) c).isNone && !(c.tasks 1).isEmpty

theorem awaitingCollector_deadlocks : ∃ c, Reachable 1000 "" (fun _ _ => True) c ∧
    3 ∈ c.shared.runtime.operations.keys ∧ completion 3 7 0 ∈ c.shared.native ∧
      ¬CanMove onlyCollector c ∧ ¬DeadlockFree onlyCollector c := by
  have hrun : (run (fun a d => if uncancelled a d then step a d else none) awaitingCollector
      (init 1000 "")).map stuck = some true := by
    rfl
  obtain ⟨c,hc,hst⟩ := Option.map_eq_some_iff.mp hrun
  have hr : Reachable 1000 "" ShutdownUncancelled c :=
    reaches_of_checked shutdownUncancelled_of_check hc
  simp only [stuck,Bool.and_eq_true,decide_eq_true_eq,Option.isNone_iff_eq_none,
    Bool.not_eq_true',List.isEmpty_eq_false_iff] at hst
  obtain ⟨⟨⟨⟨hm,hcl,hop,hev⟩,hrun0⟩,hrun1⟩,hbusy⟩ := hst
  have hno : ¬CanMove onlyCollector c := by
    rintro (h | ⟨t,q,hcol,h | h⟩ | ⟨t,⟨i,rest,head,hi | ⟨j,hj,hjs⟩⟩,-⟩)
    · simp [hrun0] at h
    · have ht : t = 1 := by
        by_contra hne
        simp [onlyCollector,hne] at hcol
      subst ht
      simp [step,hbusy] at h
    · have ht : t = 1 := by
        by_contra hne
        simp [onlyCollector,hne] at hcol
      subst ht
      simp [hrun1] at h
    · rw [(locking_of_reachable hr).holder t i rest head hi] at hm
      cases hm
    · rw [(lifecycle_of_reachable hr).pending t j (head ▸ hj) hjs] at hcl
      cases hcl
  exact ⟨c,hr.weaken fun _ _ _ => trivial,hop,hev,hno,
    fun hfree => hno (hfree.moves 3 _ hop hev rfl rfl)⟩

end Kestara.Kotlin
