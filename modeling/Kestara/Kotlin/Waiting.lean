import Kestara.Kotlin.Locking

/-!
# What a coroutine can wait for

A coroutine that cannot take its next step waits for room in a queue, for `lifecycleMutex`, or
for a completion; the holder of the mutex never waits. A coroutine comes to wait for a completion
or for room by a few instructions only, and code waits for neither of them unseen behind others.
-/
namespace Kestara.Kotlin
open Interleaving

def Full (s : Shared) (q : QueueRef) : Prop := (s.queue q).hasRoom = false

/-- The instruction waits for a completion that is not there yet. -/
def Instr.awaits (s : Shared) : Instr → Prop
  | .channel d .awaitClosed => (s.channel d).closeCompletion = none
  | .peer p .awaitClosed => (s.peer p).closeCompletion = none
  | .runtime .awaitClosed => s.runtime.closeCompletion = none
  | .submit (.await op _) => s.deferred op = none
  | _ => False

/-- What a coroutine can wait for: room in a queue, the mutex, or a completion. -/
def WaitsFor (s : Shared) (i : Instr) : Outcome → Prop
  | .blocked => (∃ q y, i = .sendSuspended q y ∧ Full s q) ∨ s.runtime.lifecycleMutex ≠ none ∨
    i.awaits s
  | _ => True

lemma waitsFor_execAwait {s : Shared} {i : Instr} {r : Option Completion}
    (h : r = none → i.awaits s) : WaitsFor s i (execAwait r s) := by
  unfold execAwait
  split
  · exact .inr (.inr (h rfl))
  all_goals trivial

lemma waitsFor_exec (t : TaskId) (i : Instr) (s : Shared) : WaitsFor s i (exec .ok t i s) := by
  simp only [exec]
  cases i with
  | send q y =>
    simp only [execOk,execSend]
    split_ifs <;> trivial
  | sendSuspended q y =>
    simp only [execOk,execSendSuspended]
    split_ifs with hr
    · trivial
    · exact .inl ⟨q,y,rfl,by simpa [Full] using hr⟩
  | closeQueue q => trivial
  | channel c k =>
    simp only [execOk]
    fun_cases DataChannel.exec c k s
    case case7 => exact waitsFor_execAwait id
    all_goals trivial
  | peer p k =>
    simp only [execOk]
    fun_cases PeerConnection.exec p k s
    case case8 => exact waitsFor_execAwait id
    all_goals trivial
  | submit k =>
    simp only [execOk]
    fun_cases WebRtcRuntime.execSubmit t k s
    case case3 => exact WebRtcRuntime.withLock_cases (fun hm => .inr (.inl hm)) fun _ => trivial
    case case10 hd => exact .inr (.inr hd)
    case case11 r e _ => fun_cases WebRtcRuntime.resume r e s <;> trivial
    all_goals trivial
  | loop k =>
    simp only [execOk]
    fun_cases WebRtcRuntime.execLoop k s
    case case5 | case6 =>
      refine WebRtcRuntime.withLock_cases (fun hm => .inr (.inl hm)) fun _ => ?_
      split <;> trivial
    all_goals trivial
  | runtime k =>
    simp only [execOk]
    fun_cases WebRtcRuntime.execRuntime t k s
    case case2 | case7 | case15 | case21 =>
      exact WebRtcRuntime.withLock_cases (fun hm => .inr (.inl hm)) fun _ => trivial
    case case11 => exact waitsFor_execAwait id
    all_goals trivial

lemma run_isSome {c : Config} {t : TaskId} {i : Instr} {rest : List Instr}
    (head : c.tasks t = i :: rest) (h : exec .ok t i c.shared ≠ .blocked) :
    (step (.run t) c).isSome = true :=
  machine.stepTask_isSome (x := .ok) head h

lemma locked_runs {t : TaskId} {i : Instr} (h : i.locked = true) (s : Shared) :
    exec .ok t i s ≠ .blocked := by
  unfold Instr.locked at h
  split at h
  case h_1 | h_2 | h_5 =>
    simp only [exec,execOk,WebRtcRuntime.execSubmit,WebRtcRuntime.execRuntime]
    split_ifs <;> simp
  case h_3 | h_4 | h_6 =>
    simp [exec,execOk,WebRtcRuntime.execSubmit,WebRtcRuntime.execRuntime]
  case h_7 => cases h

def Instr.isSuspended : Instr → Bool
  | .sendSuspended _ _ => true
  | _ => false

/-- The instruction waits for a completion, or for room since it was first tried. -/
def Instr.waits (s : Shared) (i : Instr) : Prop := i.awaits s ∨ i.isSuspended = true

/-- The coroutine waits for an operation or for the end of a close, or is suspended in a send. -/
def Waits (c : Config) (t : TaskId) : Prop := ∃ i rest, c.tasks t = i :: rest ∧ i.waits c.shared

/-- The instruction leaves its coroutine waiting: for the operation that it submits, for a close
that goes on, or for room. -/
def Instr.comesToWait (s : Shared) : Instr → Prop
  | .submit (.call _ _) => True
  | .channel d .close => (s.channel d).closing = true ∧ (s.channel d).closeCompletion = none
  | .channel d .catchClose => (s.channel d).closeCompletion = none
  | .peer p .close => (s.peer p).closing = true ∧ (s.peer p).closeCompletion = none
  | .peer p .catchClose => (s.peer p).closeCompletion = none
  | .runtime .close => s.runtime.closing = true ∧ s.runtime.closeCompletion = none
  | .runtime .catchClose => s.runtime.closeCompletion = none
  | .runtime (.completeShutdown _) => s.runtime.closed = true ∧ s.runtime.closeCompletion = none
  | .send q _ => Full s q ∧ (s.queue q).closed = false
  | _ => False

/-- The instructions that can wait. -/
def Instr.waiting : Instr → Bool
  | .channel _ .awaitClosed | .peer _ .awaitClosed | .runtime .awaitClosed
  | .submit (.await _ _) | .sendSuspended _ _ => true
  | _ => false

lemma waiting_of_waits {s : Shared} {i : Instr} (h : i.waits s) : i.waiting = true := by
  obtain h | h := h
  · unfold Instr.awaits at h
    split at h <;> first | rfl | cases h
  · unfold Instr.isSuspended at h
    split at h <;> first | rfl | cases h

/-- The instruction that waits, if one does, directly after the instruction. -/
def Instr.awaited : Instr → Option Instr
  | .channel d .catchClose | .channel d (.complete _) => some (.channel d .awaitClosed)
  | .peer p .catchClose | .peer p (.complete _) => some (.peer p .awaitClosed)
  | .runtime .catchClose | .runtime (.completeShutdown _) | .runtime (.drain _)
  | .runtime (.release _) | .runtime (.complete _) => some (.runtime .awaitClosed)
  | _ => none

def Precedes (i j : Instr) : Prop := j.waiting = true → i.awaited = some j

/-- Code in which nothing waits but the ends of closes. -/
abbrev Chained (code : List Instr) : Prop := code.IsChain Precedes

lemma chained_of_forall {code : List Instr} (h : ∀ j ∈ code.tail, j.waiting = false) :
    Chained code := by
  induction code with
  | nil => exact .nil
  | cons i code ih =>
    refine List.isChain_cons.mpr ⟨fun j hj hw => ?_,ih fun j hj => h j (List.mem_of_mem_tail hj)⟩
    rw [h j (List.mem_of_mem_head? hj)] at hw
    cases hw

/-- A waiting instruction is left at the head only, except by the first call of `close`. -/
lemma waiting_leaves {i j : Instr} (h : i.leaves j) (hj : j.waiting = true) :
    (∃ op b, i = .submit (.call op b)) ∨ (∃ q y, i = .send q y) ∨ (∃ d, i = .channel d .close) ∨
      (∃ p, i = .peer p .close) ∨ i = .runtime .close := by
  unfold Instr.waiting at hj
  split at hj
  · exact .inr (.inr (.inl ⟨_,origin_of_leaves h⟩))
  · exact .inr (.inr (.inr (.inl ⟨_,origin_of_leaves h⟩)))
  · exact .inr (.inr (.inr (.inr (origin_of_leaves h))))
  · obtain ⟨b,hb⟩ := origin_of_leaves h
    exact .inl ⟨_,b,hb⟩
  · exact .inr (.inl ⟨_,_,origin_of_leaves h⟩)
  · cases hj

/-- Only a send into a full queue leaves a suspended send. -/
lemma exec_suspends {x : Choice} {t : TaskId} {i : Instr} {s s' : Shared} {code : List Instr}
    {q : QueueRef} {y : Item} (he : exec x t i s = .next s' code)
    (hj : .sendSuspended q y ∈ code) :
    x = .ok ∧ i = .send q y ∧ code = [.sendSuspended q y] ∧ Full s q ∧
      (s.queue q).closed = false := by
  have hleaves := leaves_exec s x t i
  rw [he] at hleaves
  obtain rfl := origin_of_leaves (hleaves _ hj)
  cases x with
  | ok =>
    simp only [exec,execOk,execSend] at he
    split_ifs at he with hc hr
    · cases he
      cases hj
    · cases he
      exact ⟨rfl,rfl,rfl,by simpa [Full] using hr,by simpa using hc⟩
  | fail m => cases he
  | cancel => cases he

section Chained
variable {x : Choice} {t : TaskId} {i : Instr} {s s' : Shared} {code : List Instr}

/-- The instruction comes to wait if it leaves a waiting instruction first, which is all that it
leaves; only the first call of `close` leaves one at the end. -/
lemma exec_waiting (he : exec x t i s = .next s' code) :
    Chained code ∧ ∀ j ∈ code.head?, j.waits s' → x = .ok ∧ i.comesToWait s := by
  have hleaves := leaves_exec s x t i
  rw [he] at hleaves
  by_cases hno : ∀ j ∈ code, j.waiting = false
  · refine ⟨chained_of_forall fun j hj => hno j (List.mem_of_mem_tail hj),fun j hj hw => ?_⟩
    have := hno j (List.mem_of_mem_head? hj)
    rw [waiting_of_waits hw] at this
    cases this
  · obtain ⟨j,hj,hw⟩ : ∃ j ∈ code, j.waiting = true := by simpa using hno
    obtain ⟨op,b,rfl⟩ | ⟨q,y,rfl⟩ | ⟨d,rfl⟩ | ⟨p,rfl⟩ | rfl :=
      waiting_leaves (hleaves j hj) hw
    · cases x <;> cases he
      exact ⟨.singleton _,fun _ _ _ => ⟨rfl,trivial⟩⟩
    · obtain rfl : j = .sendSuspended q y := hleaves j hj
      obtain ⟨hx,-,rfl,hfull,hopen⟩ := exec_suspends he hj
      exact ⟨.singleton _,fun _ _ _ => ⟨hx,hfull,hopen⟩⟩
    · cases x <;> try cases he
      simp only [exec,execOk,DataChannel.exec] at he
      split_ifs at he with hc <;> cases he
      · exact ⟨.singleton _,fun j hj hw => by
          cases hj
          exact ⟨rfl,hc,hw.resolve_right Bool.false_ne_true⟩⟩
      · simp [Chained,DataChannel.closeBody,Precedes,Instr.waiting,Instr.awaited,Instr.waits,
          Instr.awaits,Instr.isSuspended]
    · cases x <;> try cases he
      simp only [exec,execOk,PeerConnection.exec] at he
      split_ifs at he with hc <;> cases he
      · exact ⟨.singleton _,fun j hj hw => by
          cases hj
          exact ⟨rfl,hc,hw.resolve_right Bool.false_ne_true⟩⟩
      · simp [Chained,PeerConnection.closeBody,Precedes,Instr.waiting,Instr.awaited,Instr.waits,
          Instr.awaits,Instr.isSuspended]
    · cases x <;> try cases he
      simp only [exec,execOk,WebRtcRuntime.execRuntime] at he
      split_ifs at he with hc <;> cases he
      · exact ⟨.singleton _,fun j hj hw => by
          cases hj
          exact ⟨rfl,hc,hw.resolve_right Bool.false_ne_true⟩⟩
      · simp [Chained,WebRtcRuntime.closeBody,Precedes,Instr.waiting,Instr.awaited,Instr.waits,
          Instr.awaits,Instr.isSuspended]

lemma Chained.replace {k : Instr} {l : List Instr} (h : Chained (i :: l))
    (hk : k.awaited = i.awaited) : Chained (k :: l) := by
  rw [Chained,List.isChain_cons] at h ⊢
  exact ⟨fun j hj hw => hk.trans (h.1 j hj hw),h.2⟩

/-- An exception leaves its coroutine at an instruction that does not wait. -/
lemma Chained.afterThrow (e : Exn) {l : List Instr} (h : Chained l) :
    Chained (afterThrow e l) ∧ ∀ j ∈ (afterThrow e l).head?, j.waiting = false := by
  induction l with
  | nil => exact ⟨.nil,by simp [Kotlin.afterThrow]⟩
  | cons i l ih =>
    simp only [Kotlin.afterThrow]
    split
    · next code hc =>
      unfold handler at hc
      split at hc <;> cases hc
      · exact ⟨h.replace rfl,by simp [Instr.waiting]⟩
      · exact ⟨.cons_cons (by simp [Precedes,Instr.waiting]) (h.replace rfl),by simp [Instr.waiting]⟩
      · exact ⟨.cons_cons (by simp [Precedes,Instr.waiting]) (h.replace rfl),by simp [Instr.waiting]⟩
      · exact ⟨h.replace rfl,by simp [Instr.waiting]⟩
    · exact ih h.tail

/-- The end of a close follows what its closing steps leave, and waits only if it comes at once. -/
lemma exec_awaited {a : Instr} (he : exec x t i s = .next s' code) (ha : i.awaited = some a) :
    (∀ k ∈ code.getLast?, k.awaited = some a) ∧
      (code = [] → a.waits s' → x = .ok ∧ i.comesToWait s) := by
  unfold Instr.awaited at ha
  split at ha <;> cases ha <;> cases x <;> try cases he
  · exact ⟨by simp,fun _ hw => ⟨rfl,hw.resolve_right Bool.false_ne_true⟩⟩
  · exact ⟨by simp,fun _ hw => by
      simp [Instr.waits,Instr.awaits,Instr.isSuspended,Shared.setChannel,complete] at hw⟩
  · exact ⟨by simp,fun _ hw => ⟨rfl,hw.resolve_right Bool.false_ne_true⟩⟩
  · exact ⟨by simp,fun _ hw => by
      simp [Instr.waits,Instr.awaits,Instr.isSuspended,Shared.setPeer,complete] at hw⟩
  · exact ⟨by simp,fun _ hw => ⟨rfl,hw.resolve_right Bool.false_ne_true⟩⟩
  · simp only [exec,execOk,WebRtcRuntime.execRuntime] at he
    split_ifs at he with hc <;> cases he
    · exact ⟨by simp,fun _ hw => ⟨rfl,hc,hw.resolve_right Bool.false_ne_true⟩⟩
    · exact ⟨by simp [WebRtcRuntime.teardown,Instr.awaited],by simp [WebRtcRuntime.teardown]⟩
  · simp only [exec,execOk,WebRtcRuntime.execRuntime,WebRtcRuntime.withLock] at he
    split_ifs at he with hc
    cases he
    simp [WebRtcRuntime.afterDrain,Instr.awaited]
  · exact ⟨by simp [Instr.awaited],by simp⟩
  · exact ⟨by simp [Instr.awaited],by simp⟩
  · exact ⟨by simp,fun _ hw => by
      simp [Instr.waits,Instr.awaits,Instr.isSuspended,Shared.setRuntime,complete] at hw⟩

variable {c c' : Config}

/-- A step of a coroutine keeps its code chained, and leaves it waiting only if it comes to wait. -/
theorem TaskStep.chained (h : ∀ u, Chained (c.tasks u)) (hs : TaskStep x t c c') :
    (∀ u, Chained (c'.tasks u)) ∧
      (Waits c' t → x = .ok ∧ ∃ i rest, c.tasks t = i :: rest ∧ i.comesToWait c.shared) := by
  cases hs with
  | @next i rest s code head he =>
    have hhead := List.isChain_cons.mp (head ▸ h t)
    obtain ⟨hcode,hwait⟩ := exec_waiting he
    refine ⟨fun u => ?_,?_⟩
    · by_cases hu : u = t
      · subst hu
        simp only [Function.update_self]
        refine List.isChain_append.mpr ⟨hcode,hhead.2,fun k hk j hj hw => ?_⟩
        exact (exec_awaited he (hhead.1 j hj hw)).1 k hk
      · simpa only [Function.update_of_ne hu] using h u
    · rintro ⟨j,rest',hj,hw⟩
      simp only [Function.update_self] at hj
      cases code with
      | nil =>
        obtain rfl : rest = j :: rest' := hj
        obtain ⟨hx,hi⟩ := (exec_awaited he (hhead.1 j rfl (waiting_of_waits hw))).2 rfl hw
        exact ⟨hx,i,_,head,hi⟩
      | cons k code =>
        cases hj
        obtain ⟨hx,hi⟩ := hwait j rfl hw
        exact ⟨hx,i,rest,head,hi⟩
  | @throw i rest s e head he =>
    obtain ⟨hchain,hno⟩ := Chained.afterThrow e (List.isChain_cons.mp (head ▸ h t)).2
    refine ⟨fun u => ?_,?_⟩
    · by_cases hu : u = t
      · subst hu
        simpa only [Function.update_self] using hchain
      · simpa only [Function.update_of_ne hu] using h u
    · rintro ⟨j,rest',hj,hw⟩
      simp only [Function.update_self] at hj
      have := hno j (by simp [hj])
      rw [waiting_of_waits hw] at this
      cases this

lemma chained_api (s : Shared) (a : Api) : Chained (a.code s) ∧
    ∀ j ∈ a.code s, j.waiting = false := by
  have hno : ∀ j ∈ a.code s, j.waiting = false := by cases a <;> simp [Api.code,Instr.waiting]
  exact ⟨chained_of_forall fun j hj => hno j (List.mem_of_mem_tail hj),hno⟩

/-- In every reachable state code waits at its head only, but for the ends of closes. -/
theorem chained_of_reachable {shutdownTimeout : ℤ} {fingerprint : String}
    {ok : Label → Config → Prop} (h : Reachable shutdownTimeout fingerprint ok c) :
    ∀ t, Chained (c.tasks t) := by
  refine h.invariant (I := fun c => ∀ t, Chained (c.tasks t)) ?_ ?_
  · intro t
    simp only [init]
    split_ifs
    · exact chained_of_forall (by simp [Instr.waiting])
    · exact .nil
  · intro l d d' hd _ hs
    cases step_cases hs with
    | task hl active ht => exact (ht.chained hd).1
    | @call u a hu idle admitted =>
      intro t
      by_cases ht : t = u
      · subst ht
        simpa only [Function.update_self] using (chained_api d.shared a).1
      · simpa only [Function.update_of_ne ht] using hd t
    | receive | cancel | native => exact hd

end Chained

end Kestara.Kotlin
