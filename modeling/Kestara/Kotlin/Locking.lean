import Kestara.Kotlin.OperationSteps

/-!
# The lifecycle mutex

The body of `submit` and of a peer registration under `lifecycleMutex` take several steps. A
coroutine is in one of them exactly while it holds the mutex.
-/
namespace Kestara.Kotlin
open Interleaving

/-- The instructions that are run as soon as they have been left: nothing comes before them. -/
def Instr.headOnly : Instr → Bool
  | .submit i => i.isOp
  | .loop (.takeOperation _) | .loop (.resolve _ _) => true
  | .runtime (.registerCheck _) | .runtime (.registerPeer _) => true
  | _ => false

lemma headOnly_of_locked {i : Instr} (h : i.locked = true) : i.headOnly = true := by
  unfold Instr.locked at h
  split at h <;> first | rfl | cases h

lemma isOp_of_headOnly {i : Instr} (h : i.headOnly = true) : i.isOp = true := by
  unfold Instr.headOnly at h
  split at h <;> first | exact h | rfl | cases h

lemma headOnly_of_not_isOp {i : Instr} (h : i.isOp = false) : i.headOnly = false := by
  rw [Bool.eq_false_iff]
  intro hh
  rw [isOp_of_headOnly hh] at h
  cases h

lemma locked_of_not_headOnly {j : Instr} (h : j.headOnly = false) : j.locked = false := by
  rw [Bool.eq_false_iff]
  intro hl
  rw [headOnly_of_locked hl] at h
  cases h

lemma locked_of_not_isOp {j : Instr} (h : j.isOp = false) : j.locked = false :=
  locked_of_not_headOnly (headOnly_of_not_isOp h)

structure Locking (c : Config) : Prop where
  tail : ∀ t, ∀ j ∈ (c.tasks t).tail, j.headOnly = false
  holder : ∀ t i rest, c.tasks t = i :: rest → i.locked = true →
    c.shared.runtime.lifecycleMutex = some t
  held : ∀ t, c.shared.runtime.lifecycleMutex = some t →
    ∃ i rest, c.tasks t = i :: rest ∧ i.locked = true

/-- What a step does with the mutex. -/
inductive LockStep (t : TaskId) (s s' : Shared) (i : Instr) (code : List Instr) : Prop
  | outside (hi : i.locked = false)
      (same : s'.runtime.lifecycleMutex = s.runtime.lifecycleMutex)
      (hcode : ∀ j ∈ code, j.locked = false)
  | acquire (free : s.runtime.lifecycleMutex = none)
      (taken : s'.runtime.lifecycleMutex = some t) (hcode : ∃ j, code = [j] ∧ j.locked = true)
  | inside (hi : i.locked = true)
      (same : s'.runtime.lifecycleMutex = s.runtime.lifecycleMutex)
      (hcode : ∃ j, code = [j] ∧ j.locked = true)
  | release (hi : i.locked = true) (freed : s'.runtime.lifecycleMutex = none)
      (hcode : ∀ j ∈ code, j.locked = false)

lemma locked_of_committed {i : Instr} (h : i.committed = false) : i.locked = false := by
  unfold Instr.committed at h
  split at h <;> first | exact h | rfl

lemma locked_afterDrain (peers : List PeerId) (pending : List ℤ) (f : Option Exn) :
    ∀ j ∈ WebRtcRuntime.afterDrain peers pending f, j.headOnly = false := by
  intro j hj
  simp only [WebRtcRuntime.afterDrain,List.mem_append,List.mem_map,List.mem_cons,
    List.not_mem_nil,or_false] at hj
  rcases hj with (⟨p,-,rfl⟩ | ⟨op,-,rfl⟩) | rfl | rfl <;> rfl

lemma OpStep.lock_next {t : TaskId} {s s' : Shared} {i : Instr} {code : List Instr}
    (h : OpStep t s i (.next s' code)) : LockStep t s s' i code := by
  cases h with
  | other hi _ same hcode =>
    exact .outside (locked_of_committed hi) same.mutex fun j hj => locked_of_not_isOp (hcode j hj)
  | head live => exact .outside rfl rfl (by simp [Instr.locked])
  | begin b => exact .outside rfl rfl (by simp [Instr.locked])
  | lock op b free => exact .acquire free rfl ⟨_,rfl,rfl⟩
  | checkClosed op b _ => exact .inside rfl rfl ⟨_,rfl,rfl⟩
  | checkClosing op b => exact .inside rfl rfl ⟨_,rfl,rfl⟩
  | insert op b => exact .inside rfl rfl ⟨_,rfl,rfl⟩
  | call op b => exact .release rfl rfl (by simp [Instr.locked])
  | registerLock p free => exact .acquire free rfl ⟨_,rfl,rfl⟩
  | registerCheck p _ => exact .inside rfl rfl ⟨_,rfl,rfl⟩
  | registerPeer p code hcode =>
    exact .release rfl rfl fun j hj => locked_of_not_isOp (hcode j hj)
  | poll e hk same => exact .outside rfl same.mutex (by simp [Instr.locked])
  | take e op free found => exact .outside rfl rfl (by simp [Instr.locked])
  | resolve op e => exact .outside rfl rfl (by simp)
  | failed e _ => exact .outside rfl rfl (by simp [Instr.locked])
  | close code hcode same =>
    refine .outside rfl same.mutex fun j hj => ?_
    cases hop : j.isOp with
    | false => exact locked_of_not_isOp hop
    | true =>
      obtain ⟨f,rfl⟩ := hcode j hj hop
      rfl
  | completeShutdown f _ =>
    exact .outside rfl rfl (by simp [WebRtcRuntime.teardown,Instr.locked])
  | drain f free =>
    exact .outside rfl rfl fun j hj => locked_of_not_headOnly (locked_afterDrain _ _ _ j hj)
  | failOperation op f => exact .outside rfl rfl (by simp)
  | cancelScope => exact .outside rfl rfl (by simp)

lemma OpStep.lock_throw {t : TaskId} {s s' : Shared} {i : Instr} {e : Exn}
    (h : OpStep t s i (.throw s' e)) : LockStep t s s' i [] := by
  cases h with
  | otherThrow hi _ => exact .outside (locked_of_committed hi) rfl (by simp)
  | drainCancelled f _ => exact .outside rfl rfl (by simp)
  | refused op b _ => exact .release rfl rfl (by simp)
  | refusedClosing op b _ => exact .release rfl rfl (by simp)
  | submissionFails op b m => exact .release rfl rfl (by simp)
  | registerRefused p _ => exact .release rfl rfl (by simp)

/-- A step leaves at most one instruction that is to be run at once. -/
lemma OpStep.tail_headOnly {t : TaskId} {s s' : Shared} {i : Instr} {code : List Instr}
    (h : OpStep t s i (.next s' code)) : ∀ j ∈ code.tail, j.headOnly = false := by
  cases h with
  | other _ _ _ hcode => exact fun j hj => headOnly_of_not_isOp (hcode j (List.mem_of_mem_tail hj))
  | registerPeer p code hcode =>
    exact fun j hj => headOnly_of_not_isOp (hcode j (List.mem_of_mem_tail hj))
  | drain f free => exact fun j hj => locked_afterDrain _ _ _ j (List.mem_of_mem_tail hj)
  | close code hcode same =>
    intro j hj
    cases ho : j.isOp with
    | false => exact headOnly_of_not_isOp ho
    | true =>
      obtain ⟨f,rfl⟩ := hcode j (List.mem_of_mem_tail hj) ho
      rfl
  | completeShutdown f _ => simp [WebRtcRuntime.teardown,Instr.headOnly]
  | _ => simp [Instr.headOnly]

/-- A step in terms of the mutex, the code it leaves and what remains of the coroutine. -/
lemma Locking.of_lockStep {c : Config} (h : Locking c) {t : TaskId} {i : Instr}
    {rest rest' code : List Instr} {s : Shared} (head : c.tasks t = i :: rest)
    (hstep : LockStep t c.shared s i code) (hcode : ∀ j ∈ code.tail, j.headOnly = false)
    (hrest : ∀ j ∈ rest', j.headOnly = false) :
    Locking ⟨s,Function.update c.tasks t (code ++ rest')⟩ where
  tail := by
    intro t' j hj
    by_cases ht : t' = t
    · subst ht
      simp only [Function.update_self] at hj
      cases code with
      | nil => exact hrest j (List.mem_of_mem_tail hj)
      | cons k ks =>
        rcases List.mem_append.mp hj with hj | hj
        · exact hcode j hj
        · exact hrest j hj
    · simp only [Function.update_of_ne ht] at hj
      exact h.tail t' j hj
  holder := by
    intro t' k l hk hl
    have hmutex := h.holder t i rest head
    by_cases ht : t' = t
    · subst ht
      simp only [Function.update_self] at hk
      have hkc : k ∈ code := by
        rcases List.mem_append.mp (hk ▸ List.mem_cons_self : k ∈ code ++ rest') with hk | hk
        · exact hk
        · rw [locked_of_not_headOnly (hrest k hk)] at hl
          cases hl
      cases hstep with
      | outside hi same hno => rw [hno k hkc] at hl; cases hl
      | acquire free taken _ => exact taken
      | inside hi same _ => exact same.trans (hmutex hi)
      | release hi freed hno => rw [hno k hkc] at hl; cases hl
    · simp only [Function.update_of_ne ht] at hk
      have hother := h.holder t' k l hk hl
      have hne : i.locked = true → False := by
        intro hi
        rw [hmutex hi] at hother
        exact ht (Option.some.inj hother).symm
      cases hstep with
      | outside hi same _ => exact same.trans hother
      | acquire free taken _ => rw [free] at hother; cases hother
      | inside hi same _ => exact (hne hi).elim
      | release hi freed _ => exact (hne hi).elim
  held := by
    intro u hu
    cases hstep with
    | outside hi same _ =>
      obtain ⟨k,l,hk,hl⟩ := h.held u (same.symm.trans hu)
      have hne : u ≠ t := by
        rintro rfl
        rw [head] at hk
        cases hk
        rw [hi] at hl
        cases hl
      exact ⟨k,l,by simpa only [Function.update_of_ne hne] using hk,hl⟩
    | acquire free taken hj =>
      obtain ⟨j,rfl,hj⟩ := hj
      cases Option.some.inj (taken.symm.trans hu)
      exact ⟨j,rest',by simp,hj⟩
    | inside hi same hj =>
      obtain ⟨j,rfl,hj⟩ := hj
      cases Option.some.inj ((same.trans (h.holder t i rest head hi)).symm.trans hu)
      exact ⟨j,rest',by simp,hj⟩
    | release hi freed _ => cases freed.symm.trans hu

lemma headOnly_afterThrow {e : Exn} {rest : List Instr} (h : ∀ j ∈ rest, j.headOnly = false) :
    ∀ j ∈ afterThrow e rest, j.headOnly = false := by
  refine forall_afterThrow h fun i code hc j hj => ?_
  obtain rfl | ⟨c,rfl | rfl⟩ | ⟨p,rfl | rfl⟩ | rfl := mem_handler hc hj <;> rfl

/-- A step of a coroutine, as a step on operations with the code it leaves. -/
theorem TaskStep.opStep {x : Choice} {t : TaskId} {c c' : Config} (h : TaskStep x t c c') :
    ∃ i rest, c.tasks t = i :: rest ∧
      ((∃ s code, exec x t i c.shared = .next s code ∧ OpStep t c.shared i (.next s code) ∧
          c' = ⟨s,Function.update c.tasks t (code ++ rest)⟩) ∨
        ∃ s e, exec x t i c.shared = .throw s e ∧ OpStep t c.shared i (.throw s e) ∧
          c' = ⟨s,Function.update c.tasks t (afterThrow e rest)⟩) := by
  cases h with
  | @next i rest s code head he =>
    refine ⟨i,rest,head,.inl ⟨s,code,he,?_,rfl⟩⟩
    rcases opStep_exec t c.shared x i with h | h
    · rw [he] at h; cases h
    · rwa [he] at h
  | @throw i rest s e head he =>
    refine ⟨i,rest,head,.inr ⟨s,e,he,?_,rfl⟩⟩
    rcases opStep_exec t c.shared x i with h | h
    · rw [he] at h; cases h
    · rwa [he] at h

lemma Locking.task {x : Choice} {t : TaskId} {c c' : Config} (h : Locking c)
    (hs : TaskStep x t c c') : Locking c' := by
  obtain ⟨i,rest,head,⟨s,code,-,hop,rfl⟩ | ⟨s,e,-,hop,rfl⟩⟩ := hs.opStep
  all_goals have hrest : ∀ j ∈ rest, j.headOnly = false := by simpa [head] using h.tail t
  · exact h.of_lockStep head hop.lock_next hop.tail_headOnly hrest
  · have := h.of_lockStep head hop.lock_throw (by simp) (headOnly_afterThrow (e := e) hrest)
    simpa using this

/-- The mutex is held by a coroutine exactly while it is in a body under it. -/
theorem locking_of_reachable {shutdownTimeout : ℤ} {fingerprint : String}
    {ok : Label → Config → Prop} {c : Config} (h : Reachable shutdownTimeout fingerprint ok c) :
    Locking c := by
  refine h.invariant ?_ ?_
  · refine ⟨?_,?_,by simp [init]⟩
    · intro t
      simp only [init]
      split_ifs <;> simp [Instr.headOnly]
    · intro t i rest hi hl
      simp only [init] at hi
      split_ifs at hi
      cases hi
      cases hl
  · intro l d d' hd _ hs
    cases step_cases hs with
    | task hl active ht => exact hd.task ht
    | @call t a ht idle admitted =>
      have hop : ∀ j ∈ a.code d.shared, j.headOnly = false :=
        fun j hj => headOnly_of_not_isOp (isOp_api d.shared a j hj)
      refine ⟨?_,?_,?_⟩
      · intro t' j hj
        by_cases he : t' = t
        · subst he
          simp only [Function.update_self] at hj
          exact hop j (List.mem_of_mem_tail hj)
        · simp only [Function.update_of_ne he] at hj
          exact hd.tail t' j hj
      · intro t' k l hk hl
        by_cases he : t' = t
        · subst he
          simp only [Function.update_self] at hk
          rw [locked_of_not_headOnly (hop k (by simp [hk]))] at hl
          cases hl
        · simp only [Function.update_of_ne he] at hk
          exact hd.holder t' k l hk hl
      · intro u hu
        obtain ⟨k,l,hk,hl⟩ := hd.held u hu
        have hne : u ≠ t := by
          rintro rfl
          rw [idle] at hk
          cases hk
        exact ⟨k,l,by simpa only [Function.update_of_ne hne] using hk,hl⟩
    | receive ht idle hr =>
      obtain ⟨y,ys,known,-,-,rfl⟩ := receive_cases hr
      exact ⟨hd.tail,hd.holder,hd.held⟩
    | cancel | native => exact ⟨hd.tail,hd.holder,hd.held⟩

end Kestara.Kotlin
