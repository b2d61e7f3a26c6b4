import Kestara.Kotlin.Shutdown

/-!
# Lifecycle of the runtime

While the runtime is open the event loop keeps going; once it is closed the operations that
are left are drained, or are going to be.
-/
namespace Kestara.Kotlin
open Interleaving

/-- The instructions behind the check of `closed` in a body under the mutex. -/
def Instr.pastCheck : Instr → Bool
  | .submit (.checkClosing _ _) | .submit (.insert _ _) | .submit (.call _ _)
  | .runtime (.registerPeer _) => true
  | _ => false

lemma locked_of_pastCheck {i : Instr} (h : i.pastCheck = true) : i.locked = true := by
  unfold Instr.pastCheck at h
  split at h <;> first | rfl | cases h

/-- The event loop goes on, or is about to start the shutdown. -/
def LoopGoing (code : List Instr) : Prop :=
  (∃ pre, code = pre ++ [.loop .head,.loop .catch]) ∨ (∃ e rest, code = .loop (.failed e) :: rest) ∨
    ∃ f rest, code = .runtime (.completeShutdown f) :: rest

/-- What a step does to the flags of the runtime and to the deferreds. -/
structure Flags (s s' : Shared) (i : Instr) (code : List Instr) : Prop where
  closed : s'.runtime.closed = true → s.runtime.closed = true ∨
    ∃ f, i = .runtime (.completeShutdown f) ∧ .runtime (.drain f) ∈ code
  closed_mono : s.runtime.closed = true → s'.runtime.closed = true
  drained : s'.history.drained = true → s.history.drained = true ∨
    (∃ f, i = .runtime (.drain f)) ∧ s.runtime.lifecycleMutex = none ∧
      s'.runtime.operations = ∅ ∧ s'.runtime.peers = ∅
  drained_mono : s.history.drained = true → s'.history.drained = true
  empty : i.pastCheck = false → s.runtime.operations = ∅ → s.runtime.peers = ∅ →
    s'.runtime.operations = ∅ ∧ s'.runtime.peers = ∅
  active : s'.runtime.scopeActive = false → s.runtime.scopeActive = false ∨ i = .runtime .cancelScope
  deferred : ∀ op, (s.deferred op).isSome = true → (s'.deferred op).isSome = true
  drains : ∀ op, (op,.drain) ∈ s'.history.taken → (op,.drain) ∈ s.history.taken ∨
    ∃ f, .runtime (.failOperation op f) ∈ code
  completes : ∀ op e, (op,.completion e) ∈ s'.history.taken → (op,.completion e) ∈ s.history.taken ∨
    (∃ e', i = .loop (.takeOperation e')) ∧ code = [.loop (.resolve op e)]
  past : ∀ j ∈ code, j.pastCheck = true → s'.history.drained = s.history.drained ∧
    (s.runtime.closed = false ∨ i.pastCheck = true)

lemma Flags.same {s s' : Shared} {i : Instr} {code : List Instr} (same : SameOps s s')
    (hcode : ∀ j ∈ code, j.pastCheck = false) : Flags s s' i code where
  closed := by rw [same.closed]; exact .inl
  closed_mono := by rw [same.closed]; exact id
  drained := by rw [same.drained]; exact .inl
  drained_mono := by rw [same.drained]; exact id
  empty := fun _ ho hp => ⟨same.operations.trans ho,same.peers hp⟩
  active := by rw [same.scopeActive]; exact .inl
  deferred := by rw [same.deferred]; exact fun _ => id
  drains := by rw [same.taken]; exact fun _ => .inl
  completes := by rw [same.taken]; exact fun _ _ => .inl
  past := fun j hj hp => by rw [hcode j hj] at hp; cases hp

lemma pastCheck_of_not_locked {j : Instr} (h : j.locked = false) : j.pastCheck = false := by
  rw [Bool.eq_false_iff]
  intro hp
  rw [locked_of_pastCheck hp] at h
  cases h

lemma OpStep.flags_next {t : TaskId} {s s' : Shared} {i : Instr} {code : List Instr}
    (h : OpStep t s i (.next s' code)) : Flags s s' i code := by
  cases h with
  | other _ _ same hcode =>
    exact .same same fun j hj => pastCheck_of_not_locked (locked_of_not_isOp (hcode j hj))
  | close code hcode same =>
    refine .same same fun j hj => ?_
    cases ho : j.isOp with
    | false => exact pastCheck_of_not_locked (locked_of_not_isOp ho)
    | true =>
      obtain ⟨f,rfl⟩ := hcode j hj ho
      rfl
  | head live => exact .same (.refl s) (by simp [Instr.pastCheck])
  | poll e hk same => exact .same same (by simp [Instr.pastCheck])
  | failed e _ => exact .same (.refl s) (by simp [Instr.pastCheck])
  | begin b | lock op b free | registerLock p free =>
    exact ⟨.inl,id,.inl,id,fun _ ho hp => ⟨ho,hp⟩,.inl,fun _ => id,fun _ => .inl,fun _ _ => .inl,
      by simp [Instr.pastCheck]⟩
  | call op b =>
    exact ⟨.inl,id,.inl,id,fun _ ho hp => ⟨ho,hp⟩,.inl,fun _ => id,fun _ => .inl,fun _ _ => .inl,
      by simp [Instr.pastCheck]⟩
  | checkClosed op b open_ | registerCheck p open_ =>
    exact ⟨.inl,id,.inl,id,fun _ ho hp => ⟨ho,hp⟩,.inl,fun _ => id,fun _ => .inl,fun _ _ => .inl,
      fun _ _ _ => ⟨rfl,.inl open_⟩⟩
  | checkClosing op b =>
    exact ⟨.inl,id,.inl,id,fun _ ho hp => ⟨ho,hp⟩,.inl,fun _ => id,fun _ => .inl,fun _ _ => .inl,
      fun _ _ _ => ⟨rfl,.inr rfl⟩⟩
  | insert op b =>
    exact ⟨.inl,id,.inl,id,by simp [Instr.pastCheck],.inl,fun _ => id,fun _ => .inl,fun _ _ => .inl,
      fun _ _ _ => ⟨rfl,.inr rfl⟩⟩
  | registerPeer p code hcode =>
    refine ⟨.inl,id,.inl,id,by simp [Instr.pastCheck],.inl,fun _ => id,fun _ => .inl,fun _ _ => .inl,?_⟩
    exact fun _ _ _ => ⟨rfl,.inr rfl⟩
  | take e op free found =>
    refine ⟨.inl,id,.inl,id,?_,.inl,fun _ => id,?_,?_,by simp [Instr.pastCheck]⟩
    · intro _ ho _
      rw [ho] at found
      cases found
    · intro op' hop
      rcases List.mem_append.mp hop with hop | hop
      · exact .inl hop
      · cases List.mem_singleton.mp hop
    · intro op' e' hop
      rcases List.mem_append.mp hop with hop | hop
      · exact .inl hop
      · cases List.mem_singleton.mp hop
        exact .inr ⟨⟨_,rfl⟩,rfl⟩
  | resolve op e =>
    refine ⟨.inl,id,.inl,id,fun _ ho hp => ⟨ho,hp⟩,.inl,?_,fun _ => .inl,fun _ _ => .inl,by simp⟩
    intro op' hd
    simp only [Shared.completeOperation,Function.update_apply]
    split_ifs
    · rfl
    · exact hd
  | failOperation op f =>
    refine ⟨.inl,id,.inl,id,fun _ ho hp => ⟨ho,hp⟩,.inl,?_,fun _ => .inl,fun _ _ => .inl,by simp⟩
    intro op' hd
    simp only [Shared.completeOperation,Function.update_apply]
    split_ifs
    · rfl
    · exact hd
  | completeShutdown f _ =>
    exact ⟨fun _ => .inr ⟨f,rfl,by simp [WebRtcRuntime.teardown]⟩,fun _ => rfl,.inl,id,
      fun _ ho hp => ⟨ho,hp⟩,.inl,fun _ => id,fun _ => .inl,fun _ _ => .inl,
      by simp [WebRtcRuntime.teardown,Instr.pastCheck]⟩
  | drain f free =>
    refine ⟨.inl,id,fun _ => .inr ⟨⟨f,rfl⟩,free,rfl,rfl⟩,fun _ => rfl,fun _ _ _ => ⟨rfl,rfl⟩,.inl,
      fun _ => id,?_,?_,?_⟩
    · intro op hop
      rcases List.mem_append.mp hop with hop | hop
      · exact .inl hop
      · obtain ⟨op',hop',he⟩ := List.mem_map.mp hop
        cases he
        exact .inr ⟨f,by simp [WebRtcRuntime.afterDrain,hop']⟩
    · intro op e hop
      rcases List.mem_append.mp hop with hop | hop
      · exact .inl hop
      · obtain ⟨op',-,he⟩ := List.mem_map.mp hop
        cases he
    · intro j hj hp
      rw [pastCheck_of_not_locked (locked_of_not_headOnly (locked_afterDrain _ _ _ j hj))] at hp
      cases hp
  | cancelScope =>
    exact ⟨.inl,id,.inl,id,fun _ ho hp => ⟨ho,hp⟩,fun _ => .inr rfl,fun _ => id,fun _ => .inl,
      fun _ _ => .inl,by simp⟩

lemma OpStep.flags_throw {t : TaskId} {s s' : Shared} {i : Instr} {e : Exn}
    (h : OpStep t s i (.throw s' e)) : Flags s s' i [] := by
  cases h with
  | otherThrow | drainCancelled => exact .same (.refl s) (by simp)
  | refused | refusedClosing | registerRefused =>
    exact ⟨.inl,id,.inl,id,fun _ ho hp => ⟨ho,hp⟩,.inl,fun _ => id,fun _ => .inl,fun _ _ => .inl,
      by simp⟩
  | submissionFails op b m =>
    refine ⟨.inl,id,.inl,id,by simp [Instr.pastCheck],.inl,fun _ => id,?_,?_,by simp⟩
    · intro op' hop
      rcases List.mem_append.mp hop with hop | hop
      · exact .inl hop
      · cases List.mem_singleton.mp hop
    · intro op' e' hop
      rcases List.mem_append.mp hop with hop | hop
      · exact .inl hop
      · cases List.mem_singleton.mp hop

structure Lifecycle (c : Config) : Prop where
  shielded : Shielded c
  pending : ∀ t, ∀ j ∈ c.tasks t, j.inShutdown = true → c.shared.runtime.closed = true
  drain : c.shared.runtime.closed = true → c.shared.history.drained = true ∨
    ∃ t f, .runtime (.drain f) ∈ c.tasks t
  drained : c.shared.history.drained = true → c.shared.runtime.closed = true ∧
    c.shared.runtime.operations = ∅ ∧ c.shared.runtime.peers = ∅
  past : ∀ t i rest, c.tasks t = i :: rest → i.pastCheck = true → c.shared.history.drained = false
  active : c.shared.runtime.scopeActive = false → c.shared.runtime.closed = true
  going : c.shared.runtime.closed = false → LoopGoing (c.tasks 0)
  failing : ∀ op, (op,.drain) ∈ c.shared.history.taken → (c.shared.deferred op).isSome = true ∨
    ∃ t f, .runtime (.failOperation op f) ∈ c.tasks t
  resolving : ∀ op e, (op,.completion e) ∈ c.shared.history.taken →
    (c.shared.deferred op).isSome = true ∨ ∃ rest, c.tasks 0 = .loop (.resolve op e) :: rest

lemma closed_completeShutdown {x : Choice} {t : TaskId} {f : Option Exn} {s s' : Shared}
    {code : List Instr} (h : exec x t (.runtime (.completeShutdown f)) s = .next s' code) :
    s'.runtime.closed = true := by
  cases x <;> simp only [exec,execOk,execFail,execCancel,WebRtcRuntime.execRuntime] at h
  · split at h
    · next hc => cases h; exact hc
    · cases h; rfl
  · cases h
  · cases h

lemma drained_drain {x : Choice} {t : TaskId} {f : Option Exn} {s s' : Shared}
    {code : List Instr} (h : exec x t (.runtime (.drain f)) s = .next s' code) :
    s'.history.drained = true := by
  cases x <;> simp only [exec,execOk,execFail,execCancel,WebRtcRuntime.execRuntime,
    WebRtcRuntime.withLock] at h
  · split_ifs at h
    cases h
    rfl
  · cases h
  · cases h

lemma deferred_failOperation {x : Choice} {t : TaskId} {op : ℤ} {f : Option Exn} {s s' : Shared}
    {code : List Instr} (h : exec x t (.runtime (.failOperation op f)) s = .next s' code) :
    (s'.deferred op).isSome = true := by
  cases x <;> cases h
  simp [Shared.completeOperation]

section Step
variable {l : Label} {x : Choice} {t : TaskId} {c c' : Config} (h : Lifecycle c)
  (hok : ShutdownUncancelled l c) (hl : l.scheduled = some (t,x)) (hs : TaskStep x t c c')

/-- The part of a step that the flags see. -/
theorem TaskStep.flags (hs : TaskStep x t c c') :
    ∃ i rest code rest', c.tasks t = i :: rest ∧ Flags c.shared c'.shared i code ∧
      (∀ j ∈ code, i.leaves j) ∧ (∀ j ∈ rest', j ∈ rest ∨ j.inShutdown = false ∧ j.locked = false) ∧
      c'.tasks = Function.update c.tasks t (code ++ rest') := by
  obtain ⟨i,rest,head,⟨s,code,he,hop,rfl⟩ | ⟨s,e,-,hop,rfl⟩⟩ := hs.opStep
  · have hleaves := leaves_exec c.shared x t i
    rw [he] at hleaves
    exact ⟨i,rest,code,rest,head,hop.flags_next,hleaves,fun j hj => .inl hj,rfl⟩
  · refine ⟨i,rest,[],afterThrow e rest,head,hop.flags_throw,by simp,?_,rfl⟩
    intro j hj
    rcases mem_afterThrow hj with hj | ⟨k,-,code,hc,hj⟩
    · exact .inl hj
    · refine .inr ?_
      unfold handler at hc
      split at hc <;> cases hc <;> simp at hj
      · subst hj; exact ⟨rfl,rfl⟩
      · rcases hj with rfl | rfl <;> exact ⟨rfl,rfl⟩
      · rcases hj with rfl | rfl <;> exact ⟨rfl,rfl⟩
      · subst hj; exact ⟨rfl,rfl⟩

/-- Nobody gets past the check of `closed` once the operations have been drained. -/
lemma TaskStep.past (hlock : Locking c) (hs : TaskStep x t c c')
    (hclosed : c.shared.history.drained = true → c.shared.runtime.closed = true)
    (hpast : ∀ t i rest, c.tasks t = i :: rest → i.pastCheck = true →
      c.shared.history.drained = false) (t' : TaskId) (k : Instr) (r : List Instr)
    (hk : c'.tasks t' = k :: r) (hp : k.pastCheck = true) : c'.shared.history.drained = false := by
  obtain ⟨i,rest,code,rest',head,hf,-,hrest,htasks⟩ := hs.flags
  rw [htasks] at hk
  by_cases ht : t' = t
  · subst ht
    simp only [Function.update_self] at hk
    rcases List.mem_append.mp (hk ▸ List.mem_cons_self : k ∈ code ++ rest') with hk | hk
    · obtain ⟨hsame,hcl | hi⟩ := hf.past k hk hp
      · rw [hsame,Bool.eq_false_iff]
        intro hd
        rw [hclosed hd] at hcl
        cases hcl
      · rw [hsame]
        exact hpast t' i rest head hi
    · have hlk := locked_of_pastCheck hp
      rcases hrest k hk with hk | ⟨-,hk⟩
      · have := locked_of_not_headOnly (hlock.tail t' k (by simpa [head] using hk))
        rw [this] at hlk
        cases hlk
      · rw [hk] at hlk
        cases hlk
  · simp only [Function.update_of_ne ht] at hk
    have hd := hpast t' k r hk hp
    rw [Bool.eq_false_iff]
    intro hd'
    rcases hf.drained hd' with hd' | ⟨-,hfree,-⟩
    · rw [hd] at hd'
      cases hd'
    · rw [hlock.holder t' k r hk (locked_of_pastCheck hp)] at hfree
      cases hfree

lemma TaskStep.closed_mono (hs : TaskStep x t c c') (hc : c.shared.runtime.closed = true) :
    c'.shared.runtime.closed = true := by
  obtain ⟨i,rest,code,rest',-,hf,-⟩ := hs.flags
  exact hf.closed_mono hc

include h hs

lemma Lifecycle.pending_step : ∀ t', ∀ j ∈ c'.tasks t', j.inShutdown = true →
    c'.shared.runtime.closed = true := by
  intro t' j hj hsd
  have old : ∀ k ∈ c.tasks t', k.inShutdown = true → c'.shared.runtime.closed = true :=
    fun k hk hks => hs.closed_mono (h.pending t' k hk hks)
  cases hs with
  | @next i rest s code head he =>
    by_cases ht : t' = t
    · subst ht
      simp only [Function.update_self,List.mem_append] at hj
      rcases hj with hj | hj
      · have hleaves := leaves_exec c.shared x t' i
        rw [he] at hleaves
        rcases inShutdown_leaves (hleaves j hj) hsd with hi | ⟨f,rfl⟩
        · exact old i (by simp [head]) hi
        · exact closed_completeShutdown he
      · exact old j (by simp [head,hj]) hsd
    · simp only [Function.update_of_ne ht] at hj
      exact old j hj hsd
  | @throw i rest s e head he =>
    by_cases ht : t' = t
    · subst ht
      simp only [Function.update_self] at hj
      by_cases hr : ∀ k ∈ rest, k.inShutdown = false
      · rw [inShutdown_afterThrow hr j hj] at hsd
        cases hsd
      · push Not at hr
        obtain ⟨k,hk,hks⟩ := hr
        exact old k (by simp [head,hk]) (by simpa using hks)
    · simp only [Function.update_of_ne ht] at hj
      exact old j hj hsd

include hok hl in
lemma Lifecycle.drain_step (hc : c'.shared.runtime.closed = true) :
    c'.shared.history.drained = true ∨ ∃ u f, .runtime (.drain f) ∈ c'.tasks u := by
  obtain ⟨i,rest,code,rest',head,hf,-,-,htasks⟩ := hs.flags
  rcases hf.closed hc with hc | ⟨f,-,hd⟩
  · rcases h.drain hc with hd | ⟨u,f,hj⟩
    · exact .inl (hf.drained_mono hd)
    · rcases h.shielded.persists hok hl hs hj rfl with hj | ⟨s,code,he,hsh⟩
      · exact .inr ⟨u,f,hj⟩
      · rw [hsh]
        exact .inl (drained_drain he)
  · exact .inr ⟨t,f,by simp [htasks,hd]⟩

lemma Lifecycle.drained_step (hd : c'.shared.history.drained = true) :
    c'.shared.runtime.closed = true ∧ c'.shared.runtime.operations = ∅ ∧
      c'.shared.runtime.peers = ∅ := by
  obtain ⟨i,rest,code,rest',head,hf,-⟩ := hs.flags
  rcases hf.drained hd with hd | ⟨⟨f,rfl⟩,-,ho,hp⟩
  · obtain ⟨hc,ho,hp⟩ := h.drained hd
    have hpast : i.pastCheck = false := by
      rw [Bool.eq_false_iff]
      intro hi
      rw [h.past t i rest head hi] at hd
      cases hd
    exact ⟨hf.closed_mono hc,hf.empty hpast ho hp⟩
  · have hi : .runtime (.drain f) ∈ c.tasks t := by simp [head]
    exact ⟨hf.closed_mono (h.pending t _ hi rfl),ho,hp⟩

lemma Lifecycle.active_step (ha : c'.shared.runtime.scopeActive = false) :
    c'.shared.runtime.closed = true := by
  obtain ⟨i,rest,code,rest',head,hf,-⟩ := hs.flags
  rcases hf.active ha with ha | rfl
  · exact hf.closed_mono (h.active ha)
  · have hi : .runtime .cancelScope ∈ c.tasks t := by simp [head]
    exact hf.closed_mono (h.pending t _ hi rfl)

lemma Lifecycle.going_step (hloop : ∀ j ∈ c.tasks 0, j.inLoop = true)
    (hc : c'.shared.runtime.closed = false) : LoopGoing (c'.tasks 0) := by
  have hopen : c.shared.runtime.closed = false := by
    rw [Bool.eq_false_iff]
    intro hcl
    rw [hs.closed_mono hcl] at hc
    cases hc
  have hlive : Live c.shared := by
    refine ⟨hopen,?_⟩
    rw [← Bool.not_eq_false]
    intro ha
    rw [h.active ha] at hopen
    cases hopen
  have hgo := h.going hopen
  obtain ⟨i,rest,head,⟨s,code,he,hop,rfl⟩ | ⟨s,e,he,hop,rfl⟩⟩ := hs.opStep
  · by_cases ht : 0 = t
    · subst ht
      simp only [Function.update_self]
      rw [head] at hgo
      obtain ⟨pre,hpre⟩ | ⟨e,r,hpre⟩ | ⟨f,r,hpre⟩ := hgo
      · cases pre with
        | nil =>
          cases hpre
          cases hop with
          | other _ hl _ _ => cases hl hlive
          | head => exact .inl ⟨[.loop .poll],rfl⟩
        | cons k pre =>
          cases hpre
          exact .inl ⟨code ++ pre,by simp⟩
      · cases hpre
        cases hop with
        | other _ hl _ _ => cases hl hlive
        | failed => exact .inr (.inr ⟨some e,_,rfl⟩)
      · cases hpre
        cases hop with
        | other _ hl _ _ => cases hl hlive
        | completeShutdown => cases hc
    · simpa only [Function.update_of_ne ht] using hgo
  · by_cases ht : 0 = t
    · subst ht
      simp only [Function.update_self]
      rw [head] at hgo
      have hthrow : i.lively = false := by
        cases hop <;> first | assumption | rfl
      obtain ⟨pre,hpre⟩ | ⟨e',r,hpre⟩ | ⟨f,r,hpre⟩ := hgo
      · cases pre with
        | nil => cases hpre; cases hthrow
        | cons k pre =>
          cases hpre
          obtain ⟨r,hr⟩ := afterThrow_inLoop e (l := pre ++ [.loop .head,.loop .catch])
            (fun j hj => hloop j (by rw [head]; exact List.mem_cons_of_mem _ hj)) (by simp)
          exact .inr (.inl ⟨e,r,hr⟩)
      · cases hpre; cases hthrow
      · cases hpre; cases hthrow
    · simpa only [Function.update_of_ne ht] using hgo

include hok hl in
lemma Lifecycle.failing_step (op : ℤ) (hop : (op,.drain) ∈ c'.shared.history.taken) :
    (c'.shared.deferred op).isSome = true ∨ ∃ u f, .runtime (.failOperation op f) ∈ c'.tasks u := by
  obtain ⟨i,rest,code,rest',head,hf,-,-,htasks⟩ := hs.flags
  rcases hf.drains op hop with hop | ⟨f,hd⟩
  · rcases h.failing op hop with hd | ⟨u,f,hj⟩
    · exact .inl (hf.deferred op hd)
    · rcases h.shielded.persists hok hl hs hj rfl with hj | ⟨s,code,he,hsh⟩
      · exact .inr ⟨u,f,hj⟩
      · rw [hsh]
        exact .inl (deferred_failOperation he)
  · exact .inr ⟨t,f,by simp [htasks,hd]⟩

lemma Lifecycle.resolving_step (hloop : ∀ t ≠ 0, ∀ j ∈ c.tasks t, j.isLoop = false) (op : ℤ)
    (e : NativeEvent) (hop : (op,.completion e) ∈ c'.shared.history.taken) :
    (c'.shared.deferred op).isSome = true ∨ ∃ rest, c'.tasks 0 = .loop (.resolve op e) :: rest := by
  obtain ⟨i,rest,code,rest',head,hf,-,-,htasks⟩ := hs.flags
  rcases hf.completes op e hop with hop | ⟨⟨e',rfl⟩,rfl⟩
  · rcases h.resolving op e hop with hd | ⟨r,hr⟩
    · exact .inl (hf.deferred op hd)
    · by_cases ht : 0 = t
      · subst ht
        cases hs with
        | next head' he =>
          rw [hr] at head'
          cases head'
          cases x <;> cases he
          exact .inl (by simp [Shared.completeOperation])
        | throw head' he =>
          rw [hr] at head'
          cases head'
          cases x <;> cases he
      · exact .inr ⟨r,by simpa only [htasks,Function.update_of_ne ht] using hr⟩
  · have ht : t = 0 := by
      by_contra hne
      cases hloop t hne _ (head ▸ List.mem_cons_self)
    subst ht
    exact .inr ⟨rest',by simp [htasks]⟩

end Step

lemma inShutdown_api (s : Shared) (a : Api) : ∀ j ∈ a.code s, j.inShutdown = false := by
  cases a <;> simp [Api.code,Instr.inShutdown]

/-- A coroutine that starts a call changes no flag and claims nothing yet. -/
lemma Lifecycle.call {c : Config} (h : Lifecycle c) {t : TaskId} (ht : t ≠ 0)
    (idle : c.tasks t = []) (a : Api) :
    Lifecycle { c with tasks := Function.update c.tasks t (a.code c.shared) } := by
  have keep : ∀ {u : TaskId} {j : Instr}, j ∈ c.tasks u →
      j ∈ Function.update c.tasks t (a.code c.shared) u := by
    intro u j hj
    have hne : u ≠ t := by
      rintro rfl
      rw [idle] at hj
      cases hj
    rwa [Function.update_of_ne hne]
  have hno := inShutdown_api c.shared a
  refine ⟨?_,?_,?_,h.drained,?_,h.active,?_,?_,?_⟩
  · intro u
    simp only [Function.update_apply]
    split_ifs
    · refine List.pairwise_of_forall_mem_list fun k _ j hj hjs => ?_
      rw [hno j hj] at hjs
      cases hjs
    · exact h.shielded u
  · intro u j hj hjs
    simp only [Function.update_apply] at hj
    split_ifs at hj
    · rw [hno j hj] at hjs
      cases hjs
    · exact h.pending u j hj hjs
  · intro hc
    rcases h.drain hc with hd | ⟨u,f,hj⟩
    · exact .inl hd
    · exact .inr ⟨u,f,keep hj⟩
  · intro u i rest hi hp
    simp only [Function.update_apply] at hi
    split_ifs at hi
    · have := pastCheck_of_not_locked (locked_of_not_isOp (isOp_api c.shared a i (by simp [hi])))
      rw [this] at hp
      cases hp
    · exact h.past u i rest hi hp
  · simpa only [Function.update_of_ne ht.symm] using h.going
  · intro op hop
    rcases h.failing op hop with hd | ⟨u,f,hj⟩
    · exact .inl hd
    · exact .inr ⟨u,f,keep hj⟩
  · simpa only [Function.update_of_ne ht.symm] using h.resolving

theorem lifecycle_of_reachable {shutdownTimeout : ℤ} {fingerprint : String} {c : Config}
    (h : Reachable shutdownTimeout fingerprint ShutdownUncancelled c) : Lifecycle c := by
  refine h.induct ?_ ?_
  · have hcode : ∀ t, ∀ j ∈ (init shutdownTimeout fingerprint).tasks t,
        j.inShutdown = false ∧ j.pastCheck = false := by
      intro t
      simp only [init]
      split_ifs <;> simp [Instr.inShutdown,Instr.pastCheck]
    refine ⟨?_,?_,by simp [init],by simp [init],by simp [init],by simp [init],
      fun _ => .inl ⟨[],rfl⟩,by simp [init],by simp [init]⟩
    · intro t
      refine List.pairwise_of_forall_mem_list fun k _ j hj hjs => ?_
      rw [(hcode t j hj).1] at hjs
      cases hjs
    · intro t j hj hjs
      rw [(hcode t j hj).1] at hjs
      cases hjs
  · intro l d d' hr hd hok hs
    cases step_cases hs with
    | task hl active ht =>
      exact ⟨hd.shielded.task hok hl ht,hd.pending_step ht,hd.drain_step hok hl ht,
        hd.drained_step ht,
        ht.past (locking_of_reachable hr) (fun h => (hd.drained h).1) hd.past,hd.active_step ht,
        hd.going_step ht (inLoop_of_reachable hr),hd.failing_step hok hl ht,
        hd.resolving_step ht (isLoop_of_reachable hr)⟩
    | call ht idle admitted => exact hd.call ht idle _
    | receive ht idle hrec =>
      obtain ⟨y,ys,known,-,-,rfl⟩ := receive_cases hrec
      exact { hd with }
    | cancel | native => exact { hd with }

end Kestara.Kotlin
