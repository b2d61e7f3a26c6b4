import Kestara.Kotlin.Shutdown
import Kestara.Kotlin.TeardownRoom

/-!
# Teardown code can be run to its end

A teardown waits for `lifecycleMutex` and for room for its Closed event only. The holder of the
mutex can always leave it, so a due instruction can be reached by steps of coroutines alone.
-/
namespace Kestara.Kotlin
open Interleaving

/-- Steps of coroutines: no new call, no receive, no new event, no failure, no cancellation. -/
def Internal : Label → Config → Prop
  | .run _,_ => True
  | _,_ => False

/-- Undisturbed steps of coroutines lead from one state to the other. -/
abbrev Carries (c c' : Config) : Prop :=
  Reaches step (fun l d => Internal l d ∧ TeardownUninterrupted l d) c c'

section Runs
variable {shutdownTimeout : ℤ} {fingerprint : String} {c c' : Config}

lemma Carries.reachable (h : Carries c c')
    (hc : Reachable shutdownTimeout fingerprint TeardownUninterrupted c) :
    Reachable shutdownTimeout fingerprint TeardownUninterrupted c' :=
  hc.trans (h.weaken fun _ _ h => h.2)

lemma run_next {t : TaskId} {i : Instr} {rest code : List Instr} {s : Shared}
    (head : c.tasks t = i :: rest) (he : exec .ok t i c.shared = .next s code) :
    step (.run t) c = some ⟨s,Function.update c.tasks t (code ++ rest)⟩ := by
  simp only [step,Machine.stepTask,head]
  simp only [machine,he]

lemma run_throw {t : TaskId} {i : Instr} {rest : List Instr} {s : Shared} {e : Exn}
    (head : c.tasks t = i :: rest) (he : exec .ok t i c.shared = .throw s e) :
    step (.run t) c = some ⟨s,Function.update c.tasks t (afterThrow e rest)⟩ := by
  simp only [step,Machine.stepTask,head]
  have hm : machine.exec .ok t i c.shared = .throw s e := he
  simp only [hm,machine_unwind]

lemma carries_of_step {t : TaskId} {i : Instr} {rest : List Instr} (head : c.tasks t = i :: rest)
    (hroom : LeavesRoom c i) (h : step (.run t) c = some c') : Carries c c' := by
  refine .single ⟨.run t,⟨trivial,?_⟩,h⟩
  intro j rest' hj
  rw [head] at hj
  cases hj
  exact hroom

end Runs

section Mutex
variable {c : Config}

/-- How many steps the body under the mutex still takes. -/
def Instr.lockRank : Instr → ℕ
  | .submit (.checkClosed _ _) => 3
  | .submit (.checkClosing _ _) => 2
  | .submit (.insert _ _) | .runtime (.registerCheck _) => 1
  | _ => 0

lemma leavesRoom_of_locked {i : Instr} (h : i.locked = true) : LeavesRoom c i := by
  unfold Instr.locked at h
  split at h <;> trivial

/-- The holder of the mutex comes closer to leaving it. -/
lemma locked_step {t : TaskId} {i : Instr} (h : i.locked = true) (s : Shared) :
    (∃ s' j, exec .ok t i s = .next s' [j] ∧ j.locked = true ∧ j.lockRank < i.lockRank) ∨
      (∃ s' code, exec .ok t i s = .next s' code ∧ s'.runtime.lifecycleMutex = none) ∨
      ∃ s' e, exec .ok t i s = .throw s' e ∧ s'.runtime.lifecycleMutex = none := by
  unfold Instr.locked at h
  split at h
  · simp only [exec,execOk,WebRtcRuntime.execSubmit]
    split_ifs
    · exact .inr (.inr ⟨_,_,rfl,rfl⟩)
    · exact .inl ⟨_,_,rfl,rfl,by simp [Instr.lockRank]⟩
  · simp only [exec,execOk,WebRtcRuntime.execSubmit]
    split_ifs
    · exact .inr (.inr ⟨_,_,rfl,rfl⟩)
    · exact .inl ⟨_,_,rfl,rfl,by simp [Instr.lockRank]⟩
  · exact .inl ⟨_,_,rfl,rfl,by simp [Instr.lockRank]⟩
  · exact .inr (.inl ⟨_,_,rfl,rfl⟩)
  · simp only [exec,execOk,WebRtcRuntime.execRuntime]
    split_ifs
    · exact .inr (.inr ⟨_,_,rfl,rfl⟩)
    · exact .inl ⟨_,_,rfl,rfl,by simp [Instr.lockRank]⟩
  · exact .inr (.inl ⟨_,_,rfl,rfl⟩)
  · cases h

/-- The holder of the mutex can leave it; the other coroutines do not move. -/
lemma carries_unlock {u : TaskId} {i : Instr} {rest : List Instr} (head : c.tasks u = i :: rest)
    (hi : i.locked = true) :
    ∃ c', Carries c c' ∧ c'.shared.runtime.lifecycleMutex = none ∧ ∀ t ≠ u, c'.tasks t = c.tasks t := by
  induction hn : i.lockRank using Nat.strong_induction_on generalizing c i with
  | _ n ih =>
    have hroom : LeavesRoom c i := leavesRoom_of_locked hi
    obtain ⟨s,j,he,hj,hrank⟩ | ⟨s,code,he,hfree⟩ | ⟨s,e,he,hfree⟩ := locked_step (t := u) hi c.shared
    · have hs := carries_of_step head hroom (run_next head he)
      obtain ⟨c',hc,hfree,hsame⟩ := ih j.lockRank (hn ▸ hrank)
        (c := ⟨s,Function.update c.tasks u ([j] ++ rest)⟩) (by simp) hj rfl
      refine ⟨c',hs.trans hc,hfree,fun t ht => ?_⟩
      rw [hsame t ht]
      exact Function.update_of_ne ht _ _
    · exact ⟨_,carries_of_step head hroom (run_next head he),hfree,
        fun t ht => Function.update_of_ne ht _ _⟩
    · exact ⟨_,carries_of_step head hroom (run_throw head he),hfree,
        fun t ht => Function.update_of_ne ht _ _⟩

/-- The mutex can be freed without a step of a coroutine that does not hold it. -/
lemma carries_free (hlock : Locking c) :
    ∃ c', Carries c c' ∧ c'.shared.runtime.lifecycleMutex = none ∧
      ∀ t i rest, c.tasks t = i :: rest → i.locked = false → c'.tasks t = i :: rest := by
  cases hm : c.shared.runtime.lifecycleMutex with
  | none => exact ⟨c,.refl,hm,fun t i rest head _ => head⟩
  | some u =>
    obtain ⟨k,rest',hk,hl⟩ := hlock.held u hm
    obtain ⟨c',hc,hfree,hsame⟩ := carries_unlock hk hl
    refine ⟨c',hc,hfree,fun t i rest head hi => ?_⟩
    rw [hsame t ?_,head]
    rintro rfl
    rw [head] at hk
    cases hk
    rw [hi] at hl
    cases hl

end Mutex

lemma locked_of_tearing {i : Instr} (h : i.tearing = true) : i.locked = false := by
  cases i with
  | send | sendSuspended | closeQueue | channel | peer => rfl
  | submit => cases h
  | loop => cases h
  | runtime i => cases i <;> first | rfl | cases h

/-- A teardown throws only when it is cancelled, or sends into a closed queue. -/
lemma tearing_noThrow {i : Instr} (hi : i.tearing = true) {x : Choice} (hx : x ≠ .cancel)
    (t : TaskId) {s : Shared}
    (hopen : ∀ d y, i.sends (.event d) y → (s.queue (.event d)).closed = false) :
    NoThrow (exec x t i s) := by
  cases x with
  | ok =>
    cases i with
    | send q y =>
      cases q <;> first | cases hi | skip
      next d =>
        have ho := hopen d y (.inl rfl)
        simp only [exec,execOk,execSend,ho]
        split_ifs <;> trivial
    | sendSuspended q y =>
      simp only [exec,execOk,execSendSuspended]
      split_ifs <;> trivial
    | closeQueue q => trivial
    | channel c i =>
      simp only [exec,execOk]
      fun_cases DataChannel.exec c i s <;> first | cases hi | trivial
      all_goals trivial
    | peer p i =>
      simp only [exec,execOk]
      fun_cases PeerConnection.exec p i s <;> first | cases hi | trivial
      all_goals trivial
    | submit i => cases hi
    | loop i => cases hi
    | runtime i =>
      simp only [exec,execOk]
      fun_cases WebRtcRuntime.execRuntime t i s
      case case7 | case15 => exact WebRtcRuntime.withLock_of trivial trivial
      all_goals cases hi
      all_goals trivial
  | fail message =>
    simp only [exec]
    fun_cases execFail message i s <;> first | cases hi | skip
    all_goals trivial
  | cancel => exact (hx rfl).elim

section Progress
variable {shutdownTimeout : ℤ} {fingerprint : String} {c : Config}

lemma isClosed_of_tearing {i : Instr} {q : QueueRef} {y : Item} (hi : i.tearing = true)
    (hs : i.sends q y) : ∃ d, q = .event d ∧ y.isClosed = true := by
  obtain rfl | rfl := hs <;> cases q <;> first | cases hi | exact ⟨_,rfl,hi⟩

/-- A teardown does not throw in an undisturbed run. -/
lemma noThrow_of_reachable (h : Reachable shutdownTimeout fingerprint TeardownUninterrupted c)
    {t : TaskId} {i : Instr} (hmem : i ∈ c.tasks t) (hi : i.tearing = true) {x : Choice}
    (hx : x ≠ .cancel) : NoThrow (exec x t i c.shared) := by
  refine tearing_noThrow hi hx t fun d y hs => ?_
  obtain ⟨d',-,hy⟩ := isClosed_of_tearing hi hs
  exact events_open_of_sends h hmem hs hy

/-- A teardown waits for the mutex only. -/
lemma tearing_runs (h : Reachable shutdownTimeout fingerprint TeardownUninterrupted c) {t : TaskId}
    {i : Instr} {rest : List Instr} (head : c.tasks t = i :: rest) (hi : i.tearing = true)
    (hfree : c.shared.runtime.lifecycleMutex = none) :
    ∃ s code, exec .ok t i c.shared = .next s code := by
  have hmem : i ∈ c.tasks t := by simp [head]
  have hthrow := noThrow_of_reachable h hmem hi (x := .ok) (by simp)
  have hwait := waitsFor_exec t i c.shared
  cases ho : exec .ok t i c.shared with
  | next s code => exact ⟨s,code,rfl⟩
  | throw s e =>
    rw [ho] at hthrow
    exact hthrow.elim
  | fork s code u child => exact (exec_ne_fork _ _ _ _ _ _ _ _ ho).elim
  | blocked =>
    rw [ho] at hwait
    obtain ⟨q,y,rfl,hfull⟩ | hlocked | hawaits := hwait
    · obtain ⟨d,rfl,hy⟩ := isClosed_of_tearing hi (.inr rfl)
      have hdue : ClosedDue c d := ⟨t,_,hmem,by simp [Instr.sendsClosed,hy]⟩
      have hroom := (provided_of_reachable h).room d (.inl hdue)
      unfold Full at hfull
      rw [hroom] at hfull
      cases hfull
    · exact absurd hfree hlocked
    · unfold Instr.awaits at hawaits
      split at hawaits <;> first | cases hi | cases hawaits

lemma leavesRoom_of_tearing (h : Reachable shutdownTimeout fingerprint TeardownUninterrupted c)
    {t : TaskId} {i : Instr} {rest : List Instr} (head : c.tasks t = i :: rest)
    (hi : i.tearing = true) (hcov : ∀ d, i = .channel d (.markClosed false) → Covered rest) :
    LeavesRoom c i := by
  unfold LeavesRoom
  split
  · next d =>
    intro hclosed
    have hdoomed : Doomed c d := .inl ⟨t,head ▸ .inl ⟨rfl,hcov d rfl⟩⟩
    exact (provided_of_reachable h).room d (.inr ⟨hclosed,hdoomed⟩)
  · cases hi
  · intro hy
    cases hy.symm.trans hi
  · intro hy
    cases hy.symm.trans hi
  · trivial

/-- One instruction of a teardown is run, once the mutex is free. -/
lemma carries_next (h : Reachable shutdownTimeout fingerprint TeardownUninterrupted c) {t : TaskId}
    {i : Instr} {rest : List Instr} (head : c.tasks t = i :: rest) (hi : i.tearing = true)
    (hcov : ∀ d, i = .channel d (.markClosed false) → Covered rest) :
    ∃ c₁ s code, Carries c c₁ ∧ c₁.tasks t = i :: rest ∧ exec .ok t i c₁.shared = .next s code ∧
      Carries c ⟨s,Function.update c₁.tasks t (code ++ rest)⟩ := by
  obtain ⟨c₁,hc,hfree,hsame⟩ := carries_free (locking_of_reachable h)
  have head₁ := hsame t i rest head (locked_of_tearing hi)
  have h₁ := hc.reachable h
  obtain ⟨s,code,he⟩ := tearing_runs h₁ head₁ hi hfree
  have hroom := leavesRoom_of_tearing h₁ head₁ hi hcov
  exact ⟨c₁,s,code,hc,head₁,he,hc.trans (carries_of_step head₁ hroom (run_next head₁ he))⟩

/-- An instruction of a teardown is run with all it leaves. -/
theorem carries_instr (h : Reachable shutdownTimeout fingerprint TeardownUninterrupted c) {t : TaskId}
    {i : Instr} {rest : List Instr} (head : c.tasks t = i :: rest) (hi : i.tearing = true)
    (hcov : ∀ d, i = .channel d (.markClosed false) → Covered rest) :
    ∃ c', Carries c c' ∧ c'.tasks t = rest := by
  induction hn : i.level using Nat.strong_induction_on generalizing c i rest with
  | _ n ih =>
    have run_code : ∀ (code : List Instr) {c : Config},
        Reachable shutdownTimeout fingerprint TeardownUninterrupted c → c.tasks t = code ++ rest →
        (∀ k ∈ code, k.tearing = true ∧ k.level < n) →
        (∀ d, .channel d (.markClosed false) ∈ code → Covered rest) →
        ∃ c', Carries c c' ∧ c'.tasks t = rest := by
      intro code
      induction code with
      | nil => exact fun {c} _ hcode _ _ => ⟨c,.refl,hcode⟩
      | cons k code ihc =>
        intro c hr hcode hk hm
        have hcov : ∀ d, k = .channel d (.markClosed false) → Covered (code ++ rest) := by
          rintro d rfl
          exact (hm d (by simp)).append fun k hk' => (hk k (by simp [hk'])).1
        obtain ⟨c₁,hc₁,ht₁⟩ := ih k.level (hk k (by simp)).2 hr hcode (hk k (by simp)).1 hcov rfl
        obtain ⟨c₂,hc₂,ht₂⟩ := ihc (hc₁.reachable hr) ht₁ (fun k hk' => hk k (by simp [hk']))
          (fun d hd => hm d (by simp [hd]))
        exact ⟨c₂,hc₁.trans hc₂,ht₂⟩
    obtain ⟨c₁,s,code,hc₁,head₁,he,hc₂⟩ := carries_next h head hi hcov
    have hl := leaves_exec c₁.shared .ok t i
    rw [he] at hl
    obtain ⟨c',hc',ht'⟩ := run_code code (hc₂.reachable h) (by simp)
      (fun k hk => ⟨(tearing_leaves hi (hl k hk)).1,hn ▸ (tearing_leaves hi (hl k hk)).2⟩) (by
        intro d hd
        obtain ⟨p,rfl⟩ := leaves_markClosed hi (hl _ hd)
        have hf := formed_of_reachable (hc₁.reachable h) t
        rw [head₁] at hf
        exact hf.1)
    exact ⟨c',hc₂.trans hc',ht'⟩

/-- What is due can be brought to the front of its coroutine. -/
theorem carries_due (h : Reachable shutdownTimeout fingerprint TeardownUninterrupted c) {t : TaskId}
    {j : Instr} (hd : Due (c.tasks t) j) :
    ∃ c' rest, Carries c c' ∧ c'.tasks t = j :: rest := by
  generalize hcode : c.tasks t = code at hd
  induction hd generalizing c with
  | now j rest => exact ⟨c,rest,.refl,hcode⟩
  | later hk hcov _ ih =>
    obtain ⟨c₁,hc₁,ht₁⟩ := carries_instr h hcode hk hcov
    obtain ⟨c₂,rest,hc₂,ht₂⟩ := ih (hc₁.reachable h) ht₁
    exact ⟨c₂,rest,hc₁.trans hc₂,ht₂⟩

end Progress

end Kestara.Kotlin
