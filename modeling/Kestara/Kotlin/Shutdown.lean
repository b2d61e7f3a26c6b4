import Kestara.Kotlin.Accounting

/-!
# Shutdown of the runtime

What `completeShutdown` has started it finishes, provided that its coroutine is not cancelled:
nothing it runs between its compare-and-set and its end can throw.
-/
namespace Kestara.Kotlin
open Interleaving

/-- The instructions of `completeShutdown` after its compare-and-set. -/
def Instr.inShutdown : Instr → Bool
  | .runtime .setClosing | .runtime (.drain _) | .runtime (.failOperation _ _) | .runtime .wake
  | .runtime (.release _) | .runtime .cancelScope | .runtime (.complete _) => true
  | _ => false

/-- No cancellation takes effect in the coroutine that runs `completeShutdown`. -/
def ShutdownUncancelled (l : Label) (c : Config) : Prop :=
  ∀ t u, l = .interrupt t u → ∀ j ∈ c.tasks t, j.inShutdown = false

/-- The instructions that run on behalf of `completeShutdown`. -/
def Instr.quiet : Instr → Bool
  | .closeQueue _ => true
  | .channel _ (.markClosed b) | .peer _ (.markClosed b) | .peer _ (.takeChannels b) => b
  | .channel _ (.setState _) | .channel _ .setClosing | .channel _ .onTerminal
  | .channel _ (.complete _) => true
  | .peer _ .closeForRuntimeShutdown | .peer _ .setClosing | .peer _ (.setState _)
  | .peer _ (.setSignalingState _) | .peer _ (.complete _) | .peer _ (.unregisterDataChannel _) => true
  | .runtime (.unregisterPeer _) => true
  | i => i.inShutdown

lemma quiet_of_inShutdown {i : Instr} (h : i.inShutdown = true) : i.quiet = true := by
  unfold Instr.inShutdown at h
  split at h <;> first | rfl | cases h

lemma quiet_leaves {i j : Instr} (hi : i.quiet = true) (h : i.leaves j) : j.quiet = true := by
  cases i with
  | send q x => cases hi
  | sendSuspended q x => cases hi
  | closeQueue q => cases h
  | channel c i =>
    cases i
    case markClosed b =>
      obtain rfl : b = true := hi
      have : ∀ j ∈ DataChannel.teardown c true, j.quiet = true := by
        simp [DataChannel.teardown,Instr.quiet]
      exact this j h
    case onTerminal =>
      obtain ⟨p,handle,rfl⟩ := h
      rfl
    all_goals first | (cases hi; done) | cases h
  | peer p i =>
    cases i
    case closeForRuntimeShutdown => rcases h with rfl | rfl <;> rfl
    case markClosed b =>
      obtain rfl : b = true := hi
      have : ∀ j ∈ PeerConnection.teardown p true, j.quiet = true := by
        simp [PeerConnection.teardown,Instr.quiet]
      exact this j h
    case takeChannels b =>
      obtain rfl : b = true := hi
      obtain ⟨c,rfl⟩ := h
      rfl
    all_goals first | (cases hi; done) | cases h
  | submit i => cases hi
  | loop i => cases hi
  | runtime i =>
    cases i
    case drain f =>
      obtain ⟨peers,pending,h⟩ := h
      simp only [WebRtcRuntime.afterDrain,List.mem_append,List.mem_map,List.mem_cons,
        List.not_mem_nil,or_false] at h
      rcases h with (⟨p,-,rfl⟩ | ⟨op,-,rfl⟩) | rfl | rfl <;> rfl
    case release f =>
      rcases h with rfl | ⟨f,rfl⟩ <;> rfl
    all_goals first | (cases hi; done) | cases h

/-- The rest of `completeShutdown` is left by `completeShutdown` only. -/
lemma inShutdown_leaves {i j : Instr} (h : i.leaves j) (hj : j.inShutdown = true) :
    i.inShutdown = true ∨ ∃ f, i = .runtime (.completeShutdown f) := by
  obtain ⟨k,rfl⟩ : ∃ k, j = .runtime k := by cases j <;> first | cases hj | exact ⟨_,rfl⟩
  cases i with
  | send q x => cases h
  | sendSuspended q x => cases h
  | closeQueue q => cases h
  | channel c i =>
    cases i <;> simp [Instr.leaves,ChannelInstr.leaves,DataChannel.closeBody,
      DataChannel.teardown] at h
  | peer p i =>
    cases i <;> simp [Instr.leaves,PeerInstr.leaves,PeerConnection.closeBody,
      PeerConnection.teardown] at h
    subst h
    cases hj
  | submit i =>
    cases i <;> simp [Instr.leaves,SubmitInstr.leaves] at h
    case await op r =>
      cases r <;> simp [Resume.leaves] at h
      all_goals
        obtain ⟨_,rfl⟩ := h
        cases hj
  | loop i =>
    cases i <;> simp [Instr.leaves,LoopInstr.leaves] at h
    subst h
    cases hj
  | runtime i =>
    cases i
    case completeShutdown f => exact .inr ⟨f,rfl⟩
    case close =>
      simp [Instr.leaves,RuntimeInstr.leaves,WebRtcRuntime.closeBody] at h
      rcases h with rfl | ⟨-,rfl | rfl | rfl⟩ <;> cases hj
    case registerPeer p =>
      simp [Instr.leaves,RuntimeInstr.leaves] at h
      subst h
      cases hj
    case registerLock p | registerCheck p =>
      cases h
      cases hj
    case catchClose =>
      obtain ⟨e,he⟩ := h
      cases he
      cases hj
    all_goals first | exact .inl rfl | cases h

lemma completeShutdown_leaves {f : Option Exn} {j : Instr}
    (h : (Instr.runtime (.completeShutdown f)).leaves j) : j.quiet = true := by
  have : ∀ j ∈ WebRtcRuntime.teardown f, j.quiet = true := by
    simp [WebRtcRuntime.teardown,Instr.quiet,Instr.inShutdown]
  exact this j h

/-- Quiet code does not throw, unless it is cancelled. -/
def NoThrow : Outcome → Prop
  | .throw _ _ => False
  | _ => True

lemma quiet_noThrow {i : Instr} (hi : i.quiet = true) {x : Choice} (hx : x ≠ .cancel) (t : TaskId)
    (s : Shared) : NoThrow (exec x t i s) := by
  cases x with
  | ok =>
    cases i with
    | send q y => cases hi
    | sendSuspended q y => cases hi
    | closeQueue q => trivial
    | channel c i =>
      simp only [exec,execOk]
      fun_cases DataChannel.exec c i s <;> cases hi <;> trivial
    | peer p i =>
      simp only [exec,execOk]
      fun_cases PeerConnection.exec p i s <;> cases hi <;> trivial
    | submit i => cases hi
    | loop i => cases hi
    | runtime i =>
      simp only [exec,execOk]
      fun_cases WebRtcRuntime.execRuntime t i s
      case case7 | case15 => exact WebRtcRuntime.withLock_of trivial trivial
      all_goals cases hi <;> trivial
  | fail message =>
    simp only [exec]
    fun_cases execFail message i s <;> first | cases hi | trivial
    all_goals trivial
  | cancel => exact (hx rfl).elim

/-- Everything a coroutine has to do before it finishes `completeShutdown` is quiet. -/
def Shielded (c : Config) : Prop :=
  ∀ t, (c.tasks t).Pairwise fun k j => j.inShutdown = true → k.quiet = true

lemma inShutdown_afterThrow {e : Exn} {l : List Instr} (h : ∀ j ∈ l, j.inShutdown = false) :
    ∀ j ∈ afterThrow e l, j.inShutdown = false := by
  refine forall_afterThrow h fun i code hc j hj => ?_
  obtain rfl | ⟨c,rfl | rfl⟩ | ⟨p,rfl | rfl⟩ | rfl := mem_handler hc hj <;> rfl

section Step
variable {l : Label} {x : Choice} {t : TaskId} {c c' : Config}

/-- No exception passes through `completeShutdown`. -/
lemma not_inShutdown_of_throw (h : Shielded c) (hok : ShutdownUncancelled l c)
    (hl : l.scheduled = some (t,x)) {i : Instr} {rest : List Instr} {s : Shared} {e : Exn}
    (head : c.tasks t = i :: rest) (he : exec x t i c.shared = .throw s e) :
    ∀ j ∈ c.tasks t, j.inShutdown = false := by
  intro j hj
  by_cases hx : x = .cancel
  · subst hx
    obtain ⟨u,hlab⟩ : ∃ u, l = .interrupt t u := by
      cases l <;> simp [Label.scheduled] at hl
      exact ⟨_,by rw [hl]⟩
    exact hok t u hlab j hj
  · rw [Bool.eq_false_iff]
    intro hs
    have hpair := h t
    rw [head,List.pairwise_cons] at hpair
    have hq : i.quiet = true := by
      rw [head] at hj
      rcases List.mem_cons.mp hj with rfl | hj
      · exact quiet_of_inShutdown hs
      · exact hpair.1 j hj hs
    have hno := quiet_noThrow hq hx t c.shared
    rw [he] at hno
    exact hno

lemma Shielded.task (h : Shielded c) (hok : ShutdownUncancelled l c)
    (hl : l.scheduled = some (t,x)) (hs : TaskStep x t c c') : Shielded c' := by
  intro t'
  cases hs with
  | @next i rest s code head he =>
    by_cases ht : t' = t
    · subst ht
      simp only [Function.update_self]
      have hpair := h t'
      rw [head,List.pairwise_cons] at hpair
      have hleaves := leaves_exec c.shared x t' i
      rw [he] at hleaves
      have hquiet : ∀ j ∈ code, j.inShutdown = true → ∀ k ∈ code, k.quiet = true := by
        intro j hj hjs k hk
        rcases inShutdown_leaves (hleaves j hj) hjs with hq | ⟨f,rfl⟩
        · exact quiet_leaves (quiet_of_inShutdown hq) (hleaves k hk)
        · exact completeShutdown_leaves (hleaves k hk)
      refine List.pairwise_append.mpr ⟨?_,hpair.2,?_⟩
      · exact List.pairwise_of_forall_mem_list fun k hk j hj hjs => hquiet j hj hjs k hk
      · exact fun k hk j hj hjs => quiet_leaves (hpair.1 j hj hjs) (hleaves k hk)
    · simp only [Function.update_of_ne ht]
      exact h t'
  | @throw i rest s e head he =>
    by_cases ht : t' = t
    · subst ht
      simp only [Function.update_self]
      have hrest : ∀ j ∈ rest, j.inShutdown = false :=
        fun j hj => not_inShutdown_of_throw h hok hl head he j (by simp [head,hj])
      have hno := inShutdown_afterThrow (e := e) hrest
      refine List.pairwise_of_forall_mem_list fun k _ j hj hjs => ?_
      rw [hno j hj] at hjs
      cases hjs
    · simp only [Function.update_of_ne ht]
      exact h t'

/-- An instruction of `completeShutdown` stays pending until it is run. -/
lemma Shielded.persists (h : Shielded c) (hok : ShutdownUncancelled l c)
    (hl : l.scheduled = some (t,x)) (hs : TaskStep x t c c') {u : TaskId} {j : Instr}
    (hj : j ∈ c.tasks u) (hsd : j.inShutdown = true) :
    j ∈ c'.tasks u ∨ ∃ s code, exec x t j c.shared = .next s code ∧ c'.shared = s := by
  cases hs with
  | @next i rest s code head he =>
    by_cases ht : u = t
    · subst ht
      rw [head] at hj
      rcases List.mem_cons.mp hj with rfl | hj
      · exact .inr ⟨s,code,he,rfl⟩
      · exact .inl (by simp [hj])
    · exact .inl (by simpa only [Function.update_of_ne ht] using hj)
  | @throw i rest s e head he =>
    by_cases ht : u = t
    · subst ht
      rw [not_inShutdown_of_throw h hok hl head he j hj] at hsd
      cases hsd
    · exact .inl (by simpa only [Function.update_of_ne ht] using hj)

end Step
end Kestara.Kotlin
