import Kestara.Kotlin.Control

/-!
# Steps that concern the end of the runtime

The closed flag of the runtime is set by the compare-and-set of `completeShutdown` only; what has
been called, cancelled or completed stays so.
-/
namespace Kestara.Kotlin
open Interleaving

structure RuntimeEffect (s s' : Shared) (i : Instr) (code : List Instr) : Prop where
  closed : s'.runtime.closed = s.runtime.closed ∨ ∃ f, i = .runtime (.completeShutdown f) ∧
    s'.runtime.closed = true ∧ code = WebRtcRuntime.teardown f
  scopeActive : s.runtime.scopeActive = false → s'.runtime.scopeActive = false
  completion : s.runtime.closeCompletion.isSome = true → s'.runtime.closeCompletion.isSome = true
  calls : ∀ x ∈ s.history.calls, x ∈ s'.history.calls

def HasRuntimeEffect (s : Shared) (i : Instr) : Outcome → Prop
  | .next s' code => RuntimeEffect s s' i code
  | .throw s' _ => RuntimeEffect s s' i []
  | _ => True

section Steps
variable (t : TaskId) (s : Shared)

lemma RuntimeEffect.same {s s' : Shared} {i : Instr} {code : List Instr}
    (h₁ : s'.runtime.closed = s.runtime.closed)
    (h₂ : s'.runtime.scopeActive = s.runtime.scopeActive)
    (h₃ : s'.runtime.closeCompletion = s.runtime.closeCompletion)
    (h₄ : s'.history.calls = s.history.calls) : RuntimeEffect s s' i code :=
  ⟨.inl h₁,by simp [h₂],by simp [h₃],by simp [h₄]⟩

lemma runtimeEffect_execAwait (i : Instr) (r : Option Completion) :
    HasRuntimeEffect s i (execAwait r s) := by
  fun_cases execAwait r s
  · trivial
  · exact .same rfl rfl rfl rfl
  · exact .same rfl rfl rfl rfl

lemma runtimeEffect_channel (c : ChannelId) (i : ChannelInstr) :
    HasRuntimeEffect s (.channel c i) (DataChannel.exec c i s) := by
  fun_cases DataChannel.exec c i s
  case case7 => exact runtimeEffect_execAwait s _ _
  all_goals exact .same rfl rfl rfl rfl

lemma runtimeEffect_peer (p : PeerId) (i : PeerInstr) :
    HasRuntimeEffect s (.peer p i) (PeerConnection.exec p i s) := by
  fun_cases PeerConnection.exec p i s
  case case8 => exact runtimeEffect_execAwait s _ _
  case case10 e s' code he =>
    cases PeerConnection.handled_of_handleNativeEvent he <;> exact .same rfl rfl rfl rfl
  all_goals exact .same rfl rfl rfl rfl

lemma runtimeEffect_resume (i : Instr) (r : Resume) (e : NativeEvent) :
    HasRuntimeEffect s i (WebRtcRuntime.resume r e s) := by
  fun_cases WebRtcRuntime.resume r e s
  all_goals exact .same rfl rfl rfl rfl

lemma runtimeEffect_submit (i : SubmitInstr) :
    HasRuntimeEffect s (.submit i) (WebRtcRuntime.execSubmit t i s) := by
  fun_cases WebRtcRuntime.execSubmit t i s
  case case3 => exact WebRtcRuntime.withLock_of trivial (.same rfl rfl rfl rfl)
  case case9 => exact ⟨.inl rfl,id,id,fun x hx => List.mem_append_left _ hx⟩
  case case10 => trivial
  case case11 => exact runtimeEffect_resume s _ _ _
  all_goals exact .same rfl rfl rfl rfl

lemma runtimeEffect_loop (i : LoopInstr) :
    HasRuntimeEffect s (.loop i) (WebRtcRuntime.execLoop i s) := by
  fun_cases WebRtcRuntime.execLoop i s
  case case5 | case6 =>
    refine WebRtcRuntime.withLock_of trivial ?_
    split <;> exact .same rfl rfl rfl rfl
  all_goals exact .same rfl rfl rfl rfl

lemma runtimeEffect_runtime (i : RuntimeInstr) :
    HasRuntimeEffect s (.runtime i) (WebRtcRuntime.execRuntime t i s) := by
  fun_cases WebRtcRuntime.execRuntime t i s
  case case2 | case15 | case21 => exact WebRtcRuntime.withLock_of trivial (.same rfl rfl rfl rfl)
  case case7 =>
    refine WebRtcRuntime.withLock_of trivial ?_
    split_ifs <;> exact .same rfl rfl rfl rfl
  case case11 => exact runtimeEffect_execAwait s _ _
  case case13 f _ => exact ⟨.inr ⟨f,rfl,rfl,rfl⟩,id,id,fun x hx => hx⟩
  case case17 | case18 => exact ⟨.inl rfl,id,id,fun x hx => List.mem_append_left _ hx⟩
  case case19 => exact ⟨.inl rfl,fun _ => rfl,id,fun x hx => hx⟩
  case case20 => exact ⟨.inl rfl,id,fun _ => rfl,fun x hx => hx⟩
  all_goals exact .same rfl rfl rfl rfl

theorem runtimeEffect_exec (x : Choice) (i : Instr) : HasRuntimeEffect s i (exec x t i s) := by
  cases x with
  | ok =>
    cases i with
    | send q y =>
      simp only [exec,execOk,execSend]
      split_ifs <;> exact .same rfl rfl rfl rfl
    | sendSuspended q y =>
      simp only [exec,execOk,execSendSuspended]
      split_ifs
      · exact .same rfl rfl rfl rfl
      · trivial
    | closeQueue q => exact .same rfl rfl rfl rfl
    | channel c i => exact runtimeEffect_channel s c i
    | peer p i => exact runtimeEffect_peer s p i
    | submit i => exact runtimeEffect_submit t s i
    | loop i => exact runtimeEffect_loop s i
    | runtime i => exact runtimeEffect_runtime t s i
  | fail message =>
    simp only [exec]
    fun_cases execFail message i s
    case case1 => exact .same rfl rfl rfl rfl
    case case2 | case3 | case4 =>
      exact ⟨.inl rfl,id,id,fun x hx => List.mem_append_left _ hx⟩
    case case5 => trivial
  | cancel =>
    simp only [exec]
    fun_cases execCancel i s
    case case18 => trivial
    all_goals exact .same rfl rfl rfl rfl

end Steps

end Kestara.Kotlin
