import Kestara.Kotlin.Control

/-!
# Steps that concern objects

The instructions of `submit`, of the event loop and of the runtime leave channels, peers and
their queues alone, except that a new peer may be constructed; so does every exception.
-/
namespace Kestara.Kotlin
open Interleaving

def Instr.isSystem : Instr → Bool
  | .submit _ | .loop _ | .runtime _ => true
  | _ => false

/-- The same channels and peers, with the same queues. -/
structure SameObjects (s s' : Shared) : Prop where
  channel : s'.channel = s.channel
  nextChannel : s'.nextChannel = s.nextChannel
  peer : s'.peer = s.peer
  nextPeer : s'.nextPeer = s.nextPeer
  queue : s'.queue = s.queue
  knownChannels : s'.knownChannels = s.knownChannels
  put : s'.history.put = s.history.put
  channelStarted : s'.history.channelStarted = s.history.channelStarted

lemma SameObjects.refl (s : Shared) : SameObjects s s := ⟨rfl,rfl,rfl,rfl,rfl,rfl,rfl,rfl⟩

/-- What a step of the system does to the objects. -/
def ObjectsKept (s : Shared) : Outcome → Prop
  | .next s' code => SameObjects s s' ∨ ∃ handle capacity timeout,
      s' = s.newPeer handle capacity timeout ∧ code = [.runtime (.registerLock s.nextPeer)]
  | .throw s' _ => SameObjects s s'
  | _ => True

section Steps
variable (t : TaskId) (s : Shared)

lemma objects_execAwait (r : Option Completion) : ObjectsKept s (execAwait r s) := by
  fun_cases execAwait r s
  · trivial
  · exact .inl (.refl s)
  · exact .refl s

lemma objects_resume (r : Resume) (e : NativeEvent) : ObjectsKept s (WebRtcRuntime.resume r e s) := by
  fun_cases WebRtcRuntime.resume r e s
  case case3 | case5 | case7 => exact .refl s
  case case8 => exact .inr ⟨_,_,_,rfl,rfl⟩
  all_goals exact .inl (.refl s)

lemma objects_submit (i : SubmitInstr) : ObjectsKept s (WebRtcRuntime.execSubmit t i s) := by
  fun_cases WebRtcRuntime.execSubmit t i s
  case case1 | case12 => exact .refl s
  case case4 | case6 => exact ⟨rfl,rfl,rfl,rfl,rfl,rfl,rfl,rfl⟩
  case case3 => exact WebRtcRuntime.withLock_of trivial (.inl ⟨rfl,rfl,rfl,rfl,rfl,rfl,rfl,rfl⟩)
  case case10 => trivial
  case case11 => exact objects_resume s _ _
  all_goals exact .inl ⟨rfl,rfl,rfl,rfl,rfl,rfl,rfl,rfl⟩

lemma objects_loop (i : LoopInstr) : ObjectsKept s (WebRtcRuntime.execLoop i s) := by
  fun_cases WebRtcRuntime.execLoop i s
  case case5 | case6 =>
    refine WebRtcRuntime.withLock_of trivial ?_
    split <;> exact .inl ⟨rfl,rfl,rfl,rfl,rfl,rfl,rfl,rfl⟩
  all_goals exact .inl ⟨rfl,rfl,rfl,rfl,rfl,rfl,rfl,rfl⟩

lemma objects_runtime (i : RuntimeInstr) : ObjectsKept s (WebRtcRuntime.execRuntime t i s) := by
  fun_cases WebRtcRuntime.execRuntime t i s
  case case2 | case15 | case21 =>
    exact WebRtcRuntime.withLock_of trivial (.inl ⟨rfl,rfl,rfl,rfl,rfl,rfl,rfl,rfl⟩)
  case case3 => exact ⟨rfl,rfl,rfl,rfl,rfl,rfl,rfl,rfl⟩
  case case7 =>
    refine WebRtcRuntime.withLock_of trivial (.inl ?_)
    split_ifs <;> exact ⟨rfl,rfl,rfl,rfl,rfl,rfl,rfl,rfl⟩
  case case11 => exact objects_execAwait s _
  all_goals exact .inl ⟨rfl,rfl,rfl,rfl,rfl,rfl,rfl,rfl⟩

end Steps

/-- The instructions of the system keep the objects. -/
theorem objects_of_system {x : Choice} {t : TaskId} {i : Instr} {s s' : Shared}
    {code : List Instr} (hi : i.isSystem = true) (h : exec x t i s = .next s' code) :
    SameObjects s s' ∨ ∃ handle capacity timeout, s' = s.newPeer handle capacity timeout ∧
      code = [.runtime (.registerLock s.nextPeer)] := by
  have hkept : ObjectsKept s (exec x t i s) := by
    cases x with
    | ok =>
      cases i with
      | send | sendSuspended | closeQueue | channel | peer => cases hi
      | submit i => exact objects_submit t s i
      | loop i => exact objects_loop s i
      | runtime i => exact objects_runtime t s i
    | fail message =>
      simp only [exec]
      fun_cases execFail message i s
      case case1 => exact .refl s
      case case2 => exact ⟨rfl,rfl,rfl,rfl,rfl,rfl,rfl,rfl⟩
      case case5 => trivial
      all_goals exact .inl ⟨rfl,rfl,rfl,rfl,rfl,rfl,rfl,rfl⟩
    | cancel =>
      simp only [exec]
      fun_cases execCancel i s <;> first | exact .refl s | trivial
  rwa [h] at hkept

lemma throws_execAwait {r : Option Completion} {s s' : Shared} {e : Exn}
    (h : execAwait r s = .throw s' e) : s' = s := by
  unfold execAwait at h
  split at h <;> cases h
  rfl

/-- An object's own instruction throws before it has changed anything. -/
lemma execOk_throw {t : TaskId} {i : Instr} {s s' : Shared} {e : Exn} (hi : i.isSystem = false)
    (h : execOk t i s = .throw s' e) : s' = s := by
  cases i with
  | submit | loop | runtime => cases hi
  | send q y =>
    simp only [execOk,execSend] at h
    split_ifs at h
    cases h
    rfl
  | sendSuspended q y =>
    simp only [execOk,execSendSuspended] at h
    split_ifs at h
  | closeQueue q => cases h
  | channel c i =>
    simp only [execOk] at h
    revert h
    fun_cases DataChannel.exec c i s <;> intro h
    case case7 => exact throws_execAwait h
    all_goals cases h
    all_goals rfl
  | peer p i =>
    simp only [execOk] at h
    revert h
    fun_cases PeerConnection.exec p i s <;> intro h
    case case8 => exact throws_execAwait h
    all_goals cases h
    all_goals rfl

/-- An exception leaves the objects as they are. -/
theorem objects_of_throw {x : Choice} {t : TaskId} {i : Instr} {s s' : Shared} {e : Exn}
    (h : exec x t i s = .throw s' e) : SameObjects s s' := by
  cases x with
  | ok =>
    by_cases hi : i.isSystem = true
    · have hkept : ObjectsKept s (execOk t i s) := by
        cases i with
        | send | sendSuspended | closeQueue | channel | peer => cases hi
        | submit i => exact objects_submit t s i
        | loop i => exact objects_loop s i
        | runtime i => exact objects_runtime t s i
      simp only [exec] at h
      rwa [h] at hkept
    · rw [execOk_throw (by simpa using hi) h]
      exact .refl s
  | fail message =>
    simp only [exec] at h
    revert h
    fun_cases execFail message i s <;> intro h <;> cases h
    · exact .refl s
    · exact ⟨rfl,rfl,rfl,rfl,rfl,rfl,rfl,rfl⟩
  | cancel =>
    simp only [exec] at h
    revert h
    fun_cases execCancel i s <;> intro h <;> cases h
    all_goals exact .refl s

/-- An object's own instruction is no external call, and a cancellation only throws. -/
lemma execOk_of_object {x : Choice} {t : TaskId} {i : Instr} {s s' : Shared} {code : List Instr}
    (hi : i.isSystem = false) (h : exec x t i s = .next s' code) : execOk t i s = .next s' code := by
  cases x with
  | ok => exact h
  | fail message =>
    simp only [exec] at h
    fun_cases execFail message i s
    case case1 | case2 | case3 | case4 => cases hi
    case case5 hf =>
      rw [execFail] at h
      cases h
      all_goals assumption
  | cancel =>
    simp only [exec] at h
    revert h
    fun_cases execCancel i s <;> intro h <;> cases h

end Kestara.Kotlin
