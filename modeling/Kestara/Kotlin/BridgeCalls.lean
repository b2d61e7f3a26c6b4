import Kestara.Kotlin.Budgets
import Kestara.Kotlin.Lifecycle

/-!
# Calls of the native bridge

Closing the runtime submits at most one `closeRuntime`, and completing the shutdown releases
the native runtime at most once: both follow the compare-and-set that only one coroutine wins.
-/
namespace Kestara.Kotlin
open Interleaving

def BridgeCall.isSubmission : BridgeCall → Bool
  | .submit _ _ _ | .refused _ _ _ => true
  | _ => false

def BridgeCall.closesRuntime : BridgeCall → Bool
  | .submit _ .closeRuntime _ | .refused _ .closeRuntime _ => true
  | _ => false

def BridgeCall.releases : BridgeCall → Bool
  | .release => true
  | _ => false

/-- The submission that an instruction has still to hand to the bridge. -/
def SubmitInstr.submission? : SubmitInstr → Option Submission
  | .begin b | .lock _ b | .checkClosed _ b | .checkClosing _ b | .insert _ b | .call _ b => some b
  | .await _ _ => none

/-- The instructions that are going to submit `closeRuntime`. -/
def Instr.closeWeight : Instr → ℕ
  | .submit i => if i.submission?.any (·.request = .closeRuntime) then 1 else 0
  | _ => 0

/-- The instructions that are going to release the native runtime. -/
def Instr.releaseWeight : Instr → ℕ
  | .runtime (.drain _) | .runtime (.release _) => 1
  | _ => 0

namespace Shared

def closeCalls (s : Shared) : ℕ := s.history.calls.countP (·.closesRuntime)

def releaseCalls (s : Shared) : ℕ := s.history.calls.countP (·.releases)

end Shared

/-- Only `close` of the runtime may submit while it is closing. -/
def Instr.guarded : Instr → Prop
  | .submit i => ∀ b ∈ i.submission?, b.allowClosing = true → b.request = .closeRuntime
  | _ => True

/-- What a step does to the calls of the bridge. -/
structure CallStep (s s' : Shared) (i : Instr) (code : List Instr) : Prop where
  close : weight Instr.closeWeight code + s'.closeCalls + s.runtime.closing.toNat ≤
    i.closeWeight + s.closeCalls + s'.runtime.closing.toNat
  release : weight Instr.releaseWeight code + s'.releaseCalls + s.runtime.closed.toNat ≤
    i.releaseWeight + s.releaseCalls + s'.runtime.closed.toNat
  calls : s'.history.calls = s.history.calls ∨ ∃ x, s'.history.calls = s.history.calls ++ [x] ∧
    (x.isSubmission = true → ∃ op b, i = .submit (.call op b)) ∧
    (x.releases = true → ∃ f, i = .runtime (.release f))

/-- Instructions that are not going to call the bridge for the end of the runtime. -/
def Instr.light (j : Instr) : Prop := j.closeWeight = 0 ∧ j.releaseWeight = 0

lemma CallStep.same {s s' : Shared} {i : Instr} {code : List Instr}
    (calls : s'.history.calls = s.history.calls)
    (closing : s.runtime.closing.toNat ≤ s'.runtime.closing.toNat)
    (closed : s.runtime.closed.toNat ≤ s'.runtime.closed.toNat) (hcode : ∀ j ∈ code, j.light) :
    CallStep s s' i code where
  close := by
    rw [weight_eq_zero fun j hj => (hcode j hj).1,Shared.closeCalls,Shared.closeCalls,calls]
    omega
  release := by
    rw [weight_eq_zero fun j hj => (hcode j hj).2,Shared.releaseCalls,Shared.releaseCalls,calls]
    omega
  calls := .inl calls

/-- The same for every way in which a step can end. -/
def Calls (s : Shared) (i : Instr) : Outcome → Prop
  | .next s' code => CallStep s s' i code
  | .throw s' _ => CallStep s s' i []
  | _ => True

section Steps
variable (t : TaskId) (s : Shared)

lemma CallStep.refl (i : Instr) : CallStep s s i [] := .same rfl le_rfl le_rfl (by simp)

lemma calls_execAwait (i : Instr) (r : Option Completion) : Calls s i (execAwait r s) := by
  fun_cases execAwait r s
  · trivial
  · exact .refl s i
  · exact .refl s i

/-- Channels and peers submit requests of their own only. -/
lemma light_leaves {i j : Instr} (h : i.leaves j)
    (hi : (∃ c k, i = .channel c k) ∨ ∃ p k, i = .peer p k) : j.light := by
  obtain ⟨c,k,rfl⟩ | ⟨p,k,rfl⟩ := hi
  · cases j with
    | send | sendSuspended | closeQueue | channel | peer | loop => exact ⟨rfl,rfl⟩
    | submit | runtime =>
      cases k <;> simp [Instr.leaves,ChannelInstr.leaves,DataChannel.closeBody,
        DataChannel.teardown] at h
      all_goals
        obtain ⟨d,rfl⟩ := h
        exact ⟨rfl,rfl⟩
  · cases j with
    | send | sendSuspended | closeQueue | channel | peer | loop => exact ⟨rfl,rfl⟩
    | submit | runtime =>
      cases k <;> simp [Instr.leaves,PeerInstr.leaves,PeerConnection.closeBody,
        PeerConnection.teardown] at h
      all_goals
        try obtain ⟨d,rfl⟩ := h
        try subst h
        exact ⟨rfl,rfl⟩

lemma calls_channel (c : ChannelId) (i : ChannelInstr) :
    Calls s (.channel c i) (DataChannel.exec c i s) := by
  have hl := leaves_channel s c i
  have hlight : ∀ j, (Instr.channel c i).leaves j → j.light :=
    fun j hj => light_leaves hj (.inl ⟨c,i,rfl⟩)
  revert hl
  fun_cases DataChannel.exec c i s <;> intro hl
  case case2 | case8 => exact .refl s _
  case case7 => exact calls_execAwait s _ _
  all_goals exact .same rfl le_rfl le_rfl fun j hj => hlight j (hl j hj)

lemma calls_peer (p : PeerId) (i : PeerInstr) :
    Calls s (.peer p i) (PeerConnection.exec p i s) := by
  have hl := leaves_peer s p i
  have hlight : ∀ j, (Instr.peer p i).leaves j → j.light :=
    fun j hj => light_leaves hj (.inr ⟨p,i,rfl⟩)
  revert hl
  fun_cases PeerConnection.exec p i s <;> intro hl
  case case2 | case9 | case12 => exact .refl s _
  case case8 => exact calls_execAwait s _ _
  case case10 e s' code he =>
    have hcode : ∀ j ∈ code ++ [.peer p (.handled e)], j.light := fun j hj => hlight j (hl j hj)
    cases PeerConnection.handled_of_handleNativeEvent he <;>
      exact .same rfl le_rfl le_rfl hcode
  all_goals exact .same rfl le_rfl le_rfl fun j hj => hlight j (hl j hj)

lemma calls_resume (i : Instr) (r : Resume) (e : NativeEvent) :
    Calls s i (WebRtcRuntime.resume r e s) := by
  fun_cases WebRtcRuntime.resume r e s
  case case3 | case5 | case7 => exact .refl s _
  all_goals exact .same rfl le_rfl le_rfl (by simp [Instr.light,Instr.closeWeight,Instr.releaseWeight])

/-- A step of `submit` that keeps its submission. -/
lemma CallStep.carry {i : SubmitInstr} {j : SubmitInstr} {s' : Shared}
    (calls : s'.history.calls = s.history.calls)
    (closing : s'.runtime.closing = s.runtime.closing)
    (closed : s'.runtime.closed = s.runtime.closed) (hb : j.submission? = i.submission?) :
    CallStep s s' (.submit i) [.submit j] where
  close := by simp [Shared.closeCalls,calls,closing,Instr.closeWeight,hb]
  release := by simp [Shared.releaseCalls,calls,closed,Instr.releaseWeight]
  calls := .inl calls

/-- The call itself, whether it is accepted or refused. -/
lemma CallStep.submitted {op : ℤ} {b : Submission} {s' : Shared} {x : BridgeCall}
    {code : List Instr} (hx : x = .submit op b.request b.target ∨ x = .refused op b.request b.target)
    (calls : s'.history.calls = s.history.calls ++ [x])
    (closing : s'.runtime.closing = s.runtime.closing)
    (closed : s'.runtime.closed = s.runtime.closed) (hcode : ∀ j ∈ code, j.light) :
    CallStep s s' (.submit (.call op b)) code where
  close := by
    have hw : (if x.closesRuntime then 1 else 0) ≤ (Instr.submit (.call op b)).closeWeight := by
      by_cases hr : b.request = .closeRuntime
      · simp only [Instr.closeWeight,SubmitInstr.submission?,Option.any_some,hr,decide_true,
          ↓reduceIte]
        split_ifs <;> omega
      · have hc : x.closesRuntime = false := by
          rcases hx with rfl | rfl
          all_goals
            unfold BridgeCall.closesRuntime
            split
            · simp_all
            · simp_all
            · rfl
        simp [hc]
    rw [weight_eq_zero fun j hj => (hcode j hj).1,Shared.closeCalls,Shared.closeCalls,calls,closing,
      List.countP_append]
    simp only [List.countP_cons,List.countP_nil]
    omega
  release := by
    have hr : x.releases = false := by rcases hx with rfl | rfl <;> rfl
    rw [weight_eq_zero fun j hj => (hcode j hj).2,Shared.releaseCalls,Shared.releaseCalls,calls,closed,
      List.countP_append]
    simp [hr]
  calls := by
    refine .inr ⟨x,calls,fun _ => ⟨op,b,rfl⟩,?_⟩
    intro hr
    rcases hx with rfl | rfl <;> cases hr

lemma calls_submit (i : SubmitInstr) :
    Calls s (.submit i) (WebRtcRuntime.execSubmit t i s) := by
  fun_cases WebRtcRuntime.execSubmit t i s
  case case1 | case12 => exact .refl s _
  case case4 | case6 => exact .same rfl le_rfl le_rfl (by simp)
  case case3 => exact WebRtcRuntime.withLock_of trivial (.carry s rfl rfl rfl rfl)
  case case9 =>
    exact .submitted s (.inl rfl) rfl rfl rfl
      (by simp [Instr.light,Instr.closeWeight,Instr.releaseWeight,SubmitInstr.submission?])
  case case10 => trivial
  case case11 => exact calls_resume s _ _ _
  all_goals exact .carry s rfl rfl rfl rfl

lemma calls_loop (i : LoopInstr) : Calls s (.loop i) (WebRtcRuntime.execLoop i s) := by
  fun_cases WebRtcRuntime.execLoop i s
  case case4 e es _ =>
    refine .same rfl le_rfl le_rfl ?_
    split_ifs <;> simp [Instr.light,Instr.closeWeight,Instr.releaseWeight]
  case case5 e =>
    refine WebRtcRuntime.withLock_of trivial ?_
    split
    · exact .same rfl le_rfl le_rfl (by simp [Instr.light,Instr.closeWeight,Instr.releaseWeight])
    · exact .same rfl le_rfl le_rfl (by simp)
  case case6 e =>
    refine WebRtcRuntime.withLock_of trivial ?_
    split
    · exact .refl s _
    · exact .same rfl le_rfl le_rfl (by simp [Instr.light,Instr.closeWeight,Instr.releaseWeight])
  all_goals
    exact .same rfl le_rfl le_rfl (by simp [Instr.light,Instr.closeWeight,Instr.releaseWeight])

lemma CallStep.released {f : Option Exn} {s' : Shared} {code : List Instr}
    (calls : s'.history.calls = s.history.calls ++ [.release])
    (closing : s'.runtime.closing = s.runtime.closing)
    (closed : s'.runtime.closed = s.runtime.closed) (hcode : ∀ j ∈ code, j.light) :
    CallStep s s' (.runtime (.release f)) code where
  close := by
    rw [weight_eq_zero fun j hj => (hcode j hj).1,Shared.closeCalls,Shared.closeCalls,calls,closing,
      List.countP_append]
    simp [BridgeCall.closesRuntime]
  release := by
    rw [weight_eq_zero fun j hj => (hcode j hj).2,Shared.releaseCalls,Shared.releaseCalls,calls,closed,
      List.countP_append]
    simp only [List.countP_cons,List.countP_nil,BridgeCall.releases,↓reduceIte,Instr.releaseWeight]
    omega
  calls := .inr ⟨.release,calls,by simp [BridgeCall.isSubmission],fun _ => ⟨f,rfl⟩⟩

lemma CallStep.woken {s' : Shared} {i : Instr}
    (calls : s'.history.calls = s.history.calls ++ [.wake])
    (closing : s'.runtime.closing = s.runtime.closing)
    (closed : s'.runtime.closed = s.runtime.closed) : CallStep s s' i [] where
  close := by
    simp [Shared.closeCalls,calls,closing,List.countP_append,BridgeCall.closesRuntime]
  release := by
    simp [Shared.releaseCalls,calls,closed,List.countP_append,BridgeCall.releases]
  calls := .inr ⟨.wake,calls,by simp [BridgeCall.isSubmission],by simp [BridgeCall.releases]⟩

lemma weight_afterDrain (peers : List PeerId) (pending : List ℤ) (f : Option Exn) :
    weight Instr.closeWeight (WebRtcRuntime.afterDrain peers pending f) = 0 ∧
      weight Instr.releaseWeight (WebRtcRuntime.afterDrain peers pending f) = 1 := by
  have hp : ∀ w : Instr → ℕ, (∀ p, w (.peer p .closeForRuntimeShutdown) = 0) →
      weight w (peers.map fun p => .peer p .closeForRuntimeShutdown) = 0 := by
    intro w hw
    apply weight_eq_zero
    simp [hw]
  have ho : ∀ w : Instr → ℕ, (∀ op, w (.runtime (.failOperation op f)) = 0) →
      weight w (pending.map fun op => .runtime (.failOperation op f)) = 0 := by
    intro w hw
    apply weight_eq_zero
    simp [hw]
  constructor
  · simp only [WebRtcRuntime.afterDrain,weight_append]
    rw [hp _ fun _ => rfl,ho _ fun _ => rfl]
    rfl
  · simp only [WebRtcRuntime.afterDrain,weight_append]
    rw [hp _ fun _ => rfl,ho _ fun _ => rfl]
    rfl

lemma calls_runtime (i : RuntimeInstr) :
    Calls s (.runtime i) (WebRtcRuntime.execRuntime t i s) := by
  fun_cases WebRtcRuntime.execRuntime t i s
  case case2 =>
    exact WebRtcRuntime.withLock_of trivial (.same rfl le_rfl le_rfl
      (by simp [Instr.light,Instr.closeWeight,Instr.releaseWeight]))
  case case5 p _ =>
    refine .same rfl le_rfl le_rfl fun j hj => ?_
    rcases List.mem_append.mp hj with hj | hj
    · obtain ⟨e,-,rfl⟩ := List.mem_map.mp hj
      exact ⟨rfl,rfl⟩
    · cases List.mem_singleton.mp hj
      exact ⟨rfl,rfl⟩
  case case7 p _ =>
    refine WebRtcRuntime.withLock_of trivial ?_
    split_ifs
    · exact .same rfl le_rfl le_rfl (by simp)
    · exact .refl s _
  case case9 hc =>
    have hclosing : s.runtime.closing = false := by simpa using hc
    refine ⟨?_,?_,.inl rfl⟩
    · simp [WebRtcRuntime.closeBody,Instr.closeWeight,SubmitInstr.submission?,Shared.closeCalls,
        Shared.setRuntime,hclosing]
      omega
    · simp [WebRtcRuntime.closeBody,Instr.releaseWeight,Shared.releaseCalls,Shared.setRuntime]
  case case11 => exact calls_execAwait s _ _
  case case13 f hc =>
    have hclosed : s.runtime.closed = false := by simpa using hc
    refine ⟨?_,?_,.inl rfl⟩
    · simp [WebRtcRuntime.teardown,Instr.closeWeight,Shared.closeCalls,Shared.setRuntime]
    · simp [WebRtcRuntime.teardown,Instr.releaseWeight,Shared.releaseCalls,Shared.setRuntime,hclosed]
      omega
  case case14 => exact .same rfl (Bool.toNat_le _) le_rfl (by simp)
  case case15 f =>
    refine WebRtcRuntime.withLock_of trivial ?_
    obtain ⟨hc,hr⟩ := weight_afterDrain s.runtime.peers.values s.runtime.operations.values f
    refine ⟨?_,?_,.inl rfl⟩
    · rw [hc]
      simp [Shared.closeCalls,Shared.setRuntime,Shared.record]
    · rw [hr]
      simp [Shared.releaseCalls,Shared.setRuntime,Shared.record,Instr.releaseWeight]
  case case17 => exact .woken s rfl rfl rfl
  case case21 => exact WebRtcRuntime.withLock_of trivial (.same rfl le_rfl le_rfl (by simp))
  case case18 f =>
    exact .released s rfl rfl rfl (by simp [Instr.light,Instr.closeWeight,Instr.releaseWeight])
  all_goals
    exact .same rfl le_rfl le_rfl (by simp [Instr.light,Instr.closeWeight,Instr.releaseWeight])

theorem calls_exec (x : Choice) (i : Instr) : Calls s i (exec x t i s) := by
  cases x with
  | ok =>
    cases i with
    | send q y =>
      simp only [exec,execOk,execSend]
      split_ifs
      · exact .refl s _
      · exact .same rfl le_rfl le_rfl (by simp)
      · exact .same rfl le_rfl le_rfl (by simp [Instr.light,Instr.closeWeight,Instr.releaseWeight])
    | sendSuspended q y =>
      simp only [exec,execOk,execSendSuspended]
      split_ifs
      · exact .same rfl le_rfl le_rfl (by simp)
      · trivial
    | closeQueue q => exact .same rfl le_rfl le_rfl (by simp)
    | channel c i => exact calls_channel s c i
    | peer p i => exact calls_peer s p i
    | submit i => exact calls_submit t s i
    | loop i => exact calls_loop s i
    | runtime i => exact calls_runtime t s i
  | fail message =>
    simp only [exec]
    fun_cases execFail message i s
    case case1 => exact .refl s _
    case case2 => exact .submitted s (.inr rfl) rfl rfl rfl (by simp)
    case case3 => exact .woken s rfl rfl rfl
    case case4 =>
      exact .released s rfl rfl rfl (by simp [Instr.light,Instr.closeWeight,Instr.releaseWeight])
    case case5 => trivial
  | cancel =>
    simp only [exec]
    fun_cases execCancel i s <;> first | exact .refl s _ | trivial

end Steps

end Kestara.Kotlin
