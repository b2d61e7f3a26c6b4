import Kestara.Kotlin.Control

/-!
# Steps that concern operations

Everything else a coroutine does leaves the operations, the mutex and the lifecycle flags of
the runtime as they are.
-/
namespace Kestara.Kotlin
open Interleaving

def SubmitInstr.isOp : SubmitInstr → Bool
  | .begin _ => false
  | _ => true

def LoopInstr.isOp : LoopInstr → Bool
  | .takeOperation _ | .resolve _ _ | .failed _ => true
  | _ => false

def RuntimeInstr.isOp : RuntimeInstr → Bool
  | .registerCheck _ | .registerPeer _ | .completeShutdown _ | .drain _ | .failOperation _ _ => true
  | _ => false

/-- The instructions that hold a claim on an operation, on the mutex or on the shutdown. -/
def Instr.isOp : Instr → Bool
  | .submit i => i.isOp
  | .loop i => i.isOp
  | .runtime i => i.isOp
  | _ => false

/-- The instructions inside the bodies under `lifecycleMutex` that take several steps. -/
def Instr.locked : Instr → Bool
  | .submit (.checkClosed _ _) | .submit (.checkClosing _ _) | .submit (.insert _ _)
  | .submit (.call _ _) | .runtime (.registerCheck _) | .runtime (.registerPeer _) => true
  | _ => false

/-- The instructions that settle what they claim, whatever the state is. -/
def Instr.committed : Instr → Bool
  | .loop (.resolve _ _) | .runtime (.failOperation _ _) | .runtime (.drain _) => true
  | i => i.locked

/-- The instructions that keep the event loop going, or start the shutdown, while the runtime
is open. -/
def Instr.lively : Instr → Bool
  | .loop .head | .loop (.failed _) | .runtime (.completeShutdown _) => true
  | _ => false

def Live (s : Shared) : Prop := s.runtime.closed = false ∧ s.runtime.scopeActive = true

/-- The same operations, mutex and lifecycle; peers may have been unregistered. -/
structure SameOps (s s' : Shared) : Prop where
  mutex : s'.runtime.lifecycleMutex = s.runtime.lifecycleMutex
  operations : s'.runtime.operations = s.runtime.operations
  nextOperation : s'.runtime.nextOperation = s.runtime.nextOperation
  closed : s'.runtime.closed = s.runtime.closed
  scopeActive : s'.runtime.scopeActive = s.runtime.scopeActive
  peers : s.runtime.peers = ∅ → s'.runtime.peers = ∅
  deferred : s'.deferred = s.deferred
  submitter : s'.history.submitter = s.history.submitter
  inserted : s'.history.inserted = s.history.inserted
  before : s'.history.before = s.history.before
  taken : s'.history.taken = s.history.taken
  drained : s'.history.drained = s.history.drained

lemma SameOps.refl (s : Shared) : SameOps s s := by constructor <;> simp

open WebRtcRuntime in
/-- What a step does to the operations of the runtime. -/
inductive OpStep (t : TaskId) (s : Shared) : Instr → Outcome → Prop
  | other {i s' code} (hi : i.committed = false) (hlive : Live s → i.lively = false)
      (same : SameOps s s') (hcode : ∀ j ∈ code, j.isOp = false) : OpStep t s i (.next s' code)
  | otherThrow {i e} (hi : i.committed = false) (hlive : i.lively = false) :
      OpStep t s i (.throw s e)
  | drainCancelled (f e) : OpStep t s (.runtime (.drain f)) (.throw s e)
  | head (live : Live s) : OpStep t s (.loop .head) (.next s [.loop .poll,.loop .head])
  | begin (b) :
      OpStep t s (.submit (.begin b))
        (.next ((s.setRuntime fun r => { r with nextOperation := r.nextOperation+1 }).record fun h =>
          { h with submitter := Function.update h.submitter s.runtime.nextOperation (some t) })
          [.submit (.lock s.runtime.nextOperation b)])
  | lock (op b) (free : s.runtime.lifecycleMutex = none) :
      OpStep t s (.submit (.lock op b))
        (.next (s.setRuntime fun r => { r with lifecycleMutex := some t }) [.submit (.checkClosed op b)])
  | refused (op b e) : OpStep t s (.submit (.checkClosed op b)) (.throw (unlock s) e)
  | checkClosed (op b) (open_ : s.runtime.closed = false) :
      OpStep t s (.submit (.checkClosed op b)) (.next s [.submit (.checkClosing op b)])
  | refusedClosing (op b e) : OpStep t s (.submit (.checkClosing op b)) (.throw (unlock s) e)
  | checkClosing (op b) :
      OpStep t s (.submit (.checkClosing op b)) (.next s [.submit (.insert op b)])
  | insert (op b) :
      OpStep t s (.submit (.insert op b))
        (.next ((s.setRuntime fun r => { r with operations := r.operations.insert op op }).record
          fun h => { h with inserted := h.inserted ++ [op], before := s.runtime.operations })
          [.submit (.call op b)])
  | call (op b) :
      OpStep t s (.submit (.call op b))
        (.next ((unlock s).record fun h =>
          { h with calls := h.calls ++ [.submit op b.request b.target] })
          [.submit (.await op b.resume)])
  | submissionFails (op b m) : OpStep t s (.submit (.call op b)) (submissionFails op b m s)
  | registerLock (p) (free : s.runtime.lifecycleMutex = none) :
      OpStep t s (.runtime (.registerLock p))
        (.next (s.setRuntime fun r => { r with lifecycleMutex := some t }) [.runtime (.registerCheck p)])
  | registerRefused (p e) : OpStep t s (.runtime (.registerCheck p)) (.throw (unlock s) e)
  | registerCheck (p) (open_ : s.runtime.closed = false) :
      OpStep t s (.runtime (.registerCheck p)) (.next s [.runtime (.registerPeer p)])
  | registerPeer (p code) (hcode : ∀ j ∈ code, j.isOp = false) :
      OpStep t s (.runtime (.registerPeer p))
        (.next ((unlock s).setRuntime fun r =>
          { r with peers := r.peers.insert (s.peer p).handle p
                   queuedPeerEvents := r.queuedPeerEvents.erase (s.peer p).handle }) code)
  | poll {s'} (e) (hk : e.kind? = some .operationComplete) (same : SameOps s s') :
      OpStep t s (.loop .poll) (.next s' [.loop (.takeOperation e)])
  | take (e op) (free : s.runtime.lifecycleMutex = none)
      (found : s.runtime.operations.lookup e.operationHandle = some op) :
      OpStep t s (.loop (.takeOperation e))
        (.next ((s.setRuntime fun r => { r with operations := r.operations.erase e.operationHandle }).record
          fun h => { h with taken := h.taken ++ [(op,.completion e)] }) [.loop (.resolve op e)])
  | resolve (op e) :
      OpStep t s (.loop (.resolve op e)) (.next (s.completeOperation op (completionResult e)) [])
  | failed (e) (open_ : s.runtime.closed = false) :
      OpStep t s (.loop (.failed e)) (.next s [.runtime (.completeShutdown (some e))])
  | close (code) (hcode : ∀ j ∈ code, j.isOp = true → ∃ f, j = .runtime (.completeShutdown f)) {s'}
      (same : SameOps s s') :
      OpStep t s (.runtime .close) (.next s' code)
  | completeShutdown (f) (open_ : s.runtime.closed = false) :
      OpStep t s (.runtime (.completeShutdown f))
        (.next (s.setRuntime fun r => { r with closed := true }) (teardown f))
  | drain (f) (free : s.runtime.lifecycleMutex = none) :
      OpStep t s (.runtime (.drain f))
        (.next ((s.setRuntime fun r =>
          { r with peers := ∅, queuedPeerEvents := ∅, operations := ∅ }).record fun h =>
          { h with taken := h.taken ++ s.runtime.operations.values.map (fun op => (op,.drain))
                   drained := true })
          (afterDrain s.runtime.peers.values s.runtime.operations.values f))
  | failOperation (op f) :
      OpStep t s (.runtime (.failOperation op f))
        (.next (s.completeOperation op (.failed (f.getD
          (.illegalState "WebRtcRuntime closed before the operation completed")))) [])
  | cancelScope :
      OpStep t s (.runtime .cancelScope)
        (.next (s.setRuntime fun r => { r with scopeActive := false }) [])

/-- Every outcome other than waiting is one of these. -/
def IsOpStep (t : TaskId) (s : Shared) (i : Instr) (o : Outcome) : Prop :=
  o = .blocked ∨ OpStep t s i o

section Steps
variable (t : TaskId) (s : Shared)

lemma opStep_execAwait {i : Instr} (hi : i.committed = false) (hl : i.lively = false)
    (r : Option Completion) : IsOpStep t s i (execAwait r s) := by
  fun_cases execAwait r s
  · exact .inl rfl
  · exact .inr (.other hi (fun _ => hl) (.refl s) (by simp))
  · exact .inr (.otherThrow hi hl)

omit t s in
/-- Channels and peers start submissions, but hold no claims themselves. -/
lemma isOp_leaves {i j : Instr} (h : i.leaves j)
    (hi : (∃ c k, i = .channel c k) ∨ ∃ p k, i = .peer p k) : j.isOp = false := by
  rw [Bool.eq_false_iff]
  intro hj
  obtain ⟨c,k,rfl⟩ | ⟨p,k,rfl⟩ := hi
  · cases j with
    | send | sendSuspended | closeQueue | channel | peer => cases hj
    | submit | loop | runtime =>
      cases k <;> simp [Instr.leaves,ChannelInstr.leaves,DataChannel.closeBody,
        DataChannel.teardown] at h
      all_goals
        obtain ⟨d,rfl⟩ := h
        cases hj
  · cases j with
    | send | sendSuspended | closeQueue | channel | peer => cases hj
    | submit | loop | runtime =>
      cases k <;> simp [Instr.leaves,PeerInstr.leaves,PeerConnection.closeBody,
        PeerConnection.teardown] at h
      all_goals
        try obtain ⟨d,rfl⟩ := h
        try subst h
        cases hj

lemma opStep_channel (c : ChannelId) (i : ChannelInstr) :
    IsOpStep t s (.channel c i) (DataChannel.exec c i s) := by
  have hl := leaves_channel s c i
  have hop : ∀ j, (Instr.channel c i).leaves j → j.isOp = false :=
    fun j hj => isOp_leaves hj (.inl ⟨c,i,rfl⟩)
  revert hl
  fun_cases DataChannel.exec c i s <;> intro hl
  case case2 | case8 => exact .inr (.otherThrow rfl rfl)
  case case7 => exact opStep_execAwait t s rfl rfl _
  all_goals
    exact .inr (.other rfl (fun _ => rfl) (by constructor <;> simp [Shared.setChannel,Shared.record])
      fun j hj => hop j (hl j hj))

lemma sameOps_handled {p : PeerId} {e : NativeEvent} {s' : Shared} {code : List Instr}
    (h : PeerConnection.Handled p e s s' code) : SameOps s s' := by
  cases h <;> constructor <;> simp [Shared.setPeer]

lemma opStep_peer (p : PeerId) (i : PeerInstr) :
    IsOpStep t s (.peer p i) (PeerConnection.exec p i s) := by
  have hl := leaves_peer s p i
  have hop : ∀ j, (Instr.peer p i).leaves j → j.isOp = false :=
    fun j hj => isOp_leaves hj (.inr ⟨p,i,rfl⟩)
  revert hl
  fun_cases PeerConnection.exec p i s <;> intro hl
  case case2 | case9 | case12 => exact .inr (.otherThrow rfl rfl)
  case case8 => exact opStep_execAwait t s rfl rfl _
  case case10 e s' code he =>
    obtain ⟨h₁,h₂,h₃,h₄,h₅,h₆,h₇,h₈,h₉,h₁₀,h₁₁,h₁₂⟩ :=
      sameOps_handled s (PeerConnection.handled_of_handleNativeEvent he)
    exact .inr (.other rfl (fun _ => rfl) ⟨h₁,h₂,h₃,h₄,h₅,h₆,h₇,h₈,h₉,h₁₀,h₁₁,h₁₂⟩ fun j hj => hop j (hl j hj))
  all_goals
    exact .inr (.other rfl (fun _ => rfl)
      (by constructor <;> simp [Shared.setPeer,Shared.newChannel,Shared.record])
      fun j hj => hop j (hl j hj))

lemma opStep_resume (r : Resume) (op : ℤ) (e : NativeEvent) :
    IsOpStep t s (.submit (.await op r)) (WebRtcRuntime.resume r e s) := by
  fun_cases WebRtcRuntime.resume r e s
  case case3 | case5 | case7 => exact .inr (.otherThrow rfl rfl)
  all_goals
    exact .inr (.other rfl (fun _ => rfl) (by constructor <;> simp [Shared.newPeer])
      (by simp [Instr.isOp,RuntimeInstr.isOp]))

lemma opStep_submit (i : SubmitInstr) :
    IsOpStep t s (.submit i) (WebRtcRuntime.execSubmit t i s) := by
  fun_cases WebRtcRuntime.execSubmit t i s
  case case1 | case12 => exact .inr (.otherThrow rfl rfl)
  case case2 => exact .inr (.begin _)
  case case3 => exact WebRtcRuntime.withLock_cases (fun _ => .inl rfl) fun free => .inr (.lock _ _ free)
  case case4 => exact .inr (.refused _ _ _)
  case case5 hc => exact .inr (.checkClosed _ _ (by simpa using hc))
  case case6 => exact .inr (.refusedClosing _ _ _)
  case case7 => exact .inr (.checkClosing _ _)
  case case8 => exact .inr (.insert _ _)
  case case9 => exact .inr (.call _ _)
  case case10 => exact .inl rfl
  case case11 => exact opStep_resume t s _ _ _

lemma opStep_loop (i : LoopInstr) : IsOpStep t s (.loop i) (WebRtcRuntime.execLoop i s) := by
  fun_cases WebRtcRuntime.execLoop i s
  case case4 e es _ =>
    by_cases hk : e.kind? = some .operationComplete
    · rw [if_pos hk]
      exact .inr (.poll e hk (by constructor <;> simp [Shared.record]))
    · rw [if_neg hk]
      exact .inr (.other rfl (fun _ => rfl) (by constructor <;> simp [Shared.record])
        (by simp [Instr.isOp,LoopInstr.isOp]))
  case case5 e =>
    refine WebRtcRuntime.withLock_of (.inl rfl) (.inr ?_)
    split
    · exact .other rfl (fun _ => rfl) (.refl s) (by simp [Instr.isOp])
    · exact .other rfl (fun _ => rfl) (by constructor <;> simp [Shared.setRuntime,WebRtcRuntime.park]) (by simp)
  case case6 e =>
    refine WebRtcRuntime.withLock_cases (fun _ => .inl rfl) fun free => .inr ?_
    split
    · exact .other rfl (fun _ => rfl) (.refl s) (by simp)
    · next op found => exact .take e op free found
  case case7 => exact .inr (.resolve _ _)
  case case1 hc => exact .inr (.head ⟨hc.2,hc.1⟩)
  case case2 hc =>
    exact .inr (.other rfl (fun hl => (hc ⟨hl.2,hl.1⟩).elim) (.refl s) (by simp))
  case case9 e hc =>
    exact .inr (.other rfl (fun hl => (Bool.false_ne_true (hl.1.symm.trans hc)).elim) (.refl s) (by simp))
  case case10 e hc => exact .inr (.failed e (by simpa using hc))
  all_goals exact .inr (.other rfl (fun _ => rfl) (.refl s) (by simp [Instr.isOp,LoopInstr.isOp]))

lemma opStep_runtime (i : RuntimeInstr) :
    IsOpStep t s (.runtime i) (WebRtcRuntime.execRuntime t i s) := by
  fun_cases WebRtcRuntime.execRuntime t i s
  case case2 =>
    exact WebRtcRuntime.withLock_cases (fun _ => .inl rfl) fun free => .inr (.registerLock _ free)
  case case3 => exact .inr (.registerRefused _ _)
  case case4 hc => exact .inr (.registerCheck _ (by simpa using hc))
  case case5 p _ =>
    refine .inr (.registerPeer p _ ?_)
    intro j hj
    rcases List.mem_append.mp hj with hj | hj
    · obtain ⟨e,-,rfl⟩ := List.mem_map.mp hj
      rfl
    · cases List.mem_singleton.mp hj; rfl
  case case7 p _ =>
    refine WebRtcRuntime.withLock_of (.inl rfl) (.inr (.other rfl (fun _ => rfl) ?_ (by simp)))
    split_ifs
    · constructor <;> simp [Shared.setRuntime]
      rintro h
      rw [h]; rfl
    · exact .refl s
  case case9 hc =>
    refine .inr (.close _ ?_ (by constructor <;> simp [Shared.setRuntime]))
    simp [WebRtcRuntime.closeBody,Instr.isOp,SubmitInstr.isOp,RuntimeInstr.isOp]
  case case11 => exact opStep_execAwait t s rfl rfl _
  case case12 f hc =>
    exact .inr (.other rfl (fun hl => (Bool.false_ne_true (hl.1.symm.trans hc)).elim) (.refl s) (by simp))
  case case13 f hc => exact .inr (.completeShutdown f (by simpa using hc))
  case case15 f =>
    exact WebRtcRuntime.withLock_cases (fun _ => .inl rfl) fun free => .inr (.drain f free)
  case case16 => exact .inr (.failOperation _ _)
  case case19 => exact .inr .cancelScope
  case case21 =>
    exact WebRtcRuntime.withLock_of (.inl rfl) (.inr (.other rfl (fun _ => rfl) (.refl s) (by simp)))
  all_goals
    exact .inr (.other rfl (fun _ => rfl) (by constructor <;> simp [Shared.setRuntime,Shared.record])
      (by simp [Instr.isOp,RuntimeInstr.isOp]))

theorem opStep_exec (x : Choice) (i : Instr) : IsOpStep t s i (exec x t i s) := by
  cases x with
  | ok =>
    cases i with
    | send q y =>
      simp only [exec,execOk,execSend]
      split_ifs
      · exact .inr (.otherThrow rfl rfl)
      · exact .inr (.other rfl (fun _ => rfl) (by constructor <;> simp [Shared.setQueue,Shared.record]) (by simp))
      · exact .inr (.other rfl (fun _ => rfl) (.refl s) (by simp [Instr.isOp]))
    | sendSuspended q y =>
      simp only [exec,execOk,execSendSuspended]
      split_ifs
      · exact .inr (.other rfl (fun _ => rfl) (by constructor <;> simp [Shared.setQueue,Shared.record]) (by simp))
      · exact .inl rfl
    | closeQueue q => exact .inr (.other rfl (fun _ => rfl) (by constructor <;> simp [Shared.setQueue]) (by simp))
    | channel c i => exact opStep_channel t s c i
    | peer p i => exact opStep_peer t s p i
    | submit i => exact opStep_submit t s i
    | loop i => exact opStep_loop t s i
    | runtime i => exact opStep_runtime t s i
  | fail message =>
    simp only [exec]
    fun_cases execFail message i s
    case case1 => exact .inr (.otherThrow rfl rfl)
    case case2 => exact .inr (.submissionFails _ _ _)
    case case3 | case4 =>
      exact .inr (.other rfl (fun _ => rfl) (by constructor <;> simp [Shared.record])
        (by simp [Instr.isOp,RuntimeInstr.isOp]))
    case case5 => exact .inl rfl
  | cancel =>
    simp only [exec]
    fun_cases execCancel i s <;>
      first | exact .inr (.otherThrow rfl rfl) | exact .inr (.drainCancelled _ _) | exact .inl rfl

end Steps

lemma isOp_api (s : Shared) (a : Api) : ∀ j ∈ a.code s, j.isOp = false := by
  cases a <;> simp [Api.code,Instr.isOp,SubmitInstr.isOp,RuntimeInstr.isOp]

end Kestara.Kotlin
