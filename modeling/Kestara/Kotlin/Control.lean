import Kestara.Kotlin.Steps

/-!
# Control flow of the coroutines

`i.leaves j` says that running `i` can leave `j` to be run, in some state. A kind of
instruction that is closed under `leaves` stays the only kind in a coroutine.
-/
namespace Kestara.Kotlin
open Interleaving

def ChannelInstr.leaves (c : ChannelId) : ChannelInstr → Instr → Prop
  | .close,j => j = .channel c .awaitClosed ∨ ∃ d, j ∈ DataChannel.closeBody c d
  | .catchClose,j =>
    j = .channel c (.markClosed false) ∨ ∃ e, j = .channel c (.complete (.failed e))
  | .handle e,j =>
    j = .channel c .notifyOpen ∨ (∃ v, j = .channel c (.setState v)) ∨
      j = .channel c (.markClosed false) ∨ (∃ x, j = .send (.event c) x) ∨
      (∃ x, j = .send (.message c) x) ∨ j = .channel c (.handled e)
  | .notifyOpen,j => j = .channel c .notifyOpenState
  | .notifyOpenState,j => j = .channel c (.setState .open) ∨ j = .send (.event c) (.event .open)
  | .markClosed b,j => j ∈ DataChannel.teardown c b
  | .onTerminal,j => ∃ p handle, j = .peer p (.unregisterDataChannel handle)
  | _,_ => False

def PeerInstr.leaves (p : PeerId) : PeerInstr → Instr → Prop
  | .registerChannel _ _ _ _,j =>
    ∃ c, (∃ e, j = .channel c (.handle e)) ∨ j = .peer p (.returnChannel c)
  | .close,j => j = .peer p .awaitClosed ∨ ∃ peer, j ∈ PeerConnection.closeBody p peer
  | .catchClose,j => j = .peer p (.markClosed false) ∨ ∃ e, j = .peer p (.complete (.failed e))
  | .handle e,j =>
    (∃ x, j = .send (.localCandidate p) x) ∨ (∃ x, j = .send (.negotiationNeeded p) x) ∨
      j = .peer p (.registerRemote e) ∨ (∃ c, j = .channel c (.handle e)) ∨ j = .peer p (.handled e)
  | .registerRemote _,j =>
    ∃ c, j = .send (.incomingDataChannel p) (.channel c) ∨ (∃ e, j = .channel c (.handle e)) ∨
      j = .channel c .notifyOpen
  | .closeForRuntimeShutdown,j => j = .peer p (.markClosed true) ∨ j = .peer p (.complete .done)
  | .markClosed b,j => j ∈ PeerConnection.teardown p b
  | .takeChannels b,j => ∃ c, j = .channel c (.markClosed b)
  | _,_ => False

def Resume.leaves : Resume → Instr → Prop
  | .rotateCertificate,j => ∃ v, j = .runtime (.setFingerprint v)
  | .registerPeer _ _,j => ∃ p, j = .runtime (.registerLock p)
  | .registerChannel p label options,j =>
    ∃ handle id, j = .peer p (.registerChannel handle id label options)
  | .sendLocalDescription p d,j => j = .send (.localDescription p) (.description d)
  | .setThresholds c low high,j => j = .channel c (.setThresholds low high)
  | _,_ => False

def SubmitInstr.leaves : SubmitInstr → Instr → Prop
  | .begin b,j => ∃ op, j = .submit (.lock op b)
  | .lock op b,j => j = .submit (.checkClosed op b)
  | .checkClosed op b,j => j = .submit (.checkClosing op b)
  | .checkClosing op b,j => j = .submit (.insert op b)
  | .insert op b,j => j = .submit (.call op b)
  | .call op b,j => j = .submit (.await op b.resume)
  | .await _ r,j => r.leaves j

def LoopInstr.leaves : LoopInstr → Instr → Prop
  | .head,j => j = .loop .poll ∨ j = .loop .head
  | .poll,j => ∃ e, j = .loop (.takeOperation e) ∨ j = .loop (.lookupPeer e)
  | .lookupPeer e,j => ∃ p, j = .peer p (.handle e)
  | .takeOperation e,j => ∃ op, j = .loop (.resolve op e)
  | .catch,j => ∃ e, j = .loop (.failed e)
  | .failed e,j => j = .runtime (.completeShutdown (some e))
  | _,_ => False

def RuntimeInstr.leaves : RuntimeInstr → Instr → Prop
  | .registerLock p,j => j = .runtime (.registerCheck p)
  | .registerCheck p,j => j = .runtime (.registerPeer p)
  | .registerPeer p,j => (∃ e, j = .peer p (.handle e)) ∨ j = .runtime (.returnPeer p)
  | .close,j => j = .runtime .awaitClosed ∨ ∃ r, j ∈ WebRtcRuntime.closeBody r
  | .catchClose,j => ∃ e, j = .runtime (.completeShutdown (some e))
  | .completeShutdown failure,j => j ∈ WebRtcRuntime.teardown failure
  | .drain failure,j => ∃ peers pending, j ∈ WebRtcRuntime.afterDrain peers pending failure
  | .release _,j => j = .runtime .cancelScope ∨ ∃ failure, j = .runtime (.complete failure)
  | _,_ => False

/-- Running `i` can leave `j` to be run. A handler leaves the code of its `catch` block. -/
def Instr.leaves : Instr → Instr → Prop
  | .send q x,j => j = .sendSuspended q x
  | .sendSuspended _ _,_ | .closeQueue _,_ => False
  | .channel c i,j => i.leaves c j
  | .peer p i,j => i.leaves p j
  | .submit i,j => i.leaves j
  | .loop i,j => i.leaves j
  | .runtime i,j => i.leaves j

/-- The code an outcome leaves, if it does not throw. -/
def Leaves (i : Instr) : Outcome → Prop
  | .next _ code => ∀ j ∈ code, i.leaves j
  | _ => True

section Leaves
variable (s : Shared)

lemma leaves_execAwait (i : Instr) (r : Option Completion) : Leaves i (execAwait r s) := by
  fun_cases execAwait r s <;> simp [Leaves]

lemma leaves_handleNativeEvent {c : ChannelId} {e : NativeEvent} {code : List Instr}
    (h : DataChannel.handleNativeEvent c e = .ok code) :
    ∀ j ∈ code, (ChannelInstr.handle e).leaves c j := by
  unfold DataChannel.handleNativeEvent at h
  split at h <;> cases h <;> simp [ChannelInstr.leaves]

lemma leaves_channel (c : ChannelId) (i : ChannelInstr) :
    Leaves (.channel c i) (DataChannel.exec c i s) := by
  fun_cases DataChannel.exec c i s
  case case5 d _ => exact fun j hj => .inr ⟨d,hj⟩
  case case7 => exact leaves_execAwait s _ _
  case case9 e code he =>
    intro j hj
    rcases List.mem_append.mp hj with hj | hj
    · exact leaves_handleNativeEvent he j hj
    · cases List.mem_singleton.mp hj
      simp [Instr.leaves,ChannelInstr.leaves]
  all_goals simp [Leaves,Instr.leaves,ChannelInstr.leaves]

lemma leaves_handled {p : PeerId} {e : NativeEvent} {s' : Shared} {code : List Instr}
    (h : PeerConnection.Handled p e s s' code) : ∀ j ∈ code, (PeerInstr.handle e).leaves p j := by
  cases h <;> simp [PeerInstr.leaves]

lemma leaves_peer (p : PeerId) (i : PeerInstr) :
    Leaves (.peer p i) (PeerConnection.exec p i s) := by
  fun_cases PeerConnection.exec p i s
  case case3 c =>
    intro j hj
    rcases List.mem_append.mp hj with hj | hj
    · obtain ⟨e,-,rfl⟩ := List.mem_map.mp hj
      exact ⟨_,.inl ⟨e,rfl⟩⟩
    · exact ⟨_,.inr (List.mem_singleton.mp hj)⟩
  case case6 peer _ => exact fun j hj => .inr ⟨peer,hj⟩
  case case8 => exact leaves_execAwait s _ _
  case case10 e s' code he =>
    intro j hj
    rcases List.mem_append.mp hj with hj | hj
    · exact leaves_handled s (PeerConnection.handled_of_handleNativeEvent he) j hj
    · exact .inr (.inr (.inr (.inr (List.mem_singleton.mp hj))))
  case case13 =>
    intro j hj
    simp only [List.mem_append,List.mem_singleton,List.mem_map,or_assoc] at hj
    rcases hj with rfl | ⟨e,-,rfl⟩ | hj
    · exact ⟨_,.inl rfl⟩
    · exact ⟨_,.inr (.inl ⟨e,rfl⟩)⟩
    · split_ifs at hj
      · exact ⟨_,.inr (.inr (List.mem_singleton.mp hj))⟩
      · simp at hj
  all_goals simp [Leaves,Instr.leaves,PeerInstr.leaves]

lemma leaves_resume (r : Resume) (op : ℤ) (e : NativeEvent) :
    Leaves (.submit (.await op r)) (WebRtcRuntime.resume r e s) := by
  fun_cases WebRtcRuntime.resume r e s <;>
    simp [Leaves,Instr.leaves,SubmitInstr.leaves,Resume.leaves]

lemma leaves_submit (t : TaskId) (i : SubmitInstr) :
    Leaves (.submit i) (WebRtcRuntime.execSubmit t i s) := by
  fun_cases WebRtcRuntime.execSubmit t i s
  case case3 => exact WebRtcRuntime.withLock_of trivial (List.forall_mem_singleton.mpr rfl)
  case case11 => exact leaves_resume s _ _ _
  all_goals simp [Leaves,Instr.leaves,SubmitInstr.leaves]

lemma leaves_loop (i : LoopInstr) : Leaves (.loop i) (WebRtcRuntime.execLoop i s) := by
  fun_cases WebRtcRuntime.execLoop i s
  case case4 e es _ =>
    refine List.forall_mem_singleton.mpr ⟨e,?_⟩
    split_ifs
    · exact .inl rfl
    · exact .inr rfl
  case case5 =>
    refine WebRtcRuntime.withLock_of trivial ?_
    split <;> simp [Leaves,Instr.leaves,LoopInstr.leaves]
  case case6 =>
    refine WebRtcRuntime.withLock_of trivial ?_
    split <;> simp [Leaves,Instr.leaves,LoopInstr.leaves]
  all_goals simp [Leaves,Instr.leaves,LoopInstr.leaves]

lemma leaves_runtime (t : TaskId) (i : RuntimeInstr) :
    Leaves (.runtime i) (WebRtcRuntime.execRuntime t i s) := by
  fun_cases WebRtcRuntime.execRuntime t i s
  case case2 => exact WebRtcRuntime.withLock_of trivial (List.forall_mem_singleton.mpr rfl)
  case case5 p _ =>
    intro j hj
    rcases List.mem_append.mp hj with hj | hj
    · obtain ⟨e,-,rfl⟩ := List.mem_map.mp hj
      exact .inl ⟨e,rfl⟩
    · exact .inr (List.mem_singleton.mp hj)
  case case7 | case21 => exact WebRtcRuntime.withLock_of trivial (by simp [Leaves])
  case case9 r _ => exact fun j hj => .inr ⟨r,hj⟩
  case case11 => exact leaves_execAwait s _ _
  case case15 r failure => exact WebRtcRuntime.withLock_of trivial fun j hj => ⟨_,_,hj⟩
  all_goals simp [Leaves,Instr.leaves,RuntimeInstr.leaves]

theorem leaves_exec (x : Choice) (t : TaskId) (i : Instr) : Leaves i (exec x t i s) := by
  cases x with
  | ok =>
    cases i with
    | send q y =>
      simp only [exec,execOk,execSend]
      split_ifs <;> simp [Leaves,Instr.leaves]
    | sendSuspended q y =>
      simp only [exec,execOk,execSendSuspended]
      split_ifs <;> simp [Leaves]
    | closeQueue q => simp [exec,execOk,Leaves]
    | channel c i => exact leaves_channel s c i
    | peer p i => exact leaves_peer s p i
    | submit i => exact leaves_submit s t i
    | loop i => exact leaves_loop s i
    | runtime i => exact leaves_runtime s t i
  | fail message =>
    simp only [exec]
    fun_cases execFail message i s <;>
      simp [Leaves,WebRtcRuntime.submissionFails,Instr.leaves,RuntimeInstr.leaves]
  | cancel =>
    simp only [exec]
    fun_cases execCancel i s <;> simp [Leaves]

end Leaves

lemma leaves_handler {e : Exn} {i : Instr} {code : List Instr} (h : handler e i = some code) :
    ∀ j ∈ code, i.leaves j := by
  unfold handler at h
  split at h <;> cases h <;>
    simp [Instr.leaves,LoopInstr.leaves,ChannelInstr.leaves,PeerInstr.leaves,RuntimeInstr.leaves]

/-- Where an instruction comes from, if few instructions leave it. -/
def Instr.Origin (i : Instr) : Instr → Prop
  | .sendSuspended q x => i = .send q x
  | .send (.event d) _ => ∃ k, i = .channel d k
  | .closeQueue (.event d) => ∃ b, i = .channel d (.markClosed b)
  | .channel d (.setState _) => ∃ k, i = .channel d k
  | .channel d .notifyOpen =>
    (∃ e, i = .channel d (.handle e)) ∨ ∃ p e, i = .peer p (.registerRemote e)
  | .channel d .notifyOpenState => i = .channel d .notifyOpen
  | .channel d .awaitClosed => i = .channel d .close
  | .channel d (.markClosed b) => (∃ p, i = .peer p (.takeChannels b)) ∨ i = .channel d .close ∨
    i = .channel d .catchClose ∨ ∃ e, i = .channel d (.handle e)
  | .peer p .awaitClosed => i = .peer p .close
  | .peer p (.takeChannels b) => i = .peer p (.markClosed b)
  | .peer p (.setState v) => (∃ b, i = .peer p (.markClosed b)) ∧ v = .closed
  | .peer p (.setSignalingState v) => (∃ b, i = .peer p (.markClosed b)) ∧ v = .closed
  | .submit (.await op _) => ∃ b, i = .submit (.call op b)
  | .loop (.lookupPeer _) => i = .loop .poll
  | .loop (.failed _) => i = .loop .catch
  | .loop _ => ∃ k, i = .loop k
  | .runtime (.completeShutdown failure) =>
    i = .runtime .close ∨ i = .runtime .catchClose ∨ ∃ e, i = .loop (.failed e) ∧ failure = some e
  | .runtime .awaitClosed => i = .runtime .close
  | .runtime (.release _) => ∃ f, i = .runtime (.drain f)
  | _ => True

theorem origin_of_leaves {i j : Instr} (h : i.leaves j) : i.Origin j := by
  cases i with
  | send q x =>
    cases h
    rfl
  | sendSuspended q x | closeQueue q => cases h
  | channel c k =>
    cases k <;> simp only [Instr.leaves,ChannelInstr.leaves,DataChannel.closeBody,
      DataChannel.teardown] at h <;> grind [Instr.Origin]
  | peer p k =>
    cases k
    case markClosed b =>
      have : ∀ j ∈ PeerConnection.teardown p b, Instr.Origin (.peer p (.markClosed b)) j := by
        simp [PeerConnection.teardown,Instr.Origin]
      exact this j h
    all_goals simp only [Instr.leaves,PeerInstr.leaves,PeerConnection.closeBody] at h <;> grind [Instr.Origin]
  | submit k =>
    cases k <;> simp only [Instr.leaves,SubmitInstr.leaves] at h
    case await op r => cases r <;> simp only [Resume.leaves] at h <;> grind [Instr.Origin]
    all_goals grind [Instr.Origin]
  | loop k =>
    cases k <;> simp only [Instr.leaves,LoopInstr.leaves] at h <;> grind [Instr.Origin]
  | runtime k =>
    cases k <;> simp only [Instr.leaves,RuntimeInstr.leaves,WebRtcRuntime.closeBody,
      WebRtcRuntime.teardown,WebRtcRuntime.afterDrain] at h <;> grind [Instr.Origin]

/-- A kind of instruction that is closed under `leaves` stays the only kind in a coroutine. -/
theorem TaskStep.closed {P : Instr → Prop} (hP : ∀ i j, P i → i.leaves j → P j) {x : Choice}
    {t : TaskId} {c c' : Config} (h : TaskStep x t c c') {t' : TaskId}
    (hc : ∀ j ∈ c.tasks t', P j) : ∀ j ∈ c'.tasks t', P j := by
  cases h with
  | @next i rest s code head he =>
    intro j hj
    by_cases ht : t' = t
    · subst t'
      simp only [Function.update_self,List.mem_append] at hj
      have hl := leaves_exec c.shared x t i
      rw [he] at hl
      rcases hj with hj | hj
      · exact hP i j (hc i (by simp [head])) (hl j hj)
      · exact hc j (by simp [head,hj])
    · simp only [Function.update_of_ne ht] at hj
      exact hc j hj
  | @throw i rest s e head he =>
    intro j hj
    by_cases ht : t' = t
    · subst t'
      simp only [Function.update_self] at hj
      rcases mem_afterThrow hj with hj | ⟨k,hk,code,hh,hj⟩
      · exact hc j (by simp [head,hj])
      · exact hP k j (hc k (by simp [head,hk])) (leaves_handler hh j hj)
    · simp only [Function.update_of_ne ht] at hj
      exact hc j hj

/-- Every coroutine runs instructions of its kind only, in every reachable state. -/
theorem kind_of_reachable {P : TaskId → Instr → Prop}
    (hP : ∀ t i j, P t i → i.leaves j → P t j) (hhead : P 0 (.loop .head))
    (hcatch : P 0 (.loop .catch)) (hapi : ∀ t ≠ 0, ∀ s (a : Api), ∀ j ∈ a.code s, P t j)
    {shutdownTimeout : ℤ} {fingerprint : String} {ok : Label → Config → Prop} {c : Config}
    (h : Reachable shutdownTimeout fingerprint ok c) : ∀ t, ∀ j ∈ c.tasks t, P t j := by
  refine h.invariant (I := fun c => ∀ t, ∀ j ∈ c.tasks t, P t j) ?_ ?_
  · intro t j hj
    simp only [init] at hj
    split_ifs at hj with ht
    · subst ht
      simp only [List.mem_cons,List.not_mem_nil,or_false] at hj
      rcases hj with rfl | rfl
      · exact hhead
      · exact hcatch
    · simp at hj
  · intro l d d' hd _ hs
    cases step_cases hs with
    | task hl active ht => exact fun t' => ht.closed (hP t') (hd t')
    | @call t a ht idle admitted =>
      intro t' j hj
      by_cases he : t' = t
      · subst he
        simp only [Function.update_self] at hj
        exact hapi t' ht _ a j hj
      · simp only [Function.update_of_ne he] at hj
        exact hd t' j hj
    | receive ht idle hr => exact hd
    | cancel | native => exact hd

section EventLoop

def ChannelInstr.inLoop : ChannelInstr → Bool
  | .handle _ | .handled _ | .notifyOpen | .notifyOpenState | .setState _ | .markClosed _
  | .setClosing | .onTerminal | .complete .done => true
  | _ => false

def PeerInstr.inLoop : PeerInstr → Bool
  | .handle _ | .handled _ | .registerRemote _ | .unregisterDataChannel _
  | .closeForRuntimeShutdown | .markClosed _ | .setClosing | .takeChannels _ | .setState _
  | .setSignalingState _ | .complete .done => true
  | _ => false

def RuntimeInstr.inLoop : RuntimeInstr → Bool
  | .unregisterPeer _ | .completeShutdown _ | .setClosing | .drain _ | .failOperation _ _ | .wake
  | .release _ | .cancelScope | .complete _ => true
  | _ => false

/-- The instructions of the event loop: it never calls `submit`, so it never waits for itself. -/
def Instr.inLoop : Instr → Bool
  | .send (.localDescription _) _ | .sendSuspended (.localDescription _) _ => false
  | .send _ _ | .sendSuspended _ _ | .closeQueue _ | .loop _ => true
  | .channel _ i => i.inLoop
  | .peer _ i => i.inLoop
  | .submit _ => false
  | .runtime i => i.inLoop

/-- The instructions that no other coroutine runs. -/
def Instr.isLoop : Instr → Bool
  | .loop _ => true
  | _ => false

lemma inLoop_leaves {i j : Instr} (hi : i.inLoop = true) (h : i.leaves j) : j.inLoop = true := by
  cases i with
  | send q x => cases q <;> simp_all [Instr.leaves,Instr.inLoop]
  | sendSuspended q x => cases h
  | closeQueue q => cases h
  | channel c i =>
    cases i <;> simp only [Instr.leaves,ChannelInstr.leaves,Instr.inLoop,ChannelInstr.inLoop] at h hi
    case markClosed b =>
      cases b <;> simp only [DataChannel.teardown] at h <;>
        grind [Instr.inLoop,ChannelInstr.inLoop,PeerInstr.inLoop]
    all_goals grind [Instr.inLoop,ChannelInstr.inLoop,PeerInstr.inLoop]
  | peer p i =>
    cases i <;> simp only [Instr.leaves,PeerInstr.leaves,Instr.inLoop,PeerInstr.inLoop] at h hi
    case markClosed b =>
      have : ∀ j ∈ PeerConnection.teardown p b, j.inLoop = true := by
        simp [PeerConnection.teardown,Instr.inLoop,PeerInstr.inLoop,RuntimeInstr.inLoop]
      exact this j h
    all_goals grind [Instr.inLoop,ChannelInstr.inLoop,PeerInstr.inLoop]
  | submit i => cases hi
  | loop i =>
    cases i <;> simp only [Instr.leaves,LoopInstr.leaves] at h <;>
      grind [Instr.inLoop,PeerInstr.inLoop,RuntimeInstr.inLoop]
  | runtime i =>
    cases i <;> simp only [Instr.leaves,RuntimeInstr.leaves,Instr.inLoop,RuntimeInstr.inLoop,
      WebRtcRuntime.teardown,WebRtcRuntime.afterDrain] at h hi <;>
      grind [Instr.inLoop,PeerInstr.inLoop,RuntimeInstr.inLoop]

lemma isLoop_leaves {i j : Instr} (hi : i.isLoop = false) (h : i.leaves j) : j.isLoop = false := by
  rw [Bool.eq_false_iff]
  intro hj
  obtain ⟨k,rfl⟩ : ∃ k, j = .loop k := by cases j <;> simp_all [Instr.isLoop]
  obtain ⟨k',rfl⟩ : ∃ k', i = .loop k' := by
    have ho := origin_of_leaves h
    cases k with
    | lookupPeer | failed => exact ⟨_,ho⟩
    | _ => exact ho
  cases hi

/-- The event loop enters `completeShutdown` with the exception it has caught. -/
lemma leaves_completeShutdown {i : Instr} {failure : Option Exn} (hi : i.inLoop = true)
    (h : i.leaves (.runtime (.completeShutdown failure))) :
    ∃ e, i = .loop (.failed e) ∧ failure = some e := by
  obtain rfl | rfl | he := origin_of_leaves h
  · cases hi
  · cases hi
  · exact he

/-- The event loop has one handler. -/
lemma handler_inLoop {e : Exn} {i : Instr} {code : List Instr} (hi : i.inLoop = true)
    (h : handler e i = some code) : i = .loop .catch ∧ code = [.loop (.failed e)] := by
  unfold handler at h
  split at h <;> first | (cases h; done) | (cases hi; done) | skip
  cases h
  exact ⟨rfl,rfl⟩

lemma afterThrow_inLoop (e : Exn) {l : List Instr} (hl : ∀ j ∈ l, j.inLoop = true)
    (hc : .loop .catch ∈ l) : ∃ rest, afterThrow e l = .loop (.failed e) :: rest := by
  induction l with
  | nil => cases hc
  | cons i rest ih =>
    simp only [afterThrow]
    split
    · next code h =>
      obtain ⟨-,rfl⟩ := handler_inLoop (hl i (by simp)) h
      exact ⟨rest,rfl⟩
    · next h =>
      refine ih (fun j hj => hl j (by simp [hj])) ?_
      rcases List.mem_cons.mp hc with rfl | hc
      · cases h
      · exact hc

variable {shutdownTimeout : ℤ} {fingerprint : String} {ok : Label → Config → Prop} {c : Config}

theorem inLoop_of_reachable (h : Reachable shutdownTimeout fingerprint ok c) :
    ∀ j ∈ c.tasks 0, j.inLoop = true := by
  refine fun j hj => kind_of_reachable (P := fun t j => t = 0 → j.inLoop = true)
    ?_ (fun _ => rfl) (fun _ => rfl) ?_ h 0 j hj rfl
  · exact fun t i j hi hl ht => inLoop_leaves (hi ht) hl
  · exact fun t ht s a j hj h0 => (ht h0).elim

theorem isLoop_of_reachable (h : Reachable shutdownTimeout fingerprint ok c) :
    ∀ t ≠ 0, ∀ j ∈ c.tasks t, j.isLoop = false := by
  refine fun t ht j hj => kind_of_reachable (P := fun t j => t ≠ 0 → j.isLoop = false)
    ?_ (by simp) (by simp) ?_ h t j hj ht
  · exact fun t i j hi hl ht => isLoop_leaves (hi ht) hl
  · intro t ht s a j hj _
    have hcode : ∀ j ∈ a.code s, j.isLoop = false := by cases a <;> simp [Api.code,Instr.isLoop]
    exact hcode j hj

end EventLoop
end Kestara.Kotlin
