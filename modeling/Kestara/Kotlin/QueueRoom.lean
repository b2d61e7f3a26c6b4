import Kestara.Kotlin.QueueSteps
import Kestara.Kotlin.Waiting

/-!
# Room in the queues

Only a send uses up room in a queue that exists, and only a receive makes some.
-/
namespace Kestara.Kotlin
open Interleaving

/-- Every queue has room for an element, and only `negotiationNeeded` is conflated. -/
def Roomy (s : Shared) : Prop := ∀ q, (∀ n, (s.queue q).capacity = some n → 0 < n) ∧
  ((s.queue q).capacity = none → ∃ p, q = .negotiationNeeded p)

/-- The application holds what it held, and the same coroutines are cancelled. -/
structure AppKept (s s' : Shared) : Prop where
  knownPeers : s.knownPeers ⊆ s'.knownPeers
  knownChannels : s.knownChannels ⊆ s'.knownChannels
  cancelled : s'.cancelled = s.cancelled

/-- What a step does to the room of the queues, and to what the application sees of the system. -/
structure RoomEffect (s : Shared) (x : Choice) (i : Instr) (s' : Shared) : Prop where
  roomy : Roomy s → Roomy s'
  room : ∀ q, Full s' q → Full s q ∨ x = .ok ∧ ∃ y, i = .send q y ∨ i = .sendSuspended q y
  kept : AppKept s s'

lemma AppKept.same {s s' : Shared} (hp : s'.knownPeers = s.knownPeers)
    (hd : s'.knownChannels = s.knownChannels) (hc : s'.cancelled = s.cancelled) : AppKept s s' :=
  ⟨hp ▸ List.Subset.refl _,hd ▸ List.Subset.refl _,hc⟩

lemma RoomEffect.frame {s s' : Shared} {x : Choice} {i : Instr} (h : s'.queue = s.queue)
    (hk : AppKept s s') : RoomEffect s x i s' := by
  refine ⟨?_,?_,hk⟩
  · unfold Roomy
    rw [h]
    exact id
  · unfold Full
    rw [h]
    exact fun q => .inl

lemma RoomEffect.same {s s' : Shared} {x : Choice} {i : Instr} (h : s'.queue = s.queue)
    (hp : s'.knownPeers = s.knownPeers) (hd : s'.knownChannels = s.knownChannels)
    (hc : s'.cancelled = s.cancelled) : RoomEffect s x i s' :=
  .frame h (.same hp hd hc)

/-- The effect of an outcome on the room of the queues. -/
def HasRoomEffect (s : Shared) (x : Choice) (i : Instr) : Outcome → Prop
  | .next s' _ | .throw s' _ => RoomEffect s x i s'
  | _ => True

section Room
variable (s : Shared)

lemma roomEffect_new {s' : Shared} {x : Choice} {i : Instr} (hk : AppKept s s')
    (h : ∀ q, s'.queue q = s.queue q ∨
      (s'.queue q).capacity = none ∧ (∃ p, q = .negotiationNeeded p) ∨
      ∃ n, 0 < n ∧ s'.queue q = { capacity := some n }) : RoomEffect s x i s' := by
  refine ⟨fun hr q => ?_,fun q hf => .inl ?_,hk⟩
  · rcases h q with h | ⟨h,hp⟩ | ⟨m,hm,h⟩
    · rw [h]
      exact hr q
    · simp [h,hp]
    · simp [h,hm]
  · unfold Full at *
    rcases h q with h | ⟨h,-⟩ | ⟨m,hm,h⟩
    · exact h ▸ hf
    · simp [BoundedQueue.hasRoom,h] at hf
    · rw [h] at hf
      simp [BoundedQueue.hasRoom] at hf
      omega

lemma roomEffect_put (q : QueueRef) (y : Item) {i : Instr}
    (hi : i = .send q y ∨ i = .sendSuspended q y) (f : History → History) :
    RoomEffect s .ok i ((s.setQueue q (·.put y)).record f) := by
  refine ⟨fun hr r => ?_,fun r hf => ?_,.same rfl rfl rfl⟩
  · have hcap : (((s.setQueue q (·.put y)).record f).queue r).capacity = (s.queue r).capacity := by
      simp only [Shared.record,Shared.setQueue,Function.update_apply]
      split_ifs with he
      · rw [BoundedQueue.put_capacity,he]
      · rfl
    rw [hcap]
    exact hr r
  · by_cases he : r = q
    · subst he
      exact .inr ⟨rfl,y,hi⟩
    · refine .inl ?_
      simpa [Full,Shared.record,Shared.setQueue,Function.update_of_ne he] using hf

lemma roomEffect_newChannel (p : PeerId) (handle : ℤ) (info : ChannelInfo) (b : Bool) {x : Choice}
    {i : Instr} (f : PeerConnection → PeerConnection) :
    RoomEffect s x i ((s.newChannel p handle info b).setPeer p f) := by
  refine roomEffect_new s (.same rfl rfl rfl) fun q => ?_
  simp only [Shared.setPeer,Shared.newChannel,Function.update_apply]
  split_ifs
  · exact .inr (.inr ⟨_,by decide,rfl⟩)
  · exact .inr (.inr ⟨_,(s.peer p).receiveQueueCapacity.range.1,rfl⟩)
  · exact .inl rfl

lemma roomEffect_newPeer (handle : ℤ) (capacity : ReceiveQueueCapacity) (timeout : ℤ) {x : Choice}
    {i : Instr} : RoomEffect s x i (s.newPeer handle capacity timeout) := by
  refine roomEffect_new s (.same rfl rfl rfl) fun q => ?_
  simp only [Shared.newPeer,Function.update_apply]
  split_ifs
  · next he => exact .inr (.inl ⟨rfl,_,he⟩)
  · exact .inr (.inr ⟨_,by decide,rfl⟩)
  · exact .inr (.inr ⟨_,by decide,rfl⟩)
  · exact .inr (.inr ⟨_,by decide,rfl⟩)
  · exact .inl rfl

variable (x : Choice) (i : Instr)

lemma roomEffect_execAwait (r : Option Completion) : HasRoomEffect s x i (execAwait r s) := by
  fun_cases execAwait r s
  · trivial
  · exact .same rfl rfl rfl rfl
  · exact .same rfl rfl rfl rfl

lemma roomEffect_channel (c : ChannelId) (k : ChannelInstr) :
    HasRoomEffect s x i (DataChannel.exec c k s) := by
  fun_cases DataChannel.exec c k s
  case case7 => exact roomEffect_execAwait s x i _
  all_goals exact .same rfl rfl rfl rfl

lemma roomEffect_peer (p : PeerId) (k : PeerInstr) :
    HasRoomEffect s x i (PeerConnection.exec p k s) := by
  fun_cases PeerConnection.exec p k s
  case case3 | case13 => exact roomEffect_newChannel s p _ _ _ _
  case case8 => exact roomEffect_execAwait s x i _
  case case10 e s' code he =>
    cases PeerConnection.handled_of_handleNativeEvent he <;> exact .same rfl rfl rfl rfl
  case case4 c => exact .frame rfl ⟨.refl _,List.subset_cons_self _ _,rfl⟩
  all_goals exact .same rfl rfl rfl rfl

lemma roomEffect_submit (t : TaskId) (k : SubmitInstr) :
    HasRoomEffect s x i (WebRtcRuntime.execSubmit t k s) := by
  fun_cases WebRtcRuntime.execSubmit t k s
  case case3 => exact WebRtcRuntime.withLock_of trivial (.same rfl rfl rfl rfl)
  case case10 => trivial
  case case11 op r e _ =>
    fun_cases WebRtcRuntime.resume r e s
    case case8 => exact roomEffect_newPeer s _ _ _
    all_goals exact .same rfl rfl rfl rfl
  all_goals exact .same rfl rfl rfl rfl

lemma roomEffect_loop (k : LoopInstr) : HasRoomEffect s x i (WebRtcRuntime.execLoop k s) := by
  fun_cases WebRtcRuntime.execLoop k s
  case case5 | case6 =>
    refine WebRtcRuntime.withLock_of trivial ?_
    split <;> exact .same rfl rfl rfl rfl
  all_goals exact .same rfl rfl rfl rfl

lemma roomEffect_runtime (t : TaskId) (k : RuntimeInstr) :
    HasRoomEffect s x i (WebRtcRuntime.execRuntime t k s) := by
  fun_cases WebRtcRuntime.execRuntime t k s
  case case2 | case15 | case21 => exact WebRtcRuntime.withLock_of trivial (.same rfl rfl rfl rfl)
  case case6 p => exact .frame rfl ⟨List.subset_cons_self _ _,.refl _,rfl⟩
  case case7 =>
    refine WebRtcRuntime.withLock_of trivial ?_
    split_ifs <;> exact .same rfl rfl rfl rfl
  case case11 => exact roomEffect_execAwait s x i _
  all_goals exact .same rfl rfl rfl rfl

theorem roomEffect_exec (t : TaskId) : HasRoomEffect s x i (exec x t i s) := by
  cases x with
  | ok =>
    cases i with
    | send q y =>
      simp only [exec,execOk,execSend]
      split_ifs
      · exact .same rfl rfl rfl rfl
      · exact roomEffect_put s q y (.inl rfl) _
      · exact .same rfl rfl rfl rfl
    | sendSuspended q y =>
      simp only [exec,execOk,execSendSuspended]
      split_ifs
      · exact roomEffect_put s q y (.inr rfl) _
      · trivial
    | closeQueue q =>
      refine ⟨fun hr r => ?_,fun r hf => .inl ?_,.same rfl rfl rfl⟩
      · have hcap : ((s.setQueue q (·.close)).queue r).capacity = (s.queue r).capacity := by
          simp only [Shared.setQueue,Function.update_apply]
          split_ifs with he
          · rw [BoundedQueue.close_capacity,he]
          · rfl
        rw [hcap]
        exact hr r
      · simp only [Full,Shared.setQueue,Function.update_apply] at hf ⊢
        split_ifs at hf with he
        · subst he; exact hf
        · exact hf
    | channel c k => exact roomEffect_channel s .ok _ c k
    | peer p k => exact roomEffect_peer s .ok _ p k
    | submit k => exact roomEffect_submit s .ok _ t k
    | loop k => exact roomEffect_loop s .ok _ k
    | runtime k => exact roomEffect_runtime s .ok _ t k
  | fail message =>
    simp only [exec]
    fun_cases execFail message i s
    case case5 => trivial
    all_goals exact .same rfl rfl rfl rfl
  | cancel =>
    simp only [exec]
    fun_cases execCancel i s <;> first | exact .same rfl rfl rfl rfl | trivial

end Room

end Kestara.Kotlin
