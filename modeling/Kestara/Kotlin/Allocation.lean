import Kestara.Kotlin.Steps

/-! Every object that is mentioned anywhere has been constructed. -/
namespace Kestara.Kotlin
open Interleaving

def QueueRef.Allocated (s : Shared) : QueueRef → Prop
  | .localDescription p | .localCandidate p | .incomingDataChannel p | .negotiationNeeded p =>
    p < s.nextPeer
  | .message c | .event c => c < s.nextChannel

def Item.Allocated (s : Shared) : Item → Prop
  | .channel c => c < s.nextChannel
  | _ => True

def Resume.Allocated (s : Shared) : Resume → Prop
  | .registerChannel p _ _ | .sendLocalDescription p _ => p < s.nextPeer
  | .setThresholds c _ _ => c < s.nextChannel
  | _ => True

def SubmitInstr.Allocated (s : Shared) : SubmitInstr → Prop
  | .begin b | .lock _ b | .checkClosed _ b | .checkClosing _ b | .insert _ b | .call _ b =>
    b.resume.Allocated s
  | .await _ r => r.Allocated s

def RuntimeInstr.Allocated (s : Shared) : RuntimeInstr → Prop
  | .registerLock p | .registerCheck p | .registerPeer p | .returnPeer p | .unregisterPeer p =>
    p < s.nextPeer
  | _ => True

def Instr.Allocated (s : Shared) : Instr → Prop
  | .send q x | .sendSuspended q x => q.Allocated s ∧ x.Allocated s
  | .closeQueue q => q.Allocated s
  | .channel c _ => c < s.nextChannel
  | .peer p (.returnChannel c) => p < s.nextPeer ∧ c < s.nextChannel
  | .peer p _ => p < s.nextPeer
  | .submit i => i.Allocated s
  | .loop _ => True
  | .runtime i => i.Allocated s

/-- The maps, the queues and the application hold constructed objects only. -/
structure Heap (s : Shared) : Prop where
  peers : ∀ p ∈ s.runtime.peers.values, p < s.nextPeer
  channels : ∀ p, ∀ c ∈ (s.peer p).channels.values, c < s.nextChannel
  owner : ∀ c < s.nextChannel, (s.channel c).owner < s.nextPeer
  knownPeers : ∀ p ∈ s.knownPeers, p < s.nextPeer
  knownChannels : ∀ c ∈ s.knownChannels, c < s.nextChannel
  queued : ∀ q, ∀ x ∈ (s.queue q).buffer, x.Allocated s

/-- `s'` has at least the objects of `s`. -/
def Grows (s s' : Shared) : Prop := s.nextPeer ≤ s'.nextPeer ∧ s.nextChannel ≤ s'.nextChannel

lemma Grows.refl (s : Shared) : Grows s s := ⟨le_rfl,le_rfl⟩

section Grows
variable {s s' : Shared} (h : Grows s s')
include h

lemma QueueRef.Allocated.mono {q : QueueRef} (hq : q.Allocated s) : q.Allocated s' := by
  cases q with
  | message c | event c => exact lt_of_lt_of_le hq h.2
  | localDescription p | localCandidate p | incomingDataChannel p | negotiationNeeded p =>
    exact lt_of_lt_of_le hq h.1

lemma Item.Allocated.mono {x : Item} (hx : x.Allocated s) : x.Allocated s' := by
  cases x with
  | channel c => exact lt_of_lt_of_le hx h.2
  | description d | candidate c | unit | message m | event e => trivial

lemma Resume.Allocated.mono {r : Resume} (hr : r.Allocated s) : r.Allocated s' := by
  cases r with
  | registerChannel p label options | sendLocalDescription p d => exact lt_of_lt_of_le hr h.1
  | setThresholds c low high => exact lt_of_lt_of_le hr h.2
  | «return» | returnText m | returnData m | rotateCertificate | registerPeer capacity timeout =>
    trivial

lemma Instr.Allocated.mono {i : Instr} (hi : i.Allocated s) : i.Allocated s' := by
  cases i with
  | send q x => exact ⟨hi.1.mono h,hi.2.mono h⟩
  | sendSuspended q x => exact ⟨hi.1.mono h,hi.2.mono h⟩
  | closeQueue q => exact QueueRef.Allocated.mono h hi
  | channel c i => exact lt_of_lt_of_le hi h.2
  | peer p i =>
    cases i with
    | returnChannel c => exact ⟨lt_of_lt_of_le hi.1 h.1,lt_of_lt_of_le hi.2 h.2⟩
    | _ => exact lt_of_lt_of_le hi h.1
  | submit i => cases i <;> exact Resume.Allocated.mono h hi
  | loop i => trivial
  | runtime i =>
    cases i with
    | registerLock p | registerCheck p | registerPeer p | returnPeer p | unregisterPeer p =>
      exact lt_of_lt_of_le hi h.1
    | _ => trivial

end Grows

namespace Heap
variable {s : Shared} (h : Heap s)
include h

lemma setChannel {c : ChannelId} {f : DataChannel → DataChannel}
    (hf : (f (s.channel c)).owner = (s.channel c).owner) : Heap (s.setChannel c f) where
  peers := h.peers
  channels := h.channels
  owner := by
    intro d hd
    simp only [Shared.setChannel,Function.update_apply]
    split_ifs with he
    · subst d; rw [hf]; exact h.owner c hd
    · exact h.owner d hd
  knownPeers := h.knownPeers
  knownChannels := h.knownChannels
  queued := h.queued

lemma setPeer {p : PeerId} {f : PeerConnection → PeerConnection}
    (hf : ∀ c ∈ (f (s.peer p)).channels.values, c < s.nextChannel) : Heap (s.setPeer p f) where
  peers := h.peers
  channels := by
    intro q
    simp only [Shared.setPeer,Function.update_apply]
    split_ifs with he
    · exact hf
    · exact h.channels q
  owner := h.owner
  knownPeers := h.knownPeers
  knownChannels := h.knownChannels
  queued := h.queued

lemma setRuntime {f : WebRtcRuntime → WebRtcRuntime}
    (hf : ∀ p ∈ (f s.runtime).peers.values, p < s.nextPeer) : Heap (s.setRuntime f) :=
  { h with peers := hf }

lemma record (f : History → History) : Heap (s.record f) := { h with }

lemma outside (native : List NativeEvent) (cancelled : TaskId → Bool) :
    Heap { s with native := native, cancelled := cancelled } := { h with }

lemma completeOperation (op : ℤ) (r : OperationResult) : Heap (s.completeOperation op r) :=
  { h with }

lemma setQueue {q : QueueRef} {f : BoundedQueue Item → BoundedQueue Item}
    (hf : ∀ x ∈ (f (s.queue q)).buffer, x.Allocated s) : Heap (s.setQueue q f) where
  peers := h.peers
  channels := h.channels
  owner := h.owner
  knownPeers := h.knownPeers
  knownChannels := h.knownChannels
  queued := by
    intro r
    simp only [Shared.setQueue,Function.update_apply]
    split_ifs with he
    · exact hf
    · exact h.queued r

lemma newChannel {p : PeerId} (hp : p < s.nextPeer) (handle : ℤ) (info : ChannelInfo) (b : Bool) :
    Heap (s.newChannel p handle info b) where
  peers := h.peers
  channels := fun q c hc => Nat.lt_succ_of_lt (h.channels q c hc)
  owner := by
    intro d hd
    rcases eq_or_ne d s.nextChannel with rfl | he
    · simpa [Shared.newChannel] using hp
    · have hd' : d < s.nextChannel := lt_of_le_of_ne (Nat.le_of_lt_succ hd) he
      simpa [Shared.newChannel,Function.update_of_ne he] using h.owner d hd'
  knownPeers := h.knownPeers
  knownChannels := fun c hc => Nat.lt_succ_of_lt (h.knownChannels c hc)
  queued := by
    intro r x hx
    have hg : Grows s (s.newChannel p handle info b) := ⟨le_rfl,Nat.le_succ _⟩
    simp only [Shared.newChannel,Function.update_apply] at hx
    split_ifs at hx
    · simp at hx
    · simp at hx
    · exact (h.queued r x hx).mono hg

lemma newPeer (handle : ℤ) (capacity : ReceiveQueueCapacity) (timeout : ℤ) :
    Heap (s.newPeer handle capacity timeout) where
  peers := fun q hq => Nat.lt_succ_of_lt (h.peers q hq)
  channels := by
    intro q c hc
    simp only [Shared.newPeer,Function.update_apply] at hc
    split_ifs at hc
    · simp at hc
    · exact h.channels q c hc
  owner := fun c hc => Nat.lt_succ_of_lt (h.owner c hc)
  knownPeers := fun q hq => Nat.lt_succ_of_lt (h.knownPeers q hq)
  knownChannels := h.knownChannels
  queued := by
    intro r x hx
    have hg : Grows s (s.newPeer handle capacity timeout) := ⟨Nat.le_succ _,le_rfl⟩
    simp only [Shared.newPeer,Function.update_apply] at hx
    split_ifs at hx
    · simp at hx
    · simp at hx
    · simp at hx
    · simp at hx
    · exact (h.queued r x hx).mono hg

end Heap

/-- What an instruction that starts in a well-formed heap leaves behind. -/
def Sound (s : Shared) : Outcome → Prop
  | .blocked => True
  | .next s' code => Heap s' ∧ Grows s s' ∧ ∀ j ∈ code, j.Allocated s'
  | .fork s' code _ childCode =>
    Heap s' ∧ Grows s s' ∧ (∀ j ∈ code, j.Allocated s') ∧ ∀ j ∈ childCode, j.Allocated s'
  | .throw s' _ => Heap s' ∧ Grows s s'

/-- An instruction that constructs no object. -/
lemma Sound.next {s s' : Shared} {code : List Instr} (h : Heap s')
    (hp : s'.nextPeer = s.nextPeer) (hc : s'.nextChannel = s.nextChannel)
    (hcode : ∀ j ∈ code, j.Allocated s) : Sound s (.next s' code) := by
  have hg : Grows s s' := ⟨hp.ge,hc.ge⟩
  exact ⟨h,hg,fun j hj => (hcode j hj).mono hg⟩

section Sound
variable {s : Shared} (h : Heap s)
include h

lemma heap_put {q : QueueRef} {x : Item} (hx : x.Allocated s) (f : History → History) :
    Heap ((s.setQueue q (·.put x)).record f) := by
  refine (h.setQueue ?_).record f
  intro y hy
  rcases BoundedQueue.mem_put hy with rfl | hy
  · exact hx
  · exact h.queued q y hy

lemma sound_execSend {q : QueueRef} {x : Item} (ha : (Instr.send q x).Allocated s) :
    Sound s (execSend q x s) := by
  unfold execSend
  split_ifs
  · exact ⟨h,Grows.refl s⟩
  · exact ⟨heap_put h ha.2 _,Grows.refl s,by simp⟩
  · exact ⟨h,Grows.refl s,by simpa [Instr.Allocated] using ha⟩

lemma sound_execSendSuspended {q : QueueRef} {x : Item}
    (ha : (Instr.sendSuspended q x).Allocated s) : Sound s (execSendSuspended q x s) := by
  unfold execSendSuspended
  split_ifs
  · exact ⟨heap_put h ha.2 _,Grows.refl s,by simp⟩
  · trivial

lemma sound_execAwait (r : Option Completion) : Sound s (execAwait r s) := by
  fun_cases execAwait r s
  · trivial
  · exact ⟨h,Grows.refl s,by simp⟩
  · exact ⟨h,Grows.refl s⟩

omit h in
lemma allocated_handleNativeEvent {c : ChannelId} (hc : c < s.nextChannel) {e : NativeEvent}
    {code : List Instr} (he : DataChannel.handleNativeEvent c e = .ok code) :
    ∀ j ∈ code, j.Allocated s := by
  unfold DataChannel.handleNativeEvent at he
  split at he <;> cases he <;> simp [Instr.Allocated,QueueRef.Allocated,Item.Allocated,hc]

omit h in
lemma allocated_channel_teardown {c : ChannelId} (hc : c < s.nextChannel) (b : Bool) :
    ∀ j ∈ DataChannel.teardown c b, j.Allocated s := by
  cases b <;>
    simp [DataChannel.teardown,Instr.Allocated,QueueRef.Allocated,Item.Allocated,hc]

lemma sound_channel {c : ChannelId} {i : ChannelInstr} (hc : c < s.nextChannel) :
    Sound s (DataChannel.exec c i s) := by
  fun_cases DataChannel.exec c i s
  case case2 | case8 => exact ⟨h,Grows.refl s⟩
  case case7 => exact sound_execAwait h _
  case case9 e code he =>
    refine .next (h.record _) rfl rfl ?_
    have := allocated_handleNativeEvent hc he
    simpa [or_imp,forall_and,Instr.Allocated] using ⟨this,hc⟩
  case case10 => exact .next (h.record _) rfl rfl (by simp)
  case case17 b _ =>
    exact .next (h.setChannel rfl) rfl rfl (allocated_channel_teardown hc b)
  case case19 => exact .next h rfl rfl (by simpa [Instr.Allocated] using h.owner c hc)
  case case1 | case4 | case6 | case11 | case12 | case13 | case14 | case16 =>
    exact .next h rfl rfl (by simp [Instr.Allocated,QueueRef.Allocated,Item.Allocated,hc])
  case case3 | case5 | case15 | case18 | case20 =>
    exact .next (h.setChannel rfl) rfl rfl
      (by simp [DataChannel.closeBody,Instr.Allocated,SubmitInstr.Allocated,Resume.Allocated,hc])

omit h in
lemma allocated_peer_teardown {p : PeerId} (hp : p < s.nextPeer) (b : Bool) :
    ∀ j ∈ PeerConnection.teardown p b, j.Allocated s := by
  simp [PeerConnection.teardown,Instr.Allocated,QueueRef.Allocated,RuntimeInstr.Allocated,hp]

lemma sound_handle {p : PeerId} (hp : p < s.nextPeer) {e : NativeEvent} {s' : Shared}
    {code : List Instr} (he : PeerConnection.Handled p e s s' code) : Sound s (.next s' code) := by
  cases he with
  | candidate hk | negotiation hk =>
    exact .next h rfl rfl (by simp [Instr.Allocated,QueueRef.Allocated,Item.Allocated,hp])
  | state v ice gathering signaling => exact .next (h.setPeer (h.channels p)) rfl rfl (by simp)
  | register hk => exact .next h rfl rfl (by simp [Instr.Allocated,hp])
  | deliver hc =>
    have := h.channels p _ (LinkedMap.mem_values_of_lookup hc)
    exact .next h rfl rfl (by simpa [Instr.Allocated] using this)
  | park hc => exact .next (h.setPeer (h.channels p)) rfl rfl (by simp)

/-- A registration constructs the channel it stores. -/
lemma heap_register {p : PeerId} (hp : p < s.nextPeer) (handle : ℤ) (info : ChannelInfo) (b : Bool) :
    Heap ((s.newChannel p handle info b).setPeer p (·.register handle s.nextChannel)) := by
  refine (h.newChannel hp handle info b).setPeer ?_
  intro d hd
  rcases LinkedMap.mem_values_insert hd with hd | rfl
  · exact Nat.lt_succ_of_lt (h.channels p d hd)
  · exact Nat.lt_succ_self _

lemma sound_peer {p : PeerId} {i : PeerInstr} (hi : (Instr.peer p i).Allocated s) :
    Sound s (PeerConnection.exec p i s) := by
  have hp : p < s.nextPeer := by cases i <;> first | exact hi | exact hi.1
  fun_cases PeerConnection.exec p i s
  case case2 | case9 | case12 => exact ⟨h,Grows.refl s⟩
  case case3 =>
    refine ⟨heap_register h hp _ _ _,⟨le_rfl,Nat.le_succ _⟩,?_⟩
    intro j hj
    rcases List.mem_append.mp hj with hj | hj
    · obtain ⟨e,-,rfl⟩ := List.mem_map.mp hj
      exact Nat.lt_succ_self _
    · cases List.mem_singleton.mp hj
      exact ⟨hp,Nat.lt_succ_self _⟩
  case case4 c =>
    refine .next { h with knownChannels := ?_ } rfl rfl (by simp)
    simpa using ⟨hi.2,h.knownChannels⟩
  case case8 => exact sound_execAwait h _
  case case10 e s' code he =>
    obtain ⟨h',hg,hcode⟩ := sound_handle h hp (PeerConnection.handled_of_handleNativeEvent he)
    refine ⟨h'.record _,hg,?_⟩
    simpa [or_imp,forall_and] using ⟨hcode,lt_of_lt_of_le hp hg.1⟩
  case case11 => exact .next (h.record _) rfl rfl (by simp)
  case case13 b _ _ =>
    refine ⟨heap_register h hp _ _ _,⟨le_rfl,Nat.le_succ _⟩,?_⟩
    intro j hj
    simp only [List.mem_append,List.mem_singleton,List.mem_map,or_assoc] at hj
    rcases hj with rfl | ⟨e,-,rfl⟩ | hj
    · exact ⟨hp,Nat.lt_succ_self _⟩
    · exact Nat.lt_succ_self _
    · split_ifs at hj
      · cases List.mem_singleton.mp hj
        exact Nat.lt_succ_self _
      · simp at hj
  case case14 =>
    exact .next (h.setPeer fun c hc => h.channels p c (LinkedMap.mem_values_erase hc)) rfl rfl
      (by simp)
  case case17 b _ =>
    exact .next (h.setPeer (h.channels p)) rfl rfl (allocated_peer_teardown hp b)
  case case19 b =>
    exact .next (h.setPeer (by simp)) rfl rfl (by simpa [Instr.Allocated] using h.channels p)
  case case1 | case5 | case7 | case15 | case16 =>
    exact .next h rfl rfl (by simp [Instr.Allocated,hp])
  case case6 | case18 | case20 | case21 | case22 =>
    exact .next (h.setPeer (h.channels p)) rfl rfl
      (by simp [PeerConnection.closeBody,Instr.Allocated,SubmitInstr.Allocated,Resume.Allocated,hp])

lemma sound_resume {r : Resume} {e : NativeEvent} (hr : r.Allocated s) :
    Sound s (WebRtcRuntime.resume r e s) := by
  fun_cases WebRtcRuntime.resume r e s
  case case3 | case5 | case7 => exact ⟨h,Grows.refl s⟩
  case case8 capacity timeout =>
    refine ⟨h.newPeer _ _ _,⟨Nat.le_succ _,le_rfl⟩,?_⟩
    simp [Instr.Allocated,RuntimeInstr.Allocated,Shared.newPeer]
  case case1 | case2 | case4 | case6 =>
    exact .next h rfl rfl (by simp [Instr.Allocated,RuntimeInstr.Allocated])
  case case9 | case11 => exact .next h rfl rfl (List.forall_mem_singleton.mpr hr)
  case case10 => exact .next h rfl rfl (List.forall_mem_singleton.mpr ⟨hr,trivial⟩)

lemma heap_unlock : Heap (WebRtcRuntime.unlock s) := h.setRuntime h.peers

lemma sound_submit {t : TaskId} {i : SubmitInstr} (hi : i.Allocated s) :
    Sound s (WebRtcRuntime.execSubmit t i s) := by
  fun_cases WebRtcRuntime.execSubmit t i s
  case case1 | case12 => exact ⟨h,Grows.refl s⟩
  case case2 | case8 =>
    exact .next ((h.setRuntime h.peers).record _) rfl rfl
      (by simpa [Instr.Allocated,SubmitInstr.Allocated] using hi)
  case case3 =>
    exact WebRtcRuntime.withLock_of trivial (.next (h.setRuntime h.peers) rfl rfl
      (by simpa [Instr.Allocated,SubmitInstr.Allocated] using hi))
  case case4 | case6 => exact ⟨heap_unlock h,Grows.refl s⟩
  case case5 | case7 =>
    exact .next h rfl rfl (by simpa [Instr.Allocated,SubmitInstr.Allocated] using hi)
  case case9 =>
    exact .next ((heap_unlock h).record _) rfl rfl
      (by simpa [Instr.Allocated,SubmitInstr.Allocated] using hi)
  case case10 => trivial
  case case11 => exact sound_resume h hi

lemma sound_loop (i : LoopInstr) : Sound s (WebRtcRuntime.execLoop i s) := by
  fun_cases WebRtcRuntime.execLoop i s
  case case1 | case2 | case3 | case8 | case9 | case10 =>
    exact .next h rfl rfl (by simp [Instr.Allocated,RuntimeInstr.Allocated])
  case case4 e es _ =>
    refine .next ((h.outside es s.cancelled).record _) rfl rfl ?_
    simp only [List.mem_singleton,forall_eq]
    split_ifs <;> trivial
  case case5 e =>
    refine WebRtcRuntime.withLock_of trivial ?_
    split
    · next p hp =>
      have := h.peers p (LinkedMap.mem_values_of_lookup hp)
      exact .next h rfl rfl (by simpa [Instr.Allocated] using this)
    · exact .next (h.setRuntime h.peers) rfl rfl (by simp)
  case case6 e =>
    refine WebRtcRuntime.withLock_of trivial ?_
    split
    · exact .next h rfl rfl (by simp)
    · exact .next ((h.setRuntime h.peers).record _) rfl rfl (by simp [Instr.Allocated])
  case case7 => exact .next (h.completeOperation _ _) rfl rfl (by simp)

lemma allocated_afterDrain (operations : List ℤ) (failure : Option Exn) :
    ∀ j ∈ WebRtcRuntime.afterDrain s.runtime.peers.values operations failure, j.Allocated s := by
  intro j hj
  simp only [WebRtcRuntime.afterDrain,List.mem_append,List.mem_map] at hj
  rcases hj with (⟨p,hp,rfl⟩ | ⟨op,-,rfl⟩) | hj
  · exact h.peers p hp
  · trivial
  · simp only [List.mem_cons,List.not_mem_nil,or_false] at hj
    rcases hj with rfl | rfl <;> trivial

lemma sound_runtime {t : TaskId} {i : RuntimeInstr} (hi : i.Allocated s) :
    Sound s (WebRtcRuntime.execRuntime t i s) := by
  fun_cases WebRtcRuntime.execRuntime t i s
  case case1 | case9 | case13 | case14 | case19 | case20 =>
    exact .next (h.setRuntime h.peers) rfl rfl (by
      simp [WebRtcRuntime.closeBody,WebRtcRuntime.teardown,Instr.Allocated,SubmitInstr.Allocated,
        Resume.Allocated,RuntimeInstr.Allocated])
  case case2 p =>
    exact WebRtcRuntime.withLock_of trivial
      (.next (h.setRuntime h.peers) rfl rfl (List.forall_mem_singleton.mpr hi))
  case case3 => exact ⟨heap_unlock h,Grows.refl s⟩
  case case4 p _ => exact .next h rfl rfl (List.forall_mem_singleton.mpr hi)
  case case5 p _ =>
    refine .next ((heap_unlock h).setRuntime ?_) rfl rfl ?_
    · intro q hq
      rcases LinkedMap.mem_values_insert hq with hq | rfl
      · exact h.peers q hq
      · exact hi
    · simpa [or_imp,forall_and,Instr.Allocated] using ⟨fun _ _ => hi,hi⟩
  case case6 p =>
    refine .next { h with knownPeers := ?_ } rfl rfl (by simp)
    simpa using ⟨hi,h.knownPeers⟩
  case case7 p _ =>
    refine WebRtcRuntime.withLock_of trivial ?_
    split_ifs
    · exact .next (h.setRuntime fun q hq => h.peers q (LinkedMap.mem_values_erase hq)) rfl rfl
        (by simp)
    · exact .next h rfl rfl (by simp)
  case case11 => exact sound_execAwait h _
  case case15 failure =>
    exact WebRtcRuntime.withLock_of trivial (.next ((h.setRuntime (by simp)).record _) rfl rfl
      (allocated_afterDrain h _ failure))
  case case16 => exact .next (h.completeOperation _ _) rfl rfl (by simp)
  case case21 => exact WebRtcRuntime.withLock_of trivial (.next h rfl rfl (by simp))
  case case17 | case18 =>
    exact .next (h.record _) rfl rfl (by simp [Instr.Allocated,RuntimeInstr.Allocated])
  case case8 | case10 | case12 =>
    exact .next h rfl rfl (by simp [Instr.Allocated,RuntimeInstr.Allocated])

/-- Every instruction mentions constructed objects only, in what it stores and in what it
leaves to be run. -/
theorem sound_exec {x : Choice} {t : TaskId} {i : Instr} (hi : i.Allocated s) :
    Sound s (exec x t i s) := by
  cases x with
  | ok =>
    cases i with
    | send q y => exact sound_execSend h hi
    | sendSuspended q y => exact sound_execSendSuspended h hi
    | closeQueue q => exact .next (h.setQueue (h.queued q)) rfl rfl (by simp)
    | channel c i => exact sound_channel h hi
    | peer p i => exact sound_peer h hi
    | submit i => exact sound_submit h hi
    | loop i => exact sound_loop h i
    | runtime i => exact sound_runtime h hi
  | fail message =>
    simp only [exec]
    fun_cases execFail message i s
    case case1 => exact ⟨h,Grows.refl s⟩
    case case2 => exact ⟨((heap_unlock h).setRuntime h.peers).record _,Grows.refl s⟩
    case case3 | case4 =>
      exact .next (h.record _) rfl rfl (by simp [Instr.Allocated,RuntimeInstr.Allocated])
    case case5 => trivial
  | cancel =>
    simp only [exec]
    fun_cases execCancel i s <;> first | exact ⟨h,Grows.refl s⟩ | trivial

end Sound

/-- The objects mentioned by the state or by pending code have been constructed. -/
structure Constructed (c : Config) : Prop where
  heap : Heap c.shared
  code : ∀ t, ∀ j ∈ c.tasks t, j.Allocated c.shared

lemma allocated_handler {s : Shared} {e : Exn} {i : Instr} {code : List Instr}
    (hi : i.Allocated s) (hc : handler e i = some code) : ∀ j ∈ code, j.Allocated s := by
  unfold handler at hc
  split at hc
  · cases hc; simp [Instr.Allocated]
  · cases hc; simpa [Instr.Allocated] using hi
  · cases hc; simpa [Instr.Allocated] using hi
  · cases hc; simp [Instr.Allocated,RuntimeInstr.Allocated]
  · cases hc

lemma Constructed.task {x : Choice} {t : TaskId} {c c' : Config} (h : Constructed c)
    (hs : TaskStep x t c c') : Constructed c' := by
  have hsound : ∀ i rest, c.tasks t = i :: rest → Sound c.shared (exec x t i c.shared) :=
    fun i rest head => sound_exec h.heap (h.code t i (by simp [head]))
  refine ⟨?_,?_⟩
  · cases hs with
    | next head he =>
      have := hsound _ _ head
      rw [he] at this
      exact this.1
    | throw head he =>
      have := hsound _ _ head
      rw [he] at this
      exact this.1
  · refine hs.assertions (A := fun s _ j => j.Allocated s) h.code ?_ ?_
    · intro i rest s code head he
      have := hsound i rest head
      rw [he] at this
      exact ⟨this.2.2,fun t' j _ hj => hj.mono this.2.1⟩
    · intro i rest s e head he
      have := hsound i rest head
      rw [he] at this
      exact ⟨fun k _ hk code hc j hj => allocated_handler (hk.mono this.2) hc j hj,
        fun t' j _ hj => hj.mono this.2⟩

lemma allocated_api {s : Shared} (h : Heap s) {a : Api} (ha : a.admitted s) :
    ∀ j ∈ a.code s, j.Allocated s := by
  have hp := h.knownPeers
  have hc := h.knownChannels
  cases a with
  | createPeerConnection _ _ | rotateCertificate | runtimeClose | diagnostics =>
    simp [Api.code,Instr.Allocated,SubmitInstr.Allocated,Resume.Allocated,RuntimeInstr.Allocated]
  | peerRequest p r =>
    simp [Api.code,Instr.Allocated,SubmitInstr.Allocated,Resume.Allocated,hp p ha.1]
  | channelRequest c r =>
    simp [Api.code,Instr.Allocated,SubmitInstr.Allocated,Resume.Allocated,hc c ha.1]
  | setBufferedAmountThresholds c low high =>
    simp [Api.code,Instr.Allocated,SubmitInstr.Allocated,Resume.Allocated,hc c ha.1]
  | createDescription p | setLocalDescription p _ | getStats p | createDataChannel p _ _ | peerClose p =>
    simp [Api.code,Instr.Allocated,SubmitInstr.Allocated,Resume.Allocated,hp p ha]
  | outstandingBytes c | channelClose c =>
    simp [Api.code,Instr.Allocated,SubmitInstr.Allocated,Resume.Allocated,hc c ha]

lemma constructed_receive {q : QueueRef} {c : Config} {s : Shared} (h : Constructed c)
    (hs : receive q c.shared = some s) : Constructed { c with shared := s } := by
  obtain ⟨x,xs,known,hb,hk,rfl⟩ := receive_cases hs
  have hq := h.heap.queued q
  have hheap : Heap (c.shared.setQueue q fun b => { b with buffer := xs }) :=
    h.heap.setQueue fun y hy => hq y (by simp_all)
  refine ⟨{ hheap with knownChannels := ?_ },h.code⟩
  intro d hd
  rcases hk d hd with hd | rfl
  · exact h.heap.knownChannels d hd
  · exact hq (.channel d) (by simp [hb])

lemma constructed_init (shutdownTimeout : ℤ) (fingerprint : String) :
    Constructed (init shutdownTimeout fingerprint) := by
  refine ⟨?_,?_⟩
  · constructor <;> simp [init]
  · intro t j hj
    simp only [init] at hj
    split_ifs at hj
    · simp only [List.mem_cons,List.not_mem_nil,or_false] at hj
      rcases hj with rfl | rfl <;> trivial
    · simp at hj

theorem constructed_step {l : Label} {c c' : Config} (h : Constructed c)
    (hs : step l c = some c') : Constructed c' := by
  cases step_cases hs with
  | task hl active ht => exact h.task ht
  | @call t a ht idle admitted =>
    refine ⟨h.heap,fun t' j hj => ?_⟩
    by_cases he : t' = t
    · subst t'
      simp only [Function.update_self] at hj
      exact allocated_api h.heap admitted j hj
    · simp only [Function.update_of_ne he] at hj
      exact h.code t' j hj
  | receive ht idle hr => exact constructed_receive h hr
  | cancel | native => exact ⟨h.heap.outside _ _,h.code⟩

/-- No reachable state mentions an object that does not exist. -/
theorem constructed_of_reachable {shutdownTimeout : ℤ} {fingerprint : String}
    {ok : Label → Config → Prop} {c : Config} (h : Reachable shutdownTimeout fingerprint ok c) :
    Constructed c :=
  h.invariant (constructed_init _ _) fun _ _ _ hd _ hs => constructed_step hd hs

end Kestara.Kotlin
