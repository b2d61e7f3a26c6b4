import Kestara.Kotlin.Teardown

/-!
# Steps that concern the end of objects

The closed flags are set by the compare-and-set of `markClosed` only, which leaves the whole
teardown to be run; queues are closed by the teardown only; what has been closed or completed
stays so.
-/
namespace Kestara.Kotlin
open Interleaving

structure CloseEffect (s s' : Shared) (i : Instr) (code : List Instr) : Prop where
  nextChannel : s.nextChannel ≤ s'.nextChannel
  nextPeer : s.nextPeer ≤ s'.nextPeer
  channel : ∀ d < s.nextChannel, (s'.channel d).closed = (s.channel d).closed ∨
    ∃ b, i = .channel d (.markClosed b) ∧ (s.channel d).closed = false ∧
      (s'.channel d).closed = true ∧ code = DataChannel.teardown d b
  channelCompletion : ∀ d < s.nextChannel, (s.channel d).closeCompletion.isSome = true →
    (s'.channel d).closeCompletion.isSome = true
  freshChannel : ∀ d, s.nextChannel ≤ d → d < s'.nextChannel → (s'.channel d).closed = false ∧
    (s'.queue (.event d)).closed = false
  peer : ∀ p < s.nextPeer, (s'.peer p).closed = (s.peer p).closed ∨
    ∃ b, i = .peer p (.markClosed b) ∧ (s.peer p).closed = false ∧
      (s'.peer p).closed = true ∧ code = PeerConnection.teardown p b
  peerCompletion : ∀ p < s.nextPeer, (s.peer p).closeCompletion.isSome = true →
    (s'.peer p).closeCompletion.isSome = true
  freshPeer : ∀ p, s.nextPeer ≤ p → p < s'.nextPeer → (s'.peer p).closed = false
  queue : ∀ q, q.Allocated s → (s'.queue q).closed = (s.queue q).closed ∨
    i = .closeQueue q ∧ (s'.queue q).closed = true

section Frames
variable {s s' : Shared} {i : Instr} {code : List Instr}

lemma CloseEffect.same (hs : SameObjects s s') : CloseEffect s s' i code where
  nextChannel := hs.nextChannel.ge
  nextPeer := hs.nextPeer.ge
  channel := by simp [hs.channel]
  channelCompletion := by simp [hs.channel]
  freshChannel := fun d h₁ h₂ => absurd (hs.nextChannel ▸ h₂) (not_lt.mpr h₁)
  peer := by simp [hs.peer]
  peerCompletion := by simp [hs.peer]
  freshPeer := fun p h₁ h₂ => absurd (hs.nextPeer ▸ h₂) (not_lt.mpr h₁)
  queue := by simp [hs.queue]

lemma CloseEffect.setChannel {c : ChannelId} {f : DataChannel → DataChannel}
    (hc : (f (s.channel c)).closed = (s.channel c).closed ∨
      ∃ b, i = .channel c (.markClosed b) ∧ (s.channel c).closed = false ∧
        (f (s.channel c)).closed = true ∧ code = DataChannel.teardown c b)
    (hd : (s.channel c).closeCompletion.isSome = true →
      (f (s.channel c)).closeCompletion.isSome = true) :
    CloseEffect s (s.setChannel c f) i code where
  nextChannel := le_rfl
  nextPeer := le_rfl
  channel := by
    intro d _
    by_cases he : d = c
    · subst he
      simpa [Shared.setChannel] using hc
    · simp [Shared.setChannel,he]
  channelCompletion := by
    intro d _ h
    by_cases he : d = c
    · subst he
      simpa [Shared.setChannel] using hd h
    · simpa [Shared.setChannel,he] using h
  freshChannel := fun d h₁ h₂ => absurd h₂ (not_lt.mpr h₁)
  peer := fun p _ => .inl rfl
  peerCompletion := fun p _ h => h
  freshPeer := fun p h₁ h₂ => absurd h₂ (not_lt.mpr h₁)
  queue := fun q _ => .inl rfl

lemma CloseEffect.setPeer {q : PeerId} {f : PeerConnection → PeerConnection}
    (hc : (f (s.peer q)).closed = (s.peer q).closed ∨
      ∃ b, i = .peer q (.markClosed b) ∧ (s.peer q).closed = false ∧
        (f (s.peer q)).closed = true ∧ code = PeerConnection.teardown q b)
    (hd : (s.peer q).closeCompletion.isSome = true →
      (f (s.peer q)).closeCompletion.isSome = true) :
    CloseEffect s (s.setPeer q f) i code where
  nextChannel := le_rfl
  nextPeer := le_rfl
  channel := fun d _ => .inl rfl
  channelCompletion := fun d _ h => h
  freshChannel := fun d h₁ h₂ => absurd h₂ (not_lt.mpr h₁)
  peer := by
    intro p _
    by_cases he : p = q
    · subst he
      simpa [Shared.setPeer] using hc
    · simp [Shared.setPeer,he]
  peerCompletion := by
    intro p _ h
    by_cases he : p = q
    · subst he
      simpa [Shared.setPeer] using hd h
    · simpa [Shared.setPeer,he] using h
  freshPeer := fun p h₁ h₂ => absurd h₂ (not_lt.mpr h₁)
  queue := fun q _ => .inl rfl

lemma CloseEffect.setQueue {q : QueueRef} {f : BoundedQueue Item → BoundedQueue Item}
    {g : History → History}
    (hc : (f (s.queue q)).closed = (s.queue q).closed ∨
      i = .closeQueue q ∧ (f (s.queue q)).closed = true) :
    CloseEffect s ((s.setQueue q f).record g) i code where
  nextChannel := le_rfl
  nextPeer := le_rfl
  channel := fun d _ => .inl rfl
  channelCompletion := fun d _ h => h
  freshChannel := fun d h₁ h₂ => absurd h₂ (not_lt.mpr h₁)
  peer := fun p _ => .inl rfl
  peerCompletion := fun p _ h => h
  freshPeer := fun p h₁ h₂ => absurd h₂ (not_lt.mpr h₁)
  queue := by
    intro q' _
    by_cases he : q' = q
    · subst he
      simpa [Shared.setQueue,Shared.record] using hc
    · simp [Shared.setQueue,Shared.record,he]

lemma CloseEffect.register (p : PeerId) (handle : ℤ) (info : ChannelInfo) (b : Bool) :
    CloseEffect s ((s.newChannel p handle info b).setPeer p (·.register handle s.nextChannel)) i
      code where
  nextChannel := Nat.le_succ _
  nextPeer := le_rfl
  channel := by
    intro d hd
    have hne : d ≠ s.nextChannel := Nat.ne_of_lt hd
    simp [Shared.setPeer,Shared.newChannel,hne]
  channelCompletion := by
    intro d hd h
    have hne : d ≠ s.nextChannel := Nat.ne_of_lt hd
    simpa [Shared.setPeer,Shared.newChannel,hne] using h
  freshChannel := by
    intro d h₁ h₂
    obtain rfl : d = s.nextChannel := le_antisymm (Nat.lt_succ_iff.mp h₂) h₁
    simp [Shared.setPeer,Shared.newChannel]
  peer := by
    intro q _
    by_cases he : q = p
    · subst he
      simp [Shared.setPeer,Shared.newChannel,PeerConnection.register]
    · simp [Shared.setPeer,Shared.newChannel,he]
  peerCompletion := by
    intro q _ h
    by_cases he : q = p
    · subst he
      simpa [Shared.setPeer,Shared.newChannel,PeerConnection.register] using h
    · simpa [Shared.setPeer,Shared.newChannel,he] using h
  freshPeer := fun p h₁ h₂ => absurd h₂ (not_lt.mpr h₁)
  queue := by
    intro q hq
    refine .inl ?_
    have h₁ : q ≠ .event s.nextChannel := by
      rintro rfl
      exact lt_irrefl _ hq
    have h₂ : q ≠ .message s.nextChannel := by
      rintro rfl
      exact lt_irrefl _ hq
    simp [Shared.setPeer,Shared.newChannel,h₁,h₂]

lemma CloseEffect.newPeer (handle : ℤ) (capacity : ReceiveQueueCapacity) (timeout : ℤ) :
    CloseEffect s (s.newPeer handle capacity timeout) i code where
  nextChannel := le_rfl
  nextPeer := Nat.le_succ _
  channel := fun d _ => .inl rfl
  channelCompletion := fun d _ h => h
  freshChannel := fun d h₁ h₂ => absurd h₂ (not_lt.mpr h₁)
  peer := by
    intro p hp
    have hne : p ≠ s.nextPeer := Nat.ne_of_lt hp
    simp [Shared.newPeer,hne]
  peerCompletion := by
    intro p hp h
    have hne : p ≠ s.nextPeer := Nat.ne_of_lt hp
    simpa [Shared.newPeer,hne] using h
  freshPeer := by
    intro p h₁ h₂
    obtain rfl : p = s.nextPeer := le_antisymm (Nat.lt_succ_iff.mp h₂) h₁
    simp [Shared.newPeer]
  queue := by
    intro q hq
    refine .inl ?_
    have hne : ∀ r : QueueRef, (r.Allocated s → s.nextPeer < s.nextPeer) → q ≠ r := by
      rintro r hr rfl
      exact lt_irrefl _ (hr hq)
    have h₁ : q ≠ .localDescription s.nextPeer := hne _ id
    have h₂ : q ≠ .localCandidate s.nextPeer := hne _ id
    have h₃ : q ≠ .incomingDataChannel s.nextPeer := hne _ id
    have h₄ : q ≠ .negotiationNeeded s.nextPeer := hne _ id
    simp [Shared.newPeer,h₁,h₂,h₃,h₄]

end Frames

section Effects
variable (s : Shared)

lemma close_channel {c : ChannelId} {i : ChannelInstr} {s' : Shared} {code : List Instr}
    (h : DataChannel.exec c i s = .next s' code) : CloseEffect s s' (.channel c i) code := by
  revert h
  fun_cases DataChannel.exec c i s <;> intro h
  case case7 =>
    unfold execAwait at h
    split at h <;> cases h
    exact .same (.refl s)
  case case9 e code he =>
    cases h
    exact ⟨le_rfl,le_rfl,fun d _ => .inl rfl,fun d _ h => h,
      fun d h₁ h₂ => absurd h₂ (not_lt.mpr h₁),fun p _ => .inl rfl,fun p _ h => h,
      fun p h₁ h₂ => absurd h₂ (not_lt.mpr h₁),fun q _ => .inl rfl⟩
  case case17 b hc =>
    cases h
    exact .setChannel (.inr ⟨b,rfl,by simpa using hc,rfl,rfl⟩) id
  case case20 r =>
    cases h
    exact .setChannel (.inl rfl) (by simp [complete])
  case case3 | case5 | case15 | case18 =>
    cases h
    exact .setChannel (.inl rfl) id
  all_goals cases h
  all_goals exact .same ⟨rfl,rfl,rfl,rfl,rfl,rfl,rfl,rfl⟩

lemma CloseEffect.record {s s' : Shared} {i : Instr} {code : List Instr} {g : History → History}
    (h : CloseEffect s s' i code) : CloseEffect s (s'.record g) i code :=
  ⟨h.nextChannel,h.nextPeer,h.channel,h.channelCompletion,h.freshChannel,h.peer,h.peerCompletion,
    h.freshPeer,h.queue⟩

lemma close_peer {p : PeerId} {i : PeerInstr} {s' : Shared} {code : List Instr}
    (h : PeerConnection.exec p i s = .next s' code) : CloseEffect s s' (.peer p i) code := by
  revert h
  fun_cases PeerConnection.exec p i s <;> intro h
  case case8 =>
    unfold execAwait at h
    split at h <;> cases h
    exact .same (.refl s)
  case case3 | case13 =>
    cases h
    exact .register p _ _ _
  case case10 e s'' code' he =>
    cases h
    cases PeerConnection.handled_of_handleNativeEvent he with
    | state v ice gathering signaling => exact .record (.setPeer (.inl rfl) id)
    | park hc => exact .record (.setPeer (.inl rfl) id)
    | candidate | negotiation | register | deliver => exact .record (.same (.refl s))
  case case4 =>
    cases h
    exact ⟨le_rfl,le_rfl,fun d _ => .inl rfl,fun d _ h => h,
      fun d h₁ h₂ => absurd h₂ (not_lt.mpr h₁),fun p _ => .inl rfl,fun p _ h => h,
      fun p h₁ h₂ => absurd h₂ (not_lt.mpr h₁),fun q _ => .inl rfl⟩
  case case17 b hc =>
    cases h
    exact .setPeer (.inr ⟨b,rfl,by simpa using hc,rfl,rfl⟩) id
  case case22 r =>
    cases h
    exact .setPeer (.inl rfl) (by simp [complete])
  case case6 | case14 | case18 | case19 | case20 | case21 =>
    cases h
    exact .setPeer (.inl rfl) id
  all_goals cases h
  all_goals exact .same ⟨rfl,rfl,rfl,rfl,rfl,rfl,rfl,rfl⟩

/-- What every step does to what can be closed. -/
theorem closeEffect_exec {x : Choice} {t : TaskId} {i : Instr} {s' : Shared} {code : List Instr}
    (h : exec x t i s = .next s' code) : CloseEffect s s' i code := by
  by_cases hi : i.isSystem = true
  · obtain hs | ⟨handle,capacity,timeout,rfl,-⟩ := objects_of_system hi h
    · exact .same hs
    · exact .newPeer handle capacity timeout
  · have hok := execOk_of_object (by simpa using hi) h
    cases i with
    | submit | loop | runtime => exact (hi rfl).elim
    | channel c i => exact close_channel s hok
    | peer p i => exact close_peer s hok
    | send q y =>
      simp only [execOk,execSend] at hok
      split_ifs at hok <;> cases hok
      · exact .setQueue (.inl (by simp))
      · exact .same (.refl s)
    | sendSuspended q y =>
      simp only [execOk,execSendSuspended] at hok
      split_ifs at hok
      cases hok
      exact .setQueue (.inl (by simp))
    | closeQueue q =>
      cases hok
      exact .setQueue (g := id) (.inr ⟨rfl,by simp⟩)

lemma closeEffect_throw {x : Choice} {t : TaskId} {i : Instr} {s' : Shared} {e : Exn}
    (h : exec x t i s = .throw s' e) : CloseEffect s s' i [] := .same (objects_of_throw h)

end Effects

end Kestara.Kotlin
