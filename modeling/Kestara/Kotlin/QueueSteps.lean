import Kestara.Kotlin.CloseSteps

/-!
# Steps that concern queues

Elements are put by the two send instructions only; everything else leaves the contents of the
queues that exist as they are.
-/
namespace Kestara.Kotlin
open Interleaving

/-- The instruction sends the element. -/
def Instr.sends (q : QueueRef) (x : Item) (i : Instr) : Prop :=
  i = .send q x ∨ i = .sendSuspended q x

structure QueueEffect (s s' : Shared) (i : Instr) : Prop where
  capacity : ∀ q, q.Allocated s → (s'.queue q).capacity = (s.queue q).capacity
  contents : s'.history.put = s.history.put ∧
      (∀ q, q.Allocated s → (s'.queue q).buffer = (s.queue q).buffer) ∨
    ∃ q x, i.sends q x ∧ (i = .send q x → (s.queue q).closed = false) ∧
      (s.queue q).hasRoom = true ∧ s'.history.put = s.history.put ++ [(q,x)] ∧
      (s'.queue q).buffer = ((s.queue q).put x).buffer ∧
      ∀ q' ≠ q, (s'.queue q').buffer = (s.queue q').buffer
  fresh : ∀ d, s.nextChannel ≤ d → d < s'.nextChannel →
    (s'.queue (.event d)).capacity = some bufferedCapacity ∧ (s'.queue (.event d)).buffer = []

section Frames
variable {s s' : Shared} {i : Instr}

lemma QueueEffect.same (hq : s'.queue = s.queue) (hp : s'.history.put = s.history.put)
    (hn : s'.nextChannel = s.nextChannel) : QueueEffect s s' i where
  capacity := by simp [hq]
  contents := .inl ⟨hp,by simp [hq]⟩
  fresh := fun d h₁ h₂ => absurd (hn ▸ h₂) (not_lt.mpr h₁)

lemma QueueEffect.put {q : QueueRef} {x : Item} (hi : i.sends q x)
    (hopen : i = .send q x → (s.queue q).closed = false) (hroom : (s.queue q).hasRoom = true) :
    QueueEffect s ((s.setQueue q (·.put x)).record fun h => { h with put := h.put ++ [(q,x)] }) i where
  capacity := by
    intro q' _
    by_cases he : q' = q
    · subst he
      simp [Shared.setQueue,Shared.record]
    · simp [Shared.setQueue,Shared.record,he]
  contents := by
    refine .inr ⟨q,x,hi,hopen,hroom,rfl,by simp [Shared.setQueue,Shared.record],?_⟩
    intro q' hne
    simp [Shared.setQueue,Shared.record,hne]
  fresh := fun d h₁ h₂ => absurd h₂ (not_lt.mpr h₁)

lemma QueueEffect.register (p : PeerId) (handle : ℤ) (info : ChannelInfo) (b : Bool) :
    QueueEffect s ((s.newChannel p handle info b).setPeer p (·.register handle s.nextChannel)) i := by
  have hold : ∀ q : QueueRef, q.Allocated s →
      (((s.newChannel p handle info b).setPeer p (·.register handle s.nextChannel)).queue q) =
        s.queue q := by
    intro q hq
    have h₁ : q ≠ .event s.nextChannel := by
      rintro rfl
      exact lt_irrefl _ hq
    have h₂ : q ≠ .message s.nextChannel := by
      rintro rfl
      exact lt_irrefl _ hq
    simp [Shared.setPeer,Shared.newChannel,h₁,h₂]
  refine ⟨fun q hq => by rw [hold q hq],.inl ⟨rfl,fun q hq => by rw [hold q hq]⟩,?_⟩
  intro d h₁ h₂
  obtain rfl : d = s.nextChannel := le_antisymm (Nat.lt_succ_iff.mp h₂) h₁
  simp [Shared.setPeer,Shared.newChannel]

lemma QueueEffect.newPeer (handle : ℤ) (capacity : ReceiveQueueCapacity) (timeout : ℤ) :
    QueueEffect s (s.newPeer handle capacity timeout) i := by
  have hold : ∀ q : QueueRef, q.Allocated s →
      (s.newPeer handle capacity timeout).queue q = s.queue q := by
    intro q hq
    have hne : ∀ r : QueueRef, (r.Allocated s → s.nextPeer < s.nextPeer) → q ≠ r := by
      rintro r hr rfl
      exact lt_irrefl _ (hr hq)
    have h₁ : q ≠ .localDescription s.nextPeer := hne _ id
    have h₂ : q ≠ .localCandidate s.nextPeer := hne _ id
    have h₃ : q ≠ .incomingDataChannel s.nextPeer := hne _ id
    have h₄ : q ≠ .negotiationNeeded s.nextPeer := hne _ id
    simp [Shared.newPeer,h₁,h₂,h₃,h₄]
  exact ⟨fun q hq => by rw [hold q hq],.inl ⟨rfl,fun q hq => by rw [hold q hq]⟩,
    fun d h₁ h₂ => absurd h₂ (not_lt.mpr h₁)⟩

end Frames

section Effects
variable (s : Shared)

lemma queue_channel {c : ChannelId} {i : ChannelInstr} {s' : Shared} {code : List Instr}
    (h : DataChannel.exec c i s = .next s' code) : QueueEffect s s' (.channel c i) := by
  revert h
  fun_cases DataChannel.exec c i s <;> intro h
  case case7 =>
    unfold execAwait at h
    split at h <;> cases h
    exact .same rfl rfl rfl
  all_goals cases h
  all_goals exact .same rfl rfl rfl

lemma queue_peer {p : PeerId} {i : PeerInstr} {s' : Shared} {code : List Instr}
    (h : PeerConnection.exec p i s = .next s' code) : QueueEffect s s' (.peer p i) := by
  revert h
  fun_cases PeerConnection.exec p i s <;> intro h
  case case8 =>
    unfold execAwait at h
    split at h <;> cases h
    exact .same rfl rfl rfl
  case case3 | case13 =>
    cases h
    exact .register p _ _ _
  case case10 e s'' code' he =>
    cases h
    cases PeerConnection.handled_of_handleNativeEvent he <;> exact .same rfl rfl rfl
  all_goals cases h
  all_goals exact .same rfl rfl rfl

/-- What every step does to the contents of the queues. -/
theorem queueEffect_exec {x : Choice} {t : TaskId} {i : Instr} {s' : Shared} {code : List Instr}
    (h : exec x t i s = .next s' code) : QueueEffect s s' i := by
  by_cases hi : i.isSystem = true
  · obtain hs | ⟨handle,capacity,timeout,rfl,-⟩ := objects_of_system hi h
    · exact .same hs.queue hs.put hs.nextChannel
    · exact .newPeer handle capacity timeout
  · have hok := execOk_of_object (by simpa using hi) h
    cases i with
    | submit | loop | runtime => exact (hi rfl).elim
    | channel c i => exact queue_channel s hok
    | peer p i => exact queue_peer s hok
    | send q y =>
      simp only [execOk,execSend] at hok
      split_ifs at hok with hc hr <;> cases hok
      · exact .put (.inl rfl) (fun _ => by simpa using hc) hr
      · exact .same rfl rfl rfl
    | sendSuspended q y =>
      simp only [execOk,execSendSuspended] at hok
      split_ifs at hok with hr
      cases hok
      exact .put (.inr rfl) (by simp) hr
    | closeQueue q =>
      cases hok
      refine ⟨?_,.inl ⟨rfl,?_⟩,fun d h₁ h₂ => absurd h₂ (not_lt.mpr h₁)⟩
      · intro q' _
        by_cases he : q' = q
        · subst he
          simp [Shared.setQueue]
        · simp [Shared.setQueue,he]
      · intro q' _
        by_cases he : q' = q
        · subst he
          simp [Shared.setQueue,BoundedQueue.close]
        · simp [Shared.setQueue,he]

end Effects

/-- The queues that have been put into exist. -/
theorem put_allocated {shutdownTimeout : ℤ} {fingerprint : String}
    {ok : Label → Config → Prop} {c : Config} (h : Reachable shutdownTimeout fingerprint ok c) :
    ∀ x ∈ c.shared.history.put, x.1.Allocated c.shared := by
  refine h.induct (I := fun c => ∀ x ∈ c.shared.history.put, x.1.Allocated c.shared)
    (by simp [init]) fun l d d' hd hI _ hs => ?_
  have hc := constructed_of_reachable hd
  cases step_cases hs with
  | @task _ x t _ hl active ht =>
    cases ht with
    | @next i rest s code head he =>
      have hclose := closeEffect_exec d.shared he
      have hg : Grows d.shared s := ⟨hclose.nextPeer,hclose.nextChannel⟩
      intro y hy
      obtain ⟨hput,-⟩ | ⟨q,z,hi,-,-,hput,-⟩ := (queueEffect_exec d.shared he).contents
      · exact (hI y (hput ▸ hy)).mono hg
      · rw [hput] at hy
        obtain hy | hy := List.mem_append.mp hy
        · exact (hI y hy).mono hg
        · cases List.mem_singleton.mp hy
          have ha := hc.code t i (by simp [head])
          obtain rfl | rfl := hi
          · exact ha.1.mono hg
          · exact ha.1.mono hg
    | @throw i rest s e head he =>
      have hs := objects_of_throw he
      intro y hy
      have hg : Grows d.shared s := ⟨hs.nextPeer.ge,hs.nextChannel.ge⟩
      exact (hI y (hs.put ▸ hy)).mono hg
  | call | cancel | native => exact hI
  | receive ht idle hr =>
    obtain ⟨x,xs,known,-,-,rfl⟩ := receive_cases hr
    exact hI

end Kestara.Kotlin
