import Kestara.Kotlin.Registration
import Kestara.Kotlin.RuntimeSteps
import Kestara.Kotlin.TeardownShape

/-!
# Closures along a run

What has been closed stays closed, and is closed by a coroutine that has the whole teardown in
front of everything else.
-/
namespace Kestara.Kotlin
open Interleaving

section Closures

/-- What has been closed, completed or called stays so. -/
structure Closures (s s' : Shared) : Prop where
  grows : Grows s s'
  channel : ∀ d < s.nextChannel, (s.channel d).closed = true → (s'.channel d).closed = true
  channelCompletion : ∀ d < s.nextChannel, (s.channel d).closeCompletion.isSome = true →
    (s'.channel d).closeCompletion.isSome = true
  peer : ∀ p < s.nextPeer, (s.peer p).closed = true → (s'.peer p).closed = true
  peerCompletion : ∀ p < s.nextPeer, (s.peer p).closeCompletion.isSome = true →
    (s'.peer p).closeCompletion.isSome = true
  queue : ∀ q, q.Allocated s → (s.queue q).closed = true → (s'.queue q).closed = true
  closed : s.runtime.closed = true → s'.runtime.closed = true
  scopeActive : s.runtime.scopeActive = false → s'.runtime.scopeActive = false
  completion : s.runtime.closeCompletion.isSome = true → s'.runtime.closeCompletion.isSome = true
  calls : ∀ x ∈ s.history.calls, x ∈ s'.history.calls

lemma CloseEffect.closures {s s' : Shared} {i : Instr} {code : List Instr}
    (h : CloseEffect s s' i code) (hr : RuntimeEffect s s' i code) : Closures s s' where
  grows := ⟨h.nextPeer,h.nextChannel⟩
  channel := by
    intro d hd hc
    obtain he | ⟨b,-,-,he,-⟩ := h.channel d hd
    · exact he.trans hc
    · exact he
  channelCompletion := h.channelCompletion
  peer := by
    intro p hp hc
    obtain he | ⟨b,-,-,he,-⟩ := h.peer p hp
    · exact he.trans hc
    · exact he
  peerCompletion := h.peerCompletion
  queue := by
    intro q hq hc
    obtain he | ⟨-,he⟩ := h.queue q hq
    · exact he.trans hc
    · exact he
  closed := by
    intro hc
    obtain he | ⟨f,-,he,-⟩ := hr.closed
    · exact he.trans hc
    · exact he
  scopeActive := hr.scopeActive
  completion := hr.completion
  calls := hr.calls

lemma closures_of_step {l : Label} {c c' : Config} (hs : step l c = some c') :
    Closures c.shared c'.shared := by
  cases step_cases hs with
  | @task _ x t _ hl active ht =>
    have hr := fun i => runtimeEffect_exec t c.shared x i
    cases ht with
    | @next i rest s code head he =>
      have hr := hr i
      rw [he] at hr
      exact (closeEffect_exec c.shared he).closures hr
    | @throw i rest s e head he =>
      have hr := hr i
      rw [he] at hr
      exact (closeEffect_throw c.shared he).closures hr
  | call | cancel | native => constructor <;> first | exact .refl _ | simp
  | @receive t q s ht idle hr =>
    obtain ⟨y,ys,known,-,-,rfl⟩ := receive_cases hr
    constructor
    case queue =>
      intro q' _ h
      by_cases hq : q' = q
      · subst hq
        simpa [Shared.setQueue] using h
      · simpa [Shared.setQueue,hq] using h
    all_goals first | exact .refl _ | simp [Shared.setQueue]

lemma step_frame {l : Label} {c c' : Config} (hs : step l c = some c') :
    ∃ i, Move.Frame c.shared i c'.shared := by
  obtain hq | ⟨t,x,i,rest,s,code,-,-,-,hm,rfl⟩ := delivery_cases hs
  · exact ⟨.loop .head,hq.same.frame _⟩
  · exact ⟨i,hm.frame⟩

end Closures

section Begins
variable {l : Label} {c c' : Config}

/-- A channel is closed by a coroutine that has its teardown in front. -/
lemma channel_begins {d : ChannelId} (hs : step l c = some c') (hd : d < c'.shared.nextChannel)
    (h : (c'.shared.channel d).closed = true) :
    d < c.shared.nextChannel ∧ ((c.shared.channel d).closed = true ∨
      ∃ t b rest, c'.tasks t = DataChannel.teardown d b ++ rest) := by
  cases step_cases hs with
  | @task _ x t _ hl active ht =>
    cases ht with
    | @next i rest s code head he =>
      have heff := closeEffect_exec c.shared he
      by_cases hlt : d < c.shared.nextChannel
      · refine ⟨hlt,?_⟩
        obtain h' | ⟨b,-,-,-,rfl⟩ := heff.channel d hlt
        · exact .inl (h'.symm.trans h)
        · exact .inr ⟨t,b,rest,by simp⟩
      · cases ((heff.freshChannel d (not_lt.mp hlt) hd).1.symm.trans h)
    | @throw i rest s e head he =>
      have hsame := objects_of_throw he
      change d < s.nextChannel at hd
      change (s.channel d).closed = true at h
      rw [hsame.nextChannel] at hd
      rw [hsame.channel] at h
      exact ⟨hd,.inl h⟩
  | call | cancel | native => exact ⟨hd,.inl h⟩
  | receive ht idle hr =>
    obtain ⟨y,ys,known,-,-,rfl⟩ := receive_cases hr
    exact ⟨hd,.inl h⟩

/-- A peer is closed by a coroutine that has its teardown in front. -/
lemma peer_begins {p : PeerId} (hs : step l c = some c') (hf : ∀ t, Formed (c.tasks t))
    (hp : p < c'.shared.nextPeer) (h : (c'.shared.peer p).closed = true) :
    p < c.shared.nextPeer ∧ ((c.shared.peer p).closed = true ∨
      ∃ t b r rest, c'.tasks t = PeerConnection.teardown p b ++ .peer p (.complete r) :: rest) := by
  cases step_cases hs with
  | @task _ x t _ hl active ht =>
    cases ht with
    | @next i rest s code head he =>
      have heff := closeEffect_exec c.shared he
      by_cases hlt : p < c.shared.nextPeer
      · refine ⟨hlt,?_⟩
        obtain h' | ⟨b,rfl,-,-,rfl⟩ := heff.peer p hlt
        · exact .inl (h'.symm.trans h)
        · have hft := hf t
          rw [head] at hft
          obtain ⟨r,rest',rfl⟩ := hft.1
          exact .inr ⟨t,b,r,rest',by simp⟩
      · cases ((heff.freshPeer p (not_lt.mp hlt) hp).symm.trans h)
    | @throw i rest s e head he =>
      have hsame := objects_of_throw he
      change p < s.nextPeer at hp
      change (s.peer p).closed = true at h
      rw [hsame.nextPeer] at hp
      rw [hsame.peer] at h
      exact ⟨hp,.inl h⟩
  | call | cancel | native => exact ⟨hp,.inl h⟩
  | receive ht idle hr =>
    obtain ⟨y,ys,known,-,-,rfl⟩ := receive_cases hr
    exact ⟨hp,.inl h⟩

/-- The runtime is closed by a coroutine that has the rest of `completeShutdown` in front. -/
lemma runtime_begins (hs : step l c = some c') (h : c'.shared.runtime.closed = true) :
    c.shared.runtime.closed = true ∨ ∃ t f rest, c'.tasks t = WebRtcRuntime.teardown f ++ rest := by
  cases step_cases hs with
  | @task _ x t _ hl active ht =>
    have hr := fun i => runtimeEffect_exec t c.shared x i
    cases ht with
    | @next i rest s code head he =>
      have hr := hr i
      rw [he] at hr
      obtain h' | ⟨f,-,-,rfl⟩ := hr.closed
      · exact .inl (h'.symm.trans h)
      · exact .inr ⟨t,f,rest,by simp⟩
    | @throw i rest s e head he =>
      have hr := hr i
      rw [he] at hr
      obtain h' | ⟨f,-,-,hcode⟩ := hr.closed
      · exact .inl (h'.symm.trans h)
      · cases hcode
  | call | cancel | native => exact .inl h
  | receive ht idle hr =>
    obtain ⟨y,ys,known,-,-,rfl⟩ := receive_cases hr
    exact .inl h

end Begins

end Kestara.Kotlin
