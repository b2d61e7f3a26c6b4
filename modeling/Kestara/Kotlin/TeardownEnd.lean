import Kestara.Kotlin.Closures
import Kestara.Kotlin.Obligations

/-!
# Teardowns run to their end

Everything that a teardown has to do is done or still due in some coroutine, and what is due can
be reached by steps of coroutines alone. So in undisturbed runs no teardown is abandoned, and none
waits for the application to receive.
-/
namespace Kestara.Kotlin
open Interleaving

section Teardowns
variable {shutdownTimeout : ℤ} {fingerprint : String}

/-- States in which a given channel has been closed. -/
def ChannelClosed (shutdownTimeout : ℤ) (fingerprint : String) (d : ChannelId) (p : PeerId)
    (handle : ℤ) (c : Config) : Prop :=
  Reachable shutdownTimeout fingerprint TeardownUninterrupted c ∧ d < c.shared.nextChannel ∧
    (c.shared.channel d).owner = p ∧ (c.shared.channel d).handle = handle ∧
    (c.shared.channel d).closed = true

/-- States in which a given peer has been closed. -/
def PeerClosed (shutdownTimeout : ℤ) (fingerprint : String) (p : PeerId) (c : Config) : Prop :=
  Reachable shutdownTimeout fingerprint TeardownUninterrupted c ∧ p < c.shared.nextPeer ∧
    (c.shared.peer p).closed = true

/-- States in which the runtime has been closed. -/
def RuntimeClosed (shutdownTimeout : ℤ) (fingerprint : String) (c : Config) : Prop :=
  Reachable shutdownTimeout fingerprint TeardownUninterrupted c ∧ c.shared.runtime.closed = true

/-- The run has been in a state of the kind. -/
def Passed (shutdownTimeout : ℤ) (fingerprint : String) (ok : Label → Config → Prop)
    (P : Config → Prop) (c : Config) : Prop :=
  ∃ m, Reachable shutdownTimeout fingerprint ok m ∧ P m ∧ Reaches step ok m c

lemma Passed.step {ok : Label → Config → Prop} {P : Config → Prop} {l : Label} {c c' : Config}
    (h : Passed shutdownTimeout fingerprint ok P c) (hok : ok l c) (hs : step l c = some c') :
    Passed shutdownTimeout fingerprint ok P c' := by
  obtain ⟨m,hm,hP,hr⟩ := h
  exact ⟨m,hm,hP,hr.tail ⟨l,hok,hs⟩⟩

lemma Passed.now {ok : Label → Config → Prop} {P : Config → Prop} {c : Config}
    (hc : Reachable shutdownTimeout fingerprint ok c) (h : P c) :
    Passed shutdownTimeout fingerprint ok P c := ⟨c,hc,h,.refl⟩

section Step
variable {l : Label} {c c' : Config} (hok : TeardownUninterrupted l c) (hs : step l c = some c')
include hok hs

lemma ChannelClosed.step {d : ChannelId} {p : PeerId} {handle : ℤ}
    (h : ChannelClosed shutdownTimeout fingerprint d p handle c) :
    ChannelClosed shutdownTimeout fingerprint d p handle c' := by
  obtain ⟨hr,hd,ho,hh,hc⟩ := h
  obtain ⟨i,hf⟩ := step_frame hs
  obtain ⟨h₁,h₂⟩ := hf.channel d hd
  exact ⟨hr.tail ⟨l,hok,hs⟩,lt_of_lt_of_le hd hf.nextChannel,h₂.trans ho,h₁.trans hh,
    (closures_of_step hs).channel d hd hc⟩

lemma PeerClosed.step {p : PeerId} (h : PeerClosed shutdownTimeout fingerprint p c) :
    PeerClosed shutdownTimeout fingerprint p c' := by
  obtain ⟨hr,hp,hc⟩ := h
  have hcl := closures_of_step hs
  exact ⟨hr.tail ⟨l,hok,hs⟩,lt_of_lt_of_le hp hcl.grows.1,hcl.peer p hp hc⟩

lemma RuntimeClosed.step (h : RuntimeClosed shutdownTimeout fingerprint c) :
    RuntimeClosed shutdownTimeout fingerprint c' :=
  ⟨h.1.tail ⟨l,hok,hs⟩,(closures_of_step hs).closed h.2⟩

end Step

section Owes
variable {F : Config → Prop} {J : Instr → Prop} {c : Config}

/-- A closed channel owes what its teardown contains. -/
theorem channel_owes {d : ChannelId} {p : PeerId} {handle : ℤ}
    (ob : Obligation shutdownTimeout fingerprint
      (ChannelClosed shutdownTimeout fingerprint d p handle) F J)
    (hJ : ∀ b, ∃ j ∈ DataChannel.teardown d b, J j)
    (h : ChannelClosed shutdownTimeout fingerprint d p handle c) : Owes F J c := by
  refine h.1.induct
    (I := fun c => ChannelClosed shutdownTimeout fingerprint d p handle c → Owes F J c) ?_ ?_ h
  · intro hd
    exact absurd hd.2.1 (Nat.not_lt_zero d)
  · intro l c c' hr hI hok hs hd
    obtain ⟨-,hlt',ho,hh,hclosed⟩ := hd
    obtain ⟨hlt,hc | ⟨t,b,rest,ht⟩⟩ := channel_begins hs hlt' hclosed
    · obtain ⟨i,hf⟩ := step_frame hs
      obtain ⟨h₁,h₂⟩ := hf.channel d hlt
      have hold : ChannelClosed shutdownTimeout fingerprint d p handle c :=
        ⟨hr,hlt,h₂.symm.trans ho,h₁.symm.trans hh,hc⟩
      exact ob.step hold hok hs (hI hold)
    · obtain ⟨j,hj,hJj⟩ := hJ b
      have htear : ∀ k ∈ DataChannel.teardown d b, k.tearing = true := fun k hk =>
        (tearing_leaves (i := .channel d (.markClosed b)) rfl hk).1
      refine .inr ⟨t,j,hJj,ht ▸ Due.of_mem htear (fun d' => ?_) hj⟩
      cases b <;> simp [DataChannel.teardown]

/-- A closed peer owes what its teardown contains, and its completion. -/
theorem peer_owes {p : PeerId}
    (ob : Obligation shutdownTimeout fingerprint (PeerClosed shutdownTimeout fingerprint p) F J)
    (hJ : ∀ b r, ∃ j ∈ PeerConnection.teardown p b ++ [.peer p (.complete r)], J j)
    (h : PeerClosed shutdownTimeout fingerprint p c) : Owes F J c := by
  refine h.1.induct (I := fun c => PeerClosed shutdownTimeout fingerprint p c → Owes F J c) ?_ ?_ h
  · intro hp
    exact absurd hp.2.1 (Nat.not_lt_zero p)
  · intro l c c' hr hI hok hs hp
    obtain ⟨hlt,hc | ⟨t,b,r,rest,ht⟩⟩ := peer_begins hs (formed_of_reachable hr) hp.2.1 hp.2.2
    · exact ob.step ⟨hr,hlt,hc⟩ hok hs (hI ⟨hr,hlt,hc⟩)
    · obtain ⟨j,hj,hJj⟩ := hJ b r
      have htear : ∀ k ∈ PeerConnection.teardown p b ++ [.peer p (.complete r)],
          k.tearing = true := by
        simp [PeerConnection.teardown,Instr.tearing]
      refine .inr ⟨t,j,hJj,?_⟩
      rw [ht,← List.singleton_append,← List.append_assoc]
      exact .of_mem htear (by simp [PeerConnection.teardown]) hj

/-- A closed runtime owes what `completeShutdown` contains. -/
theorem runtime_owes
    (ob : Obligation shutdownTimeout fingerprint (RuntimeClosed shutdownTimeout fingerprint) F J)
    (hJ : ∀ f, J (.runtime (.drain f))) (h : RuntimeClosed shutdownTimeout fingerprint c) :
    Owes F J c := by
  obtain ⟨hr,hc⟩ := h
  revert hc
  refine hr.induct (I := fun c => c.shared.runtime.closed = true → Owes F J c) (by simp [init]) ?_
  intro l c c' hr hI hok hs hclosed
  obtain hc | ⟨t,f,rest,ht⟩ := runtime_begins hs hclosed
  · exact ob.step ⟨hr,hc⟩ hok hs (hI hc)
  · refine .inr ⟨t,_,hJ f,?_⟩
    rw [ht]
    exact .of_mem (by simp [WebRtcRuntime.teardown,Instr.tearing])
      (by simp [WebRtcRuntime.teardown]) (by simp [WebRtcRuntime.teardown])

end Owes

section Parts

lemma queue_obligation {R : Config → Prop} {q : QueueRef}
    (hreach : ∀ c, R c → Reachable shutdownTimeout fingerprint TeardownUninterrupted c)
    (hkeeps : ∀ l c c', R c → TeardownUninterrupted l c → step l c = some c' → R c')
    (halloc : ∀ c, R c → q.Allocated c.shared) :
    Obligation shutdownTimeout fingerprint R (fun c => (c.shared.queue q).closed = true)
      (fun j => j = .closeQueue q) where
  reachable := hreach
  keeps := hkeeps
  stable := fun l c c' hR _ hs h => (closures_of_step hs).queue q (halloc c hR) h
  tearing := by
    rintro j rfl
    exact ⟨rfl,by simp⟩
  discharged := by
    rintro x t j rest c c' code hR hR' rfl head he
    have hok := execOk_of_object rfl he
    simp only [execOk] at hok
    injection hok with hs
    exact .inl (by simp [← hs,Shared.setQueue])

variable {d : ChannelId} {p : PeerId} {handle : ℤ}

lemma channelCompletion_obligation :
    Obligation shutdownTimeout fingerprint (ChannelClosed shutdownTimeout fingerprint d p handle)
      (fun c => (c.shared.channel d).closeCompletion.isSome = true)
      (fun j => ∃ r, j = .channel d (.complete r)) where
  reachable := fun c h => h.1
  keeps := fun l c c' h hok hs => h.step hok hs
  stable := fun l c c' hR _ hs h => (closures_of_step hs).channelCompletion d hR.2.1 h
  tearing := by
    rintro j ⟨r,rfl⟩
    exact ⟨rfl,by simp⟩
  discharged := by
    rintro x t j rest c c' code hR hR' ⟨r,rfl⟩ head he
    have hok := execOk_of_object rfl he
    simp only [execOk,DataChannel.exec] at hok
    injection hok with hs
    exact .inl (by simp [← hs,Shared.setChannel,complete])

/-- The channel is no longer in the map of its peer. -/
lemma unregistered_obligation :
    Obligation shutdownTimeout fingerprint (ChannelClosed shutdownTimeout fingerprint d p handle)
      (fun c => ∀ k, (c.shared.peer p).channels.lookup k ≠ some d)
      (fun j => j = .channel d .onTerminal ∨ j = .peer p (.unregisterDataChannel handle)) where
  reachable := fun c h => h.1
  keeps := fun l c c' h hok hs => h.step hok hs
  stable := by
    intro l c c' hR _ hs h k hk
    obtain ⟨i,hf⟩ := step_frame hs
    obtain hk | ⟨rfl,-⟩ := hf.channels p k d hk
    · exact h k hk
    · exact lt_irrefl _ hR.2.1
  tearing := by
    rintro j (rfl | rfl)
    · exact ⟨rfl,by simp⟩
    · exact ⟨rfl,by simp⟩
  discharged := by
    rintro x t j rest c c' code hR hR' (rfl | rfl) head he
    · have hok := execOk_of_object rfl he
      simp only [execOk,DataChannel.exec] at hok
      injection hok with hs hcode
      refine .inr ⟨by simp,_,?_,.inr rfl⟩
      rw [← hcode,hR.2.2.1,hR.2.2.2.1]
      simp
    · have hok := execOk_of_object rfl he
      simp only [execOk,PeerConnection.exec] at hok
      injection hok with hs
      refine .inl fun k hk => ?_
      simp only [← hs,Shared.setPeer,Function.update_self,LinkedMap.lookup_erase] at hk
      split_ifs at hk with hne
      have := ((registered_of_reachable hR.1).channels p k d hk).1
      exact hne (this.symm.trans hR.2.2.2.1)

/-- The maps of the closed peer have been cleared. -/
lemma taken_obligation :
    Obligation shutdownTimeout fingerprint (PeerClosed shutdownTimeout fingerprint p)
      (Passed shutdownTimeout fingerprint TeardownUninterrupted fun c => (c.shared.peer p).closed = true ∧
        (c.shared.peer p).channels = ∅ ∧ (c.shared.peer p).queuedChannelEvents = ∅)
      (fun j => ∃ b, j = .peer p (.takeChannels b)) where
  reachable := fun c h => h.1
  keeps := fun l c c' h hok hs => h.step hok hs
  stable := fun l c c' hR hok hs h => h.step hok hs
  tearing := by
    rintro j ⟨b,rfl⟩
    exact ⟨rfl,by simp⟩
  discharged := by
    rintro x t j rest c c' code hR hR' ⟨b,rfl⟩ head he
    have hok := execOk_of_object rfl he
    simp only [execOk,PeerConnection.exec] at hok
    injection hok with hs
    refine .inl (.now hR'.1 ⟨hR'.2.2,?_⟩)
    simp [← hs,Shared.setPeer]

/-- The closed peer has been taken out of the map of the runtime. -/
lemma unregisteredPeer_obligation :
    Obligation shutdownTimeout fingerprint (PeerClosed shutdownTimeout fingerprint p)
      (Passed shutdownTimeout fingerprint TeardownUninterrupted fun c => (c.shared.peer p).closed = true ∧
        ∀ k, c.shared.runtime.peers.lookup k ≠ some p)
      (fun j => j = .runtime (.unregisterPeer p)) where
  reachable := fun c h => h.1
  keeps := fun l c c' h hok hs => h.step hok hs
  stable := fun l c c' hR hok hs h => h.step hok hs
  tearing := by
    rintro j rfl
    exact ⟨rfl,by simp⟩
  discharged := by
    rintro x t j rest c c' code hR hR' rfl head he
    have hkeyed := (registered_of_reachable hR.1).peers
    refine .inl (.now hR'.1 ⟨hR'.2.2,fun k hk => ?_⟩)
    cases x with
    | fail m => cases he
    | cancel => cases he
    | ok =>
      simp only [exec,execOk,WebRtcRuntime.execRuntime,WebRtcRuntime.withLock] at he
      split_ifs at he with hfree hfound
      · injection he with hs
        simp only [← hs,Shared.setRuntime,LinkedMap.lookup_erase] at hk
        split_ifs at hk with hne
        exact hne (hkeyed k p hk).symm
      · injection he with hs
        rw [← hs] at hk
        rw [← hkeyed k p hk] at hk
        exact hfound hk

lemma peerCompletion_obligation :
    Obligation shutdownTimeout fingerprint (PeerClosed shutdownTimeout fingerprint p)
      (fun c => (c.shared.peer p).closeCompletion.isSome = true)
      (fun j => ∃ r, j = .peer p (.complete r)) where
  reachable := fun c h => h.1
  keeps := fun l c c' h hok hs => h.step hok hs
  stable := fun l c c' hR _ hs h => (closures_of_step hs).peerCompletion p hR.2.1 h
  tearing := by
    rintro j ⟨r,rfl⟩
    exact ⟨rfl,by simp⟩
  discharged := by
    rintro x t j rest c c' code hR hR' ⟨r,rfl⟩ head he
    have hok := execOk_of_object rfl he
    simp only [execOk,PeerConnection.exec] at hok
    injection hok with hs
    exact .inl (by simp [← hs,Shared.setPeer,complete])

lemma drain_next {x : Choice} {t : TaskId} {f : Option Exn} {s s' : Shared} {code : List Instr}
    (h : exec x t (.runtime (.drain f)) s = .next s' code) :
    (s'.runtime.peers = ∅ ∧ s'.runtime.queuedPeerEvents = ∅ ∧ s'.runtime.operations = ∅) ∧
      .runtime (.release f) ∈ code := by
  cases x with
  | fail m => cases h
  | cancel => cases h
  | ok =>
    simp only [exec,execOk,WebRtcRuntime.execRuntime,WebRtcRuntime.withLock] at h
    split_ifs at h
    cases h
    exact ⟨⟨rfl,rfl,rfl⟩,by simp [WebRtcRuntime.afterDrain]⟩

lemma release_next {x : Choice} {t : TaskId} {f : Option Exn} {s s' : Shared} {code : List Instr}
    (h : exec x t (.runtime (.release f)) s = .next s' code) :
    .release ∈ s'.history.calls ∧ .runtime .cancelScope ∈ code ∧
      ∃ g, .runtime (.complete g) ∈ code := by
  cases x with
  | ok =>
    cases h
    exact ⟨by simp [Shared.record],by simp,f,by simp⟩
  | fail m =>
    cases h
    exact ⟨by simp [Shared.record],by simp,some (f.getD (.webRtc m)),by simp⟩
  | cancel => cases h

/-- The maps of the closed runtime have been cleared. -/
lemma drained_obligation :
    Obligation shutdownTimeout fingerprint (RuntimeClosed shutdownTimeout fingerprint)
      (Passed shutdownTimeout fingerprint TeardownUninterrupted fun c => c.shared.runtime.closed = true ∧
        c.shared.runtime.peers = ∅ ∧ c.shared.runtime.queuedPeerEvents = ∅ ∧
        c.shared.runtime.operations = ∅)
      (fun j => ∃ f, j = .runtime (.drain f)) where
  reachable := fun c h => h.1
  keeps := fun l c c' h hok hs => h.step hok hs
  stable := fun l c c' hR hok hs h => h.step hok hs
  tearing := by
    rintro j ⟨f,rfl⟩
    exact ⟨rfl,by simp⟩
  discharged := by
    rintro x t j rest c c' code hR hR' ⟨f,rfl⟩ head he
    exact .inl (.now hR'.1 ⟨hR'.2,(drain_next he).1⟩)

/-- What comes after the release of the native runtime. -/
lemma shutdown_obligation {F : Config → Prop} {last : Instr → Prop}
    (hstable : ∀ l (c c' : Config), step l c = some c' → F c → F c')
    (htear : ∀ j, last j → j.tearing = true ∧ (∀ d, j ≠ .channel d (.markClosed false)))
    (hrelease : ∀ x t f (c c' : Config) code, exec x t (.runtime (.release f)) c.shared = .next c'.shared code →
      F c' ∨ ∃ k ∈ code, last k)
    (hlast : ∀ x t j (c c' : Config) code, last j → exec x t j c.shared = .next c'.shared code → F c') :
    Obligation shutdownTimeout fingerprint (RuntimeClosed shutdownTimeout fingerprint) F
      (fun j => (∃ f, j = .runtime (.drain f) ∨ j = .runtime (.release f)) ∨ last j) where
  reachable := fun c h => h.1
  keeps := fun l c c' h hok hs => h.step hok hs
  stable := fun l c c' _ _ hs h => hstable l c c' hs h
  tearing := by
    rintro j (⟨f,rfl | rfl⟩ | hj)
    · exact ⟨rfl,by simp⟩
    · exact ⟨rfl,by simp⟩
    · exact htear j hj
  discharged := by
    rintro x t j rest c c' code hR hR' (⟨f,rfl | rfl⟩ | hj) head he
    · exact .inr ⟨by simp,_,(drain_next he).2,.inl ⟨f,.inr rfl⟩⟩
    · obtain hF | ⟨k,hk,hl⟩ := hrelease x t f c c' code he
      · exact .inl hF
      · exact .inr ⟨by simp,k,hk,.inr hl⟩
    · exact .inl (hlast x t j c c' code hj he)

lemma released_obligation :
    Obligation shutdownTimeout fingerprint (RuntimeClosed shutdownTimeout fingerprint)
      (fun c => .release ∈ c.shared.history.calls)
      (fun j => (∃ f, j = .runtime (.drain f) ∨ j = .runtime (.release f)) ∨ False) :=
  shutdown_obligation (fun _ _ _ hs h => (closures_of_step hs).calls _ h) (fun _ h => h.elim)
    (fun _ _ _ _ _ _ he => .inl (release_next he).1) (fun _ _ _ _ _ _ h => h.elim)

lemma cancelled_obligation :
    Obligation shutdownTimeout fingerprint (RuntimeClosed shutdownTimeout fingerprint)
      (fun c => c.shared.runtime.scopeActive = false)
      (fun j => (∃ f, j = .runtime (.drain f) ∨ j = .runtime (.release f)) ∨
        j = .runtime .cancelScope) := by
  refine shutdown_obligation (fun l c c' hs h => (closures_of_step hs).scopeActive h) ?_
    (fun x t f c c' code he => .inr ⟨_,(release_next he).2.1,rfl⟩) ?_
  · rintro j rfl
    exact ⟨rfl,by simp⟩
  · rintro x t j c c' code rfl he
    cases x with
    | fail m => cases he
    | cancel => cases he
    | ok =>
      simp only [exec,execOk,WebRtcRuntime.execRuntime] at he
      injection he with hs
      simp [← hs,Shared.setRuntime]

lemma completed_obligation :
    Obligation shutdownTimeout fingerprint (RuntimeClosed shutdownTimeout fingerprint)
      (fun c => c.shared.runtime.closeCompletion.isSome = true)
      (fun j => (∃ f, j = .runtime (.drain f) ∨ j = .runtime (.release f)) ∨
        ∃ f, j = .runtime (.complete f)) := by
  refine shutdown_obligation (fun l c c' hs h => (closures_of_step hs).completion h) ?_ ?_ ?_
  · rintro j ⟨f,rfl⟩
    exact ⟨rfl,by simp⟩
  · intro x t f c c' code he
    obtain ⟨-,-,g,hg⟩ := release_next he
    exact .inr ⟨_,hg,g,rfl⟩
  · rintro x t j c c' code ⟨f,rfl⟩ he
    cases x with
    | fail m => cases he
    | cancel => cases he
    | ok =>
      simp only [exec,execOk,WebRtcRuntime.execRuntime] at he
      injection he with hs
      simp [← hs,Shared.setRuntime,complete]

end Parts

/-- The teardown of a channel has been run to its end. -/
structure ChannelFinished (d : ChannelId) (s : Shared) : Prop where
  messages : (s.queue (.message d)).closed = true
  events : (s.queue (.event d)).closed = true
  unregistered : ∀ k, (s.peer (s.channel d).owner).channels.lookup k ≠ some d
  completed : (s.channel d).closeCompletion.isSome = true

/-- The teardown of a peer has been run to its end. -/
structure PeerFinished (shutdownTimeout : ℤ) (fingerprint : String) (ok : Label → Config → Prop)
    (p : PeerId) (c : Config) : Prop where
  cleared : Passed shutdownTimeout fingerprint ok (fun c => (c.shared.peer p).closed = true ∧
    (c.shared.peer p).channels = ∅ ∧ (c.shared.peer p).queuedChannelEvents = ∅) c
  localDescriptions : (c.shared.queue (.localDescription p)).closed = true
  localCandidates : (c.shared.queue (.localCandidate p)).closed = true
  incomingDataChannels : (c.shared.queue (.incomingDataChannel p)).closed = true
  negotiationNeeded : (c.shared.queue (.negotiationNeeded p)).closed = true
  unregistered : Passed shutdownTimeout fingerprint ok (fun c => (c.shared.peer p).closed = true ∧
    ∀ k, c.shared.runtime.peers.lookup k ≠ some p) c
  completed : (c.shared.peer p).closeCompletion.isSome = true

/-- The shutdown of the runtime has been run to its end. -/
structure RuntimeFinished (shutdownTimeout : ℤ) (fingerprint : String)
    (ok : Label → Config → Prop) (c : Config) : Prop where
  cleared : Passed shutdownTimeout fingerprint ok (fun c => c.shared.runtime.closed = true ∧
    c.shared.runtime.peers = ∅ ∧ c.shared.runtime.queuedPeerEvents = ∅ ∧
    c.shared.runtime.operations = ∅) c
  released : .release ∈ c.shared.history.calls
  cancelled : c.shared.runtime.scopeActive = false
  completed : c.shared.runtime.closeCompletion.isSome = true

/-- Steps of coroutines alone lead from one state to the other. -/
abbrev InternalRun (c c' : Config) : Prop := Reaches step Internal c c'

/-- Every teardown that has begun can be run to its end by steps of coroutines alone. -/
structure TeardownsFinish (shutdownTimeout : ℤ) (fingerprint : String)
    (ok : Label → Config → Prop) (c : Config) : Prop where
  channel : ∀ d < c.shared.nextChannel, (c.shared.channel d).closed = true →
    ∃ c', InternalRun c c' ∧ ChannelFinished d c'.shared
  peer : ∀ p < c.shared.nextPeer, (c.shared.peer p).closed = true →
    ∃ c', InternalRun c c' ∧ PeerFinished shutdownTimeout fingerprint ok p c'
  runtime : c.shared.runtime.closed = true →
    ∃ c', InternalRun c c' ∧ RuntimeFinished shutdownTimeout fingerprint ok c'

/-- The coroutine has to suspend at an instruction of a teardown. -/
def WaitsInTeardown (c : Config) (t : TaskId) : Prop :=
  ∃ i rest u, c.tasks t = i :: rest ∧ i.tearing = true ∧ hasToSuspend t u c = true

/-- Moreover no coroutine is cancelled where it waits in a teardown, neither by the application
nor, if it is the event loop, with the scope. -/
structure TeardownUndisturbed (l : Label) (c : Config) : Prop where
  uninterrupted : TeardownUninterrupted l c
  cancels : ∀ t, l = .cancel t → ¬WaitsInTeardown c t
  scope : ∀ t rest, l = .run t → c.tasks t = .runtime .cancelScope :: rest →
    ¬WaitsInTeardown c 0

section Theorem
variable {c : Config}

lemma Carries.internal {c c' : Config} (h : Carries c c') : InternalRun c c' :=
  h.weaken fun _ _ h => h.1

lemma channel_finishes {d : ChannelId} (h : Reachable shutdownTimeout fingerprint TeardownUninterrupted c)
    (hd : d < c.shared.nextChannel) (hclosed : (c.shared.channel d).closed = true) :
    ∃ c', InternalRun c c' ∧ ChannelFinished d c'.shared := by
  let R := ChannelClosed shutdownTimeout fingerprint d (c.shared.channel d).owner
    (c.shared.channel d).handle
  have hR : R c := ⟨h,hd,rfl,rfl,hclosed⟩
  have hqueue : ∀ q : QueueRef, (∀ c, R c → q.Allocated c.shared) →
      (∀ b, .closeQueue q ∈ DataChannel.teardown d b) →
      Settles R fun c => (c.shared.queue q).closed = true := by
    intro q hq hb
    have ob := queue_obligation (fun c h => h.1) (fun l c c' h hok hs => h.step hok hs) hq
    exact ob.settles fun c hc => channel_owes ob (fun b => ⟨_,hb b,rfl⟩) hc
  have hmessages := hqueue (.message d) (fun c h => h.2.1) (by simp [DataChannel.teardown])
  have hevents := hqueue (.event d) (fun c h => h.2.1) (by simp [DataChannel.teardown])
  have hunregistered := unregistered_obligation.settles fun c (hc : R c) =>
    channel_owes unregistered_obligation
      (fun b => ⟨.channel d .onTerminal,by simp [DataChannel.teardown],.inl rfl⟩) hc
  have hcompleted := channelCompletion_obligation.settles fun c (hc : R c) =>
    channel_owes channelCompletion_obligation
      (fun b => ⟨.channel d (.complete .done),by simp [DataChannel.teardown],.done,rfl⟩) hc
  have hall := (hmessages.and hevents).and (hunregistered.and hcompleted)
  obtain ⟨c',hc,⟨hm,he⟩,hu,hcomp⟩ := hall.reached c hR
  refine ⟨c',hc.internal,hm,he,?_,hcomp⟩
  rw [(hall.carries hR hc).2.2.1]
  exact hu

lemma peer_finishes {p : PeerId} (h : Reachable shutdownTimeout fingerprint TeardownUninterrupted c)
    (hp : p < c.shared.nextPeer) (hclosed : (c.shared.peer p).closed = true) :
    ∃ c', InternalRun c c' ∧ PeerFinished shutdownTimeout fingerprint TeardownUninterrupted p c' := by
  have hqueue : ∀ q : QueueRef,
      (∀ c, PeerClosed shutdownTimeout fingerprint p c → q.Allocated c.shared) →
      (∀ b, .closeQueue q ∈ PeerConnection.teardown p b) →
      Settles (PeerClosed shutdownTimeout fingerprint p) fun c => (c.shared.queue q).closed = true := by
    intro q hq hb
    have ob := queue_obligation (fun c h => h.1) (fun l c c' h hok hs => h.step hok hs) hq
    exact ob.settles fun c hc =>
      peer_owes ob (fun b r => ⟨_,List.mem_append_left _ (hb b),rfl⟩) hc
  have hd := hqueue (.localDescription p) (fun c h => h.2.1) (by simp [PeerConnection.teardown])
  have hc := hqueue (.localCandidate p) (fun c h => h.2.1) (by simp [PeerConnection.teardown])
  have hi := hqueue (.incomingDataChannel p) (fun c h => h.2.1) (by simp [PeerConnection.teardown])
  have hn := hqueue (.negotiationNeeded p) (fun c h => h.2.1) (by simp [PeerConnection.teardown])
  have htaken := taken_obligation.settles fun c (hc : PeerClosed shutdownTimeout fingerprint p c) =>
    peer_owes taken_obligation
      (fun b r => ⟨.peer p (.takeChannels b),by simp [PeerConnection.teardown],b,rfl⟩) hc
  have hunregistered := unregisteredPeer_obligation.settles
    fun c (hc : PeerClosed shutdownTimeout fingerprint p c) => peer_owes unregisteredPeer_obligation
      (fun b r => ⟨.runtime (.unregisterPeer p),by simp [PeerConnection.teardown],rfl⟩) hc
  have hcompleted := peerCompletion_obligation.settles
    fun c (hc : PeerClosed shutdownTimeout fingerprint p c) => peer_owes peerCompletion_obligation
      (fun b r => ⟨.peer p (.complete r),by simp,r,rfl⟩) hc
  have hall := (htaken.and ((hd.and hc).and (hi.and hn))).and (hunregistered.and hcompleted)
  obtain ⟨c',hc',⟨h₁,⟨h₂,h₃⟩,h₄,h₅⟩,h₆,h₇⟩ := hall.reached c ⟨h,hp,hclosed⟩
  exact ⟨c',hc'.internal,h₁,h₂,h₃,h₄,h₅,h₆,h₇⟩

lemma runtime_finishes (h : Reachable shutdownTimeout fingerprint TeardownUninterrupted c)
    (hclosed : c.shared.runtime.closed = true) :
    ∃ c', InternalRun c c' ∧ RuntimeFinished shutdownTimeout fingerprint TeardownUninterrupted c' := by
  have hdrained := drained_obligation.settles
    fun c (hc : RuntimeClosed shutdownTimeout fingerprint c) =>
      runtime_owes drained_obligation (fun f => ⟨f,rfl⟩) hc
  have hreleased := released_obligation.settles
    fun c (hc : RuntimeClosed shutdownTimeout fingerprint c) =>
      runtime_owes released_obligation (fun f => .inl ⟨f,.inl rfl⟩) hc
  have hcancelled := cancelled_obligation.settles
    fun c (hc : RuntimeClosed shutdownTimeout fingerprint c) =>
      runtime_owes cancelled_obligation (fun f => .inl ⟨f,.inl rfl⟩) hc
  have hcompleted := completed_obligation.settles
    fun c (hc : RuntimeClosed shutdownTimeout fingerprint c) =>
      runtime_owes completed_obligation (fun f => .inl ⟨f,.inl rfl⟩) hc
  have hall := (hdrained.and hreleased).and (hcancelled.and hcompleted)
  obtain ⟨c',hc',⟨h₁,h₂⟩,h₃,h₄⟩ := hall.reached c ⟨h,hclosed⟩
  exact ⟨c',hc'.internal,h₁,h₂,h₃,h₄⟩

/-- In undisturbed runs every teardown that has begun can be run to its end, from every state and
without the application. -/
theorem teardownsFinish_of_undisturbed
    (h : Reachable shutdownTimeout fingerprint TeardownUndisturbed c) :
    TeardownsFinish shutdownTimeout fingerprint TeardownUninterrupted c := by
  have hr : Reachable shutdownTimeout fingerprint TeardownUninterrupted c :=
    h.weaken fun _ _ hok => hok.uninterrupted
  exact
    { channel := fun _ hd hclosed => channel_finishes hr hd hclosed
      peer := fun _ hp hclosed => peer_finishes hr hp hclosed
      runtime := fun hclosed => runtime_finishes hr hclosed }

end Theorem

end Teardowns

/-- An executable condition that is enough for a step to be undisturbed. -/
def roomy : Label → Config → Bool
  | .run t,c =>
    match c.tasks t with
    | .runtime .cancelScope :: _ => false
    | .channel d (.markClosed false) :: _ => (c.shared.queue (.event d)).hasRoom
    | .peer p (.markClosed false) :: _ =>
      (c.shared.peer p).channels.values.all fun d => (c.shared.queue (.event d)).hasRoom
    | .send (.event d) _ :: _ | .sendSuspended (.event d) _ :: _ =>
      decide ((c.shared.queue (.event d)).buffer.length+1 < bufferedCapacity)
    | _ => true
  | .cancel t,c | .interrupt t _,c => (c.tasks t).head?.all fun i => !i.tearing
  | _,_ => true

lemma undisturbed_of_roomy (l : Label) (c : Config) (h : roomy l c = true) :
    TeardownUndisturbed l c where
  uninterrupted := by
    cases l with
    | run t =>
      intro i rest head
      simp only [roomy,head] at h
      unfold LeavesRoom
      split
      · exact fun _ => h
      · exact fun _ d hd _ => List.all_eq_true.mp h d hd
      · exact fun _ _ => of_decide_eq_true h
      · exact fun _ _ => of_decide_eq_true h
      · trivial
    | interrupt t u =>
      intro i rest head
      simpa [roomy,head] using h
    | cancel | fail | call | receive | native => trivial
  cancels := by
    rintro t rfl ⟨i,rest,u,head,htear,-⟩
    simp [roomy,head,htear] at h
  scope := by
    rintro t rest rfl head
    simp [roomy,head] at h

def closedEvent : NativeEvent :=
  { kind := NativeEventKind.dataChannelClosed.number, peerHandle := 7, channelHandle := 9 }

/-- Coroutine 1 is cancelled while it awaits an operation. The event loop has won the
compare-and-set on `closed` of the channel, and nothing more. -/
def channelMarked : List Label :=
  channelCreated ++ [.call 1 (.getStats 0)] ++ steps 1 7 ++ [.cancel 1,.interrupt 1 0] ++
    [.native closedEvent] ++ steps 0 6

theorem teardownsFinish_channelMarked : ∃ c, Reachable 1000 "" TeardownUndisturbed c ∧
    (c.shared.channel 0).closed = true ∧ (c.shared.channel 0).closeCompletion = none ∧
      TeardownsFinish 1000 "" TeardownUninterrupted c := by
  have hrun : (run (fun a d => if roomy a d then step a d else none) channelMarked
      (init 1000 "")).map (fun c => ((c.shared.channel 0).closed,(c.shared.channel 0).closeCompletion))
        = some (true,none) := by
    rfl
  obtain ⟨c,hc,ho⟩ := Option.map_eq_some_iff.mp hrun
  have hr : Reachable 1000 "" TeardownUndisturbed c := reaches_of_checked undisturbed_of_roomy hc
  exact ⟨c,hr,(Prod.mk.inj ho).1,(Prod.mk.inj ho).2,teardownsFinish_of_undisturbed hr⟩

/-- Coroutine 1 closes the runtime. Where `completeShutdown` takes the mutex coroutine 2 is inside
it, so coroutine 1, which has been cancelled, is left by an exception there and again where it
awaits the completion. Coroutine 2 then closes the runtime, too. -/
def abandonedShutdown : List Label :=
  [.call 1 .runtimeClose] ++ steps 1 7 ++ [.native (completion 1 0 0)] ++ steps 0 4 ++ steps 1 3 ++
    [.call 2 (.createPeerConnection ⟨1,least_range⟩ 1000)] ++ steps 2 2 ++
    [.cancel 1,.interrupt 1 2] ++ steps 1 1 ++ [.interrupt 1 2] ++ steps 2 1 ++
    [.call 2 .runtimeClose] ++ steps 2 1 ++ steps 0 2

/-- The coroutine has ended, or waits for the shutdown to complete. -/
def waitsForShutdown : List Instr → Bool
  | [] | [.runtime .awaitClosed] => true
  | _ => false

def abandoned (c : Config) : Bool :=
  decide (c.shared.runtime.closed = true ∧ c.shared.runtime.closeCompletion = none ∧
    .release ∉ c.shared.history.calls) && (c.tasks 0).isEmpty && waitsForShutdown (c.tasks 1) &&
    waitsForShutdown (c.tasks 2) && !(c.tasks 2).isEmpty

lemma run_none_of_waits {c : Config} {t : TaskId} (h : c.shared.runtime.closeCompletion = none)
    (hw : waitsForShutdown (c.tasks t) = true) : step (.run t) c = none := by
  unfold waitsForShutdown at hw
  split at hw
  · next hi => simp [step,Machine.stepTask,hi]
  · next hi =>
    simp only [step,Machine.stepTask,hi]
    simp [machine,exec,execOk,WebRtcRuntime.execRuntime,execAwait,h]
  · cases hw

/-- A shutdown is abandoned: coroutine 2 waits for ever, and the native runtime is not released. -/
theorem shutdown_abandoned : ∃ c, Reachable 1000 "" (fun _ _ => True) c ∧
    c.shared.runtime.closed = true ∧ c.tasks 2 ≠ [] ∧ (∀ c', InternalRun c c' →
      c'.tasks = c.tasks ∧ c'.shared.runtime.closeCompletion = none ∧
        .release ∉ c'.shared.history.calls) ∧ ¬TeardownsFinish 1000 "" (fun _ _ => True) c := by
  have hrun : (run step abandonedShutdown (init 1000 "")).map abandoned = some true := by
    rfl
  obtain ⟨c,hc,ho⟩ := Option.map_eq_some_iff.mp hrun
  have hr : Reachable 1000 "" (fun _ _ => True) c := reaches_of_run hc (fun _ _ _ => trivial)
  simp only [abandoned,Bool.and_eq_true,decide_eq_true_eq,List.isEmpty_iff,Bool.not_eq_true',
    List.isEmpty_eq_false_iff] at ho
  obtain ⟨⟨⟨⟨⟨hclosed,hnone,hrelease⟩,h₀⟩,h₁⟩,h₂⟩,hbusy⟩ := ho
  have hstuck : ∀ t, step (.run t) c = none := by
    intro t
    by_cases ht : t = 0 ∨ t = 1 ∨ t = 2
    · obtain rfl | rfl | rfl := ht
      · exact run_none_of_waits hnone (by rw [h₀]; rfl)
      · exact run_none_of_waits hnone h₁
      · exact run_none_of_waits hnone h₂
    · have hidle : c.tasks t = [] := by
        rw [run_other hc (t := t) ?_]
        · exact if_neg fun h => ht (.inl h)
        · simp [abandonedShutdown,steps,Label.task?,eq_comm]
          tauto
      exact run_none_of_waits hnone (by rw [hidle]; rfl)
  have hsame : ∀ c', InternalRun c c' → c' = c := by
    intro c' hc'
    refine hc'.invariant (I := fun d => d = c) rfl ?_
    rintro l d d' rfl hok hs
    cases l with
    | run t => cases (hstuck t).symm.trans hs
    | _ => exact hok.elim
  refine ⟨c,hr,hclosed,hbusy,fun c' hc' => by rw [hsame c' hc']; exact ⟨rfl,hnone,hrelease⟩,?_⟩
  intro hfinish
  obtain ⟨c',hc',hf⟩ := hfinish.runtime hclosed
  have := hf.released
  rw [hsame c' hc'] at this
  exact hrelease this

end Kestara.Kotlin
