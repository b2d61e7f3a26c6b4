import Kestara.Kotlin.Allocation
import Kestara.Kotlin.Budgets
import Kestara.Kotlin.ObjectSteps

/-!
# Teardown code

What `markClosed` and `completeShutdown` do after their compare-and-set. A coroutine that has
begun it has it in front of everything else, so an instruction is due when only teardown code
comes before it.
-/
namespace Kestara.Kotlin
open Interleaving

/-- The last event of a channel. -/
def Item.isClosed : Item → Bool
  | .event .closed => true
  | _ => false

/-- The instructions that a teardown is made of. A peer is torn down inside another teardown by a
shutdown of the runtime only. -/
def Instr.tearing : Instr → Bool
  | .send (.event _) x | .sendSuspended (.event _) x => x.isClosed
  | .closeQueue _ => true
  | .channel _ i =>
    match i with
    | .markClosed _ | .setClosing | .setState .closed | .onTerminal | .complete _ => true
    | _ => false
  | .peer _ i =>
    match i with
    | .markClosed b => b
    | .closeForRuntimeShutdown | .setClosing | .takeChannels _ | .unregisterDataChannel _
    | .setState .closed | .setSignalingState .closed | .complete _ => true
    | _ => false
  | .runtime i =>
    match i with
    | .completeShutdown _ | .setClosing | .drain _ | .failOperation _ _ | .wake | .release _
    | .cancelScope | .complete _ | .unregisterPeer _ => true
    | _ => false
  | _ => false

/-- How deep the code is that an instruction of a teardown still unfolds into. -/
def Instr.level : Instr → ℕ
  | .send _ _ | .channel _ .onTerminal => 1
  | .channel _ (.markClosed _) => 2
  | .peer _ (.takeChannels _) => 3
  | .peer _ (.markClosed _) => 4
  | .peer _ .closeForRuntimeShutdown => 5
  | .runtime (.release _) => 1
  | .runtime (.drain _) => 6
  | .runtime (.completeShutdown _) => 7
  | _ => 0

/-- A teardown leaves teardown code only, and comes to an end. -/
lemma tearing_leaves {i j : Instr} (hi : i.tearing = true) (h : i.leaves j) :
    j.tearing = true ∧ j.level < i.level := by
  cases i with
  | send q x =>
    cases h
    cases q <;> first | cases hi | exact ⟨hi,by simp [Instr.level]⟩
  | sendSuspended q x => cases h
  | closeQueue q => cases h
  | channel c i =>
    cases i
    case markClosed b =>
      have : ∀ j ∈ DataChannel.teardown c b, j.tearing = true ∧ j.level < 2 := by
        cases b <;> simp [DataChannel.teardown,Instr.tearing,Instr.level,Item.isClosed]
      exact this j h
    case onTerminal =>
      obtain ⟨p,handle,rfl⟩ := h
      exact ⟨rfl,by simp [Instr.level]⟩
    all_goals first | (cases hi; done) | cases h
  | peer p i =>
    cases i
    case closeForRuntimeShutdown =>
      obtain rfl | rfl := h <;> exact ⟨rfl,by simp [Instr.level]⟩
    case markClosed b =>
      have : ∀ j ∈ PeerConnection.teardown p b, j.tearing = true ∧ j.level < 4 := by
        simp [PeerConnection.teardown,Instr.tearing,Instr.level]
      exact this j h
    case takeChannels b =>
      obtain ⟨c,rfl⟩ := h
      exact ⟨rfl,by simp [Instr.level]⟩
    all_goals first | (cases hi; done) | cases h
  | submit i => cases hi
  | loop i => cases hi
  | runtime i =>
    cases i
    case completeShutdown f =>
      have : ∀ j ∈ WebRtcRuntime.teardown f, j.tearing = true ∧ j.level < 7 := by
        simp [WebRtcRuntime.teardown,Instr.tearing,Instr.level]
      exact this j h
    case drain f =>
      obtain ⟨peers,pending,h⟩ := h
      simp only [WebRtcRuntime.afterDrain,List.mem_append,List.mem_map,List.mem_cons,
        List.not_mem_nil,or_false] at h
      obtain (⟨p,-,rfl⟩ | ⟨op,-,rfl⟩) | rfl | rfl := h <;> exact ⟨rfl,by simp [Instr.level]⟩
    case release f =>
      obtain rfl | ⟨f,rfl⟩ := h <;> exact ⟨rfl,by simp [Instr.level]⟩
    all_goals first | (cases hi; done) | cases h

/-- The teardown of a peer is going on and has its queues still to close. -/
def Covered (code : List Instr) : Prop :=
  ∃ before p after, code = before ++ .closeQueue (.localDescription p) :: after ∧
    ∀ k ∈ before, k.tearing = true

lemma Covered.cons {i : Instr} {rest : List Instr} (h : Covered (i :: rest)) :
    i.tearing = true ∧ (Covered rest ∨ ∃ p, i = .closeQueue (.localDescription p)) := by
  obtain ⟨before,p,after,he,ht⟩ := h
  cases before with
  | nil =>
    cases he
    exact ⟨rfl,.inr ⟨p,rfl⟩⟩
  | cons k before =>
    cases he
    exact ⟨ht i (by simp),.inl ⟨before,p,after,rfl,fun k hk => ht k (by simp [hk])⟩⟩

lemma Covered.append {code rest : List Instr} (hc : ∀ k ∈ code, k.tearing = true)
    (h : Covered rest) : Covered (code ++ rest) := by
  obtain ⟨before,p,after,rfl,ht⟩ := h
  refine ⟨code ++ before,p,after,by simp,?_⟩
  intro k hk
  obtain hk | hk := List.mem_append.mp hk
  · exact hc k hk
  · exact ht k hk

/-- Only teardown code comes before the instruction; the channels it closes on the way are those
of a peer whose teardown is going on. -/
inductive Due : List Instr → Instr → Prop
  | now (j : Instr) (rest : List Instr) : Due (j :: rest) j
  | later {k j : Instr} {rest : List Instr} (tearing : k.tearing = true)
      (covered : ∀ d, k = .channel d (.markClosed false) → Covered rest) (h : Due rest j) :
      Due (k :: rest) j

lemma Due.append {code rest : List Instr} {j : Instr} (hc : ∀ k ∈ code, k.tearing = true)
    (hm : ∀ d, .channel d (.markClosed false) ∈ code → Covered rest) (h : Due rest j) :
    Due (code ++ rest) j := by
  induction code with
  | nil => exact h
  | cons k code ih =>
    have hcode : ∀ l ∈ code, l.tearing = true := fun l hl => hc l (by simp [hl])
    refine .later (hc k (by simp)) ?_ (ih hcode fun d hd => hm d (by simp [hd]))
    rintro d rfl
    exact (hm d (by simp)).append hcode

/-- A due instruction of a teardown that has just begun. -/
lemma Due.of_mem {code rest : List Instr} {j : Instr} (hc : ∀ k ∈ code, k.tearing = true)
    (hm : ∀ d, .channel d (.markClosed false) ∉ code) (h : j ∈ code) : Due (code ++ rest) j := by
  induction code with
  | nil => cases h
  | cons k code ih =>
    obtain rfl | h := List.mem_cons.mp h
    · exact .now j _
    · refine .later (hc k (by simp)) ?_
        (ih (fun l hl => hc l (by simp [hl])) (fun d hd => hm d (by simp [hd])) h)
      rintro d rfl
      exact absurd (by simp) (hm d)

/-- Within a teardown only `markClosed` of a peer closes channels with an event. -/
lemma leaves_markClosed {i : Instr} {d : ChannelId} (hi : i.tearing = true)
    (h : i.leaves (.channel d (.markClosed false))) : ∃ p, i = .peer p (.takeChannels false) := by
  obtain ⟨p,rfl⟩ | rfl | rfl | ⟨e,rfl⟩ := origin_of_leaves h
  · exact ⟨p,rfl⟩
  all_goals cases hi

end Kestara.Kotlin
