import Kestara.Kotlin.TeardownProgress

/-!
# Obligations of a teardown

Something that is to be brought about is owed as long as an instruction that brings it about is
due. Every step keeps what is owed, and steps of coroutines alone can meet it.
-/
namespace Kestara.Kotlin
open Interleaving

section Obligations
variable (shutdownTimeout : ℤ) (fingerprint : String)

/-- `F` holds, or an instruction of the kind `J` is due. -/
def Owes (F : Config → Prop) (J : Instr → Prop) (c : Config) : Prop :=
  F c ∨ ∃ t j, J j ∧ Due (c.tasks t) j

/-- In states `R`, the instructions of the kind `J` bring about `F`, which then stays. -/
structure Obligation (R F : Config → Prop) (J : Instr → Prop) : Prop where
  reachable : ∀ c, R c → Reachable shutdownTimeout fingerprint TeardownUninterrupted c
  keeps : ∀ l c c', R c → TeardownUninterrupted l c → step l c = some c' → R c'
  stable : ∀ l c c', R c → TeardownUninterrupted l c → step l c = some c' → F c → F c'
  tearing : ∀ j, J j → j.tearing = true ∧ ∀ d, j ≠ .channel d (.markClosed false)
  discharged : ∀ x t j rest c c' code, R c → R c' → J j → c.tasks t = j :: rest →
    exec x t j c.shared = .next c'.shared code →
    F c' ∨ (∀ p, j ≠ .peer p (.takeChannels false)) ∧ ∃ k ∈ code, J k

variable {shutdownTimeout fingerprint} {R F : Config → Prop} {J : Instr → Prop} {c c' : Config}
  (ob : Obligation shutdownTimeout fingerprint R F J)
include ob

/-- What an executed instruction leaves of the obligation is due. -/
lemma Obligation.due {x : Choice} {t : TaskId} {j : Instr} {rest code : List Instr} (hj : J j)
    (hR : R c) (hR' : R c') (head : c.tasks t = j :: rest)
    (he : exec x t j c.shared = .next c'.shared code) :
    F c' ∨ ∃ k ∈ code, J k ∧ k.level < j.level ∧ Due (code ++ rest) k := by
  obtain hF | ⟨hne,k,hk,hJk⟩ := ob.discharged x t j rest c c' code hR hR' hj head he
  · exact .inl hF
  · have hl := leaves_exec c.shared x t j
    rw [he] at hl
    have htear := (ob.tearing j hj).1
    refine .inr ⟨k,hk,hJk,(tearing_leaves htear (hl k hk)).2,?_⟩
    refine .of_mem (fun i hi => (tearing_leaves htear (hl i hi)).1) (fun d hd => ?_) hk
    obtain ⟨p,rfl⟩ := leaves_markClosed htear (hl _ hd)
    exact hne p rfl

/-- An obligation is kept by every step. -/
lemma Obligation.step {l : Label} (hR : R c) (hok : TeardownUninterrupted l c)
    (hs : step l c = some c') (h : Owes F J c) : Owes F J c' := by
  have hr := ob.reachable c hR
  have hR' := ob.keeps l c c' hR hok hs
  obtain hF | ⟨u,j,hj,hdue⟩ := h
  · exact .inl (ob.stable l c c' hR hok hs hF)
  cases step_cases hs with
  | @task _ x t _ hl active ht =>
    have hno : ∀ i rest s e, c.tasks t = i :: rest → i = j ∨ i.tearing = true →
        exec x t i c.shared ≠ .throw s e := by
      intro i rest s e head hi he
      have htear : i.tearing = true := by
        obtain rfl | hi := hi
        · exact (ob.tearing i hj).1
        · exact hi
      have hx : x ≠ .cancel := by
        rintro rfl
        obtain ⟨v,rfl⟩ : ∃ v, l = .interrupt t v := by cases l <;> cases hl; exact ⟨_,rfl⟩
        have := hok i rest head
        rw [htear] at this
        cases this
      have hmem : i ∈ c.tasks t := by simp [head]
      have := noThrow_of_reachable hr hmem htear hx
      rw [he] at this
      exact this
    obtain hdue | ⟨rest,code,head,he,htasks⟩ := ht.due (formed_of_reachable hr t) hdue hno
    · exact .inr ⟨u,j,hj,hdue⟩
    · obtain hF | ⟨k,-,hJk,-,hk⟩ := ob.due hj hR hR' head he
      · exact .inl hF
      · exact .inr ⟨t,k,hJk,htasks ▸ hk⟩
  | @call t a ht idle admitted =>
    have hne : u ≠ t := by
      rintro rfl
      rw [idle] at hdue
      cases hdue
    exact .inr ⟨u,j,hj,by simpa only [Function.update_of_ne hne] using hdue⟩
  | receive => exact .inr ⟨u,j,hj,hdue⟩
  | cancel | native => exact .inr ⟨u,j,hj,hdue⟩

lemma Obligation.carries (hR : R c) (h : Carries c c') : R c' :=
  h.invariant (I := R) hR fun l d d' hd hok hs => ob.keeps l d d' hd hok.2 hs

/-- An obligation can be met by steps of coroutines alone. -/
theorem Obligation.finish (hR : R c) (h : Owes F J c) : ∃ c', Carries c c' ∧ F c' := by
  obtain hF | ⟨t,j,hj,hdue⟩ := h
  · exact ⟨c,.refl,hF⟩
  induction hn : j.level using Nat.strong_induction_on generalizing c j with
  | _ n ih =>
    have hr := ob.reachable c hR
    obtain ⟨c₁,rest,hc₁,head⟩ := carries_due hr hdue
    obtain ⟨htear,hne⟩ := ob.tearing j hj
    obtain ⟨c₂,s,code,hc₂,head₂,he,hc₃⟩ :=
      carries_next (hc₁.reachable hr) head htear fun d hd => absurd hd (hne d)
    have hR₂ := ob.carries hR (hc₁.trans hc₂)
    have hR₃ := ob.carries hR (hc₁.trans hc₃)
    obtain hF | ⟨k,-,hJk,hlevel,hk⟩ := ob.due hj hR₂ hR₃ head₂ he
    · exact ⟨_,hc₁.trans hc₃,hF⟩
    · obtain ⟨c',hc',hF⟩ := ih k.level (hn ▸ hlevel) hR₃ k hJk
        (by simpa only [Function.update_self] using hk) rfl
      exact ⟨c',(hc₁.trans hc₃).trans hc',hF⟩

end Obligations

section Settles

/-- In states `R`, steps of coroutines alone lead to `F`, which then stays. -/
structure Settles (R F : Config → Prop) : Prop where
  keeps : ∀ l c c', R c → TeardownUninterrupted l c → step l c = some c' → R c'
  stable : ∀ l c c', R c → TeardownUninterrupted l c → step l c = some c' → F c → F c'
  reached : ∀ c, R c → ∃ c', Carries c c' ∧ F c'

variable {R F G : Config → Prop}

lemma Obligation.settles {shutdownTimeout : ℤ} {fingerprint : String} {J : Instr → Prop}
    (ob : Obligation shutdownTimeout fingerprint R F J) (h : ∀ c, R c → Owes F J c) :
    Settles R F :=
  ⟨ob.keeps,ob.stable,fun c hR => ob.finish hR (h c hR)⟩

lemma Settles.carries (hF : Settles R F) {c c' : Config} (hR : R c) (h : Carries c c') : R c' :=
  h.invariant (I := R) hR fun l d d' hd hok hs => hF.keeps l d d' hd hok.2 hs

/-- Two parts of a teardown are run one after the other. -/
lemma Settles.and (hF : Settles R F) (hG : Settles R G) : Settles R fun c => F c ∧ G c where
  keeps := hF.keeps
  stable := fun l c c' hR hok hs h => ⟨hF.stable l c c' hR hok hs h.1,hG.stable l c c' hR hok hs h.2⟩
  reached := by
    intro c hR
    obtain ⟨c₁,hc₁,hF₁⟩ := hF.reached c hR
    have hR₁ := hF.carries hR hc₁
    obtain ⟨c₂,hc₂,hG₂⟩ := hG.reached c₁ hR₁
    have hF₂ : R c₂ ∧ F c₂ := hc₂.invariant (I := fun d => R d ∧ F d) ⟨hR₁,hF₁⟩
      fun l d d' hd hok hs =>
        ⟨hF.keeps l d d' hd.1 hok.2 hs,hF.stable l d d' hd.1 hok.2 hs hd.2⟩
    exact ⟨c₂,hc₁.trans hc₂,hF₂.2,hG₂⟩

end Settles

end Kestara.Kotlin
