import Kestara.Kotlin.ChannelBudgets

/-!
# The Open event

`notifyOpen` writes OPEN and sends the Open event right after it. So a coroutine is about to send
the event exactly when it has written the state.
-/
namespace Kestara.Kotlin
open Interleaving

/-- The write of OPEN and the send of the Open event. -/
def Instr.opening : Instr → Bool
  | .channel _ (.setState .open) | .send (.event _) (.event .open)
  | .sendSuspended (.event _) (.event .open) => true
  | _ => false

/-- Every Open event comes right after the write of the state. -/
inductive Paired : List Instr → Prop
  | nil : Paired []
  | pair {d : ChannelId} {rest : List Instr} (h : Paired rest) :
      Paired (.channel d (.setState .open) :: .send (.event d) (.event .open) :: rest)
  | other {i : Instr} {rest : List Instr} (hi : i.opening = false) (h : Paired rest) :
      Paired (i :: rest)

lemma Paired.append {code rest : List Instr} (hc : Paired code) (hr : Paired rest) :
    Paired (code ++ rest) := by
  induction hc with
  | nil => exact hr
  | pair _ ih => exact .pair ih
  | other hi _ ih => exact .other hi ih

lemma paired_of_forall {code : List Instr} (h : ∀ j ∈ code, j.opening = false) : Paired code := by
  induction code with
  | nil => exact .nil
  | cons i code ih => exact .other (h i (by simp)) (ih fun j hj => h j (by simp [hj]))

lemma opening_handler {e : Exn} {i : Instr} {code : List Instr} (h : handler e i = some code) :
    ∀ j ∈ code, j.opening = false := by
  unfold handler at h
  split at h <;> cases h <;> simp [Instr.opening]

lemma Paired.afterThrow {e : Exn} {code : List Instr} (h : Paired code) :
    Paired (afterThrow e code) := by
  induction h with
  | nil => exact .nil
  | pair _ ih => exact ih
  | @other i rest _ hr ih =>
    unfold Kotlin.afterThrow
    cases hc : handler e i with
    | none => exact ih
    | some l => exact (paired_of_forall (opening_handler hc)).append hr

section Steps
variable {s : Shared}

lemma paired_handle {c : ChannelId} {e : NativeEvent} {code : List Instr}
    (h : DataChannel.handleNativeEvent c e = .ok code) : Paired code := by
  apply paired_of_forall
  unfold DataChannel.handleNativeEvent at h
  split at h <;> cases h <;> simp [Instr.opening]

lemma paired_channel {c : ChannelId} {i : ChannelInstr} {s' : Shared} {code : List Instr}
    (h : DataChannel.exec c i s = .next s' code) : Paired code := by
  revert h
  fun_cases DataChannel.exec c i s <;> intro h
  case case7 =>
    unfold execAwait at h
    split at h <;> cases h
    exact .nil
  case case9 e code he =>
    cases h
    exact (paired_handle he).append (.other rfl .nil)
  case case14 =>
    cases h
    exact .pair .nil
  case case17 b _ =>
    cases h
    apply paired_of_forall
    cases b <;> simp [DataChannel.teardown,Instr.opening]
  all_goals cases h
  all_goals apply paired_of_forall
  all_goals simp [DataChannel.closeBody,Instr.opening]

lemma opening_leaves {i j : Instr} (hi : ∀ c k, i ≠ .channel c k) (hs : ∀ q x, i ≠ .send q x)
    (h : i.leaves j) : j.opening = false := by
  unfold Instr.opening
  split
  · obtain ⟨k,hk⟩ := origin_of_leaves h
    exact absurd hk (hi _ k)
  · obtain ⟨k,hk⟩ := origin_of_leaves h
    exact absurd hk (hi _ k)
  · exact absurd (origin_of_leaves h) (hs _ _)
  · rfl

/-- What a step leaves is paired, unless it is the Open event itself that is suspended. -/
lemma paired_exec {x : Choice} {t : TaskId} {i : Instr} {s' : Shared} {code : List Instr}
    (h : exec x t i s = .next s' code) (hi : ∀ d, ¬ i.sends (.event d) (.event .open)) :
    Paired code := by
  have hl := leaves_exec s x t i
  rw [h] at hl
  cases i with
  | channel c k => exact paired_channel (execOk_of_object rfl h)
  | send q y =>
    obtain ⟨rfl,-⟩ | ⟨-,rfl,-⟩ := send_cases (.inl rfl) h
    · exact .nil
    · refine .other ?_ .nil
      unfold Instr.opening
      split
      · next he => cases he
      · next he => cases he
      · next d he =>
        cases he
        exact absurd (.inl rfl) (hi d)
      · rfl
  | _ =>
    apply paired_of_forall
    intro j hj
    exact opening_leaves (by simp) (by simp) (hl j hj)

end Steps

/-- The coroutine is about to send the Open event of the channel. -/
def OpenNext (d : ChannelId) (code : List Instr) : Prop :=
  ∃ i rest, code = i :: rest ∧ i.sends (.event d) (.event .open)

/-- A coroutine in which only the first instruction may be an Open event without its write. -/
def OpensPaired (code : List Instr) : Prop :=
  Paired code ∨ ∃ i d rest, code = i :: rest ∧ i.sends (.event d) (.event .open) ∧ Paired rest

lemma OpensPaired.tail {i : Instr} {rest : List Instr} (h : OpensPaired (i :: rest)) :
    (∃ d, i = .channel d (.setState .open) ∧ ∃ r, rest = .send (.event d) (.event .open) :: r ∧
      Paired r) ∨ Paired rest := by
  obtain h | ⟨j,d,r,he,hs,hr⟩ := h
  · cases h with
    | pair h => exact .inl ⟨_,rfl,_,rfl,h⟩
    | other _ h => exact .inr h
  · cases he
    exact .inr hr

lemma opening_of_sends {i : Instr} {d : ChannelId} (h : i.sends (.event d) (.event .open)) :
    i.opening = true := by
  obtain rfl | rfl := h <;> rfl

theorem opensPaired_of_reachable {shutdownTimeout : ℤ} {fingerprint : String}
    {ok : Label → Config → Prop} {c : Config} (h : Reachable shutdownTimeout fingerprint ok c) :
    ∀ t, OpensPaired (c.tasks t) := by
  refine h.invariant (I := fun c => ∀ t, OpensPaired (c.tasks t)) ?_ ?_
  · intro t
    refine .inl (paired_of_forall ?_)
    simp only [init]
    split_ifs <;> simp [Instr.opening]
  · intro l c c' hI _ hs t
    cases step_cases hs with
    | @task _ x u _ hl active ht =>
      by_cases hu : t = u
      · subst hu
        cases ht with
        | @next i rest s code head he =>
          simp only [Function.update_self]
          have hI := hI t
          rw [head] at hI
          by_cases hsend : ∃ d, i.sends (.event d) (.event .open)
          · obtain ⟨d,hd⟩ := hsend
            have hrest : Paired rest := by
              obtain ⟨d',rfl,-⟩ | hr := hI.tail
              · obtain hd | hd := hd <;> cases hd
              · exact hr
            obtain ⟨rfl,-⟩ | ⟨-,rfl,-⟩ := send_cases hd he
            · exact .inl hrest
            · exact .inr ⟨_,d,rest,rfl,.inr rfl,hrest⟩
          · obtain ⟨d,rfl,r,rfl,hr⟩ | hrest := hI.tail
            · have hok := execOk_of_object rfl he
              simp only [execOk,DataChannel.exec] at hok
              cases hok
              exact .inr ⟨_,d,r,rfl,.inl rfl,hr⟩
            · exact .inl ((paired_exec he fun d hd => hsend ⟨d,hd⟩).append hrest)
        | @throw i rest s e head he =>
          simp only [Function.update_self]
          have hI := hI t
          rw [head] at hI
          refine .inl ?_
          obtain ⟨d,rfl,r,rfl,hr⟩ | hrest := hI.tail
          · exact hr.afterThrow
          · exact hrest.afterThrow
      · rw [ht.other hu]
        exact hI t
    | @call u a hu idle admitted =>
      by_cases he : t = u
      · subst he
        simp only [Function.update_self]
        refine .inl (paired_of_forall ?_)
        cases a <;> simp [Api.code,Instr.opening]
      · simpa only [Function.update_of_ne he] using hI t
    | receive hu idle hr => exact hI t
    | cancel | native => exact hI t

end Kestara.Kotlin
