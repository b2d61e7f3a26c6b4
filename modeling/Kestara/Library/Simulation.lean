import Kestara.Library.TaskRules

/-!
# Simulation of machines

A second machine runs the image of every instruction over a related state. Where the relation
wears out with every step of the first machine, it is counted how many steps it still lasts.
-/
namespace Interleaving

section Runs
variable {γ δ l m : Type*} {step : l → γ → Option γ} {ok : l → γ → Prop}
  {step' : m → δ → Option δ} {ok' : m → δ → Prop}

/-- A run is followed by a related one if the relation lasts long enough. How long that is depends
on the run only, not on the relation. -/
theorem Reaches.simulated {π : Type*} {R : π → ℕ → γ → δ → Prop} {c c' : γ}
    (h : Reaches step ok c c')
    (hs : ∀ p n a e e' d, Reaches step ok c e → ok a e → step a e = some e' → R p (n+1) e d →
      ∃ d', Reaches step' ok' d d' ∧ R p n e' d') :
    ∃ length, ∀ p n d, R p (n+length) c d → ∃ d', Reaches step' ok' d d' ∧ R p n c' d' := by
  induction h with
  | refl => exact ⟨0,fun p n d hR => ⟨d,.refl,hR⟩⟩
  | tail he hst ih =>
    obtain ⟨a,ha,hstep⟩ := hst
    obtain ⟨length,ih⟩ := ih
    refine ⟨length+1,fun p n d hR => ?_⟩
    have hR₁ : R p (n+1+length) c d := by rwa [Nat.add_right_comm,Nat.add_assoc]
    obtain ⟨d',hd,hR'⟩ := ih p (n+1) d hR₁
    obtain ⟨d'',hd',hR''⟩ := hs p n a _ _ d' he ha hstep hR'
    exact ⟨d'',hd.trans hd',hR''⟩

end Runs

namespace Machine
variable {σ ι ε τ χ σ' ι' : Type*} {M : Machine σ ι ε τ χ} {M' : Machine σ' ι' ε τ χ}
  {f : ι → ι'} {R : σ → σ' → Prop}

/-- An outcome and its image. -/
inductive Matches (f : ι → ι') (R : σ → σ' → Prop) : Outcome σ ι ε τ → Outcome σ' ι' ε τ → Prop
  | blocked {o} : Matches f R .blocked o
  | next {s s' code} (h : R s s') : Matches f R (.next s code) (.next s' (code.map f))
  | fork {s s' code child childCode} (h : R s s') :
      Matches f R (.fork s code child childCode) (.fork s' (code.map f) child (childCode.map f))
  | throw {s s' e} (h : R s s') : Matches f R (.throw s e) (.throw s' e)

/-- The second machine has the same handlers, and releases what the first one releases. -/
structure Follows (M : Machine σ ι ε τ χ) (M' : Machine σ' ι' ε τ χ) (f : ι → ι')
    (R : σ → σ' → Prop) : Prop where
  handler : ∀ e i, M'.handler e (f i) = (M.handler e i).map (List.map f)
  release : ∀ i s s', R s s' → R (M.release i s) (M'.release (f i) s')

lemma Follows.unwind (h : Follows M M' f R) (e : ε) (code : List ι) {s : σ} {s' : σ'}
    (hR : R s s') : R (M.unwind e code s).1 (M'.unwind e (code.map f) s').1 ∧
      (M'.unwind e (code.map f) s').2 = (M.unwind e code s).2.map f := by
  induction code generalizing s s' with
  | nil => exact ⟨hR,rfl⟩
  | cons i rest ih =>
    simp only [List.map_cons,Machine.unwind,h.handler]
    cases M.handler e i with
    | none => exact ih (h.release i s s' hR)
    | some code => exact ⟨hR,List.map_append.symm⟩

/-- The shared states are related, and every task has the image of its instructions left. -/
structure Related (f : ι → ι') (R : σ → σ' → Prop) (c : Config σ ι τ) (d : Config σ' ι' τ) :
    Prop where
  shared : R c.shared d.shared
  tasks : ∀ t, d.tasks t = (c.tasks t).map f

lemma map_update [DecidableEq τ] (f : ι → ι') {tasks : τ → List ι} {tasks' : τ → List ι'}
    (h : ∀ t, tasks' t = (tasks t).map f) (t : τ) (code : List ι) (u : τ) :
    Function.update tasks' t (code.map f) u = (Function.update tasks t code u).map f := by
  by_cases hu : u = t
  · subst hu
    simp only [Function.update_self]
  · simp only [Function.update_of_ne hu]
    exact h u

/-- A step whose outcome has an image is simulated. -/
theorem Follows.stepTask [DecidableEq τ] {R' : σ → σ' → Prop} (h : Follows M M' f R') {x : χ}
    {t : τ} {c c' : Config σ ι τ} {d : Config σ' ι' τ} (hR : Related f R c d)
    (he : ∀ i rest, c.tasks t = i :: rest →
      Matches f R' (M.exec x t i c.shared) (M'.exec x t (f i) d.shared))
    (hs : M.stepTask x t c = some c') :
    ∃ d', M'.stepTask x t d = some d' ∧ Related f R' c' d' := by
  have hcase := taskStep_of_stepTask hs
  cases hcase with
  | @next i rest s code head hexec =>
    have hmatch := he i rest head
    have head' : d.tasks t = f i :: rest.map f := by rw [hR.tasks,head,List.map_cons]
    rw [hexec] at hmatch
    cases hexec' : M'.exec x t (f i) d.shared <;> rw [hexec'] at hmatch <;> cases hmatch
    next s' hs' =>
    have hstep : M'.stepTask x t d =
        some ⟨s',Function.update d.tasks t (code.map f ++ rest.map f)⟩ := by
      simp only [Machine.stepTask,head',hexec']
    refine ⟨_,hstep,hs',fun u => ?_⟩
    rw [← List.map_append]
    exact map_update f hR.tasks t _ u
  | @fork i rest s code child childCode head hexec =>
    have hmatch := he i rest head
    have head' : d.tasks t = f i :: rest.map f := by rw [hR.tasks,head,List.map_cons]
    rw [hexec] at hmatch
    cases hexec' : M'.exec x t (f i) d.shared <;> rw [hexec'] at hmatch <;> cases hmatch
    next s' hs' =>
    have hstep : M'.stepTask x t d = some ⟨s',Function.update
        (Function.update d.tasks t (code.map f ++ rest.map f)) child (childCode.map f)⟩ := by
      simp only [Machine.stepTask,head',hexec']
    refine ⟨_,hstep,hs',fun u => ?_⟩
    rw [← List.map_append]
    exact map_update f (map_update f hR.tasks t _) child _ u
  | @throw i rest s e head hexec =>
    have hmatch := he i rest head
    have head' : d.tasks t = f i :: rest.map f := by rw [hR.tasks,head,List.map_cons]
    rw [hexec] at hmatch
    cases hexec' : M'.exec x t (f i) d.shared <;> rw [hexec'] at hmatch <;> cases hmatch
    next s' hs' =>
    obtain ⟨hshared,htasks⟩ := h.unwind e rest hs'
    have hstep : M'.stepTask x t d = some ⟨(M'.unwind e (rest.map f) s').1,
        Function.update d.tasks t (M'.unwind e (rest.map f) s').2⟩ := by
      simp only [Machine.stepTask,head',hexec']
    refine ⟨_,hstep,hshared,fun u => ?_⟩
    simp only [htasks]
    exact map_update f hR.tasks t _ u

end Machine
end Interleaving
