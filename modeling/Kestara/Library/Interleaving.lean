import Mathlib

/-!
# Interleaved tasks over a shared state

A task is the list of atomic instructions it still has to run. Scheduling a task
runs its first instruction, which may replace itself by further instructions, fork
another task, wait, or throw. An exception removes instructions up to the nearest
handler; a removed instruction can release what it guards, as a scope guard does.
-/
namespace Interleaving

/-- What one atomic instruction does when its task is scheduled. -/
inductive Outcome (σ ι ε τ : Type*)
  | blocked
  | next (s : σ) (code : List ι)
  | fork (s : σ) (code : List ι) (child : τ) (childCode : List ι)
  | throw (s : σ) (e : ε)
  deriving DecidableEq

/-- `exec` is told which of its possible results an external call has (`χ`). -/
structure Machine (σ ι ε τ χ : Type*) where
  exec : χ → τ → ι → σ → Outcome σ ι ε τ
  handler : ε → ι → Option (List ι)
  release : ι → σ → σ

structure Config (σ ι τ : Type*) where
  shared : σ
  tasks : τ → List ι

section Runs
variable {γ l : Type*} (step : l → γ → Option γ) (ok : l → γ → Prop)

/-- One step whose label meets the condition `ok` in the state before it. -/
def Step (c c' : γ) : Prop := ∃ a, ok a c ∧ step a c = some c'

/-- A state reached by a run all of whose steps meet the condition `ok`. -/
def Reaches : γ → γ → Prop := Relation.ReflTransGen (Step step ok)

/-- Follow a schedule, if every one of its steps is possible. -/
def run : List l → γ → Option γ
  | [],c => some c
  | a :: as,c => (step a c).bind (run as)

variable {step ok}

theorem Reaches.invariant {I : γ → Prop} {c c' : γ} (h : Reaches step ok c c') (h₀ : I c)
    (hs : ∀ a d d', I d → ok a d → step a d = some d' → I d') : I c' := by
  induction h with
  | refl => exact h₀
  | tail _ hst ih =>
    obtain ⟨a,ha,he⟩ := hst
    exact hs a _ _ ih ha he

/-- The invariant rule that may use what is known of every state reached before. -/
theorem Reaches.induct {I : γ → Prop} {c c' : γ} (h : Reaches step ok c c') (h₀ : I c)
    (hs : ∀ a d d', Reaches step ok c d → I d → ok a d → step a d = some d' → I d') : I c' := by
  induction h with
  | refl => exact h₀
  | @tail d d' hd hst ih =>
    obtain ⟨a,ha,he⟩ := hst
    exact hs a d d' hd ih ha he

/-- A run under one condition is a run under every weaker one. -/
theorem Reaches.weaken {ok' : l → γ → Prop} (hok : ∀ a c, ok a c → ok' a c) {c c' : γ}
    (h : Reaches step ok c c') : Reaches step ok' c c' := by
  refine Relation.ReflTransGen.mono ?_ _ _ h
  rintro d d' ⟨a,ha,he⟩
  exact ⟨a,hok a d ha,he⟩

/-- A schedule that runs to the end, with every step meeting the condition, reaches its result. -/
theorem reaches_of_run {as : List l} {c c' : γ} (h : run step as c = some c')
    (hok : ∀ a ∈ as, ∀ d, ok a d) : Reaches step ok c c' := by
  induction as generalizing c with
  | nil =>
    cases h
    exact .refl
  | cons a as ih =>
    simp only [run,Option.bind_eq_some_iff] at h
    obtain ⟨d,hd,hr⟩ := h
    exact .head ⟨a,hok a (by simp) c,hd⟩ (ih hr (fun b hb => hok b (by simp [hb])))

/-- A schedule whose steps pass an executable check that implies the condition, in states that
have an invariant of the schedule. -/
theorem reaches_of_guarded {I : γ → Prop} {check : l → γ → Bool}
    (hI : ∀ a d d', I d → check a d = true → step a d = some d' → I d')
    (hcheck : ∀ a d, I d → check a d = true → ok a d) {as : List l} {c c' : γ} (h₀ : I c)
    (h : run (fun a d => if check a d then step a d else none) as c = some c') :
    Reaches step ok c c' := by
  induction as generalizing c with
  | nil =>
    cases h
    exact .refl
  | cons a as ih =>
    simp only [run,Option.bind_eq_some_iff] at h
    obtain ⟨d,hd,hr⟩ := h
    split_ifs at hd with ha
    exact .head ⟨a,hcheck a c h₀ ha,hd⟩ (ih (hI a c d h₀ ha hd) hr)

/-- The invariant of such a schedule holds at its end. -/
theorem invariant_of_guarded {I : γ → Prop} {check : l → γ → Bool}
    (hI : ∀ a d d', I d → check a d = true → step a d = some d' → I d') {as : List l} {c c' : γ}
    (h₀ : I c) (h : run (fun a d => if check a d then step a d else none) as c = some c') :
    I c' := by
  induction as generalizing c with
  | nil =>
    cases h
    exact h₀
  | cons a as ih =>
    simp only [run,Option.bind_eq_some_iff] at h
    obtain ⟨d,hd,hr⟩ := h
    split_ifs at hd with ha
    exact ih (hI a c d h₀ ha hd) hr

/-- A schedule whose steps pass an executable check that implies the condition. -/
theorem reaches_of_checked {check : l → γ → Bool} (hcheck : ∀ a d, check a d = true → ok a d)
    {as : List l} {c c' : γ}
    (h : run (fun a d => if check a d then step a d else none) as c = some c') :
    Reaches step ok c c' :=
  reaches_of_guarded (I := fun _ => True) (fun _ _ _ _ _ _ => trivial) (fun a d _ => hcheck a d)
    trivial h

end Runs

namespace Machine
variable {σ ι ε τ χ : Type*} (M : Machine σ ι ε τ χ)

/-- Remove instructions up to the nearest handler, releasing what they guard. -/
def unwind (e : ε) : List ι → σ → σ × List ι
  | [],s => (s,[])
  | i :: rest,s =>
    match M.handler e i with
    | some code => (s,code ++ rest)
    | none => unwind e rest (M.release i s)

variable {M} in
/-- A property of the shared state that no release breaks survives unwinding. -/
theorem unwind_shared {P : σ → Prop} (hr : ∀ i s, P s → P (M.release i s)) (e : ε) (l : List ι)
    (s : σ) (h : P s) : P (M.unwind e l s).1 := by
  induction l generalizing s with
  | nil => exact h
  | cons i rest ih =>
    simp only [unwind]
    split
    · exact h
    · exact ih _ (hr i s h)

variable {M} in
/-- What is left after unwinding was there before or is the code of a handler. -/
theorem mem_unwind {e : ε} {l : List ι} {s : σ} {j : ι} (h : j ∈ (M.unwind e l s).2) :
    j ∈ l ∨ ∃ i ∈ l, ∃ code, M.handler e i = some code ∧ j ∈ code := by
  induction l generalizing s with
  | nil => cases h
  | cons i rest ih =>
    simp only [unwind] at h
    split at h
    · next code hc =>
      rcases List.mem_append.mp h with h | h
      · exact .inr ⟨i,by simp,code,hc,h⟩
      · exact .inl (by simp [h])
    · rcases ih h with h | ⟨k,hk,code,hc,hj⟩
      · exact .inl (by simp [h])
      · exact .inr ⟨k,by simp [hk],code,hc,hj⟩

variable [DecidableEq τ]

/-- Run the first instruction of one task. -/
def stepTask (x : χ) (t : τ) (c : Config σ ι τ) : Option (Config σ ι τ) :=
  match c.tasks t with
  | [] => none
  | i :: rest =>
    match M.exec x t i c.shared with
    | .blocked => none
    | .next s code => some ⟨s,Function.update c.tasks t (code ++ rest)⟩
    | .fork s code child childCode =>
      some ⟨s,Function.update (Function.update c.tasks t (code ++ rest)) child childCode⟩
    | .throw s e =>
      some ⟨(M.unwind e rest s).1,Function.update c.tasks t (M.unwind e rest s).2⟩

/-- The instructions that remain pending while task `t` runs its first one. -/
def Others (c : Config σ ι τ) (t : τ) (rest : List ι) (t' : τ) (j : ι) : Prop :=
  if t' = t then j ∈ rest else j ∈ c.tasks t'

lemma Others.mem {c : Config σ ι τ} {t : τ} {i : ι} {rest : List ι} {t' : τ} {j : ι}
    (head : c.tasks t = i :: rest) (h : Others c t rest t' j) : j ∈ c.tasks t' := by
  unfold Others at h
  split_ifs at h with ht
  · subst ht
    simp [head,h]
  · exact h

variable {M} in
/-- The three ways in which a scheduled task can move. -/
theorem stepTask_cases {x : χ} {t : τ} {c c' : Config σ ι τ} (h : M.stepTask x t c = some c') :
    ∃ i rest, c.tasks t = i :: rest ∧
      ((∃ s code, M.exec x t i c.shared = .next s code ∧
          c' = ⟨s,Function.update c.tasks t (code ++ rest)⟩) ∨
        (∃ s code child childCode, M.exec x t i c.shared = .fork s code child childCode ∧
          c' = ⟨s,Function.update (Function.update c.tasks t (code ++ rest)) child childCode⟩) ∨
        (∃ s e, M.exec x t i c.shared = .throw s e ∧
          c' = ⟨(M.unwind e rest s).1,Function.update c.tasks t (M.unwind e rest s).2⟩)) := by
  unfold stepTask at h
  split at h
  · contradiction
  · next i rest hi =>
    refine ⟨i,rest,hi,?_⟩
    split at h
    · contradiction
    · next s code he => cases h; exact .inl ⟨s,code,he,rfl⟩
    · next s code child childCode he => cases h; exact .inr (.inl ⟨s,code,child,childCode,he,rfl⟩)
    · next s e he => cases h; exact .inr (.inr ⟨s,e,he,rfl⟩)

/-- A task whose first instruction does not wait can be scheduled. -/
theorem stepTask_isSome {x : χ} {t : τ} {c : Config σ ι τ} {i : ι} {rest : List ι}
    (head : c.tasks t = i :: rest) (h : M.exec x t i c.shared ≠ .blocked) :
    (M.stepTask x t c).isSome = true := by
  simp only [stepTask,head]
  split
  · contradiction
  all_goals rfl

end Machine
end Interleaving
