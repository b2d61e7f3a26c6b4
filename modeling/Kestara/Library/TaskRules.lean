import Kestara.Library.Budget

/-!
# Rules for machines whose tasks fork

What one step keeps of the pending instructions: assertions about them, and a budget for those of
a kind. A forked task has to be one that was idle.
-/
namespace Interleaving

/-- What is spent grows by no more than the budget. -/
theorem Within.shift {ι τ : Type*} {w : ι → ℕ} {tasks : τ → List ι} {spent budget : ℕ}
    (h : Within w tasks spent budget) {spent' budget' : ℕ}
    (hp : spent'+budget ≤ spent+budget') : Within w tasks spent' budget' := by
  intro S
  have hS := h S
  omega

namespace Machine
variable {σ ι ε τ χ : Type*} [DecidableEq τ] {M : Machine σ ι ε τ χ}

/-- One step of a task, and what it leaves pending. -/
inductive TaskStep (M : Machine σ ι ε τ χ) (x : χ) (t : τ) (c : Config σ ι τ) :
    Config σ ι τ → Prop
  | next {i rest s code} (head : c.tasks t = i :: rest)
      (he : M.exec x t i c.shared = .next s code) :
      TaskStep M x t c ⟨s,Function.update c.tasks t (code ++ rest)⟩
  | fork {i rest s code child childCode} (head : c.tasks t = i :: rest)
      (he : M.exec x t i c.shared = .fork s code child childCode) :
      TaskStep M x t c
        ⟨s,Function.update (Function.update c.tasks t (code ++ rest)) child childCode⟩
  | throw {i rest s e} (head : c.tasks t = i :: rest)
      (he : M.exec x t i c.shared = .throw s e) :
      TaskStep M x t c
        ⟨(M.unwind e rest s).1,Function.update c.tasks t (M.unwind e rest s).2⟩

theorem taskStep_of_stepTask {x : χ} {t : τ} {c c' : Config σ ι τ}
    (h : M.stepTask x t c = some c') : TaskStep M x t c c' := by
  obtain ⟨i,rest,head,⟨s,code,he,rfl⟩ | ⟨s,code,child,childCode,he,rfl⟩ | ⟨s,e,he,rfl⟩⟩ :=
    stepTask_cases h
  · exact .next head he
  · exact .fork head he
  · exact .throw head he

/-- Assertions about pending instructions. Every step has to establish them for the code that it
leaves, and to keep them for what stays pending. -/
theorem TaskStep.assertions {A : σ → τ → ι → Prop} {x : χ} {t : τ} {c c' : Config σ ι τ}
    (h : TaskStep M x t c c') (hA : ∀ u, ∀ j ∈ c.tasks u, A c.shared u j)
    (hnext : ∀ i rest s code, c.tasks t = i :: rest → M.exec x t i c.shared = .next s code →
      (∀ j ∈ code, A s t j) ∧ ∀ u j, Others c t rest u j → A c.shared u j → A s u j)
    (hfork : ∀ i rest s code child childCode, c.tasks t = i :: rest →
      M.exec x t i c.shared = .fork s code child childCode →
      (∀ j ∈ code, A s t j) ∧ (∀ j ∈ childCode, A s child j) ∧
        ∀ u j, Others c t rest u j → A c.shared u j → A s u j)
    (hthrow : ∀ i rest s e, c.tasks t = i :: rest → M.exec x t i c.shared = .throw s e →
      (∀ k ∈ rest, A c.shared t k → ∀ code, M.handler e k = some code →
        ∀ j ∈ code, A (M.unwind e rest s).1 t j) ∧
      ∀ u j, Others c t rest u j → A c.shared u j → A (M.unwind e rest s).1 u j) :
    ∀ u, ∀ j ∈ c'.tasks u, A c'.shared u j := by
  have hrest : ∀ {i rest}, c.tasks t = i :: rest → ∀ u j, Others c t rest u j → A c.shared u j :=
    fun head u j hj => hA u j (hj.mem head)
  cases h with
  | @next i rest s code head he =>
    obtain ⟨hcode,hothers⟩ := hnext i rest s code head he
    intro u j hj
    by_cases hu : u = t
    · subst hu
      simp only [Function.update_self,List.mem_append] at hj
      obtain hj | hj := hj
      · exact hcode j hj
      · have ho : Others c u rest u j := by simpa [Others] using hj
        exact hothers u j ho (hrest head u j ho)
    · simp only [Function.update_of_ne hu] at hj
      exact hothers u j (by simpa [Others,hu] using hj) (hA u j hj)
  | @fork i rest s code child childCode head he =>
    obtain ⟨hcode,hchild,hothers⟩ := hfork i rest s code child childCode head he
    intro u j hj
    by_cases hc : u = child
    · subst hc
      simp only [Function.update_self] at hj
      exact hchild j hj
    · simp only [Function.update_of_ne hc] at hj
      by_cases hu : u = t
      · subst hu
        simp only [Function.update_self,List.mem_append] at hj
        obtain hj | hj := hj
        · exact hcode j hj
        · have ho : Others c u rest u j := by simpa [Others] using hj
          exact hothers u j ho (hrest head u j ho)
      · simp only [Function.update_of_ne hu] at hj
        exact hothers u j (by simpa [Others,hu] using hj) (hA u j hj)
  | @throw i rest s e head he =>
    obtain ⟨hhandler,hothers⟩ := hthrow i rest s e head he
    intro u j hj
    by_cases hu : u = t
    · subst hu
      simp only [Function.update_self] at hj
      obtain hj | ⟨k,hk,code,hc,hj⟩ := mem_unwind hj
      · have ho : Others c u rest u j := by simpa [Others] using hj
        exact hothers u j ho (hrest head u j ho)
      · exact hhandler k hk (hA u k (by simp [head,hk])) code hc j hj
    · simp only [Function.update_of_ne hu] at hj
      exact hothers u j (by simpa [Others,hu] using hj) (hA u j hj)

section Budget
variable {w : ι → ℕ} {spent budget : σ → ℕ}

/-- What a step adds to the pending weight and to what is spent is covered. -/
def Covers (w : ι → ℕ) (spent budget : σ → ℕ) (s : σ) (i : ι) : Outcome σ ι ε τ → Prop
  | .next s' code => weight w code + spent s' + budget s ≤ w i + spent s + budget s'
  | .fork s' code _ childCode =>
    weight w code + weight w childCode + spent s' + budget s ≤ w i + spent s + budget s'
  | .throw s' _ => spent s' + budget s ≤ w i + spent s + budget s'
  | .blocked => True

lemma weight_map_eq_zero {α : Type*} {f : α → ι} (hf : ∀ a, w (f a) = 0) (l : List α) :
    weight w (l.map f) = 0 := by
  apply weight_eq_zero
  intro j hj
  obtain ⟨a,-,rfl⟩ := List.mem_map.mp hj
  exact hf a

omit [DecidableEq τ] in
lemma weight_unwind (hh : ∀ e i code, M.handler e i = some code → weight w code ≤ w i) (e : ε)
    (l : List ι) (s : σ) : weight w (M.unwind e l s).2 ≤ weight w l := by
  induction l generalizing s with
  | nil => exact le_rfl
  | cons i rest ih =>
    rw [weight_cons]
    unfold unwind
    cases hc : M.handler e i with
    | none => exact (ih _).trans (Nat.le_add_left _ _)
    | some code =>
      have := hh e i code hc
      simp only [weight_append]
      omega

theorem TaskStep.within (hh : ∀ e i code, M.handler e i = some code → weight w code ≤ w i)
    (hr : ∀ i s, spent (M.release i s) = spent s ∧ budget (M.release i s) = budget s)
    {x : χ} {t : τ} {c c' : Config σ ι τ} (hs : TaskStep M x t c c')
    (hidle : ∀ i s code child childCode, M.exec x t i c.shared = .fork s code child childCode →
      c.tasks child = [])
    (hp : ∀ i rest, c.tasks t = i :: rest → Covers w spent budget c.shared i (M.exec x t i c.shared))
    (h : Within w c.tasks (spent c.shared) (budget c.shared)) :
    Within w c'.tasks (spent c'.shared) (budget c'.shared) := by
  cases hs with
  | @next i rest s code head he =>
    have hpay := hp i rest head
    rw [he] at hpay
    change weight w code + spent s + budget c.shared ≤ _ at hpay
    apply h.update
    simp only [head,weight_append,weight_cons]
    omega
  | @fork i rest s code child childCode head he =>
    have hpay := hp i rest head
    rw [he] at hpay
    change weight w code + weight w childCode + spent s + budget c.shared ≤ _ at hpay
    have hne : child ≠ t := by
      rintro rfl
      rw [hidle i s code child childCode he] at head
      cases head
    have hmid : Within w (Function.update c.tasks t (code ++ rest))
        (spent s + weight w childCode) (budget s) := by
      apply h.update
      simp only [head,weight_append,weight_cons]
      omega
    change Within w (Function.update (Function.update c.tasks t (code ++ rest)) child childCode)
      (spent s) (budget s)
    apply hmid.update
    rw [Function.update_of_ne hne,hidle i s code child childCode he,weight_nil]
    omega
  | @throw i rest s e head he =>
    have hpay := hp i rest head
    rw [he] at hpay
    change spent s + budget c.shared ≤ _ at hpay
    have hkept : spent (M.unwind e rest s).1 = spent s ∧ budget (M.unwind e rest s).1 = budget s := by
      apply unwind_shared (P := fun s' => spent s' = spent s ∧ budget s' = budget s)
      · intro i s' hs'
        exact ⟨(hr i s').1.trans hs'.1,(hr i s').2.trans hs'.2⟩
      · exact ⟨rfl,rfl⟩
    have hrest := weight_unwind hh e rest s
    apply h.update
    simp only [head,weight_cons]
    rw [hkept.1,hkept.2]
    omega

end Budget
end Machine
end Interleaving
