import Kestara.Library.TaskRules

/-!
# Systems that settle

A measure of the states bounds the steps that lower it, and where some step that lowers it is always
possible unless the system has come to rest, it can come to rest. The measure of a machine whose
tasks are numbered is the load of their code.
-/
namespace Interleaving

section Measure
variable {γ l : Type*} {step : l → γ → Option γ} {ok counts : l → γ → Prop} {I : γ → Prop}
  {measure : γ → ℕ} {c d : γ} {n : ℕ}

/-- A run, and how many of its steps count. -/
inductive Takes (step : l → γ → Option γ) (ok counts : l → γ → Prop) (c : γ) : ℕ → γ → Prop
  | refl : Takes step ok counts c 0 c
  | other {n d d'} (a) (h : Takes step ok counts c n d) (ha : ok a d) (hc : ¬ counts a d)
      (hs : step a d = some d') : Takes step ok counts c n d'
  | count {n d d'} (a) (h : Takes step ok counts c n d) (ha : ok a d) (hc : counts a d)
      (hs : step a d = some d') : Takes step ok counts c (n+1) d'

/-- The steps that count are no more than the measure has fallen by. -/
theorem Takes.add_le (h : Takes step ok counts c n d) (h₀ : I c)
    (hI : ∀ a d d', I d → ok a d → step a d = some d' → I d')
    (hle : ∀ a d d', I d → ok a d → step a d = some d' → measure d' ≤ measure d)
    (hlt : ∀ a d d', I d → ok a d → counts a d → step a d = some d' → measure d' < measure d) :
    I d ∧ n + measure d ≤ measure c := by
  induction h with
  | refl => exact ⟨h₀,by omega⟩
  | @other n d d' a _ ha _ hs ih =>
    have := hle a d d' ih.1 ha hs
    exact ⟨hI a d d' ih.1 ha hs,by omega⟩
  | @count n d d' a _ ha hc hs ih =>
    have := hlt a d d' ih.1 ha hc hs
    exact ⟨hI a d d' ih.1 ha hs,by omega⟩

/-- A system in which something lowers the measure until it is at rest comes to rest. -/
theorem exists_rest {rest : γ → Prop} (h₀ : I c)
    (hI : ∀ a d d', I d → ok a d → step a d = some d' → I d')
    (hlt : ∀ a d d', I d → ok a d → step a d = some d' → measure d' < measure d)
    (hgo : ∀ d, I d → rest d ∨ ∃ a, ok a d ∧ (step a d).isSome) :
    ∃ d, Reaches step ok c d ∧ I d ∧ rest d := by
  induction hn : measure c using Nat.strong_induction_on generalizing c with
  | _ n ih =>
  subst hn
  obtain hrest | ⟨a,ha,hs⟩ := hgo c h₀
  · exact ⟨c,.refl,h₀,hrest⟩
  · obtain ⟨c',hc'⟩ := Option.isSome_iff_exists.mp hs
    obtain ⟨d,hd,hId,hrest⟩ := ih _ (hlt a c c' h₀ ha hc') (hI a c c' h₀ ha hc') rfl
    exact ⟨d,.head ⟨a,ha,hc'⟩ hd,hId,hrest⟩

end Measure

section Load
variable {ι : Type*} {n t : ℕ}

/-- The weight of the code of the first tasks. -/
def load (w : ι → ℕ) (tasks : ℕ → List ι) (n : ℕ) : ℕ := ∑ t ∈ Finset.range n, weight w (tasks t)

lemma load_update (w : ι → ℕ) (tasks : ℕ → List ι) (code : List ι) (ht : t < n) :
    load w (Function.update tasks t code) n + weight w (tasks t) =
      load w tasks n + weight w code := by
  have hmem : t ∈ Finset.range n := Finset.mem_range.mpr ht
  have hothers : ∑ u ∈ (Finset.range n).erase t, weight w (Function.update tasks t code u) =
      ∑ u ∈ (Finset.range n).erase t, weight w (tasks u) := by
    refine Finset.sum_congr rfl fun u hu => ?_
    rw [Function.update_of_ne (Finset.ne_of_mem_erase hu)]
  have hnew := Finset.add_sum_erase _ (fun u => weight w (Function.update tasks t code u)) hmem
  have hold := Finset.add_sum_erase _ (fun u => weight w (tasks u)) hmem
  simp only [Function.update_self,hothers] at hnew
  simp only [load]
  omega

lemma load_succ (w : ι → ℕ) (tasks : ℕ → List ι) (n : ℕ) :
    load w tasks (n+1) = load w tasks n + weight w (tasks n) := Finset.sum_range_succ _ _

lemma load_update_last (w : ι → ℕ) (tasks : ℕ → List ι) (code : List ι) (n : ℕ) :
    load w (Function.update tasks n code) (n+1) = load w tasks n + weight w code := by
  rw [load_succ,Function.update_self]
  congr 1
  refine Finset.sum_congr rfl fun u hu => ?_
  rw [Function.update_of_ne (Nat.ne_of_lt (Finset.mem_range.mp hu))]

end Load

namespace Machine
variable {σ ι ε χ : Type*} {M : Machine σ ι ε ℕ χ} {w : ι → ℕ}

/-- The weight of the code that an outcome leaves, that of a new task included. -/
def left (w : ι → ℕ) : Outcome σ ι ε ℕ → ℕ
  | .next _ code => weight w code
  | .fork _ code _ childCode => weight w code + weight w childCode
  | .throw _ _ | .blocked => 0

/-- The number of tasks that an outcome adds. -/
def added : Outcome σ ι ε ℕ → ℕ
  | .fork _ _ _ _ => 1
  | _ => 0

/-- A step replaces the weight of an instruction by that of what it leaves. A new task has the next
number. -/
theorem TaskStep.load_le {x : χ} {t n : ℕ} {c c' : Config σ ι ℕ} {i : ι} {rest : List ι}
    (hs : TaskStep M x t c c') (head : c.tasks t = i :: rest)
    (hh : ∀ e i code, M.handler e i = some code → weight w code ≤ w i) (ht : t < n)
    (hchild : ∀ s code child childCode, M.exec x t i c.shared = .fork s code child childCode →
      child = n) :
    load w c'.tasks (n + added (M.exec x t i c.shared)) + w i ≤
      load w c.tasks n + left w (M.exec x t i c.shared) := by
  have hweight : weight w (c.tasks t) = w i + weight w rest := by rw [head,weight_cons]
  cases hs with
  | @next j rest s code head' he =>
    cases head.symm.trans head'
    have := load_update w c.tasks (code ++ rest) ht
    simp only [he,added,left,weight_append,Nat.add_zero] at *
    omega
  | @fork j rest s code child childCode head' he =>
    cases head.symm.trans head'
    cases hchild s code child childCode he
    have hlast := load_update_last w (Function.update c.tasks t (code ++ rest)) childCode n
    have := load_update w c.tasks (code ++ rest) ht
    simp only [he,added,left,weight_append] at *
    omega
  | @throw j rest s e head' he =>
    cases head.symm.trans head'
    have hrest := weight_unwind hh e rest s
    have := load_update w c.tasks (M.unwind e rest s).2 ht
    simp only [he,added,left,Nat.add_zero] at *
    omega

end Machine
end Interleaving
