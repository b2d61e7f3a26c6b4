import Kestara.Library.Interleaving

/-!
# Budgets over all tasks

A weight counts certain instructions. `Within w tasks spent budget` bounds the weight of all
tasks together, so that a budget of one says that at most one instruction of the kind is
pending anywhere.
-/
namespace Interleaving
variable {ι τ : Type*}

def weight (w : ι → ℕ) (code : List ι) : ℕ := (code.map w).sum

section Weight
variable (w : ι → ℕ)

@[simp] lemma weight_nil : weight w [] = 0 := rfl

@[simp] lemma weight_cons (i : ι) (code : List ι) : weight w (i :: code) = w i + weight w code := by
  simp [weight]

@[simp] lemma weight_append (code rest : List ι) :
    weight w (code ++ rest) = weight w code + weight w rest := by
  simp [weight]

variable {w}

lemma le_weight {i : ι} {code : List ι} (h : i ∈ code) : w i ≤ weight w code := by
  induction code with
  | nil => cases h
  | cons j code ih =>
    rw [weight_cons]
    rcases List.mem_cons.mp h with rfl | h
    · omega
    · have := ih h
      omega

lemma weight_eq_zero {code : List ι} (h : ∀ i ∈ code, w i = 0) : weight w code = 0 := by
  induction code with
  | nil => rfl
  | cons j code ih =>
    rw [weight_cons,h j (by simp),ih fun i hi => h i (by simp [hi])]

end Weight

/-- The pending instructions together weigh no more than what is left of the budget. -/
def Within (w : ι → ℕ) (tasks : τ → List ι) (spent budget : ℕ) : Prop :=
  ∀ S : Finset τ, (∑ t ∈ S, weight w (tasks t)) + spent ≤ budget

namespace Within
variable {w : ι → ℕ} {tasks : τ → List ι} {spent budget : ℕ}

theorem of_idle (h : ∀ t, weight w (tasks t) = 0) (hb : spent ≤ budget) :
    Within w tasks spent budget := by
  intro S
  simpa [h] using hb

lemma spent_le (h : Within w tasks spent budget) : spent ≤ budget := by simpa using h ∅

lemma task (h : Within w tasks spent budget) (t : τ) : weight w (tasks t) + spent ≤ budget := by
  simpa using h {t}

lemma mem (h : Within w tasks spent budget) {t : τ} {i : ι} (hi : i ∈ tasks t) :
    w i + spent ≤ budget := by
  have := h.task t
  have := le_weight (w := w) hi
  omega

variable [DecidableEq τ]

lemma two (h : Within w tasks spent budget) {t u : τ} (hne : t ≠ u) :
    weight w (tasks t) + weight w (tasks u) + spent ≤ budget := by
  simpa [Finset.sum_pair hne] using h {t,u}

/-- A step of one task that pays for what it adds. -/
theorem update (h : Within w tasks spent budget) {t : τ} {code : List ι} {spent' budget' : ℕ}
    (hp : weight w code + spent' + budget ≤ weight w (tasks t) + spent + budget') :
    Within w (Function.update tasks t code) spent' budget' := by
  intro S
  have rest : ∀ R : Finset τ, t ∉ R →
      ∑ u ∈ R, weight w (Function.update tasks t code u) = ∑ u ∈ R, weight w (tasks u) := by
    intro R hR
    apply Finset.sum_congr rfl
    intro u hu
    have hne : u ≠ t := fun he => hR (he ▸ hu)
    rw [Function.update_of_ne hne]
  have hold : (∑ u ∈ S.erase t, weight w (tasks u)) + weight w (tasks t) + spent ≤ budget := by
    have := h (insert t (S.erase t))
    rw [Finset.sum_insert (Finset.notMem_erase t S)] at this
    omega
  by_cases ht : t ∈ S
  · rw [← Finset.sum_erase_add _ _ ht,rest _ (Finset.notMem_erase t S),Function.update_self]
    omega
  · rw [rest S ht]
    rw [Finset.erase_eq_of_notMem ht] at hold
    omega

end Within
end Interleaving
