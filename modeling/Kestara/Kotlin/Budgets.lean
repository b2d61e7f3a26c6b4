import Kestara.Kotlin.Control
import Kestara.Library.Budget

/-!
# Budgets of the Kotlin layer

When every step pays for the instructions of a kind that it adds, out of the one it takes or
out of a budget that the shared state keeps, all coroutines together stay within the budget.
-/
namespace Kestara.Kotlin
open Interleaving

/-- What a step adds to the pending weight and to what is spent is covered. -/
def Pays (w : Instr → ℕ) (spent budget : Shared → ℕ) (s : Shared) (i : Instr) : Outcome → Prop
  | .next s' code => weight w code + spent s' + budget s ≤ w i + spent s + budget s'
  | .throw s' _ => spent s' + budget s ≤ w i + spent s + budget s'
  | _ => True

variable {w : Instr → ℕ} {spent budget : Shared → ℕ}

lemma weight_afterThrow (hh : ∀ e i code, handler e i = some code → weight w code ≤ w i) (e : Exn)
    (l : List Instr) : weight w (afterThrow e l) ≤ weight w l := by
  induction l with
  | nil => exact le_rfl
  | cons i rest ih =>
    rw [weight_cons]
    unfold afterThrow
    cases hc : handler e i with
    | none => exact ih.trans (Nat.le_add_left _ _)
    | some code =>
      have := hh e i code hc
      simp only [weight_append]
      omega

lemma TaskStep.within (hh : ∀ e i code, handler e i = some code → weight w code ≤ w i)
    {x : Choice} {t : TaskId} {c c' : Config} (hs : TaskStep x t c c')
    (hp : ∀ i rest, c.tasks t = i :: rest → Pays w spent budget c.shared i (exec x t i c.shared))
    (h : Within w c.tasks (spent c.shared) (budget c.shared)) :
    Within w c'.tasks (spent c'.shared) (budget c'.shared) := by
  cases hs with
  | @next i rest s code head he =>
    have hpay := hp i rest head
    rw [he] at hpay
    apply h.update
    simp only [head,weight_append,weight_cons]
    change weight w code + spent s + budget c.shared ≤ _ at hpay
    omega
  | @throw i rest s e head he =>
    have hpay := hp i rest head
    have hrest := weight_afterThrow hh e rest
    rw [he] at hpay
    apply h.update
    simp only [head,weight_cons]
    change spent s + budget c.shared ≤ _ at hpay
    omega

variable (spent budget) in
/-- The budget is kept in every reachable state. -/
theorem within_of_reachable (hh : ∀ e i code, handler e i = some code → weight w code ≤ w i)
    (hp : ∀ x t i s, Pays w spent budget s i (exec x t i s))
    (hapi : ∀ s (a : Api), a.admitted s → weight w (a.code s) = 0) (hhead : w (.loop .head) = 0)
    (hcatch : w (.loop .catch) = 0) {shutdownTimeout : ℤ} {fingerprint : String}
    (hinit : spent (init shutdownTimeout fingerprint).shared ≤
      budget (init shutdownTimeout fingerprint).shared)
    (hreceive : ∀ q s s', receive q s = some s' → spent s' = spent s ∧ budget s' = budget s)
    (houtside : ∀ (s : Shared) native cancelled,
      spent { s with native := native, cancelled := cancelled } = spent s ∧
      budget { s with native := native, cancelled := cancelled } = budget s)
    {ok : Label → Config → Prop} {c : Config} (h : Reachable shutdownTimeout fingerprint ok c) :
    Within w c.tasks (spent c.shared) (budget c.shared) := by
  refine h.invariant (I := fun c => Within w c.tasks (spent c.shared) (budget c.shared)) ?_ ?_
  · refine .of_idle ?_ hinit
    intro t
    simp only [init]
    split_ifs <;> simp [hhead,hcatch]
  · intro l d d' hd _ hs
    cases step_cases hs with
    | task hl active ht => exact ht.within hh (fun i _ _ => hp _ _ i _) hd
    | call ht idle admitted =>
      apply hd.update
      simp only [hapi _ _ admitted,idle,weight_nil]
      omega
    | receive ht idle hr =>
      obtain ⟨h₁,h₂⟩ := hreceive _ _ _ hr
      change Within w d.tasks (spent _) (budget _)
      rw [h₁,h₂]
      exact hd
    | cancel | native =>
      obtain ⟨h₁,h₂⟩ := houtside d.shared _ _
      change Within w d.tasks (spent _) (budget _)
      rw [h₁,h₂]
      exact hd

end Kestara.Kotlin
