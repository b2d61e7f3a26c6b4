import Kestara.Library.TaskRules

/-!
# Locks and their guards

A lock is held by the task in whose code its guard is pending, and given back when the guard runs
or is removed.
-/
namespace Interleaving
variable {ι τ : Type*}

/-- One guard is pending in all tasks together if the lock is held, and otherwise none. -/
def Sole (w : ι → ℕ) (tasks : τ → List ι) (held : Bool) : Prop :=
  ∃ owner : Option τ, owner.isSome = held ∧
    ∀ t, (owner = some t → weight w (tasks t) = 1) ∧ (owner ≠ some t → weight w (tasks t) = 0)

namespace Sole
variable {w : ι → ℕ} {tasks : τ → List ι} {held : Bool}

lemma of_idle (h : ∀ t, weight w (tasks t) = 0) : Sole w tasks false :=
  ⟨none,rfl,fun t => ⟨fun ht => absurd ht (by simp),fun _ => h t⟩⟩

lemma le (h : Sole w tasks held) (t : τ) : weight w (tasks t) ≤ held.toNat := by
  obtain ⟨owner,rfl,hw⟩ := h
  by_cases ht : owner = some t
  · rw [(hw t).1 ht,ht]
    rfl
  · rw [(hw t).2 ht]
    exact Nat.zero_le _

lemma free (h : Sole w tasks false) (t : τ) : weight w (tasks t) = 0 := Nat.le_zero.mp (h.le t)

lemma owner (h : Sole w tasks true) :
    ∃ t, weight w (tasks t) = 1 ∧ ∀ u, weight w (tasks u) ≠ 0 → u = t := by
  obtain ⟨owner,ho,hw⟩ := h
  obtain ⟨t,rfl⟩ := Option.isSome_iff_exists.mp ho
  refine ⟨t,(hw t).1 rfl,fun u hu => ?_⟩
  by_contra hne
  exact hu ((hw u).2 fun he => hne (Option.some.inj he).symm)

variable [DecidableEq τ]

/-- A step of one task takes the lock, keeps it, or gives it back. -/
theorem update (h : Sole w tasks held) {t : τ} {code : List ι} {held' : Bool}
    (hp : weight w code+held.toNat = weight w (tasks t)+held'.toNat) :
    Sole w (Function.update tasks t code) held' := by
  obtain ⟨owner,rfl,hw⟩ := h
  have hother : ∀ u, u ≠ t → weight w (Function.update tasks t code u) = weight w (tasks u) :=
    fun u hu => by rw [Function.update_of_ne hu]
  by_cases ht : owner = some t
  · rw [(hw t).1 ht,ht] at hp
    refine ⟨if held' then some t else none,by cases held' <;> rfl,fun u => ?_⟩
    have hcode : weight w code = held'.toNat := by
      simp only [Option.isSome_some,Bool.toNat_true] at hp
      omega
    by_cases hu : u = t
    · subst hu
      cases held' <;> simp_all
    · have hrest := (hw u).2 fun he => hu (Option.some.inj (he.symm.trans ht))
      rw [hother u hu]
      have hne : t ≠ u := fun he => hu he.symm
      cases held' <;> simp [hrest,hne]
  · rw [(hw t).2 ht] at hp
    cases owner with
    | none =>
      have hcode : weight w code = held'.toNat := by simpa using hp
      refine ⟨if held' then some t else none,by cases held' <;> rfl,fun u => ?_⟩
      by_cases hu : u = t
      · subst hu
        cases held' <;> simp_all
      · have hrest := (hw u).2 (by simp)
        rw [hother u hu]
        have hne : t ≠ u := fun he => hu he.symm
        cases held' <;> simp [hrest,hne]
    | some v =>
      have hv : v ≠ t := fun he => ht (by rw [he])
      have hheld : held' = true := by
        cases held'
        · simp at hp
        · rfl
      subst hheld
      refine ⟨some v,rfl,fun u => ?_⟩
      by_cases hu : u = t
      · subst hu
        have hcode : weight w code = 0 := by simpa using hp
        simp [hv,hcode]
      · rw [hother u hu]
        exact hw u

/-- The step of a task that replaces its first instruction. -/
lemma thread (h : Sole w tasks held) {t : τ} {i : ι} {code rest : List ι} {held' : Bool}
    (head : tasks t = i :: rest) (hp : weight w code+held.toNat = w i+held'.toNat) :
    Sole w (Function.update tasks t (code ++ rest)) held' := by
  apply h.update
  rw [head,weight_append,weight_cons]
  omega

omit [DecidableEq τ] in
lemma of_head (h : Sole w tasks held) {t : τ} {i : ι} {rest : List ι}
    (head : tasks t = i :: rest) (hi : 0 < w i) : held = true := by
  have hle := h.le t
  rw [head,weight_cons] at hle
  cases held
  · simp only [Bool.toNat_false] at hle
    omega
  · rfl

end Sole

/-- The step of a task that replaces its first instruction. -/
lemma Within.thread [DecidableEq τ] {w : ι → ℕ} {tasks : τ → List ι} {t : τ} {i : ι}
    {code rest : List ι} {spent budget spent' budget' : ℕ} (h : Within w tasks spent budget)
    (head : tasks t = i :: rest) (hp : weight w code+spent'+budget ≤ w i+spent+budget') :
    Within w (Function.update tasks t (code ++ rest)) spent' budget' := by
  apply h.update
  rw [head,weight_append,weight_cons]
  omega

namespace Machine
variable {σ ε χ : Type*} {M : Machine σ ι ε τ χ} {w : ι → ℕ} {held : σ → Bool}

/-- The guards that a step leaves, with those that it runs, account for the lock. -/
def Balances (w : ι → ℕ) (held : σ → Bool) (s : σ) (i : ι) : Outcome σ ι ε τ → Prop
  | .next s' code => weight w code+(held s).toNat = w i+(held s').toNat
  | .fork s' code _ childCode =>
    weight w childCode = 0 ∧ weight w code+(held s).toNat = w i+(held s').toNat
  | .throw s' _ => (held s).toNat = w i+(held s').toNat
  | .blocked => True

/-- A machine whose instructions of weight one guard the lock. -/
structure Guards (M : Machine σ ι ε τ χ) (w : ι → ℕ) (held : σ → Bool) : Prop where
  exec : ∀ x t i s, w i ≤ (held s).toNat → Balances w held s i (M.exec x t i s)
  handler : ∀ e i code, M.handler e i = some code → weight w code = w i
  release : ∀ i s, held (M.release i s) = (held s && decide (w i = 0))

/-- Unwinding gives the lock back if it removes the guard. -/
lemma Guards.unwind (h : Guards M w held) (e : ε) {l : List ι} {s : σ}
    (hl : weight w l ≤ (held s).toNat) :
    weight w (M.unwind e l s).2+(held s).toNat =
      weight w l+(held (M.unwind e l s).1).toNat := by
  induction l generalizing s with
  | nil => simp [Machine.unwind]
  | cons i rest ih =>
    rw [weight_cons] at hl
    simp only [Machine.unwind]
    cases hc : M.handler e i with
    | some code => simp only [weight_append,weight_cons,h.handler e i code hc]
    | none =>
      have hle : (held s).toNat ≤ 1 := Bool.toNat_le _
      simp only [weight_cons]
      by_cases hi : w i = 0
      · have hkept : held (M.release i s) = held s := by simp [h.release,hi]
        have := ih (s := M.release i s) (by rw [hkept]; omega)
        rw [hkept] at this
        omega
      · have hfree : held (M.release i s) = false := by simp [h.release,hi]
        have := ih (s := M.release i s) (by rw [hfree]; simp; omega)
        rw [hfree,Bool.toNat_false] at this
        omega

variable [DecidableEq τ] {x : χ} {t : τ} {c c' : Config σ ι τ}

theorem TaskStep.sole (h : Guards M w held) (hs : TaskStep M x t c c')
    (hidle : ∀ i s code child childCode, M.exec x t i c.shared = .fork s code child childCode →
      c.tasks child = [])
    (hsole : Sole w c.tasks (held c.shared)) : Sole w c'.tasks (held c'.shared) := by
  have hle := hsole.le t
  cases hs with
  | @next i rest s code head he =>
    rw [head,weight_cons] at hle
    have hb := h.exec x t i c.shared (by omega)
    rw [he] at hb
    change weight w code+(held c.shared).toNat = w i+(held s).toNat at hb
    apply hsole.update
    simp only [head,weight_append,weight_cons]
    omega
  | @fork i rest s code child childCode head he =>
    rw [head,weight_cons] at hle
    have hb := h.exec x t i c.shared (by omega)
    rw [he] at hb
    obtain ⟨hchild,hb⟩ := hb
    have hne : child ≠ t := by
      rintro rfl
      rw [hidle i s code child childCode he] at head
      cases head
    have hmid : Sole w (Function.update c.tasks t (code ++ rest)) (held s) := by
      apply hsole.update
      simp only [head,weight_append,weight_cons]
      omega
    apply hmid.update
    simp only [Function.update_of_ne hne,hidle i s code child childCode he,weight_nil,hchild]
  | @throw i rest s e head he =>
    rw [head,weight_cons] at hle
    have hb := h.exec x t i c.shared (by omega)
    rw [he] at hb
    change (held c.shared).toNat = w i+(held s).toNat at hb
    have hrest := h.unwind e (l := rest) (s := s) (by omega)
    apply hsole.update
    simp only [head,weight_cons]
    omega

end Machine
end Interleaving
