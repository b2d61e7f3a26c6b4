import Kestara.Library.TaskRules

/-!
# Instructions in charge

An instruction is in charge of something until that is done or until it has left the charge to
another instruction. Whoever loses an instruction in charge has to do what is wanted.
-/
namespace Interleaving.Machine
variable {σ ι ε τ χ : Type*} [DecidableEq τ] {M : Machine σ ι ε τ χ} {D : ι → Prop} {G : σ → Prop}

/-- Running an instruction in charge does what is wanted or leaves another one in charge. -/
def PassesOn (D : ι → Prop) (G : σ → Prop) : Outcome σ ι ε τ → Prop
  | .next s code => (∃ j ∈ code, D j) ∨ G s
  | .fork s code _ childCode => (∃ j ∈ code, D j) ∨ (∃ j ∈ childCode, D j) ∨ G s
  | .throw s _ => G s
  | .blocked => True

/-- A charge that is pending before a step is pending after it, unless the step has done what is
wanted. No step may throw over an instruction in charge. -/
theorem TaskStep.passesOn {x : χ} {t u : τ} {c c' : Config σ ι τ} {j : ι}
    (hs : TaskStep M x t c c')
    (hidle : ∀ i s code child childCode, M.exec x t i c.shared = .fork s code child childCode →
      c.tasks child = [])
    (hrun : ∀ i rest, c.tasks t = i :: rest → D i → PassesOn D G (M.exec x t i c.shared))
    (hthrow : ∀ i rest, c.tasks t = i :: rest → (∃ k ∈ rest, D k) →
      ∀ s e, M.exec x t i c.shared ≠ .throw s e)
    (hrelease : ∀ i s, G s → G (M.release i s)) (hj : j ∈ c.tasks u) (hD : D j) :
    (∃ u, ∃ j ∈ c'.tasks u, D j) ∨ G c'.shared := by
  cases hs with
  | @next i rest s code head he =>
    by_cases hu : u = t
    · subst hu
      rw [head] at hj
      obtain rfl | hj := List.mem_cons.mp hj
      · have hpass := hrun j rest head hD
        rw [he] at hpass
        obtain ⟨k,hk,hkD⟩ | hG := hpass
        · exact .inl ⟨u,k,by simp [hk],hkD⟩
        · exact .inr hG
      · exact .inl ⟨u,j,by simp [hj],hD⟩
    · exact .inl ⟨u,j,by simpa [Function.update_of_ne hu] using hj,hD⟩
  | @fork i rest s code child childCode head he =>
    have hidle := hidle i s code child childCode he
    have hne : ∀ {v}, c.tasks v ≠ [] → v ≠ child := by
      rintro v hv rfl
      exact hv hidle
    have huc := hne (List.ne_nil_of_mem hj)
    by_cases hu : u = t
    · subst hu
      rw [head] at hj
      obtain rfl | hj := List.mem_cons.mp hj
      · have hpass := hrun j rest head hD
        rw [he] at hpass
        obtain ⟨k,hk,hkD⟩ | ⟨k,hk,hkD⟩ | hG := hpass
        · exact .inl ⟨u,k,by simp [Function.update_of_ne huc,hk],hkD⟩
        · exact .inl ⟨child,k,by simp [hk],hkD⟩
        · exact .inr hG
      · exact .inl ⟨u,j,by simp [Function.update_of_ne huc,hj],hD⟩
    · exact .inl ⟨u,j,by simpa [Function.update_of_ne huc,Function.update_of_ne hu] using hj,hD⟩
  | @throw i rest s e head he =>
    by_cases hu : u = t
    · subst hu
      rw [head] at hj
      obtain rfl | hj := List.mem_cons.mp hj
      · have hpass := hrun j rest head hD
        rw [he] at hpass
        exact .inr (unwind_shared hrelease e rest s hpass)
      · exact absurd he (hthrow i rest head ⟨j,hj,hD⟩ s e)
    · exact .inl ⟨u,j,by simpa [Function.update_of_ne hu] using hj,hD⟩

end Interleaving.Machine
