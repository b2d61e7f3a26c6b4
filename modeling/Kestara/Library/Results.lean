import Mathlib

/-! Computations that succeed with a value or fail with an error. -/
namespace Results
variable {ε α β : Type}

/-- The computation succeeds. -/
def Accepts (r : Except ε α) : Prop := ∃ a, r = .ok a

theorem accepts_ok (a : α) : Accepts (.ok a : Except ε α) := ⟨a,rfl⟩

theorem not_accepts_error (e : ε) : ¬ Accepts (.error e : Except ε α) := by
  rintro ⟨a,h⟩
  cases h

theorem bind_ok {r : Except ε α} {f : α → Except ε β} {b : β} (h : (r >>= f) = .ok b) :
    ∃ a, r = .ok a ∧ f a = .ok b := by
  cases r with
  | error e => cases h
  | ok a => exact ⟨a,rfl,h⟩

theorem ok_bind {r : Except ε α} {f : α → Except ε β} {a : α} (h : r = .ok a) :
    (r >>= f) = f a := by
  rw [h]
  rfl

/-- A sequence succeeds when its first part does and what follows does in any case. -/
theorem Accepts.bind {r : Except ε α} {f : α → Except ε β} (h : Accepts r)
    (hf : ∀ a, r = .ok a → Accepts (f a)) : Accepts (r >>= f) := by
  obtain ⟨a,ha⟩ := h
  rw [ok_bind ha]
  exact hf a ha

end Results
