import Kestara.Library.Codec

/-!
# Readers that take exactly what they need

An exact reader stays inside its input, and what it returns depends on the bytes it takes only.
So two inputs that it reads to the end are equal or neither is a prefix of the other.
-/
namespace Codec
variable {δ α β : Type} {outside : δ}

structure Exact (outside : δ) (r : Reader δ α) : Prop where
  reads : ∀ input a rest, r input = .ok (a,rest) → ∃ bytes, input = bytes ++ rest ∧ Reads r bytes a
  inside : ∀ input, r input ≠ .error outside

lemma reader_bind_ok {r : Reader δ α} {k : α → Reader δ β} {input rest : List UInt8} {b : β}
    (h : (r >>= k) input = .ok (b,rest)) :
    ∃ a mid, r input = .ok (a,mid) ∧ k a mid = .ok (b,rest) := by
  change (r input >>= fun x => k x.1 x.2) = _ at h
  cases hr : r input with
  | error e =>
    rw [hr] at h
    cases h
  | ok x =>
    rw [hr] at h
    exact ⟨x.1,x.2,rfl,h⟩

lemma reader_bind_error {r : Reader δ α} {k : α → Reader δ β} {input : List UInt8} {e : δ}
    (h : (r >>= k) input = .error e) :
    r input = .error e ∨ ∃ a mid, r input = .ok (a,mid) ∧ k a mid = .error e := by
  change (r input >>= fun x => k x.1 x.2) = _ at h
  cases hr : r input with
  | error e' =>
    rw [hr] at h
    cases h
    exact .inl rfl
  | ok x =>
    rw [hr] at h
    exact .inr ⟨x.1,x.2,rfl,h⟩

lemma length_readMany {r : Reader δ α} {n : ℕ} {input rest : List UInt8} {l : List α}
    (h : readMany r n input = .ok (l,rest)) : l.length = n := by
  induction n generalizing input l with
  | zero =>
    cases h
    rfl
  | succ n ih =>
    obtain ⟨a,mid,-,h⟩ := reader_bind_ok h
    obtain ⟨as,mid',hs,h⟩ := reader_bind_ok h
    cases h
    rw [List.length_cons,ih hs]

/-- The bytes that a checked read returns are the next ones. -/
theorem Checks.read_ok {check : Reader δ Unit} {n : ℕ} {e : δ} (hc : Checks check n e)
    {k : List UInt8 → α} {input rest : List UInt8} {a : α}
    (h : (do check; return k (← fetch outside n)) input = .ok (a,rest)) :
    ∃ bytes, bytes.length = n ∧ input = bytes ++ rest ∧ a = k bytes := by
  obtain ⟨_,mid,hm,h⟩ := reader_bind_ok h
  rw [hc] at hm
  split_ifs at hm with hn
  cases hm
  obtain ⟨bytes,mid',hf,h⟩ := reader_bind_ok h
  cases h
  simp only [fetch,hn,↓reduceIte] at hf
  cases hf
  refine ⟨input.take n,?_,by rw [List.take_append_drop],rfl⟩
  rw [List.length_take]
  omega

namespace Exact

theorem pure (a : α) : Exact outside (Pure.pure a : Reader δ α) where
  reads := by
    intro input b rest h
    cases h
    exact ⟨[],rfl,reads_pure a⟩
  inside := by
    intro input h
    cases h

theorem throw {e : δ} (he : e ≠ outside) : Exact outside (MonadExcept.throw e : Reader δ α) where
  reads := by
    intro input b rest h
    cases h
  inside := by
    intro input h
    cases h
    exact he rfl

theorem bind {r : Reader δ α} {k : α → Reader δ β} (hr : Exact outside r)
    (hk : ∀ a, Exact outside (k a)) : Exact outside (r >>= k) where
  reads := by
    intro input b rest h
    obtain ⟨a,mid,h₁,h₂⟩ := reader_bind_ok h
    obtain ⟨xs,rfl,hx⟩ := hr.reads _ _ _ h₁
    obtain ⟨ys,rfl,hy⟩ := (hk a).reads _ _ _ h₂
    exact ⟨xs ++ ys,by rw [List.append_assoc],hx.bind hy⟩
  inside := by
    intro input h
    obtain h | ⟨a,mid,-,h⟩ := reader_bind_error h
    · exact hr.inside _ h
    · exact (hk a).inside _ h

theorem ite {p : Prop} [Decidable p] {r r' : Reader δ α} (hr : Exact outside r)
    (hr' : Exact outside r') : Exact outside (if p then r else r') := by
  split_ifs
  · exact hr
  · exact hr'

theorem many {r : Reader δ α} (hr : Exact outside r) (n : ℕ) : Exact outside (readMany r n) := by
  induction n with
  | zero => exact .pure []
  | succ n ih => exact hr.bind fun a => ih.bind fun rest => .pure (a :: rest)

/-- Bytes can be taken after a check that they are there. -/
theorem checked {check : Reader δ Unit} {e : δ} (he : e ≠ outside) {p : Prop} [Decidable p] {n : ℕ}
    (hc : ∀ input, check input =
      if p ∧ n ≤ input.length then .ok ((),input) else .error e) :
    Exact outside (check >>= fun _ => fetch outside n) where
  reads := by
    intro input a rest h
    obtain ⟨_,mid,hm,h⟩ := reader_bind_ok h
    rw [hc] at hm
    split_ifs at hm with hn
    cases hm
    simp only [fetch,hn.2,↓reduceIte] at h
    cases h
    have ht : (input.take n).length = n := by
      rw [List.length_take]
      omega
    refine ⟨input.take n,by simp,fun rest => ?_⟩
    have hok : check (input.take n ++ rest) = .ok ((),input.take n ++ rest) := by
      rw [hc,if_pos]
      rw [List.length_append]
      exact ⟨hn.1,by omega⟩
    rw [reader_bind hok]
    exact reads_fetch ht rest
  inside := by
    intro input h
    obtain h | ⟨_,mid,hm,h⟩ := reader_bind_error h
    · rw [hc] at h
      split_ifs at h
      cases h
      exact he rfl
    · rw [hc] at hm
      split_ifs at hm with hn
      cases hm
      simp only [fetch,hn.2,↓reduceIte] at h
      cases h

theorem required {check : Reader δ Unit} {n : ℕ} {e : δ} (hc : Checks check n e)
    (he : e ≠ outside) (k : List UInt8 → α) :
    Exact outside (do check; return k (← fetch outside n)) := by
  have h := (checked (p := True) (n := n) he fun input => by simpa using hc input).bind
    fun bytes => .pure (k bytes)
  rwa [bind_assoc] at h

variable {r : Reader δ α}

/-- What is read to the end is read as the same value in front of anything. -/
theorem read_all (hr : Exact outside r) {bytes : List UInt8} {a : α} (h : r bytes = .ok (a,[])) :
    Reads r bytes a := by
  obtain ⟨xs,hx,hxs⟩ := hr.reads _ _ _ h
  rw [List.append_nil] at hx
  exact hx ▸ hxs

/-- Of two inputs that are read to the end, none is a proper prefix of the other. -/
theorem prefix_free (hr : Exact outside r) {bytes more : List UInt8} {a b : α}
    (h : r bytes = .ok (a,[])) (h' : r (bytes ++ more) = .ok (b,[])) : more = [] := by
  rw [hr.read_all h more] at h'
  cases h'
  rfl

end Exact
end Codec
