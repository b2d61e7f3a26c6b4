import Kestara.Native.Validity
import Kestara.Wire.Bridges

/-!
# Masks of ordinals

The bit mask that Kotlin folds a collection of enumeration values into, and the entries that the
native side selects with it from a table in declaration order.
-/
namespace Kestara.Wire
open Native

section Masks

lemma getLsbD_foldl_or (ordinals : List ℕ) (h : ∀ o ∈ ordinals, o < 32) (mask : BitVec 32) (i : ℕ) :
    (ordinals.foldl (fun mask o => mask ||| (1 : BitVec 32) <<< o) mask).getLsbD i =
      (mask.getLsbD i || decide (i ∈ ordinals)) := by
  induction ordinals generalizing mask with
  | nil => simp
  | cons o ordinals ih =>
    have ho : o < 32 := h o (List.mem_cons_self ..)
    rw [List.foldl_cons,ih (fun o' ho' => h o' (List.mem_cons_of_mem _ ho')),BitVec.getLsbD_or,
      getLsbD_bit ho,Bool.or_assoc]
    congr 1
    rw [Bool.eq_iff_iff]
    simp

/-- The set bits of a mask are the ordinals it was folded from. -/
lemma getLsbD_ordinalMask (ordinals : List ℕ) (h : ∀ o ∈ ordinals, o < 32) (i : ℕ) :
    (ordinalMask ordinals).toBitVec.getLsbD i = decide (i ∈ ordinals) := by
  have hbits := getLsbD_foldl_or ordinals h 0 i
  have hzero : (0 : BitVec 32).getLsbD i = false := BitVec.getLsbD_zero
  rw [hzero,Bool.false_or] at hbits
  exact hbits

/-- A mask of ordinals below `n` is accepted as a positive mask of `n` bits. -/
lemma ordinalMask_range {ordinals : List ℕ} {n : ℕ} (hn : n < 32) (h : ∀ o ∈ ordinals, o < n)
    (hne : ordinals ≠ []) :
    0 < (ordinalMask ordinals).toInt ∧
      (ordinalMask ordinals).toBitVec &&& ~~~(BitVec.ofNat 32 (2^n-1)) = 0 := by
  have hbit := getLsbD_ordinalMask ordinals fun o ho => (h o ho).trans hn
  refine ⟨?_,?_⟩
  · have hmsb : (ordinalMask ordinals).toBitVec.msb = false := by
      rw [BitVec.msb_eq_getLsbD_last,hbit]
      simp only [decide_eq_false_iff_not]
      intro hmem
      have := h _ hmem
      omega
    have hnonneg : 0 ≤ (ordinalMask ordinals).toInt := by
      have := BitVec.toInt_nonneg_of_msb_false hmsb
      exact this
    obtain ⟨o,ho⟩ := List.exists_mem_of_ne_nil ordinals hne
    have hset := hbit o
    rw [decide_eq_true ho] at hset
    have hnz : (ordinalMask ordinals).toInt ≠ 0 := by
      intro hz
      have h0 : (ordinalMask ordinals).toBitVec = 0 := BitVec.eq_of_toInt_eq hz
      rw [h0] at hset
      simp at hset
    omega
  · apply BitVec.eq_of_getLsbD_eq
    intro i hi
    rw [BitVec.getLsbD_and,hbit,BitVec.getLsbD_not,BitVec.getLsbD_ofNat,
      Nat.testBit_two_pow_sub_one]
    by_cases hmem : i ∈ ordinals
    · have hin := h i hmem
      simp [hin,hi]
    · simp [hmem]

/-- A table whose entries stand at their ordinals is expanded to the entries in the mask. -/
lemma selected_map {α β : Type} (f : α → β) (ordinal : α → ℕ) {all : List α} (mask : BitVec 32)
    (hpos : ∀ x ∈ all.zipIdx, ordinal x.1 = x.2) (hlt : all.length ≤ 32) :
    selected (all.map f) mask = (all.filter fun a => mask.getLsbD (ordinal a)).map f := by
  have hfun : ∀ x ∈ all.zipIdx,
      (if mask &&& (1 : BitVec 32) <<< x.2 ≠ 0 then some (f x.1) else none) =
        (if mask.getLsbD (ordinal x.1) = true then some (f x.1) else none) := by
    intro x hx
    have hi : x.2 < 32 := (List.snd_lt_of_mem_zipIdx hx).trans_le (by omega)
    rw [hpos x hx]
    exact if_congr (and_bit_ne_zero mask hi) rfl rfl
  have hfst : all.zipIdx.map Prod.fst = all := by simp
  calc selected (all.map f) mask
      = all.zipIdx.filterMap fun x =>
          if mask &&& (1 : BitVec 32) <<< x.2 ≠ 0 then some (f x.1) else none := by
        unfold selected
        rw [List.zipIdx_map,List.filterMap_map]
        rfl
    _ = all.zipIdx.filterMap fun x =>
          if mask.getLsbD (ordinal x.1) = true then some (f x.1) else none :=
        List.filterMap_congr hfun
    _ = (all.zipIdx.map Prod.fst).filterMap fun a =>
          if mask.getLsbD (ordinal a) = true then some (f a) else none := by
        rw [List.filterMap_map]
        rfl
    _ = (all.filter fun a => mask.getLsbD (ordinal a)).map f := by
        rw [hfst,← List.filterMap_eq_filter,List.map_filterMap]
        congr 1
        funext a
        simp only [Option.guard]
        split_ifs <;> rfl

end Masks

end Kestara.Wire
