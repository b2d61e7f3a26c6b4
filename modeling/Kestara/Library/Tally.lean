import Kestara.Library.LinkedMap

/-! Counting and mapping the values of a linked map. -/
namespace LinkedMap
variable {κ ν : Type*} [DecidableEq κ]

/-- How many entries have a value of the kind. -/
def tally (m : LinkedMap κ ν) (p : ν → Bool) : ℕ := m.values.countP p

omit [DecidableEq κ] in
@[simp] theorem tally_empty (p : ν → Bool) : (∅ : LinkedMap κ ν).tally p = 0 := rfl

lemma filter_of_notMem {l : List (κ × ν)} {k : κ} (h : k ∉ l.map Prod.fst) :
    l.filter (fun x => x.1 ≠ k) = l := by
  rw [List.filter_eq_self]
  intro x hx
  simp only [ne_eq,decide_eq_true_eq]
  rintro rfl
  exact h (List.mem_map_of_mem hx)

lemma countP_filter_key {l : List (κ × ν)} (hl : (l.map Prod.fst).Nodup) (k : κ) (p : ν → Bool) :
    ((l.filter fun x => x.1 ≠ k).map Prod.snd).countP p + (l.lookup k).toList.countP p =
      (l.map Prod.snd).countP p := by
  induction l with
  | nil => rfl
  | cons x l ih =>
    obtain ⟨a,v⟩ := x
    simp only [List.map_cons,List.nodup_cons] at hl
    by_cases ha : a = k
    · subst ha
      rw [List.filter_cons_of_neg (by simp),filter_of_notMem hl.1]
      simp [List.countP_cons]
    · rw [List.filter_cons_of_pos (by simpa using ha),List.lookup_cons,
        beq_false_of_ne (Ne.symm ha)]
      have := ih hl.2
      simp only [List.map_cons,List.countP_cons] at this ⊢
      omega

/-- Removing an entry loses its value. -/
theorem tally_erase (m : LinkedMap κ ν) (k : κ) (p : ν → Bool) :
    (m.erase k).tally p + (m.lookup k).toList.countP p = m.tally p :=
  countP_filter_key m.nodup k p

lemma filter_replace (l : List (κ × ν)) (k : κ) (v : ν) :
    (l.map fun x => if x.1 = k then (k,v) else x).filter (fun x => x.1 ≠ k) =
      l.filter fun x => x.1 ≠ k := by
  induction l with
  | nil => rfl
  | cons x l ih =>
    by_cases hx : x.1 = k
    · simpa [hx] using ih
    · simpa [hx] using ih

/-- What is entered under a key is all that is there to be removed. -/
theorem erase_insert_self (m : LinkedMap κ ν) (k : κ) (v : ν) :
    (m.insert k v).erase k = m.erase k := by
  ext1
  by_cases h : k ∈ m.keys
  · rw [insert,dif_pos h]
    exact filter_replace m.entries k v
  · simp [erase,entries_insert_of_not_mem v h]

/-- Entering a value replaces that of its key. -/
theorem tally_insert (m : LinkedMap κ ν) (k : κ) (v : ν) (p : ν → Bool) :
    (m.insert k v).tally p + (m.lookup k).toList.countP p = m.tally p + [v].countP p := by
  have hnew := tally_erase (m.insert k v) k p
  have hold := tally_erase m k p
  rw [erase_insert_self,lookup_insert,if_pos rfl,Option.toList_some] at hnew
  omega

section Map
variable {μ : Type*} (f : ν → μ)

omit [DecidableEq κ] in
lemma nodup_map (m : LinkedMap κ ν) :
    ((m.entries.map fun x => (x.1,f x.2)).map Prod.fst).Nodup := by
  rw [List.map_map]
  exact m.nodup

/-- The map with the image of every value. -/
def mapValues (m : LinkedMap κ ν) : LinkedMap κ μ :=
  ⟨m.entries.map fun x => (x.1,f x.2),nodup_map f m⟩

omit [DecidableEq κ] in
@[simp] theorem values_mapValues (m : LinkedMap κ ν) :
    (m.mapValues f).values = m.values.map f := by
  simp [values,mapValues]

omit [DecidableEq κ] in
@[simp] theorem keys_mapValues (m : LinkedMap κ ν) : (m.mapValues f).keys = m.keys := by
  simp [keys,mapValues]

@[simp] theorem lookup_mapValues (m : LinkedMap κ ν) (k : κ) :
    (m.mapValues f).lookup k = (m.lookup k).map f := by
  obtain ⟨l,hl⟩ := m
  change (l.map fun x => (x.1,f x.2)).lookup k = (l.lookup k).map f
  clear hl
  induction l with
  | nil => rfl
  | cons x l ih =>
    obtain ⟨a,v⟩ := x
    simp only [List.map_cons,List.lookup_cons,ih]
    cases k == a <;> rfl

@[simp] theorem erase_mapValues (m : LinkedMap κ ν) (k : κ) :
    (m.mapValues f).erase k = (m.erase k).mapValues f := by
  ext1
  simp only [erase,mapValues,List.filter_map]
  rfl

@[simp] theorem insert_mapValues (m : LinkedMap κ ν) (k : κ) (v : ν) :
    (m.mapValues f).insert k (f v) = (m.insert k v).mapValues f := by
  by_cases h : k ∈ m.keys
  · ext1
    rw [insert,dif_pos (by simpa using h),insert,dif_pos h]
    simp only [mapValues,List.map_map]
    refine List.map_congr_left fun x _ => ?_
    simp only [Function.comp]
    split_ifs <;> rfl
  · ext1
    rw [entries_insert_of_not_mem _ (by simpa using h)]
    simp only [mapValues,entries_insert_of_not_mem v h,List.map_append,List.map_cons,List.map_nil]

end Map
end LinkedMap
