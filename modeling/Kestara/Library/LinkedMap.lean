import Mathlib

/-! Finite maps that keep their entries in insertion order, as linked hash maps do. -/

/-- No key occurs twice; a new key is appended, a known key keeps its place. -/
@[ext] structure LinkedMap (κ ν : Type*) where
  entries : List (κ × ν)
  nodup : (entries.map Prod.fst).Nodup
  deriving DecidableEq

namespace LinkedMap
variable {κ ν : Type*} [DecidableEq κ]

def empty : LinkedMap κ ν := ⟨[],by simp⟩

instance : EmptyCollection (LinkedMap κ ν) := ⟨empty⟩

def keys (m : LinkedMap κ ν) : List κ := m.entries.map Prod.fst

def values (m : LinkedMap κ ν) : List ν := m.entries.map Prod.snd

def lookup (m : LinkedMap κ ν) (k : κ) : Option ν := m.entries.lookup k

def erase (m : LinkedMap κ ν) (k : κ) : LinkedMap κ ν :=
  ⟨m.entries.filter (fun x => x.1 ≠ k),
    m.nodup.sublist (List.filter_sublist.map Prod.fst)⟩

/-- Keep the entries that a predicate accepts. -/
def retain (m : LinkedMap κ ν) (f : κ → ν → Bool) : LinkedMap κ ν :=
  ⟨m.entries.filter fun x => f x.1 x.2,m.nodup.sublist (List.filter_sublist.map Prod.fst)⟩

lemma map_replace_keys (l : List (κ × ν)) (k : κ) (v : ν) :
    (l.map (fun x => if x.1 = k then (k,v) else x)).map Prod.fst = l.map Prod.fst := by
  simp only [List.map_map]
  apply List.map_congr_left
  intro x _
  simp only [Function.comp]
  split_ifs with h
  · exact h.symm
  · rfl

def insert (m : LinkedMap κ ν) (k : κ) (v : ν) : LinkedMap κ ν :=
  if h : k ∈ m.keys then ⟨m.entries.map (fun x => if x.1 = k then (k,v) else x),by
    rw [map_replace_keys]; exact m.nodup⟩
  else ⟨m.entries ++ [(k,v)],by
    rw [List.map_append,List.nodup_append]
    refine ⟨m.nodup,by simp,?_⟩
    rintro a ha b hb rfl
    simp only [List.map_cons,List.map_nil,List.mem_singleton] at hb
    subst hb
    exact h ha⟩

theorem mem_values_of_lookup {m : LinkedMap κ ν} {k : κ} {v : ν} (h : m.lookup k = some v) :
    v ∈ m.values := by
  obtain ⟨l₁,l₂,hl,-⟩ := List.lookup_eq_some_iff.mp h
  simp [values,hl]

theorem mem_values_erase {m : LinkedMap κ ν} {k : κ} {v : ν} (h : v ∈ (m.erase k).values) :
    v ∈ m.values := by
  simp only [values,erase,List.mem_map,List.mem_filter] at *
  obtain ⟨x,⟨hx,-⟩,rfl⟩ := h
  exact ⟨x,hx,rfl⟩

theorem mem_values_insert {m : LinkedMap κ ν} {k : κ} {v w : ν}
    (h : w ∈ (m.insert k v).values) : w ∈ m.values ∨ w = v := by
  simp only [values,insert] at h
  split_ifs at h
  · simp only [List.map_map,List.mem_map,Function.comp] at h
    obtain ⟨x,hx,rfl⟩ := h
    split_ifs
    · exact .inr rfl
    · exact .inl (List.mem_map_of_mem hx)
  · simpa [values] using h

theorem mem_entries_of_lookup {m : LinkedMap κ ν} {k : κ} {v : ν} (h : m.lookup k = some v) :
    (k,v) ∈ m.entries := by
  obtain ⟨l₁,l₂,hl,-⟩ := List.lookup_eq_some_iff.mp h
  simp [hl]

@[simp] theorem mem_keys_erase {m : LinkedMap κ ν} {k k' : κ} :
    k' ∈ (m.erase k).keys ↔ k' ∈ m.keys ∧ k' ≠ k := by
  simp only [keys,erase,List.mem_map,List.mem_filter,decide_eq_true_eq]
  constructor
  · rintro ⟨x,⟨hx,hk⟩,rfl⟩
    exact ⟨⟨x,hx,rfl⟩,hk⟩
  · rintro ⟨⟨x,hx,rfl⟩,hk⟩
    exact ⟨x,⟨hx,hk⟩,rfl⟩

theorem entries_insert_of_not_mem {m : LinkedMap κ ν} {k : κ} (v : ν) (h : k ∉ m.keys) :
    (m.insert k v).entries = m.entries ++ [(k,v)] := by
  simp [insert,h]

@[simp] theorem mem_keys_insert {m : LinkedMap κ ν} {k k' : κ} {v : ν} :
    k' ∈ (m.insert k v).keys ↔ k' ∈ m.keys ∨ k' = k := by
  by_cases h : k ∈ m.keys
  · have hk : (m.insert k v).keys = m.keys := by
      unfold insert
      rw [dif_pos h]
      exact map_replace_keys m.entries k v
    rw [hk]
    constructor
    · exact .inl
    · rintro (h' | rfl)
      · exact h'
      · exact h
  · simp [keys,entries_insert_of_not_mem v h]

/-- Removing a key that has just been added gives back the map. -/
theorem erase_insert {m : LinkedMap κ ν} {k : κ} (v : ν) (h : k ∉ m.keys) :
    (m.insert k v).erase k = m := by
  ext1
  simp only [erase,entries_insert_of_not_mem v h,List.filter_append]
  have hm : m.entries.filter (fun x => x.1 ≠ k) = m.entries := by
    rw [List.filter_eq_self]
    intro x hx
    simp only [ne_eq,decide_eq_true_eq]
    rintro rfl
    exact h (List.mem_map_of_mem hx)
  rw [hm]
  simp

@[simp] theorem lookup_empty (k : κ) : (∅ : LinkedMap κ ν).lookup k = none := rfl

lemma lookup_filter (l : List (κ × ν)) (k k' : κ) :
    (l.filter fun x => x.1 ≠ k).lookup k' = if k' = k then none else l.lookup k' := by
  induction l with
  | nil => simp
  | cons x l ih =>
    obtain ⟨a,v⟩ := x
    by_cases ha : a = k
    · subst ha
      rw [List.filter_cons_of_neg (by simp),ih]
      by_cases hk : k' = a
      · simp [hk]
      · simp [hk,List.lookup_cons,beq_false_of_ne hk]
    · rw [List.filter_cons_of_pos (by simpa using ha),List.lookup_cons,List.lookup_cons,ih]
      by_cases hk : k' = a
      · simp [hk,ha]
      · simp [beq_false_of_ne hk]

theorem lookup_erase (m : LinkedMap κ ν) (k k' : κ) :
    (m.erase k).lookup k' = if k' = k then none else m.lookup k' :=
  lookup_filter m.entries k k'

omit [DecidableEq κ] in
@[simp] theorem mem_entries_retain {m : LinkedMap κ ν} {f : κ → ν → Bool} {x : κ × ν} :
    x ∈ (m.retain f).entries ↔ x ∈ m.entries ∧ f x.1 x.2 = true := by
  simp [retain]

theorem lookup_eq_some_iff {m : LinkedMap κ ν} {k : κ} {v : ν} :
    m.lookup k = some v ↔ (k,v) ∈ m.entries := by
  refine ⟨mem_entries_of_lookup,fun h => ?_⟩
  obtain ⟨l₁,l₂,hl⟩ := List.append_of_mem h
  refine List.lookup_eq_some_iff.mpr ⟨l₁,l₂,hl,fun p hp => ?_⟩
  have hn := m.nodup
  rw [hl,List.map_append,List.nodup_append] at hn
  simp only [bne_iff_ne,ne_eq]
  rintro rfl
  exact hn.2.2 _ (List.mem_map_of_mem hp) _ (by simp) rfl

theorem lookup_retain {m : LinkedMap κ ν} {f : κ → ν → Bool} {k : κ} {v : ν} :
    (m.retain f).lookup k = some v ↔ m.lookup k = some v ∧ f k v = true := by
  simp only [lookup_eq_some_iff,mem_entries_retain]

lemma lookup_replace (l : List (κ × ν)) (k k' : κ) (v : ν) :
    (l.map fun x => if x.1 = k then (k,v) else x).lookup k' =
      if k' = k ∧ k ∈ l.map Prod.fst then some v else l.lookup k' := by
  induction l with
  | nil => simp
  | cons x l ih =>
    obtain ⟨a,w⟩ := x
    by_cases ha : a = k
    · subst ha
      by_cases hk : k' = a
      · simp [hk]
      · simp [hk,List.lookup_cons,beq_false_of_ne hk,ih]
    · by_cases hk : k' = a
      · subst hk
        simp [ha]
      · simp only [List.map_cons,if_neg ha,List.lookup_cons,beq_false_of_ne hk,ih,List.mem_cons,
          Ne.symm ha,false_or]

theorem lookup_insert (m : LinkedMap κ ν) (k k' : κ) (v : ν) :
    (m.insert k v).lookup k' = if k' = k then some v else m.lookup k' := by
  unfold lookup
  by_cases h : k ∈ m.keys
  · rw [insert,dif_pos h]
    simp only [lookup_replace]
    by_cases hk : k' = k
    · simp only [hk,true_and]
      rw [if_pos (by simpa [keys] using h),if_pos trivial]
    · simp [hk]
  · rw [entries_insert_of_not_mem v h,List.lookup_append]
    by_cases hk : k' = k
    · subst hk
      have hn : m.entries.lookup k' = none := by
        rw [List.lookup_eq_none_iff]
        intro x hx
        simp only [bne_iff_ne,ne_eq]
        rintro rfl
        exact h (List.mem_map_of_mem hx)
      simp [hn]
    · simp [hk,List.lookup_cons,beq_false_of_ne hk]

omit [DecidableEq κ] in
@[simp] theorem keys_empty : (∅ : LinkedMap κ ν).keys = [] := rfl

omit [DecidableEq κ] in
@[simp] theorem values_empty : (∅ : LinkedMap κ ν).values = [] := rfl

end LinkedMap
