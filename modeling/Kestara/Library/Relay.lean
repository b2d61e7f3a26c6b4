import Mathlib

/-!
# Relaying a stream in order

Items of one stream are handed on by several parties. Each party has a list of items it is
still going to hand on. If at most one of them has any, and takes them in the order of the
stream, then what has been handed on is in the order of the stream.
-/
namespace Relay
variable {τ α β : Type*}

/-- One party at most has items left, and these come after what has been handed on. Items
may be lost, but not swapped. -/
def Relayed (pending : τ → List α) (done source : List α) : Prop :=
  ∃ t, (∀ u ≠ t, pending u = []) ∧ (done ++ pending t).Sublist source

namespace Relayed
variable {pending pending' : τ → List α} {done done' source source' : List α} {t : τ}

theorem sublist (h : Relayed pending done source) : done.Sublist source := by
  obtain ⟨t,-,hs⟩ := h
  exact (List.sublist_append_left done (pending t)).trans hs

/-- Nothing has been handed on, and one party gets items of the stream. -/
theorem start (hothers : ∀ u ≠ t, pending u = []) (hp : (pending t).Sublist source) :
    Relayed pending [] source := ⟨t,hothers,hp⟩

theorem idle [Inhabited τ] (h : ∀ u, pending u = []) : Relayed pending [] source :=
  start (t := default) (fun u _ => h u) (by rw [h]; exact List.nil_sublist _)

/-- A party that has items is the one that has items. -/
theorem owner (h : Relayed pending done source) (ht : pending t ≠ []) :
    (∀ u ≠ t, pending u = []) ∧ (done ++ pending t).Sublist source := by
  obtain ⟨u,hu,hs⟩ := h
  have : t = u := by
    by_contra hne
    exact ht (hu t hne)
  subst this
  exact ⟨hu,hs⟩

/-- A party hands on, keeps or loses items of its own, while the stream may grow. -/
theorem keep (h : Relayed pending done source) (hothers : ∀ u ≠ t, pending' u = pending u)
    (hdone : done.Sublist done') (hmove : (done' ++ pending' t).Sublist (done ++ pending t))
    (hsource : source.Sublist source') : Relayed pending' done' source' := by
  by_cases ht : pending t = []
  · rw [ht,List.append_nil] at hmove
    have hlen := hmove.length_le
    have hlen' := hdone.length_le
    rw [List.length_append] at hlen
    have hp : pending' t = [] := List.eq_nil_of_length_eq_zero (by omega)
    have hd : done' = done := (hdone.eq_of_length_le (by omega)).symm
    obtain ⟨u,hu,hs⟩ := h
    have hsame : pending' = pending := by
      funext v
      by_cases hv : v = t
      · rw [hv,hp,ht]
      · exact hothers v hv
    rw [hd,hsame]
    exact ⟨u,hu,hs.trans hsource⟩
  · obtain ⟨hu,hs⟩ := h.owner ht
    refine ⟨t,fun v hv => ?_,(hmove.trans hs).trans hsource⟩
    rw [hothers v hv]
    exact hu v hv

/-- While nobody has items left, a party gets the next ones of the stream. -/
theorem extend (h : Relayed pending done source) (items : List α)
    (hothers : ∀ u ≠ t, pending' u = []) (ht : pending' t = items)
    (hsource : (source ++ items).Sublist source') : Relayed pending' done source' := by
  refine ⟨t,hothers,?_⟩
  rw [ht]
  exact (h.sublist.append_right items).trans hsource

/-- Parties may lose items. -/
theorem lose (h : Relayed pending done source) (hp : ∀ u, (pending' u).Sublist (pending u))
    (hsource : source.Sublist source') : Relayed pending' done source' := by
  obtain ⟨t,ht,hs⟩ := h
  refine ⟨t,fun u hu => ?_,(((hp t).append_left done).trans hs).trans hsource⟩
  have := hp u
  rw [ht u hu] at this
  exact List.sublist_nil.mp this

section Tasks
variable {ι : Type*} [DecidableEq τ] {tasks : τ → List ι} {k : ι → Option α} {i : ι} {rest code : List ι}

/-- The items are those that the code of tasks still has to hand on: one task replaces its first
instruction. -/
theorem task (h : Relayed (fun u => (tasks u).filterMap k) done source) (head : tasks t = i :: rest)
    (hdone : done.Sublist done')
    (hmove : (done' ++ code.filterMap k).Sublist (done ++ [i].filterMap k))
    (hsource : source.Sublist source') :
    Relayed (fun u => (Function.update tasks t (code ++ rest) u).filterMap k) done' source' := by
  refine h.keep (t := t) (fun u hu => ?_) hdone ?_ hsource
  · simp only [Function.update_of_ne hu]
  · simp only [Function.update_self,head]
    rw [← List.singleton_append,List.filterMap_append,List.filterMap_append,← List.append_assoc,
      ← List.append_assoc]
    exact hmove.append_right _

end Tasks
end Relayed

/-- The items that belong to one of many streams. -/
def of [DecidableEq β] (key : β) (l : List (β × α)) : List α :=
  l.filterMap fun x => if x.1 = key then some x.2 else none

section Of
variable [DecidableEq β]

@[simp] theorem of_nil (key : β) : of key ([] : List (β × α)) = [] := rfl

@[simp] theorem of_append (key : β) (l l' : List (β × α)) : of key (l ++ l') = of key l ++ of key l' :=
  List.filterMap_append

@[simp] theorem of_singleton_self (key : β) (x : α) : of key [(key,x)] = [x] := by simp [of]

theorem of_singleton_of_ne {key k : β} (h : k ≠ key) (x : α) : of key [(k,x)] = [] := by
  simp [of,h]

end Of
end Relay
