import Kestara.Kotlin.Lifecycle

/-! Operations are resolved: each one exactly once, and nobody waits for one in vain. -/
namespace Kestara.Kotlin
open Interleaving

/-- Somebody is about to complete the deferred of the operation. -/
def Completing (c : Config) (op : ℤ) : Prop :=
  (∃ e rest, c.tasks 0 = .loop (.resolve op e) :: rest) ∨
    ∃ t f, .runtime (.failOperation op f) ∈ c.tasks t

/-- How `operations` lets an operation go. -/
def Removes (c : Config) (op : ℤ) (t : TaskId) (x : Choice) : Instr → Prop
  | .loop (.takeOperation e) => e.kind? = some .operationComplete ∧ e.operationHandle = op
  | .runtime (.drain _) => True
  | .submit (.call op' _) => op' = op ∧ c.shared.history.submitter op = some t ∧ ∃ m, x = .fail m
  | _ => False

structure OperationsResolved (c : Config) : Prop where
  takenOnce : (c.shared.history.taken.map Prod.fst).Nodup
  accounted : ∀ op, op ∈ c.shared.runtime.operations.keys ↔
    op ∈ c.shared.history.inserted ∧ op ∉ c.shared.history.taken.map Prod.fst
  removed : ∀ l c' op, step l c = some c' → op ∈ c.shared.runtime.operations.keys →
    op ∉ c'.shared.runtime.operations.keys →
    ∃ t x i rest, l.scheduled = some (t,x) ∧ c.tasks t = i :: rest ∧ Removes c op t x i
  ownEvent : ∀ op e, c.shared.deferred op = some (.completed e) →
    e.kind? = some .operationComplete ∧ e.operationHandle = op
  restored : ∀ t op b rest m c', c.tasks t = .submit (.call op b) :: rest →
    step (.fail t m) c = some c' → c'.shared.runtime.operations = c.shared.history.before
  emptied : c.shared.history.drained = true → ∀ c', Reaches step ShutdownUncancelled c c' →
    c'.shared.runtime.operations = ∅ ∧ c'.shared.runtime.peers = ∅
  settled : c.shared.history.drained = true → ∀ op ∈ c.shared.history.inserted,
    (c.shared.deferred op).isSome = true ∨ Completing c op ∨
      (op,.submissionFailure) ∈ c.shared.history.taken
  waiting : ∀ t op k, .submit (.await op k) ∈ c.tasks t →
    (c.shared.deferred op).isSome = true ∨ Completing c op ∨
      op ∈ c.shared.runtime.operations.keys ∧
        (c.shared.runtime.closed = false ∧ LoopGoing (c.tasks 0) ∨
          ∃ u f, .runtime (.drain f) ∈ c.tasks u)

section Theorem
variable {shutdownTimeout : ℤ} {fingerprint : String} {c : Config}

/-- Only three instructions take an operation out. -/
lemma OpStep.removes_next {t : TaskId} {i : Instr} {s : Shared} {code : List Instr} {op : ℤ}
    (x : Choice) (hc : Claim c.shared t i) (h : OpStep t c.shared i (.next s code))
    (hin : op ∈ c.shared.runtime.operations.keys) (hout : op ∉ s.runtime.operations.keys) :
    Removes c op t x i := by
  cases h with
  | other _ _ same _ => rw [same.operations] at hout; exact (hout hin).elim
  | poll e hk same => rw [same.operations] at hout; exact (hout hin).elim
  | close _ _ same => rw [same.operations] at hout; exact (hout hin).elim
  | insert op' b => exact (hout (LinkedMap.mem_keys_insert.mpr (.inl hin))).elim
  | take e op' free found =>
    refine ⟨hc,?_⟩
    by_contra hne
    exact hout (LinkedMap.mem_keys_erase.mpr ⟨hin,fun h => hne h.symm⟩)
  | drain f free => trivial
  | _ => exact (hout hin).elim

lemma OpStep.removes_throw {t : TaskId} {i : Instr} {s : Shared} {e : Exn} {x : Choice} {op : ℤ}
    (hc : Claim c.shared t i) (he : exec x t i c.shared = .throw s e)
    (h : OpStep t c.shared i (.throw s e)) (hin : op ∈ c.shared.runtime.operations.keys)
    (hout : op ∉ s.runtime.operations.keys) : Removes c op t x i := by
  cases h with
  | submissionFails op' b m =>
    have heq : op = op' := by
      by_contra hne
      exact hout (LinkedMap.mem_keys_erase.mpr ⟨hin,hne⟩)
    subst heq
    refine ⟨rfl,hc.1,?_⟩
    cases x with
    | fail m' => exact ⟨m',rfl⟩
    | ok => cases he
    | cancel => cases he
  | _ => exact (hout hin).elim

lemma removes_of_step (h : Accounting c) {l : Label} {c' : Config} {op : ℤ}
    (hs : step l c = some c') (hin : op ∈ c.shared.runtime.operations.keys)
    (hout : op ∉ c'.shared.runtime.operations.keys) :
    ∃ t x i rest, l.scheduled = some (t,x) ∧ c.tasks t = i :: rest ∧ Removes c op t x i := by
  cases step_cases hs with
  | @task _ x t _ hl active ht =>
    obtain ⟨i,rest,head,⟨s,code,-,hop,rfl⟩ | ⟨s,e,he,hop,rfl⟩⟩ := ht.opStep
    · exact ⟨t,x,i,rest,hl,head,hop.removes_next x (h.claims t i rest head) hin hout⟩
    · exact ⟨t,x,i,rest,hl,head,hop.removes_throw (h.claims t i rest head) he hin hout⟩
  | call => exact (hout hin).elim
  | receive ht idle hr =>
    obtain ⟨y,ys,known,-,-,rfl⟩ := receive_cases hr
    exact (hout hin).elim
  | cancel | native => exact (hout hin).elim

/-- An operation that has been taken out is resolved, or is about to be, or has failed at its
submission. -/
lemma settled_of_taken (h : Lifecycle c) {op : ℤ}
    (hop : op ∈ c.shared.history.taken.map Prod.fst) :
    (c.shared.deferred op).isSome = true ∨ Completing c op ∨
      (op,.submissionFailure) ∈ c.shared.history.taken := by
  obtain ⟨⟨op',who⟩,hmem,rfl⟩ := List.mem_map.mp hop
  cases who with
  | completion e =>
    rcases h.resolving _ e hmem with hd | ⟨rest,hr⟩
    · exact .inl hd
    · exact .inr (.inl (.inl ⟨e,rest,hr⟩))
  | drain =>
    rcases h.failing _ hmem with hd | hf
    · exact .inl hd
    · exact .inr (.inl (.inr hf))
  | submissionFailure => exact .inr (.inr hmem)

lemma drained_of_reaches {c c' : Config} (h : Reaches step ShutdownUncancelled c c')
    (hd : c.shared.history.drained = true) : c'.shared.history.drained = true := by
  refine h.invariant (I := fun c => c.shared.history.drained = true) hd ?_
  intro l d d' hd _ hs
  cases step_cases hs with
  | task hl active ht =>
    obtain ⟨i,rest,code,rest',-,hf,-⟩ := ht.flags
    exact hf.drained_mono hd
  | call => exact hd
  | receive ht idle hr =>
    obtain ⟨y,ys,known,-,-,rfl⟩ := receive_cases hr
    exact hd
  | cancel | native => exact hd

/-- In every run in which the coroutine of `completeShutdown` is not cancelled. -/
theorem operationsResolved_of_reachable
    (h : Reachable shutdownTimeout fingerprint ShutdownUncancelled c) : OperationsResolved c := by
  have hacc := accounting_of_reachable h
  have hlife := lifecycle_of_reachable h
  refine ⟨hacc.books.once,hacc.books.keys,fun l c' op hs => removes_of_step hacc hs,
    fun op e he => hacc.books.completions op e (hacc.books.deferred op e he),?_,?_,?_,?_⟩
  · intro t op b rest m c' head hs
    obtain ⟨-,hfresh,hops⟩ := hacc.claims t _ rest head
    simp only [step,Machine.stepTask,head] at hs
    cases hs
    simp only [machine_unwind]
    change c.shared.runtime.operations.erase op = _
    rw [hops,LinkedMap.erase_insert op hfresh]
  · intro hd c' hc'
    exact ((lifecycle_of_reachable (h.trans hc')).drained (drained_of_reaches hc' hd)).2
  · intro hd op hop
    refine settled_of_taken hlife ?_
    by_contra hnt
    have hk := (hacc.books.keys op).mpr ⟨hop,hnt⟩
    rw [(hlife.drained hd).2.1] at hk
    cases hk
  · intro t op k hj
    obtain ⟨rest,head⟩ : ∃ rest, c.tasks t = .submit (.await op k) :: rest := by
      cases hcode : c.tasks t with
      | nil => rw [hcode] at hj; cases hj
      | cons i rest =>
        rw [hcode] at hj
        rcases List.mem_cons.mp hj with rfl | hj
        · exact ⟨rest,rfl⟩
        · cases (locking_of_reachable h).tail t _ (by rw [hcode]; exact hj)
    obtain ⟨-,hin,hnf⟩ := hacc.claims t _ rest head
    by_cases hk : op ∈ c.shared.runtime.operations.keys
    · refine .inr (.inr ⟨hk,?_⟩)
      cases hc : c.shared.runtime.closed with
      | false => exact .inl ⟨rfl,hlife.going hc⟩
      | true =>
        rcases hlife.drain hc with hd | hd
        · rw [(hlife.drained hd).2.1] at hk
          cases hk
        · exact .inr hd
    · have htk : op ∈ c.shared.history.taken.map Prod.fst := by
        by_contra hnt
        exact hk ((hacc.books.keys op).mpr ⟨hin,hnt⟩)
      rcases settled_of_taken hlife htk with hd | hd | hd
      · exact .inl hd
      · exact .inr (.inl hd)
      · exact (hnf hd).elim

end Theorem

/-- An executable form of the condition. -/
def uncancelled (l : Label) (c : Config) : Bool :=
  match l with
  | .interrupt t _ => (c.tasks t).all fun j => !j.inShutdown
  | _ => true

lemma shutdownUncancelled_of_check (l : Label) (c : Config) (h : uncancelled l c = true) :
    ShutdownUncancelled l c := by
  rintro t u rfl j hj
  simpa using List.all_eq_true.mp h j hj

/-- Coroutine 1 waits for an operation that the native side never completes; coroutine 2 closes
the runtime. -/
def closedWhilePending : List Label :=
  [.call 1 (.createPeerConnection ⟨1,least_range⟩ 1000)] ++ steps 1 6 ++
    [.call 2 .runtimeClose] ++ steps 2 7 ++ [.native (completion 2 0 0)] ++ steps 0 4 ++ steps 2 5

theorem operationsResolved_closedWhilePending : ∃ c,
    Reachable 1000 "" ShutdownUncancelled c ∧ c.shared.history.drained = true ∧
      (c.shared.deferred 1).isSome = true ∧ OperationsResolved c := by
  have hrun : ((run (fun a d => if uncancelled a d then step a d else none) closedWhilePending
      (init 1000 "")).map fun c => (c.shared.history.drained,(c.shared.deferred 1).isSome)) =
      some (true,true) := by
    rfl
  obtain ⟨c,hc,ho⟩ := Option.map_eq_some_iff.mp hrun
  have hr : Reachable 1000 "" ShutdownUncancelled c :=
    reaches_of_checked shutdownUncancelled_of_check hc
  exact ⟨c,hr,(Prod.mk.inj ho).1,(Prod.mk.inj ho).2,operationsResolved_of_reachable hr⟩

/-- The native side refuses the submission of coroutine 1; then coroutine 2 closes the runtime. -/
def closedAfterRefusal : List Label :=
  [.call 1 (.createPeerConnection ⟨1,least_range⟩ 1000)] ++ steps 1 5 ++
    [.fail 1 "refused",.call 2 .runtimeClose] ++ steps 2 7 ++ [.native (completion 2 0 0)] ++ steps 0 4 ++ steps 2 9

/-- A deferred whose own submission failed is neither resolved nor drained. -/
theorem refused_operation_unresolved : ∃ c, Reachable 1000 "" ShutdownUncancelled c ∧
    c.shared.history.drained = true ∧ 1 ∈ c.shared.history.inserted ∧
      c.shared.deferred 1 = none ∧ (1,.drain) ∉ c.shared.history.taken := by
  have hrun : ((run (fun a d => if uncancelled a d then step a d else none) closedAfterRefusal
      (init 1000 "")).map fun c => decide (c.shared.history.drained = true ∧
        1 ∈ c.shared.history.inserted ∧ c.shared.deferred 1 = none ∧
          (1,.drain) ∉ c.shared.history.taken)) = some true := by
    rfl
  obtain ⟨c,hc,ho⟩ := Option.map_eq_some_iff.mp hrun
  exact ⟨c,reaches_of_checked shutdownUncancelled_of_check hc,of_decide_eq_true ho⟩

end Kestara.Kotlin
