import Kestara.Kotlin.Locking

/-!
# Operations are accounted for

An operation number belongs to the coroutine that drew it, is inserted into `operations` at
most once, and is taken out at most once.
-/
namespace Kestara.Kotlin
open Interleaving

structure Books (s : Shared) : Prop where
  submitted : ∀ op, s.history.submitter op ≠ none → op < s.runtime.nextOperation
  owned : ∀ op ∈ s.history.inserted, s.history.submitter op ≠ none
  diagonal : ∀ x ∈ s.runtime.operations.entries, x.2 = x.1
  keys : ∀ op, op ∈ s.runtime.operations.keys ↔
    op ∈ s.history.inserted ∧ op ∉ s.history.taken.map Prod.fst
  taken : ∀ x ∈ s.history.taken, x.1 ∈ s.history.inserted
  once : (s.history.taken.map Prod.fst).Nodup
  completions : ∀ op e, (op,.completion e) ∈ s.history.taken →
    e.kind? = some .operationComplete ∧ e.operationHandle = op
  deferred : ∀ op e, s.deferred op = some (.completed e) → (op,.completion e) ∈ s.history.taken

/-- What a coroutine knows of the operation of its next instruction. -/
def Claim (s : Shared) (t : TaskId) : Instr → Prop
  | .submit (.lock op _) | .submit (.checkClosed op _) | .submit (.checkClosing op _)
  | .submit (.insert op _) => s.history.submitter op = some t ∧ op ∉ s.history.inserted
  | .submit (.call op _) =>
    s.history.submitter op = some t ∧ op ∉ s.history.before.keys ∧
      s.runtime.operations = s.history.before.insert op op
  | .submit (.await op _) =>
    s.history.submitter op = some t ∧ op ∈ s.history.inserted ∧
      (op,.submissionFailure) ∉ s.history.taken
  | .loop (.takeOperation e) => e.kind? = some .operationComplete
  | .loop (.resolve op e) => (op,.completion e) ∈ s.history.taken
  | _ => True

lemma claim_of_not_headOnly {s : Shared} {t : TaskId} {i : Instr} (h : i.headOnly = false) :
    Claim s t i := by
  unfold Claim
  split <;> first | cases h | trivial

lemma Books.same {s s' : Shared} (h : Books s) (same : SameOps s s') : Books s' := by
  obtain ⟨hm,ho,hn,-,-,-,hd,hsub,hins,-,htk,-⟩ := same
  constructor
  · rw [hsub,hn]; exact h.submitted
  · rw [hins,hsub]; exact h.owned
  · rw [ho]; exact h.diagonal
  · rw [ho,hins,htk]; exact h.keys
  · rw [htk,hins]; exact h.taken
  · rw [htk]; exact h.once
  · rw [htk]; exact h.completions
  · rw [hd,htk]; exact h.deferred

section Steps
variable {t : TaskId} {s s' : Shared} (h : Books s)
include h

lemma Books.draw :
    Books ((s.setRuntime fun r => { r with nextOperation := r.nextOperation+1 }).record fun h =>
      { h with submitter := Function.update h.submitter s.runtime.nextOperation (some t) }) where
  submitted := by
    intro op hop
    simp only [Shared.setRuntime,Shared.record,Function.update_apply] at hop ⊢
    split_ifs at hop with he
    · omega
    · have := h.submitted op hop
      omega
  owned := by
    intro op hop
    simp only [Shared.setRuntime,Shared.record,Function.update_apply] at hop ⊢
    split_ifs
    · simp
    · exact h.owned op hop
  diagonal := h.diagonal
  keys := h.keys
  taken := h.taken
  once := h.once
  completions := h.completions
  deferred := h.deferred

lemma Books.insert {op : ℤ} (hs : s.history.submitter op = some t) (hop : op ∉ s.history.inserted) :
    Books ((s.setRuntime fun r => { r with operations := r.operations.insert op op }).record
      fun h => { h with inserted := h.inserted ++ [op], before := s.runtime.operations }) := by
  have hk : op ∉ s.runtime.operations.keys := fun hk => hop ((h.keys op).mp hk).1
  have htk : op ∉ s.history.taken.map Prod.fst := by
    intro hmem
    obtain ⟨x,hx,rfl⟩ := List.mem_map.mp hmem
    exact hop (h.taken x hx)
  constructor
  · exact h.submitted
  · intro op' hop'
    simp only [Shared.setRuntime,Shared.record,List.mem_append,List.mem_singleton] at hop' ⊢
    rcases hop' with hop' | rfl
    · exact h.owned op' hop'
    · simp [hs]
  · intro x hx
    simp only [Shared.setRuntime,Shared.record,LinkedMap.entries_insert_of_not_mem op hk,
      List.mem_append,List.mem_singleton] at hx
    rcases hx with hx | rfl
    · exact h.diagonal x hx
    · rfl
  · intro op'
    simp only [Shared.setRuntime,Shared.record,LinkedMap.mem_keys_insert,List.mem_append,
      List.mem_singleton,h.keys]
    constructor
    · rintro (⟨hi,hn⟩ | rfl)
      · exact ⟨.inl hi,hn⟩
      · exact ⟨.inr rfl,htk⟩
    · rintro ⟨hi | rfl,hn⟩
      · exact .inl ⟨hi,hn⟩
      · exact .inr rfl
  · exact fun x hx => List.mem_append_left _ (h.taken x hx)
  · exact h.once
  · exact h.completions
  · exact h.deferred

/-- Take out one operation that is there. -/
lemma Books.takeOne {op : ℤ} {who : Taker} (hop : op ∈ s.runtime.operations.keys)
    (hwho : ∀ e, who = .completion e → e.kind? = some .operationComplete ∧ e.operationHandle = op) :
    Books ((s.setRuntime fun r => { r with operations := r.operations.erase op }).record
      fun h => { h with taken := h.taken ++ [(op,who)] }) := by
  obtain ⟨hin,hnt⟩ := (h.keys op).mp hop
  constructor
  · exact h.submitted
  · exact h.owned
  · intro x hx
    exact h.diagonal x (List.mem_filter.mp hx).1
  · intro op'
    simp only [Shared.setRuntime,Shared.record,LinkedMap.mem_keys_erase,h.keys,List.map_append,
      List.map_cons,List.map_nil,List.mem_append,List.mem_singleton]
    tauto
  · intro x hx
    simp only [Shared.setRuntime,Shared.record,List.mem_append,List.mem_singleton] at hx
    rcases hx with hx | rfl
    · exact h.taken x hx
    · exact hin
  · simp only [Shared.setRuntime,Shared.record,List.map_append,List.map_cons,List.map_nil]
    exact List.nodup_append.mpr ⟨h.once,by simp,by
      rintro a ha b hb rfl
      exact hnt (List.mem_singleton.mp hb ▸ ha)⟩
  · intro op' e he
    simp only [Shared.setRuntime,Shared.record,List.mem_append,List.mem_singleton] at he
    rcases he with he | he
    · exact h.completions op' e he
    · cases he
      exact hwho e rfl
  · intro op' e he
    exact List.mem_append_left _ (h.deferred op' e he)

lemma Books.values_eq_keys : s.runtime.operations.values = s.runtime.operations.keys :=
  List.map_congr_left h.diagonal

lemma Books.drain :
    Books ((s.setRuntime fun r =>
      { r with peers := ∅, queuedPeerEvents := ∅, operations := ∅ }).record fun h =>
      { h with taken := h.taken ++ s.runtime.operations.values.map (fun op => (op,.drain))
               drained := true }) := by
  have hmap : (s.history.taken ++ s.runtime.operations.values.map fun op => (op,Taker.drain)).map
      Prod.fst = s.history.taken.map Prod.fst ++ s.runtime.operations.keys := by
    rw [h.values_eq_keys]
    simp [Function.comp_def]
  constructor
  · exact h.submitted
  · exact h.owned
  · intro x hx
    cases hx
  · intro op
    simp only [Shared.setRuntime,Shared.record,hmap,LinkedMap.keys_empty,List.mem_append,h.keys]
    simp only [List.not_mem_nil,false_iff]
    tauto
  · intro x hx
    simp only [Shared.setRuntime,Shared.record,List.mem_append,List.mem_map] at hx
    rcases hx with hx | ⟨op,hop,rfl⟩
    · exact h.taken x hx
    · rw [h.values_eq_keys] at hop
      exact ((h.keys op).mp hop).1
  · simp only [Shared.setRuntime,Shared.record,hmap]
    refine List.nodup_append.mpr ⟨h.once,s.runtime.operations.nodup,?_⟩
    rintro a ha b hb rfl
    exact ((h.keys a).mp hb).2 ha
  · intro op e he
    simp only [Shared.setRuntime,Shared.record,List.mem_append,List.mem_map,Prod.mk.injEq] at he
    rcases he with he | ⟨_,-,-,hne⟩
    · exact h.completions op e he
    · cases hne
  · intro op e he
    exact List.mem_append_left _ (h.deferred op e he)

/-- Complete the deferred of an operation with an event only after it was taken out for it. -/
lemma Books.complete {op : ℤ} {r : OperationResult}
    (hr : ∀ e, r = .completed e → (op,.completion e) ∈ s.history.taken) :
    Books (s.completeOperation op r) := by
  refine { h with deferred := ?_ }
  intro op' e he
  simp only [Shared.completeOperation,Function.update_apply] at he
  split_ifs at he with heq
  · subst heq
    cases hd : s.deferred op' with
    | none =>
      simp only [hd,Option.getD_none,Option.some.injEq] at he
      exact hr e he
    | some v =>
      simp only [hd,Option.getD_some,Option.some.injEq] at he
      exact h.deferred op' e (by rw [hd,he])
  · exact h.deferred op' e he

lemma Books.unlock : Books (WebRtcRuntime.unlock s) := { h with }

end Steps

lemma Books.next {t : TaskId} {s s' : Shared} {i : Instr} {code : List Instr} (h : Books s)
    (hc : Claim s t i) (hop : OpStep t s i (.next s' code)) : Books s' := by
  cases hop with
  | other _ _ same _ => exact h.same same
  | poll e hk same => exact h.same same
  | close _ _ same => exact h.same same
  | begin b => exact h.draw
  | insert op b => exact h.insert hc.1 hc.2
  | take e op free found =>
    have hmem := LinkedMap.mem_entries_of_lookup found
    have hop := h.diagonal _ hmem
    simp only at hop
    subst hop
    refine h.takeOne (List.mem_map_of_mem hmem) ?_
    rintro e' he
    cases he
    exact ⟨hc,rfl⟩
  | resolve op e =>
    refine h.complete ?_
    intro e' he
    unfold WebRtcRuntime.completionResult at he
    split_ifs at he
    cases he
    exact hc
  | drain f free => exact h.drain
  | failOperation op f => exact h.complete (by simp)
  | call op b => exact { h.unlock with }
  | head | lock | checkClosed | checkClosing | registerLock | registerCheck | registerPeer
  | failed | completeShutdown | cancelScope => exact { h with }

lemma Books.throw {t : TaskId} {s s' : Shared} {i : Instr} {e : Exn} (h : Books s)
    (hc : Claim s t i) (hop : OpStep t s i (.throw s' e)) : Books s' := by
  cases hop with
  | otherThrow | drainCancelled => exact h
  | refused | refusedClosing | registerRefused => exact h.unlock
  | submissionFails op b m =>
    have hkey : op ∈ (WebRtcRuntime.unlock s).runtime.operations.keys := by
      have := hc.2.2
      simp [WebRtcRuntime.unlock,Shared.setRuntime,this]
    have hwho : ∀ e, Taker.submissionFailure = .completion e →
        e.kind? = some .operationComplete ∧ e.operationHandle = op := by simp
    exact { h.unlock.takeOne hkey hwho with }

/-- What a step of coroutine `u` promises to all others about their operations. -/
structure Guarantee (u : TaskId) (s s' : Shared) : Prop where
  submitter : ∀ op t, s.history.submitter op = some t → s'.history.submitter op = some t
  inserted : ∀ op ∈ s.history.inserted, op ∈ s'.history.inserted
  taken : ∀ x ∈ s.history.taken, x ∈ s'.history.taken
  fresh : ∀ op t, t ≠ u → s.history.submitter op = some t → op ∉ s.history.inserted →
    op ∉ s'.history.inserted
  failure : ∀ op t, t ≠ u → s.history.submitter op = some t →
    (op,.submissionFailure) ∉ s.history.taken → (op,.submissionFailure) ∉ s'.history.taken
  locked : ∀ t ≠ u, s.runtime.lifecycleMutex = some t →
    s'.runtime.operations = s.runtime.operations ∧ s'.history.before = s.history.before

lemma Guarantee.same {u : TaskId} {s s' : Shared}
    (hsub : s'.history.submitter = s.history.submitter)
    (hins : s'.history.inserted = s.history.inserted) (htk : s'.history.taken = s.history.taken)
    (hops : s'.runtime.operations = s.runtime.operations)
    (hbef : s'.history.before = s.history.before) : Guarantee u s s' where
  submitter := by rw [hsub]; exact fun _ _ h => h
  inserted := by rw [hins]; exact fun _ h => h
  taken := by rw [htk]; exact fun _ h => h
  fresh := by rw [hins]; exact fun _ _ _ _ h => h
  failure := by rw [htk]; exact fun _ _ _ _ h => h
  locked := fun _ _ _ => ⟨hops,hbef⟩

lemma Guarantee.of_same {u : TaskId} {s s' : Shared} (h : SameOps s s') : Guarantee u s s' :=
  .same h.submitter h.inserted h.taken h.operations h.before

section Guarantee
variable {u : TaskId} {s s' : Shared} {i : Instr} (hb : Books s) (hc : Claim s u i)
  (hl : i.locked = true → s.runtime.lifecycleMutex = some u)
include hb hc hl

lemma guarantee_next {code : List Instr} (h : OpStep u s i (.next s' code)) : Guarantee u s s' := by
  cases h with
  | other _ _ same _ => exact .of_same same
  | poll e hk same => exact .of_same same
  | close _ _ same => exact .of_same same
  | begin b =>
    have hfresh : s.history.submitter s.runtime.nextOperation = none := by
      by_contra hne
      exact lt_irrefl _ (hb.submitted _ hne)
    refine ⟨?_,fun _ h => h,fun _ h => h,fun _ _ _ _ h => h,fun _ _ _ _ h => h,
      fun _ _ _ => ⟨rfl,rfl⟩⟩
    intro op t ht
    have hne : op ≠ s.runtime.nextOperation := by
      rintro rfl
      rw [hfresh] at ht
      cases ht
    simpa [Shared.record,Shared.setRuntime,Function.update_of_ne hne] using ht
  | insert op b =>
    refine ⟨fun _ _ h => h,fun _ h => List.mem_append_left _ h,fun _ h => h,?_,fun _ _ _ _ h => h,?_⟩
    · intro op' t ht hs hn hmem
      rcases List.mem_append.mp hmem with hmem | hmem
      · exact hn hmem
      · rw [List.mem_singleton.mp hmem,hc.1] at hs
        exact ht (Option.some.inj hs).symm
    · intro t ht hm
      rw [hl rfl] at hm
      exact (ht (Option.some.inj hm).symm).elim
  | take e op free found =>
    refine ⟨fun _ _ h => h,fun _ h => h,fun _ h => List.mem_append_left _ h,fun _ _ _ _ h => h,?_,?_⟩
    · intro op' t ht hs hn hmem
      rcases List.mem_append.mp hmem with hmem | hmem
      · exact hn hmem
      · cases List.mem_singleton.mp hmem
    · intro t ht hm
      rw [free] at hm
      cases hm
  | drain f free =>
    refine ⟨fun _ _ h => h,fun _ h => h,fun _ h => List.mem_append_left _ h,fun _ _ _ _ h => h,?_,?_⟩
    · intro op' t ht hs hn hmem
      rcases List.mem_append.mp hmem with hmem | hmem
      · exact hn hmem
      · obtain ⟨_,-,he⟩ := List.mem_map.mp hmem
        cases he
    · intro t ht hm
      rw [free] at hm
      cases hm
  | head | lock | checkClosed | checkClosing | call | registerLock | registerCheck | registerPeer
  | resolve | failed | completeShutdown | failOperation | cancelScope =>
    exact .same rfl rfl rfl rfl rfl

omit hb in
lemma guarantee_throw {e : Exn} (h : OpStep u s i (.throw s' e)) : Guarantee u s s' := by
  cases h with
  | otherThrow | drainCancelled | refused | refusedClosing | registerRefused =>
    exact .same rfl rfl rfl rfl rfl
  | submissionFails op b m =>
    refine ⟨fun _ _ h => h,fun _ h => h,fun _ h => List.mem_append_left _ h,fun _ _ _ _ h => h,?_,?_⟩
    · intro op' t ht hs hn hmem
      rcases List.mem_append.mp hmem with hmem | hmem
      · exact hn hmem
      · cases List.mem_singleton.mp hmem
        rw [hc.1] at hs
        exact ht (Option.some.inj hs).symm
    · intro t ht hm
      rw [hl rfl] at hm
      exact (ht (Option.some.inj hm).symm).elim

end Guarantee

/-- The claims of a coroutine survive the steps of the others. -/
lemma claim_of_guarantee {u t : TaskId} {s s' : Shared} {i : Instr} (h : Guarantee u s s')
    (ht : t ≠ u) (hl : i.locked = true → s.runtime.lifecycleMutex = some t) (hc : Claim s t i) :
    Claim s' t i := by
  unfold Claim at hc ⊢
  split
  case h_1 | h_2 | h_3 | h_4 => exact ⟨h.submitter _ _ hc.1,h.fresh _ _ ht hc.1 hc.2⟩
  case h_5 =>
    obtain ⟨ho,hbe⟩ := h.locked t ht (hl rfl)
    rw [ho,hbe]
    exact ⟨h.submitter _ _ hc.1,hc.2⟩
  case h_6 =>
    exact ⟨h.submitter _ _ hc.1,h.inserted _ hc.2.1,h.failure _ _ ht hc.1 hc.2.2⟩
  case h_7 => exact hc
  case h_8 => exact h.taken _ hc
  case h_9 => trivial

/-- A coroutine passes its claim on to the instruction it leaves. -/
lemma OpStep.claims {t : TaskId} {s s' : Shared} {i : Instr} {code : List Instr} (hb : Books s)
    (hc : Claim s t i) (h : OpStep t s i (.next s' code)) : ∀ j ∈ code, Claim s' t j := by
  cases h with
  | other _ _ _ hcode => exact fun j hj => claim_of_not_headOnly (headOnly_of_not_isOp (hcode j hj))
  | registerPeer p code hcode =>
    exact fun j hj => claim_of_not_headOnly (headOnly_of_not_isOp (hcode j hj))
  | close code hcode same =>
    intro j hj
    cases ho : j.isOp with
    | false => exact claim_of_not_headOnly (headOnly_of_not_isOp ho)
    | true =>
      obtain ⟨f,rfl⟩ := hcode j hj ho
      trivial
  | drain f free => exact fun j hj => claim_of_not_headOnly (locked_afterDrain _ _ _ j hj)
  | begin b =>
    simp only [List.mem_singleton,forall_eq,Claim]
    refine ⟨by simp [Shared.record],fun hmem => ?_⟩
    exact lt_irrefl _ (hb.submitted _ (hb.owned _ hmem))
  | lock op b free => exact List.forall_mem_singleton.mpr hc
  | checkClosed op b _ => exact List.forall_mem_singleton.mpr hc
  | checkClosing op b => exact List.forall_mem_singleton.mpr hc
  | insert op b =>
    exact List.forall_mem_singleton.mpr
      ⟨hc.1,fun hk => hc.2 ((hb.keys op).mp hk).1,rfl⟩
  | call op b =>
    have hop : op ∈ s.runtime.operations.keys := by rw [hc.2.2]; simp
    obtain ⟨hin,hnt⟩ := (hb.keys op).mp hop
    exact List.forall_mem_singleton.mpr
      ⟨hc.1,hin,fun hmem => hnt (List.mem_map_of_mem hmem)⟩
  | poll e hk same => exact List.forall_mem_singleton.mpr hk
  | take e op free found => exact List.forall_mem_singleton.mpr (List.mem_append_right _ (by simp))
  | head | registerLock | registerCheck | failed | completeShutdown => simp [Claim,WebRtcRuntime.teardown]
  | resolve | failOperation | cancelScope => simp

structure Accounting (c : Config) : Prop where
  books : Books c.shared
  claims : ∀ t i rest, c.tasks t = i :: rest → Claim c.shared t i

/-- The claims after a step: of the coroutine itself and of all others. -/
lemma Accounting.of_step {c : Config} (hlock : Locking c) (h : Accounting c) {t : TaskId}
    {i : Instr} {rest rest' code : List Instr} {s : Shared} (head : c.tasks t = i :: rest)
    (hb : Books s) (hg : Guarantee t c.shared s) (hcode : ∀ j ∈ code, Claim s t j)
    (hrest : ∀ j ∈ rest', j.headOnly = false) :
    Accounting ⟨s,Function.update c.tasks t (code ++ rest')⟩ where
  books := hb
  claims := by
    intro t' k l hk
    by_cases ht : t' = t
    · subst ht
      simp only [Function.update_self] at hk
      rcases List.mem_append.mp (hk ▸ List.mem_cons_self : k ∈ code ++ rest') with hk | hk
      · exact hcode k hk
      · exact claim_of_not_headOnly (hrest k hk)
    · simp only [Function.update_of_ne ht] at hk
      exact claim_of_guarantee hg ht (hlock.holder t' k l hk) (h.claims t' k l hk)

lemma Accounting.task {x : Choice} {t : TaskId} {c c' : Config} (hlock : Locking c)
    (h : Accounting c) (hs : TaskStep x t c c') : Accounting c' := by
  obtain ⟨i,rest,head,⟨s,code,-,hop,rfl⟩ | ⟨s,e,-,hop,rfl⟩⟩ := hs.opStep
  all_goals
    have hrest : ∀ j ∈ rest, j.headOnly = false := by simpa [head] using hlock.tail t
    have hc := h.claims t i rest head
    have hl := hlock.holder t i rest head
  · exact h.of_step hlock head (h.books.next hc hop) (guarantee_next h.books hc hl hop)
      (hop.claims h.books hc) hrest
  · have := h.of_step hlock head (h.books.throw hc hop) (guarantee_throw hc hl hop)
      (by simp : ∀ j ∈ ([] : List Instr),Claim s t j) (headOnly_afterThrow (e := e) hrest)
    simpa using this

theorem accounting_of_reachable {shutdownTimeout : ℤ} {fingerprint : String}
    {ok : Label → Config → Prop} {c : Config} (h : Reachable shutdownTimeout fingerprint ok c) :
    Accounting c := by
  refine h.induct ?_ ?_
  · refine ⟨?_,?_⟩
    · constructor <;> simp [init]
      rintro a b ⟨⟩
    · intro t i rest hi
      simp only [init] at hi
      split_ifs at hi
      cases hi
      trivial
  · intro l d d' hr hd _ hs
    cases step_cases hs with
    | task hl active ht => exact hd.task (locking_of_reachable hr) ht
    | @call t a ht idle admitted =>
      refine ⟨hd.books,fun t' k rest hk => ?_⟩
      by_cases he : t' = t
      · subst he
        simp only [Function.update_self] at hk
        exact claim_of_not_headOnly (headOnly_of_not_isOp (isOp_api d.shared a k (by simp [hk])))
      · simp only [Function.update_of_ne he] at hk
        exact hd.claims t' k rest hk
    | receive ht idle hrec =>
      obtain ⟨y,ys,known,-,-,rfl⟩ := receive_cases hrec
      exact ⟨{ hd.books with },hd.claims⟩
    | cancel | native => exact ⟨{ hd.books with },hd.claims⟩

end Kestara.Kotlin
