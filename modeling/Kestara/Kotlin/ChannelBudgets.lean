import Kestara.Kotlin.QueueSteps
import Kestara.Kotlin.TeardownShape
import Kestara.Kotlin.Waiting

/-!
# What the teardown of a channel does once

The compare-and-set on `closed` pays for one Closed event and for one close of the event queue.
So the Closed event of a channel is put once at most, and never into a closed queue.
-/
namespace Kestara.Kotlin
open Interleaving

def closedCount (d : ChannelId) (s : Shared) : ℕ := (s.channel d).closed.toNat

/-- Instructions that only the teardown of a channel adds, and what they leave in the state. -/
structure ChannelBudget (w : ChannelId → Instr → ℕ) (spent : ChannelId → Shared → ℕ) : Prop where
  handler : ∀ d e i code, handler e i = some code → weight (w d) code ≤ w d i
  api : ∀ d s (a : Api), weight (w d) (a.code s) = 0
  allocated : ∀ d s i, i.Allocated s → s.nextChannel ≤ d → w d i = 0
  leaves : ∀ d i j, i.leaves j → w d j = 0 ∨ w d i ≠ 0 ∨ ∃ k, i = .channel d k
  pays : ∀ d s x t i, d < s.nextChannel → Pays (w d) (spent d) (closedCount d) s i (exec x t i s)
  fresh : ∀ d s x t i s' code, exec x t i s = .next s' code → i.Allocated s →
    (∀ y ∈ s.history.put, y.1.Allocated s) → s.nextChannel ≤ d → d < s'.nextChannel →
    spent d s' = 0
  receive : ∀ d q s s', receive q s = some s' → spent d s' = spent d s
  outside : ∀ d (s : Shared) native cancelled,
    spent d { s with native := native, cancelled := cancelled } = spent d s

section Runs
variable {w : ChannelId → Instr → ℕ} {spent : ChannelId → Shared → ℕ} (hw : ChannelBudget w spent)
include hw

/-- Nothing is pending for a channel that a step constructs. -/
lemma ChannelBudget.weight_fresh {x : Choice} {t : TaskId} {c c' : Config} (hc : Constructed c)
    (hs : TaskStep x t c c') {d : ChannelId} (hd : c.shared.nextChannel ≤ d) :
    ∀ u, weight (w d) (c'.tasks u) = 0 := by
  have hold : ∀ u, weight (w d) (c.tasks u) = 0 := fun u =>
    weight_eq_zero fun i hi => hw.allocated d c.shared i (hc.code u i hi) hd
  cases hs with
  | @next i rest s code head he =>
    intro u
    by_cases hu : u = t
    · subst hu
      have hrest : weight (w d) rest = 0 := by
        have := hold u
        rw [head,weight_cons] at this
        omega
      have hi := hc.code u i (by simp [head])
      have hl := leaves_exec c.shared x u i
      rw [he] at hl
      have hcode : weight (w d) code = 0 := by
        apply weight_eq_zero
        intro j hj
        obtain h | h | ⟨b,rfl⟩ := hw.leaves d i j (hl j hj)
        · exact h
        · exact absurd (hw.allocated d c.shared i hi hd) h
        · exact absurd hi (not_lt.mpr hd)
      simp [hrest,hcode]
    · simpa only [Function.update_of_ne hu] using hold u
  | @throw i rest s e head he =>
    intro u
    by_cases hu : u = t
    · subst hu
      have := weight_afterThrow (hw.handler d) e rest
      have := hold u
      rw [head,weight_cons] at this
      simp only [Function.update_self]
      omega
    · simpa only [Function.update_of_ne hu] using hold u

/-- All coroutines together stay within the budget of each channel. -/
theorem ChannelBudget.within_of_reachable {shutdownTimeout : ℤ} {fingerprint : String}
    {ok : Label → Config → Prop} {c : Config} (h : Reachable shutdownTimeout fingerprint ok c) :
    ∀ d < c.shared.nextChannel, Within (w d) c.tasks (spent d c.shared) (closedCount d c.shared) := by
  refine h.induct (I := fun c => ∀ d < c.shared.nextChannel,
    Within (w d) c.tasks (spent d c.shared) (closedCount d c.shared)) ?_ ?_
  · intro d hd
    exact absurd hd (Nat.not_lt_zero d)
  · intro l c c' hr hI _ hs d hd
    have hc := constructed_of_reachable hr
    cases step_cases hs with
    | @task _ x t _ hl active ht =>
      by_cases hlt : d < c.shared.nextChannel
      · exact ht.within (hw.handler d) (fun i _ _ => hw.pays d _ _ _ i hlt) (hI d hlt)
      · have hge := not_lt.mp hlt
        refine .of_idle (hw.weight_fresh hc ht hge) ?_
        cases ht with
        | @next i rest s code head he =>
          have hi := hc.code t i (by simp [head])
          rw [hw.fresh d c.shared x t i s code he hi (put_allocated hr) hge hd]
          exact Nat.zero_le _
        | @throw i rest s e head he =>
          have hsame := objects_of_throw he
          change d < s.nextChannel at hd
          rw [hsame.nextChannel] at hd
          exact absurd hd hlt
    | call ht idle admitted =>
      apply (hI d hd).update
      simp only [hw.api,idle,weight_nil]
      omega
    | @receive t q s ht idle hr =>
      have hspent := hw.receive d q c.shared s hr
      obtain ⟨y,ys,known,-,-,rfl⟩ := receive_cases hr
      change Within (w d) c.tasks (spent d _) (closedCount d c.shared)
      rw [hspent]
      exact hI d hd
    | cancel | native =>
      change Within (w d) c.tasks (spent d _) (closedCount d c.shared)
      rw [hw.outside d c.shared]
      exact hI d hd

end Runs

/-- The outcomes of `markClosed`. -/
lemma markClosed_cases {x : Choice} {t : TaskId} {d : ChannelId} {b : Bool} {s s' : Shared}
    {code : List Instr} (h : exec x t (.channel d (.markClosed b)) s = .next s' code) :
    s' = s ∧ code = [] ∨ (s.channel d).closed = false ∧ code = DataChannel.teardown d b ∧
      s' = s.setChannel d fun d => { d with closed := true } := by
  have hok := execOk_of_object rfl h
  simp only [execOk,DataChannel.exec] at hok
  split_ifs at hok with hc
  · cases hok
    exact .inl ⟨rfl,rfl⟩
  · cases hok
    exact .inr ⟨by simpa using hc,rfl,rfl⟩

/-- A step other than the compare-and-set on `closed` leaves `closed` as it is. -/
lemma closedCount_of_ne {x : Choice} {t : TaskId} {d : ChannelId} {i : Instr} {s s' : Shared}
    {code : List Instr} (h : exec x t i s = .next s' code) (hd : d < s.nextChannel)
    (hi : ∀ b, i ≠ .channel d (.markClosed b)) : closedCount d s' = closedCount d s := by
  obtain h | ⟨b,rfl,-⟩ := (closeEffect_exec s h).channel d hd
  · simp [closedCount,h]
  · exact absurd rfl (hi b)

section EventQueue
variable {d : ChannelId}

/-- The close of the event queue of a channel. -/
def Instr.closesEvents (d : ChannelId) : Instr → ℕ
  | .closeQueue (.event d') => if d' = d then 1 else 0
  | _ => 0

def eventsClosed (d : ChannelId) (s : Shared) : ℕ := (s.queue (.event d)).closed.toNat

lemma leaves_closesEvents {i j : Instr} (h : i.leaves j) :
    j.closesEvents d = 0 ∨ ∃ b, i = .channel d (.markClosed b) := by
  unfold Instr.closesEvents
  split
  · split_ifs with hd
    · subst hd
      exact .inr (origin_of_leaves h)
    · exact .inl rfl
  · exact .inl rfl

lemma weight_closesEvents_teardown (b : Bool) :
    weight (Instr.closesEvents d) (DataChannel.teardown d b) = 1 := by
  cases b <;> simp [DataChannel.teardown,Instr.closesEvents]

lemma pays_closesEvents {s : Shared} {x : Choice} {t : TaskId} {i : Instr} (hd : d < s.nextChannel) :
    Pays (Instr.closesEvents d) (eventsClosed d) (closedCount d) s i (exec x t i s) := by
  cases ho : exec x t i s with
  | blocked | fork => trivial
  | throw s' e =>
    have hs := objects_of_throw ho
    simp [Pays,eventsClosed,closedCount,hs.queue,hs.channel]
  | next s' code =>
    change weight (Instr.closesEvents d) code + eventsClosed d s' + closedCount d s ≤ _
    by_cases hi : ∃ b, i = .channel d (.markClosed b)
    · obtain ⟨b,rfl⟩ := hi
      obtain ⟨rfl,rfl⟩ | ⟨hc,rfl,rfl⟩ := markClosed_cases ho
      · simp
      · rw [weight_closesEvents_teardown]
        simp [eventsClosed,closedCount,Shared.setChannel,hc]
        omega
    · have hl := leaves_exec s x t i
      rw [ho] at hl
      have hcode : weight (Instr.closesEvents d) code = 0 :=
        weight_eq_zero fun j hj => (leaves_closesEvents (hl j hj)).resolve_right hi
      have hcl := closedCount_of_ne ho hd (fun b hb => hi ⟨b,hb⟩)
      obtain hq | ⟨rfl,hq⟩ := (closeEffect_exec s ho).queue (.event d) hd
      · simp [hcode,hcl,eventsClosed,hq]
      · simp [hcode,hcl,eventsClosed,hq,Instr.closesEvents]

theorem closesEvents_budget : ChannelBudget Instr.closesEvents eventsClosed where
  handler := by
    intro d e i code h
    unfold handler at h
    split at h <;> cases h <;> simp [Instr.closesEvents]
  api := by
    intro d s a
    cases a <;> simp [Api.code,Instr.closesEvents]
  allocated := by
    intro d s i hi hd
    unfold Instr.closesEvents
    split
    · exact if_neg (Nat.ne_of_lt (lt_of_lt_of_le hi hd))
    · rfl
  leaves := fun d i j h => (leaves_closesEvents h).imp_right fun ⟨b,hb⟩ => .inr ⟨_,hb⟩
  pays := fun d s x t i hd => pays_closesEvents hd
  fresh := by
    intro d s x t i s' code he hi hput h₁ h₂
    simp [eventsClosed,((closeEffect_exec s he).freshChannel d h₁ h₂).2]
  receive := by
    intro d q s s' h
    obtain ⟨y,ys,known,-,-,rfl⟩ := receive_cases h
    by_cases hq : .event d = q
    · subst hq
      simp [eventsClosed,Shared.setQueue]
    · simp [eventsClosed,Shared.setQueue,hq]
  outside := fun d s native cancelled => rfl

end EventQueue

section ClosedEvent
variable {d : ChannelId}

/-- The send of the Closed event of a channel. -/
def Instr.sendsClosed (d : ChannelId) : Instr → ℕ
  | .send (.event d') x | .sendSuspended (.event d') x => if d' = d ∧ x.isClosed = true then 1 else 0
  | _ => 0

/-- How often the Closed event of the channel has been put. -/
def closedPut (d : ChannelId) (s : Shared) : ℕ :=
  s.history.put.countP fun y => y.1 = .event d ∧ y.2.isClosed = true

lemma sendsClosed_of_sends {i : Instr} {q : QueueRef} {x : Item} (h : i.sends q x) :
    i.sendsClosed d = if q = .event d ∧ x.isClosed = true then 1 else 0 := by
  obtain rfl | rfl := h <;> cases q <;> simp [Instr.sendsClosed]

lemma leaves_sendsClosed {i j : Instr} (h : i.leaves j) :
    j.sendsClosed d = 0 ∨ i.sendsClosed d ≠ 0 ∨ ∃ k, i = .channel d k := by
  by_cases hj : j.sendsClosed d = 0
  · exact .inl hj
  · refine .inr ?_
    unfold Instr.sendsClosed at hj
    split at hj
    · obtain ⟨rfl,-⟩ : _ ∧ _ := by simpa using hj
      exact .inr (origin_of_leaves h)
    · cases origin_of_leaves h
      exact .inl hj
    · exact absurd rfl hj

lemma weight_sendsClosed_teardown (b : Bool) :
    weight (Instr.sendsClosed d) (DataChannel.teardown d b) ≤ 1 := by
  cases b <;> simp [DataChannel.teardown,Instr.sendsClosed,Item.isClosed]

lemma weight_sendsClosed_handle {c : ChannelId} {e : NativeEvent} {code : List Instr}
    (h : DataChannel.handleNativeEvent c e = .ok code) : weight (Instr.sendsClosed d) code = 0 := by
  unfold DataChannel.handleNativeEvent at h
  split at h <;> cases h <;> simp [Instr.sendsClosed,Item.isClosed]

/-- Of the steps of a channel only the teardown leaves a Closed event to be sent. -/
lemma weight_sendsClosed_channel {i : ChannelInstr} {s s' : Shared} {code : List Instr}
    (h : DataChannel.exec d i s = .next s' code) (hi : ∀ b, i ≠ .markClosed b) :
    weight (Instr.sendsClosed d) code = 0 := by
  revert h
  fun_cases DataChannel.exec d i s <;> intro h
  case case7 =>
    unfold execAwait at h
    split at h <;> cases h
    rfl
  case case9 e code he =>
    cases h
    simp [weight_sendsClosed_handle he,Instr.sendsClosed]
  case case16 b _ | case17 b _ => exact absurd rfl (hi b)
  all_goals cases h
  all_goals simp [Instr.sendsClosed,DataChannel.closeBody,Item.isClosed]

lemma closedPut_append {l : List (QueueRef × Item)} {q : QueueRef} {x : Item} {s s' : Shared}
    (h : s.history.put = l) (h' : s'.history.put = l ++ [(q,x)]) :
    closedPut d s' = closedPut d s + if q = .event d ∧ x.isClosed = true then 1 else 0 := by
  simp only [closedPut,h,h',List.countP_append,List.countP_singleton]
  simp

/-- A send puts its item, or leaves the same send suspended. -/
lemma send_cases {x : Choice} {t : TaskId} {q : QueueRef} {y : Item} {i : Instr} {s s' : Shared}
    {code : List Instr} (hi : i.sends q y) (h : exec x t i s = .next s' code) :
    code = [] ∧ s'.history.put = s.history.put ++ [(q,y)] ∨
      i = .send q y ∧ code = [.sendSuspended q y] ∧ s' = s := by
  obtain rfl | rfl := hi
  · have hok := execOk_of_object rfl h
    simp only [execOk,execSend] at hok
    split_ifs at hok <;> cases hok
    · exact .inl ⟨rfl,rfl⟩
    · exact .inr ⟨rfl,rfl,rfl⟩
  · have hok := execOk_of_object rfl h
    simp only [execOk,execSendSuspended] at hok
    split_ifs at hok
    cases hok
    exact .inl ⟨rfl,rfl⟩

lemma pays_sendsClosed {s : Shared} {x : Choice} {t : TaskId} {i : Instr} (hd : d < s.nextChannel) :
    Pays (Instr.sendsClosed d) (closedPut d) (closedCount d) s i (exec x t i s) := by
  cases ho : exec x t i s with
  | blocked | fork => trivial
  | throw s' e =>
    have hs := objects_of_throw ho
    simp [Pays,closedPut,closedCount,hs.put,hs.channel]
  | next s' code =>
    change weight (Instr.sendsClosed d) code + closedPut d s' + closedCount d s ≤ _
    by_cases hi : ∃ b, i = .channel d (.markClosed b)
    · obtain ⟨b,rfl⟩ := hi
      have hw := weight_sendsClosed_teardown (d := d) b
      obtain ⟨rfl,rfl⟩ | ⟨hc,rfl,rfl⟩ := markClosed_cases ho
      · simp
      · have hput : closedPut d (s.setChannel d fun d => { d with closed := true }) = closedPut d s :=
          rfl
        rw [hput]
        simp only [closedCount,Shared.setChannel,hc,Function.update_self,Bool.toNat_false,
          Bool.toNat_true]
        omega
    · have hcl := closedCount_of_ne ho hd (fun b hb => hi ⟨b,hb⟩)
      by_cases hsend : ∃ q y, i.sends q y
      · obtain ⟨q,y,hs⟩ := hsend
        obtain ⟨rfl,hput⟩ | ⟨rfl,rfl,rfl⟩ := send_cases hs ho
        · rw [hcl,closedPut_append rfl hput,sendsClosed_of_sends hs]
          simp
          omega
        · rw [sendsClosed_of_sends (.inl rfl),weight_cons,sendsClosed_of_sends (.inr rfl)]
          simp
      · have hput : closedPut d s' = closedPut d s := by
          obtain ⟨hput,-⟩ | ⟨q,y,hs,-⟩ := (queueEffect_exec s ho).contents
          · simp [closedPut,hput]
          · exact absurd ⟨q,y,hs⟩ hsend
        have hcode : weight (Instr.sendsClosed d) code = 0 := by
          by_cases hk : ∃ k, i = .channel d k
          · obtain ⟨k,rfl⟩ := hk
            exact weight_sendsClosed_channel (execOk_of_object rfl ho) fun b hb => hi ⟨b,hb ▸ rfl⟩
          · have hl := leaves_exec s x t i
            rw [ho] at hl
            apply weight_eq_zero
            intro j hj
            obtain h | h | h := leaves_sendsClosed (d := d) (hl j hj)
            · exact h
            · refine absurd ?_ hsend
              unfold Instr.sendsClosed at h
              split at h
              · exact ⟨_,_,.inl rfl⟩
              · exact ⟨_,_,.inr rfl⟩
              · exact absurd rfl h
            · exact absurd h hk
        omega

theorem sendsClosed_budget : ChannelBudget Instr.sendsClosed closedPut where
  handler := by
    intro d e i code h
    unfold handler at h
    split at h <;> cases h <;> simp [Instr.sendsClosed]
  api := by
    intro d s a
    cases a <;> simp [Api.code,Instr.sendsClosed]
  allocated := by
    intro d s i hi hd
    unfold Instr.sendsClosed
    split
    · exact if_neg fun h => Nat.ne_of_lt (lt_of_lt_of_le hi.1 hd) h.1
    · exact if_neg fun h => Nat.ne_of_lt (lt_of_lt_of_le hi.1 hd) h.1
    · rfl
  leaves := fun d i j h => leaves_sendsClosed h
  pays := fun d s x t i hd => pays_sendsClosed hd
  fresh := by
    intro d s x t i s' code he hi hput h₁ h₂
    have hnot : ∀ y : QueueRef × Item, y.1.Allocated s → ¬(y.1 = .event d ∧ y.2.isClosed = true) := by
      rintro ⟨q,y⟩ hq ⟨rfl,-⟩
      exact absurd hq (not_lt.mpr h₁)
    simp only [closedPut,List.countP_eq_zero,decide_eq_true_eq]
    intro y hy
    obtain ⟨hsame,-⟩ | ⟨q,z,hs,-,-,hsame,-⟩ := (queueEffect_exec s he).contents
    · exact hnot y (hput y (hsame ▸ hy))
    · rw [hsame] at hy
      obtain hy | hy := List.mem_append.mp hy
      · exact hnot y (hput y hy)
      · cases List.mem_singleton.mp hy
        apply hnot
        obtain rfl | rfl := hs <;> exact hi.1
  receive := by
    intro d q s s' h
    obtain ⟨y,ys,known,-,-,rfl⟩ := receive_cases h
    rfl
  outside := fun d s native cancelled => rfl

end ClosedEvent

section Pending
variable {shutdownTimeout : ℤ} {fingerprint : String} {ok : Label → Config → Prop} {c : Config}

/-- While the Closed event of a channel is to be sent, its event queue is open. -/
theorem events_open_of_sends (h : Reachable shutdownTimeout fingerprint ok c) {t : TaskId}
    {d : ChannelId} {i : Instr} {x : Item} (hi : i ∈ c.tasks t) (hs : i.sends (.event d) x)
    (hx : x.isClosed = true) : (c.shared.queue (.event d)).closed = false := by
  have hc := constructed_of_reachable h
  have hd : d < c.shared.nextChannel := by
    have := hc.code t i hi
    obtain rfl | rfl := hs <;> exact this.1
  have hformed := formed_of_reachable h t
  obtain ⟨before,after,he⟩ := List.append_of_mem hi
  have hclose : Instr.closeQueue (.event d) ∈ c.tasks t := by
    rw [he] at hformed ⊢
    clear he hi
    induction before with
    | nil =>
      have := hformed.1
      obtain rfl | rfl := hs <;> exact List.mem_cons_of_mem _ (this hx)
    | cons k before ih => exact List.mem_cons_of_mem _ (ih hformed.2)
  have := (closesEvents_budget.within_of_reachable h d hd).mem hclose
  simp only [Instr.closesEvents,if_true,eventsClosed,closedCount] at this
  have hle := Bool.toNat_le (c.shared.channel d).closed
  cases hq : (c.shared.queue (.event d)).closed with
  | false => rfl
  | true =>
    simp only [hq,Bool.toNat_true] at this
    omega

end Pending

end Kestara.Kotlin
