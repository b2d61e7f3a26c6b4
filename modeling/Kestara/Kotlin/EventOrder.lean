import Kestara.Kotlin.EventStream

/-!
# The end of the events of a DataChannel

`markClosed` sends the Closed event and closes the queue in two steps. As long as it is not
cancelled between them, the Closed event is emitted by the coroutine that has won the
compare-and-set on `closed`, and the queue is closed after it.
-/
namespace Kestara.Kotlin
open Interleaving

/-- A coroutine has written OPEN and is about to send the Open event. -/
def OpenDue (c : Config) (d : ChannelId) : Prop := ∃ t, OpenNext d (c.tasks t)

/-- The coroutine is in `markClosed` of the channel, before (`false`) or after (`true`) the Closed
event. -/
inductive Marking (d : ChannelId) : Bool → List Instr → Prop
  | flag {code} (h : Marking d false code) : Marking d false (.channel d .setClosing :: code)
  | state {code} (h : Marking d false code) :
      Marking d false (.channel d (.setState .closed) :: code)
  | event {i code} (hi : i.sends (.event d) (.event .closed)) (h : Marking d true code) :
      Marking d false (i :: code)
  | messages {code} (h : Marking d true code) : Marking d true (.closeQueue (.message d) :: code)
  | events {code} : Marking d true (.closeQueue (.event d) :: code)

/-- What keeps the events of the channels in order. The native side announces no channel that is
already open and reports OPEN once. OPEN is written before the channel has taken up CLOSING or has
been closed, and its event is not overtaken by Closing or Closed. No other event is sent between
the Closed event and the close of the queue, or by a sender that was suspended before the close;
the senders of Open and Closed are not cancelled. -/
structure InOrder (c : Config) (x : Choice) (i : Instr) : Prop where
  announced : ∀ p e info, i = .peer p (.registerRemote e) → remoteChannelInfo e ≠ some (info,true)
  running : ∀ d, i = .channel d (.markClosed true) → (c.shared.channel d).closed = true
  reported : ∀ d e, i = .channel d (.handle e) → e.kind? = some .dataChannelOpen →
    openReported d c.shared = 0
  opens : ∀ d, i = .channel d (.setState .open) →
    (c.shared.channel d).closed = false ∧ ¬ ClosingStarted c.shared d
  overtakes : ∀ d y, i.sends (.event d) (.event y) → y = .closing ∨ y = .closed → ¬ OpenDue c d
  last : ∀ d y, i.sends (.event d) (.event y) → y ≠ .closed →
    (∀ t, ¬ Marking d true (c.tasks t)) ∧
      (i = .sendSuspended (.event d) (.event y) → (c.shared.queue (.event d)).closed = false)
  cancelled : x = .cancel → ∀ d y, i = .sendSuspended (.event d) (.event y) →
    y ≠ .open ∧ y ≠ .closed

/-- The steps of a run in which the events of the channels are kept in order, outside a runtime
shutdown. -/
def OrderlyEvents (l : Label) (c : Config) : Prop :=
  ∀ t x i rest, l.scheduled = some (t,x) → c.tasks t = i :: rest → InOrder c x i

section Marking
variable {d : ChannelId} {b : Bool} {code : List Instr}

lemma Marking.sendsClosed (h : Marking d false code) : 1 ≤ weight (Instr.sendsClosed d) code := by
  generalize hb : false = b at h
  induction h with
  | flag _ ih | state _ ih =>
    have := ih hb
    rw [weight_cons]
    omega
  | event hi _ _ =>
    rw [weight_cons,sendsClosed_of_sends hi]
    simp [Item.isClosed]
  | messages | events => cases hb

lemma Marking.closesEvents (h : Marking d b code) : 1 ≤ weight (Instr.closesEvents d) code := by
  induction h with
  | flag _ ih | state _ ih | event _ _ ih | messages _ ih =>
    rw [weight_cons]
    omega
  | events =>
    rw [weight_cons]
    simp [Instr.closesEvents]

lemma marking_teardown (d : ChannelId) (rest : List Instr) :
    Marking d false (DataChannel.teardown d false ++ rest) :=
  .flag (.state (.event (.inl rfl) (.messages .events)))

/-- What the next step of `markClosed` does to the events. -/
lemma Marking.advances {x : Choice} {t : TaskId} {i : Instr} {rest : List Instr} {s s' : Shared}
    (h : Marking d b (i :: rest)) (he : exec x t i s = .next s' code) :
    Marking d b (code ++ rest) ∧ emitted d s' = emitted d s ∧ i ≠ .closeQueue (.event d) ∨
      b = false ∧ Marking d true (code ++ rest) ∧ i ≠ .closeQueue (.event d) ∧
        emitted d s' = emitted d s ++ [.closed] ∨
      b = true ∧ i = .closeQueue (.event d) := by
  have hkept : ∀ j : Instr, (∀ y, ¬ j.sends (.event d) (.event y)) → j = i →
      emitted d s' = emitted d s := by
    rintro j hj rfl
    obtain hs | ⟨y,hs,-⟩ := emitted_exec he d
    · exact hs
    · exact absurd hs (hj y)
  cases h with
  | flag h | state h =>
    have hem := hkept _ (by simp [Instr.sends]) rfl
    have hok := execOk_of_object rfl he
    simp only [execOk,DataChannel.exec] at hok
    cases hok
    exact .inl ⟨h,hem,by simp⟩
  | messages h =>
    have hem := hkept _ (by simp [Instr.sends]) rfl
    have hok := execOk_of_object rfl he
    cases hok
    exact .inl ⟨h,hem,by simp⟩
  | events => exact .inr (.inr ⟨rfl,rfl⟩)
  | event hi h =>
    have hne : i ≠ .closeQueue (.event d) := by
      obtain rfl | rfl := hi <;> simp
    obtain ⟨rfl,hput⟩ | ⟨rfl,rfl,rfl⟩ := send_cases hi he
    · obtain ⟨-,hn⟩ | ⟨y,-,hy,hem⟩ := emitted_append (d := d) hput
      · exact absurd ⟨rfl,rfl⟩ (hn _)
      · cases hy
        exact .inr (.inl ⟨rfl,h,hne,hem⟩)
    · exact .inl ⟨.event (.inr rfl) h,rfl,hne⟩

/-- `markClosed` throws only when its Closed event cannot be sent. -/
lemma Marking.throws {x : Choice} {t : TaskId} {i : Instr} {rest : List Instr} {s s' : Shared}
    {e : Exn} (h : Marking d b (i :: rest)) (he : exec x t i s = .throw s' e) :
    (s.queue (.event d)).closed = true ∨
      x = .cancel ∧ i = .sendSuspended (.event d) (.event .closed) := by
  cases h with
  | flag | state | messages | events =>
    cases x <;> simp [exec,execOk,execFail,execCancel,DataChannel.exec] at he
  | event hi h =>
    obtain rfl | rfl := hi
    · cases x with
      | ok =>
        simp only [exec,execOk,execSend] at he
        split_ifs at he with hc
        exact .inl hc
      | _ => simp [exec,execFail,execCancel] at he
    · cases x with
      | ok =>
        simp only [exec,execOk,execSendSuspended] at he
        split_ifs at he
      | fail => simp [exec,execFail] at he
      | cancel => exact .inr ⟨rfl,rfl⟩

end Marking

/-- How far the closing of a channel has come. -/
inductive Marked (c : Config) (d : ChannelId) : Prop
  | live (hc : (c.shared.channel d).closed = false) (he : .closed ∉ emitted d c.shared)
      (hq : (c.shared.queue (.event d)).closed = false) : Marked c d
  | marking {t b} (hc : (c.shared.channel d).closed = true) (h : Marking d b (c.tasks t))
      (he : .closed ∈ emitted d c.shared ↔ b = true)
      (hq : (c.shared.queue (.event d)).closed = false) : Marked c d
  | marked (hc : (c.shared.channel d).closed = true) (he : .closed ∈ emitted d c.shared)
      (hq : (c.shared.queue (.event d)).closed = true) : Marked c d

lemma closedPut_eq (d : ChannelId) (s : Shared) : closedPut d s = (emitted d s).count .closed := by
  simp only [closedPut,emitted,List.count,List.countP_filterMap]
  congr 1
  funext y
  obtain ⟨q,x⟩ := y
  split
  · next d' e he =>
    cases he
    by_cases hd : d' = d
    · cases e <;> simp [hd,Item.isClosed]
    · simp [hd]
  · next hn =>
    cases q with
    | event d' =>
      cases x with
      | event e => exact absurd rfl (hn d' e)
      | _ => simp [Item.isClosed]
    | _ => simp

section Marked
variable {shutdownTimeout : ℤ} {fingerprint : String} {ok : Label → Config → Prop} {c : Config}
  (h : Reachable shutdownTimeout fingerprint ok c) {d : ChannelId}
include h

/-- Only a coroutine that is to send the Closed event emits it, and there is one at most. -/
lemma closed_sender {t : TaskId} {i : Instr} {rest : List Instr} (head : c.tasks t = i :: rest)
    (hi : i.sends (.event d) (.event .closed)) :
    (c.shared.channel d).closed = true ∧ .closed ∉ emitted d c.shared ∧
      ∀ u, Marking d false (c.tasks u) → u = t := by
  have hd : d < c.shared.nextChannel := by
    have := (constructed_of_reachable h).code t i (by simp [head])
    obtain rfl | rfl := hi <;> exact this.1
  have hw := sendsClosed_budget.within_of_reachable h d hd
  have hone : 1 ≤ weight (Instr.sendsClosed d) (c.tasks t) := by
    rw [head,weight_cons,sendsClosed_of_sends hi]
    simp [Item.isClosed]
  have htask := hw.task t
  have hle := Bool.toNat_le (c.shared.channel d).closed
  rw [closedPut_eq,closedCount] at htask
  refine ⟨?_,?_,?_⟩
  · cases hc : (c.shared.channel d).closed with
    | false =>
      rw [hc,Bool.toNat_false] at htask
      omega
    | true => rfl
  · rw [← List.count_eq_zero]
    omega
  · intro u hu
    by_contra hne
    have htwo := hw.two hne
    have := hu.sendsClosed
    rw [closedCount] at htwo
    omega

/-- Only a coroutine in `markClosed` closes the event queue, and there is one at most. -/
lemma events_closer {t : TaskId} {rest : List Instr}
    (head : c.tasks t = .closeQueue (.event d) :: rest) :
    (c.shared.channel d).closed = true ∧ ∀ u b, Marking d b (c.tasks u) → u = t ∧ b = true := by
  have hd : d < c.shared.nextChannel :=
    (constructed_of_reachable h).code t (.closeQueue (.event d)) (by simp [head])
  have hw := closesEvents_budget.within_of_reachable h d hd
  have hone : weight (Instr.closesEvents d) (c.tasks t) = 1 + weight (Instr.closesEvents d) rest := by
    rw [head,weight_cons]
    simp [Instr.closesEvents]
  have htask := hw.task t
  have hle := Bool.toNat_le (c.shared.channel d).closed
  rw [closedCount] at htask
  refine ⟨?_,?_⟩
  · cases hc : (c.shared.channel d).closed with
    | false =>
      rw [hc,Bool.toNat_false] at htask
      omega
    | true => rfl
  · intro u b hu
    obtain rfl : u = t := by
      by_contra hne
      have htwo := hw.two hne
      have := hu.closesEvents
      rw [closedCount] at htwo
      omega
    refine ⟨rfl,?_⟩
    rw [head] at hu
    cases hu with
    | event hi _ => obtain hi | hi := hi <;> cases hi
    | events => rfl

lemma Marked.advances {x : Choice} {t : TaskId} {i : Instr} {rest code : List Instr} {s : Shared}
    (hin : InOrder c x i) (head : c.tasks t = i :: rest) (he : exec x t i c.shared = .next s code)
    (hd : d < c.shared.nextChannel) (hm : Marked c d) :
    Marked ⟨s,Function.update c.tasks t (code ++ rest)⟩ d := by
  have heff := closeEffect_exec c.shared he
  have hclosed : (c.shared.channel d).closed = true → (s.channel d).closed = true := by
    intro hc
    obtain h | ⟨b,-,-,h,-⟩ := heff.channel d hd
    · exact h.trans hc
    · exact h
  have hqueue : i ≠ .closeQueue (.event d) →
      (s.queue (.event d)).closed = (c.shared.queue (.event d)).closed := by
    intro hne
    obtain h | ⟨hi,-⟩ := heff.queue (.event d) hd
    · exact h
    · exact absurd hi hne
  cases hm with
  | live hc hem hq =>
    have hne : i ≠ .closeQueue (.event d) := by
      rintro rfl
      have := (events_closer h head).1
      rw [hc] at this
      cases this
    have hem' : .closed ∉ emitted d s := by
      obtain hs | ⟨y,hi,-,-,hs⟩ := emitted_exec he d
      · rwa [hs]
      · have hy : y ≠ .closed := by
          rintro rfl
          have := (closed_sender h head hi).1
          rw [hc] at this
          cases this
        simpa [hs,hem] using hy.symm
    obtain hsame | ⟨b,rfl,-,hset,rfl⟩ := heff.channel d hd
    · exact .live (hsame.trans hc) hem' ((hqueue hne).trans hq)
    · obtain rfl : b = false := by
        cases b with
        | false => rfl
        | true =>
          have := hin.running d rfl
          rw [hc] at this
          cases this
      refine .marking (t := t) (b := false) hset ?_ (by simpa using hem') ((hqueue hne).trans hq)
      simpa only [Function.update_self] using marking_teardown d rest
  | @marking u b hc hm hem hq =>
    by_cases hu : u = t
    · subst hu
      rw [head] at hm
      obtain ⟨h₁,h₂,h₃⟩ | ⟨rfl,h₁,h₂,h₃⟩ | ⟨rfl,rfl⟩ := hm.advances he
      · exact .marking (t := u) (hclosed hc) (by simpa only [Function.update_self] using h₁)
          (by rw [h₂]; exact hem) ((hqueue h₃).trans hq)
      · exact .marking (t := u) (b := true) (hclosed hc)
          (by simpa only [Function.update_self] using h₁) (by simp [h₃]) ((hqueue h₂).trans hq)
      · have hok := execOk_of_object rfl he
        cases hok
        refine .marked (hclosed hc) (hem.mpr rfl) ?_
        simp [Shared.setQueue,BoundedQueue.close]
    · have hne : i ≠ .closeQueue (.event d) := by
        rintro rfl
        exact hu ((events_closer h head).2 u b hm).1
      refine .marking (t := u) (b := b) (hclosed hc)
        (by simpa only [Function.update_of_ne hu] using hm) ?_ ((hqueue hne).trans hq)
      obtain hs | ⟨y,hi,-,-,hs⟩ := emitted_exec he d
      · simpa only [hs] using hem
      · have hy : y ≠ .closed := by
          rintro rfl
          obtain ⟨-,hnot,huniq⟩ := closed_sender h head hi
          cases b with
          | false => exact hu (huniq u hm)
          | true => exact hnot (hem.mpr rfl)
        simpa [hs,hy.symm] using hem
  | marked hc hem hq =>
    refine .marked (hclosed hc) ?_ ?_
    · obtain hs | ⟨y,-,-,-,hs⟩ := emitted_exec he d
      · rwa [hs]
      · simp [hs,hem]
    · obtain h | ⟨-,h⟩ := heff.queue (.event d) hd
      · exact h.trans hq
      · exact h

omit h in
lemma Marked.throws {x : Choice} {t : TaskId} {i : Instr} {rest : List Instr} {s : Shared} {e : Exn}
    (hin : InOrder c x i) (head : c.tasks t = i :: rest) (he : exec x t i c.shared = .throw s e)
    (hm : Marked c d) : Marked ⟨s,Function.update c.tasks t (afterThrow e rest)⟩ d := by
  have hs := objects_of_throw he
  have hem' := emitted_throw (d := d) he
  cases hm with
  | live hc hem hq =>
    exact .live (by simpa only [hs.channel] using hc) (by simpa only [hem'] using hem)
      (by simpa only [hs.queue] using hq)
  | @marking u b hc hm hem hq =>
    have hu : u ≠ t := by
      rintro rfl
      rw [head] at hm
      obtain hcl | ⟨rfl,rfl⟩ := hm.throws he
      · rw [hq] at hcl
        cases hcl
      · exact (hin.cancelled rfl d .closed rfl).2 rfl
    exact .marking (t := u) (by simpa only [hs.channel] using hc)
      (by simpa only [Function.update_of_ne hu] using hm) (by simpa only [hem'] using hem)
      (by simpa only [hs.queue] using hq)
  | marked hc hem hq =>
    exact .marked (by simpa only [hs.channel] using hc) (by simpa only [hem'] using hem)
      (by simpa only [hs.queue] using hq)

/-- A channel that a step constructs is live. -/
lemma Marked.fresh {x : Choice} {t : TaskId} {i : Instr} {rest code : List Instr} {s : Shared}
    (head : c.tasks t = i :: rest) (he : exec x t i c.shared = .next s code)
    (hge : c.shared.nextChannel ≤ d) (hd : d < s.nextChannel) :
    Marked ⟨s,Function.update c.tasks t (code ++ rest)⟩ d := by
  obtain ⟨hc,hq⟩ := (closeEffect_exec c.shared he).freshChannel d hge hd
  have hem : emitted d s = [] := by
    obtain hs | ⟨y,hi,-⟩ := emitted_exec he d
    · rw [hs,emitted_fresh (put_allocated h) hge]
    · have := (constructed_of_reachable h).code t i (by simp [head])
      obtain rfl | rfl := hi <;> exact absurd this.1 (not_lt.mpr hge)
  exact .live hc (by simp [hem]) hq

end Marked

/-- In an orderly run every channel is live, being closed by one coroutine, or closed for good. -/
theorem marked_of_reachable {shutdownTimeout : ℤ} {fingerprint : String} {c : Config}
    (h : Reachable shutdownTimeout fingerprint OrderlyEvents c) :
    ∀ d < c.shared.nextChannel, Marked c d := by
  refine h.induct (I := fun c => ∀ d < c.shared.nextChannel, Marked c d) ?_ ?_
  · intro d hd
    exact absurd hd (Nat.not_lt_zero d)
  · intro l c c' hr hI hok hs d hd
    cases step_cases hs with
    | @task _ x t _ hl active ht =>
      cases ht with
      | @next i rest s code head he =>
        by_cases hlt : d < c.shared.nextChannel
        · exact (hI d hlt).advances hr (hok t x i rest hl head) head he hlt
        · exact .fresh hr head he (not_lt.mp hlt) hd
      | @throw i rest s e head he =>
        have hsame := objects_of_throw he
        have hlt : d < c.shared.nextChannel := hsame.nextChannel ▸ hd
        exact (hI d hlt).throws (hok t x i rest hl head) head he
    | @call t a ht idle admitted =>
      obtain hc | @⟨u,b,hc,hm,hem,hq⟩ | hc := hI d hd
      · exact .live hc ‹_› ‹_›
      · have hu : u ≠ t := by
          rintro rfl
          rw [idle] at hm
          cases hm
        exact .marking (t := u) hc (by simpa only [Function.update_of_ne hu] using hm) hem hq
      · exact .marked hc ‹_› ‹_›
    | @receive t q s ht idle hq =>
      obtain ⟨y,ys,known,-,-,rfl⟩ := receive_cases hq
      have hq : ((c.shared.setQueue q fun b => { b with buffer := ys }).queue (.event d)).closed =
          (c.shared.queue (.event d)).closed := by
        by_cases he : .event d = q
        · subst he
          simp [Shared.setQueue]
        · simp [Shared.setQueue,he]
      obtain hc | @⟨u,b,hc,hm,hem,hqd⟩ | hc := hI d hd
      · exact .live hc ‹_› (hq.trans ‹_›)
      · exact .marking (t := u) hc hm hem (hq.trans hqd)
      · exact .marked hc ‹_› (hq.trans ‹_›)
    | cancel | native =>
      obtain hc | @⟨u,b,hc,hm,hem,hq⟩ | hc := hI d hd
      · exact .live hc ‹_› ‹_›
      · exact .marking (t := u) hc hm hem hq
      · exact .marked hc ‹_› ‹_›

end Kestara.Kotlin
