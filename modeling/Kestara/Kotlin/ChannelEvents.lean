import Kestara.Kotlin.EventOrder

/-!
# The events of a DataChannel match its state

Along every orderly run a channel that has been OPEN has emitted one Open event, before any Closing
or Closed, or is about to; one that has been closed has emitted one Closed event, or is about to;
and the Closed event is the last.
-/
namespace Kestara.Kotlin
open Interleaving

section Lists

/-- The Open event comes before any Closing or Closed. -/
def OpensFirst (l : List DataChannelEvent) : Prop :=
  ∀ before after, l = before ++ .open :: after → .closing ∉ before ∧ .closed ∉ before

/-- Nothing comes after the Closed event. -/
def ClosedLast (l : List DataChannelEvent) : Prop :=
  ∀ before after, l = before ++ .closed :: after → after = []

variable {l : List DataChannelEvent} {y : DataChannelEvent}

lemma OpensFirst.append (h : OpensFirst l) (hy : y = .open → .closing ∉ l ∧ .closed ∉ l) :
    OpensFirst (l ++ [y]) := by
  intro before after he
  obtain rfl | ⟨after',z,rfl⟩ := List.eq_nil_or_concat after
  · obtain ⟨rfl,hz⟩ := List.append_inj' he rfl
    cases hz
    exact hy rfl
  · have he' : l ++ [y] = (before ++ .open :: after') ++ [z] := by simpa using he
    obtain ⟨hl,-⟩ := List.append_inj' he' rfl
    exact h before after' hl

lemma closedLast_append (h : .closed ∉ l) : ClosedLast (l ++ [y]) := by
  intro before after he
  obtain rfl | ⟨after',z,rfl⟩ := List.eq_nil_or_concat after
  · rfl
  · have he' : l ++ [y] = (before ++ .closed :: after') ++ [z] := by simpa using he
    obtain ⟨rfl,-⟩ := List.append_inj' he' rfl
    simp at h

end Lists

section Closing
variable {s s' : Shared}

/-- A Closing event that is to be sent has a CLOSING event behind it. -/
def ClosingKnown (s : Shared) (j : Instr) : Prop :=
  ∀ d, j.sends (.event d) (.event .closing) → ClosingStarted s d

lemma closing_of_handle {c d : ChannelId} {e : NativeEvent} {code : List Instr} {j : Instr}
    (h : DataChannel.handleNativeEvent c e = .ok code) (hj : j ∈ code)
    (hd : j.sends (.event d) (.event .closing)) :
    d = c ∧ e.kind? = some .dataChannelClosing := by
  unfold DataChannel.handleNativeEvent at h
  split at h <;> cases h <;> obtain rfl | rfl := hd <;> simp at hj
  next hk => exact ⟨hj,hk⟩

lemma closingKnown_channel {c : ChannelId} {i : ChannelInstr} {code : List Instr}
    (h : DataChannel.exec c i s = .next s' code) : ∀ j ∈ code, ClosingKnown s' j := by
  revert h
  fun_cases DataChannel.exec c i s <;> intro h
  case case7 =>
    unfold execAwait at h
    split at h <;> cases h
    simp
  case case9 e code he =>
    cases h
    intro j hj d hd
    obtain hj | hj := List.mem_append.mp hj
    · obtain ⟨rfl,hk⟩ := closing_of_handle he hj hd
      exact ⟨e,by simp [Shared.record],hk⟩
    · cases List.mem_singleton.mp hj
      simp [Instr.sends] at hd
  case case17 b _ =>
    cases h
    intro j hj d hd
    cases b <;> obtain rfl | rfl := hd <;> simp [DataChannel.teardown] at hj
  all_goals cases h
  all_goals
    intro j hj d hd
    obtain rfl | rfl := hd <;> simp [DataChannel.closeBody] at hj

lemma closingKnown_exec {x : Choice} {t : TaskId} {i : Instr} {code : List Instr}
    (h : exec x t i s = .next s' code) (hi : ClosingKnown s i) : ∀ j ∈ code, ClosingKnown s' j := by
  have hl := leaves_exec s x t i
  rw [h] at hl
  intro j hj d hd
  obtain rfl | rfl := hd
  · obtain ⟨k,rfl⟩ := origin_of_leaves (hl _ hj)
    exact closingKnown_channel (execOk_of_object rfl h) _ hj d (.inl rfl)
  · cases origin_of_leaves (hl _ hj)
    obtain ⟨e,he,hk⟩ := hi d (.inl rfl)
    exact ⟨e,(stateEffect_exec s h).started _ he,hk⟩

theorem closingKnown_of_reachable {shutdownTimeout : ℤ} {fingerprint : String}
    {ok : Label → Config → Prop} {c : Config} (h : Reachable shutdownTimeout fingerprint ok c) :
    ∀ t, ∀ j ∈ c.tasks t, ClosingKnown c.shared j := by
  have hmono : ∀ {s s' : Shared} {j : Instr},
      (∀ x ∈ s.history.channelStarted, x ∈ s'.history.channelStarted) →
      ClosingKnown s j → ClosingKnown s' j := by
    intro s s' j hs hj d hd
    obtain ⟨e,he,hk⟩ := hj d hd
    exact ⟨e,hs _ he,hk⟩
  refine h.invariant (I := fun c => ∀ t, ∀ j ∈ c.tasks t, ClosingKnown c.shared j) ?_ ?_
  · intro t j hj d hd
    simp only [init] at hj
    split_ifs at hj <;> obtain rfl | rfl := hd <;> simp at hj
  · intro l c c' hI _ hs
    cases step_cases hs with
    | @task _ x t _ hl active ht =>
      refine ht.assertions (A := fun s _ j => ClosingKnown s j) hI ?_ ?_
      · intro i rest s code head he
        refine ⟨closingKnown_exec he (hI t i (by simp [head])),fun t' j _ => hmono ?_⟩
        exact (stateEffect_exec c.shared he).started
      · intro i rest s e head he
        refine ⟨?_,fun t' j _ => hmono (stateEffect_throw c.shared he).started⟩
        intro k _ _ code hh j hj d hd
        unfold handler at hh
        split at hh <;> cases hh <;> obtain rfl | rfl := hd <;> simp at hj
    | @call t a ht idle admitted =>
      intro u j hj
      by_cases hu : u = t
      · subst hu
        simp only [Function.update_self] at hj
        intro d hd
        cases a <;> obtain rfl | rfl := hd <;> simp [Api.code] at hj
      · simp only [Function.update_of_ne hu] at hj
        exact hI u j hj
    | receive ht idle hr =>
      obtain ⟨x,xs,known,-,-,rfl⟩ := receive_cases hr
      exact hI
    | cancel | native => exact hI

end Closing

section Reports
variable {shutdownTimeout : ℤ} {fingerprint : String} {c : Config}

/-- In an orderly run a channel takes up one OPEN event at most. -/
theorem openReported_le_one (h : Reachable shutdownTimeout fingerprint OrderlyEvents c) :
    ∀ d, openReported d c.shared ≤ 1 := by
  refine h.invariant (I := fun c => ∀ d, openReported d c.shared ≤ 1) (by simp [init,openReported]) ?_
  intro l c c' hI hok hs d
  cases step_cases hs with
  | @task _ x t _ hl active ht =>
    cases ht with
    | @next i rest s code head he =>
      obtain hsame | ⟨d',e,rfl,hadd⟩ := started_exec he
      · simpa only [openReported,hsame] using hI d
      · change openReported d s ≤ 1
        rw [openReported_append hadd]
        split_ifs with hd
        · obtain ⟨rfl,hk⟩ := hd
          rw [(hok t x _ rest hl head).reported d' e rfl hk]
        · exact hI d
    | @throw i rest s e head he =>
      simpa only [openReported,(objects_of_throw he).channelStarted] using hI d
  | call | cancel | native => exact hI d
  | receive ht idle hr =>
    obtain ⟨x,xs,known,-,-,rfl⟩ := receive_cases hr
    exact hI d

lemma notifies_allocated {s : Shared} {i : Instr} {d : ChannelId} (hi : i.Allocated s)
    (hd : s.nextChannel ≤ d) : i.notifies d = 0 := by
  unfold Instr.notifies
  split
  · exact if_neg (Nat.ne_of_lt (lt_of_lt_of_le hi hd))
  · exact if_neg (Nat.ne_of_lt (lt_of_lt_of_le hi hd))
  · exact if_neg (Nat.ne_of_lt (lt_of_lt_of_le hi.1 hd))
  · exact if_neg (Nat.ne_of_lt (lt_of_lt_of_le hi.1 hd))
  · rfl

lemma notifies_handler {d : ChannelId} {e : Exn} {i : Instr} {code : List Instr}
    (h : handler e i = some code) : weight (Instr.notifies d) code ≤ i.notifies d := by
  unfold handler at h
  split at h <;> cases h <;> simp [Instr.notifies]

/-- In an orderly run the Open events of a channel are paid for by what the native side reports. -/
theorem notifies_of_reachable (h : Reachable shutdownTimeout fingerprint OrderlyEvents c) :
    ∀ d < c.shared.nextChannel,
      Within (Instr.notifies d) c.tasks (openEmitted d c.shared) (openReported d c.shared) := by
  refine h.induct (I := fun c => ∀ d < c.shared.nextChannel,
    Within (Instr.notifies d) c.tasks (openEmitted d c.shared) (openReported d c.shared)) ?_ ?_
  · intro d hd
    exact absurd hd (Nat.not_lt_zero d)
  · intro l c c' hr hI hok hs d hd
    have hc := constructed_of_reachable hr
    cases step_cases hs with
    | @task _ x t _ hl active ht =>
      by_cases hlt : d < c.shared.nextChannel
      · exact ht.within (fun _ _ _ => notifies_handler) (fun i _ _ => pays_notifies hlt) (hI d hlt)
      · have hge := not_lt.mp hlt
        have hold : ∀ u, weight (Instr.notifies d) (c.tasks u) = 0 := fun u =>
          weight_eq_zero fun i hi => notifies_allocated (hc.code u i hi) hge
        cases ht with
        | @next i rest s code head he =>
          have hi := hc.code t i (by simp [head])
          have hrest : weight (Instr.notifies d) rest = 0 := by
            have := hold t
            rw [head,weight_cons] at this
            omega
          have hcode : weight (Instr.notifies d) code ≤ openReported d s := by
            by_cases hsend : ∃ q y, i.sends q y
            · obtain ⟨q,y,hs⟩ := hsend
              have hzero := notifies_allocated hi hge
              obtain ⟨rfl,-⟩ | ⟨rfl,rfl,-⟩ := send_cases hs he
              · exact Nat.zero_le _
              · rw [notifies_of_sends (.inl rfl)] at hzero
                rw [weight_cons,notifies_of_sends (.inr rfl),hzero]
                exact Nat.zero_le _
            · have := notifies_exec (d := d) he (fun q y h => hsend ⟨q,y,h⟩)
                (.inr (hok t x i rest hl head).announced)
              have := notifies_allocated hi hge
              omega
          have hem : openEmitted d s = 0 := by
            obtain hs | ⟨y,hs,-⟩ := emitted_exec he d
            · simp [openEmitted,hs,emitted_fresh (put_allocated hr) hge]
            · obtain rfl | rfl := hs <;> exact absurd hi.1 hlt
          have hidle : Within (Instr.notifies d) c.tasks 0 0 := .of_idle hold le_rfl
          apply hidle.update
          change _ + openEmitted d s + 0 ≤ _ + 0 + openReported d s
          rw [weight_append,hem]
          omega
        | @throw i rest s e head he =>
          exact absurd ((objects_of_throw he).nextChannel ▸ hd) hlt
    | @call t a ht idle admitted =>
      apply (hI d hd).update
      have : weight (Instr.notifies d) (a.code c.shared) = 0 := by
        cases a <;> simp [Api.code,Instr.notifies]
      simp only [this,idle,weight_nil]
      omega
    | @receive t q s ht idle hq =>
      obtain ⟨y,ys,known,-,-,rfl⟩ := receive_cases hq
      exact hI d hd
    | cancel | native => exact hI d hd

end Reports

section Next
variable {d : ChannelId} {x : Choice} {t : TaskId} {i : Instr} {rest code : List Instr}
  {s s' : Shared}

lemma Paired.not_openNext (h : Paired code) : ¬ OpenNext d code := by
  rintro ⟨i,rest,rfl,hi⟩
  cases h with
  | pair => obtain hi | hi := hi <;> cases hi
  | other ho =>
    rw [opening_of_sends hi] at ho
    cases ho

/-- A coroutine comes to the Open event by the write of the state. -/
lemma openNext_exec (hp : OpensPaired (i :: rest)) (he : exec x t i s = .next s' code)
    (h : OpenNext d (code ++ rest)) :
    OpenNext d (i :: rest) ∧ emitted d s' = emitted d s ∨ i = .channel d (.setState .open) := by
  by_cases hsend : ∃ d', i.sends (.event d') (.event .open)
  · obtain ⟨d',hi⟩ := hsend
    have hrest : Paired rest := by
      obtain ⟨_,rfl,-⟩ | hr := hp.tail
      · obtain hi | hi := hi <;> cases hi
      · exact hr
    obtain ⟨rfl,-⟩ | ⟨rfl,rfl,rfl⟩ := send_cases hi he
    · exact absurd h hrest.not_openNext
    · obtain ⟨j,r,hj,hs⟩ := h
      cases hj
      obtain hs | hs := hs <;> cases hs
      exact .inl ⟨⟨_,_,rfl,.inl rfl⟩,rfl⟩
  · obtain ⟨d',rfl,r,rfl,-⟩ | hrest := hp.tail
    · have hok := execOk_of_object rfl he
      simp only [execOk,DataChannel.exec] at hok
      cases hok
      obtain ⟨j,r',hj,hs⟩ := h
      cases hj
      obtain hs | hs := hs <;> cases hs
      exact .inr rfl
    · have hcode := paired_exec he fun d' hi => hsend ⟨d',hi⟩
      exact absurd h (hcode.append hrest).not_openNext

/-- The write of OPEN is followed by the Open event. -/
lemma openNext_of_write (hp : OpensPaired (.channel d (.setState .open) :: rest)) :
    OpenNext d rest := by
  obtain hp | ⟨j,d',r,hj,hs,-⟩ := hp
  · cases hp with
    | pair h => exact ⟨_,_,rfl,.inl rfl⟩
    | other ho => cases ho
  · cases hj
    obtain hs | hs := hs <;> cases hs

lemma openNext_throw {e : Exn} (hp : OpensPaired (i :: rest)) : ¬ OpenNext d (afterThrow e rest) := by
  obtain ⟨d',rfl,r,rfl,hr⟩ | hrest := hp.tail
  · exact Paired.not_openNext hr.afterThrow
  · exact hrest.afterThrow.not_openNext

end Next

end Kestara.Kotlin
