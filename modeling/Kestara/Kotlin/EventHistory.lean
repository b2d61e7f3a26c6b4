import Kestara.Kotlin.ChannelEvents
import Kestara.Kotlin.TeardownEnd

/-!
# The event stream of a DataChannel and its state history

Outside a runtime shutdown a channel that has been OPEN emits one Open event before any Closing or
Closed, a closed channel one Closed event, and nothing after it. A remote channel that is announced
as open is constructed in the state OPEN; `notifyOpen` then finds nothing to do, and no Open event
is emitted.
-/
namespace Kestara.Kotlin
open Interleaving

/-- A channel that is not announced as open is constructed in the state CONNECTING. -/
lemma fresh_connecting {s s' : Shared} {x : Choice} {t : TaskId} {i : Instr} {code : List Instr}
    {d : ChannelId} (h : exec x t i s = .next s' code)
    (hi : ∀ p e info, i = .peer p (.registerRemote e) → remoteChannelInfo e ≠ some (info,true))
    (h₁ : s.nextChannel ≤ d) (h₂ : d < s'.nextChannel) : (s'.channel d).state = .connecting := by
  have hold : s'.nextChannel ≠ s.nextChannel := fun he => absurd (he ▸ h₂) (not_lt.mpr h₁)
  by_cases hsys : i.isSystem = true
  · obtain hs | ⟨handle,capacity,timeout,rfl,-⟩ := objects_of_system hsys h
    · exact absurd hs.nextChannel hold
    · exact absurd rfl hold
  · have hok := execOk_of_object (by simpa using hsys) h
    cases i with
    | submit | loop | runtime => exact (hsys rfl).elim
    | channel c i =>
      revert hok
      simp only [execOk]
      fun_cases DataChannel.exec c i s <;> intro hok
      case case7 =>
        unfold execAwait at hok
        split at hok <;> cases hok
        exact absurd rfl hold
      all_goals cases hok
      all_goals exact absurd rfl hold
    | peer p i =>
      revert hok
      simp only [execOk]
      fun_cases PeerConnection.exec p i s <;> intro hok
      case case8 =>
        unfold execAwait at hok
        split at hok <;> cases hok
        exact absurd rfl hold
      case case3 =>
        cases hok
        obtain rfl : d = s.nextChannel := le_antisymm (Nat.lt_succ_iff.mp h₂) h₁
        simp [Shared.setPeer,Shared.newChannel]
      case case13 e info b hinfo _ =>
        cases hok
        obtain rfl : d = s.nextChannel := le_antisymm (Nat.lt_succ_iff.mp h₂) h₁
        cases b with
        | false => simp [Shared.setPeer,Shared.newChannel]
        | true => exact absurd hinfo (hi p e info rfl)
      case case10 e s'' code' he =>
        cases hok
        cases PeerConnection.handled_of_handleNativeEvent he <;> exact absurd rfl hold
      all_goals cases hok
      all_goals exact absurd rfl hold
    | send q y =>
      simp only [execOk,execSend] at hok
      split_ifs at hok <;> cases hok <;> exact absurd rfl hold
    | sendSuspended q y =>
      simp only [execOk,execSendSuspended] at hok
      split_ifs at hok
      cases hok
      exact absurd rfl hold
    | closeQueue q =>
      cases hok
      exact absurd rfl hold

/-- What is known of the events of a channel while it lives. -/
structure Opened (c : Config) (d : ChannelId) : Prop where
  due : OpenDue c d → .closing ∉ emitted d c.shared ∧ .closed ∉ emitted d c.shared
  known : (c.shared.channel d).state = .open → .open ∈ emitted d c.shared ∨ OpenDue c d
  first : OpensFirst (emitted d c.shared)
  last : ClosedLast (emitted d c.shared)
  closing : .closing ∈ emitted d c.shared → ClosingStarted c.shared d

section Steps
variable {shutdownTimeout : ℤ} {fingerprint : String} {c : Config} {d : ChannelId} {x : Choice}
  {t : TaskId} {i : Instr} {rest code : List Instr} {s : Shared}

/-- The Open event that is due is emitted or stays due. -/
lemma openDue_next (head : c.tasks t = i :: rest) (he : exec x t i c.shared = .next s code)
    (h : OpenDue c d) : .open ∈ emitted d s ∨
      OpenDue ⟨s,Function.update c.tasks t (code ++ rest)⟩ d := by
  obtain ⟨u,hu⟩ := h
  by_cases hut : u = t
  · subst hut
    obtain ⟨j,r,hj,hs⟩ := hu
    rw [head] at hj
    cases hj
    obtain ⟨rfl,hput⟩ | ⟨rfl,rfl,rfl⟩ := send_cases hs he
    · obtain ⟨-,hn⟩ | ⟨y,-,hy,hem⟩ := emitted_append (d := d) hput
      · exact absurd ⟨rfl,rfl⟩ (hn _)
      · cases hy
        exact .inl (by simp [hem])
    · refine .inr ⟨u,.sendSuspended (.event d) (.event .open),rest,?_,.inr rfl⟩
      simp
  · exact .inr ⟨u,by simpa only [Function.update_of_ne hut] using hu⟩

lemma openDue_throw (hin : InOrder c x i) (hq : (c.shared.queue (.event d)).closed = false)
    (head : c.tasks t = i :: rest) {e : Exn} (he : exec x t i c.shared = .throw s e)
    (h : OpenDue c d) : OpenDue ⟨s,Function.update c.tasks t (afterThrow e rest)⟩ d := by
  obtain ⟨u,hu⟩ := h
  by_cases hut : u = t
  · subst hut
    obtain ⟨j,r,hj,hs⟩ := hu
    rw [head] at hj
    cases hj
    obtain rfl | rfl := hs
    · cases x with
      | ok =>
        simp only [exec,execOk,execSend] at he
        rw [if_neg (by simp [hq])] at he
        split_ifs at he
      | _ => simp [exec,execFail,execCancel] at he
    · cases x with
      | ok =>
        simp only [exec,execOk,execSendSuspended] at he
        split_ifs at he
      | fail => simp [exec,execFail] at he
      | cancel => exact absurd rfl (hin.cancelled rfl d .open rfl).1
  · exact ⟨u,by simpa only [Function.update_of_ne hut] using hu⟩

/-- The event queue is open while the Closed event has not been emitted. -/
lemma Marked.queue_open (h : Marked c d) (he : .closed ∉ emitted d c.shared) :
    (c.shared.queue (.event d)).closed = false := by
  cases h with
  | live _ _ hq => exact hq
  | marking _ _ _ hq => exact hq
  | marked _ hem _ => exact absurd hem he

/-- No event is put after the Closed event. -/
lemma Marked.not_closed (hr : Reachable shutdownTimeout fingerprint OrderlyEvents c)
    (h : Marked c d) (hin : InOrder c x i) (head : c.tasks t = i :: rest) {y : DataChannelEvent}
    (hi : i.sends (.event d) (.event y))
    (hopen : i = .send (.event d) (.event y) → (c.shared.queue (.event d)).closed = false) :
    .closed ∉ emitted d c.shared := by
  by_cases hy : y = .closed
  · subst hy
    exact (closed_sender hr head hi).2.1
  · intro hem
    obtain ⟨hmark,hsus⟩ := hin.last d y hi hy
    cases h with
    | live _ hnot _ => exact hnot hem
    | @marking u b _ hm hb _ =>
      rw [hb.mp hem] at hm
      exact hmark u hm
    | marked _ _ hq =>
      have hfalse : (c.shared.queue (.event d)).closed = false := by
        obtain hi | hi := hi
        · exact hopen hi
        · exact hsus hi
      rw [hq] at hfalse
      cases hfalse

lemma Opened.next (hr : Reachable shutdownTimeout fingerprint OrderlyEvents c) (h : Opened c d)
    (hd : d < c.shared.nextChannel) (hin : InOrder c x i) (head : c.tasks t = i :: rest)
    (he : exec x t i c.shared = .next s code) :
    Opened ⟨s,Function.update c.tasks t (code ++ rest)⟩ d := by
  have hp := opensPaired_of_reachable hr t
  rw [head] at hp
  have hm := marked_of_reachable hr d hd
  have heff := stateEffect_exec c.shared he
  have hstarted : ClosingStarted c.shared d → ClosingStarted s d := by
    rintro ⟨e,he,hk⟩
    exact ⟨e,heff.started _ he,hk⟩
  refine ⟨?_,?_,?_,?_,?_⟩
  · rintro ⟨u,hu⟩
    by_cases hut : u = t
    · subst hut
      simp only [Function.update_self] at hu
      obtain ⟨hnext,hem⟩ | rfl := openNext_exec hp he hu
      · rw [hem]
        exact h.due ⟨u,head ▸ hnext⟩
      · obtain ⟨hc,hcs⟩ := hin.opens d rfl
        obtain hs | ⟨y,hi,-⟩ := emitted_exec he d
        · rw [hs]
          refine ⟨fun hem => hcs (h.closing hem),fun hem => ?_⟩
          cases hm with
          | live _ hnot _ => exact hnot hem
          | marking hc' _ _ _ | marked hc' _ _ =>
            rw [hc] at hc'
            cases hc'
        · obtain hi | hi := hi <;> cases hi
    · have hdue : OpenDue c d := ⟨u,by simpa only [Function.update_of_ne hut] using hu⟩
      obtain ⟨h₁,h₂⟩ := h.due hdue
      obtain hs | ⟨y,hi,-,-,hs⟩ := emitted_exec he d
      · rw [hs]
        exact ⟨h₁,h₂⟩
      · have hy := fun hy => hin.overtakes d y hi hy hdue
        have hy₁ : .closing ≠ y := fun he => hy (.inl he.symm)
        have hy₂ : .closed ≠ y := fun he => hy (.inr he.symm)
        simp [hs,h₁,h₂,hy₁,hy₂]
  · intro hstate
    have hkept : .open ∈ emitted d c.shared → .open ∈ emitted d s := by
      obtain hs | ⟨y,-,-,-,hs⟩ := emitted_exec he d <;> simp +contextual [hs]
    obtain hsame | ⟨v,rfl,hv⟩ := heff.state d hd
    · obtain hk | hk := h.known (hsame ▸ hstate)
      · exact .inl (hkept hk)
      · exact openDue_next head he hk
    · rw [hstate] at hv
      subst hv
      have hok := execOk_of_object rfl he
      simp only [execOk,DataChannel.exec] at hok
      cases hok
      exact .inr ⟨t,by
        simpa only [Function.update_self,List.nil_append] using openNext_of_write hp⟩
  · obtain hs | ⟨y,hi,-,-,hs⟩ := emitted_exec he d
    · rw [hs]
      exact h.first
    · rw [hs]
      refine h.first.append ?_
      rintro rfl
      exact h.due ⟨t,i,rest,head,hi⟩
  · obtain hs | ⟨y,hi,hopen,-,hs⟩ := emitted_exec he d
    · rw [hs]
      exact h.last
    · rw [hs]
      exact closedLast_append (hm.not_closed hr hin head hi hopen)
  · intro hem
    obtain hs | ⟨y,hi,-,-,hs⟩ := emitted_exec he d
    · exact hstarted (h.closing (hs ▸ hem))
    · rw [hs] at hem
      obtain hem | hem := List.mem_append.mp hem
      · exact hstarted (h.closing hem)
      · cases List.mem_singleton.mp hem
        exact hstarted (closingKnown_of_reachable hr t i (by simp [head]) d hi)

lemma Opened.throw (hr : Reachable shutdownTimeout fingerprint OrderlyEvents c) (h : Opened c d)
    (hd : d < c.shared.nextChannel) (hin : InOrder c x i) (head : c.tasks t = i :: rest) {e : Exn}
    (he : exec x t i c.shared = .throw s e) :
    Opened ⟨s,Function.update c.tasks t (afterThrow e rest)⟩ d := by
  have hs := objects_of_throw he
  have hem := emitted_throw (d := d) he
  have hp := opensPaired_of_reachable hr t
  rw [head] at hp
  refine ⟨?_,?_,?_,?_,?_⟩
  · rintro ⟨u,hu⟩
    by_cases hut : u = t
    · subst hut
      simp only [Function.update_self] at hu
      exact absurd hu (openNext_throw hp)
    · rw [hem]
      exact h.due ⟨u,by simpa only [Function.update_of_ne hut] using hu⟩
  · intro hstate
    obtain hk | hk := h.known (by simpa only [hs.channel] using hstate)
    · exact .inl (by simpa only [hem] using hk)
    · have hq := (marked_of_reachable hr d hd).queue_open (h.due hk).2
      exact .inr (openDue_throw hin hq head he hk)
  · simpa only [hem] using h.first
  · simpa only [hem] using h.last
  · intro hc
    obtain ⟨e',he',hk⟩ := h.closing (by simpa only [hem] using hc)
    exact ⟨e',by simpa only [hs.channelStarted] using he',hk⟩

/-- Nothing has happened to a channel that a step constructs. -/
lemma Opened.fresh (hr : Reachable shutdownTimeout fingerprint OrderlyEvents c)
    (hge : c.shared.nextChannel ≤ d) (hd : d < s.nextChannel) (hin : InOrder c x i)
    (head : c.tasks t = i :: rest) (he : exec x t i c.shared = .next s code) :
    Opened ⟨s,Function.update c.tasks t (code ++ rest)⟩ d := by
  have hc := constructed_of_reachable hr
  have hp := opensPaired_of_reachable hr t
  rw [head] at hp
  have hsend : ∀ u j, j ∈ c.tasks u → ∀ y, ¬ j.sends (.event d) y := by
    rintro u j hj y (rfl | rfl)
    · exact absurd (hc.code u _ hj).1 (not_lt.mpr hge)
    · exact absurd (hc.code u _ hj).1 (not_lt.mpr hge)
  have hnext : ∀ u, ¬ OpenNext d (c.tasks u) := by
    rintro u ⟨j,r,hj,hs⟩
    exact hsend u j (by simp [hj]) _ hs
  have hem : emitted d s = [] := by
    obtain hs | ⟨y,hi,-⟩ := emitted_exec he d
    · rw [hs,emitted_fresh (put_allocated hr) hge]
    · exact absurd hi (hsend t i (by simp [head]) _)
  refine ⟨by simp [hem],?_,by simp [OpensFirst,hem],by simp [ClosedLast,hem],by simp [hem]⟩
  intro hstate
  rw [fresh_connecting he hin.announced hge hd] at hstate
  cases hstate

theorem opened_of_reachable (h : Reachable shutdownTimeout fingerprint OrderlyEvents c) :
    ∀ d < c.shared.nextChannel, Opened c d := by
  refine h.induct (I := fun c => ∀ d < c.shared.nextChannel, Opened c d) ?_ ?_
  · intro d hd
    exact absurd hd (Nat.not_lt_zero d)
  · intro l c c' hr hI hok hs d hd
    cases step_cases hs with
    | @task _ x t _ hl active ht =>
      cases ht with
      | @next i rest s code head he =>
        have hin := hok t x i rest hl head
        by_cases hlt : d < c.shared.nextChannel
        · exact (hI d hlt).next hr hlt hin head he
        · exact .fresh hr (not_lt.mp hlt) hd hin head he
      | @throw i rest s e head he =>
        have hlt : d < c.shared.nextChannel := (objects_of_throw he).nextChannel ▸ hd
        exact (hI d hlt).throw hr hlt (hok t x i rest hl head) head he
    | @call t a ht idle admitted =>
      have hdue : OpenDue ⟨c.shared,Function.update c.tasks t (a.code c.shared)⟩ d ↔ OpenDue c d := by
        have hcode : Paired (a.code c.shared) := by
          apply paired_of_forall
          cases a <;> simp [Api.code,Instr.opening]
        constructor
        · rintro ⟨u,hu⟩
          by_cases hut : u = t
          · subst hut
            simp only [Function.update_self] at hu
            exact absurd hu hcode.not_openNext
          · exact ⟨u,by simpa only [Function.update_of_ne hut] using hu⟩
        · rintro ⟨u,hu⟩
          have hut : u ≠ t := by
            rintro rfl
            rw [idle] at hu
            exact Paired.nil.not_openNext hu
          exact ⟨u,by simpa only [Function.update_of_ne hut] using hu⟩
      exact ⟨fun h => (hI d hd).due (hdue.mp h),fun h => ((hI d hd).known h).imp_right hdue.mpr,
        (hI d hd).first,(hI d hd).last,(hI d hd).closing⟩
    | @receive t q s ht idle hq =>
      obtain ⟨y,ys,known,-,-,rfl⟩ := receive_cases hq
      exact ⟨(hI d hd).due,(hI d hd).known,(hI d hd).first,(hI d hd).last,(hI d hd).closing⟩
    | cancel | native =>
      exact ⟨(hI d hd).due,(hI d hd).known,(hI d hd).first,(hI d hd).last,(hI d hd).closing⟩

end Steps

/-- The events of a channel after it has been in the state of `c`: the Open event once, before any
Closing or Closed, if the state was OPEN; the Closed event once when the channel has been closed;
and nothing after it. The event that is still to come is the next thing a coroutine sends. -/
structure EventsMatch (c c' : Config) (d : ChannelId) : Prop where
  opened : (c.shared.channel d).state = .open → (emitted d c'.shared).count .open = 1 ∨
    (emitted d c'.shared).count .open = 0 ∧ OpenDue c' d ∧ .closing ∉ emitted d c'.shared ∧
      .closed ∉ emitted d c'.shared
  once : (emitted d c'.shared).count .open ≤ 1
  first : OpensFirst (emitted d c'.shared)
  closed : (c'.shared.channel d).closed = true → (emitted d c'.shared).count .closed = 1 ∨
    (emitted d c'.shared).count .closed = 0 ∧ ∃ t, Marking d false (c'.tasks t)
  finished : (c'.shared.queue (.event d)).closed = true → (emitted d c'.shared).count .closed = 1
  live : (c'.shared.channel d).closed = false → .closed ∉ emitted d c'.shared
  last : ClosedLast (emitted d c'.shared)

section Theorem
variable {shutdownTimeout : ℤ} {fingerprint : String}

lemma ClosedLast.count {l : List DataChannelEvent} (h : ClosedLast l) (hl : .closed ∈ l) :
    l.count .closed = 1 := by
  obtain ⟨before,after,rfl⟩ := List.append_of_mem hl
  obtain rfl := h before after rfl
  by_cases hb : .closed ∈ before
  · obtain ⟨before',after',rfl⟩ := List.append_of_mem hb
    have := h before' (after' ++ [.closed]) (by simp)
    simp at this
  · simp [List.count_eq_zero.mpr hb]

/-- What has been opened stays opened. -/
lemma opened_stable {c c' : Config} (h : Reachable shutdownTimeout fingerprint OrderlyEvents c)
    (h' : Reaches step OrderlyEvents c c') {d : ChannelId} (hd : d < c.shared.nextChannel)
    (ho : .open ∈ emitted d c.shared ∨ OpenDue c d) :
    d < c'.shared.nextChannel ∧ (.open ∈ emitted d c'.shared ∨ OpenDue c' d) := by
  refine h'.induct (I := fun c' => d < c'.shared.nextChannel ∧
    (.open ∈ emitted d c'.shared ∨ OpenDue c' d)) ⟨hd,ho⟩ ?_
  rintro l e e' he ⟨hlt,hI⟩ hok hs
  have hr := h.trans he
  cases step_cases hs with
  | @task _ x t _ hl active ht =>
    cases ht with
    | @next i rest s code head hx =>
      refine ⟨lt_of_lt_of_le hlt (closeEffect_exec e.shared hx).nextChannel,?_⟩
      obtain hI | hI := hI
      · refine .inl ?_
        obtain hsame | ⟨y,-,-,-,hadd⟩ := emitted_exec hx d
        · rwa [hsame]
        · simp [hadd,hI]
      · exact openDue_next head hx hI
    | @throw i rest s ex head hx =>
      have hsame := objects_of_throw hx
      refine ⟨hsame.nextChannel ▸ hlt,?_⟩
      obtain hI | hI := hI
      · exact .inl (by simpa only [emitted_throw hx] using hI)
      · have hdue := (opened_of_reachable hr d hlt).due hI
        have hq := (marked_of_reachable hr d hlt).queue_open hdue.2
        exact .inr (openDue_throw (hok t x i rest hl head) hq head hx hI)
  | @call t a ht idle admitted =>
    refine ⟨hlt,hI.imp_right ?_⟩
    rintro ⟨u,hu⟩
    have hut : u ≠ t := by
      rintro rfl
      rw [idle] at hu
      exact Paired.nil.not_openNext hu
    exact ⟨u,by simpa only [Function.update_of_ne hut] using hu⟩
  | receive ht idle hq =>
    obtain ⟨y,ys,known,-,-,rfl⟩ := receive_cases hq
    exact ⟨hlt,hI⟩
  | cancel | native => exact ⟨hlt,hI⟩

/-- Along every orderly run the events of a channel match the states it has had. -/
theorem eventsMatch_of_orderlyEvents {c c' : Config}
    (h : Reachable shutdownTimeout fingerprint OrderlyEvents c)
    (h' : Reaches step OrderlyEvents c c') : ∀ d < c.shared.nextChannel, EventsMatch c c' d := by
  intro d hd
  have hr := h.trans h'
  have hd' : d < c'.shared.nextChannel := by
    have hle : c.shared.nextChannel ≤ c'.shared.nextChannel := by
      refine h'.invariant (I := fun e => c.shared.nextChannel ≤ e.shared.nextChannel) le_rfl ?_
      intro l e e' hI _ hs
      exact hI.trans (closures_of_step hs).grows.2
    exact lt_of_lt_of_le hd hle
  have hopened := opened_of_reachable hr d hd'
  have hmarked := marked_of_reachable hr d hd'
  have hone : (emitted d c'.shared).count .open ≤ 1 :=
    (notifies_of_reachable hr d hd').spent_le.trans (openReported_le_one hr d)
  refine ⟨?_,hone,hopened.first,?_,?_,?_,hopened.last⟩
  · intro hstate
    by_cases hem : .open ∈ emitted d c'.shared
    · have := List.count_pos_iff.mpr hem
      exact .inl (by omega)
    · have hknown := (opened_of_reachable h d hd).known hstate
      have hdue := (opened_stable h h' hd hknown).2.resolve_left hem
      exact .inr ⟨List.count_eq_zero.mpr hem,hdue,hopened.due hdue⟩
  · intro hc
    cases hmarked with
    | live hc' _ _ =>
      rw [hc'] at hc
      cases hc
    | @marking t b _ hm hem _ =>
      cases b with
      | false =>
        have hnot : .closed ∉ emitted d c'.shared := fun h => by simpa using hem.mp h
        exact .inr ⟨List.count_eq_zero.mpr hnot,t,hm⟩
      | true => exact .inl (hopened.last.count (hem.mpr rfl))
    | marked _ hem _ => exact .inl (hopened.last.count hem)
  · intro hq
    refine hopened.last.count ?_
    by_contra hem
    rw [hmarked.queue_open hem] at hq
    cases hq
  · intro hc
    cases hmarked with
    | live _ hem _ => exact hem
    | marking hc' _ _ _ | marked hc' _ _ =>
      rw [hc'] at hc
      cases hc

end Theorem

/-- An executable condition on the steps of two coroutines that keeps the events in order. -/
def tidy (l : Label) (c : Config) : Bool :=
  match l with
  | .run t => decide (t < 2) && (match c.tasks t with
    | .peer _ (.registerRemote _) :: _ | .channel _ (.markClosed true) :: _
    | .sendSuspended _ _ :: _ => false
    | .channel d (.handle e) :: _ =>
      decide (openReported d c.shared = 0 ∨ e.kind? ≠ some .dataChannelOpen)
    | .channel d (.setState .open) :: _ =>
      !(c.shared.channel d).closed && c.shared.history.channelStarted.all fun x =>
        x.1 ≠ d || x.2.kind? ≠ some .dataChannelClosing
    | .send _ _ :: _ => (c.tasks (1-t)).isEmpty
    | _ => true)
  | .call t _ => decide (t < 2)
  | .native _ => true
  | _ => false

lemma twoTasks_of_tidy (l : Label) (c c' : Config) (h : TwoTasks c) (hl : tidy l c = true)
    (hs : step l c = some c') : TwoTasks c' := by
  apply h.step hs
  intro t ht
  cases l with
  | run t' =>
    cases ht
    simp only [tidy,Bool.and_eq_true,decide_eq_true_eq] at hl
    exact hl.1
  | call t' a =>
    cases ht
    exact of_decide_eq_true hl
  | fail | interrupt => cases hl
  | cancel | receive | native => cases ht

lemma orderlyEvents_of_tidy (l : Label) (c : Config) (h : TwoTasks c) (hl : tidy l c = true) :
    OrderlyEvents l c := by
  intro t x i rest hs head
  obtain ⟨rfl,rfl⟩ : l = .run t ∧ x = .ok := by
    cases l <;> simp [Label.scheduled] at hs <;> first | cases hl | skip
    obtain ⟨rfl,rfl⟩ := hs
    exact ⟨rfl,rfl⟩
  simp only [tidy,head,Bool.and_eq_true,decide_eq_true_eq] at hl
  obtain ⟨hlt,hl⟩ := hl
  have halone : ∀ t u : ℕ, t < 2 → (c.tasks (1-t)).isEmpty = true → u ≠ t → c.tasks u = [] := by
    intro t u ht hempty hu
    refine List.eq_nil_iff_forall_not_mem.mpr fun j hj => ?_
    simpa [List.isEmpty_iff.mp hempty] using h.mem_other ht hu hj
  refine ⟨?_,?_,?_,?_,?_,?_,?_⟩
  · rintro p e info rfl
    cases hl
  · rintro d rfl
    cases hl
  · rintro d e rfl hk
    obtain hl | hl := of_decide_eq_true hl
    · exact hl
    · exact absurd hk hl
  · rintro d rfl
    simp only [Bool.and_eq_true,Bool.not_eq_true',List.all_eq_true] at hl
    refine ⟨hl.1,?_⟩
    rintro ⟨e,he,hk⟩
    simpa [hk] using hl.2 _ he
  · rintro d y (rfl | rfl) hy
    · rintro ⟨u,j,r,hj,hs⟩
      by_cases hu : u = t
      · subst hu
        rw [head] at hj
        cases hj
        obtain hs | hs := hs <;> cases hs
        obtain hy | hy := hy <;> cases hy
      · rw [halone t u hlt hl hu] at hj
        cases hj
    · cases hl
  · rintro d y (rfl | rfl) hy
    · refine ⟨fun u hu => ?_,by simp⟩
      by_cases hut : u = t
      · subst hut
        rw [head] at hu
        cases hu
      · rw [halone t u hlt hl hut] at hu
        cases hu
    · cases hl
  · intro hx
    cases hx

/-- The channel of `channelOpened` is then closed by the native side. -/
def channelEnded : List Label := [.native closedEvent] ++ steps 0 13

theorem eventsMatch_channelEnded : ∃ c c', Reachable 1000 "" OrderlyEvents c ∧
    Reaches step OrderlyEvents c c' ∧ (c.shared.channel 0).state = .open ∧
      (c'.shared.channel 0).closed = true ∧ emitted 0 c'.shared = [.open,.closed] ∧
      ∀ d < c.shared.nextChannel, EventsMatch c c' d := by
  have hrun : ((run (fun a d => if tidy a d then step a d else none) channelOpened
      (init 1000 "")).bind fun c =>
        (run (fun a d => if tidy a d then step a d else none) channelEnded c).map fun c' =>
          ((c.shared.channel 0).state,(c'.shared.channel 0).closed,emitted 0 c'.shared)) =
      some (.open,true,[.open,.closed]) := by
    rfl
  obtain ⟨c,hc,hrest⟩ := Option.bind_eq_some_iff.mp hrun
  obtain ⟨c',hc',ho⟩ := Option.map_eq_some_iff.mp hrest
  obtain ⟨h₁,h₂,h₃⟩ : _ ∧ _ ∧ _ := by simpa using ho
  have htwo := invariant_of_guarded twoTasks_of_tidy (twoTasks_init 1000 "") hc
  have hr : Reachable 1000 "" OrderlyEvents c :=
    reaches_of_guarded twoTasks_of_tidy orderlyEvents_of_tidy (twoTasks_init 1000 "") hc
  have hr' : Reaches step OrderlyEvents c c' :=
    reaches_of_guarded twoTasks_of_tidy orderlyEvents_of_tidy htwo hc'
  exact ⟨c,c',hr,hr',h₁,h₂,h₃,eventsMatch_of_orderlyEvents hr hr'⟩

/-- The native side announces a channel that is already open, and reports that it is open. -/
def announcedOpen : List Label :=
  peerCreated ++ [.native { kind := NativeEventKind.dataChannel.number, peerHandle := 7
                            channelHandle := 9, number := 3, text := some "", secondaryText := some ""
                            data := some (0 :: List.replicate 8 255) }] ++ steps 0 9 ++
    [.native openEvent] ++ steps 0 9

/-- The event loop is about to poll. -/
def polling : List Instr → Bool
  | [.loop .head,.loop .catch] => true
  | _ => false

/-- A channel is OPEN, nothing is left to be done, and no Open event has been emitted. -/
theorem open_channel_silent : ∃ c, Reachable 1000 "" (fun _ _ => True) c ∧
    (c.shared.channel 0).state = .open ∧ emitted 0 c.shared = [] ∧ c.shared.native = [] ∧
      ¬ EventsMatch c c 0 := by
  have hrun : (run step announcedOpen (init 1000 "")).map (fun c => ((c.shared.channel 0).state,
      emitted 0 c.shared,c.shared.native,polling (c.tasks 0),(c.tasks 1).isEmpty)) =
      some (.open,[],[],true,true) := by
    rfl
  obtain ⟨c,hc,ho⟩ := Option.map_eq_some_iff.mp hrun
  obtain ⟨h₁,h₂,h₃,h₄,h₅⟩ : _ ∧ _ ∧ _ ∧ _ ∧ _ := by simpa using ho
  refine ⟨c,reaches_of_run hc (fun _ _ _ => trivial),h₁,h₂,h₃,fun h => ?_⟩
  obtain h | ⟨-,⟨u,hu⟩,-⟩ := h.opened h₁
  · rw [h₂] at h
    cases h
  · obtain ⟨j,r,hj,hs⟩ := hu
    by_cases hu : u = 0 ∨ u = 1
    · obtain rfl | rfl := hu
      · rw [hj] at h₄
        unfold polling at h₄
        split at h₄
        · next he =>
          cases he
          obtain hs | hs := hs <;> cases hs
        · cases h₄
      · rw [h₅] at hj
        cases hj
    · have hidle : c.tasks u = [] := by
        rw [run_other hc (t := u) ?_]
        · exact if_neg fun h => hu (.inl h)
        · simp [announcedOpen,peerCreated,steps,Label.task?,eq_comm]
          tauto
      rw [hidle] at hj
      cases hj

end Kestara.Kotlin
