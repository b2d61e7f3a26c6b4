import Kestara.Kotlin.Allocation
import Kestara.Kotlin.ObjectSteps

/-!
# The state of a DataChannel

Four functions write the state: `notifyOpen`, the CLOSING event, `close` and `markClosed`. Only
`notifyOpen` looks at a flag before it writes, and only at `closed`. As long as OPEN is written
to a channel that nobody closes, and CLOSING to one that is not closed, the state never goes
back.
-/
namespace Kestara

/-- The order of the life of a channel. -/
def DataChannelState.rank : DataChannelState → ℕ
  | .connecting => 0
  | .open => 1
  | .closing => 2
  | .closed => 3

namespace Kotlin
open Interleaving

/-- A CLOSING event of the channel has been taken up. -/
def ClosingStarted (s : Shared) (d : ChannelId) : Prop :=
  ∃ e, (d,e) ∈ s.history.channelStarted ∧ e.kind? = some .dataChannelClosing

/-- OPEN is written only while the channel is neither closing nor closed, CLOSING only while it is
not closed. -/
def OrderlyWrites (l : Label) (c : Config) : Prop :=
  ∀ t x i rest, l.scheduled = some (t,x) → c.tasks t = i :: rest → ∀ d,
    (i = .channel d (.setState .open) → (c.shared.channel d).closing = false ∧
      (c.shared.channel d).closed = false ∧ ¬ ClosingStarted c.shared d) ∧
    (i = .channel d (.setState .closing) → (c.shared.channel d).closed = false)

/-- What a pending write knows of its channel. -/
def WriteKnown (s : Shared) : Instr → Prop
  | .channel _ (.setState .connecting) => False
  | .channel d (.setState .closing) => (s.channel d).closing = true ∨ ClosingStarted s d
  | .channel d (.setState .closed) => (s.channel d).closed = true
  | _ => True

/-- What a step does to the states and flags of the channels. -/
structure StateEffect (s s' : Shared) (i : Instr) (code : List Instr) : Prop where
  nextChannel : s.nextChannel ≤ s'.nextChannel
  closing : ∀ d < s.nextChannel, (s.channel d).closing = true → (s'.channel d).closing = true
  closed : ∀ d < s.nextChannel, (s.channel d).closed = true → (s'.channel d).closed = true
  started : ∀ x ∈ s.history.channelStarted, x ∈ s'.history.channelStarted
  state : ∀ d < s.nextChannel, (s'.channel d).state = (s.channel d).state ∨
    ∃ v, i = .channel d (.setState v) ∧ (s'.channel d).state = v
  fresh : ∀ d, s.nextChannel ≤ d → d < s'.nextChannel →
    (s'.channel d).state = .open ∨ (s'.channel d).state = .connecting
  writes : ∀ j ∈ code, WriteKnown s' j

lemma StateEffect.same {s s' : Shared} {i : Instr} {code : List Instr} (hc : s'.channel = s.channel)
    (hn : s'.nextChannel = s.nextChannel)
    (hh : ∀ x ∈ s.history.channelStarted, x ∈ s'.history.channelStarted)
    (hw : ∀ j ∈ code, WriteKnown s' j) : StateEffect s s' i code where
  nextChannel := hn.ge
  closing := by simp [hc]
  closed := by simp [hc]
  started := hh
  state := by simp [hc]
  fresh := fun d h₁ h₂ => absurd (hn ▸ h₂) (not_lt.mpr h₁)
  writes := hw

/-- A step that changes one channel. -/
lemma StateEffect.setChannel {s : Shared} {i : Instr} {code : List Instr} {c : ChannelId}
    {f : DataChannel → DataChannel}
    (hcl : (s.channel c).closing = true → (f (s.channel c)).closing = true)
    (hcd : (s.channel c).closed = true → (f (s.channel c)).closed = true)
    (hst : (f (s.channel c)).state = (s.channel c).state ∨
      ∃ v, i = .channel c (.setState v) ∧ (f (s.channel c)).state = v)
    (hw : ∀ j ∈ code, WriteKnown (s.setChannel c f) j) :
    StateEffect s (s.setChannel c f) i code where
  nextChannel := le_rfl
  closing := by
    intro d _ hd
    by_cases he : d = c
    · subst he
      simpa [Shared.setChannel] using hcl hd
    · simpa [Shared.setChannel,he] using hd
  closed := by
    intro d _ hd
    by_cases he : d = c
    · subst he
      simpa [Shared.setChannel] using hcd hd
    · simpa [Shared.setChannel,he] using hd
  started := fun _ h => h
  state := by
    intro d _
    by_cases he : d = c
    · subst he
      simpa [Shared.setChannel] using hst
    · exact .inl (by simp [Shared.setChannel,he])
  fresh := fun d h₁ h₂ => absurd h₂ (not_lt.mpr h₁)
  writes := hw

/-- A step that constructs a channel. -/
lemma StateEffect.newChannel {s s' : Shared} {i : Instr} {code : List Instr} {p : PeerId}
    {handle : ℤ} {info : ChannelInfo} {b : Bool}
    (hc : s'.channel = (s.newChannel p handle info b).channel)
    (hn : s'.nextChannel = s.nextChannel+1)
    (hh : s'.history.channelStarted = s.history.channelStarted)
    (hw : ∀ j ∈ code, WriteKnown s' j) : StateEffect s s' i code := by
  have hold : ∀ d < s.nextChannel, s'.channel d = s.channel d := by
    intro d hd
    have hne : d ≠ s.nextChannel := Nat.ne_of_lt hd
    rw [hc]
    simp [Shared.newChannel,hne]
  refine ⟨by rw [hn]; exact Nat.le_succ _,?_,?_,by simp [hh],?_,?_,hw⟩
  · exact fun d hd h => by rw [hold d hd]; exact h
  · exact fun d hd h => by rw [hold d hd]; exact h
  · exact fun d hd => .inl (by rw [hold d hd])
  · intro d h₁ h₂
    rw [hn] at h₂
    obtain rfl : d = s.nextChannel := le_antisymm (Nat.lt_succ_iff.mp h₂) h₁
    rw [hc]
    cases b <;> simp [Shared.newChannel]

section Effects
variable (s : Shared)

lemma writes_handleNativeEvent {c : ChannelId} {e : NativeEvent} {code : List Instr}
    (h : DataChannel.handleNativeEvent c e = .ok code)
    (hs : (c,e) ∈ s.history.channelStarted) : ∀ j ∈ code, WriteKnown s j := by
  unfold DataChannel.handleNativeEvent at h
  split at h <;> cases h <;> simp [WriteKnown]
  next hk => exact .inr ⟨e,hs,hk⟩

lemma state_channel {c : ChannelId} {i : ChannelInstr} {s' : Shared} {code : List Instr}
    (h : DataChannel.exec c i s = .next s' code) : StateEffect s s' (.channel c i) code := by
  revert h
  fun_cases DataChannel.exec c i s <;> intro h
  case case7 =>
    unfold execAwait at h
    split at h <;> cases h
    exact .same rfl rfl (fun _ h => h) (by simp)
  case case9 e code he =>
    cases h
    refine .same rfl rfl (fun _ h => List.mem_append_left _ h) ?_
    intro j hj
    rcases List.mem_append.mp hj with hj | hj
    · exact writes_handleNativeEvent _ he (by simp [Shared.record]) j hj
    · cases List.mem_singleton.mp hj
      trivial
  case case5 =>
    cases h
    refine .setChannel (fun _ => rfl) id (.inl rfl) ?_
    simp [DataChannel.closeBody,WriteKnown,Shared.setChannel]
  case case15 v =>
    cases h
    exact .setChannel id id (.inr ⟨v,rfl,rfl⟩) (by simp)
  case case17 b _ =>
    cases h
    refine .setChannel id (fun _ => rfl) (.inl rfl) ?_
    cases b <;> simp [DataChannel.teardown,WriteKnown,Shared.setChannel]
  case case3 | case18 | case20 =>
    cases h
    exact .setChannel (by simp) (by simp) (.inl rfl) (by simp)
  all_goals cases h
  all_goals exact .same rfl rfl (fun _ h => h) (by simp [WriteKnown])

lemma state_peer {p : PeerId} {i : PeerInstr} {s' : Shared} {code : List Instr}
    (h : PeerConnection.exec p i s = .next s' code) : StateEffect s s' (.peer p i) code := by
  have hl := leaves_peer s p i
  rw [h] at hl
  have hw : ∀ s'', ∀ j ∈ code, WriteKnown s'' j := by
    intro s'' j hj
    have := hl j hj
    unfold WriteKnown
    split
    case h_4 => trivial
    all_goals
      obtain ⟨k,hk⟩ := origin_of_leaves this
      cases hk
  clear hl
  revert h
  fun_cases PeerConnection.exec p i s <;> intro h
  case case8 =>
    unfold execAwait at h
    split at h <;> cases h
    exact .same rfl rfl (fun _ h => h) (by simp)
  case case3 | case13 =>
    cases h
    exact .newChannel rfl rfl rfl (hw _)
  case case10 e s'' code' he =>
    cases h
    cases PeerConnection.handled_of_handleNativeEvent he <;>
      exact .same rfl rfl (fun _ h => h) (hw _)
  all_goals cases h
  all_goals exact .same rfl rfl (fun _ h => h) (hw _)

lemma writes_system {i j : Instr} (hi : i.isSystem = true) (h : i.leaves j) : WriteKnown s j := by
  unfold WriteKnown
  split
  case h_4 => trivial
  all_goals
    obtain ⟨k,rfl⟩ := origin_of_leaves h
    cases hi

/-- What every step does to the states of the channels. -/
theorem stateEffect_exec {x : Choice} {t : TaskId} {i : Instr} {s' : Shared} {code : List Instr}
    (h : exec x t i s = .next s' code) : StateEffect s s' i code := by
  by_cases hi : i.isSystem = true
  · have hl := leaves_exec s x t i
    rw [h] at hl
    have hw : ∀ j ∈ code, WriteKnown s' j := fun j hj => writes_system s' hi (hl j hj)
    rcases objects_of_system hi h with hs | ⟨handle,capacity,timeout,rfl,-⟩
    · exact .same hs.channel hs.nextChannel (by simp [hs.channelStarted]) hw
    · exact .same rfl rfl (fun _ h => h) hw
  · have hok := execOk_of_object (by simpa using hi) h
    cases i with
    | submit | loop | runtime => exact (hi rfl).elim
    | channel c i => exact state_channel s hok
    | peer p i => exact state_peer s hok
    | send q y =>
      simp only [execOk,execSend] at hok
      split_ifs at hok <;> cases hok <;> exact .same rfl rfl (fun _ h => h) (by simp [WriteKnown])
    | sendSuspended q y =>
      simp only [execOk,execSendSuspended] at hok
      split_ifs at hok
      cases hok
      exact .same rfl rfl (fun _ h => h) (by simp)
    | closeQueue q =>
      cases hok
      exact .same rfl rfl (fun _ h => h) (by simp)

lemma stateEffect_throw {x : Choice} {t : TaskId} {i : Instr} {s' : Shared} {e : Exn}
    (h : exec x t i s = .throw s' e) : StateEffect s s' i [] := by
  have hs := objects_of_throw h
  exact .same hs.channel hs.nextChannel (by simp [hs.channelStarted]) (by simp)

end Effects

structure StatesKnown (c : Config) : Prop where
  closing : ∀ d < c.shared.nextChannel, (c.shared.channel d).state = .closing →
    (c.shared.channel d).closing = true ∨ ClosingStarted c.shared d
  closed : ∀ d < c.shared.nextChannel, (c.shared.channel d).state = .closed →
    (c.shared.channel d).closed = true
  writes : ∀ t, ∀ j ∈ c.tasks t, WriteKnown c.shared j

section Invariant
variable {s s' : Shared} {i : Instr} {code : List Instr}

lemma StateEffect.closingKnown (h : StateEffect s s' i code) {d : ChannelId}
    (hd : d < s.nextChannel) (hk : (s.channel d).closing = true ∨ ClosingStarted s d) :
    (s'.channel d).closing = true ∨ ClosingStarted s' d := by
  rcases hk with hk | ⟨e,he,hek⟩
  · exact .inl (h.closing d hd hk)
  · exact .inr ⟨e,h.started _ he,hek⟩

lemma StateEffect.writeKnown (h : StateEffect s s' i code) {j : Instr} (hj : j.Allocated s)
    (hk : WriteKnown s j) : WriteKnown s' j := by
  unfold WriteKnown at hk ⊢
  split at hk
  · exact hk
  · exact h.closingKnown hj hk
  · exact h.closed _ hj hk
  · trivial

lemma writeKnown_handler {e : Exn} (h : handler e i = some code) : ∀ j ∈ code, WriteKnown s j := by
  unfold handler at h
  split at h <;> cases h <;> simp [WriteKnown]

/-- The states after a step are known by what its instruction knew. -/
lemma StateEffect.known {c : Config} {t : TaskId} {rest : List Instr} (hk : StatesKnown c)
    (head : c.tasks t = i :: rest) (h : StateEffect c.shared s i code) :
    (∀ d < s.nextChannel, (s.channel d).state = .closing →
      (s.channel d).closing = true ∨ ClosingStarted s d) ∧
    ∀ d < s.nextChannel, (s.channel d).state = .closed → (s.channel d).closed = true := by
  have hi : i ∈ c.tasks t := by simp [head]
  have hw := hk.writes t i hi
  refine ⟨fun d hd hst => ?_,fun d hd hst => ?_⟩
  · rcases lt_or_ge d c.shared.nextChannel with hlt | hge
    · rcases h.state d hlt with he | ⟨v,rfl,he⟩
      · exact h.closingKnown hlt (hk.closing d hlt (he ▸ hst))
      · rw [hst] at he
        subst he
        exact h.closingKnown hlt hw
    · rcases h.fresh d hge hd with he | he <;> rw [he] at hst <;> cases hst
  · rcases lt_or_ge d c.shared.nextChannel with hlt | hge
    · rcases h.state d hlt with he | ⟨v,rfl,he⟩
      · exact h.closed d hlt (hk.closed d hlt (he ▸ hst))
      · rw [hst] at he
        subst he
        exact h.closed d hlt hw
    · rcases h.fresh d hge hd with he | he <;> rw [he] at hst <;> cases hst

end Invariant

section Theorem
variable {shutdownTimeout : ℤ} {fingerprint : String} {ok : Label → Config → Prop}

theorem statesKnown_of_reachable {c : Config} (h : Reachable shutdownTimeout fingerprint ok c) :
    StatesKnown c := by
  refine h.induct ?_ fun l d d' hd hI _ hs => ?_
  · refine ⟨by simp [init],by simp [init],fun t j hj => ?_⟩
    simp only [init] at hj
    split_ifs at hj
    · simp only [List.mem_cons,List.not_mem_nil,or_false] at hj
      rcases hj with rfl | rfl <;> trivial
    · cases hj
  · have hc := constructed_of_reachable hd
    cases step_cases hs with
    | @task _ x t _ hl active ht =>
      have hw : ∀ t', ∀ j ∈ d'.tasks t', WriteKnown d'.shared j := by
        refine ht.assertions (A := fun s _ j => WriteKnown s j) hI.writes ?_ ?_
        · intro i rest s code head he
          have heff := stateEffect_exec d.shared he
          exact ⟨heff.writes,fun t' j ho => heff.writeKnown (hc.code t' j (ho.mem head))⟩
        · intro i rest s e head he
          have heff := stateEffect_throw d.shared he
          exact ⟨fun _ _ _ _ hh => writeKnown_handler hh,
            fun t' j ho => heff.writeKnown (hc.code t' j (ho.mem head))⟩
      cases ht with
      | next head he =>
        obtain ⟨h₁,h₂⟩ := (stateEffect_exec d.shared he).known hI head
        exact ⟨h₁,h₂,hw⟩
      | throw head he =>
        obtain ⟨h₁,h₂⟩ := (stateEffect_throw d.shared he).known hI head
        exact ⟨h₁,h₂,hw⟩
    | @call t a ht idle admitted =>
      refine ⟨hI.closing,hI.closed,fun t' j hj => ?_⟩
      by_cases hne : t' = t
      · subst hne
        simp only [Function.update_self] at hj
        have hcode : ∀ j ∈ a.code d.shared, WriteKnown d.shared j := by
          cases a <;> simp [Api.code,WriteKnown]
        exact hcode j hj
      · simp only [Function.update_of_ne hne] at hj
        exact hI.writes t' j hj
    | receive ht idle hr =>
      obtain ⟨x,xs,known,-,-,rfl⟩ := receive_cases hr
      exact ⟨hI.closing,hI.closed,hI.writes⟩
    | cancel | native => exact ⟨hI.closing,hI.closed,hI.writes⟩

/-- An orderly write does not take a channel back. -/
lemma StateEffect.rank_le {l : Label} {c : Config} {x : Choice} {t : TaskId} {i : Instr}
    {rest code : List Instr} {s : Shared} (hk : StatesKnown c) (hok : OrderlyWrites l c)
    (hl : l.scheduled = some (t,x)) (head : c.tasks t = i :: rest)
    (h : StateEffect c.shared s i code) {d : ChannelId} (hd : d < c.shared.nextChannel) :
    (c.shared.channel d).state.rank ≤ (s.channel d).state.rank := by
  rcases h.state d hd with he | ⟨v,rfl,he⟩
  · rw [he]
  · obtain ⟨hopen,hclosing⟩ := hok t x _ rest hl head d
    rw [he]
    cases v with
    | connecting =>
      have hi : .channel d (.setState .connecting) ∈ c.tasks t := by simp [head]
      exact (hk.writes t _ hi).elim
    | «open» =>
      obtain ⟨h₁,h₂,h₃⟩ := hopen rfl
      cases hst : (c.shared.channel d).state with
      | connecting | «open» => decide
      | closing =>
        rcases hk.closing d hd hst with h | h
        · rw [h₁] at h
          cases h
        · exact (h₃ h).elim
      | closed =>
        have := hk.closed d hd hst
        rw [h₂] at this
        cases this
    | closing =>
      have hc := hclosing rfl
      cases hst : (c.shared.channel d).state with
      | connecting | «open» | closing => decide
      | closed =>
        have := hk.closed d hd hst
        rw [hc] at this
        cases this
    | closed => cases (c.shared.channel d).state <;> decide

/-- Along every run of orderly writes the state of a channel never goes back: what has been shown
as CLOSING is not shown as OPEN again, and CLOSED stays. -/
theorem statesMonotone_of_orderlyWrites {c c' : Config}
    (h : Reachable shutdownTimeout fingerprint OrderlyWrites c)
    (h' : Reaches step OrderlyWrites c c') :
    ∀ d < c.shared.nextChannel,
      (c.shared.channel d).state.rank ≤ (c'.shared.channel d).state.rank := by
  refine (h'.induct (I := fun c' => c.shared.nextChannel ≤ c'.shared.nextChannel ∧
    ∀ d < c.shared.nextChannel,
      (c.shared.channel d).state.rank ≤ (c'.shared.channel d).state.rank) ⟨le_rfl,by simp⟩ ?_).2
  intro l e e' he hI hok hs
  have hk := statesKnown_of_reachable (h.trans he)
  cases step_cases hs with
  | task hl active ht =>
    cases ht with
    | next head hx =>
      have heff := stateEffect_exec e.shared hx
      refine ⟨hI.1.trans heff.nextChannel,fun d hd => (hI.2 d hd).trans ?_⟩
      exact heff.rank_le hk hok hl head (lt_of_lt_of_le hd hI.1)
    | throw head hx =>
      have heff := stateEffect_throw e.shared hx
      refine ⟨hI.1.trans heff.nextChannel,fun d hd => (hI.2 d hd).trans ?_⟩
      exact heff.rank_le hk hok hl head (lt_of_lt_of_le hd hI.1)
  | call | cancel | native => exact hI
  | receive ht idle hr =>
    obtain ⟨x,xs,known,-,-,rfl⟩ := receive_cases hr
    exact hI

end Theorem

/-- An executable form of the condition. -/
def orderly (l : Label) (c : Config) : Bool :=
  match l.scheduled with
  | none => true
  | some (t,_) =>
    match c.tasks t with
    | .channel d (.setState .open) :: _ =>
      !(c.shared.channel d).closing && !(c.shared.channel d).closed &&
        c.shared.history.channelStarted.all fun x =>
          x.1 ≠ d || x.2.kind? ≠ some .dataChannelClosing
    | .channel d (.setState .closing) :: _ => !(c.shared.channel d).closed
    | _ => true

lemma orderlyWrites_of_check (l : Label) (c : Config) (h : orderly l c = true) :
    OrderlyWrites l c := by
  intro t x i rest hl head d
  simp only [orderly,hl,head] at h
  refine ⟨?_,?_⟩
  · rintro rfl
    simp only [Bool.and_eq_true,Bool.not_eq_true',List.all_eq_true] at h
    refine ⟨h.1.1,h.1.2,?_⟩
    rintro ⟨e,he,hk⟩
    simpa [hk] using h.2 _ he
  · rintro rfl
    simpa using h

def openEvent : NativeEvent :=
  { kind := NativeEventKind.dataChannelOpen.number, peerHandle := 7, channelHandle := 9 }

/-- The channel of `channelCreated` opens. -/
def channelOpened : List Label := channelCreated ++ [.native openEvent] ++ steps 0 9

/-- Coroutine 1 then closes it and gets as far as the state CLOSING. -/
def closeBegun : List Label := [.call 1 (.channelClose 0)] ++ steps 1 2

theorem statesMonotone_closeBegun : ∃ c c', Reachable 1000 "" OrderlyWrites c ∧
    Reaches step OrderlyWrites c c' ∧ (c.shared.channel 0).state = .open ∧
      (c'.shared.channel 0).state = .closing ∧ ∀ d < c.shared.nextChannel,
        (c.shared.channel d).state.rank ≤ (c'.shared.channel d).state.rank := by
  have hrun : ((run (fun a d => if orderly a d then step a d else none) channelOpened
      (init 1000 "")).bind fun c =>
        (run (fun a d => if orderly a d then step a d else none) closeBegun c).map fun c' =>
          ((c.shared.channel 0).state,(c'.shared.channel 0).state)) = some (.open,.closing) := by
    rfl
  obtain ⟨c,hc,hrest⟩ := Option.bind_eq_some_iff.mp hrun
  obtain ⟨c',hc',ho⟩ := Option.map_eq_some_iff.mp hrest
  have hr : Reachable 1000 "" OrderlyWrites c := reaches_of_checked orderlyWrites_of_check hc
  have hr' : Reaches step OrderlyWrites c c' := reaches_of_checked orderlyWrites_of_check hc'
  exact ⟨c,c',hr,hr',(Prod.mk.inj ho).1,(Prod.mk.inj ho).2,statesMonotone_of_orderlyWrites hr hr'⟩

/-- A channel is closed before it has opened; then the native side reports that it is open. -/
def openedWhileClosing : List Label := [.native openEvent] ++ steps 0 8

/-- A channel that is being closed is shown as OPEN again. -/
theorem closing_channel_reopens : ∃ c c', Reachable 1000 "" (fun _ _ => True) c ∧
    Reaches step (fun _ _ => True) c c' ∧ (c.shared.channel 0).state = .closing ∧
      (c'.shared.channel 0).state = .open ∧ c'.shared.history.polled.filter
        (fun e => e.channelHandle = 9 ∧ e.kind? ≠ some .operationComplete) = [openEvent] := by
  have hrun : ((run step (channelCreated ++ closeBegun) (init 1000 "")).bind fun c =>
        (run step openedWhileClosing c).map fun c' =>
          ((c.shared.channel 0).state,(c'.shared.channel 0).state,
            c'.shared.history.polled.filter
              (fun e => e.channelHandle = 9 ∧ e.kind? ≠ some .operationComplete))) =
      some (.closing,.open,[openEvent]) := by
    rfl
  obtain ⟨c,hc,hrest⟩ := Option.bind_eq_some_iff.mp hrun
  obtain ⟨c',hc',ho⟩ := Option.map_eq_some_iff.mp hrest
  obtain ⟨h₁,h₂,h₃⟩ : _ ∧ _ ∧ _ := by simpa using ho
  have hr : Reachable 1000 "" (fun _ _ => True) c := reaches_of_run hc (fun _ _ _ => trivial)
  exact ⟨c,c',hr,reaches_of_run hc' (fun _ _ _ => trivial),h₁,h₂,by simpa using h₃⟩

end Kotlin
end Kestara
