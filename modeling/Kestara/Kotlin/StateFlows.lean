import Kestara.Kotlin.Registration

/-!
# State flows of a peer

A state event overwrites one of the four state flows of its peer when the peer begins to
handle it. Until the peer is closed nothing else writes to them.
-/
namespace Kestara.Kotlin
open Interleaving Relay

/-- The values of the state flows. -/
@[ext] structure Flows where
  state : PeerConnectionState
  iceConnectionState : IceConnectionState
  iceGatheringState : IceGatheringState
  signalingState : SignalingState
  deriving DecidableEq, Repr

namespace Flows

/-- The values of a new peer. -/
def initial : Flows where
  state := .new
  iceConnectionState := .new
  iceGatheringState := .new
  signalingState := .stable

/-- A state event replaces the value of its flow. -/
def update (f : Flows) (e : NativeEvent) : Flows :=
  match e.kind? with
  | some .peerState =>
    { f with state := (getOrNull PeerConnectionState.values e.number).getD f.state }
  | some .iceConnectionState =>
    { f with iceConnectionState :=
        (getOrNull IceConnectionState.values e.number).getD f.iceConnectionState }
  | some .iceGatheringState =>
    { f with iceGatheringState :=
        (getOrNull IceGatheringState.values e.number).getD f.iceGatheringState }
  | some .signalingState =>
    { f with signalingState := (getOrNull SignalingState.values e.number).getD f.signalingState }
  | _ => f

/-- The values after all events of a list: each flow has that of its last event. -/
def after (events : List NativeEvent) : Flows := events.foldl update initial

lemma after_concat (events : List NativeEvent) (e : NativeEvent) :
    after (events ++ [e]) = (after events).update e := by simp [after]

end Flows

def PeerConnection.flows (peer : PeerConnection) : Flows :=
  ⟨peer.state,peer.iceConnectionState,peer.iceGatheringState,peer.signalingState⟩

/-- The steps of `markClosed` that write to a state flow. -/
def Instr.setsFlow (p : PeerId) : Instr → Bool
  | .peer q (.setState _) | .peer q (.setSignalingState _) => decide (q = p)
  | _ => false

/-- What a step does to the state flows of the peers that are not closed. -/
structure FlowEffect (s : Shared) (i : Instr) (s' : Shared) (code : List Instr) : Prop where
  closed : ∀ p < s.nextPeer, (s.peer p).closed = true → (s'.peer p).closed = true
  flows : ∀ p < s.nextPeer, i.setsFlow p = false → (s'.peer p).closed = false →
    of p s'.history.peerStarted = of p s.history.peerStarted ∧ (s'.peer p).flows = (s.peer p).flows ∨
      ∃ e, of p s'.history.peerStarted = of p s.history.peerStarted ++ [e] ∧
        (s'.peer p).flows = (s.peer p).flows.update e
  fresh : ∀ p, s.nextPeer ≤ p → p < s'.nextPeer →
    of p s'.history.peerStarted = of p s.history.peerStarted ∧ (s'.peer p).flows = .initial
  code : ∀ j ∈ code, ∀ p, j.setsFlow p = true → (s'.peer p).closed = true

/-- A step that leaves the peers alone. -/
lemma FlowEffect.frame {s s' : Shared} {i : Instr} {code : List Instr} (hp : s'.peer = s.peer)
    (hn : s'.nextPeer = s.nextPeer) (hh : s'.history.peerStarted = s.history.peerStarted)
    (hcode : ∀ j ∈ code, ∀ p, j.setsFlow p = false) : FlowEffect s i s' code where
  closed := by simp [hp]
  flows := by simp [hp,hh]
  fresh := fun p h₁ h₂ => absurd (hn ▸ h₂) (not_lt.mpr h₁)
  code := fun j hj p h => by simp [hcode j hj p] at h

/-- A step that changes one peer. -/
lemma FlowEffect.setPeer {s : Shared} {i : Instr} {code : List Instr} {q : PeerId}
    {f : PeerConnection → PeerConnection}
    (hc : (s.peer q).closed = true → (f (s.peer q)).closed = true)
    (hf : i.setsFlow q = false → (f (s.peer q)).closed = false →
      (f (s.peer q)).flows = (s.peer q).flows)
    (hcode : ∀ j ∈ code, ∀ p, j.setsFlow p = true → p = q ∧ (f (s.peer q)).closed = true) :
    FlowEffect s i (s.setPeer q f) code where
  closed := by
    intro p _ hp
    by_cases hq : p = q
    · subst hq
      simpa [Shared.setPeer] using hc hp
    · simpa [Shared.setPeer,hq] using hp
  flows := by
    intro p _ hi hp
    refine .inl ⟨rfl,?_⟩
    by_cases hq : p = q
    · subst hq
      simp only [Shared.setPeer,Function.update_self] at hp ⊢
      exact hf hi hp
    · simp [Shared.setPeer,hq]
  fresh := fun p h₁ h₂ => absurd h₂ (not_lt.mpr h₁)
  code := by
    intro j hj p hjp
    obtain ⟨rfl,h⟩ := hcode j hj p hjp
    simpa [Shared.setPeer] using h

/-- The effect of an outcome; an exception leaves no code of its own. -/
def HasFlowEffect (s : Shared) (i : Instr) : Outcome → Prop
  | .next s' code => FlowEffect s i s' code
  | .throw s' _ => FlowEffect s i s' []
  | _ => True

section Effects
variable (s : Shared)

lemma flow_execAwait (i : Instr) (r : Option Completion) : HasFlowEffect s i (execAwait r s) := by
  fun_cases execAwait r s
  · trivial
  · exact .frame rfl rfl rfl (by simp)
  · exact .frame rfl rfl rfl (by simp)

lemma flow_channel (c : ChannelId) (i : ChannelInstr) :
    HasFlowEffect s (.channel c i) (DataChannel.exec c i s) := by
  fun_cases DataChannel.exec c i s
  case case7 => exact flow_execAwait s _ _
  case case9 e code he =>
    refine .frame rfl rfl rfl ?_
    unfold DataChannel.handleNativeEvent at he
    split at he <;> cases he <;> simp [Instr.setsFlow]
  case case17 b _ =>
    refine .frame rfl rfl rfl ?_
    cases b <;> simp [DataChannel.teardown,Instr.setsFlow]
  all_goals exact .frame rfl rfl rfl (by simp [DataChannel.closeBody,Instr.setsFlow])

lemma enumValue_ok {α : Type} {values : List α} {n : ℤ} {name : String} {v : α}
    (h : PeerConnection.enumValue values n name = .ok v) : getOrNull values n = some v := by
  unfold PeerConnection.enumValue at h
  split at h <;> cases h
  assumption

/-- The peer has begun to handle the event. -/
def Updated (p : PeerId) (e : NativeEvent) (s s' : Shared) : Prop :=
  (∀ q, (s'.peer q).closed = (s.peer q).closed) ∧
    ∀ q, (s'.peer q).flows = if q = p then (s.peer p).flows.update e else (s.peer q).flows

lemma updated_setPeer {p : PeerId} {e : NativeEvent} {f : PeerConnection → PeerConnection}
    (hc : (f (s.peer p)).closed = (s.peer p).closed)
    (hf : (f (s.peer p)).flows = (s.peer p).flows.update e) : Updated p e s (s.setPeer p f) := by
  refine ⟨fun q => ?_,fun q => ?_⟩
  · by_cases hq : q = p
    · subst hq
      simpa [Shared.setPeer] using hc
    · simp [Shared.setPeer,hq]
  · by_cases hq : q = p
    · subst hq
      simpa [Shared.setPeer] using hf
    · simp [Shared.setPeer,hq]

lemma updated_of_not_state {p : PeerId} {e : NativeEvent}
    (h : (s.peer p).flows.update e = (s.peer p).flows) : Updated p e s s := by
  refine ⟨fun q => rfl,fun q => ?_⟩
  split_ifs with hq
  · rw [h,hq]
  · rfl

/-- A state event is accepted if its number names a state. -/
lemma state_ok {α : Type} {values : List α} {n : ℤ} {name : String} {f : α → Shared} {s' : Shared}
    {code : List Instr}
    (h : (do let v ← PeerConnection.enumValue values n name; return (f v,[])) =
      (Except.ok (s',code) : Except Exn (Shared × List Instr))) :
    ∃ v, getOrNull values n = some v ∧ s' = f v := by
  cases hv : PeerConnection.enumValue values n name with
  | error x =>
    rw [hv] at h
    cases h
  | ok v =>
    rw [hv] at h
    cases h
    exact ⟨v,enumValue_ok hv,rfl⟩

lemma flows_handleNativeEvent {p : PeerId} {e : NativeEvent} {s' : Shared} {code : List Instr}
    (h : PeerConnection.handleNativeEvent p e s = .ok (s',code)) : Updated p e s s' := by
  unfold PeerConnection.handleNativeEvent at h
  split at h
  case h_1 hk | h_6 hk | h_7 hk =>
    cases h
    exact updated_of_not_state s (by simp [Flows.update,hk])
  case h_2 hk =>
    obtain ⟨v,hv,rfl⟩ := state_ok h
    exact updated_setPeer s rfl (by simp [PeerConnection.flows,Flows.update,hk,hv])
  case h_3 hk =>
    obtain ⟨v,hv,rfl⟩ := state_ok h
    exact updated_setPeer s rfl (by simp [PeerConnection.flows,Flows.update,hk,hv])
  case h_4 hk =>
    obtain ⟨v,hv,rfl⟩ := state_ok h
    exact updated_setPeer s rfl (by simp [PeerConnection.flows,Flows.update,hk,hv])
  case h_5 hk =>
    obtain ⟨v,hv,rfl⟩ := state_ok h
    exact updated_setPeer s rfl (by simp [PeerConnection.flows,Flows.update,hk,hv])
  case h_8 | h_9 => cases h
  case h_10 kind hk h₁ h₂ h₃ h₄ h₅ h₆ h₇ h₈ =>
    have hnot : ∀ f : Flows, f.update e = f := by
      intro f
      unfold Flows.update
      split <;> simp_all
    unfold PeerConnection.routeDataChannelEvent at h
    split at h
    · cases h
      exact updated_of_not_state s (hnot _)
    · cases h
      exact updated_setPeer s rfl (hnot _).symm

lemma flow_handle {p : PeerId} {e : NativeEvent} {s' : Shared} {code : List Instr}
    (h : PeerConnection.handleNativeEvent p e s = .ok (s',code)) :
    FlowEffect s (.peer p (.handle e))
      (s'.record fun h => { h with peerStarted := h.peerStarted ++ [(p,e)] })
      (code ++ [.peer p (.handled e)]) := by
  have hh := PeerConnection.handled_of_handleNativeEvent h
  have hk := PeerConnection.keeps_of_handled hh
  obtain ⟨hclosed,hflows⟩ := flows_handleNativeEvent s h
  refine ⟨fun q _ hq => (hclosed q).trans hq,fun q _ _ _ => ?_,fun q h₁ h₂ => ?_,fun j hj q hjq => ?_⟩
  · simp only [Shared.record,hk.history,of_append,hflows q]
    by_cases hq : q = p
    · subst hq
      exact .inr ⟨e,by simp,by simp⟩
    · exact .inl ⟨by simp [of_singleton_of_ne (Ne.symm hq)],by simp [hq]⟩
  · exact absurd (hk.nextPeer ▸ h₂) (not_lt.mpr h₁)
  · rcases List.mem_append.mp hj with hj | hj
    · cases hh <;> simp at hj <;> subst hj <;> cases hjq
    · cases List.mem_singleton.mp hj
      cases hjq

variable {s} in
lemma FlowEffect.newChannel {p : PeerId} {handle : ℤ} {info : ChannelInfo} {b : Bool} {i : Instr}
    {s' : Shared} {code : List Instr} (h : FlowEffect (s.newChannel p handle info b) i s' code) :
    FlowEffect s i s' code := ⟨h.closed,h.flows,h.fresh,h.code⟩

lemma flow_peer (p : PeerId) (i : PeerInstr) :
    HasFlowEffect s (.peer p i) (PeerConnection.exec p i s) := by
  fun_cases PeerConnection.exec p i s
  case case3 =>
    refine .newChannel (.setPeer id (fun _ _ => rfl) ?_)
    intro j hj q hjq
    simp only [List.mem_append,List.mem_map,List.mem_singleton] at hj
    rcases hj with ⟨e,-,rfl⟩ | rfl <;> cases hjq
  case case8 => exact flow_execAwait s _ _
  case case10 e s' code he => exact flow_handle s he
  case case13 b _ _ =>
    refine .newChannel (.setPeer id (fun _ _ => rfl) ?_)
    intro j hj q hjq
    simp only [List.mem_append,List.mem_singleton,List.mem_map,or_assoc] at hj
    rcases hj with rfl | ⟨e,-,rfl⟩ | hj
    · cases hjq
    · cases hjq
    · split_ifs at hj
      · cases List.mem_singleton.mp hj
        cases hjq
      · cases hj
  case case17 b _ =>
    refine .setPeer (by simp) (by simp) ?_
    simp [PeerConnection.teardown,Instr.setsFlow]
  case case20 v => exact .setPeer id (by simp [Instr.setsFlow]) (by simp)
  case case21 v => exact .setPeer id (by simp [Instr.setsFlow]) (by simp)
  case case6 | case14 | case18 | case19 | case22 =>
    exact .setPeer id (fun _ _ => rfl) (by simp [PeerConnection.closeBody,Instr.setsFlow])
  all_goals exact .frame rfl rfl rfl (by simp [Instr.setsFlow])

lemma flow_newPeer (i : Instr) (handle : ℤ) (capacity : ReceiveQueueCapacity) (timeout : ℤ) :
    FlowEffect s i (s.newPeer handle capacity timeout) [.runtime (.registerLock s.nextPeer)] where
  closed := by
    intro p hp hc
    have hne : p ≠ s.nextPeer := Nat.ne_of_lt hp
    simpa [Shared.newPeer,hne] using hc
  flows := by
    intro p hp _ _
    have hne : p ≠ s.nextPeer := Nat.ne_of_lt hp
    exact .inl ⟨rfl,by simp [Shared.newPeer,hne]⟩
  fresh := by
    intro p h₁ h₂
    obtain rfl : p = s.nextPeer := le_antisymm (Nat.lt_succ_iff.mp h₂) h₁
    exact ⟨rfl,by simp [Shared.newPeer,PeerConnection.flows,Flows.initial]⟩
  code := by simp [Instr.setsFlow]

lemma flow_resume (op : ℤ) (r : Resume) (e : NativeEvent) :
    HasFlowEffect s (.submit (.await op r)) (WebRtcRuntime.resume r e s) := by
  fun_cases WebRtcRuntime.resume r e s
  case case8 => exact flow_newPeer s _ _ _ _
  all_goals exact .frame rfl rfl rfl (by simp [Instr.setsFlow])

lemma flow_submit (t : TaskId) (i : SubmitInstr) :
    HasFlowEffect s (.submit i) (WebRtcRuntime.execSubmit t i s) := by
  fun_cases WebRtcRuntime.execSubmit t i s
  case case3 => exact WebRtcRuntime.withLock_of trivial (.frame rfl rfl rfl (by simp [Instr.setsFlow]))
  case case10 => trivial
  case case11 => exact flow_resume s _ _ _
  all_goals exact .frame rfl rfl rfl (by simp [Instr.setsFlow])

lemma flow_loop (i : LoopInstr) : HasFlowEffect s (.loop i) (WebRtcRuntime.execLoop i s) := by
  fun_cases WebRtcRuntime.execLoop i s
  case case4 =>
    refine .frame rfl rfl rfl (List.forall_mem_singleton.mpr fun p => ?_)
    split_ifs <;> rfl
  case case5 | case6 =>
    refine WebRtcRuntime.withLock_of trivial ?_
    split <;> exact .frame rfl rfl rfl (by simp [Instr.setsFlow])
  all_goals exact .frame rfl rfl rfl (by simp [Instr.setsFlow])

lemma flow_runtime (t : TaskId) (i : RuntimeInstr) :
    HasFlowEffect s (.runtime i) (WebRtcRuntime.execRuntime t i s) := by
  fun_cases WebRtcRuntime.execRuntime t i s
  case case2 | case21 =>
    exact WebRtcRuntime.withLock_of trivial (.frame rfl rfl rfl (by simp [Instr.setsFlow]))
  case case5 =>
    refine .frame rfl rfl rfl ?_
    intro j hj q
    simp only [List.mem_append,List.mem_map,List.mem_singleton] at hj
    rcases hj with ⟨e,-,rfl⟩ | rfl <;> rfl
  case case7 =>
    refine WebRtcRuntime.withLock_of trivial ?_
    split_ifs <;> exact .frame rfl rfl rfl (by simp)
  case case11 => exact flow_execAwait s _ _
  case case15 =>
    refine WebRtcRuntime.withLock_of trivial (.frame rfl rfl rfl ?_)
    intro j hj q
    simp only [WebRtcRuntime.afterDrain,List.mem_append,List.mem_map,List.mem_cons,
      List.not_mem_nil,or_false] at hj
    rcases hj with (⟨p,-,rfl⟩ | ⟨op,-,rfl⟩) | rfl | rfl <;> rfl
  all_goals
    exact .frame rfl rfl rfl
      (by simp [WebRtcRuntime.closeBody,WebRtcRuntime.teardown,Instr.setsFlow])

theorem flowEffect_exec (x : Choice) (t : TaskId) (i : Instr) :
    HasFlowEffect s i (exec x t i s) := by
  cases x with
  | ok =>
    cases i with
    | send q y =>
      simp only [exec,execOk,execSend]
      split_ifs <;> exact .frame rfl rfl rfl (by simp [Instr.setsFlow])
    | sendSuspended q y =>
      simp only [exec,execOk,execSendSuspended]
      split_ifs
      · exact .frame rfl rfl rfl (by simp)
      · trivial
    | closeQueue q => exact .frame rfl rfl rfl (by simp)
    | channel c i => exact flow_channel s c i
    | peer p i => exact flow_peer s p i
    | submit i => exact flow_submit s t i
    | loop i => exact flow_loop s i
    | runtime i => exact flow_runtime s t i
  | fail message =>
    simp only [exec]
    fun_cases execFail message i s <;> first | trivial | exact .frame rfl rfl rfl (by simp [Instr.setsFlow])
  | cancel =>
    simp only [exec]
    fun_cases execCancel i s <;> first | trivial | exact .frame rfl rfl rfl (by simp)

end Effects

/-- The state flows of a peer that is not closed have the values of the last state events it
has begun to handle. -/
structure FlowsKept (c : Config) : Prop where
  flows : ∀ p < c.shared.nextPeer, (c.shared.peer p).closed = false →
    (c.shared.peer p).flows = .after (of p c.shared.history.peerStarted)
  pending : ∀ t, ∀ j ∈ c.tasks t, ∀ p, j.setsFlow p = true → (c.shared.peer p).closed = true

lemma allocated_of_setsFlow {j : Instr} {p : PeerId} {s : Shared} (h : j.setsFlow p = true)
    (ha : j.Allocated s) : p < s.nextPeer := by
  unfold Instr.setsFlow at h
  split at h <;> first | (cases of_decide_eq_true h; exact ha) | cases h

lemma setsFlow_handler {e : Exn} {i : Instr} {code : List Instr} (h : handler e i = some code) :
    ∀ j ∈ code, ∀ p, j.setsFlow p = false := by
  unfold handler at h
  split at h <;> cases h <;> simp [Instr.setsFlow]

lemma FlowsKept.effect {c : Config} {t : TaskId} {i : Instr} {rest code : List Instr} {s : Shared}
    (h : FlowsKept c) (hreg : Registered c) (head : c.tasks t = i :: rest)
    (he : FlowEffect c.shared i s code) : ∀ p < s.nextPeer, (s.peer p).closed = false →
      (s.peer p).flows = .after (of p s.history.peerStarted) := by
  intro p hp hclosed
  rcases lt_or_ge p c.shared.nextPeer with hlt | hge
  · have hopen : (c.shared.peer p).closed = false := by
      rw [Bool.eq_false_iff]
      intro hc
      rw [he.closed p hlt hc] at hclosed
      cases hclosed
    have hi : i.setsFlow p = false := by
      rw [Bool.eq_false_iff]
      intro hi
      rw [h.pending t i (by simp [head]) p hi] at hopen
      cases hopen
    rcases he.flows p hlt hi hclosed with ⟨hs,hf⟩ | ⟨e,hs,hf⟩
    · rw [hs,hf]
      exact h.flows p hlt hopen
    · rw [hs,hf,h.flows p hlt hopen,Flows.after_concat]
  · obtain ⟨hs,hf⟩ := he.fresh p hge hp
    rw [hs,hf,(hreg.freshPeer p hge).1]
    rfl

theorem flowsKept_of_reachable {shutdownTimeout : ℤ} {fingerprint : String}
    {ok : Label → Config → Prop} {c : Config} (h : Reachable shutdownTimeout fingerprint ok c) :
    FlowsKept c := by
  refine h.induct ?_ fun l d d' hd hI _ hs => ?_
  · refine ⟨by simp [init],fun t j hj p hjp => ?_⟩
    simp only [init] at hj
    split_ifs at hj
    · simp only [List.mem_cons,List.not_mem_nil,or_false] at hj
      rcases hj with rfl | rfl <;> cases hjp
    · cases hj
  · have hc := constructed_of_reachable hd
    have hreg := registered_of_reachable hd
    cases step_cases hs with
    | @task _ x t _ hl active ht =>
      have heff : ∀ i s code, exec x t i d.shared = .next s code → FlowEffect d.shared i s code := by
        intro i s code he
        have := flowEffect_exec d.shared x t i
        rwa [he] at this
      have hthrow : ∀ i s e, exec x t i d.shared = .throw s e → FlowEffect d.shared i s [] := by
        intro i s e he
        have := flowEffect_exec d.shared x t i
        rwa [he] at this
      refine ⟨?_,?_⟩
      · cases ht with
        | next head he => exact hI.effect hreg head (heff _ _ _ he)
        | throw head he => exact hI.effect hreg head (hthrow _ _ _ he)
      · refine ht.assertions
          (A := fun s _ j => ∀ p, j.setsFlow p = true → (s.peer p).closed = true) hI.pending ?_ ?_
        · intro i rest s code head he
          have heff := heff i s code he
          refine ⟨heff.code,fun t' j ho hA p hjp => ?_⟩
          exact heff.closed p (allocated_of_setsFlow hjp (hc.code t' j (ho.mem head))) (hA p hjp)
        · intro i rest s e head he
          have heff := hthrow i s e he
          refine ⟨fun k _ _ code hh j hj p hjp => ?_,fun t' j ho hA p hjp => ?_⟩
          · rw [setsFlow_handler hh j hj p] at hjp
            cases hjp
          · exact heff.closed p (allocated_of_setsFlow hjp (hc.code t' j (ho.mem head))) (hA p hjp)
    | @call t a ht idle admitted =>
      refine ⟨hI.flows,fun t' j hj p hjp => ?_⟩
      by_cases hne : t' = t
      · subst hne
        simp only [Function.update_self] at hj
        have hcode : ∀ j ∈ a.code d.shared, j.setsFlow p = false := by
          cases a <;> simp [Api.code,Instr.setsFlow]
        rw [hcode j hj] at hjp
        cases hjp
      · simp only [Function.update_of_ne hne] at hj
        exact hI.pending t' j hj p hjp
    | receive ht idle hr =>
      obtain ⟨x,xs,known,-,-,rfl⟩ := receive_cases hr
      exact ⟨hI.flows,hI.pending⟩
    | cancel | native => exact ⟨hI.flows,hI.pending⟩

end Kestara.Kotlin
