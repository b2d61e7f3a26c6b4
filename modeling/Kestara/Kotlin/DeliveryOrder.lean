import Kestara.Kotlin.Relaying
import Kestara.Kotlin.StateFlows

/-!
# Order of the deliveries

A registration publishes its object under the mutex and replays the parked events after it has
released the mutex. Meanwhile the event loop finds the object and hands it later events
directly. Runs in which an event is handed on directly only after the replay keep the order.
-/
namespace Kestara.Kotlin
open Interleaving Relay

/-- The events polled for a peer. The loop hands a completion to its operation and not to the peer
whose handle it carries. -/
def peerEvents (handle : ℤ) (polled : List NativeEvent) : List NativeEvent :=
  ofPeer handle (polled.filter fun e => e.kind? ≠ some .operationComplete)

/-- The events of an object are applied to it in the order in which the loop polled them. A
handle stands for the object that has been registered under it. -/
structure DeliveredInOrder (c : Config) : Prop where
  /-- The order in which `PeerConnection.handleNativeEvent` is entered, and left. -/
  peerStarted : ∀ p, (of p c.shared.history.peerStarted).Sublist
    (ofPeer (c.shared.peer p).handle c.shared.history.polled)
  peerHandled : ∀ p, (of p c.shared.history.peerHandled).Sublist
    (ofPeer (c.shared.peer p).handle c.shared.history.polled)
  /-- The order in which `DataChannel.handleNativeEvent` is entered, and left. -/
  channelStarted : ∀ d, (of d c.shared.history.channelStarted).Sublist
    (ofChannel (c.shared.channel d).handle
      (ofPeer (c.shared.peer (c.shared.channel d).owner).handle c.shared.history.polled))
  channelHandled : ∀ d, (of d c.shared.history.channelHandled).Sublist
    (ofChannel (c.shared.channel d).handle
      (ofPeer (c.shared.peer (c.shared.channel d).owner).handle c.shared.history.polled))
  /-- The messages in `messageChannel` are in native order. -/
  messages : ∀ d, (c.shared.history.messages d).Sublist
    ((ofChannel (c.shared.channel d).handle
      (ofPeer (c.shared.peer (c.shared.channel d).owner).handle
        c.shared.history.polled)).filterMap DataChannel.message?)
  /-- When all events polled for a peer have been applied, its state flows have the values of
  the last state events polled. -/
  flows : ∀ p < c.shared.nextPeer, (c.shared.peer p).closed = false →
    (of p c.shared.history.peerStarted).length =
      (peerEvents (c.shared.peer p).handle c.shared.history.polled).length →
    (c.shared.peer p).flows = .after (peerEvents (c.shared.peer p).handle c.shared.history.polled)

/-- A peer refuses the completion of an operation. -/
lemma kind_of_started {shutdownTimeout : ℤ} {fingerprint : String} {ok : Label → Config → Prop}
    {c : Config} (h : Reachable shutdownTimeout fingerprint ok c) :
    ∀ x ∈ c.shared.history.peerStarted, x.2.kind? ≠ some .operationComplete := by
  refine h.invariant (I := fun c =>
    ∀ x ∈ c.shared.history.peerStarted, x.2.kind? ≠ some .operationComplete) (by simp [init]) ?_
  intro l d d' hI _ hs
  obtain hquiet | ⟨t,x,i,rest,s,code,-,-,-,hmove,rfl⟩ := delivery_cases hs
  · rw [hquiet.same.peerStarted]
    exact hI
  · cases hmove with
    | @handle p e s' code he =>
      have hkept := PeerConnection.keeps_of_handled (PeerConnection.handled_of_handleNativeEvent he)
      intro y hy
      simp only [Shared.record,hkept.history,List.mem_append,List.mem_singleton] at hy
      obtain hy | rfl := hy
      · exact hI y hy
      · intro hk
        simp [PeerConnection.handleNativeEvent,hk] at he
    | proceed hi hn hj same =>
      rw [same.peerStarted]
      exact hI
    | _ => exact hI

lemma started_sublist {c : Config} {p : PeerId} {handle : ℤ}
    (hkind : ∀ x ∈ c.shared.history.peerStarted, x.2.kind? ≠ some .operationComplete)
    (h : (of p c.shared.history.peerStarted).Sublist (ofPeer handle c.shared.history.polled)) :
    (of p c.shared.history.peerStarted).Sublist (peerEvents handle c.shared.history.polled) := by
  have hfilter := h.filter fun e => e.kind? ≠ some NativeEventKind.operationComplete
  have hself : (of p c.shared.history.peerStarted).filter
      (fun e => e.kind? ≠ some NativeEventKind.operationComplete) =
      of p c.shared.history.peerStarted := by
    rw [List.filter_eq_self]
    intro e he
    obtain ⟨x,hx,hxe⟩ := List.mem_filterMap.mp he
    split_ifs at hxe
    cases hxe
    simpa using hkind x hx
  rw [hself] at hfilter
  simpa only [peerEvents,ofPeer,List.filter_comm] using hfilter

theorem deliveredInOrder_of_handedOver {shutdownTimeout : ℤ} {fingerprint : String} {c : Config}
    (h : Reachable shutdownTimeout fingerprint HandedOver c) : DeliveredInOrder c := by
  have ho := ordered_of_reachable h
  have hstarted : ∀ p, (of p c.shared.history.peerStarted).Sublist
      (ofPeer (c.shared.peer p).handle c.shared.history.polled) :=
    fun p => (ho.peerStarted p).sublist.trans ((seen_sublist_polled c).filter _)
  have hsource : ∀ d, (channelSource c.shared d).Sublist (ofChannel (c.shared.channel d).handle
      (ofPeer (c.shared.peer (c.shared.channel d).owner).handle c.shared.history.polled)) :=
    fun d => (hstarted _).filter _
  refine ⟨hstarted,fun p => ?_,fun d => ?_,fun d => ?_,fun d => ?_,fun p hp hclosed hlen => ?_⟩
  · exact (ho.peerHandled p).sublist.trans ((seen_sublist_polled c).filter _)
  · exact (ho.channelStarted d).sublist.trans (hsource d)
  · exact (ho.channelHandled d).sublist.trans (hsource d)
  · exact (ho.messages d).sublist.trans ((hsource d).filterMap _)
  · rw [← (started_sublist (kind_of_started h) (hstarted p)).eq_of_length hlen]
    exact (flowsKept_of_reachable h).flows p hp hclosed

/-- An executable form of the condition for two coroutines. -/
def replayedFirst (l : Label) (c : Config) : Bool :=
  match l with
  | .run t => decide (t < 2) && (match c.tasks t with
    | .loop (.lookupPeer _) :: _ | .peer _ (.handle _) :: _ =>
      (c.tasks (1-t)).all fun j => !j.delivers
    | _ => true)
  | .call t _ => decide (t < 2)
  | .native _ => true
  | _ => false

lemma twoTasks_of_check (l : Label) (c c' : Config) (h : TwoTasks c) (hl : replayedFirst l c = true)
    (hs : step l c = some c') : TwoTasks c' := by
  apply h.step hs
  intro t ht
  cases l with
  | run t' =>
    cases ht
    simp only [replayedFirst,Bool.and_eq_true,decide_eq_true_eq] at hl
    exact hl.1
  | call t' a =>
    cases ht
    exact of_decide_eq_true hl
  | fail | interrupt => cases hl
  | cancel | receive | native => cases ht

lemma handedOver_of_check (l : Label) (c : Config) (h : TwoTasks c)
    (hl : replayedFirst l c = true) : HandedOver l c := by
  have hothers : ∀ t u : ℕ, t < 2 → u ≠ t → ((c.tasks (1-t)).all fun j => !j.delivers) = true →
      ∀ j ∈ c.tasks u, j.delivers = false := by
    intro t u ht hu hall j hj
    simpa using List.all_eq_true.mp hall j (h.mem_other ht hu hj)
  intro t x i rest hs head
  obtain ⟨rfl,rfl⟩ : l = .run t ∧ x = .ok := by
    cases l <;> simp [Label.scheduled] at hs <;> first | cases hl | skip
    obtain ⟨rfl,rfl⟩ := hs
    exact ⟨rfl,rfl⟩
  simp only [replayedFirst,head,Bool.and_eq_true,decide_eq_true_eq] at hl
  refine ⟨?_,?_⟩
  · rintro p e rfl - u hu j hj
    exact reads_peerFinishes p j (hothers _ u hl.1 hu hl.2 j hj)
  · rintro d ⟨p,e,rfl,-⟩ u hu j hj
    have := hothers _ u hl.1 hu hl.2 j hj
    exact ⟨reads_channelFinishes d j this,reads_channelMessage d j this⟩

def peerState (number : ℤ) : NativeEvent :=
  { kind := NativeEventKind.peerState.number, peerHandle := 7, number := number }

/-- The peer has been registered, with one parked state event to replay and another one to
come. -/
def replaying : List Label :=
  [.call 1 (.createPeerConnection ⟨1,least_range⟩ 1000)] ++ steps 1 6 ++
    [.native (peerState 1),.native (completion 1 7 0),.native (peerState 2)] ++ steps 0 7 ++ steps 1 4

/-- The events the first peer has handled, and its state. -/
def handledByFirst (c : Config) : List NativeEvent × PeerConnectionState :=
  (of 0 c.shared.history.peerHandled,(c.shared.peer 0).state)

/-- The first peer is open and has begun to handle every event polled for it. -/
def upToDate (c : Config) : Bool :=
  decide (0 < c.shared.nextPeer ∧ (c.shared.peer 0).closed = false ∧
    (of 0 c.shared.history.peerStarted).length =
      (peerEvents (c.shared.peer 0).handle c.shared.history.polled).length)

theorem deliveredInOrder_replayedFirst : ∃ c, Reachable 1000 "" HandedOver c ∧
    handledByFirst c = ([peerState 1,peerState 2],.connected) ∧ DeliveredInOrder c ∧
      (c.shared.peer 0).flows =
        .after (peerEvents (c.shared.peer 0).handle c.shared.history.polled) := by
  have hrun : (run (fun a d => if replayedFirst a d then step a d else none)
      (replaying ++ steps 1 3 ++ steps 0 5) (init 1000 "")).map
        (fun c => (handledByFirst c,upToDate c)) =
      some (([peerState 1,peerState 2],.connected),true) := by
    rfl
  obtain ⟨c,hc,hw⟩ := Option.map_eq_some_iff.mp hrun
  obtain ⟨hhandled,hdone⟩ := Prod.mk.inj hw
  obtain ⟨hpeer,hopen,hlength⟩ := of_decide_eq_true hdone
  have hr : Reachable 1000 "" HandedOver c :=
    reaches_of_guarded twoTasks_of_check handedOver_of_check (twoTasks_init 1000 "") hc
  have hordered := deliveredInOrder_of_handedOver hr
  exact ⟨c,hr,hhandled,hordered,hordered.flows 0 hpeer hopen hlength⟩

/-- No close and no cancellation. -/
def Label.undisturbed : Label → Bool
  | .cancel _ | .fail _ _ | .call _ .runtimeClose | .call _ (.peerClose _)
  | .call _ (.channelClose _) => false
  | _ => true

/-- The loop hands the peer the later event before the parked one has been replayed: the peer
ends in the state of the earlier event. -/
theorem replay_is_overtaken : ∃ c, Reachable 1000 "" (fun l _ => l.undisturbed = true) c ∧
    handledByFirst c = ([peerState 2,peerState 1],.connecting) ∧ ¬DeliveredInOrder c := by
  have hrun : (run (fun a d => if a.undisturbed then step a d else none)
      (replaying ++ steps 0 5 ++ steps 1 2) (init 1000 "")).map (fun c => (handledByFirst c,
        ofPeer (c.shared.peer 0).handle c.shared.history.polled)) =
      some (([peerState 2,peerState 1],.connecting),[peerState 1,completion 1 7 0,peerState 2]) := by
    rfl
  obtain ⟨c,hc,hw⟩ := Option.map_eq_some_iff.mp hrun
  obtain ⟨hhandled,hpolled⟩ := Prod.mk.inj hw
  refine ⟨c,reaches_of_checked (fun a d h => h) hc,hhandled,fun h => ?_⟩
  have hsub := h.peerHandled 0
  rw [hpolled,(Prod.mk.inj hhandled).1] at hsub
  revert hsub
  decide

end Kestara.Kotlin
