import Kestara.Kotlin.Nesting

/-!
# Passing events on

Per object there are two records of what has been delivered to it, and the instructions that
are left to be run say what is going to be. An instruction moves an event from the one to the
other; only a lookup or a registration adds events.
-/
namespace Kestara.Kotlin
open Interleaving Relay

/-- What has been done and what is left to do, before and after one instruction: nothing is
added. -/
structure Passes {α : Type*} (k : Instr → Option α) (i : Instr) (code : List Instr)
    (done done' : List α) : Prop where
  grows : done.Sublist done'
  moves : (done' ++ code.filterMap k).Sublist (done ++ [i].filterMap k)

section Passes
variable {α : Type*} {k : Instr → Option α} {i : Instr} {code : List Instr} {done done' : List α}

/-- The instruction delivers nothing. -/
lemma Passes.idle (h : code.filterMap k = []) (hd : done' = done) : Passes k i code done done' := by
  subst hd
  refine ⟨.refl _,?_⟩
  rw [h,List.append_nil]
  exact List.sublist_append_left _ _

/-- The items of the instruction are done, or are still items of the code it leaves. -/
lemma Passes.advance (items : List α) (hd : done' = done ++ items)
    (h : items ++ code.filterMap k = [i].filterMap k) : Passes k i code done done' := by
  subst hd
  refine ⟨List.sublist_append_left _ _,?_⟩
  rw [List.append_assoc,h]

lemma Passes.nil (h : Passes k i code [] done') (hi : k i = none) :
    done' = [] ∧ code.filterMap k = [] := by
  have hm := h.moves
  simp only [List.nil_append,List.filterMap_cons,hi,List.filterMap_nil,List.sublist_nil,
    List.append_eq_nil_iff] at hm
  exact hm

end Passes

section Code
variable {α : Type*} {k : Instr → Option α} {s s' : Shared} {code : List Instr}

lemma ReadsDeliveries.polled (hk : ReadsDeliveries k) {j : Instr} {e : NativeEvent}
    (h : j.inert = true ∨ j = .loop (.lookupPeer e)) : [j].filterMap k = [] := by
  refine hk.nil (List.forall_mem_singleton.mpr ?_)
  rcases h with h | rfl
  · exact delivers_of_inert h
  · rfl

lemma ReadsDeliveries.registers (hk : ReadsDeliveries k) {j : Instr} {p : PeerId}
    (h : j.registers p = true) : [j].filterMap k = [] :=
  hk.nil (List.forall_mem_singleton.mpr (delivers_of_registers h))

/-- A registration of a channel leaves deliveries of the parked events only. -/
lemma ReadsDeliveries.registerChannel (hk : ReadsDeliveries k) {p : PeerId} {events : List NativeEvent}
    {c : ChannelId} {before after : List Instr}
    (hb : ∀ j ∈ before, ∃ x, j = .send (.incomingDataChannel p) x)
    (ha : ∀ j ∈ after, j.inert = true) :
    (before ++ events.map (fun e => Instr.channel c (.handle e)) ++ after).filterMap k =
      events.filterMap fun e => k (.channel c (.handle e)) := by
  have hb' : before.filterMap k = [] := hk.nil fun j hj => by
    obtain ⟨x,rfl⟩ := hb j hj
    rfl
  rw [List.filterMap_append,List.filterMap_append,hb',hk.nil fun j hj => delivers_of_inert (ha j hj),
    List.nil_append,List.append_nil,List.filterMap_map]
  rfl

/-- What a peer delivers further is a delivery to a channel. -/
lemma ReadsDeliveries.handled (hk : ReadsDeliveries k) {p : PeerId} {e : NativeEvent}
    (h : PeerConnection.Handled p e s s' code) : code.filterMap k = [] ∨
      ∃ c, (s.peer p).channels.lookup e.channelHandle = some c ∧ code = [.channel c (.handle e)] := by
  cases h with
  | @deliver c hc => exact .inr ⟨c,hc,rfl⟩
  | candidate hc | state v ice gathering signaling | negotiation hc | register hc | park hc =>
    exact .inl (hk.nil (by simp [Instr.delivers]))

lemma filterMap_handleNativeEvent {c : ChannelId} {e : NativeEvent}
    (h : DataChannel.handleNativeEvent c e = .ok code) (p : PeerId) (d : ChannelId) :
    code.filterMap (Instr.peerBegins p) = [] ∧ code.filterMap (Instr.peerFinishes p) = [] ∧
      code.filterMap (Instr.channelBegins d) = [] ∧ code.filterMap (Instr.channelFinishes d) = [] ∧
      code.filterMap (Instr.channelMessage d) =
        if c = d then (DataChannel.message? e).toList else [] := by
  unfold DataChannel.handleNativeEvent at h
  split at h <;> cases h <;> split_ifs with hd <;>
    simp_all [Instr.peerBegins,Instr.peerFinishes,Instr.channelBegins,Instr.channelFinishes,
      Instr.channelMessage,DataChannel.message?]

end Code

namespace Move
variable {s s' : Shared} {i : Instr} {code : List Instr}

/-- The instruction hands an event to the peer from outside of a delivery. -/
def Feeds (s : Shared) (p : PeerId) (i : Instr) : Prop :=
  (∃ e, i = .loop (.lookupPeer e) ∧ s.runtime.peers.lookup e.peerHandle = some p) ∨
    i = .runtime (.registerPeer p)

lemma passes_peerBegins (h : Move s i s' code) (p : PeerId) (hf : ¬Feeds s p i) :
    Passes (Instr.peerBegins p) i code (of p s.history.peerStarted) (of p s'.history.peerStarted) := by
  have hk := reads_peerBegins p
  cases h with
  | @direct e q found =>
    have hq : q ≠ p := fun hq => hf (.inl ⟨e,rfl,hq ▸ found⟩)
    exact .idle (by simp [Instr.peerBegins,hq]) rfl
  | registerPeer q =>
    have hq : q ≠ p := fun hq => hf (.inr (hq ▸ rfl))
    exact .idle (by simp [Instr.peerBegins,hq]) rfl
  | @handle q e s' code h =>
    have hh := PeerConnection.handled_of_handleNativeEvent h
    refine .advance ([Instr.peer q (.handle e)].filterMap (Instr.peerBegins p)) ?_ ?_
    · by_cases hq : q = p <;>
        simp [Shared.record,(PeerConnection.keeps_of_handled hh).history,Instr.peerBegins,of,hq]
    · rcases hk.handled hh with hn | ⟨c,-,rfl⟩
      · simp [hn,Instr.peerBegins]
      · simp [Instr.peerBegins]
  | channelHandle h =>
    exact .idle (by simp [(filterMap_handleNativeEvent h p 0).1,Instr.peerBegins]) rfl
  | registerChannel before after hi hb ha =>
    exact .idle (by rw [hk.registerChannel hb ha]; simp [Instr.peerBegins]) rfl
  | poll hj => exact .idle (hk.polled hj) rfl
  | proceed hi hne hj same => exact .idle (hk.registers hj) (by rw [same.peerStarted])
  | park missing | construct h' c' t' | handled q e | channelHandled c e | put hi | suspend q x =>
    exact .idle (by simp [Instr.peerBegins]) rfl

lemma passes_peerFinishes (h : Move s i s' code) (p : PeerId) (hf : ¬Feeds s p i) :
    Passes (Instr.peerFinishes p) i code (of p s.history.peerHandled)
      (of p s'.history.peerHandled) := by
  have hk := reads_peerFinishes p
  cases h with
  | @direct e q found =>
    have hq : q ≠ p := fun hq => hf (.inl ⟨e,rfl,hq ▸ found⟩)
    exact .idle (by simp [Instr.peerFinishes,hq]) rfl
  | registerPeer q =>
    have hq : q ≠ p := fun hq => hf (.inr (hq ▸ rfl))
    exact .idle (by simp [Instr.peerFinishes,hq]) rfl
  | @handle q e s' code h =>
    have hh := PeerConnection.handled_of_handleNativeEvent h
    refine .advance [] ?_ ?_
    · simp [Shared.record,(PeerConnection.keeps_of_handled hh).history]
    · rcases hk.handled hh with hn | ⟨c,-,rfl⟩
      · simp [hn,Instr.peerFinishes,List.filterMap_cons]
      · simp [Instr.peerFinishes,List.filterMap_cons]
  | handled q e =>
    refine .advance ([Instr.peer q (.handled e)].filterMap (Instr.peerFinishes p)) ?_ ?_
    · by_cases hq : q = p <;> simp [Shared.record,Instr.peerFinishes,of,hq]
    · simp
  | channelHandle h =>
    exact .idle (by simp [(filterMap_handleNativeEvent h p 0).2.1,Instr.peerFinishes]) rfl
  | registerChannel before after hi hb ha =>
    exact .idle (by rw [hk.registerChannel hb ha]; simp [Instr.peerFinishes]) rfl
  | poll hj => exact .idle (hk.polled hj) rfl
  | proceed hi hne hj same => exact .idle (hk.registers hj) (by rw [same.peerHandled])
  | park missing | construct h' c' t' | channelHandled c e | put hi | suspend q x =>
    exact .idle (by simp [Instr.peerFinishes]) rfl

/-- The instruction hands an event to the registered channel from inside the peer. -/
def Routes (s : Shared) (d : ChannelId) (i : Instr) : Prop :=
  ∃ p e, i = .peer p (.handle e) ∧
    PeerConnection.handleNativeEvent p e s = .ok (s,[.channel d (.handle e)])

section Channel
variable {d : ChannelId}

lemma ne_nextChannel (hn : d < s.nextChannel ∨ s.nextChannel+1 ≤ d) : s.nextChannel ≠ d := by
  rcases hn with hn | hn
  · exact Nat.ne_of_gt hn
  · exact Nat.ne_of_lt hn

/-- An event that is not for the channel leaves no delivery to it. -/
lemma handle_of_not_routes {α : Type*} {k : Instr → Option α} (hk : ReadsDeliveries k) {p : PeerId}
    {e : NativeEvent} (h : PeerConnection.handleNativeEvent p e s = .ok (s',code))
    (hr : ¬Routes s d (.peer p (.handle e)))
    (hd : ∀ c, c ≠ d → k (.channel c (.handle e)) = none) : code.filterMap k = [] := by
  have hh := PeerConnection.handled_of_handleNativeEvent h
  rcases hk.handled hh with hn | ⟨c,hc,rfl⟩
  · exact hn
  · have hs : s' = s := by
      generalize hl : [Instr.channel c (.handle e)] = l at hh
      cases hh <;> first | rfl | cases hl
    subst hs
    have hcd : c ≠ d := fun hcd => hr ⟨p,e,rfl,hcd ▸ h⟩
    simp [hd c hcd]

lemma passes_channelBegins (h : Move s i s' code) (hn : d < s.nextChannel ∨ s'.nextChannel ≤ d)
    (hr : ¬Routes s d i) :
    Passes (Instr.channelBegins d) i code (of d s.history.channelStarted)
      (of d s'.history.channelStarted) := by
  have hk := reads_channelBegins d
  cases h with
  | @handle q e s' code h =>
    have hh := PeerConnection.handled_of_handleNativeEvent h
    refine .idle ?_ (by simp [Shared.record,(PeerConnection.keeps_of_handled hh).history])
    have := handle_of_not_routes hk h hr (fun c hc => by simp [Instr.channelBegins,hc])
    simp [this,Instr.channelBegins]
  | @channelHandle c e code h =>
    refine .advance ([Instr.channel c (.handle e)].filterMap (Instr.channelBegins d)) ?_ ?_
    · by_cases hc : c = d <;> simp [Shared.record,Instr.channelBegins,of,hc]
    · simp [(filterMap_handleNativeEvent h 0 d).2.2.1,Instr.channelBegins]
  | registerChannel before after hi hb ha =>
    refine .idle ?_ rfl
    rw [hk.registerChannel hb ha]
    simp [Instr.channelBegins,ne_nextChannel hn]
  | poll hj => exact .idle (hk.polled hj) rfl
  | proceed hi hne hj same => exact .idle (hk.registers hj) (by rw [same.channelStarted])
  | direct found | registerPeer q | park missing | construct h' c' t' | handled q e
  | channelHandled c e | put hi | suspend q x =>
    exact .idle (by simp [Instr.channelBegins]) rfl

lemma passes_channelFinishes (h : Move s i s' code) (hn : d < s.nextChannel ∨ s'.nextChannel ≤ d)
    (hr : ¬Routes s d i) :
    Passes (Instr.channelFinishes d) i code (of d s.history.channelHandled)
      (of d s'.history.channelHandled) := by
  have hk := reads_channelFinishes d
  cases h with
  | @handle q e s' code h =>
    have hh := PeerConnection.handled_of_handleNativeEvent h
    refine .idle ?_ (by simp [Shared.record,(PeerConnection.keeps_of_handled hh).history])
    have := handle_of_not_routes hk h hr (fun c hc => by simp [Instr.channelFinishes,hc])
    simp [this,Instr.channelFinishes]
  | @channelHandle c e code h =>
    refine .advance [] (by simp [Shared.record]) ?_
    simp [(filterMap_handleNativeEvent h 0 d).2.2.2.1,Instr.channelFinishes,List.filterMap_cons]
  | channelHandled c e =>
    refine .advance ([Instr.channel c (.handled e)].filterMap (Instr.channelFinishes d)) ?_ (by simp)
    by_cases hc : c = d <;> simp [Shared.record,Instr.channelFinishes,of,hc]
  | registerChannel before after hi hb ha =>
    refine .idle ?_ rfl
    rw [hk.registerChannel hb ha]
    simp [Instr.channelFinishes,ne_nextChannel hn]
  | poll hj => exact .idle (hk.polled hj) rfl
  | proceed hi hne hj same => exact .idle (hk.registers hj) (by rw [same.channelHandled])
  | direct found | registerPeer q | park missing | construct h' c' t' | handled q e | put hi
  | suspend q x => exact .idle (by simp [Instr.channelFinishes]) rfl

lemma passes_channelMessage (h : Move s i s' code) (hn : d < s.nextChannel ∨ s'.nextChannel ≤ d)
    (hr : ¬Routes s d i) :
    Passes (Instr.channelMessage d) i code (s.history.messages d) (s'.history.messages d) := by
  have hk := reads_channelMessage d
  cases h with
  | @handle q e s' code h =>
    have hh := PeerConnection.handled_of_handleNativeEvent h
    refine .idle ?_ (by
      simp [Shared.record,History.messages,(PeerConnection.keeps_of_handled hh).history])
    have := handle_of_not_routes hk h hr (fun c hc => by simp [Instr.channelMessage,hc])
    simp [this,Instr.channelMessage]
  | @channelHandle c e code h =>
    refine .advance [] (by simp [Shared.record,History.messages]) ?_
    rw [List.nil_append,List.filterMap_append,(filterMap_handleNativeEvent h 0 d).2.2.2.2]
    by_cases hc : c = d <;> cases hm : DataChannel.message? e <;>
      simp [Instr.channelMessage,hc,hm]
  | @put i q x hi =>
    refine .advance ([Instr.send q x].filterMap (Instr.channelMessage d)) ?_ ?_
    · simp only [Shared.record,Shared.setQueue,History.messages,List.filterMap_append]
      cases q <;> cases x <;> rfl
    · rcases hi with rfl | rfl
      · simp
      · cases q <;> cases x <;> simp [Instr.channelMessage,List.filterMap_cons]
  | suspend q x =>
    refine .advance [] (by simp) ?_
    cases q <;> cases x <;> simp [Instr.channelMessage,List.filterMap_cons]
  | registerChannel before after hi hb ha =>
    refine .idle ?_ rfl
    rw [hk.registerChannel hb ha]
    simp [Instr.channelMessage,ne_nextChannel hn]
  | poll hj => exact .idle (hk.polled hj) rfl
  | proceed hi hne hj same => exact .idle (hk.registers hj) (by rw [same.messages])
  | direct found | registerPeer q | park missing | construct h' c' t' | handled q e
  | channelHandled c e => exact .idle (by simp [Instr.channelMessage]) rfl

end Channel
end Move
end Kestara.Kotlin
