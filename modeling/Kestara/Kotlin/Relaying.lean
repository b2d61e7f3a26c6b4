import Kestara.Kotlin.Registration

/-!
# Relaying the events to the objects

The events of a peer are a stream that is relayed by the event loop and by the coroutine that
registers the peer, and the events of a channel are a part of it that is relayed by whoever
hands the peer its events and by the coroutine that registers the channel.
-/
namespace Kestara.Kotlin
open Interleaving Relay

def Instr.looksUp : Instr → Bool
  | .loop (.lookupPeer _) => true
  | _ => false

/-- The events the loop has polled and looked the peer up for. -/
def seen (c : Config) : List NativeEvent :=
  if (c.tasks 0).any Instr.looksUp then c.shared.history.polled.dropLast
  else c.shared.history.polled

def ofPeer (handle : ℤ) (events : List NativeEvent) : List NativeEvent :=
  events.filter fun e => e.peerHandle = handle

def ofChannel (handle : ℤ) (events : List NativeEvent) : List NativeEvent :=
  events.filter fun e => e.channelHandle = handle

/-- What the peer has been handed for one of its channels. -/
def channelSource (s : Shared) (d : ChannelId) : List NativeEvent :=
  ofChannel (s.channel d).handle (of (s.channel d).owner s.history.peerStarted)

/-- An event is handed to a registered peer or channel directly only while no other coroutine
has a delivery to it pending. -/
def HandedOver (l : Label) (c : Config) : Prop :=
  ∀ t x i rest, l.scheduled = some (t,x) → c.tasks t = i :: rest →
    (∀ p e, i = .loop (.lookupPeer e) → c.shared.runtime.peers.lookup e.peerHandle = some p →
      ∀ u ≠ t, ∀ j ∈ c.tasks u, j.peerFinishes p = none) ∧
    ∀ d, Move.Routes c.shared d i →
      ∀ u ≠ t, ∀ j ∈ c.tasks u, j.channelFinishes d = none ∧ j.channelMessage d = none

/-- The order is kept on the way to every object. -/
structure Ordered (c : Config) : Prop where
  looking : ∀ e, .loop (.lookupPeer e) ∈ c.tasks 0 → ∃ pre, c.shared.history.polled = pre ++ [e]
  parkedPeers : ∀ h, (c.shared.runtime.parked h).Sublist (ofPeer h (seen c))
  parkedChannels : ∀ p h, ((c.shared.peer p).parked h).Sublist
    (ofChannel h (of p c.shared.history.peerStarted))
  peerStarted : ∀ p, Relayed (fun t => (c.tasks t).filterMap (Instr.peerBegins p))
    (of p c.shared.history.peerStarted) (ofPeer (c.shared.peer p).handle (seen c))
  peerHandled : ∀ p, Relayed (fun t => (c.tasks t).filterMap (Instr.peerFinishes p))
    (of p c.shared.history.peerHandled) (ofPeer (c.shared.peer p).handle (seen c))
  channelStarted : ∀ d, Relayed (fun t => (c.tasks t).filterMap (Instr.channelBegins d))
    (of d c.shared.history.channelStarted) (channelSource c.shared d)
  channelHandled : ∀ d, Relayed (fun t => (c.tasks t).filterMap (Instr.channelFinishes d))
    (of d c.shared.history.channelHandled) (channelSource c.shared d)
  messages : ∀ d, Relayed (fun t => (c.tasks t).filterMap (Instr.channelMessage d))
    (c.shared.history.messages d) ((channelSource c.shared d).filterMap DataChannel.message?)

section Seen
variable {c c' : Config}

lemma seen_sublist_polled (c : Config) : (seen c).Sublist c.shared.history.polled := by
  unfold seen
  split_ifs
  · exact List.dropLast_sublist _
  · exact .refl _

lemma any_looksUp {l : List Instr} : l.any Instr.looksUp = true ↔ ∃ e, .loop (.lookupPeer e) ∈ l := by
  rw [List.any_eq_true]
  constructor
  · rintro ⟨j,hj,hl⟩
    unfold Instr.looksUp at hl
    split at hl
    · exact ⟨_,hj⟩
    · cases hl
  · rintro ⟨e,he⟩
    exact ⟨_,he,rfl⟩

/-- A lookup is the first instruction of its coroutine. -/
lemma looksUp_rest {i : Instr} {rest : List Instr} (h : Nested (i :: rest)) :
    rest.any Instr.looksUp = false := by
  rw [Bool.eq_false_iff]
  intro hl
  obtain ⟨e,he⟩ := any_looksUp.mp hl
  have := (List.pairwise_cons.mp h).1 _ he
  have := one_le_supply i
  simp [Instr.demand] at *
  omega

lemma seen_quiet (hq : Quiet c c') : (seen c).Sublist (seen c') := by
  unfold seen
  rw [hq.same.polled]
  split_ifs with h h'
  · exact .refl _
  · exact List.dropLast_sublist _
  · next h' =>
    obtain ⟨e,he⟩ := any_looksUp.mp h'
    exact (h (any_looksUp.mpr ⟨e,mem_of_active (hq.code 0) he rfl⟩)).elim
  · exact .refl _

variable {t : TaskId} {i : Instr} {rest code : List Instr} {s : Shared}

/-- The event the loop has looked up is seen. -/
lemma seen_lookup (hl : ∀ e, .loop (.lookupPeer e) ∈ c.tasks 0 →
    ∃ pre, c.shared.history.polled = pre ++ [e]) (hnest : Nested (c.tasks 0)) {e : NativeEvent}
    (head : c.tasks 0 = .loop (.lookupPeer e) :: rest) (hc : code.any Instr.looksUp = false)
    (hs : s.history.polled = c.shared.history.polled) :
    seen ⟨s,Function.update c.tasks 0 (code ++ rest)⟩ = seen c ++ [e] := by
  obtain ⟨pre,hpre⟩ := hl e (by simp [head])
  have hrest : rest.any Instr.looksUp = false := looksUp_rest (head ▸ hnest)
  have hnew : (code ++ rest).any Instr.looksUp = false := by simp only [List.any_append,hc,hrest,Bool.or_self]
  simp only [seen,Function.update_self,hnew,head,List.any_cons,Instr.looksUp,Bool.true_or,if_true,hs,
    hpre,List.dropLast_concat]
  simp

lemma Move.polled {s s' : Shared} (h : Move s i s' code) (hi : i ≠ .loop .poll) :
    s'.history.polled = s.history.polled := by
  cases h with
  | poll hj => exact (hi rfl).elim
  | handle h =>
    have hk := PeerConnection.keeps_of_handled (PeerConnection.handled_of_handleNativeEvent h)
    simp [Shared.record,hk.history]
  | proceed hi hn hj same => exact same.polled
  | direct found | registerPeer q | park missing | construct h' c' t' | handled q e
  | registerChannel before after hi hb ha | channelHandle h | channelHandled c e | put hi
  | suspend q x => rfl

/-- What the loop has seen only grows, and the event it looks up is the last one polled. -/
lemma seen_moves (hl : ∀ e, .loop (.lookupPeer e) ∈ c.tasks 0 →
    ∃ pre, c.shared.history.polled = pre ++ [e]) (hnest : Nested (c.tasks t))
    (hloop : i.isLoop = true → t = 0) (head : c.tasks t = i :: rest)
    (hleaves : ∀ j ∈ code, i.leaves j) (hm : Move c.shared i s code) :
    (seen c).Sublist (seen ⟨s,Function.update c.tasks t (code ++ rest)⟩) ∧
      ∀ e, .loop (.lookupPeer e) ∈ Function.update c.tasks t (code ++ rest) 0 →
        ∃ pre, s.history.polled = pre ++ [e] := by
  have hrest : rest.any Instr.looksUp = false := looksUp_rest (head ▸ hnest)
  by_cases hi : i = .loop .poll
  · subst hi
    obtain rfl := hloop rfl
    cases hm with
    | @poll e es j hj =>
      have hseen : seen c = c.shared.history.polled := by
        simp [seen,head,Instr.looksUp,hrest]
      rcases hj with hj | rfl
      · have hnot : j.looksUp = false := by
          unfold Instr.looksUp
          split
          · cases hj
          · rfl
        refine ⟨?_,fun e' he' => ?_⟩
        · rw [hseen]
          simp [seen,hrest,hnot,Shared.record]
        · simp only [Function.update_self] at he'
          have := any_looksUp.mpr ⟨e',he'⟩
          simp [hnot,hrest] at this
      · refine ⟨?_,fun e' he' => ?_⟩
        · rw [hseen]
          simp [seen,Instr.looksUp,Shared.record]
        · simp only [Function.update_self,List.singleton_append,List.mem_cons] at he'
          rcases he' with he' | he'
          · cases he'
            exact ⟨_,rfl⟩
          · have := any_looksUp.mpr ⟨e',he'⟩
            rw [hrest] at this
            cases this
    | proceed hi hn hj same => cases hi
    | construct h' c' t' => simp [Instr.leaves,LoopInstr.leaves] at hleaves
    | put hi => simp at hi
  · have hcode : code.any Instr.looksUp = false := by
      rw [Bool.eq_false_iff]
      intro h
      obtain ⟨e,he⟩ := any_looksUp.mp h
      exact hi (origin_of_leaves (hleaves _ he))
    have hpolled := hm.polled hi
    by_cases ht : t = 0
    · subst ht
      have hnew : (code ++ rest).any Instr.looksUp = false := by simp [hcode,hrest]
      refine ⟨?_,fun e he => ?_⟩
      · have : seen ⟨s,Function.update c.tasks 0 (code ++ rest)⟩ = c.shared.history.polled := by
          simp [seen,hnew,hpolled]
        rw [this]
        exact seen_sublist_polled c
      · simp only [Function.update_self] at he
        have := any_looksUp.mpr ⟨e,he⟩
        rw [hnew] at this
        cases this
    · refine ⟨?_,fun e he => ?_⟩
      · simp only [seen,Function.update_of_ne (Ne.symm ht),hpolled]
        exact .refl _
      · rw [Function.update_of_ne (Ne.symm ht)] at he
        rw [hpolled]
        exact hl e he

end Seen
namespace Move
variable {s s' : Shared} {code : List Instr}

lemma lookupPeer_cases {e : NativeEvent} (h : Move s (.loop (.lookupPeer e)) s' code)
    (hleaves : ∀ j ∈ code, (Instr.loop (.lookupPeer e)).leaves j) :
    (∃ p, s.runtime.peers.lookup e.peerHandle = some p ∧ s' = s ∧ code = [.peer p (.handle e)]) ∨
      s.runtime.peers.lookup e.peerHandle = none ∧ s' = s.setRuntime (·.park e) ∧ code = [] := by
  cases h with
  | direct found => exact .inl ⟨_,found,rfl,rfl⟩
  | park missing => exact .inr ⟨missing,rfl,rfl⟩
  | construct h' c' t' => simp [Instr.leaves,LoopInstr.leaves] at hleaves
  | proceed hi hn hj same => cases hi
  | put hi => simp at hi

lemma registerPeer_cases {p : PeerId} (h : Move s (.runtime (.registerPeer p)) s' code)
    (hleaves : ∀ j ∈ code, (Instr.runtime (.registerPeer p)).leaves j) :
    s'.history = s.history ∧
      code = (s.runtime.parked (s.peer p).handle).map (fun e => .peer p (.handle e)) ++
        [.runtime (.returnPeer p)] := by
  cases h with
  | registerPeer => exact ⟨rfl,rfl⟩
  | construct h' c' t' => simp [Instr.leaves,RuntimeInstr.leaves] at hleaves
  | @proceed _ j q _ hi hn hj same =>
    cases of_decide_eq_true hi
    exact (hn rfl).elim
  | put hi => simp at hi

lemma handle_cases {p : PeerId} {e : NativeEvent} (h : Move s (.peer p (.handle e)) s' code)
    (hleaves : ∀ j ∈ code, (Instr.peer p (.handle e)).leaves j) :
    ∃ s₁ code₁, PeerConnection.handleNativeEvent p e s = .ok (s₁,code₁) ∧
      s' = s₁.record (fun h => { h with peerStarted := h.peerStarted ++ [(p,e)] }) ∧
      code = code₁ ++ [.peer p (.handled e)] := by
  cases h with
  | handle h => exact ⟨_,_,h,rfl,rfl⟩
  | construct h' c' t' => simp [Instr.leaves,PeerInstr.leaves] at hleaves
  | proceed hi hn hj same => cases hi
  | registerChannel before after hi hb ha => cases hi
  | put hi => simp at hi

/-- Events are parked only by a lookup that finds no peer. -/
lemma parkedPeers {i : Instr} (h : Move s i s' code) :
    (∀ k, (s'.runtime.parked k).Sublist (s.runtime.parked k)) ∨
      ∃ e, i = .loop (.lookupPeer e) ∧ s' = s.setRuntime (·.park e) ∧ code = [] := by
  cases h with
  | @park e missing => exact .inr ⟨e,rfl,rfl,rfl⟩
  | registerPeer p =>
    refine .inl fun k => ?_
    simp only [Shared.setRuntime,WebRtcRuntime.unlock,WebRtcRuntime.parked,LinkedMap.lookup_erase]
    split_ifs
    · exact List.nil_sublist _
    · exact .refl _
  | handle h =>
    have hk := PeerConnection.keeps_of_handled (PeerConnection.handled_of_handleNativeEvent h)
    simp [Shared.record,hk.runtime]
  | proceed hi hn hj same => exact .inl same.parkedPeers
  | poll hj | direct found | construct h' c' t' | handled q e | registerChannel before after hi hb ha
  | channelHandle h | channelHandled c e | put hi | suspend q x => exact .inl fun k => .refl _

/-- What has been handed to a peer only grows, and holds what is parked for its channels. -/
lemma parkedChannels {i : Instr} (h : Move s i s' code) (p : PeerId) :
    (of p s.history.peerStarted).Sublist (of p s'.history.peerStarted) ∧
      ∀ k, ((s.peer p).parked k).Sublist (ofChannel k (of p s.history.peerStarted)) →
        ((s'.peer p).parked k).Sublist (ofChannel k (of p s'.history.peerStarted)) := by
  cases h with
  | @handle q e s₁ code h =>
    have hk := PeerConnection.keeps_of_handled (PeerConnection.handled_of_handleNativeEvent h)
    simp only [Shared.record,hk.history,of_append]
    refine ⟨List.sublist_append_left _ _,fun k hp => ?_⟩
    simp only [ofChannel,List.filter_append]
    rcases hk.parked p k with he | ⟨rfl,rfl,he⟩
    · rw [he]
      exact hp.trans (List.sublist_append_left _ _)
    · rw [he]
      simpa [ofChannel] using hp.append_right [e]
  | registerChannel before after hi hb ha =>
    refine ⟨.refl _,fun k hp => ?_⟩
    refine List.Sublist.trans ?_ hp
    simp only [Shared.setPeer,Shared.newChannel,Function.update_apply]
    split_ifs with hq
    · subst hq
      simp only [PeerConnection.parked,PeerConnection.register,LinkedMap.lookup_erase]
      split_ifs
      · exact List.nil_sublist _
      · exact .refl _
    · exact .refl _
  | construct h' c' t' =>
    exact ⟨.refl _,fun k hp => ((SameDeliveries.newPeer h' c' t').parkedChannels p k).trans hp⟩
  | proceed hi hn hj same =>
    rw [same.peerStarted]
    exact ⟨.refl _,fun k hp => (same.parkedChannels p k).trans hp⟩
  | poll hj | direct found | registerPeer q | park missing | handled q e | channelHandle h
  | channelHandled c e | put hi | suspend q x => exact ⟨.refl _,fun k hp => hp⟩

end Move

lemma WebRtcRuntime.parked_park (r : WebRtcRuntime) (e : NativeEvent) (k : ℤ) :
    (r.park e).parked k = if k = e.peerHandle then r.parked k ++ [e] else r.parked k := by
  unfold parked park
  rw [LinkedMap.lookup_insert]
  split_ifs with hk
  · rw [hk]
    rfl
  · rfl

lemma Ordered.quiet {c c' : Config} (h : Ordered c) (hreg : Registered c) (hc : Constructed c)
    (hq : Quiet c c') : Ordered c' := by
  have hseen := seen_quiet hq
  have hpeer : ∀ {k : Instr → Option NativeEvent} {done : List NativeEvent} (p : PeerId),
      ReadsDeliveries k → (∀ j, j.peerFinishes p = none → k j = none) →
      (c.shared.nextPeer ≤ p → done = []) →
      Relayed (fun t => (c.tasks t).filterMap k) done (ofPeer (c.shared.peer p).handle (seen c)) →
      Relayed (fun t => (c'.tasks t).filterMap k) done (ofPeer (c'.shared.peer p).handle (seen c')) := by
    intro k done p hk hsub hfresh hr
    by_cases hp : p < c.shared.nextPeer
    · rw [hq.same.handle p hp]
      exact hr.lose (hq.filterMap hk) (hseen.filter _)
    · rw [hfresh (not_lt.mp hp)]
      refine .idle fun u => ?_
      have hnil : (c.tasks u).filterMap k = [] := List.filterMap_eq_nil_iff.mpr fun j hj =>
        hsub j (peerFinishes_of_fresh (hc.code u j hj) (not_lt.mp hp))
      have := hq.filterMap hk u
      rw [hnil] at this
      exact List.sublist_nil.mp this
  have hsource : ∀ d, channelSource c'.shared d = channelSource c.shared d := by
    intro d
    simp only [channelSource,hq.same.channelHandle,hq.same.owner,hq.same.peerStarted]
  refine ⟨fun e he => ?_,fun k => ?_,fun p k => ?_,fun p => ?_,fun p => ?_,fun d => ?_,fun d => ?_,
    fun d => ?_⟩
  · rw [hq.same.polled]
    exact h.looking e (mem_of_active (hq.code 0) he rfl)
  · exact ((hq.same.parkedPeers k).trans (h.parkedPeers k)).trans (hseen.filter _)
  · rw [hq.same.peerStarted]
    exact (hq.same.parkedChannels p k).trans (h.parkedChannels p k)
  · rw [hq.same.peerStarted]
    exact hpeer p (reads_peerBegins p) (fun j => peerBegins_of_peerFinishes)
      (fun hp => (hreg.freshPeer p hp).1) (h.peerStarted p)
  · rw [hq.same.peerHandled]
    exact hpeer p (reads_peerFinishes p) (fun j => id) (fun hp => (hreg.freshPeer p hp).2)
      (h.peerHandled p)
  · rw [hq.same.channelStarted,hsource]
    exact (h.channelStarted d).lose (hq.filterMap (reads_channelBegins d)) (.refl _)
  · rw [hq.same.channelHandled,hsource]
    exact (h.channelHandled d).lose (hq.filterMap (reads_channelFinishes d)) (.refl _)
  · rw [hq.same.messages,hsource]
    exact (h.messages d).lose (hq.filterMap (reads_channelMessage d)) (.refl _)

section Moves
variable {c : Config} {t : TaskId} {i : Instr} {rest code : List Instr} {s : Shared}

/-- Nothing of a delivery comes after an instruction from outside of one. -/
lemma filterMap_rest {α : Type*} {k : Instr → Option α} (hk : ReadsDeliveries k)
    (hnest : Nested (i :: rest)) (hi : i.supply = 3) : rest.filterMap k = [] := by
  refine hk.nil fun j hj => delivers_of_inert (inert_of_demand ?_)
  have := (List.pairwise_cons.mp hnest).1 j hj
  omega

section Peer
variable {p : PeerId} {k : Instr → Option NativeEvent} {done done' : List NativeEvent}

/-- The loop has found the peer: the event is the next one of its stream. -/
lemma relayed_direct (hk : ReadsDeliveries k) (hb : ∀ e, k (.peer p (.handle e)) = some e)
    (hsub : ∀ j, j.peerFinishes p = none → k j = none) {e : NativeEvent} (h : Ordered c)
    (hreg : Registered c) (hnest : Nested (c.tasks 0))
    (head : c.tasks 0 = .loop (.lookupPeer e) :: rest)
    (found : c.shared.runtime.peers.lookup e.peerHandle = some p)
    (hok : ∀ u ≠ 0, ∀ j ∈ c.tasks u, j.peerFinishes p = none)
    (hr : Relayed (fun t => (c.tasks t).filterMap k) done (ofPeer (c.shared.peer p).handle (seen c))) :
    Relayed (fun t => (Function.update c.tasks 0 ([.peer p (.handle e)] ++ rest) t).filterMap k) done
      (ofPeer (c.shared.peer p).handle
        (seen ⟨c.shared,Function.update c.tasks 0 ([.peer p (.handle e)] ++ rest)⟩)) := by
  refine hr.extend [e] (t := 0) (fun u hu => ?_) ?_ ?_
  · rw [Function.update_of_ne hu]
    exact List.filterMap_eq_nil_iff.mpr fun j hj => hsub j (hok u hu j hj)
  · have hrest := filterMap_rest hk (head ▸ hnest) rfl
    simp [hrest,hb]
  · rw [seen_lookup h.looking hnest head (by simp [Instr.looksUp]) rfl]
    simp [ofPeer,hreg.peers _ _ found]

/-- The peer is registered: the parked events are the first of its stream. -/
lemma relayed_registerPeer (hk : ReadsDeliveries k) (hb : ∀ e, k (.peer p (.handle e)) = some e)
    (hsub : ∀ j, j.peerFinishes p = none → k j = none) {source : List NativeEvent}
    (hu : Unpublished c p) (hnest : Nested (c.tasks t))
    (head : c.tasks t = .runtime (.registerPeer p) :: rest)
    (hparked : (c.shared.runtime.parked (c.shared.peer p).handle).Sublist source) :
    Relayed (fun u => (Function.update c.tasks t
      ((c.shared.runtime.parked (c.shared.peer p).handle).map (fun e => .peer p (.handle e)) ++
        [.runtime (.returnPeer p)] ++ rest) u).filterMap k) [] source := by
  refine .start (t := t) (fun u hut => ?_) ?_
  · rw [Function.update_of_ne hut]
    exact List.filterMap_eq_nil_iff.mpr fun j hj =>
      hsub j (List.filterMap_eq_nil_iff.mp (hu.pending u) j hj)
  · have hrest := filterMap_rest hk (head ▸ hnest) rfl
    have hret : k (.runtime (.returnPeer p)) = none := hk _ rfl
    simpa [hrest,hret,List.filterMap_map,Function.comp_def,hb] using hparked

variable (h : Ordered c) (hreg : Registered c) (hc : Constructed c) (hnest : ∀ u, Nested (c.tasks u))
  (hloop : i.isLoop = true → t = 0) (head : c.tasks t = i :: rest)
  (hleaves : ∀ j ∈ code, i.leaves j) (hm : Move c.shared i s code)
  (hok : ∀ q e, i = .loop (.lookupPeer e) → c.shared.runtime.peers.lookup e.peerHandle = some q →
    ∀ u ≠ t, ∀ j ∈ c.tasks u, j.peerFinishes q = none)
include h hreg hc hnest hloop head hleaves hm hok

lemma relayed_peer (hk : ReadsDeliveries k) (hb : ∀ e, k (.peer p (.handle e)) = some e)
    (hsub : ∀ j, j.peerFinishes p = none → k j = none)
    (hpass : ¬Move.Feeds c.shared p i → Passes k i code done done')
    (hfresh : c.shared.nextPeer ≤ p → done = []) (hunpub : Unpublished c p → done = [])
    (hsame : s.history = c.shared.history → done' = done)
    (hr : Relayed (fun t => (c.tasks t).filterMap k) done (ofPeer (c.shared.peer p).handle (seen c))) :
    Relayed (fun u => (Function.update c.tasks t (code ++ rest) u).filterMap k) done'
      (ofPeer (s.peer p).handle (seen ⟨s,Function.update c.tasks t (code ++ rest)⟩)) := by
  have hseen := (seen_moves h.looking (hnest t) hloop head hleaves hm).1
  have ha := hc.code t i (by simp [head])
  by_cases hp : p < c.shared.nextPeer
  · rw [hm.frame.handle p hp]
    by_cases hf : Move.Feeds c.shared p i
    · rcases hf with ⟨e,rfl,he⟩ | rfl
      · obtain rfl := hloop rfl
        rcases hm.lookupPeer_cases hleaves with ⟨q,hq,rfl,rfl⟩ | ⟨hn,-⟩
        · obtain rfl : q = p := Option.some.inj (hq.symm.trans he)
          rw [hsame rfl]
          exact relayed_direct hk hb hsub h hreg (hnest 0) head he (hok q e rfl he) hr
        · rw [hn] at he
          cases he
      · have hi : .runtime (.registerPeer p) ∈ c.tasks t := by simp [head]
        obtain ⟨hu,-⟩ := hreg.unpublished t p _ hi (by simp [Instr.registers])
        obtain ⟨hhist,rfl⟩ := hm.registerPeer_cases hleaves
        rw [hsame hhist,hunpub hu]
        exact relayed_registerPeer hk hb hsub hu (hnest t) head
          ((h.parkedPeers _).trans (hseen.filter _))
    · exact hr.task head (hpass hf).grows (hpass hf).moves (hseen.filter _)
  · have hp' := not_lt.mp hp
    have hf : ¬Move.Feeds c.shared p i := by
      rintro (⟨e,-,he⟩ | rfl)
      · exact hp (hc.heap.peers p (LinkedMap.mem_values_of_lookup he))
      · exact hp ha
    have hpass := hpass hf
    rw [hfresh hp'] at hpass
    obtain ⟨hd,hcode⟩ := hpass.nil (hsub i (peerFinishes_of_fresh ha hp'))
    rw [hd]
    refine .idle fun u => ?_
    have hnil : ∀ j ∈ c.tasks u, k j = none := fun j hj =>
      hsub j (peerFinishes_of_fresh (hc.code u j hj) hp')
    by_cases hut : u = t
    · subst hut
      rw [Function.update_self,List.filterMap_append,hcode,List.nil_append]
      exact List.filterMap_eq_nil_iff.mpr fun j hj => hnil j (by simp [head,hj])
    · rw [Function.update_of_ne hut]
      exact List.filterMap_eq_nil_iff.mpr hnil

end Peer

section Channel
variable {d : ChannelId} {α : Type*} {k : Instr → Option α} {g : NativeEvent → Option α}
  {done done' : List α}

lemma channel_of_demand {j : Instr} (h : 2 ≤ j.demand) :
    j.channelFinishes d = none ∧ j.channelMessage d = none := by
  refine ⟨?_,?_⟩
  · unfold Instr.channelFinishes
    split <;> first | rfl | (simp [Instr.demand] at h)
  · unfold Instr.channelMessage
    split <;> first | rfl | (simp [Instr.demand] at h)

lemma channelBegins_of_channelFinishes {j : Instr} (h : j.channelFinishes d = none) :
    j.channelBegins d = none := by
  unfold Instr.channelBegins
  split
  · exact h
  · rfl

/-- The peer has found the channel: the event is the next one of its stream. -/
lemma relayed_route (hg : ∀ e, k (.channel d (.handle e)) = g e)
    (hsub : ∀ j, j.channelFinishes d = none → j.channelMessage d = none → k j = none) {p : PeerId}
    {e : NativeEvent} (hreg : Registered c) (hnest : Nested (c.tasks t))
    (head : c.tasks t = .peer p (.handle e) :: rest)
    (found : (c.shared.peer p).channels.lookup e.channelHandle = some d)
    (hok : ∀ u ≠ t, ∀ j ∈ c.tasks u, j.channelFinishes d = none ∧ j.channelMessage d = none)
    (hr : Relayed (fun t => (c.tasks t).filterMap k) done ((channelSource c.shared d).filterMap g)) :
    Relayed (fun u => (Function.update c.tasks t
      ([.channel d (.handle e)] ++ [.peer p (.handled e)] ++ rest) u).filterMap k) done
      ((channelSource (c.shared.record fun h =>
        { h with peerStarted := h.peerStarted ++ [(p,e)] }) d).filterMap g) := by
  refine hr.extend (g e).toList (t := t) (fun u hu => ?_) ?_ ?_
  · rw [Function.update_of_ne hu]
    exact List.filterMap_eq_nil_iff.mpr fun j hj => hsub j (hok u hu j hj).1 (hok u hu j hj).2
  · have hrest : rest.filterMap k = [] := List.filterMap_eq_nil_iff.mpr fun j hj => by
      have := (List.pairwise_cons.mp (head ▸ hnest)).1 j hj
      exact hsub j (channel_of_demand this).1 (channel_of_demand this).2
    have hhandled : k (.peer p (.handled e)) = none := hsub _ rfl rfl
    rw [Function.update_self,List.filterMap_append,List.filterMap_append,hrest]
    cases hge : g e <;> simp [hhandled,hg,hge]
  · obtain ⟨hh,ho⟩ := hreg.channels p e.channelHandle d found
    have : channelSource (c.shared.record fun h =>
        { h with peerStarted := h.peerStarted ++ [(p,e)] }) d = channelSource c.shared d ++ [e] := by
      simp [channelSource,Shared.record,ofChannel,hh,ho]
    rw [this,List.filterMap_append]
    cases hge : g e <;> simp [hge]

lemma newChannel_cases (hm : Move c.shared i s code) (hlt : c.shared.nextChannel < s.nextChannel) :
    ∃ p handle before after, s.history = c.shared.history ∧
      (s.channel c.shared.nextChannel).handle = handle ∧
      (s.channel c.shared.nextChannel).owner = p ∧ s.nextChannel = c.shared.nextChannel+1 ∧
      (∀ j ∈ before, ∃ x, j = .send (.incomingDataChannel p) x) ∧ (∀ j ∈ after, j.inert = true) ∧
      code = before ++ ((c.shared.peer p).parked handle).map
        (fun e => .channel c.shared.nextChannel (.handle e)) ++ after := by
  cases hm with
  | @registerChannel p _ handle info b before after hi hb ha =>
    refine ⟨p,handle,before,after,rfl,?_,?_,rfl,hb,ha,rfl⟩
    · simp [Shared.setPeer,Shared.newChannel]
    · simp [Shared.setPeer,Shared.newChannel]
  | handle h =>
    have hk := PeerConnection.keeps_of_handled (PeerConnection.handled_of_handleNativeEvent h)
    exact absurd hlt (not_lt.mpr hk.nextChannel.le)
  | proceed hi hn hj same => exact absurd hlt (not_lt.mpr same.nextChannel.le)
  | poll hj | direct found | registerPeer q | park missing | construct h' c' t' | handled q e
  | channelHandle h | channelHandled c e | put hi | suspend q x => exact absurd hlt (lt_irrefl _)

lemma not_routes_of_fresh (hc : Constructed c) (hd : c.shared.nextChannel ≤ d) :
    ¬Move.Routes c.shared d i := by
  rintro ⟨p,e,rfl,he⟩
  have hh := PeerConnection.handled_of_handleNativeEvent he
  rcases (reads_channelBegins d).handled hh with hn | ⟨d',hl,hd'⟩
  · simp [Instr.channelBegins] at hn
  · cases hd'
    exact absurd (hc.heap.channels p d (LinkedMap.mem_values_of_lookup hl)) (not_lt.mpr hd)

variable (h : Ordered c) (hreg : Registered c) (hc : Constructed c) (hnest : ∀ u, Nested (c.tasks u))
  (head : c.tasks t = i :: rest) (hleaves : ∀ j ∈ code, i.leaves j) (hm : Move c.shared i s code)
  (hok : ∀ d, Move.Routes c.shared d i →
    ∀ u ≠ t, ∀ j ∈ c.tasks u, j.channelFinishes d = none ∧ j.channelMessage d = none)
include h hreg hc hnest head hleaves hm hok

lemma relayed_channel (hk : ReadsDeliveries k) (hg : ∀ e, k (.channel d (.handle e)) = g e)
    (hsub : ∀ j, j.channelFinishes d = none → j.channelMessage d = none → k j = none)
    (hpass : d < c.shared.nextChannel ∨ s.nextChannel ≤ d → ¬Move.Routes c.shared d i →
      Passes k i code done done')
    (hfresh : c.shared.nextChannel ≤ d → done = [])
    (hsame : s.history.channelStarted = c.shared.history.channelStarted →
      s.history.channelHandled = c.shared.history.channelHandled →
      s.history.messages = c.shared.history.messages → done' = done)
    (hr : Relayed (fun t => (c.tasks t).filterMap k) done ((channelSource c.shared d).filterMap g)) :
    Relayed (fun u => (Function.update c.tasks t (code ++ rest) u).filterMap k) done'
      ((channelSource s d).filterMap g) := by
  have hnil : c.shared.nextChannel ≤ d → ∀ u, ∀ j ∈ c.tasks u, k j = none := by
    intro hd u j hj
    obtain ⟨-,h₂,h₃⟩ := channel_of_fresh (hc.code u j hj) hd
    exact hsub j h₂ h₃
  have hrest : c.shared.nextChannel ≤ d → rest.filterMap k = [] := fun hd =>
    List.filterMap_eq_nil_iff.mpr fun j hj => hnil hd t j (by simp [head,hj])
  rcases lt_or_ge d c.shared.nextChannel with hd | hd
  · by_cases hroute : Move.Routes c.shared d i
    · obtain ⟨p,e,rfl,he⟩ := id hroute
      obtain ⟨s₁,code₁,he₁,rfl,rfl⟩ := hm.handle_cases hleaves
      rw [he] at he₁
      cases he₁
      rw [hsame rfl rfl rfl]
      have hh := PeerConnection.handled_of_handleNativeEvent he
      rcases (reads_channelBegins d).handled hh with hn | ⟨d',hl,hd'⟩
      · simp [Instr.channelBegins] at hn
      · cases hd'
        exact relayed_route hg hsub hreg (hnest t) head hl (hok d hroute) hr
    · have hp := hpass (.inl hd) hroute
      refine hr.task head hp.grows hp.moves (List.Sublist.filterMap g ?_)
      unfold channelSource
      rw [(hm.frame.channel d hd).1,(hm.frame.channel d hd).2]
      exact (hm.parkedChannels _).1.filter _
  · rcases le_or_gt s.nextChannel d with hd' | hd'
    · have hp := hpass (.inr hd') (not_routes_of_fresh hc hd)
      rw [hfresh hd] at hp
      obtain ⟨hdone,hcode⟩ := hp.nil (hnil hd t i (by simp [head]))
      rw [hdone]
      refine .idle fun u => ?_
      by_cases hut : u = t
      · subst hut
        rw [Function.update_self,List.filterMap_append,hcode,hrest hd,List.append_nil]
      · rw [Function.update_of_ne hut]
        exact List.filterMap_eq_nil_iff.mpr (hnil hd u)
    · obtain ⟨p,handle,before,after,hhist,hh,ho,hnext,hb,ha,rfl⟩ :=
        newChannel_cases hm (lt_of_le_of_lt hd hd')
      obtain rfl : d = c.shared.nextChannel := le_antisymm (by rw [hnext] at hd'; exact Nat.lt_succ_iff.mp hd') hd
      rw [hsame (by rw [hhist]) (by rw [hhist]) (by rw [hhist]),hfresh hd]
      refine .start (t := t) (fun u hut => ?_) ?_
      · rw [Function.update_of_ne hut]
        exact List.filterMap_eq_nil_iff.mpr (hnil hd u)
      · rw [Function.update_self,List.filterMap_append,hk.registerChannel hb ha,hrest hd,
          List.append_nil]
        simp only [hg]
        refine List.Sublist.filterMap g ?_
        unfold channelSource
        rw [hh,ho,hhist]
        exact h.parkedChannels p handle

end Channel
end Moves
lemma Ordered.moves {c : Config} {t : TaskId} {i : Instr} {rest code : List Instr} {s : Shared}
    (h : Ordered c) (hreg : Registered c) (hc : Constructed c) (hnest : ∀ u, Nested (c.tasks u))
    (hloop : i.isLoop = true → t = 0) (head : c.tasks t = i :: rest)
    (hleaves : ∀ j ∈ code, i.leaves j) (hm : Move c.shared i s code)
    (hdirect : ∀ p e, i = .loop (.lookupPeer e) →
      c.shared.runtime.peers.lookup e.peerHandle = some p →
      ∀ u ≠ t, ∀ j ∈ c.tasks u, j.peerFinishes p = none)
    (hroute : ∀ d, Move.Routes c.shared d i →
      ∀ u ≠ t, ∀ j ∈ c.tasks u, j.channelFinishes d = none ∧ j.channelMessage d = none) :
    Ordered ⟨s,Function.update c.tasks t (code ++ rest)⟩ where
  looking := (seen_moves h.looking (hnest t) hloop head hleaves hm).2
  parkedPeers := by
    intro k
    rcases hm.parkedPeers with hp | ⟨e,rfl,rfl,rfl⟩
    · exact ((hp k).trans (h.parkedPeers k)).trans
        ((seen_moves h.looking (hnest t) hloop head hleaves hm).1.filter _)
    · obtain rfl := hloop rfl
      have hseen : seen ⟨c.shared.setRuntime (·.park e),Function.update c.tasks 0 ([] ++ rest)⟩ =
          seen c ++ [e] := seen_lookup h.looking (hnest 0) head rfl rfl
      rw [hseen]
      simp only [Shared.setRuntime,WebRtcRuntime.parked_park,ofPeer,List.filter_append]
      split_ifs with hk
      · subst hk
        simpa [ofPeer] using (h.parkedPeers e.peerHandle).append_right [e]
      · exact (h.parkedPeers k).trans (List.sublist_append_left _ _)
  parkedChannels := fun p k => (hm.parkedChannels p).2 k (h.parkedChannels p k)
  peerStarted := fun p =>
    relayed_peer h hreg hc hnest hloop head hleaves hm hdirect (reads_peerBegins p)
      (by simp [Instr.peerBegins]) (fun j => peerBegins_of_peerFinishes) (hm.passes_peerBegins p)
      (fun hp => (hreg.freshPeer p hp).1) (fun hu => hu.started) (fun hs => by rw [hs])
      (h.peerStarted p)
  peerHandled := fun p =>
    relayed_peer h hreg hc hnest hloop head hleaves hm hdirect (reads_peerFinishes p)
      (by simp [Instr.peerFinishes]) (fun j => id) (hm.passes_peerFinishes p)
      (fun hp => (hreg.freshPeer p hp).2) (fun hu => hu.handled) (fun hs => by rw [hs])
      (h.peerHandled p)
  channelStarted := fun d => by
    have := relayed_channel (g := some) h hreg hc hnest head hleaves hm hroute (reads_channelBegins d)
      (by simp [Instr.channelBegins]) (fun j hj _ => channelBegins_of_channelFinishes hj)
      hm.passes_channelBegins (fun hd => (hreg.freshChannel d hd).1) (fun h₁ _ _ => by rw [h₁])
      (by simpa using h.channelStarted d)
    simpa using this
  channelHandled := fun d => by
    have := relayed_channel (g := some) h hreg hc hnest head hleaves hm hroute
      (reads_channelFinishes d) (by simp [Instr.channelFinishes]) (fun j hj _ => hj)
      hm.passes_channelFinishes (fun hd => (hreg.freshChannel d hd).2.1) (fun _ h₂ _ => by rw [h₂])
      (by simpa using h.channelHandled d)
    simpa using this
  messages := fun d =>
    relayed_channel h hreg hc hnest head hleaves hm hroute (reads_channelMessage d)
      (by simp [Instr.channelMessage]) (fun j _ hj => hj) hm.passes_channelMessage
      (fun hd => (hreg.freshChannel d hd).2.2) (fun _ _ h₃ => by rw [h₃]) (h.messages d)

lemma ordered_init (shutdownTimeout : ℤ) (fingerprint : String) :
    Ordered (init shutdownTimeout fingerprint) := by
  have hnil : ∀ {α : Type} {k : Instr → Option α}, ReadsDeliveries k →
      ∀ t, ((init shutdownTimeout fingerprint).tasks t).filterMap k = [] := by
    intro α k hk t
    refine hk.nil fun j hj => ?_
    simp only [init] at hj
    split_ifs at hj
    · simp only [List.mem_cons,List.not_mem_nil,or_false] at hj
      rcases hj with rfl | rfl <;> rfl
    · cases hj
  refine ⟨?_,?_,?_,fun p => ?_,fun p => ?_,fun d => ?_,fun d => ?_,fun d => ?_⟩
  · simp [init]
  · simp [init,WebRtcRuntime.parked]
  · simp [init,PeerConnection.parked]
  · exact .idle (hnil (reads_peerBegins p))
  · exact .idle (hnil (reads_peerFinishes p))
  · exact .idle (hnil (reads_channelBegins d))
  · exact .idle (hnil (reads_channelFinishes d))
  · exact .idle (hnil (reads_channelMessage d))

theorem ordered_of_reachable {shutdownTimeout : ℤ} {fingerprint : String} {c : Config}
    (h : Reachable shutdownTimeout fingerprint HandedOver c) : Ordered c := by
  refine h.induct (ordered_init _ _) fun l d d' hd hI hok hs => ?_
  have hc := constructed_of_reachable hd
  have hreg := registered_of_reachable hd
  rcases delivery_cases hs with hq | ⟨t,x,i,rest,s,code,hl,head,hleaves,hm,rfl⟩
  · exact hI.quiet hreg hc hq
  · have hloop : i.isLoop = true → t = 0 := by
      intro hi
      by_contra ht
      rw [isLoop_of_reachable hd t ht i (by simp [head])] at hi
      cases hi
    exact hI.moves hreg hc (nested_of_reachable hd) hloop head hleaves hm
      (hok t x i rest hl head).1 (hok t x i rest hl head).2

end Kestara.Kotlin
