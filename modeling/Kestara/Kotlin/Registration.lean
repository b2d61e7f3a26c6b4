import Kestara.Kotlin.Passing

/-!
# Registrations

The maps hold an object under its own handle. A peer that is on the way to be registered is
known to nobody else, so that its first deliveries are the events parked for it.
-/
namespace Kestara.Kotlin
open Interleaving Relay

/-- What a delivery or a registration changes in the objects and the maps. -/
structure Move.Frame (s : Shared) (i : Instr) (s' : Shared) : Prop where
  peers : ∀ k p, s'.runtime.peers.lookup k = some p → s.runtime.peers.lookup k = some p ∨
    i = .runtime (.registerPeer p) ∧ k = (s.peer p).handle
  handle : ∀ p < s.nextPeer, (s'.peer p).handle = (s.peer p).handle
  channels : ∀ p k d, (s'.peer p).channels.lookup k = some d →
    (s.peer p).channels.lookup k = some d ∨
      d = s.nextChannel ∧ (s'.channel d).handle = k ∧ (s'.channel d).owner = p
  channel : ∀ d < s.nextChannel, (s'.channel d).handle = (s.channel d).handle ∧
    (s'.channel d).owner = (s.channel d).owner
  nextPeer : s.nextPeer ≤ s'.nextPeer
  nextChannel : s.nextChannel ≤ s'.nextChannel

lemma SameDeliveries.frame {s s' : Shared} (h : SameDeliveries s s') (i : Instr) :
    Move.Frame s i s' where
  peers := fun k p hp => .inl (h.peers k p hp)
  handle := h.handle
  channels := fun p k d hd => .inl (h.channels p k d hd)
  channel := fun d _ => ⟨h.channelHandle d,h.owner d⟩
  nextPeer := h.nextPeer
  nextChannel := h.nextChannel.ge

lemma frame_registerChannel (s : Shared) (p : PeerId) (handle : ℤ) (info : ChannelInfo) (b : Bool)
    (i : Instr) :
    Move.Frame s i ((s.newChannel p handle info b).setPeer p (·.register handle s.nextChannel)) where
  peers := fun k q hq => .inl hq
  handle := by
    intro q _
    by_cases hq : q = p
    · subst hq
      simp [Shared.setPeer,Shared.newChannel,PeerConnection.register]
    · simp [Shared.setPeer,Shared.newChannel,hq]
  channels := by
    intro q k d hd
    by_cases hq : q = p
    · subst hq
      simp only [Shared.setPeer,Shared.newChannel,PeerConnection.register,Function.update_self,
        LinkedMap.lookup_insert] at hd
      split_ifs at hd with hk
      · cases hd
        exact .inr ⟨rfl,by simp [Shared.setPeer,Shared.newChannel,hk],
          by simp [Shared.setPeer,Shared.newChannel]⟩
      · exact .inl hd
    · simp only [Shared.setPeer,Shared.newChannel,Function.update_of_ne hq] at hd
      exact .inl hd
  channel := by
    intro d hd
    have hne : d ≠ s.nextChannel := Nat.ne_of_lt hd
    simp [Shared.setPeer,Shared.newChannel,hne]
  nextPeer := le_rfl
  nextChannel := Nat.le_succ _

lemma Move.frame {s s' : Shared} {i : Instr} {code : List Instr} (h : Move s i s' code) :
    Move.Frame s i s' := by
  have hrefl := (SameDeliveries.refl s).frame i
  cases h with
  | construct handle capacity timeout => exact (SameDeliveries.newPeer handle capacity timeout).frame i
  | proceed hi hn hj same => exact same.frame i
  | registerChannel before after hi hb ha => exact frame_registerChannel s _ _ _ _ _
  | @handle p e s' code h =>
    have hk := PeerConnection.keeps_of_handled (PeerConnection.handled_of_handleNativeEvent h)
    refine ⟨?_,fun q _ => hk.handle q,?_,?_,hk.nextPeer.ge,hk.nextChannel.ge⟩
    · simp only [Shared.record,hk.runtime]
      exact fun k q hq => .inl hq
    · simp only [Shared.record,hk.channels]
      exact fun q k d hd => .inl hd
    · simp [Shared.record,hk.channel]
  | registerPeer p =>
    refine { hrefl with peers := fun k q hq => ?_ }
    simp only [Shared.setRuntime,WebRtcRuntime.unlock,LinkedMap.lookup_insert] at hq
    split_ifs at hq with hk
    · cases hq
      exact .inr ⟨rfl,hk⟩
    · exact .inl hq
  | poll hj | direct found | park missing | handled p e | channelHandle h | channelHandled c e
  | put hi | suspend q x => exact { hrefl with }

/-- Nothing has been or is going to be delivered to the peer. -/
structure Unpublished (c : Config) (p : PeerId) : Prop where
  registered : ∀ h, c.shared.runtime.peers.lookup h ≠ some p
  pending : ∀ t, (c.tasks t).filterMap (Instr.peerFinishes p) = []
  started : of p c.shared.history.peerStarted = []
  handled : of p c.shared.history.peerHandled = []

structure Registered (c : Config) : Prop where
  peers : ∀ h p, c.shared.runtime.peers.lookup h = some p → (c.shared.peer p).handle = h
  channels : ∀ p h d, (c.shared.peer p).channels.lookup h = some d →
    (c.shared.channel d).handle = h ∧ (c.shared.channel d).owner = p
  freshPeer : ∀ p, c.shared.nextPeer ≤ p → of p c.shared.history.peerStarted = [] ∧
    of p c.shared.history.peerHandled = []
  freshChannel : ∀ d, c.shared.nextChannel ≤ d → of d c.shared.history.channelStarted = [] ∧
    of d c.shared.history.channelHandled = [] ∧ c.shared.history.messages d = []
  unpublished : ∀ t p, ∀ j ∈ c.tasks t, j.registers p = true → Unpublished c p ∧
    ∀ u ≠ t, ∀ k ∈ c.tasks u, k.registers p = false

lemma mem_of_active {l l' : List Instr} (h : (active l').Sublist (active l)) {j : Instr}
    (hj : j ∈ l') (hi : j.inert = false) : j ∈ l := by
  have hm : j ∈ active l' := List.mem_filter.mpr ⟨hj,by simp [hi]⟩
  exact (List.mem_filter.mp (h.subset hm)).1

section Registers
variable {j : Instr} {p : PeerId} (h : j.registers p = true)
include h

lemma inert_of_registers : j.inert = false := by
  unfold Instr.registers at h
  split at h <;> first | rfl | cases h

lemma demand_of_registers : j.demand = 0 := by
  unfold Instr.registers at h
  split at h <;> first | rfl | cases h

lemma allocated_of_registers {s : Shared} (ha : j.Allocated s) : p < s.nextPeer := by
  unfold Instr.registers at h
  split at h <;> first | (cases of_decide_eq_true h; exact ha) | cases h

end Registers

/-- Nothing is delivered to an object that has not been constructed. -/
lemma peerFinishes_of_fresh {j : Instr} {p : PeerId} {s : Shared} (ha : j.Allocated s)
    (hp : s.nextPeer ≤ p) : j.peerFinishes p = none := by
  unfold Instr.peerFinishes
  split
  · exact if_neg (Nat.ne_of_lt (lt_of_lt_of_le ha hp))
  · exact if_neg (Nat.ne_of_lt (lt_of_lt_of_le ha hp))
  · rfl

lemma Registered.quiet {c c' : Config} (h : Registered c) (hc : Constructed c) (hq : Quiet c c') :
    Registered c' where
  peers := by
    intro k p hp
    have hp' := hq.same.peers k p hp
    rw [hq.same.handle p (hc.heap.peers p (LinkedMap.mem_values_of_lookup hp'))]
    exact h.peers k p hp'
  channels := by
    intro p k d hd
    rw [hq.same.channelHandle,hq.same.owner]
    exact h.channels p k d (hq.same.channels p k d hd)
  freshPeer := by
    intro p hp
    rw [hq.same.peerStarted,hq.same.peerHandled]
    exact h.freshPeer p (hq.same.nextPeer.trans hp)
  freshChannel := by
    intro d hd
    rw [hq.same.channelStarted,hq.same.channelHandled,hq.same.messages]
    exact h.freshChannel d (hq.same.nextChannel ▸ hd)
  unpublished := by
    intro t p j hj hjr
    obtain ⟨hu,ho⟩ := h.unpublished t p j (mem_of_active (hq.code t) hj (inert_of_registers hjr)) hjr
    refine ⟨⟨fun k hk => hu.registered k (hq.same.peers k p hk),fun u => ?_,?_,?_⟩,
      fun u hut k hk => ?_⟩
    · have := hq.filterMap (reads_peerFinishes p) u
      rw [hu.pending u] at this
      exact List.sublist_nil.mp this
    · rw [hq.same.peerStarted]
      exact hu.started
    · rw [hq.same.peerHandled]
      exact hu.handled
    · rw [Bool.eq_false_iff]
      intro hkr
      have hk' := mem_of_active (hq.code u) hk (inert_of_registers hkr)
      rw [ho u hut k hk'] at hkr
      cases hkr

lemma channel_of_fresh {j : Instr} {d : ChannelId} {s : Shared} (ha : j.Allocated s)
    (hd : s.nextChannel ≤ d) :
    j.channelBegins d = none ∧ j.channelFinishes d = none ∧ j.channelMessage d = none := by
  have hne : ∀ c < s.nextChannel, ¬c = d := fun c hc => Nat.ne_of_lt (lt_of_lt_of_le hc hd)
  refine ⟨?_,?_,?_⟩
  · unfold Instr.channelBegins
    split
    · exact if_neg (hne _ ha)
    · rfl
  · unfold Instr.channelFinishes
    split
    · exact if_neg (hne _ ha)
    · exact if_neg (hne _ ha)
    · rfl
  · unfold Instr.channelMessage
    split
    · exact if_neg (hne _ ha)
    · exact if_neg (hne _ ha.1)
    · exact if_neg (hne _ ha.1)
    · rfl

lemma peerBegins_of_peerFinishes {j : Instr} {p : PeerId} (h : j.peerFinishes p = none) :
    j.peerBegins p = none := by
  unfold Instr.peerBegins
  split
  · exact h
  · rfl

/-- Only the constructor of a peer starts a registration. -/
lemma Move.registers {s s' : Shared} {i j : Instr} {code : List Instr} {p : PeerId}
    (h : Move s i s' code) (hj : j ∈ code) (hp : j.registers p = true) :
    i.registers p = true ∧ i ≠ .runtime (.registerPeer p) ∨
      p = s.nextPeer ∧ SameDeliveries s s' ∧ code = [.runtime (.registerLock p)] := by
  have hdel := delivers_of_registers hp
  have hinert := inert_of_registers hp
  cases h with
  | construct handle capacity timeout =>
    cases List.mem_singleton.mp hj
    have hq : s.nextPeer = p := of_decide_eq_true hp
    exact .inr ⟨hq.symm,.newPeer handle capacity timeout,by rw [hq]⟩
  | @proceed i j' q s' hi hn hj' same =>
    cases List.mem_singleton.mp hj
    have hq : q = p := by
      unfold Instr.registers at hj' hp
      split at hp <;> first | exact (of_decide_eq_true hj').symm.trans (of_decide_eq_true hp) | cases hp
    subst hq
    exact .inl ⟨hi,hn⟩
  | poll hk =>
    cases List.mem_singleton.mp hj
    rcases hk with hk | rfl
    · rw [hk] at hinert
      cases hinert
    · cases hp
  | registerChannel before after hi hb ha =>
    simp only [List.mem_append,List.mem_map,or_assoc] at hj
    rcases hj with hj | ⟨e,-,rfl⟩ | hj
    · obtain ⟨y,rfl⟩ := hb j hj
      cases hp
    · cases hp
    · rw [ha j hj] at hinert
      cases hinert
  | registerPeer q =>
    simp only [List.mem_append,List.mem_map,List.mem_singleton] at hj
    rcases hj with ⟨e,-,rfl⟩ | rfl <;> cases hp
  | handle h =>
    rcases List.mem_append.mp hj with hj | hj
    · cases PeerConnection.handled_of_handleNativeEvent h <;> simp at hj <;> subst hj <;> cases hp
    · cases List.mem_singleton.mp hj
      cases hp
  | channelHandle h =>
    rcases List.mem_append.mp hj with hj | hj
    · unfold DataChannel.handleNativeEvent at h
      split at h <;> cases h <;> simp at hj <;> grind [Instr.registers]
    · cases List.mem_singleton.mp hj
      cases hp
  | direct found | suspend q x =>
    cases List.mem_singleton.mp hj
    cases hp
  | park missing | handled q e | channelHandled c e | put hi => cases hj

section Moves
variable {c : Config} {t : TaskId} {i : Instr} {rest code : List Instr} {s : Shared}

/-- A peer that is still on the way to its registration is not reached by the step. -/
lemma Unpublished.moves {p : PeerId} (hu : Unpublished c p) (head : c.tasks t = i :: rest)
    (hm : Move c.shared i s code) (hn : i ≠ .runtime (.registerPeer p)) :
    Unpublished ⟨s,Function.update c.tasks t (code ++ rest)⟩ p := by
  have hpend := hu.pending t
  rw [head,List.filterMap_eq_nil_iff] at hpend
  have hi : i.peerFinishes p = none := hpend i (by simp)
  have hrest : rest.filterMap (Instr.peerFinishes p) = [] :=
    List.filterMap_eq_nil_iff.mpr fun j hj => hpend j (by simp [hj])
  have hf : ¬Move.Feeds c.shared p i := by
    rintro (⟨e,-,he⟩ | he)
    · exact hu.registered _ he
    · exact hn he
  have hb := hm.passes_peerBegins p hf
  have hf := hm.passes_peerFinishes p hf
  rw [hu.started] at hb
  rw [hu.handled] at hf
  refine ⟨fun k hk => ?_,fun u => ?_,(hb.nil (peerBegins_of_peerFinishes hi)).1,(hf.nil hi).1⟩
  · rcases hm.frame.peers k p hk with hk | ⟨he,-⟩
    · exact hu.registered k hk
    · exact hn he
  · by_cases hut : u = t
    · subst hut
      simp only [Function.update_self,List.filterMap_append,(hf.nil hi).2,hrest,List.append_nil]
    · simp only [Function.update_of_ne hut]
      exact hu.pending u

lemma Registered.unpublished_moves (h : Registered c) (hc : Constructed c)
    (hnest : Nested (c.tasks t)) (head : c.tasks t = i :: rest) (hm : Move c.shared i s code) :
    ∀ u p, ∀ j ∈ Function.update c.tasks t (code ++ rest) u, j.registers p = true →
      Unpublished ⟨s,Function.update c.tasks t (code ++ rest)⟩ p ∧
        ∀ v ≠ u, ∀ k ∈ Function.update c.tasks t (code ++ rest) v, k.registers p = false := by
  intro u p j hj hjr
  have hi : i ∈ c.tasks t := by simp [head]
  by_cases hut : u = t
  · subst hut
    simp only [Function.update_self,List.mem_append] at hj
    have hcode : j ∈ code := by
      rcases hj with hj | hj
      · exact hj
      · rw [head,Nested,List.pairwise_cons] at hnest
        have := hnest.1 j hj
        rw [demand_of_registers hjr] at this
        have := one_le_supply i
        omega
    rcases hm.registers hcode hjr with ⟨hir,hn⟩ | ⟨rfl,same,rfl⟩
    · obtain ⟨hu,ho⟩ := h.unpublished u p i hi hir
      refine ⟨hu.moves head hm hn,fun v hv => ?_⟩
      rw [Function.update_of_ne hv]
      exact ho v hv
    · refine ⟨⟨fun k hk => ?_,fun v => List.filterMap_eq_nil_iff.mpr fun k hk => ?_,?_,?_⟩,
        fun v hv k hk => ?_⟩
      · have := hc.heap.peers _ (LinkedMap.mem_values_of_lookup (same.peers k _ hk))
        exact absurd this (lt_irrefl _)
      · by_cases hv : v = u
        · subst hv
          simp only [Function.update_self,List.mem_append,List.mem_singleton] at hk
          rcases hk with rfl | hk
          · rfl
          · exact peerFinishes_of_fresh (hc.code v k (by simp [head,hk])) le_rfl
        · simp only [Function.update_of_ne hv] at hk
          exact peerFinishes_of_fresh (hc.code v k hk) le_rfl
      · rw [same.peerStarted]
        exact (h.freshPeer _ le_rfl).1
      · rw [same.peerHandled]
        exact (h.freshPeer _ le_rfl).2
      · rw [Function.update_of_ne hv] at hk
        rw [Bool.eq_false_iff]
        exact fun hkr => absurd (allocated_of_registers hkr (hc.code v k hk)) (lt_irrefl _)
  · rw [Function.update_of_ne hut] at hj
    obtain ⟨hu,ho⟩ := h.unpublished u p j hj hjr
    have hir : i.registers p = false := ho t (Ne.symm hut) i hi
    refine ⟨hu.moves head hm ?_,fun v hv k hk => ?_⟩
    · rintro rfl
      simp [Instr.registers] at hir
    · by_cases hvt : v = t
      · subst hvt
        simp only [Function.update_self,List.mem_append] at hk
        rcases hk with hk | hk
        · rw [Bool.eq_false_iff]
          intro hkr
          rcases hm.registers hk hkr with ⟨hir',-⟩ | ⟨rfl,-⟩
          · rw [hir] at hir'
            cases hir'
          · exact lt_irrefl _ (allocated_of_registers hjr (hc.code u j hj))
        · exact ho v hv k (by simp [head,hk])
      · rw [Function.update_of_ne hvt] at hk
        exact ho v hv k hk

lemma Registered.moves (h : Registered c) (hc : Constructed c) (hnest : Nested (c.tasks t))
    (head : c.tasks t = i :: rest) (hm : Move c.shared i s code) :
    Registered ⟨s,Function.update c.tasks t (code ++ rest)⟩ where
  peers := by
    intro k p hk
    rcases hm.frame.peers k p hk with hk' | ⟨rfl,rfl⟩
    · rw [hm.frame.handle p (hc.heap.peers p (LinkedMap.mem_values_of_lookup hk'))]
      exact h.peers k p hk'
    · have hp : (Instr.runtime (.registerPeer p)).Allocated c.shared := hc.code t _ (by simp [head])
      exact hm.frame.handle p hp
  channels := by
    intro p k d hd
    rcases hm.frame.channels p k d hd with hd' | ⟨rfl,hh,ho⟩
    · have hlt := hc.heap.channels p d (LinkedMap.mem_values_of_lookup hd')
      rw [(hm.frame.channel d hlt).1,(hm.frame.channel d hlt).2]
      exact h.channels p k d hd'
    · exact ⟨hh,ho⟩
  freshPeer := by
    intro p hp
    have hp' := hm.frame.nextPeer.trans hp
    have ha := hc.code t i (by simp [head])
    have hi := peerFinishes_of_fresh ha hp'
    have hf : ¬Move.Feeds c.shared p i := by
      rintro (⟨e,-,he⟩ | rfl)
      · exact absurd (hc.heap.peers p (LinkedMap.mem_values_of_lookup he)) (not_lt.mpr hp')
      · exact absurd ha (not_lt.mpr hp')
    have hb := hm.passes_peerBegins p hf
    have hf := hm.passes_peerFinishes p hf
    rw [(h.freshPeer p hp').1] at hb
    rw [(h.freshPeer p hp').2] at hf
    exact ⟨(hb.nil (peerBegins_of_peerFinishes hi)).1,(hf.nil hi).1⟩
  freshChannel := by
    intro d hd
    have hd' := hm.frame.nextChannel.trans hd
    obtain ⟨h₁,h₂,h₃⟩ := channel_of_fresh (hc.code t i (by simp [head])) hd'
    have hr : ¬Move.Routes c.shared d i := by
      rintro ⟨p,e,rfl,he⟩
      have hh := PeerConnection.handled_of_handleNativeEvent he
      rcases (reads_channelBegins d).handled hh with hn | ⟨d',hl,hd'⟩
      · simp [Instr.channelBegins] at hn
      · cases hd'
        exact absurd (hc.heap.channels p d (LinkedMap.mem_values_of_lookup hl))
          (not_lt.mpr (hm.frame.nextChannel.trans hd))
    have hb := hm.passes_channelBegins (.inr hd) hr
    have hf := hm.passes_channelFinishes (.inr hd) hr
    have hs := hm.passes_channelMessage (.inr hd) hr
    rw [(h.freshChannel d hd').1] at hb
    rw [(h.freshChannel d hd').2.1] at hf
    rw [(h.freshChannel d hd').2.2] at hs
    exact ⟨(hb.nil h₁).1,(hf.nil h₂).1,(hs.nil h₃).1⟩
  unpublished := h.unpublished_moves hc hnest head hm

end Moves

theorem registered_of_reachable {shutdownTimeout : ℤ} {fingerprint : String}
    {ok : Label → Config → Prop} {c : Config} (h : Reachable shutdownTimeout fingerprint ok c) :
    Registered c := by
  refine h.induct ?_ fun l d d' hd hI _ hs => ?_
  · refine ⟨?_,?_,?_,?_,?_⟩
    · simp [init]
    · simp [init]
    · simp [init]
    · simp [init,History.messages]
    · intro t p j hj hjr
      simp only [init] at hj
      split_ifs at hj
      · simp only [List.mem_cons,List.not_mem_nil,or_false] at hj
        rcases hj with rfl | rfl <;> cases hjr
      · cases hj
  · have hc := constructed_of_reachable hd
    rcases delivery_cases hs with hq | ⟨t,x,i,rest,s,code,-,head,-,hm,rfl⟩
    · exact hI.quiet hc hq
    · exact hI.moves hc (nested_of_reachable hd t) head hm

end Kestara.Kotlin
