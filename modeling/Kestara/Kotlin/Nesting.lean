import Kestara.Kotlin.DeliverySteps

/-!
# Nesting of the deliveries

A delivery to a channel runs inside one to its peer, and that inside the body of the event loop
or of a registration. Code left by an inner delivery never comes after code of an outer one.
-/
namespace Kestara.Kotlin
open Interleaving

/-- How far out the code is that an instruction can leave. -/
def Instr.supply : Instr → ℕ
  | .send _ _ | .sendSuspended _ _ | .closeQueue _ | .channel _ (.handle _)
  | .channel _ (.handled _) | .channel _ .notifyOpen | .channel _ .notifyOpenState
  | .channel _ (.setState _) | .channel _ (.markClosed _) | .channel _ .setClosing
  | .channel _ .onTerminal | .channel _ (.complete _) | .peer _ (.unregisterDataChannel _) => 1
  | .peer _ (.handle _) | .peer _ (.handled _) | .peer _ (.registerRemote _) => 2
  | _ => 3

/-- How far out the code before an instruction may be. -/
def Instr.demand : Instr → ℕ
  | .loop (.lookupPeer _) | .runtime (.registerLock _) | .runtime (.registerCheck _)
  | .runtime (.registerPeer _) => 0
  | .channel _ (.handle _) | .channel _ (.handled _) | .send (.message _) _
  | .sendSuspended (.message _) _ => 1
  | .peer _ (.handle _) | .peer _ (.handled _) => 2
  | _ => 3

def Nested (code : List Instr) : Prop := code.Pairwise fun i j => i.supply ≤ j.demand

lemma supply_le (i : Instr) : i.supply ≤ 3 := by
  unfold Instr.supply
  split <;> omega

lemma one_le_supply (i : Instr) : 1 ≤ i.supply := by
  unfold Instr.supply
  split <;> omega

lemma demand_of_inert {i : Instr} (h : i.inert = true) : i.demand = 3 := by
  unfold Instr.inert at h
  split at h <;> cases h
  unfold Instr.demand
  split <;> simp_all

lemma inert_of_demand {i : Instr} (h : 3 ≤ i.demand) : i.inert = true := by
  unfold Instr.demand at h
  split at h <;> first | omega | skip
  unfold Instr.inert
  split <;> simp_all

lemma nested_of_inert {code : List Instr} (h : ∀ j ∈ code, j.inert = true) : Nested code := by
  refine List.pairwise_of_forall_mem_list fun i _ j hj => ?_
  rw [demand_of_inert (h j hj)]
  exact supply_le i

/-- Code of one delivery, with inert code after it. -/
lemma nested_append_inert {code after : List Instr} (h : Nested code)
    (ha : ∀ j ∈ after, j.inert = true) : Nested (code ++ after) := by
  refine List.pairwise_append.mpr ⟨h,nested_of_inert ha,fun i _ j hj => ?_⟩
  rw [demand_of_inert (ha j hj)]
  exact supply_le i

/-- Deliveries of one level in a row. -/
lemma nested_level {code : List Instr} (n : ℕ) (hs : ∀ j ∈ code, j.supply ≤ n)
    (hd : ∀ j ∈ code, n ≤ j.demand) : Nested code :=
  List.pairwise_of_forall_mem_list fun i hi j hj => (hs i hi).trans (hd j hj)

lemma nested_channel {c : ChannelId} {e : NativeEvent} {code : List Instr}
    (h : DataChannel.handleNativeEvent c e = .ok code) :
    Nested (code ++ [.channel c (.handled e)]) := by
  refine nested_level 1 ?_ ?_ <;>
  · unfold DataChannel.handleNativeEvent at h
    split at h <;> cases h <;> simp [Instr.supply,Instr.demand]

lemma nested_peer {p : PeerId} {e : NativeEvent} {s s' : Shared} {code : List Instr}
    (h : PeerConnection.Handled p e s s' code) : Nested (code ++ [.peer p (.handled e)]) := by
  cases h <;> simp [Nested,Instr.supply,Instr.demand]

lemma nested_move {i : Instr} {s s' : Shared} {code : List Instr} (h : Move s i s' code) :
    Nested code := by
  cases h with
  | handle h => exact nested_peer (PeerConnection.handled_of_handleNativeEvent h)
  | channelHandle h => exact nested_channel h
  | registerPeer p =>
    refine nested_append_inert (nested_level 2 ?_ ?_) (by simp [Instr.inert])
    · simp [Instr.supply]
    · simp [Instr.demand]
  | registerChannel before after hi hb ha =>
    refine nested_append_inert (nested_level 1 ?_ ?_) ha
    · intro j hj
      rcases List.mem_append.mp hj with hj | hj
      · obtain ⟨y,rfl⟩ := hb j hj
        rfl
      · obtain ⟨e,-,rfl⟩ := List.mem_map.mp hj
        rfl
    · intro j hj
      rcases List.mem_append.mp hj with hj | hj
      · obtain ⟨y,rfl⟩ := hb j hj
        simp [Instr.demand]
      · obtain ⟨e,-,rfl⟩ := List.mem_map.mp hj
        rfl
  | poll hj | direct found | park missing | construct h' c' t' | proceed hi hn hj same | handled p e
  | channelHandled c e | put hi | suspend q y => simp [Nested]

lemma nested_exec {x : Choice} {t : TaskId} {i : Instr} {s s' : Shared} {code : List Instr}
    (he : exec x t i s = .next s' code) : Nested code := by
  have h := deliveryStep_exec s x t i
  rw [he] at h
  cases h with
  | silent same inert => exact nested_of_inert inert
  | move h => exact nested_move h

/-- What an instruction leaves is no further out than the instruction. -/
lemma supply_leaves {i j : Instr} (h : i.leaves j) : j.supply ≤ i.supply := by
  by_cases h3 : i.supply = 3
  · rw [h3]
    exact supply_le j
  · cases i with
    | send q x => cases h; rfl
    | sendSuspended q x => cases h
    | closeQueue q => cases h
    | channel c i =>
      cases i <;> simp only [Instr.supply,not_true] at h3 <;>
        simp only [Instr.leaves,ChannelInstr.leaves] at h
      case markClosed b =>
        cases b <;> simp only [DataChannel.teardown] at h <;> grind [Instr.supply]
      all_goals grind [Instr.supply]
    | peer p i =>
      cases i <;> simp only [Instr.supply,not_true] at h3 <;>
        simp only [Instr.leaves,PeerInstr.leaves] at h <;> grind [Instr.supply]
    | submit i => exact (h3 rfl).elim
    | loop i => exact (h3 rfl).elim
    | runtime i => exact (h3 rfl).elim

lemma supply_handler {e : Exn} {i : Instr} {code : List Instr} (h : handler e i = some code) :
    i.supply = 3 := by
  unfold handler at h
  split at h <;> first | rfl | cases h

lemma nested_afterThrow (e : Exn) {l : List Instr} (h : Nested l) : Nested (afterThrow e l) := by
  rcases afterThrow_cases e l with hn | ⟨skipped,i,rest,code,rfl,hc,hn⟩
  · rw [hn]
    exact .nil
  · have hi := (List.pairwise_append.mp h).2.1
    rw [List.pairwise_cons,supply_handler hc] at hi
    rw [hn]
    refine List.pairwise_append.mpr ⟨nested_of_inert (inert_handler hc),hi.2,fun k _ j hj => ?_⟩
    exact (supply_le k).trans (hi.1 j hj)

theorem nested_of_reachable {shutdownTimeout : ℤ} {fingerprint : String}
    {ok : Label → Config → Prop} {c : Config} (h : Reachable shutdownTimeout fingerprint ok c) :
    ∀ t, Nested (c.tasks t) := by
  refine h.invariant (I := fun c => ∀ t, Nested (c.tasks t)) ?_ ?_
  · intro t
    simp only [init]
    split_ifs
    · exact nested_of_inert (by simp [Instr.inert])
    · exact .nil
  · intro l d d' hd _ hs u
    cases step_cases hs with
    | @task _ x t _ hl active ht =>
      have hu := hd u
      cases ht with
      | @next i rest s code head he =>
        by_cases hut : u = t
        · subst hut
          simp only [Function.update_self]
          rw [head,Nested,List.pairwise_cons] at hu
          refine List.pairwise_append.mpr ⟨nested_exec he,hu.2,fun k hk j hj => ?_⟩
          have hl := leaves_exec d.shared x u i
          rw [he] at hl
          exact (supply_leaves (hl k hk)).trans (hu.1 j hj)
        · simpa only [Function.update_of_ne hut] using hu
      | @throw i rest s e head he =>
        by_cases hut : u = t
        · subst hut
          simp only [Function.update_self]
          rw [head,Nested,List.pairwise_cons] at hu
          exact nested_afterThrow e hu.2
        · simpa only [Function.update_of_ne hut] using hu
    | @call t a ht idle admitted =>
      by_cases hut : u = t
      · subst hut
        simp only [Function.update_self]
        exact nested_of_inert (inert_api _ a)
      · simpa only [Function.update_of_ne hut] using hd u
    | receive ht idle hr => exact hd u
    | cancel | native => exact hd u

end Kestara.Kotlin
