import Kestara.Kotlin.ChannelStates
import Kestara.Kotlin.OpenEvents

/-!
# The events of a DataChannel

`emitted` is what has been put on `channel.events`. The Open event is paid for by the reports of
the native side: each OPEN event that a channel takes up is good for one Open event at most.
-/
namespace Kestara.Kotlin
open Interleaving

/-- The events put on `channel.events`, the oldest first. -/
def emitted (d : ChannelId) (s : Shared) : List DataChannelEvent :=
  s.history.put.filterMap fun y =>
    match y with
    | (.event d',.event e) => if d' = d then some e else none
    | _ => none

section Emission
variable {s s' : Shared} {d : ChannelId}

lemma emitted_append {q : QueueRef} {x : Item} (h : s'.history.put = s.history.put ++ [(q,x)]) :
    emitted d s' = emitted d s ∧ (∀ y, ¬ (q = .event d ∧ x = .event y)) ∨
      ∃ y, q = .event d ∧ x = .event y ∧ emitted d s' = emitted d s ++ [y] := by
  simp only [emitted,h,List.filterMap_append,List.filterMap_cons,List.filterMap_nil]
  split
  · next he =>
    refine .inl ⟨by simp,?_⟩
    rintro y ⟨rfl,rfl⟩
    simp at he
  · next y he =>
    refine .inr ⟨y,?_⟩
    split at he
    · next h₁ =>
      split_ifs at he with hd
      cases he
      cases h₁
      exact ⟨hd ▸ rfl,rfl,rfl⟩
    · cases he

/-- A step emits nothing, or the event its instruction sends. -/
lemma emitted_exec {x : Choice} {t : TaskId} {i : Instr} {code : List Instr}
    (h : exec x t i s = .next s' code) (d : ChannelId) : emitted d s' = emitted d s ∨
      ∃ y, i.sends (.event d) (.event y) ∧
        (i = .send (.event d) (.event y) → (s.queue (.event d)).closed = false) ∧
        code = [] ∧ emitted d s' = emitted d s ++ [y] := by
  obtain ⟨hput,-⟩ | ⟨q,z,hi,hopen,-,hput,-⟩ := (queueEffect_exec s h).contents
  · exact .inl (by simp [emitted,hput])
  · obtain ⟨he,-⟩ | ⟨y,rfl,rfl,he⟩ := emitted_append (d := d) hput
    · exact .inl he
    · refine .inr ⟨y,hi,hopen,?_,he⟩
      obtain ⟨hcode,-⟩ | ⟨-,-,rfl⟩ := send_cases hi h
      · exact hcode
      · simp at hput

lemma emitted_throw {x : Choice} {t : TaskId} {i : Instr} {e : Exn}
    (h : exec x t i s = .throw s' e) : emitted d s' = emitted d s := by
  simp [emitted,(objects_of_throw h).put]

/-- Nothing has been emitted for a channel that does not exist. -/
lemma emitted_fresh (hput : ∀ y ∈ s.history.put, y.1.Allocated s) (hd : s.nextChannel ≤ d) :
    emitted d s = [] := by
  simp only [emitted,List.filterMap_eq_nil_iff]
  rintro ⟨q,x⟩ hy
  split
  · next d' e he =>
    cases he
    have hlt : d' < s.nextChannel := hput _ hy
    exact if_neg (Nat.ne_of_lt (lt_of_lt_of_le hlt hd))
  · rfl

end Emission

section Reports
variable {s s' : Shared} {d : ChannelId}

/-- The OPEN events the channel has taken up. -/
def openReported (d : ChannelId) (s : Shared) : ℕ :=
  s.history.channelStarted.countP fun y => y.1 = d ∧ y.2.kind? = some .dataChannelOpen

/-- An event is taken up by `handleNativeEvent` only. -/
lemma started_exec {x : Choice} {t : TaskId} {i : Instr} {code : List Instr}
    (h : exec x t i s = .next s' code) :
    s'.history.channelStarted = s.history.channelStarted ∨ ∃ c e, i = .channel c (.handle e) ∧
      s'.history.channelStarted = s.history.channelStarted ++ [(c,e)] := by
  by_cases hi : i.isSystem = true
  · obtain hs | ⟨handle,capacity,timeout,rfl,-⟩ := objects_of_system hi h
    · exact .inl hs.channelStarted
    · exact .inl rfl
  · have hok := execOk_of_object (by simpa using hi) h
    cases i with
    | submit | loop | runtime => exact (hi rfl).elim
    | channel c i =>
      revert hok
      simp only [execOk]
      fun_cases DataChannel.exec c i s <;> intro hok
      case case7 =>
        unfold execAwait at hok
        split at hok <;> cases hok
        exact .inl rfl
      case case9 e code he =>
        cases hok
        exact .inr ⟨c,e,rfl,rfl⟩
      all_goals cases hok
      all_goals exact .inl rfl
    | peer p i =>
      refine .inl ?_
      revert hok
      simp only [execOk]
      fun_cases PeerConnection.exec p i s <;> intro hok
      case case8 =>
        unfold execAwait at hok
        split at hok <;> cases hok
        rfl
      case case10 e s'' code' he =>
        cases hok
        cases PeerConnection.handled_of_handleNativeEvent he <;> rfl
      all_goals cases hok
      all_goals rfl
    | send q y =>
      simp only [execOk,execSend] at hok
      split_ifs at hok <;> cases hok <;> exact .inl rfl
    | sendSuspended q y =>
      simp only [execOk,execSendSuspended] at hok
      split_ifs at hok
      cases hok
      exact .inl rfl
    | closeQueue q =>
      cases hok
      exact .inl rfl

lemma openReported_append {c : ChannelId} {e : NativeEvent}
    (h : s'.history.channelStarted = s.history.channelStarted ++ [(c,e)]) :
    openReported d s' =
      openReported d s + if c = d ∧ e.kind? = some .dataChannelOpen then 1 else 0 := by
  simp only [openReported,h,List.countP_append,List.countP_singleton]
  simp

lemma openReported_le {x : Choice} {t : TaskId} {i : Instr} {code : List Instr}
    (h : exec x t i s = .next s' code) : openReported d s ≤ openReported d s' := by
  obtain hs | ⟨c,e,-,hs⟩ := started_exec h
  · simp [openReported,hs]
  · rw [openReported_append hs]
    exact Nat.le_add_right _ _

end Reports

section Notifications
variable {d : ChannelId}

/-- The instructions of `notifyOpen` that end in an Open event. -/
def Instr.notifies (d : ChannelId) : Instr → ℕ
  | .channel d' .notifyOpen | .channel d' .notifyOpenState
  | .send (.event d') (.event .open) | .sendSuspended (.event d') (.event .open) =>
    if d' = d then 1 else 0
  | _ => 0

def openEmitted (d : ChannelId) (s : Shared) : ℕ := (emitted d s).count .open

lemma notifies_of_sends {i : Instr} {q : QueueRef} {x : Item} (h : i.sends q x) :
    i.notifies d = if q = .event d ∧ x = .event .open then 1 else 0 := by
  obtain rfl | rfl := h
  all_goals
    unfold Instr.notifies
    split <;> simp_all

lemma notifies_handle {c : ChannelId} {e : NativeEvent} {code : List Instr}
    (h : DataChannel.handleNativeEvent c e = .ok code) : weight (Instr.notifies d) code =
      if c = d ∧ e.kind? = some .dataChannelOpen then 1 else 0 := by
  unfold DataChannel.handleNativeEvent at h
  split at h <;> cases h <;> simp_all [Instr.notifies]

lemma notifies_channel {s s' : Shared} {c : ChannelId} {i : ChannelInstr} {code : List Instr}
    (h : DataChannel.exec c i s = .next s' code) :
    weight (Instr.notifies d) code + openReported d s ≤
      (Instr.channel c i).notifies d + openReported d s' := by
  revert h
  fun_cases DataChannel.exec c i s <;> intro h
  case case7 =>
    unfold execAwait at h
    split at h <;> cases h
    exact Nat.add_le_add_right (Nat.zero_le _) _
  case case9 e code he =>
    have hr : openReported d
        (s.record fun h => { h with channelStarted := h.channelStarted ++ [(c,e)] }) =
          openReported d s + if c = d ∧ e.kind? = some .dataChannelOpen then 1 else 0 :=
      openReported_append rfl
    cases h
    rw [hr,weight_append,notifies_handle he]
    simp [Instr.notifies]
    omega
  case case17 b _ =>
    cases h
    refine Nat.add_le_add_right ?_ _
    cases b <;> simp [DataChannel.teardown,Instr.notifies]
  all_goals cases h
  all_goals exact Nat.add_le_add_right (by simp [Instr.notifies,DataChannel.closeBody]) _

lemma notifies_peer {s s' : Shared} {p : PeerId} {i : PeerInstr} {code : List Instr}
    (h : PeerConnection.exec p i s = .next s' code) (hd : d < s.nextChannel ∨
      ∀ e info, i = .registerRemote e → remoteChannelInfo e ≠ some (info,true)) :
    weight (Instr.notifies d) code = 0 := by
  by_cases hi : ∃ e, i = .registerRemote e
  · obtain ⟨e,rfl⟩ := hi
    simp only [PeerConnection.exec] at h
    split at h
    · cases h
    · next info b hinfo =>
      cases h
      apply weight_eq_zero
      intro j hj
      simp only [List.mem_append,List.mem_singleton,List.mem_map] at hj
      obtain (rfl | ⟨e',-,rfl⟩) | hj := hj
      · rfl
      · rfl
      · split_ifs at hj with hb
        · subst hb
          cases List.mem_singleton.mp hj
          obtain hd | hd := hd
          · exact if_neg (Nat.ne_of_gt hd)
          · exact absurd hinfo (hd e info rfl)
        · cases hj
  · have hl := leaves_peer s p i
    rw [h] at hl
    apply weight_eq_zero
    intro j hj
    have hj := hl j hj
    unfold Instr.notifies
    split
    · obtain ⟨e,he⟩ | ⟨q,e,he⟩ := origin_of_leaves hj
      · cases he
      · cases he
        exact absurd ⟨e,rfl⟩ hi
    · cases origin_of_leaves hj
    · obtain ⟨k,hk⟩ := origin_of_leaves hj
      cases hk
    · cases origin_of_leaves hj
    · rfl

lemma notifies_system {i j : Instr} (hi : i.isSystem = true) (h : i.leaves j) :
    j.notifies d = 0 := by
  unfold Instr.notifies
  split
  · obtain ⟨e,rfl⟩ | ⟨p,e,rfl⟩ := origin_of_leaves h <;> cases hi
  · obtain rfl := origin_of_leaves h
    cases hi
  · obtain ⟨k,rfl⟩ := origin_of_leaves h
    cases hi
  · obtain rfl := origin_of_leaves h
    cases hi
  · rfl

/-- What a step that sends nothing adds is paid for by the report it takes up. -/
lemma notifies_exec {s s' : Shared} {x : Choice} {t : TaskId} {i : Instr} {code : List Instr}
    (h : exec x t i s = .next s' code) (hs : ∀ q y, ¬ i.sends q y) (hd : d < s.nextChannel ∨
      ∀ p e info, i = .peer p (.registerRemote e) → remoteChannelInfo e ≠ some (info,true)) :
    weight (Instr.notifies d) code + openReported d s ≤ i.notifies d + openReported d s' := by
  have hle := openReported_le (d := d) h
  by_cases hi : i.isSystem = true
  · have hl := leaves_exec s x t i
    rw [h] at hl
    rw [weight_eq_zero fun j hj => notifies_system hi (hl j hj)]
    omega
  · have hok := execOk_of_object (by simpa using hi) h
    cases i with
    | submit | loop | runtime => exact (hi rfl).elim
    | channel c i => exact notifies_channel hok
    | peer p i =>
      rw [notifies_peer hok (hd.imp_right fun hd e info hi => hd p e info (hi ▸ rfl))]
      omega
    | send q y => exact absurd (.inl rfl) (hs q y)
    | sendSuspended q y => exact absurd (.inr rfl) (hs q y)
    | closeQueue q =>
      cases hok
      exact Nat.add_le_add_right (Nat.zero_le _) _

lemma openEmitted_append {q : QueueRef} {x : Item} {s s' : Shared}
    (h : s'.history.put = s.history.put ++ [(q,x)]) :
    openEmitted d s' = openEmitted d s + if q = .event d ∧ x = .event .open then 1 else 0 := by
  obtain ⟨he,hn⟩ | ⟨y,rfl,rfl,he⟩ := emitted_append (d := d) h
  · rw [openEmitted,he,if_neg (hn _)]
    rfl
  · by_cases hy : y = .open
    · simp [openEmitted,he,hy]
    · simp [openEmitted,he,hy]

lemma pays_notifies {s : Shared} {x : Choice} {t : TaskId} {i : Instr} (hd : d < s.nextChannel) :
    Pays (Instr.notifies d) (openEmitted d) (openReported d) s i (exec x t i s) := by
  cases ho : exec x t i s with
  | blocked | fork => trivial
  | throw s' e =>
    have hs := objects_of_throw ho
    simp [Pays,openEmitted,openReported,emitted_throw ho,hs.channelStarted]
  | next s' code =>
    change weight (Instr.notifies d) code + openEmitted d s' + openReported d s ≤ _
    by_cases hsend : ∃ q y, i.sends q y
    · have hle := openReported_le (d := d) ho
      obtain ⟨q,y,hs⟩ := hsend
      obtain ⟨rfl,hput⟩ | ⟨rfl,rfl,rfl⟩ := send_cases hs ho
      · rw [openEmitted_append hput,notifies_of_sends hs,weight_nil]
        omega
      · rw [notifies_of_sends (.inl rfl),weight_cons,notifies_of_sends (.inr rfl)]
        simp
    · have hexec := notifies_exec ho (fun q y h => hsend ⟨q,y,h⟩) (.inl hd)
      obtain he | ⟨y,hs,-⟩ := emitted_exec ho d
      · simp only [openEmitted,he]
        omega
      · exact absurd ⟨_,_,hs⟩ hsend

end Notifications

end Kestara.Kotlin
