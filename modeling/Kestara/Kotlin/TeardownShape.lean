import Kestara.Kotlin.CloseSteps

/-!
# Shape of teardown code

`markClosed` of a peer is always followed by the completion of its `closeCompletion`, the
snapshot of its channels by the close of its queues, and the Closed event of a channel by the
close of the event queue. So what is due of a teardown stays due until it is run.
-/
namespace Kestara.Kotlin
open Interleaving

/-- What has to follow an instruction in its coroutine. -/
def Instr.Expects : Instr → List Instr → Prop
  | .peer p (.markClosed _),rest => ∃ r rest', rest = .peer p (.complete r) :: rest'
  | .peer _ (.takeChannels _),rest => Covered rest
  | .channel d .catchClose,rest => ∃ rest', rest = .channel d .awaitClosed :: rest'
  | .send (.event d) x,rest | .sendSuspended (.event d) x,rest =>
    x.isClosed = true → .closeQueue (.event d) ∈ rest
  | _,_ => True

def Formed : List Instr → Prop
  | [] => True
  | i :: rest => i.Expects rest ∧ Formed rest

lemma Instr.Expects.append {i : Instr} {rest more : List Instr} (h : i.Expects rest) :
    i.Expects (rest ++ more) := by
  unfold Instr.Expects at h ⊢
  split at h
  · obtain ⟨r,rest',rfl⟩ := h
    exact ⟨r,rest' ++ more,rfl⟩
  · obtain ⟨before,p,after,rfl,ht⟩ := h
    exact ⟨before,p,after ++ more,by simp,ht⟩
  · obtain ⟨rest',rfl⟩ := h
    exact ⟨rest' ++ more,rfl⟩
  · exact fun hx => List.mem_append_left _ (h hx)
  · exact fun hx => List.mem_append_left _ (h hx)
  · trivial

lemma Formed.append {code rest : List Instr} (hc : Formed code) (hr : Formed rest) :
    Formed (code ++ rest) := by
  induction code with
  | nil => exact hr
  | cons i code ih => exact ⟨hc.1.append,ih hc.2⟩

lemma formed_of_forall {code : List Instr} (h : ∀ j ∈ code, ∀ rest, j.Expects rest) :
    Formed code := by
  induction code with
  | nil => trivial
  | cons i code ih => exact ⟨h i (by simp) _,ih fun j hj => h j (by simp [hj])⟩

lemma formed_handler {e : Exn} {i : Instr} {code : List Instr} (h : handler e i = some code) :
    Formed code := by
  unfold handler at h
  split at h <;> cases h <;> simp [Formed,Instr.Expects]

lemma Formed.afterThrow {e : Exn} {code : List Instr} (h : Formed code) :
    Formed (afterThrow e code) := by
  induction code with
  | nil => trivial
  | cons i code ih =>
    unfold Kotlin.afterThrow
    cases hc : handler e i with
    | none => exact ih h.2
    | some l => exact (formed_handler hc).append h.2

section Steps
variable (s : Shared)

lemma formed_handleNativeEvent {c : ChannelId} {e : NativeEvent} {code : List Instr}
    (h : DataChannel.handleNativeEvent c e = .ok code) : Formed code := by
  unfold DataChannel.handleNativeEvent at h
  split at h <;> cases h <;> simp [Formed,Instr.Expects,Item.isClosed]

lemma formed_channel {c : ChannelId} {i : ChannelInstr} {s' : Shared} {code : List Instr}
    (h : DataChannel.exec c i s = .next s' code) : Formed code := by
  revert h
  fun_cases DataChannel.exec c i s <;> intro h
  case case7 =>
    unfold execAwait at h
    split at h <;> cases h
    trivial
  case case9 e code he =>
    cases h
    exact (formed_handleNativeEvent he).append ⟨trivial,trivial⟩
  case case17 b _ =>
    cases h
    cases b <;> simp [DataChannel.teardown,Formed,Instr.Expects]
  all_goals cases h
  all_goals simp [Formed,Instr.Expects,DataChannel.closeBody,Item.isClosed]

lemma covered_teardown (p : PeerId) (b : Bool) :
    Covered ((PeerConnection.teardown p b).drop 2) := by
  refine ⟨[.peer p (.setState .closed),.peer p (.setSignalingState .closed)],p,_,rfl,?_⟩
  simp [Instr.tearing]

lemma formed_peer_teardown (p : PeerId) (b : Bool) : Formed (PeerConnection.teardown p b) := by
  refine ⟨trivial,covered_teardown p b,?_⟩
  simp [Formed,Instr.Expects]

lemma formed_peer {p : PeerId} {i : PeerInstr} {s' : Shared} {code : List Instr}
    (h : PeerConnection.exec p i s = .next s' code) : Formed code := by
  revert h
  fun_cases PeerConnection.exec p i s <;> intro h
  case case8 =>
    unfold execAwait at h
    split at h <;> cases h
    trivial
  case case3 =>
    cases h
    apply formed_of_forall
    intro j hj rest
    obtain hj | hj := List.mem_append.mp hj
    · obtain ⟨e,-,rfl⟩ := List.mem_map.mp hj
      trivial
    · cases List.mem_singleton.mp hj
      trivial
  case case13 b _ _ =>
    cases h
    apply formed_of_forall
    intro j hj rest
    simp only [List.mem_append,List.mem_singleton,List.mem_map,or_assoc] at hj
    obtain rfl | ⟨e,-,rfl⟩ | hj := hj
    · trivial
    · trivial
    · split_ifs at hj
      · cases List.mem_singleton.mp hj
        trivial
      · cases hj
  case case10 e s'' code' he =>
    cases h
    cases PeerConnection.handled_of_handleNativeEvent he <;> simp [Formed,Instr.Expects]
  case case17 b hc =>
    cases h
    exact formed_peer_teardown p b
  case case19 b =>
    cases h
    apply formed_of_forall
    intro j hj rest
    obtain ⟨e,-,rfl⟩ := List.mem_map.mp hj
    trivial
  all_goals cases h
  all_goals simp [Formed,Instr.Expects,PeerConnection.closeBody]

lemma expects_system {i j : Instr} (hi : i.isSystem = true) (h : i.leaves j) (rest : List Instr) :
    j.Expects rest := by
  cases i with
  | send | sendSuspended | closeQueue | channel | peer => cases hi
  | submit i =>
    cases i with
    | await op r =>
      unfold Instr.Expects
      split <;> cases r <;> simp_all [Instr.leaves,SubmitInstr.leaves,Resume.leaves]
    | begin b =>
      obtain ⟨op,rfl⟩ := h
      trivial
    | _ =>
      subst h
      trivial
  | loop i =>
    unfold Instr.Expects
    split <;> cases i <;> simp_all [Instr.leaves,LoopInstr.leaves]
  | runtime i =>
    unfold Instr.Expects
    split <;> cases i <;> simp_all [Instr.leaves,RuntimeInstr.leaves,WebRtcRuntime.closeBody,
      WebRtcRuntime.teardown,WebRtcRuntime.afterDrain]

/-- What a step leaves is well formed, in front of what follows it. -/
lemma formed_exec {x : Choice} {t : TaskId} {i : Instr} {s' : Shared} {code rest : List Instr}
    (h : exec x t i s = .next s' code) (hr : Formed (i :: rest)) : Formed (code ++ rest) := by
  by_cases hi : i.isSystem = true
  · have hl := leaves_exec s x t i
    rw [h] at hl
    exact (formed_of_forall fun j hj => expects_system hi (hl j hj)).append hr.2
  · have hok := execOk_of_object (by simpa using hi) h
    cases i with
    | submit | loop | runtime => exact (hi rfl).elim
    | channel c i => exact (formed_channel s hok).append hr.2
    | peer p i => exact (formed_peer s hok).append hr.2
    | send q y =>
      simp only [execOk,execSend] at hok
      split_ifs at hok <;> cases hok
      · exact hr.2
      · refine ⟨?_,hr.2⟩
        cases q <;> exact hr.1
    | sendSuspended q y =>
      simp only [execOk,execSendSuspended] at hok
      split_ifs at hok
      cases hok
      exact hr.2
    | closeQueue q =>
      cases hok
      exact hr.2

end Steps

theorem formed_of_reachable {shutdownTimeout : ℤ} {fingerprint : String}
    {ok : Label → Config → Prop} {c : Config} (h : Reachable shutdownTimeout fingerprint ok c) :
    ∀ t, Formed (c.tasks t) := by
  refine h.invariant (I := fun c => ∀ t, Formed (c.tasks t)) ?_ ?_
  · intro t
    simp only [init]
    split_ifs <;> simp [Formed,Instr.Expects]
  · intro l d d' hd _ hs t
    cases step_cases hs with
    | @task _ x u _ hl active ht =>
      cases ht with
      | @next i rest s code head he =>
        by_cases hu : t = u
        · subst hu
          simp only [Function.update_self]
          exact formed_exec d.shared he (head ▸ hd t)
        · simpa only [Function.update_of_ne hu] using hd t
      | @throw i rest s e head he =>
        by_cases hu : t = u
        · subst hu
          simp only [Function.update_self]
          have := hd t
          rw [head] at this
          exact this.2.afterThrow
        · simpa only [Function.update_of_ne hu] using hd t
    | @call u a hu idle admitted =>
      by_cases he : t = u
      · subst he
        simp only [Function.update_self]
        cases a <;> simp [Api.code,Formed,Instr.Expects]
      · simpa only [Function.update_of_ne he] using hd t
    | receive hu idle hr => exact hd t
    | cancel | native => exact hd t

/-- A due instruction stays due until it is run, unless an exception interrupts its teardown. -/
lemma TaskStep.due {x : Choice} {t u : TaskId} {c c' : Config} {j : Instr}
    (hs : TaskStep x t c c') (hformed : Formed (c.tasks t)) (hd : Due (c.tasks u) j)
    (hno : ∀ i rest s e, c.tasks t = i :: rest → i = j ∨ i.tearing = true →
      exec x t i c.shared ≠ .throw s e) :
    Due (c'.tasks u) j ∨ ∃ rest code, c.tasks t = j :: rest ∧
      exec x t j c.shared = .next c'.shared code ∧ c'.tasks t = code ++ rest := by
  cases hs with
  | @next i rest s code head he =>
    by_cases hu : u = t
    · subst hu
      simp only [Function.update_self]
      rw [head] at hd hformed
      cases hd with
      | now => exact .inr ⟨rest,code,head,he,rfl⟩
      | later hi _ hd =>
        have hl := leaves_exec c.shared x u i
        rw [he] at hl
        refine .inl (hd.append (fun k hk => (tearing_leaves hi (hl k hk)).1) fun d hdc => ?_)
        obtain ⟨p,rfl⟩ := leaves_markClosed hi (hl _ hdc)
        exact hformed.1
    · exact .inl (by simpa only [Function.update_of_ne hu] using hd)
  | @throw i rest s e head he =>
    by_cases hu : u = t
    · subst hu
      rw [head] at hd
      cases hd with
      | now => exact (hno _ rest s e head (.inl rfl) he).elim
      | later hi _ _ => exact (hno i rest s e head (.inr hi) he).elim
    · exact .inl (by simpa only [Function.update_of_ne hu] using hd)

end Kestara.Kotlin
