import Kestara.Library.Charges
import Kestara.Native.ChannelStream
import Kestara.Native.Duties

/-!
# Every channel is watched

A DataChannel in the registry has a poll task, which takes it out at its end, or a task that is
about to spawn one, unless its peer is gone. That holds until a shutdown cuts tasks off.
-/
namespace Kestara.Native
open Interleaving

/-- The instruction is to poll the channel of the peer, or to take it out of the registry after
that. -/
def Instr.watches (k peer_handle : UInt64) : Instr → Bool
  | .startPolling handle ph _ => handle = k ∧ ph = peer_handle
  | .poll _ handle | .deliver _ handle _ _ | .removePolled handle => handle = k
  | _ => false

/-- The instruction watches some channel. -/
def Instr.watcher : Instr → Bool
  | .startPolling _ _ _ | .poll _ _ | .deliver _ _ _ _ | .removePolled _ => true
  | _ => false

/-- The peer to which the instruction is going to add a channel. -/
def Instr.attaches : Instr → Option UInt64
  | .getPeer _ (.createChannel peer_handle _) | .lock _ (.createChannel peer_handle _)
  | .createChannel peer_handle _ | .accept peer_handle _ | .registerChannel peer_handle _ _
  | .readAttributes _ peer_handle _ _ | .insertChannel _ peer_handle _ _ _ => some peer_handle
  | _ => none

/-- A peer announces channels only when `create_peer` has registered it. -/
def AnnouncesRegistered (l : Label) (c : Config) : Prop :=
  ∀ peer channel, l = .announce peer channel → Registered (c.shared.peer peer).handle c.shared

/-- No task has been cut off. -/
structure Uninterrupted (s : RuntimeState) : Prop where
  aborted : ∀ u, s.aborted u = false
  stopped : s.stopped = false

section Shape
variable {t : ℕ} {s : RuntimeState} {i : Instr} {o : Outcome} {code rest : List Instr}

lemma watcher_of_watches {k peer_handle : UInt64} {j : Instr}
    (h : j.watches k peer_handle = true) : j.watcher = true := by
  cases j <;> first | rfl | cases h

/-- A task that watches a channel does nothing else, but it announces the channel first. -/
inductive Tidy : List Instr → Prop
  | quiet {l : List Instr} (h : ∀ j ∈ l, j.watcher = false) : Tidy l
  | first {i : Instr} {l : List Instr} (h : ∀ j ∈ l, j.watcher = false) : Tidy (i :: l)
  | created {e : NativeEvent} {i : Instr} {l : List Instr} (h : ∀ j ∈ l, j.watcher = false) :
      Tidy (.sendCreated e :: i :: l)

lemma quiet_of_all (h : code.all (fun j => !j.watcher) = true) :
    ∀ j ∈ code, j.watcher = false := by
  simpa using h

lemma watcher_of_handler {e : Exit} {k : Instr} (hc : machine.handler e k = some code) :
    ∀ j ∈ code, j.watcher = false := by
  simp only [machine,handler] at hc
  split at hc <;> cases hc <;> exact quiet_of_all rfl

lemma watcher_unwind {e : Exit} (h : ∀ j ∈ code, j.watcher = false) :
    ∀ j ∈ (machine.unwind e code s).2, j.watcher = false := by
  intro j hj
  obtain hj | ⟨k,-,new,hc,hj⟩ := Machine.mem_unwind hj
  · exact h j hj
  · exact watcher_of_handler hc j hj

lemma tidy_code (h : Does t s i o) (hrest : ∀ j ∈ rest, j.watcher = false) :
    Tidy (codeOf o ++ rest) := by
  have hquiet : (∀ j ∈ codeOf o, j.watcher = false) → Tidy (codeOf o ++ rest) := by
    intro hcode
    refine .quiet fun j hj => ?_
    obtain hj | hj := List.mem_append.mp hj
    · exact hcode j hj
    · exact hrest j hj
  cases h with
  | insertChannel handle peer_handle channel emit attributes =>
    cases emit
    · exact .first hrest
    · exact .created hrest
  | polled | closed | ended | received | deliver => exact .first hrest
  | lock peer body =>
    cases body <;> exact hquiet (quiet_of_all rfl)
  | shutdown | spawned =>
    refine hquiet fun j hj => ?_
    simp only [codeOf,List.mem_append,List.mem_map,List.mem_cons,List.not_mem_nil,or_false] at hj
    obtain ⟨u,-,rfl⟩ | rfl | rfl := hj <;> rfl
  | _ => exact hquiet (quiet_of_all rfl)

lemma tidy_child {s' : RuntimeState} {childCode : List Instr} {child : TaskId}
    (h : Does t s i (.fork s' code child childCode)) : Tidy childCode := by
  cases h with
  | startPolling => exact .first (by simp [Instr.watcher])
  | dispatch | spawnClose => exact .quiet (by simp [Instr.watcher])

end Shape

section Tidy
variable {x : Choice} {t : ℕ} {c c' : Config} {i : Instr} {rest : List Instr}

lemma exec_sendCreated {s : RuntimeState} (e : NativeEvent) :
    machine.exec x t (.sendCreated e) s = .blocked ∨
      machine.exec x t (.sendCreated e) s = .next (s.send_event e) [] :=
  exec_plain rfl rfl fun _ => ⟨by simp,by simp⟩

/-- What can be behind the first instruction. -/
lemma Tidy.cases (h : Tidy (i :: rest)) : (∀ j ∈ rest, j.watcher = false) ∨
    ∃ e, i = .sendCreated e ∧ ∃ k l, rest = k :: l ∧ ∀ j ∈ l, j.watcher = false := by
  cases h with
  | quiet h => exact .inl fun j hj => h j (by simp [hj])
  | first h => exact .inl h
  | created h => exact .inr ⟨_,rfl,_,_,rfl,h⟩

lemma tidy_taskStep (h : ∀ u, Tidy (c.tasks u)) (hs : Machine.TaskStep machine x t c c') :
    ∀ u, Tidy (c'.tasks u) := by
  intro u
  refine code_of_taskStep hs (h u) ?_ ?_ ?_
  · intro i rest o _ head he ho _
    obtain hrest | ⟨event,rfl,k,l,rfl,hl⟩ := (head ▸ h t).cases
    · exact tidy_code (does_of he ho) hrest
    · obtain hx | hx := exec_sendCreated (x := x) (t := t) (s := c.shared) event
      · exact absurd (he.symm.trans hx) ho
      · rw [← he,hx]
        exact .first hl
  · exact fun _ hdoes => tidy_child hdoes
  · intro i rest s e _ head he
    obtain hrest | ⟨event,rfl,-⟩ := (head ▸ h t).cases
    · exact .quiet (watcher_unwind hrest)
    · obtain hx | hx := exec_sendCreated (x := x) (t := t) (s := c.shared) event <;>
        cases hx.symm.trans he

theorem tidy_of_reachable {certificate : RTCCertificate} {ok : Label → Config → Prop}
    (h : Reachable certificate ok c) : ∀ u, Tidy (c.tasks u) := by
  refine h.invariant (I := fun c => ∀ u, Tidy (c.tasks u)) (fun u => ?_) ?_
  · simp only [init]
    split_ifs
    · exact .quiet (by simp [Instr.watcher])
    · exact .quiet (by simp)
  · intro l d d' hI _ hs
    cases step_cases hs with
    | task ht => exact tidy_taskStep hI ht
    | submit | completeError | callback => exact hI
    | announce peer channel =>
      intro u
      by_cases hu : u = d.shared.nextTask
      · subst hu
        exact .quiet (by simp [Instr.watcher])
      · simpa [Function.update_of_ne hu] using hI u

end Tidy

section Attached
variable {x : Choice} {t : ℕ} {s : RuntimeState} {i : Instr} {o : Outcome} {c c' : Config}

/-- Channels are added only to peers that have been registered. -/
def Attached (s : RuntimeState) (_ : ℕ) (j : Instr) : Prop :=
  ∀ peer_handle, j.attaches = some peer_handle → Registered peer_handle s

lemma registered_of_lookup {k : UInt64} {e : PeerEntry} (h : Entered s)
    (hk : s.registry.peers.lookup k = some e) : Registered k s := by
  obtain ⟨u,hu⟩ := h.peers k e hk
  exact List.mem_map.mpr ⟨_,hu,rfl⟩

lemma Attached.mono {s s' : RuntimeState} {u : ℕ} {j : Instr} (h : Attached s u j)
    (hs : s.history.registered <+: s'.history.registered) : Attached s' u j :=
  fun k hk => (hs.map Registration.handle).subset (h k hk)

lemma attached_of_all {code : List Instr} (h : code.all (fun j => j.attaches.isNone) = true) :
    ∀ j ∈ code, Attached s t j := by
  intro j hj k hk
  have hnone := List.all_eq_true.mp h j hj
  simp [hk] at hnone

lemma attached_of_does (h : Does t s i o) (hs : Entered s) (hi : Attached s t i) :
    ∀ j ∈ codeOf o, Attached (after o s) t j := by
  suffices hj : ∀ j ∈ codeOf o, Attached s t j from
    fun j hm => (hj j hm).mono (registryStep_of_does h).registered_grows
  cases h with
  | @findPeer i peer_handle body entry hfinds he =>
    simp only [codeOf,List.mem_singleton]
    rintro j rfl k hk
    have hregistered := registered_of_lookup hs he
    cases i with
    | getPeer ph body' =>
      cases hfinds
      exact hi k (by cases body <;> exact hk)
    | execute operation =>
      cases operation <;> cases hfinds <;> cases hk
      exact hregistered
    | _ => cases hfinds
  | lock peer body =>
    cases body with
    | createChannel ph configuration =>
      simp only [codeOf,List.mem_cons,List.not_mem_nil,or_false]
      rintro j hj k hk
      obtain rfl | rfl := hj
      · exact hi k hk
      · cases hk
    | _ => exact attached_of_all rfl
  | createChannel | accept | registerChannel | readAttributes =>
    simp only [codeOf,List.mem_singleton]
    rintro j rfl k hk
    exact hi k hk
  | insertChannel handle peer_handle channel emit attributes =>
    cases emit <;> exact attached_of_all rfl
  | shutdown | spawned =>
    intro j hj
    simp only [codeOf,List.mem_append,List.mem_map,List.mem_cons,List.not_mem_nil,or_false] at hj
    obtain ⟨u,-,rfl⟩ | rfl | rfl := hj <;> simp [Attached,Instr.attaches]
  | _ => exact attached_of_all rfl

lemma attached_child {s' : RuntimeState} {code childCode : List Instr} {child : TaskId}
    (h : Does t s i (.fork s' code child childCode)) : ∀ j ∈ childCode, Attached s' child j := by
  cases h <;> exact attached_of_all rfl

lemma attached_of_handler {e : Exit} {k : Instr} {code : List Instr}
    (hc : machine.handler e k = some code) : ∀ j ∈ code, Attached s t j := by
  simp only [machine,handler] at hc
  split at hc <;> cases hc <;> exact attached_of_all rfl

lemma attached_taskStep (hs : Machine.TaskStep machine x t c c') (he : Entered c.shared)
    (h : ∀ u, ∀ j ∈ c.tasks u, Attached c.shared u j) :
    ∀ u, ∀ j ∈ c'.tasks u, Attached c'.shared u j := by
  refine hs.assertions h ?_ ?_ ?_
  · intro i rest s code head hx
    have hdoes := does_of hx (by simp)
    exact ⟨attached_of_does hdoes he (h t i (by simp [head])),
      fun u j _ hj => hj.mono (registryStep_of_does hdoes).registered_grows⟩
  · intro i rest s code child childCode head hx
    have hdoes := does_of hx (by simp)
    exact ⟨attached_of_does hdoes he (h t i (by simp [head])),attached_child hdoes,
      fun u j _ hj => hj.mono (registryStep_of_does hdoes).registered_grows⟩
  · intro i rest s e head hx
    have hdoes := does_of hx (by simp)
    obtain ⟨locked,aborted,hu⟩ := unwind_kept e rest s
    rw [hu]
    exact ⟨fun k _ _ code hcode => attached_of_handler hcode,
      fun u j _ hj => hj.mono (registryStep_of_does hdoes).registered_grows⟩

/-- The peer of a channel in the registry has been there too. -/
structure AttachedInv (c : Config) : Prop where
  pending : ∀ u, ∀ j ∈ c.tasks u, Attached c.shared u j
  entered : ∀ k e, c.shared.registry.channels.lookup k = some e →
    Registered e.peer_handle c.shared

lemma attachedInv_step {l : Label} (hI : HandleInv c) (h : AttachedInv c)
    (hl : AnnouncesRegistered l c) (hs : step l c = some c') : AttachedInv c' := by
  cases step_cases hs with
  | submit | completeError | callback => exact ⟨h.pending,h.entered⟩
  | announce peer channel =>
    refine ⟨fun u j hj => ?_,h.entered⟩
    by_cases hu : u = c.shared.nextTask
    · subst hu
      simp only [Function.update_self,List.mem_cons,List.not_mem_nil,or_false] at hj
      obtain rfl | rfl := hj
      · rintro k hk
        cases hk
        exact hl peer channel rfl
      · simp [Attached,Instr.attaches]
    · simp only [Function.update_of_ne hu] at hj
      exact h.pending u j hj
  | @task t x _ ht =>
    refine ⟨attached_taskStep ht hI.entered h.pending,fun k e hk => ?_⟩
    obtain ⟨i,hi,hregistry⟩ := registryStep_of_taskStep ht
    have hgrows := (hregistry.registered_grows.map Registration.handle).subset
    obtain hold | ⟨⟨emit,attributes,rfl⟩,-⟩ := hregistry.channel_source hk
    · exact hgrows (h.entered k e hold)
    · exact hgrows (h.pending t _ hi _ rfl)

theorem attachedInv_of_reachable {certificate : RTCCertificate}
    (h : Reachable certificate AnnouncesRegistered c) : AttachedInv c := by
  refine h.induct (I := AttachedInv) ⟨fun u j hj => ?_,fun k e hk => ?_⟩
    fun l d d' hd hI hl hs => attachedInv_step (handleInv_of_reachable hd) hI hl hs
  · simp only [init] at hj
    split_ifs at hj
    · rw [List.mem_singleton.mp hj]
      simp [Attached,Instr.attaches]
    · cases hj
  · cases hk

end Attached

section Watched
variable {x : Choice} {t : ℕ} {s : RuntimeState} {i : Instr} {o : Outcome} {c c' : Config}

/-- Waits for the events of a channel, or for a permit. -/
def Instr.polls : Instr → Bool
  | .poll _ _ | .deliver _ _ _ _ => true
  | _ => false

/-- The task of a command does not poll a channel. -/
def PollsApart (command : Option Command) (j : Instr) : Prop := j.polls = true → command = none

lemma pollsApart_of_all {command : Option Command} {code : List Instr}
    (h : code.all (fun j => !j.polls) = true) : ∀ j ∈ code, PollsApart command j := by
  intro j hj hp
  have hquiet := List.all_eq_true.mp h j hj
  simp [hp] at hquiet

lemma commandRule_pollsApart : CommandRule PollsApart := by
  refine ⟨fun {t s i o} h hi => ?_,fun {command e k code} hc => ?_,fun command => ?_,
    fun peer_handle handle channel peer => ?_⟩
  · cases h with
    | insertChannel handle peer_handle channel emit attributes =>
      cases emit <;> exact pollsApart_of_all rfl
    | lock peer body => cases body <;> exact pollsApart_of_all rfl
    | polled | received | deliver =>
      simp only [codeOf,List.mem_singleton]
      rintro j rfl -
      exact hi rfl
    | shutdown | spawned =>
      intro j hj
      simp only [codeOf,List.mem_append,List.mem_map,List.mem_cons,List.not_mem_nil,or_false] at hj
      obtain ⟨u,-,rfl⟩ | rfl | rfl := hj <;> simp [PollsApart,Instr.polls]
    | _ => exact pollsApart_of_all rfl
  · simp only [machine,handler] at hc
    split at hc <;> cases hc <;> exact pollsApart_of_all rfl
  · exact pollsApart_of_all rfl
  · simp [PollsApart]

/-- The channel is not in the registry, or its peer is not. -/
def Gone (k peer_handle : UInt64) (s : RuntimeState) : Prop :=
  s.registry.channels.lookup k = none ∨ s.registry.peers.lookup peer_handle = none

/-- The task of a channel is neither timed out nor dropped. -/
lemma exec_uninterrupted (hs : Uninterrupted s) (hc : s.command t = none)
    (hj : ∀ u, i ≠ .join u ∧ i ≠ .joinClose u) :
    exec x t i s = .blocked ∨ exec x t i s = run x t i s := by
  unfold exec
  split
  · left
    unfold expire
    split
    · exact absurd rfl (hj _).1
    · exact absurd rfl (hj _).2
    · simp [hc]
  · left
    simp [drop,hs.aborted,hs.stopped]
  · exact .inr rfl

/-- What watches a channel goes on to do so until the channel or its peer is gone. -/
lemma watches_exec {k peer_handle : UInt64} (hs : Uninterrupted s)
    (hi : i.watches k peer_handle = true) (hc : PollsApart (s.command t) i) :
    Machine.PassesOn (fun j : Instr => j.watches k peer_handle = true) (Gone k peer_handle)
      (exec x t i s) := by
  have hor : ∀ {o : Outcome}, exec x t i s = .blocked ∨ exec x t i s = run x t i s →
      run x t i s = o → Machine.PassesOn (fun j : Instr => j.watches k peer_handle = true)
        (Gone k peer_handle) o → Machine.PassesOn
          (fun j : Instr => j.watches k peer_handle = true) (Gone k peer_handle) (exec x t i s) := by
    rintro o (h | h) hr ho
    · rw [h]
      trivial
    · rw [h,hr]
      exact ho
  cases i with
  | startPolling handle ph channel =>
    refine hor (exec_plain rfl rfl (by simp)) rfl ?_
    simp only [Instr.watches,decide_eq_true_eq] at hi
    obtain ⟨rfl,rfl⟩ := hi
    simp only [run,startPolling]
    split
    · next error he =>
      refine .inr ?_
      unfold RuntimeState.get_peer at he
      split at he
      · cases he
      · assumption
    · next entry he => exact .inr (.inl ⟨.poll ph handle,by simp,by simp [Instr.watches]⟩)
  | poll ph handle =>
    refine hor (exec_uninterrupted hs (hc rfl) (by simp)) rfl ?_
    simp only [run,poll_data_channel]
    split
    · exact .inl ⟨.removePolled handle,by simp,hi⟩
    · next e =>
      cases e with
      | onClose => exact .inl ⟨.removePolled handle,by simp,hi⟩
      | onMessage is_string data => exact .inl ⟨.deliver ph handle is_string data,by simp,hi⟩
      | _ => exact .inl ⟨.poll ph handle,by simp,hi⟩
    · trivial
  | deliver ph handle is_string data =>
    refine hor (exec_uninterrupted hs (hc rfl) (by simp)) rfl ?_
    simp only [run,deliver]
    split_ifs
    · trivial
    · exact .inl ⟨.poll ph handle,by simp,hi⟩
  | removePolled handle =>
    refine hor (exec_plain rfl rfl (by simp)) rfl (.inr (.inl ?_))
    simp only [Instr.watches,decide_eq_true_eq] at hi
    simp [RuntimeState.setRegistry,LinkedMap.lookup_erase,hi]
  | _ => cases hi

/-- Every channel in the registry is watched, or its peer is not there any more. -/
def Watched (c : Config) : Prop :=
  ∀ k e, c.shared.registry.channels.lookup k = some e →
    (∃ u, ∃ j ∈ c.tasks u, j.watches k e.peer_handle = true) ∨
      c.shared.registry.peers.lookup e.peer_handle = none

/-- What is known of the state before a step. -/
structure WatchInv (c : Config) : Prop where
  handles : HandleInv c
  attached : AttachedInv c
  tidy : ∀ u, Tidy (c.tasks u)
  apart : ∀ u, ∀ j ∈ c.tasks u, PollsApart (c.shared.command u) j

lemma gone_release (k peer_handle : UInt64) (i : Instr) (s : RuntimeState)
    (h : Gone k peer_handle s) : Gone k peer_handle (machine.release i s) := by
  cases i <;> exact h

lemma Watched.task (h : Watched c) (hI : WatchInv c) (hn : Unwrapped c.shared)
    (hu : Uninterrupted c.shared) (hstep : step (.task t x) c = some c') : Watched c' := by
  have hs := Machine.taskStep_of_stepTask (M := machine) hstep
  intro k e hk
  obtain ⟨i,rest,o,locked,aborted,head,hdoes,hshared⟩ := shared_of_taskStep hs
  have hafter : (after o c.shared).registry.channels.lookup k = some e := by
    rw [hshared] at hk
    exact hk
  obtain hold | ⟨⟨emit,attributes,rfl⟩,-⟩ := (registryStep_of_does hdoes).channel_source hafter
  · obtain ⟨u,j,hj,hwatches⟩ | hnone := h k e hold
    · have hthrow : ∀ i rest, c.tasks t = i :: rest →
          (∃ m ∈ rest, m.watches k e.peer_handle = true) →
            ∀ s exit, machine.exec x t i c.shared ≠ .throw s exit := by
        rintro i rest head ⟨m,hm,hmw⟩ s exit he
        obtain hquiet | ⟨event,rfl,-⟩ := (head ▸ hI.tidy t).cases
        · exact absurd (watcher_of_watches hmw) (by simp [hquiet m hm])
        · obtain hx | hx := exec_sendCreated (x := x) (t := t) (s := c.shared) event <;>
            cases hx.symm.trans he
      obtain hkept | hgone | hgone := hs.passesOn (D := fun j => j.watches k e.peer_handle = true)
        (G := Gone k e.peer_handle) (fun _ _ _ _ _ => hI.handles.spawned.forks)
        (fun i rest head hi => watches_exec hu hi (hI.apart t i (by simp [head]))) hthrow
        (gone_release k e.peer_handle) hj hwatches
      · exact .inl hkept
      · rw [hk] at hgone
        cases hgone
      · exact .inr hgone
    · exact .inr ((hI.handles.staysRemoved hn hstep).peers e.peer_handle
        (hI.attached.entered k e hold) hnone)
  · have hrun : run x t (.insertChannel k e.peer_handle e.channel emit attributes) c.shared =
        insertChannel t k e.peer_handle e.channel emit attributes c.shared := rfl
    have hcode := (taskStep_plain hs head rfl rfl (by simp) hrun).2
    refine .inl ⟨t,.startPolling k e.peer_handle e.channel,?_,by simp [Instr.watches]⟩
    rw [hcode]
    simp

lemma Watched.step {l : Label} (h : Watched c) (hI : WatchInv c) (hn : Unwrapped c.shared)
    (hu : Uninterrupted c.shared) (hs : Native.step l c = some c') : Watched c' := by
  cases step_cases hs with
  | task ht => exact h.task hI hn hu hs
  | submit | completeError | callback => exact h
  | announce peer channel =>
    intro k e hk
    obtain ⟨u,j,hj,hwatches⟩ | hnone := h k e hk
    · have hne : u ≠ c.shared.nextTask := Nat.ne_of_lt (hI.handles.spawned.lt hj)
      exact .inl ⟨u,j,by simpa [Function.update_of_ne hne] using hj,hwatches⟩
    · exact .inr hnone

lemma Uninterrupted.back {l : Label} (h : Uninterrupted c'.shared) (hs : step l c = some c') :
    Uninterrupted c.shared := by
  have hahead := ahead_of_step hs
  refine ⟨fun u => ?_,?_⟩
  · by_contra hn
    have := hahead.aborted u (by simpa using hn)
    rw [h.aborted u] at this
    cases this
  · by_contra hn
    have := hahead.stopped (by simpa using hn)
    rw [h.stopped] at this
    cases this

theorem watched_of_reachable {certificate : RTCCertificate}
    (h : Reachable certificate AnnouncesRegistered c) (hn : Unwrapped c.shared)
    (hu : Uninterrupted c.shared) : Watched c := by
  have hrun := h.induct
    (I := fun c => Unwrapped c.shared → Uninterrupted c.shared → Watched c)
    (fun _ _ k e hk => by cases hk) fun l d d' hd hI hl hs hn hu => by
      have hunwrapped : Unwrapped d.shared := (allocated_grows hs).length_le.trans_lt hn
      have huninterrupted := hu.back hs
      exact (hI hunwrapped huninterrupted).step ⟨handleInv_of_reachable hd,
        attachedInv_of_reachable hd,tidy_of_reachable hd,commandRule_pollsApart.of_reachable hd⟩
          hunwrapped huninterrupted hs
  exact hrun hn hu

/-- A task that polls the channel takes it out when the channel has closed, without waiting. -/
def TakesOut (k : UInt64) (c : Config) : Prop :=
  ∀ t peer_handle rest x, c.tasks t = .poll peer_handle k :: rest →
    x = .event none ∨ x = .event (some .onClose) →
      ∃ c₁ c₂, Native.step (.task t x) c = some c₁ ∧ Native.step (.task t .ok) c₁ = some c₂ ∧
        c₂.shared.registry.channels.lookup k = none

lemma takesOut (k : UInt64) (c : Config) : TakesOut k c := by
  intro t peer_handle rest x head hx
  have hpoll : ∃ s, machine.exec x t (.poll peer_handle k) c.shared =
      .next s [.removePolled k] := by
    obtain rfl | rfl := hx <;> exact ⟨_,rfl⟩
  obtain ⟨s,hs⟩ := hpoll
  have hfirst : Native.step (.task t x) c =
      some ⟨s,Function.update c.tasks t (.removePolled k :: rest)⟩ := by
    simp only [Native.step,Machine.stepTask,head,hs]
    rfl
  have hsecond : Native.step (.task t .ok) ⟨s,Function.update c.tasks t (.removePolled k :: rest)⟩ =
      some ⟨s.setRegistry fun r => { r with channels := r.channels.erase k },
        Function.update (Function.update c.tasks t (.removePolled k :: rest)) t rest⟩ := by
    simp only [Native.step,Machine.stepTask,Function.update_self]
    rfl
  exact ⟨_,_,hfirst,hsecond,(LinkedMap.lookup_erase _ _ _).trans (if_pos rfl)⟩

/-- Until a shutdown cuts tasks off, no DataChannel stays in the registry without a task that will
take it out when it closes, unless its peer is gone. -/
theorem channels_watched {certificate : RTCCertificate}
    (h : Reachable certificate AnnouncesRegistered c) (hn : Unwrapped c.shared)
    (hu : Uninterrupted c.shared) : Watched c ∧ ∀ k, TakesOut k c :=
  ⟨watched_of_reachable h hn hu,fun k => takesOut k c⟩

end Watched

section Witness

/-- The labels that `AnnouncesRegistered` admits. -/
def announcesRegistered (l : Label) (c : Config) : Bool :=
  match l with
  | .announce peer _ =>
    (c.shared.history.registered.map Registration.handle).contains (c.shared.peer peer).handle
  | _ => true

lemma announcesRegistered_sound (l : Label) (c : Config) (h : announcesRegistered l c = true) :
    AnnouncesRegistered l c := by
  rintro peer channel rfl
  simpa [announcesRegistered,Registered] using h

/-- The remote side opens a channel, up to the step that starts to poll it. -/
def watchedRun : List Label :=
  peerCreated ++ [.announce 0 plainChannel,.task 2 .ok,.task 2 .ok,
    .task 2 (.attributes remoteAttributes),.task 2 .ok,.task 2 .ok,.task 2 .ok]

theorem channels_watched_remote : ∃ c, Reachable ⟨"",[]⟩ AnnouncesRegistered c ∧
    c.shared.registry.channels.keys = [2] ∧ c.tasks 3 = [.poll 1 2,.finish] ∧ Watched c ∧
      ∀ k, TakesOut k c := by
  have hrun : (Interleaving.run (fun l c => if announcesRegistered l c then step l c else none)
      watchedRun (init ⟨"",[]⟩)).map (fun c => (c.shared.registry.channels.keys,c.tasks 3,
        c.shared.history.allocated.length,c.shared.aborted,c.shared.stopped)) =
      some ([2],[.poll 1 2,.finish],2,fun _ => false,false) := by rfl
  obtain ⟨c,hc,hseen⟩ := Option.map_eq_some_iff.mp hrun
  obtain ⟨hkeys,hseen⟩ := Prod.mk.inj hseen
  obtain ⟨hpolls,hseen⟩ := Prod.mk.inj hseen
  obtain ⟨hallocated,hseen⟩ := Prod.mk.inj hseen
  obtain ⟨haborted,hstopped⟩ := Prod.mk.inj hseen
  have hreach : Reachable ⟨"",[]⟩ AnnouncesRegistered c :=
    reaches_of_checked announcesRegistered_sound hc
  have hunwrapped : Unwrapped c.shared := by
    rw [Unwrapped,hallocated]
    decide
  exact ⟨c,hreach,hkeys,hpolls,
    channels_watched hreach hunwrapped ⟨fun u => congrFun haborted u,hstopped⟩⟩

end Witness
end Kestara.Native
