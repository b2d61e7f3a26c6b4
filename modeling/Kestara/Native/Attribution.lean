import Kestara.Native.Creations
import Kestara.Native.ReceiveCapacity

/-!
# What events name

An event names a peer that has been built, a channel that has been registered, or the object that
the command has created which it completes.
-/
namespace Kestara.Native
open Interleaving

section Outer
variable {x : Choice} {t : ℕ} {s : RuntimeState} {i : Instr} {o : Outcome} {c c' : Config}
  {l : Label}

lemma outer_of_does (h : Does t s i o) (hi : i.inner = false) :
    ∀ j ∈ codeOf o, j.inner = false := by
  cases h with
  | findPeer hfinds =>
    cases i with
    | getPeer | execute => cases hi
    | _ => cases hfinds
  | shutdown | spawned =>
    intro j hj
    simp only [codeOf,List.mem_append,List.mem_map,List.mem_cons,List.not_mem_nil,or_false] at hj
    obtain ⟨u,-,rfl⟩ | rfl | rfl := hj <;> rfl
  | leave | dropped | giveUp | skip | joined | post | finish | dispatch | clearRegistry | spawnClose
  | abort | shutdownTimeout | stopReceiving =>
    simp [codeOf,Instr.inner,Instr.control]
  | _ => cases hi

/-- The controller runs no function itself. -/
theorem outer_of_reachable {certificate : RTCCertificate} {ok : Label → Config → Prop}
    (h : Reachable certificate ok c) : ∀ j ∈ c.tasks 0, j.inner = false := by
  have hall : ∀ u, ∀ j ∈ c.tasks u, u = 0 → j.inner = false := by
    refine h.induct (I := fun c => ∀ u, ∀ j ∈ c.tasks u, u = 0 → j.inner = false) ?_ ?_
    · intro u j hj _
      simp only [init] at hj
      split_ifs at hj
      rw [List.mem_singleton.mp hj]
      rfl
    · intro l d d' hd hI _ hs
      have hspawned := spawned_of_reachable hd
      cases step_cases hs with
      | submit | completeError | callback => exact hI
      | announce peer channel =>
        intro u j hj hu
        subst hu
        have hne : (0 : ℕ) ≠ d.shared.nextTask := Nat.ne_of_lt hspawned.pos
        exact hI 0 j (by simpa [Function.update_of_ne hne] using hj) rfl
      | @task t x _ ht =>
        refine ht.assertions (A := fun _ u j => u = 0 → j.inner = false) hI ?_ ?_ ?_
        · intro i rest s code head he
          refine ⟨fun j hj hu => ?_,fun _ _ _ hA => hA⟩
          exact outer_of_does (does_of he (by simp)) (hI t i (by simp [head]) hu) j hj
        · intro i rest s code child childCode head he
          have hdoes := does_of he (by simp)
          have hspawns : Spawns d.shared (.fork s code child childCode) := spawns_of_does hdoes
          have hchild : child ≠ 0 := by
            have hnext : d.shared.nextTask = child := hspawns.1
            exact hnext ▸ hspawned.pos.ne'
          refine ⟨fun j hj hu => ?_,fun j _ hu => absurd hu hchild,fun _ _ _ hA => hA⟩
          exact outer_of_does hdoes (hI t i (by simp [head]) hu) j hj
        · intro i rest s e head he
          refine ⟨fun k _ _ code hc j hj _ => ?_,fun _ _ _ hA => hA⟩
          simp only [machine,handler] at hc
          split at hc <;> cases hc <;>
            simp only [List.mem_cons,List.not_mem_nil,or_false] at hj
          · rw [hj]
            rfl
          · obtain rfl | rfl | rfl := hj <;> rfl
          · obtain rfl | rfl | rfl | rfl := hj <;> rfl
          · rw [hj]
            rfl
  exact fun j hj => hall 0 j hj rfl

/-- The function of a command ends with the handle of its operation. -/
lemma commandRule_dispatched : CommandRule fun cmd j => ∀ op, j = .dispatched op →
    ∃ command, cmd = some command ∧ command.operation_handle = op where
  code := by
    rintro t s i o hdoes - j hj op rfl
    cases hdoes with
    | lock peer body => cases body <;> simp [codeOf,Locked.first] at hj
    | insertChannel handle peer_handle channel emit attributes =>
      cases emit <;> simp [codeOf,insertChannel] at hj
    | _ => simp [codeOf] at hj
  handler := by
    rintro command e k code hc j hj op rfl
    simp only [machine,handler] at hc
    split at hc <;> cases hc <;> simp at hj
  dispatched command j hj op he := by
    subst he
    simp only [List.mem_cons,List.not_mem_nil,or_false,reduceCtorEq,Instr.dispatched.injEq,
      false_or] at hj
    exact ⟨command,rfl,hj.symm⟩
  spawned _ _ _ _ j hj op he := by
    subst he
    simp at hj

end Outer

section Results
variable {x : Choice} {t : ℕ} {s s' : RuntimeState} {i : Instr} {value : OperationValue}

/-- The value names no object. -/
def OperationValue.Plain (value : OperationValue) : Prop :=
  value.peer_handle = 0 ∧ value.channel_handle = 0

lemma reply_plain {operation : Operation} (h : reply operation x = some (.ok value)) :
    value.Plain := by
  unfold reply at h
  split at h <;> simp only [Option.some.injEq,reduceCtorEq,Except.ok.injEq] at h <;>
    first | exact h.elim | (subst h; exact ⟨rfl,rfl⟩) | skip
  · next report =>
    cases report with
    | error error => simp [Except.map] at h
    | ok data =>
      simp only [Except.map,Except.ok.injEq] at h
      subst h
      exact ⟨rfl,rfl⟩

lemma get_channel_throw {channel_handle : UInt64} {code : ChannelEntry → List Instr} :
    get_channel channel_handle s code ≠ .throw s' (.done (.ok value)) := by
  unfold get_channel
  split <;> simp

lemma getPeer_throw {peer_handle : UInt64} {body : Locked} :
    getPeer peer_handle body s ≠ .throw s' (.done (.ok value)) := by
  unfold getPeer
  split <;> simp

lemma plain_of_execute {operation : Operation}
    (h : run x t (.execute operation) s = .throw s' (.done (.ok value))) : value.Plain := by
  cases operation with
  | rotateCertificate pem =>
    change rotateCertificate x s = _ at h
    unfold rotateCertificate at h
    split at h
    · cases h
    · split at h <;> cases h
      exact ⟨rfl,rfl⟩
    · cases h
  | createPeer | shutdown => cases h
  | createDescription | setLocalDescription | setRemoteDescription | addIceCandidate | restartIce
  | setConfiguration | getStats | createDataChannel => exact absurd h getPeer_throw
  | sendText | sendBinary | trySendText | trySendBinary | dataChannelWritable
  | dataChannelOutstandingBytes | setDataChannelThresholds => exact absurd h get_channel_throw
  | closeDataChannel channel_handle =>
    change close_data_channel channel_handle s = _ at h
    unfold close_data_channel at h
    split at h <;> cases h
    exact ⟨rfl,rfl⟩
  | closePeer peer_handle =>
    change close_peer peer_handle s = _ at h
    unfold close_peer at h
    split at h <;> cases h
    exact ⟨rfl,rfl⟩

/-- Only the registration of a peer and the end of that of a channel give a handle. -/
lemma plain_of_throw (h : machine.exec x t i s = .throw s' (.done (.ok value))) :
    value.Plain ∨ (∃ handle peer capacity, i = .insertPeer handle peer capacity ∧
        ⟨t,value.peer_handle,.peer peer⟩ ∈ s'.history.registered ∧ value.channel_handle = 0) ∨
      ∃ handle id, i = .returnChannel handle id ∧ value.channel_handle = handle ∧
        value.peer_handle = 0 := by
  have hunit : ∀ {success : Outcome} {error : String → String} {y : Choice},
      (∀ v, success = .throw s' (.done (.ok v)) → v.Plain) →
        awaitUnit success error y s = .throw s' (.done (.ok value)) → value.Plain := by
    intro success error y hs hu
    unfold awaitUnit at hu
    split at hu
    · exact hs value hu
    · cases hu
    · cases hu
  have hplain : ∀ v, (.throw s (.done (.ok {})) : Outcome) = .throw s' (.done (.ok v)) → v.Plain := by
    rintro v he
    cases he
    exact ⟨rfl,rfl⟩
  change exec x t i s = _ at h
  unfold exec at h
  split at h
  · unfold expire at h
    split at h
    · cases h
    · cases h
    · split_ifs at h
      cases h
  · unfold drop at h
    split_ifs at h
    cases h
  · cases i with
    | insertPeer handle peer capacity =>
      cases h
      exact .inr (.inl ⟨handle,peer,capacity,rfl,
        by simp [RuntimeState.record,RuntimeState.setRegistry],rfl⟩)
    | returnChannel handle id =>
      cases h
      exact .inr (.inr ⟨handle,id,rfl,rfl,rfl⟩)
    | request operation =>
      left
      change request operation x s = _ at h
      unfold request at h
      split at h
      · next result hreply =>
        cases h
        exact reply_plain hreply
      · cases h
    | execute operation => exact .inl (plain_of_execute h)
    | startPolling handle peer_handle channel =>
      change startPolling handle peer_handle channel s = _ at h
      unfold startPolling at h
      split at h <;> cases h
    | getPeer peer_handle body => exact absurd h getPeer_throw
    | setLow channel low => exact .inl (hunit (fun _ he => by cases he) h)
    | setHigh channel high => exact .inl (hunit (fun _ he => by cases he) h)
    | awaitChannelClosed => exact .inl (hunit hplain h)
    | awaitPeerClosed => exact .inl (hunit hplain h)
    | awaitHigh | shutDown => exact .inl (hplain _ h)
    | bindPort handle configuration ports last_error => cases ports <;> cases h
    | buildPeer handle configuration port ports certificate =>
      change buildPeer handle configuration port ports certificate x s = _ at h
      unfold buildPeer at h
      split at h
      · cases h
      · split_ifs at h
        cases h
      · cases h
    | lock peer body =>
      change lock peer body s = _ at h
      unfold lock at h
      split_ifs at h
    | call channel operation =>
      change call t channel operation s = _ at h
      unfold call at h
      dsimp only at h
      split at h
      · cases h
      · cases h
      · split at h <;> cases h
      · split at h <;> cases h
      · cases h
    | createChannel peer_handle configuration =>
      change createChannel peer_handle x s = _ at h
      unfold createChannel at h
      split at h <;> cases h
    | readAttributes handle peer_handle channel emit =>
      simp only [run] at h
      split at h <;> cases h
    | poll peer_handle channel_handle =>
      change poll_data_channel peer_handle channel_handle x s = _ at h
      unfold poll_data_channel at h
      split at h
      · cases h
      · dsimp only at h
        split at h <;> cases h
      · cases h
    | deliver peer_handle channel_handle is_string data =>
      change deliver peer_handle channel_handle is_string data s = _ at h
      unfold deliver at h
      split_ifs at h
    | receive =>
      change receive s = _ at h
      unfold receive at h
      split at h
      · cases h
      · dsimp only at h
        split_ifs at h
    | join task | joinClose task =>
      simp only [run] at h
      split_ifs at h
    | spawnCloses peers closes => cases peers <;> cases h
    | _ => cases h

end Results

section Names
variable {x : Choice} {t : ℕ} {s s' : RuntimeState} {i : Instr} {o : Outcome} {c c' : Config}
  {l : Label} {value : OperationValue} {op : UInt64}

/-- The channel handle has been given to a channel of the peer handle, by the task `t`. -/
def Gave (t : TaskId) (peer_handle handle : UInt64) (s : RuntimeState) : Prop :=
  ∃ channel, ⟨t,handle,.channel channel peer_handle⟩ ∈ s.history.registered

/-- The object that the value names has been created by the task of the operation. -/
inductive Created (t : TaskId) (op : UInt64) (value : OperationValue) (s : RuntimeState) : Prop
  | plain (h : value.Plain)
  | peer {command peer} (hc : s.command t = some command) (ho : command.operation_handle = op)
      (hr : ⟨t,value.peer_handle,.peer peer⟩ ∈ s.history.registered) (hz : value.channel_handle = 0)
  | channel {command peer_handle} (hc : s.command t = some command)
      (ho : command.operation_handle = op) (hr : Gave t peer_handle value.channel_handle s)
      (hz : value.peer_handle = 0)

/-- What is known of the objects that an instruction names. -/
def Names (s : RuntimeState) (t : TaskId) : Instr → Prop
  | .startPolling handle peer_handle _ => Gave t peer_handle handle s
  | .returnChannel handle _ => ∃ peer_handle, Gave t peer_handle handle s
  | .sendCreated event => event.operation_handle = 0 ∧ event.kind ≠ OPERATION_COMPLETE ∧
    Gave t event.peer_handle event.channel_handle s
  | .poll peer_handle handle | .deliver peer_handle handle _ _ => ∃ u, Gave u peer_handle handle s
  | .post op (.ok value) => Created t op value s
  | _ => True

/-- Where the handles of an event come from. -/
inductive Attributed (s : RuntimeState) (e : NativeEvent) : Prop
  | peer (p : PeerRef) (hp : p < s.nextPeer) (he : e.peer_handle = (s.peer p).handle)
      (hz : e.channel_handle = 0 ∧ e.operation_handle = 0) (hk : e.kind ≠ OPERATION_COMPLETE)
  | channel (t : TaskId) (h : Gave t e.peer_handle e.channel_handle s)
      (hz : e.operation_handle = 0) (hk : e.kind ≠ OPERATION_COMPLETE)
  | failed (error : String) (he : e = .operation e.operation_handle (.error error))
  | completed (t : TaskId) (value : OperationValue) (he : e = .operation e.operation_handle (.ok value))
      (h : Created t e.operation_handle value s)

/-- Objects and commands stay what they are. -/
structure Grows (s s' : RuntimeState) : Prop where
  registered : s.history.registered <+: s'.history.registered
  command : ∀ u command, s.command u = some command → s'.command u = some command
  nextPeer : s.nextPeer ≤ s'.nextPeer
  peer : ∀ p : ℕ, p < s.nextPeer → (s'.peer p).handle = (s.peer p).handle

lemma Gave.mono {peer_handle handle : UInt64} (h : Gave t peer_handle handle s)
    (hs : Grows s s') : Gave t peer_handle handle s' := by
  obtain ⟨channel,hr⟩ := h
  exact ⟨channel,hs.registered.subset hr⟩

lemma Created.mono (h : Created t op value s) (hs : Grows s s') : Created t op value s' := by
  cases h with
  | plain h => exact .plain h
  | peer hc ho hr hz => exact .peer (hs.command t _ hc) ho (hs.registered.subset hr) hz
  | channel hc ho hr hz => exact .channel (hs.command t _ hc) ho (hr.mono hs) hz

lemma Names.mono {j : Instr} (h : Names s t j) (hs : Grows s s') : Names s' t j := by
  cases j with
  | startPolling handle peer_handle channel => exact Gave.mono h hs
  | sendCreated event => exact ⟨h.1,h.2.1,h.2.2.mono hs⟩
  | returnChannel | poll | deliver =>
    obtain ⟨u,hu⟩ := h
    exact ⟨u,hu.mono hs⟩
  | post op result =>
    cases result with
    | error error => trivial
    | ok value => exact Created.mono h hs
  | _ => trivial

lemma Attributed.mono {e : NativeEvent} (h : Attributed s e) (hs : Grows s s') :
    Attributed s' e := by
  cases h with
  | peer p hp he hz hk =>
    exact .peer p (hp.trans_le hs.nextPeer) (he.trans (hs.peer p hp).symm) hz hk
  | channel t h hz hk => exact .channel t (h.mono hs) hz hk
  | failed error he => exact .failed error he
  | completed t value he h => exact .completed t value he (h.mono hs)

/-- The instruction names no object. -/
def Instr.unnamed : Instr → Bool
  | .startPolling _ _ _ | .returnChannel _ _ | .sendCreated _ | .poll _ _ | .deliver _ _ _ _
  | .post _ _ => false
  | _ => true

lemma names_of_all {code : List Instr} (h : code.all Instr.unnamed = true) :
    ∀ j ∈ code, Names s t j := by
  intro j hj
  have hall := List.all_eq_true.mp h j hj
  cases j <;> trivial

lemma grows_of_does (h : Does t s i o) (hfresh : s.command s.nextTask = none) :
    Grows s (after o s) := by
  have hregistered := (registryStep_of_does h).registered_grows
  refine ⟨hregistered,fun u command hc => ?_,nextPeer_of_does h,fun p hp => ?_⟩
  · cases h with
    | dispatch command' =>
      have hne : u ≠ s.nextTask := by
        rintro rfl
        rw [hfresh] at hc
        cases hc
      simpa [after,Function.update_of_ne hne] using hc
    | _ => exact hc
  · cases h with
    | built => simp [after,Function.update_of_ne (Nat.ne_of_lt hp)]
    | closePeer peer =>
      by_cases hpeer : p = peer
      · subst hpeer
        simp [after]
      · simp [after,Function.update_of_ne hpeer]
    | _ => rfl

lemma grows_step (hspawned : Spawned c) (hs : step l c = some c') : Grows c.shared c'.shared := by
  cases step_cases hs with
  | submit | completeError | announce | callback =>
    exact ⟨List.prefix_rfl,fun _ _ hc => hc,le_rfl,fun _ _ => rfl⟩
  | task ht =>
    obtain ⟨i,rest,o,locked,aborted,-,hdoes,hshared⟩ := shared_of_taskStep ht
    obtain ⟨hregistered,hcommand,hnext,hpeer⟩ := grows_of_does hdoes (hspawned.command _ le_rfl)
    rw [hshared]
    exact ⟨hregistered,hcommand,hnext,hpeer⟩

/-- The code that a step leaves names what the instruction has named or created. -/
lemma names_of_does (h : Does t s i o) (hi : Names s t i) (hfresh : s.command s.nextTask = none) :
    ∀ j ∈ codeOf o, Names (after o s) t j := by
  have hgrows := grows_of_does h hfresh
  cases h with
  | insertChannel handle peer_handle channel emit attributes =>
    have hgave : Gave t peer_handle handle
        (after (insertChannel t handle peer_handle channel emit attributes s) s) :=
      ⟨channel,by simp [after,insertChannel,RuntimeState.setRegistry,RuntimeState.record]⟩
    have hcreated : (created_event peer_handle handle attributes).kind ≠ OPERATION_COMPLETE := by
      change DATA_CHANNEL ≠ OPERATION_COMPLETE
      decide
    intro j hj
    cases emit with
    | false =>
      simp only [codeOf,insertChannel,Bool.false_eq_true,if_false,List.nil_append,
        List.mem_singleton] at hj
      subst hj
      exact hgave
    | true =>
      simp only [codeOf,insertChannel,if_true,List.cons_append,List.nil_append,List.mem_cons,
        List.not_mem_nil,or_false] at hj
      obtain rfl | rfl := hj
      · exact ⟨rfl,hcreated,hgave⟩
      · exact hgave
  | startPolling handle peer_handle channel entry he =>
    intro j hj
    rw [List.mem_singleton.mp hj]
    exact ⟨peer_handle,Gave.mono hi hgrows⟩
  | polled peer_handle handle | received peer_handle handle | deliver peer_handle handle =>
    obtain ⟨u,hu⟩ := hi
    intro j hj
    rw [List.mem_singleton.mp hj]
    exact ⟨u,hu.mono hgrows⟩
  | lock peer body => cases body <;> exact names_of_all rfl
  | shutdown | spawned =>
    intro j hj
    simp only [codeOf,List.mem_append,List.mem_map,List.mem_cons,List.not_mem_nil,or_false] at hj
    obtain ⟨u,-,rfl⟩ | rfl | rfl := hj <;> trivial
  | _ => exact names_of_all rfl

lemma names_child {code childCode : List Instr} {child : TaskId}
    (h : Does t s i (.fork s' code child childCode)) (hi : Names s t i) :
    ∀ j ∈ childCode, Names s' child j := by
  cases h with
  | startPolling handle peer_handle channel =>
    obtain ⟨channel',hr⟩ := hi
    intro j hj
    simp only [List.mem_cons,List.not_mem_nil,or_false] at hj
    obtain rfl | rfl := hj
    · exact ⟨t,channel',hr⟩
    · trivial
  | _ => exact names_of_all rfl

lemma attributed_image {peer_handle handle : UInt64} (event : DataChannelEvent)
    (h : ∃ u, Gave u peer_handle handle s) : Attributed s (event.image peer_handle handle) := by
  obtain ⟨u,hu⟩ := h
  have hmem : (event.image peer_handle handle).kind ∈ polledKinds := image_kind event
  have hk := (polledKinds_apart _ hmem).1
  have hhandles : (event.image peer_handle handle).peer_handle = peer_handle ∧
      (event.image peer_handle handle).channel_handle = handle ∧
        (event.image peer_handle handle).operation_handle = 0 := by
    cases event with
    | onMessage is_string data => cases is_string <;> exact ⟨rfl,rfl,rfl⟩
    | _ => exact ⟨rfl,rfl,rfl⟩
  obtain ⟨hpeer,hchannel,hzero⟩ := hhandles
  exact .channel u (by rwa [hpeer,hchannel]) hzero hk

/-- The events that a step sends are attributed. -/
lemma attributed_of_does (h : Does t s i o) (hi : Names s t i) :
    ∀ e ∈ (after o s).events, e ∈ s.events ∨ Attributed s e := by
  have hone : ∀ {e' : NativeEvent}, Attributed s e' → ∀ e ∈ s.events ++ [e'],
      e ∈ s.events ∨ Attributed s e := by
    intro e' h' e he
    obtain he | he := List.mem_append.mp he
    · exact .inl he
    · rw [List.mem_singleton.mp he]
      exact .inr h'
  cases h with
  | sendCreated event =>
    obtain ⟨hz,hk,hgave⟩ := hi
    exact hone (.channel t hgave hz hk)
  | post op result =>
    cases result with
    | error error => exact hone (.failed error rfl)
    | ok value => exact hone (.completed t value rfl hi)
  | polled peer_handle handle event hm hc => exact hone (attributed_image event hi)
  | closed peer_handle handle => exact hone (attributed_image .onClose hi)
  | deliver peer_handle handle is_string data =>
    exact hone (attributed_image (.onMessage is_string data) hi)
  | _ => exact fun e he => .inl he

/-- What an invariant about names rests on. -/
structure NameRules (c : Config) : Prop where
  spawned : Spawned c
  control : ControlOnly c
  outer : ∀ j ∈ c.tasks 0, j.inner = false
  creates : ∀ u, ∀ j ∈ c.tasks u, j.creates = true → c.shared.command u ≠ none
  dispatched : ∀ u, ∀ j ∈ c.tasks u, ∀ op, j = .dispatched op →
    ∃ command, c.shared.command u = some command ∧ command.operation_handle = op

theorem nameRules_of_reachable {certificate : RTCCertificate} {ok : Label → Config → Prop}
    (h : Reachable certificate ok c) : NameRules c :=
  ⟨spawned_of_reachable h,controlOnly_of_reachable h,outer_of_reachable h,
    commandRule_creates.of_reachable h,commandRule_dispatched.of_reachable h⟩

/-- What is posted when a function is left names what the task has created. -/
lemma names_of_handler {rest : List Instr} {e : Exit} {k : Instr} {code : List Instr}
    (hrules : NameRules c) (head : c.tasks t = i :: rest) (hi : Names c.shared t i)
    (he : machine.exec x t i c.shared = .throw s e) (hk : k ∈ rest)
    (hc : machine.handler e k = some code) : ∀ j ∈ code, Names s t j := by
  have hdoes := does_of he (by simp)
  have hgrows : Grows c.shared s := grows_of_does hdoes (hrules.spawned.command _ le_rfl)
  have himem : i ∈ c.tasks t := by simp [head]
  have hkmem : k ∈ c.tasks t := by simp [head,hk]
  have hvalue : ∀ {op v}, e = .done (.ok v) → (v.Plain → Created t op v s) → (t ≠ 0 →
      ∃ command, c.shared.command t = some command ∧ command.operation_handle = op) →
        Created t op v s := by
    rintro op v rfl hplain hcommand
    obtain hp | ⟨handle,peer,capacity,rfl,hr,hz⟩ | ⟨handle,id,rfl,hv,hz⟩ := plain_of_throw he
    · exact hplain hp
    · have ht : t ≠ 0 := by
        rintro rfl
        cases hrules.outer _ himem
      obtain ⟨command,hcmd,hop⟩ := hcommand ht
      exact .peer (hgrows.command t command hcmd) hop hr hz
    · have ht : t ≠ 0 := by
        rintro rfl
        cases hrules.outer _ himem
      obtain ⟨command,hcmd,hop⟩ := hcommand ht
      obtain ⟨peer_handle,hgave⟩ := hi
      subst hv
      exact .channel (hgrows.command t command hcmd) hop (hgave.mono hgrows) hz
  intro j hj
  cases k with
  | dispatched op =>
    have hcommand := hrules.dispatched t _ hkmem op rfl
    cases e with
    | done result =>
      have hcode : code = [.post op result] := by
        cases result <;> exact (Option.some.inj hc).symm
      rw [hcode,List.mem_singleton] at hj
      subst hj
      cases result with
      | error error => trivial
      | ok v => exact hvalue rfl .plain fun _ => hcommand
    | dropped | panicked => cases hc
  | graceful op =>
    have ht : t = 0 := hrules.control t _ hkmem rfl
    cases e with
    | done result =>
      cases result with
      | error error =>
        cases hc
        simp only [List.mem_cons,List.not_mem_nil,or_false] at hj
        obtain rfl | rfl | rfl | rfl := hj <;> trivial
      | ok v =>
        cases hc
        simp only [List.mem_cons,List.not_mem_nil,or_false] at hj
        obtain rfl | rfl | rfl := hj
        · trivial
        · exact hvalue rfl .plain fun hne => absurd ht hne
        · trivial
    | dropped | panicked => cases hc
  | finish =>
    have hcode : code = [.finish] := by
      cases e with
      | done result => cases result <;> exact (Option.some.inj hc).symm
      | dropped | panicked => exact (Option.some.inj hc).symm
    rw [hcode,List.mem_singleton] at hj
    subst hj
    trivial
  | _ => simp [machine,handler] at hc

/-- What a runtime knows of the objects that it names. -/
structure NameInv (c : Config) : Prop where
  pending : ∀ t, ∀ j ∈ c.tasks t, Names c.shared t j
  events : ∀ e ∈ c.shared.events, Attributed c.shared e

theorem nameInv_step (h : NameInv c) (hrules : NameRules c) (hs : step l c = some c') :
    NameInv c' := by
  have hgrows := grows_step hrules.spawned hs
  have hfresh := hrules.spawned.command _ le_rfl
  cases step_cases hs with
  | submit => exact ⟨fun t j hj => (h.pending t j hj).mono hgrows,
      fun e he => (h.events e he).mono hgrows⟩
  | completeError op error =>
    refine ⟨fun t j hj => (h.pending t j hj).mono hgrows,fun e he => ?_⟩
    obtain he | he := List.mem_append.mp he
    · exact (h.events e he).mono hgrows
    · rw [List.mem_singleton.mp he]
      exact .failed error rfl
  | callback peer y hy =>
    refine ⟨fun t j hj => (h.pending t j hj).mono hgrows,fun e he => ?_⟩
    obtain he | he := List.mem_append.mp he
    · exact (h.events e he).mono hgrows
    · rw [List.mem_singleton.mp he]
      have hp : peer < c.shared.nextPeer := by
        simp only [step] at hs
        split_ifs at hs with hp
        exact hp.1
      refine .peer peer hp ?_ ?_ fun hk => ?_
      · cases y <;> rfl
      · cases y <;> exact ⟨rfl,rfl⟩
      · have hnot : (y.event (c.shared.peer peer).handle).completes
            (y.event (c.shared.peer peer).handle).operation_handle = false := completes_callback hy
        simp [NativeEvent.completes,hk] at hnot
  | announce peer channel =>
    refine ⟨fun t j hj => ?_,fun e he => (h.events e he).mono hgrows⟩
    by_cases ht : t = c.shared.nextTask
    · subst ht
      simp only [Function.update_self] at hj
      exact names_of_all rfl j hj
    · exact (h.pending t j (by simpa [Function.update_of_ne ht] using hj)).mono hgrows
  | @task t x _ ht =>
    refine ⟨?_,fun e he => ?_⟩
    · refine ht.assertions h.pending ?_ ?_ ?_
      · intro i rest s code head he
        have hdoes := does_of he (by simp)
        exact ⟨names_of_does hdoes (h.pending t i (by simp [head])) hfresh,
          fun u j _ hj => hj.mono (grows_of_does hdoes hfresh)⟩
      · intro i rest s code child childCode head he
        have hdoes := does_of he (by simp)
        exact ⟨names_of_does hdoes (h.pending t i (by simp [head])) hfresh,
          names_child hdoes (h.pending t i (by simp [head])),
          fun u j _ hj => hj.mono (grows_of_does hdoes hfresh)⟩
      · intro i rest s e head he
        have hdoes := does_of he (by simp)
        have hs : Grows c.shared s := grows_of_does hdoes hfresh
        obtain ⟨locked,aborted,hu⟩ := unwind_kept e rest s
        have hunwind : Grows s (machine.unwind e rest s).1 := by
          rw [hu]
          exact ⟨List.prefix_rfl,fun _ _ hc => hc,le_rfl,fun _ _ => rfl⟩
        refine ⟨fun k hk _ code hc j hj => ?_,fun u j _ hj => (hj.mono hs).mono hunwind⟩
        exact (names_of_handler hrules head (h.pending t i (by simp [head])) he hk hc j hj).mono
          hunwind
    · obtain ⟨i,rest,o,locked,aborted,head,hdoes,hshared⟩ := shared_of_taskStep ht
      rw [hshared] at he
      obtain he | he := attributed_of_does hdoes (h.pending t i (by simp [head])) e he
      · exact (h.events e he).mono hgrows
      · exact he.mono hgrows

theorem nameInv_of_reachable {certificate : RTCCertificate} {ok : Label → Config → Prop}
    (h : Reachable certificate ok c) : NameInv c := by
  refine h.induct (I := NameInv) ⟨fun t j hj => ?_,fun e he => by cases he⟩
    fun _ _ _ hd hI _ hs => nameInv_step hI (nameRules_of_reachable hd) hs
  simp only [init] at hj
  split_ifs at hj
  · rw [List.mem_singleton.mp hj]
    trivial
  · cases hj

/-- In every reachable state each event names what exists: a peer that has been built, a channel of
that peer that has been registered, or the object that the command of its operation has created. -/
theorem events_attributed {certificate : RTCCertificate} {ok : Label → Config → Prop}
    (h : Reachable certificate ok c) : ∀ e ∈ c.shared.events, Attributed c.shared e :=
  (nameInv_of_reachable h).events

end Names

namespace Delivery
variable {certificate : RTCCertificate} {ok : DeliveryLabel → Delivery → Prop} {s s' : Delivery}
  {l : DeliveryLabel}

/-- The receive capacity of a peer has no part in what an event names. -/
lemma attributed_of_raised {capacity : ℕ} {slots : UInt64 → ℕ} {events : List NativeEvent}
    {s : RuntimeState} {e : NativeEvent} (h : Attributed (s.raised capacity slots events) e) :
    Attributed s e := by
  have hcommand : ∀ {t op} {p : Prop}, (∀ command, s.command t = some command →
      command.operation_handle = op → p) → ∀ command,
        (s.raised capacity slots events).command t = some command →
          command.operation_handle = op → p := by
    intro t op p hp command hc ho
    obtain ⟨command,hold,rfl⟩ := Option.map_eq_some_iff.mp hc
    exact hp command hold ho
  cases h with
  | peer p hp he hz hk => exact .peer p hp he hz hk
  | channel t h hz hk => exact .channel t h hz hk
  | failed error he => exact .failed error he
  | completed t value he h =>
    refine .completed t value he ?_
    cases h with
    | plain h => exact .plain h
    | @peer command peer hc ho hr hz =>
      exact hcommand (fun _ hc ho => .peer hc ho hr hz) command hc ho
    | @channel command peer_handle hc ho hr hz =>
      exact hcommand (fun _ hc ho => .channel hc ho hr hz) command hc ho

/-- Whatever is polled and released, a queued event that is no wake names what exists. -/
lemma queued_attributed (h : Reachable certificate ok s) {e : NativeEvent}
    (he : e ∈ s.runtime.shared.events) (hw : e.kind ≠ WAKE) : Attributed s.runtime.shared e := by
  obtain ⟨length,hmirror⟩ := mirrored_of_reachable h
  obtain ⟨d,hd,⟨slots,events,hshared,hevents,-⟩,-⟩ := hmirror length le_rfl
  have hmem : e ∈ unwoken s.runtime.shared.events := by simpa [unwoken] using ⟨he,hw⟩
  rw [← hevents] at hmem
  have hqueued : e ∈ d.shared.events := by
    rw [hshared]
    exact List.mem_of_mem_filter hmem
  have hattributed := events_attributed hd e hqueued
  rw [hshared] at hattributed
  exact attributed_of_raised hattributed

/-- What is being handed over has been queued. -/
lemma handing_queued (h : Reachable certificate ok s) :
    ∀ e ∈ s.handing, e ∈ s.runtime.shared.events := by
  refine h.induct (I := fun s => ∀ e ∈ s.handing, e ∈ s.runtime.shared.events)
    (fun e he => by cases he) ?_
  intro l s s' hs ih _ hstep e he
  cases l with
  | runtime l =>
    obtain ⟨c,hc,rfl⟩ := Option.map_eq_some_iff.mp hstep
    obtain ⟨i,hpermit,-⟩ := permitStep_of_step (inv_of_reachable hs).permits hc
    have hold := ih e he
    change e ∈ c.shared.events
    cases hpermit with
    | keep events hevents => exact hevents ▸ List.mem_append_left _ hold
    | deliver k event hi hevents => exact hevents ▸ List.mem_append_left _ hold
    | start k entry peer_handle channel hi hl hevents => exact hevents ▸ hold
  | wake =>
    cases hstep
    exact List.mem_append_left _ (ih e he)
  | receive =>
    simp only [step] at hstep
    split at hstep
    · cases hstep
    · next event hevent =>
      split_ifs at hstep <;> cases hstep
      · exact ih e he
      · obtain he | he := List.mem_append.mp he
        · exact ih e he
        · rw [List.mem_singleton.mp he]
          exact List.mem_of_getElem? hevent
  | jni n | c n =>
    simp only [step] at hstep
    split at hstep <;> cases hstep
    exact ih e (List.mem_of_mem_eraseIdx he)
  | releaseBuffer | elsewhere =>
    cases hstep
    exact ih e he

/-- In every reachable state, whatever permits have come back, each event that a poll hands over
names what exists: a peer that has been built, a channel of that peer that has been registered, or
the object that the command of its operation has created. -/
theorem handed_attributed (h : Reachable certificate ok s) :
    ∀ e ∈ s.handing, Attributed s.runtime.shared e := fun e he =>
  queued_attributed h (handing_queued h e he) ((inv_of_reachable h).handing e he)

section Witness

theorem handed_attributed_remote : ∃ s, Reachable ⟨"",[]⟩ (fun _ _ => True) s ∧
    s.handing.map (fun e => (e.peer_handle,e.channel_handle)) = [(1,0),(1,2),(1,2)] ∧
      ∀ e ∈ s.handing, Attributed s.runtime.shared e := by
  have hrun : (Interleaving.run step
      (remoteRun.map .runtime ++ [.receive,.receive,.receive]) (init ⟨"",[]⟩)).map (fun s =>
        s.handing.map fun e => (e.peer_handle,e.channel_handle)) =
      some [(1,0),(1,2),(1,2)] := by rfl
  obtain ⟨s,hs,hhandles⟩ := Option.map_eq_some_iff.mp hrun
  have hreach : Reachable ⟨"",[]⟩ (fun _ _ => True) s := reaches_of_run hs fun _ _ _ => trivial
  exact ⟨s,hreach,hhandles,handed_attributed hreach⟩

end Witness
end Delivery
end Kestara.Native
