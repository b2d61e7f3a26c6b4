import Kestara.Library.Simulation
import Kestara.Native.Delivery

/-!
# Receive capacity in place of returned permits

A runtime that is never polled gives out every permit once. It does all that a polled runtime does
if its peers are configured with receive queues that are large enough: the returned permits are
the only thing that a poll or a release gives back to the runtime.
-/
namespace Kestara.Native
open Interleaving

section Raised
variable (capacity : ℕ)

/-- The same configuration with another receive queue. -/
def PeerConfiguration.raised (c : PeerConfiguration) : PeerConfiguration :=
  { c with sctp := { c.sctp with receive_queue_capacity := capacity } }

def Operation.raised : Operation → Operation
  | .createPeer configuration => .createPeer (configuration.raised capacity)
  | operation => operation

def Command.raised (c : Command) : Command :=
  { c with operation := c.operation.raised capacity }

def PeerEntry.raised (e : PeerEntry) : PeerEntry :=
  { e with receive_queue_capacity := capacity }

def Locked.raised : Locked → Locked
  | .request operation => .request (operation.raised capacity)
  | .send channel operation => .send channel (operation.raised capacity)
  | body => body

def Instr.raised : Instr → Instr
  | .execute operation => .execute (operation.raised capacity)
  | .bindPort handle configuration ports last_error =>
    .bindPort handle (configuration.raised capacity) ports last_error
  | .buildPeer handle configuration port ports certificate =>
    .buildPeer handle (configuration.raised capacity) port ports certificate
  | .insertPeer handle peer _ => .insertPeer handle peer capacity
  | .getPeer peer_handle body => .getPeer peer_handle (body.raised capacity)
  | .lock peer body => .lock peer (body.raised capacity)
  | .call channel operation => .call channel (operation.raised capacity)
  | .request operation => .request (operation.raised capacity)
  | .spawnCloses peers closes => .spawnCloses (peers.map (PeerEntry.raised capacity)) closes
  | i => i

def History.raised (h : History) : History :=
  { h with
    submitted := h.submitted.map (Command.raised capacity)
    builds := h.builds.map fun b => { b with configuration := b.configuration.raised capacity } }

def Registry.raised (r : Registry) : Registry :=
  { r with peers := r.peers.mapValues (PeerEntry.raised capacity) }

/-- The state of a runtime with that receive capacity, its own permits and its own events. -/
def RuntimeState.raised (slots : UInt64 → ℕ) (events : List NativeEvent) (s : RuntimeState) :
    RuntimeState :=
  { s with
    registry := s.registry.raised capacity
    events := events
    commands := s.commands.map (Command.raised capacity)
    slots := slots
    command := fun t => (s.command t).map (Command.raised capacity)
    history := s.history.raised capacity }

def Label.raised : Label → Label
  | .submit command => .submit (command.raised capacity)
  | l => l

end Raised

/-- The events of the runtime itself: those that `wake` has put into the queue are left out. -/
def unwoken (events : List NativeEvent) : List NativeEvent := events.filter fun e => e.kind ≠ WAKE

/-- The second state has permits for `n` more messages of every channel that is polled. -/
def Raises (capacity n : ℕ) (s s' : RuntimeState) : Prop :=
  ∃ slots events, s' = s.raised capacity slots events ∧ unwoken events = unwoken s.events ∧
    ∀ k ∈ s.history.polled, n ≤ slots k

/-- The second outcome is the first one of a runtime with that receive capacity. -/
abbrev Image (capacity n : ℕ) : Outcome → Outcome → Prop :=
  Machine.Matches (Instr.raised capacity) (Raises capacity n)

section Exec
variable {capacity n : ℕ} {x : Choice} {t : TaskId} {s s' : RuntimeState}
open Machine

lemma unwoken_append (events rest : List NativeEvent) :
    unwoken (events ++ rest) = unwoken events ++ unwoken rest := List.filter_append ..

lemma Raises.weaken (h : Raises capacity (n+1) s s') : Raises capacity n s s' := by
  obtain ⟨slots,events,rfl,he,hs⟩ := h
  exact ⟨slots,events,rfl,he,fun k hk => (Nat.le_succ n).trans (hs k hk)⟩

lemma reply_raised (operation : Operation) (x : Choice) :
    reply (operation.raised capacity) x = reply operation x := by
  cases operation <;> first | rfl | cases x <;> rfl

lemma raised_eq_shutdown {command : Command} :
    (command.raised capacity).operation = .shutdown ↔ command.operation = .shutdown := by
  obtain ⟨op,timeout,operation⟩ := command
  cases operation <;> simp [Command.raised,Operation.raised]

lemma matches_next (code : List Instr) (h : Raises capacity n s s') :
    Image capacity n (.next s code) (.next s' (code.map (Instr.raised capacity))) := .next h

lemma matches_fixed {code : List Instr} (hc : ∀ i ∈ code, i.raised capacity = i)
    (h : Raises capacity n s s') : Image capacity n (.next s code) (.next s' code) := by
  have hnext := matches_next code h
  rwa [List.map_congr_left hc,List.map_id'] at hnext

lemma matches_fork (code childCode : List Instr) {child : TaskId} (h : Raises capacity n s s') :
    Image capacity n (.fork s code child childCode)
      (.fork s' (code.map (Instr.raised capacity)) child
        (childCode.map (Instr.raised capacity))) := .fork h

lemma matches_request {operation : Operation} (h : Raises capacity n s s') :
    Image capacity n (request operation x s)
      (request (operation.raised capacity) x s') := by
  simp only [request,reply_raised]
  cases reply operation x with
  | none => exact .blocked
  | some result => exact .throw h

lemma matches_getPeer {peer_handle : UInt64} {body : Locked} (h : Raises capacity n s s') :
    Image capacity n (getPeer peer_handle body s)
      (getPeer peer_handle (body.raised capacity) s') := by
  obtain ⟨slots,events,rfl,he,hs⟩ := h
  simp only [getPeer,RuntimeState.get_peer,RuntimeState.raised,Registry.raised,
    LinkedMap.lookup_mapValues]
  cases s.registry.peers.lookup peer_handle with
  | none => exact .throw ⟨slots,events,rfl,he,hs⟩
  | some entry => exact matches_next [.lock entry.peer body] ⟨slots,events,rfl,he,hs⟩

lemma matches_get_channel {channel_handle : UInt64} {code code' : ChannelEntry → List Instr}
    (h : Raises capacity n s s') (hc : ∀ entry, code' entry = (code entry).map (.raised capacity)) :
    Image capacity n (get_channel channel_handle s code)
      (get_channel channel_handle s' code') := by
  obtain ⟨slots,events,rfl,he,hs⟩ := h
  simp only [get_channel,RuntimeState.get_channel,RuntimeState.raised,Registry.raised]
  cases s.registry.channels.lookup channel_handle with
  | none => exact .throw ⟨slots,events,rfl,he,hs⟩
  | some entry =>
    simp only [hc]
    exact .next ⟨slots,events,rfl,he,hs⟩

lemma matches_execute {operation : Operation} (h : Raises capacity n s s') :
    Image capacity n (execute operation s)
      (execute (operation.raised capacity) s') := by
  cases operation with
  | createPeer configuration =>
    obtain ⟨slots,events,rfl,he,hs⟩ := h
    exact matches_next [.bindPort s.next_handle configuration (ports configuration) none]
      ⟨slots,events,rfl,he,hs⟩
  | createDescription | setLocalDescription | setRemoteDescription | addIceCandidate | restartIce
  | setConfiguration | getStats | createDataChannel => exact matches_getPeer h
  | sendText | sendBinary | trySendText | trySendBinary | dataChannelWritable
  | dataChannelOutstandingBytes | setDataChannelThresholds =>
    exact matches_get_channel h fun _ => rfl
  | closeDataChannel channel_handle =>
    obtain ⟨slots,events,rfl,he,hs⟩ := h
    simp only [execute,Operation.raised,close_data_channel,RuntimeState.raised,Registry.raised]
    cases s.registry.channels.lookup channel_handle with
    | none => exact .throw ⟨slots,events,rfl,he,hs⟩
    | some entry =>
      exact matches_next [.getPeer entry.peer_handle (.closeChannel entry.channel)]
        ⟨slots,events,rfl,he,hs⟩
  | closePeer peer_handle =>
    obtain ⟨slots,events,rfl,he,hs⟩ := h
    have hremoved : ∀ r : Registry,
        (r.raised capacity).removePeer peer_handle = (r.removePeer peer_handle).raised capacity := by
      intro r
      simp [Registry.raised,Registry.removePeer]
    have hR : Raises capacity n (s.setRegistry (·.removePeer peer_handle))
        ((s.raised capacity slots events).setRegistry (·.removePeer peer_handle)) := by
      refine ⟨slots,events,?_,he,hs⟩
      simp only [RuntimeState.setRegistry,RuntimeState.raised,hremoved]
    simp only [execute,Operation.raised,close_peer]
    have hlookup : (s.raised capacity slots events).registry.peers.lookup peer_handle =
        (s.registry.peers.lookup peer_handle).map (PeerEntry.raised capacity) :=
      LinkedMap.lookup_mapValues _ _ _
    rw [hlookup]
    cases s.registry.peers.lookup peer_handle with
    | none => exact .throw hR
    | some entry => exact matches_next [.lock entry.peer .closePeer] hR
  | rotateCertificate => exact .blocked
  | shutdown => exact .throw h

lemma Raises.send (h : Raises capacity n s s') (e : NativeEvent) :
    Raises capacity n (s.send_event e) (s'.send_event e) := by
  obtain ⟨slots,events,rfl,he,hs⟩ := h
  refine ⟨slots,events ++ [e],rfl,?_,hs⟩
  simp only [RuntimeState.send_event,unwoken_append,he]

lemma matches_awaitUnit {success success' : Outcome} {error : String → String}
    (h : Raises capacity n s s') (hs : Image capacity n success success') :
    Image capacity n (awaitUnit success error x s) (awaitUnit success' error x s') := by
  cases x with
  | ok => exact hs
  | fail message => exact .throw h
  | _ => exact .blocked

lemma matches_call {channel : ChannelRef} {operation : Operation} (h : Raises capacity n s s') :
    Image capacity n (call t channel operation s)
      (call t channel (operation.raised capacity) s') := by
  have hcode : ∀ (s s' : RuntimeState) operation, Raises capacity n s s' →
      Image capacity n (.next s [.request operation])
        (.next s' [.request (operation.raised capacity)]) :=
    fun _ _ operation h => matches_next [.request operation] h
  cases operation with
  | sendText | trySendText =>
    obtain ⟨slots,events,rfl,he,hs⟩ := h
    exact hcode _ _ _ ⟨slots,events,rfl,he,hs⟩
  | sendBinary channel_handle data | trySendBinary channel_handle data =>
    obtain ⟨slots,events,rfl,he,hs⟩ := h
    simp only [call,Operation.raised]
    cases try_into_mut data with
    | some data => exact hcode _ _ _ ⟨slots,events,rfl,he,hs⟩
    | none => exact .throw ⟨slots,events,rfl,he,hs⟩
  | _ => exact hcode _ _ _ h

lemma matches_buildPeer {handle : UInt64} {configuration : PeerConfiguration} {port : UInt16}
    {ports : List UInt16} {certificate : RTCCertificate} (h : Raises capacity n s s') :
    Image capacity n (buildPeer handle configuration port ports certificate x s)
      (buildPeer handle (configuration.raised capacity) port ports certificate x s') := by
  cases x with
  | ok =>
    obtain ⟨slots,events,rfl,he,hs⟩ := h
    exact matches_next [.insertPeer handle s.nextPeer configuration.sctp.receive_queue_capacity]
      ⟨slots,events,rfl,he,hs⟩
  | fail message =>
    simp only [buildPeer]
    split_ifs
    · exact .throw h
    · exact matches_next [.bindPort handle configuration ports (some message)] h
  | _ => exact .blocked

lemma matches_poll {peer_handle channel_handle : UInt64} (h : Raises capacity n s s') :
    Image capacity n (poll_data_channel peer_handle channel_handle x s)
      (poll_data_channel peer_handle channel_handle x s') := by
  have hsend : ∀ (s s' : RuntimeState) (i : Instr) (e : NativeEvent), i.raised capacity = i →
      Raises capacity n s s' → Image capacity n (.next (s.send_event e) [i])
        (.next (s'.send_event e) [i]) := by
    intro s s' i e hi h
    exact matches_fixed (fun j hj => List.mem_singleton.mp hj ▸ hi) (h.send e)
  cases x with
  | event event =>
    cases event with
    | none => exact matches_next [.removePolled channel_handle] h
    | some event =>
      have hnoted : Raises capacity n (s.notePoll channel_handle event)
          (s'.notePoll channel_handle event) := by
        obtain ⟨slots,events,rfl,he,hs⟩ := h
        exact ⟨slots,events,rfl,he,hs⟩
      cases event with
      | onMessage is_string data =>
        exact matches_next [.deliver peer_handle channel_handle is_string data] hnoted
      | _ => exact hsend _ _ _ _ rfl hnoted
  | _ => exact .blocked

lemma matches_receive (h : Raises capacity n s s') :
    Image capacity n (receive s) (receive s') := by
  obtain ⟨slots,events,rfl,he,hs⟩ := h
  cases hc : s.commands with
  | nil => simp only [receive,hc]; exact .blocked
  | cons command commands =>
    have hc' : (s.raised capacity slots events).commands =
        command.raised capacity :: commands.map (Command.raised capacity) := by
      simp [RuntimeState.raised,hc]
    simp only [receive,hc,hc',raised_eq_shutdown]
    split_ifs with ho
    · refine matches_fixed (fun i hi => ?_) ⟨slots,events,rfl,he,hs⟩
      simp only [List.mem_append,List.mem_map,List.mem_cons,List.not_mem_nil,or_false] at hi
      obtain ⟨u,-,rfl⟩ | rfl | rfl := hi <;> rfl
    · refine matches_fork [.receive] [.execute command.operation,
        .dispatched command.operation_handle,.finish] ⟨slots,events,?_,he,hs⟩
      have hcommand : Function.update (fun t => (s.command t).map (Command.raised capacity))
          s.nextTask (some (command.raised capacity)) =
          fun t => (Function.update s.command s.nextTask (some command) t).map
            (Command.raised capacity) := by
        funext t
        by_cases ht : t = s.nextTask <;> simp [Function.update,ht]
      simp only [RuntimeState.raised,hcommand]

lemma matches_rotate (h : Raises capacity n s s') :
    Image capacity n (rotateCertificate x s) (rotateCertificate x s') := by
  cases x with
  | certificate result =>
    cases result with
    | error error => exact .throw h
    | ok certificate =>
      simp only [rotateCertificate]
      cases certificate_fingerprint_value certificate with
      | error error => exact .throw h
      | ok fingerprint =>
        obtain ⟨slots,events,rfl,he,hs⟩ := h
        exact .throw ⟨slots,events,rfl,he,hs⟩
  | _ => exact .blocked

lemma matches_insertPeer {handle : UInt64} {peer : PeerRef} {receive_queue_capacity : ℕ}
    (h : Raises capacity n s s') : Image capacity n
      (insertPeer t handle peer receive_queue_capacity s) (insertPeer t handle peer capacity s') := by
  obtain ⟨slots,events,rfl,he,hs⟩ := h
  refine .throw ⟨slots,events,?_,he,hs⟩
  have hinsert : (s.registry.peers.mapValues (PeerEntry.raised capacity)).insert handle
      { peer,receive_queue_capacity := capacity } =
      (s.registry.peers.insert handle { peer,receive_queue_capacity }).mapValues
        (PeerEntry.raised capacity) :=
    LinkedMap.insert_mapValues (PeerEntry.raised capacity) s.registry.peers handle
      { peer,receive_queue_capacity }
  simp only [RuntimeState.raised,RuntimeState.setRegistry,RuntimeState.record,Registry.raised,
    History.raised,hinsert]

lemma matches_startPolling {handle peer_handle : UInt64} {channel : ChannelRef}
    (hn : n ≤ capacity) (h : Raises capacity n s s') : Image capacity n
      (startPolling handle peer_handle channel s) (startPolling handle peer_handle channel s') := by
  obtain ⟨slots,events,rfl,he,hs⟩ := h
  simp only [startPolling,RuntimeState.get_peer,RuntimeState.raised,Registry.raised,
    LinkedMap.lookup_mapValues]
  cases s.registry.peers.lookup peer_handle with
  | none => exact .throw ⟨slots,events,rfl,he,hs⟩
  | some entry =>
    refine matches_fork [.returnChannel handle (s.channel channel).id]
      [.poll peer_handle handle,.finish] ⟨Function.update slots handle capacity,events,rfl,he,?_⟩
    intro k hk
    by_cases hkh : k = handle
    · subst hkh
      simpa using hn
    · have hold : k ∈ s.history.polled := by simpa [RuntimeState.record,hkh] using hk
      simpa [Function.update,hkh] using hs k hold

lemma matches_deliver {peer_handle channel_handle : UInt64} {is_string : Bool} {data : List UInt8}
    (hp : channel_handle ∈ s.history.polled) (h : Raises capacity (n+1) s s') : Image capacity n
      (deliver peer_handle channel_handle is_string data s)
      (deliver peer_handle channel_handle is_string data s') := by
  obtain ⟨slots,events,rfl,he,hs⟩ := h
  have hpos := hs channel_handle hp
  have hslots : (s.raised capacity slots events).slots channel_handle ≠ 0 :=
    Nat.ne_of_gt (Nat.lt_of_lt_of_le (Nat.succ_pos n) hpos)
  simp only [deliver,if_neg hslots]
  split_ifs
  · exact .blocked
  · refine matches_next [.poll peer_handle channel_handle] (Raises.send ?_ _)
    refine ⟨Function.update slots channel_handle (slots channel_handle-1),events,rfl,he,?_⟩
    intro k hk
    have hk' := hs k hk
    by_cases hkc : k = channel_handle
    · subst hkc
      simp only [Function.update_self]
      omega
    · simp only [Function.update_of_ne hkc]
      omega

lemma matches_spawnCloses {peers : List PeerEntry} {closes : List TaskId}
    (h : Raises capacity n s s') : Image capacity n (spawnCloses peers closes s)
      (spawnCloses (peers.map (PeerEntry.raised capacity)) closes s') := by
  cases peers with
  | nil =>
    refine matches_fixed (fun i hi => ?_) h
    simp only [List.mem_append,List.mem_map,List.mem_cons,List.not_mem_nil,or_false] at hi
    obtain ⟨u,-,rfl⟩ | rfl := hi <;> rfl
  | cons entry peers =>
    obtain ⟨slots,events,rfl,he,hs⟩ := h
    exact matches_fork [.spawnCloses peers (closes ++ [s.nextTask])]
      [.lock entry.peer .closePeer,.finish] ⟨slots,events,rfl,he,hs⟩

lemma matches_lock {peer : PeerRef} {body : Locked} (h : Raises capacity n s s') :
    Image capacity n (lock peer body s) (lock peer (body.raised capacity) s') := by
  obtain ⟨slots,events,rfl,he,hs⟩ := h
  have hfirst : (body.raised capacity).first peer = (body.first peer).raised capacity := by
    cases body <;> rfl
  by_cases hl : s.locked peer = true
  · have hblocked : lock peer body s = .blocked := if_pos hl
    rw [hblocked]
    exact .blocked
  · have hfree : (s.raised capacity slots events).locked peer = false :=
      Bool.eq_false_iff.mpr hl
    simp only [lock,hfree,if_neg hl,hfirst,Bool.false_eq_true,if_false]
    exact matches_next [body.first peer,.unlock peer] ⟨slots,events,rfl,he,hs⟩

/-- Every step has its image; the permit that it takes is one of the larger queue. -/
lemma matches_run {i : Instr} (hn : n ≤ capacity)
    (hp : ∀ k, i.serves = some k → k ∈ s.history.polled) (h : Raises capacity (n+1) s s') :
    Image capacity n (run x t i s) (run x t (i.raised capacity) s') := by
  have hw := h.weaken
  have hsame : ∀ {s₁ s₁' : RuntimeState}, Raises capacity n s₁ s₁' →
      Image capacity n (.next s₁ []) (.next s₁' []) := fun h => matches_next [] h
  cases i with
  | execute operation =>
    have hexecute : Image capacity n (execute operation s)
        (execute (operation.raised capacity) s') := matches_execute hw
    cases operation with
    | rotateCertificate => exact matches_rotate hw
    | _ => exact hexecute
  | bindPort handle configuration ports last_error =>
    obtain ⟨slots,events,rfl,he,hs⟩ := hw
    cases ports with
    | nil => exact .throw ⟨slots,events,rfl,he,hs⟩
    | cons port ports =>
      refine matches_next [.buildPeer handle configuration port ports s.certificate]
        ⟨slots,events,?_,he,hs⟩
      simp [RuntimeState.raised,RuntimeState.record,History.raised]
  | buildPeer => exact matches_buildPeer hw
  | insertPeer => exact matches_insertPeer hw
  | getPeer => exact matches_getPeer hw
  | lock => exact matches_lock hw
  | unlock peer =>
    obtain ⟨slots,events,rfl,he,hs⟩ := hw
    exact hsame ⟨slots,events,rfl,he,hs⟩
  | call => exact matches_call hw
  | request => exact matches_request hw
  | createChannel peer_handle configuration =>
    obtain ⟨slots,events,rfl,he,hs⟩ := hw
    cases x with
    | channel channel =>
      exact matches_next [.registerChannel peer_handle s.nextChannel false]
        ⟨slots,events,rfl,he,hs⟩
    | fail message => exact .throw ⟨slots,events,rfl,he,hs⟩
    | _ => exact .blocked
  | setLow | setHigh =>
    obtain ⟨slots,events,rfl,he,hs⟩ := hw
    exact matches_awaitUnit ⟨slots,events,rfl,he,hs⟩ (hsame ⟨slots,events,rfl,he,hs⟩)
  | awaitLow | dispatched | graceful => exact hsame hw
  | awaitHigh | returnChannel | shutDown => exact .throw hw
  | closeChannel channel =>
    obtain ⟨slots,events,rfl,he,hs⟩ := hw
    exact matches_next [.awaitChannelClosed] ⟨slots,events,rfl,he,hs⟩
  | awaitChannelClosed | awaitPeerClosed => exact matches_awaitUnit hw (.throw hw)
  | closePeer peer =>
    obtain ⟨slots,events,rfl,he,hs⟩ := hw
    exact matches_next [.awaitPeerClosed] ⟨slots,events,rfl,he,hs⟩
  | accept peer_handle channel => exact matches_next [.registerChannel peer_handle channel true] hw
  | registerChannel peer_handle channel emit =>
    obtain ⟨slots,events,rfl,he,hs⟩ := hw
    exact matches_next [.readAttributes s.next_handle peer_handle channel emit]
      ⟨slots,events,rfl,he,hs⟩
  | readAttributes handle peer_handle channel emit =>
    cases x with
    | attributes attributes =>
      exact matches_next [.insertChannel handle peer_handle channel emit attributes] hw
    | _ => exact .blocked
  | insertChannel handle peer_handle channel emit attributes =>
    obtain ⟨slots,events,rfl,he,hs⟩ := hw
    refine matches_fixed (fun i hi => ?_) ⟨slots,events,rfl,he,hs⟩
    cases emit <;> simp only [if_true,Bool.false_eq_true,if_false,List.nil_append,
      List.cons_append,List.mem_cons,List.not_mem_nil,or_false] at hi
    · rw [hi]
      rfl
    · obtain rfl | rfl := hi <;> rfl
  | sendCreated event => exact hsame (hw.send event)
  | startPolling => exact matches_startPolling hn hw
  | poll => exact matches_poll hw
  | deliver peer_handle channel_handle is_string data =>
    exact matches_deliver (hp channel_handle rfl) h
  | removePolled channel_handle =>
    obtain ⟨slots,events,rfl,he,hs⟩ := hw
    exact hsame ⟨slots,events,rfl,he,hs⟩
  | post operation_handle result => exact hsame (hw.send _)
  | finish | abort | shutdownTimeout | stopReceiving =>
    obtain ⟨slots,events,rfl,he,hs⟩ := hw
    exact hsame ⟨slots,events,rfl,he,hs⟩
  | receive => exact matches_receive hw
  | join task | joinClose task =>
    obtain ⟨slots,events,rfl,he,hs⟩ := hw
    change Image capacity n (if s.finished task then .next s [] else .blocked)
      (if s.finished task then .next (s.raised capacity slots events) [] else .blocked)
    split_ifs
    · exact hsame ⟨slots,events,rfl,he,hs⟩
    · exact .blocked
  | clearRegistry =>
    obtain ⟨slots,events,rfl,he,hs⟩ := hw
    have hvalues : (s.raised capacity slots events).registry.peers.values =
        s.registry.peers.values.map (PeerEntry.raised capacity) := LinkedMap.values_mapValues _ _
    simp only [run,Instr.raised,hvalues]
    exact matches_next [.spawnCloses s.registry.peers.values []] ⟨slots,events,rfl,he,hs⟩
  | spawnCloses => exact matches_spawnCloses hw

lemma suspends_raised (i : Instr) : (i.raised capacity).suspends = i.suspends := by
  cases i <;> rfl

lemma starts_raised (i : Instr) : (i.raised capacity).starts = i.starts := by
  cases i <;> rfl

lemma matches_expire {i : Instr} (h : Raises capacity n s s') :
    Image capacity n (expire t i s) (expire t (i.raised capacity) s') := by
  obtain ⟨slots,events,rfl,he,hs⟩ := h
  have hcommand : ((s.raised capacity slots events).command t).isSome = (s.command t).isSome :=
    Option.isSome_map
  by_cases hjoin : ∃ task, i = .join task ∨ i = .joinClose task
  · obtain ⟨task,rfl | rfl⟩ := hjoin <;> exact .throw ⟨slots,events,rfl,he,hs⟩
  · have hj : ∀ s : RuntimeState, expire t i s =
        if i.suspends ∧ (s.command t).isSome then
          .throw s (.done (.error "WebRTC operation timed out")) else .blocked := by
      intro s
      cases i <;> first | rfl | simp at hjoin
    have hj' : ∀ s : RuntimeState, expire t (i.raised capacity) s =
        if i.suspends ∧ (s.command t).isSome then
          .throw s (.done (.error "WebRTC operation timed out")) else .blocked := by
      intro s
      cases i <;> first | rfl | simp at hjoin
    rw [hj,hj',hcommand]
    split_ifs
    · exact .throw ⟨slots,events,rfl,he,hs⟩
    · exact .blocked

lemma matches_drop {i : Instr} (h : Raises capacity n s s') :
    Image capacity n (drop t i s) (drop t (i.raised capacity) s') := by
  obtain ⟨slots,events,rfl,he,hs⟩ := h
  have hsame : ∀ b : Bool, (s.raised capacity slots events).aborted t = b ↔ s.aborted t = b :=
    fun _ => Iff.rfl
  simp only [drop,suspends_raised,starts_raised]
  change Image capacity n _ (if (i.suspends = true ∨ i.starts = true) ∧ t ≠ 0 ∧
    (s.aborted t = true ∨ s.stopped = true) then _ else _)
  split_ifs
  · exact .throw ⟨slots,events,rfl,he,hs⟩
  · exact .blocked

lemma matches_exec {i : Instr} (hn : n ≤ capacity)
    (hp : ∀ k, i.serves = some k → k ∈ s.history.polled) (h : Raises capacity (n+1) s s') :
    Image capacity n (machine.exec x t i s) (machine.exec x t (i.raised capacity) s') := by
  cases x with
  | expire => exact matches_expire h.weaken
  | drop => exact matches_drop h.weaken
  | _ => exact matches_run hn hp h

lemma raised_follows (capacity n : ℕ) :
    Machine.Follows machine machine (Instr.raised capacity) (Raises capacity n) where
  handler e i := by
    cases e with
    | done result =>
      cases i <;> first | rfl | (cases result <;> rfl)
    | _ => cases i <;> rfl
  release i s s' h := by
    obtain ⟨slots,events,rfl,he,hs⟩ := h
    cases i <;> exact ⟨slots,events,rfl,he,hs⟩

end Exec

section Steps
variable {capacity n : ℕ} {c c' d : Config}

/-- The second runtime is in the same place, with a receive capacity that lasts for `n` steps. -/
abbrev Mirrors (capacity n : ℕ) : Config → Config → Prop :=
  Machine.Related (Instr.raised capacity) (Raises capacity n)

/-- A step of the runtime is one of the runtime with larger receive queues. -/
lemma mirrors_step {l : Label} (hn : n ≤ capacity) (hI : PermitInv c)
    (h : Mirrors capacity (n+1) c d) (hs : step l c = some c') :
    ∃ d', step (l.raised capacity) d = some d' ∧ Mirrors capacity n c' d' := by
  cases l with
  | task t x =>
    refine (raised_follows capacity n).stepTask h (fun i rest head => ?_) hs
    exact matches_exec hn (hI.permitted t i (by simp [head])).1 h.shared
  | submit command =>
    obtain ⟨⟨slots,events,hd,he,hslots⟩,htasks⟩ := h
    simp only [step] at hs
    split_ifs at hs with hr
    cases hs
    have hr' : d.shared.receiving = true := by rw [hd]; exact hr
    refine ⟨_,if_pos hr',⟨slots,events,?_,he,fun k hk => (Nat.le_succ n).trans (hslots k hk)⟩,htasks⟩
    simp [hd,RuntimeState.submit,RuntimeState.record,RuntimeState.raised,History.raised]
  | completeError op error =>
    cases hs
    obtain ⟨⟨slots,events,hd,he,hslots⟩,htasks⟩ := h
    refine ⟨_,rfl,⟨slots,events ++ [.failure op error],?_,?_,
      fun k hk => (Nat.le_succ n).trans (hslots k hk)⟩,htasks⟩
    · rw [hd]
      rfl
    · rw [unwoken_append,he]
      exact (unwoken_append _ _).symm
  | announce peer channel =>
    obtain ⟨⟨slots,events,hd,he,hslots⟩,htasks⟩ := h
    simp only [step] at hs
    split_ifs at hs with hp
    cases hs
    have hp' : peer < d.shared.nextPeer ∧ d.shared.receiving = true := by rw [hd]; exact hp
    refine ⟨_,if_pos hp',⟨slots,events,?_,he,fun k hk => (Nat.le_succ n).trans (hslots k hk)⟩,?_⟩
    · rw [hd]
      rfl
    · simp only [hd]
      exact Machine.map_update _ htasks _ [.accept (c.shared.peer peer).handle c.shared.nextChannel,
        .finish]
  | callback peer x =>
    obtain ⟨⟨slots,events,hd,he,hslots⟩,htasks⟩ := h
    simp only [step] at hs
    split_ifs at hs with hp
    cases hs
    have hp' : peer < d.shared.nextPeer ∧ x.admitted = true := by rw [hd]; exact hp
    refine ⟨_,if_pos hp',⟨slots,events ++ [x.event (c.shared.peer peer).handle],?_,?_,
      fun k hk => (Nat.le_succ n).trans (hslots k hk)⟩,htasks⟩
    · rw [hd]
      rfl
    · rw [unwoken_append,he]
      exact (unwoken_append _ _).symm

end Steps

namespace Delivery
variable {capacity n : ℕ} {l : DeliveryLabel} {s s' : Delivery} {d : Config}

/-- Permits come back, and the queue gets a wake. -/
lemma mirrors_poll (hl : ∀ l', l ≠ .runtime l') (h : Mirrors capacity n s.runtime d)
    (hs : s.step l = some s') : Mirrors capacity n s'.runtime d := by
  obtain ⟨⟨slots,events,hd,he,hslots⟩,htasks⟩ := h
  have hdropped : ∀ permit,
      Mirrors capacity n { s.runtime with shared := Native.dropPermit permit s.runtime.shared } d :=
    fun permit => ⟨⟨slots,events,hd,he,hslots⟩,htasks⟩
  cases l with
  | runtime l => exact absurd rfl (hl l)
  | wake =>
    cases hs
    refine ⟨⟨slots,events,hd,he.trans ?_,hslots⟩,htasks⟩
    simp [RuntimeState.send_event,unwoken,NativeEvent.peer]
  | receive =>
    simp only [step] at hs
    split at hs
    · cases hs
    · next event _ =>
      split_ifs at hs
      · cases hs
        exact hdropped event.delivery_permit
      · cases hs
        exact ⟨⟨slots,events,hd,he,hslots⟩,htasks⟩
  | jni | c =>
    simp only [step] at hs
    split at hs <;> cases hs
    exact hdropped _
  | releaseBuffer =>
    cases hs
    exact hdropped _
  | elsewhere =>
    cases hs
    exact ⟨⟨slots,events,hd,he,hslots⟩,htasks⟩

theorem mirrored_of_reachable {certificate : RTCCertificate} {ok : DeliveryLabel → Delivery → Prop}
    (h : Reachable certificate ok s) : ∃ length, ∀ capacity, length ≤ capacity →
      ∃ d, Native.Reachable certificate (fun _ _ => True) d ∧ Mirrors capacity 0 s.runtime d := by
  have hrun : ∃ length, ∀ capacity n d, n+length ≤ capacity ∧
      Mirrors capacity (n+length) (init certificate).runtime d →
        ∃ d', Reaches Native.step (fun _ _ => True) d d' ∧ n ≤ capacity ∧
          Mirrors capacity n s.runtime d' := by
    refine Reaches.simulated (R := fun capacity n s d => n ≤ capacity ∧
      Mirrors capacity n s.runtime d) h ?_
    rintro capacity n l e e' d he - hs ⟨hn,hmirrors⟩
    by_cases hl : ∃ l', l = .runtime l'
    · obtain ⟨l,rfl⟩ := hl
      obtain ⟨c,hc,rfl⟩ := Option.map_eq_some_iff.mp hs
      have hpermits := (inv_of_reachable he).permits
      obtain ⟨d',hd,hmirrors'⟩ := mirrors_step (by omega) hpermits hmirrors hc
      exact ⟨d',.single ⟨_,trivial,hd⟩,by omega,hmirrors'⟩
    · have hkept := mirrors_poll (fun l' hl' => hl ⟨l',hl'⟩) hmirrors hs
      exact ⟨d,.refl,by omega,hkept.shared.weaken,hkept.tasks⟩
  obtain ⟨length,hrun⟩ := hrun
  refine ⟨length,fun capacity hc => ?_⟩
  have hinit : Mirrors capacity (0+length) (init certificate).runtime
      (Native.init certificate) := by
    refine ⟨⟨fun _ => 0,[],rfl,rfl,fun k hk => by cases hk⟩,fun t => ?_⟩
    simp only [init,Native.init]
    split_ifs <;> rfl
  obtain ⟨d,hd,-,hmirrors⟩ := hrun capacity 0 _ ⟨by omega,hinit⟩
  exact ⟨d,hd,hmirrors⟩

/-- What a polled runtime does, a runtime does that is never polled and whose peers have larger
receive queues: as large as there are steps in the run. The two differ in these queues, in the
permits left, and in the wakes that are queued. -/
theorem runtime_mirrored {certificate : RTCCertificate} {ok : DeliveryLabel → Delivery → Prop}
    (h : Reachable certificate ok s) : ∃ length, ∀ capacity, length ≤ capacity →
      ∃ d, Native.Reachable certificate (fun _ _ => True) d ∧ Mirrors capacity 0 s.runtime d :=
  mirrored_of_reachable h

section Streams
variable {k peer_handle : UInt64} {t : TaskId} {announced : List NativeEvent}

/-- The runtime without the wakes in its queue. -/
def unwokenRuntime (s : Delivery) : Config :=
  { s.runtime with
    shared := { s.runtime.shared with events := unwoken s.runtime.shared.events } }

/-- The stream of a channel has no wakes. -/
lemma streamOf_unwoken (h : ChannelStream t k peer_handle d announced) :
    streamOf k { d.shared with events := unwoken d.shared.events } = streamOf k d.shared := by
  have hkinds : ∀ polls : List DataChannelEvent,
      ∀ e ∈ announced ++ polls.map (·.image peer_handle k), e.kind ≠ WAKE := by
    intro polls e he
    obtain he | he := List.mem_append.mp he
    · rw [h.announced.kinds.2 e he]
      decide
    · obtain ⟨polled,-,rfl⟩ := List.mem_map.mp he
      have hapart : ∀ kind ∈ polledKinds, kind ≠ WAKE := by
        simp [polledKinds,WAKE,DATA_CHANNEL_OPEN,DATA_CHANNEL_ERROR,DATA_CHANNEL_CLOSING,
          DATA_CHANNEL_CLOSED,DATA_CHANNEL_TEXT,DATA_CHANNEL_BINARY,DATA_CHANNEL_BUFFERED_AMOUNT_LOW,
          DATA_CHANNEL_BUFFERED_AMOUNT_HIGH]
      exact hapart _ (image_kind polled)
  have hstream : ∀ e ∈ streamOf k d.shared, e.kind ≠ WAKE := by
    obtain ⟨hs,-⟩ | hs | ⟨is_string,data,polls,-,hs,-⟩ := h.events
    · simp [hs]
    · rw [hs]
      exact hkinds _
    · rw [hs]
      exact hkinds _
  calc streamOf k { d.shared with events := unwoken d.shared.events }
      = unwoken (streamOf k d.shared) := List.filter_comm ..
    _ = streamOf k d.shared := List.filter_eq_self.mpr (by simpa using hstream)

lemma head_of_raised {code rest : List Instr} {i : Instr}
    (hi : ∀ j : Instr, j.raised capacity = i → j = i)
    (h : code.map (Instr.raised capacity) = i :: rest) : ∃ rest', code = i :: rest' := by
  obtain ⟨j,rest',rfl,hj,-⟩ := List.map_eq_cons_iff.mp h
  exact ⟨rest',by rw [hi j hj]⟩

/-- The polled runtime has sent for a channel what the other one has. -/
lemma channelStream_of_mirrors (h : ChannelStream t k peer_handle d announced)
    (hm : Mirrors capacity n s.runtime d) :
    ChannelStream t k peer_handle s.unwokenRuntime announced := by
  obtain ⟨⟨slots,events,hd,he,-⟩,htasks⟩ := hm
  have hevents : unwoken d.shared.events = unwoken s.runtime.shared.events := by
    rw [hd]
    exact he
  have hstream : streamOf k d.shared = streamOf k s.unwokenRuntime.shared := by
    rw [← streamOf_unwoken h,hevents]
    rfl
  have hpolls : pollsOf k d.shared = pollsOf k s.unwokenRuntime.shared := by
    rw [hd]
    rfl
  have hcommand : d.shared.command t = none ↔ s.runtime.shared.command t = none := by
    rw [hd]
    exact Option.map_eq_none_iff
  refine ⟨?_,?_,hpolls ▸ h.closing,hstream ▸ h.last,hstream ▸ h.first⟩
  · rw [← hstream,← hpolls]
    obtain ⟨hs,hp,u,e,rest,hcode,ha⟩ | hs | ⟨is_string,data,polls,hp,hs,hwait⟩ := h.events
    · rw [htasks u] at hcode
      obtain ⟨rest',hcode⟩ := head_of_raised (fun j hj => by cases j <;> cases hj; rfl) hcode
      exact .inl ⟨hs,hp,u,e,rest',hcode,ha⟩
    · exact .inr (.inl hs)
    · refine .inr (.inr ⟨is_string,data,polls,hp,hs,?_⟩)
      obtain ⟨u,rest,hcode⟩ | hstopped | ⟨u,haborted⟩ := hwait
      · rw [htasks u] at hcode
        obtain ⟨rest',hcode⟩ := head_of_raised (fun j hj => by cases j <;> cases hj; rfl) hcode
        exact .inl ⟨u,rest',hcode⟩
      · rw [hd] at hstopped
        exact .inr (.inl hstopped)
      · rw [hd] at haborted
        exact .inr (.inr ⟨u,haborted⟩)
  · obtain ⟨hnone,hann⟩ | ⟨hsome,hann⟩ := h.announced
    · exact .inl ⟨hcommand.mp hnone,hann⟩
    · exact .inr ⟨fun hnone => hsome (hcommand.mpr hnone),hann⟩

/-- The streams of the channels are the same where the application polls the runtime and gives
its permits back. -/
theorem channel_streams_polled {certificate : RTCCertificate}
    {ok : DeliveryLabel → Delivery → Prop} (h : Reachable certificate ok s)
    (hn : Unwrapped s.runtime.shared) :
    ∀ t k channel peer_handle,
      ⟨t,k,.channel channel peer_handle⟩ ∈ s.runtime.shared.history.registered →
        ∃ announced, ChannelStream t k peer_handle s.unwokenRuntime announced := by
  intro t k channel peer_handle hr
  obtain ⟨length,hmirror⟩ := mirrored_of_reachable h
  obtain ⟨d,hd,hm⟩ := hmirror length le_rfl
  obtain ⟨slots,events,hshared,-⟩ := hm.shared
  obtain ⟨announced,hstream⟩ := channelStream_of_registered hd (by rw [hshared]; exact hn)
    (by rw [hshared]; exact hr)
  exact ⟨announced,channelStream_of_mirrors hstream hm⟩

end Streams
section Witness

/-- Two messages pass through a receive queue for one. -/
def refilledRun : List DeliveryLabel :=
  openingRun.map .runtime ++ [.runtime (.task 2 .ok)] ++ deliveringRun ++
    [.releaseBuffer 1,.runtime (.task 3 .ok)]

theorem runtime_mirrored_refilled : ∃ s, Reachable ⟨"",[]⟩ (fun _ _ => True) s ∧
    s.runtime.shared.registry.peers.values = [⟨0,1⟩] ∧
    permitsIn 2 s.runtime.shared.events = 2 ∧ ∃ length, ∀ capacity, length ≤ capacity →
      ∃ d, Native.Reachable ⟨"",[]⟩ (fun _ _ => True) d ∧ Mirrors capacity 0 s.runtime d := by
  have hrun : (Interleaving.run step refilledRun (init ⟨"",[]⟩)).map (fun s =>
      (s.runtime.shared.registry.peers.values,permitsIn 2 s.runtime.shared.events)) =
      some ([⟨0,1⟩],2) := by rfl
  obtain ⟨s,hs,hseen⟩ := Option.map_eq_some_iff.mp hrun
  obtain ⟨hpeers,hpermits⟩ := Prod.mk.inj hseen
  have hreach : Reachable ⟨"",[]⟩ (fun _ _ => True) s := reaches_of_run hs fun _ _ _ => trivial
  exact ⟨s,hreach,hpeers,hpermits,runtime_mirrored hreach⟩

end Witness
end Delivery
end Kestara.Native
