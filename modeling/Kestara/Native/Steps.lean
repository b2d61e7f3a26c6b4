import Kestara.Library.TaskRules
import Kestara.Native.Runtime

/-!
# What a native task can do

One constructor for every way in which an instruction changes the state or leaves code, so that an
invariant is checked against each of them once.
-/
namespace Kestara.Native
open Interleaving

/-- The look-up of a peer for which the operations lock is taken next. -/
def Instr.finds : Instr → Option (UInt64 × Locked)
  | .getPeer peer_handle body => some (peer_handle,body)
  | .execute operation =>
    match operation with
    | .createDescription peer_handle _ | .setLocalDescription peer_handle _
    | .setRemoteDescription peer_handle _ | .addIceCandidate peer_handle _
    | .restartIce peer_handle | .setConfiguration peer_handle _ _ | .getStats peer_handle =>
      some (peer_handle,.request operation)
    | .createDataChannel peer_handle configuration =>
      some (peer_handle,.createChannel peer_handle configuration)
    | _ => none
  | _ => none

/-- The event that is sent for an event of the library. -/
def DataChannelEvent.image (peer_handle channel_handle : UInt64) : DataChannelEvent → NativeEvent
  | .onOpen => .channel DATA_CHANNEL_OPEN peer_handle channel_handle
  | .onError =>
    { NativeEvent.channel DATA_CHANNEL_ERROR peer_handle channel_handle with
      text := some "The native DataChannel reported an error" }
  | .onClosing => .channel DATA_CHANNEL_CLOSING peer_handle channel_handle
  | .onClose => .channel DATA_CHANNEL_CLOSED peer_handle channel_handle
  | .onMessage is_string data => message_event peer_handle channel_handle is_string data
  | .onBufferedAmountLow => .channel DATA_CHANNEL_BUFFERED_AMOUNT_LOW peer_handle channel_handle
  | .onBufferedAmountHigh => .channel DATA_CHANNEL_BUFFERED_AMOUNT_HIGH peer_handle channel_handle

/-- The steps of a task, those apart that wait. -/
inductive Does (t : TaskId) (s : RuntimeState) : Instr → Outcome → Prop
  | leave {i} (result) : Does t s i (.throw s (.done result))
  | dropped {i} (ht : t ≠ 0) (hd : s.aborted t = true ∨ s.stopped = true) :
      Does t s i (.throw s .dropped)
  | panicked {channel operation} : Does t s (.call channel operation) (.throw s .panicked)
  | giveUp (task) (result) : Does t s (.joinClose task)
      (.throw { s with aborted := Function.update s.aborted task true } (.done result))
  | rotate (pem) (certificate fingerprint)
      (hf : certificate_fingerprint_value certificate = .ok fingerprint) :
      Does t s (.execute (.rotateCertificate pem))
        (.throw { s with certificate := certificate } (.done (.ok { text := some fingerprint })))
  | createPeer (configuration) : Does t s (.execute (.createPeer configuration))
      (.next s.allocate.2 [.bindPort s.next_handle configuration (ports configuration) none])
  | findPeer {i peer_handle body entry} (hi : i.finds = some (peer_handle,body))
      (he : s.registry.peers.lookup peer_handle = some entry) :
      Does t s i (.next s [.lock entry.peer body])
  | findSender (channel_handle operation entry)
      (hi : (∃ text, operation = .sendText channel_handle text) ∨
        ∃ data, operation = .sendBinary channel_handle data)
      (he : s.registry.channels.lookup channel_handle = some entry) :
      Does t s (.execute operation)
        (.next s [.getPeer entry.peer_handle (.send entry.channel operation)])
  | findChannel (channel_handle operation entry)
      (he : s.registry.channels.lookup channel_handle = some entry) :
      Does t s (.execute operation) (.next s [.call entry.channel operation])
  | findThresholds (channel_handle low high entry)
      (he : s.registry.channels.lookup channel_handle = some entry) :
      Does t s (.execute (.setDataChannelThresholds channel_handle low high))
        (.next s [.setLow entry.channel low,.awaitLow,.setHigh entry.channel high,.awaitHigh])
  | removeChannel (channel_handle entry)
      (he : s.registry.channels.lookup channel_handle = some entry) :
      Does t s (.execute (.closeDataChannel channel_handle))
        (.next (s.setRegistry fun r => { r with channels := r.channels.erase channel_handle })
          [.getPeer entry.peer_handle (.closeChannel entry.channel)])
  | noPeer (peer_handle) (he : s.registry.peers.lookup peer_handle = none) :
      Does t s (.execute (.closePeer peer_handle))
        (.throw (s.setRegistry (·.removePeer peer_handle)) (.done (.ok {})))
  | removePeer (peer_handle entry) (he : s.registry.peers.lookup peer_handle = some entry) :
      Does t s (.execute (.closePeer peer_handle))
        (.next (s.setRegistry (·.removePeer peer_handle)) [.lock entry.peer .closePeer])
  | bindPort (handle configuration port ports last_error) :
      Does t s (.bindPort handle configuration (port :: ports) last_error)
        (.next (s.record fun h => { h with
            builds := h.builds ++ [{ task := t,configuration,port }] })
          [.buildPeer handle configuration port ports s.certificate])
  | built (handle configuration port ports certificate) :
      Does t s (.buildPeer handle configuration port ports certificate)
        (.next { s with
            nextPeer := s.nextPeer+1
            peer := Function.update s.peer s.nextPeer { handle,port,certificate } }
          [.insertPeer handle s.nextPeer configuration.sctp.receive_queue_capacity])
  | retry (handle configuration port ports certificate message) :
      Does t s (.buildPeer handle configuration port ports certificate)
        (.next s [.bindPort handle configuration ports (some message)])
  | insertPeer (handle peer receive_queue_capacity) :
      Does t s (.insertPeer handle peer receive_queue_capacity)
        (.throw ((s.setRegistry fun r =>
            { r with peers := r.peers.insert handle { peer,receive_queue_capacity } }).record
              fun h => { h with
                registered := h.registered ++ [{ task := t,handle,object := .peer peer }] })
          (.done (.ok { peer_handle := handle })))
  | lock (peer body) (hl : s.locked peer = false) :
      Does t s (.lock peer body)
        (.next { s with locked := Function.update s.locked peer true }
          [body.first peer,.unlock peer])
  | unlock (peer) : Does t s (.unlock peer) (.next (unlock peer s) [])
  | call (channel operation) (payloads : List Payload) :
      Does t s (.call channel operation)
        (.next (s.record fun h => { h with sent := h.sent ++ payloads.map fun y => ⟨t,channel,y⟩ })
          [.request operation])
  | createChannel (peer_handle configuration channel) :
      Does t s (.createChannel peer_handle configuration)
        (.next { s with
            nextChannel := s.nextChannel+1
            channel := Function.update s.channel s.nextChannel channel }
          [.registerChannel peer_handle s.nextChannel false])
  | setLow (channel low) :
      Does t s (.setLow channel low)
        (.next (s.setChannel channel fun c => { c with low_threshold := low }) [])
  | awaitLow : Does t s .awaitLow (.next s [])
  | setHigh (channel high) :
      Does t s (.setHigh channel high)
        (.next (s.setChannel channel fun c => { c with high_threshold := high }) [])
  | closeChannel (channel) :
      Does t s (.closeChannel channel)
        (.next (s.setChannel channel fun c => { c with closed := true }) [.awaitChannelClosed])
  | closePeer (peer) :
      Does t s (.closePeer peer)
        (.next { s with peer := Function.update s.peer peer { s.peer peer with closed := true } }
          [.awaitPeerClosed])
  | accept (peer_handle channel) :
      Does t s (.accept peer_handle channel) (.next s [.registerChannel peer_handle channel true])
  | registerChannel (peer_handle channel emit) :
      Does t s (.registerChannel peer_handle channel emit)
        (.next s.allocate.2 [.readAttributes s.next_handle peer_handle channel emit])
  | readAttributes (handle peer_handle channel emit attributes) :
      Does t s (.readAttributes handle peer_handle channel emit)
        (.next s [.insertChannel handle peer_handle channel emit attributes])
  | insertChannel (handle peer_handle channel emit attributes) :
      Does t s (.insertChannel handle peer_handle channel emit attributes)
        (insertChannel t handle peer_handle channel emit attributes s)
  | sendCreated (event) : Does t s (.sendCreated event) (.next (s.send_event event) [])
  | startPolling (handle peer_handle channel entry)
      (he : s.registry.peers.lookup peer_handle = some entry) :
      Does t s (.startPolling handle peer_handle channel)
        (.fork (({ s with
            nextTask := s.nextTask+1
            slots := Function.update s.slots handle entry.receive_queue_capacity }).record
              fun h => { h with polled := h.polled ++ [handle] })
          [.returnChannel handle (s.channel channel).id] s.nextTask
          [.poll peer_handle handle,.finish])
  | polled (peer_handle channel_handle) (event : DataChannelEvent)
      (hm : ∀ is_string data, event ≠ .onMessage is_string data)
      (hc : event ≠ .onClose) :
      Does t s (.poll peer_handle channel_handle)
        (.next ((s.notePoll channel_handle event).send_event
            (event.image peer_handle channel_handle))
          [.poll peer_handle channel_handle])
  | closed (peer_handle channel_handle) :
      Does t s (.poll peer_handle channel_handle)
        (.next ((s.notePoll channel_handle .onClose).send_event
            (DataChannelEvent.onClose.image peer_handle channel_handle))
          [.removePolled channel_handle])
  | ended (peer_handle channel_handle) :
      Does t s (.poll peer_handle channel_handle) (.next s [.removePolled channel_handle])
  | received (peer_handle channel_handle is_string data) :
      Does t s (.poll peer_handle channel_handle)
        (.next (s.notePoll channel_handle (.onMessage is_string data))
          [.deliver peer_handle channel_handle is_string data])
  | deliver (peer_handle channel_handle is_string data) (hs : s.slots channel_handle ≠ 0) :
      Does t s (.deliver peer_handle channel_handle is_string data)
        (.next ({ s with
            slots := Function.update s.slots channel_handle (s.slots channel_handle-1) }
              |>.send_event (message_event peer_handle channel_handle is_string data))
          [.poll peer_handle channel_handle])
  | removePolled (channel_handle) :
      Does t s (.removePolled channel_handle)
        (.next (s.setRegistry fun r => { r with channels := r.channels.erase channel_handle }) [])
  | skip {i} (hi : (∃ op, i = .dispatched op) ∨ ∃ op, i = .graceful op) : Does t s i (.next s [])
  | post (operation_handle result) :
      Does t s (.post operation_handle result)
        (.next (s.send_event (.operation operation_handle result)) [])
  | finish : Does t s .finish (.next { s with finished := Function.update s.finished t true } [])
  | shutdown (command commands) (hc : s.commands = command :: commands)
      (ho : command.operation = .shutdown) :
      Does t s .receive
        (.next { s with commands, operations := s.operations.filter fun t => !s.finished t }
          ((s.operations.filter fun t => !s.finished t).map .join ++
            [.clearRegistry,.graceful command.operation_handle]))
  | dispatch (command commands) (hc : s.commands = command :: commands)
      (ho : command.operation ≠ .shutdown) :
      Does t s .receive
        (.fork { s with
            commands
            operations := (s.operations.filter fun t => !s.finished t) ++ [s.nextTask]
            nextTask := s.nextTask+1
            command := Function.update s.command s.nextTask (some command) }
          [.receive] s.nextTask
          [.execute command.operation,.dispatched command.operation_handle,.finish])
  | joined {i} (task) (hi : i = .join task ∨ i = .joinClose task) (hf : s.finished task = true) :
      Does t s i (.next s [])
  | clearRegistry :
      Does t s .clearRegistry
        (.next (s.setRegistry fun _ => {}) [.spawnCloses s.registry.peers.values []])
  | spawned (closes) :
      Does t s (.spawnCloses [] closes) (.next s (closes.map .joinClose ++ [.shutDown]))
  | spawnClose (entry peers closes) :
      Does t s (.spawnCloses (entry :: peers) closes)
        (.fork { s with nextTask := s.nextTask+1 } [.spawnCloses peers (closes ++ [s.nextTask])]
          s.nextTask [.lock entry.peer .closePeer,.finish])
  | abort :
      Does t s .abort (.next { s with aborted := fun t => s.aborted t || s.operations.contains t } [])
  | shutdownTimeout : Does t s .shutdownTimeout (.next { s with stopped := true } [])
  | stopReceiving : Does t s .stopReceiving (.next { s with receiving := false } [])

section Exec
variable {x : Choice} {t : TaskId} {i : Instr} {s : RuntimeState}

lemma get_peer_ok {peer_handle : UInt64} {entry : PeerEntry}
    (h : s.get_peer peer_handle = .ok entry) : s.registry.peers.lookup peer_handle = some entry := by
  unfold RuntimeState.get_peer at h
  split at h <;> cases h
  assumption

lemma get_channel_ok {channel_handle : UInt64} {entry : ChannelEntry}
    (h : s.get_channel channel_handle = .ok entry) :
    s.registry.channels.lookup channel_handle = some entry := by
  unfold RuntimeState.get_channel at h
  split at h <;> cases h
  assumption

/-- What a step does, if it does not wait. -/
def DoesOrWaits (t : TaskId) (s : RuntimeState) (i : Instr) (o : Outcome) : Prop :=
  o = .blocked ∨ Does t s i o

lemma does_getPeer {peer_handle : UInt64} {body : Locked}
    (hi : i.finds = some (peer_handle,body)) :
    DoesOrWaits t s i (getPeer peer_handle body s) := by
  unfold getPeer
  split
  · next entry h => exact .inr (.findPeer hi (get_peer_ok h))
  · exact .inr (.leave _)

lemma does_get_channel {channel_handle : UInt64} {code : ChannelEntry → List Instr}
    (h : ∀ entry, s.registry.channels.lookup channel_handle = some entry →
      Does t s i (.next s (code entry))) :
    DoesOrWaits t s i (get_channel channel_handle s code) := by
  unfold get_channel
  split
  · next entry he => exact .inr (h entry (get_channel_ok he))
  · exact .inr (.leave _)

lemma does_execute (operation : Operation) (hr : ∀ pem, operation ≠ .rotateCertificate pem) :
    DoesOrWaits t s (.execute operation) (execute operation s) := by
  cases operation with
  | createPeer configuration => exact .inr (.createPeer configuration)
  | createDescription | setLocalDescription | setRemoteDescription | addIceCandidate | restartIce
  | setConfiguration | getStats | createDataChannel => exact does_getPeer rfl
  | sendText channel_handle text =>
    exact does_get_channel fun entry he => .findSender channel_handle _ entry (.inl ⟨_,rfl⟩) he
  | sendBinary channel_handle data =>
    exact does_get_channel fun entry he => .findSender channel_handle _ entry (.inr ⟨_,rfl⟩) he
  | trySendText | trySendBinary | dataChannelWritable | dataChannelOutstandingBytes =>
    exact does_get_channel fun entry he => .findChannel _ _ entry he
  | setDataChannelThresholds =>
    exact does_get_channel fun entry he => .findThresholds _ _ _ entry he
  | closeDataChannel channel_handle =>
    simp only [execute,close_data_channel]
    split
    · exact .inr (.leave _)
    · next entry he => exact .inr (.removeChannel channel_handle entry he)
  | closePeer peer_handle =>
    simp only [execute,close_peer]
    split
    · next he => exact .inr (.noPeer peer_handle he)
    · next entry he => exact .inr (.removePeer peer_handle entry he)
  | rotateCertificate pem => exact absurd rfl (hr pem)
  | shutdown => exact .inr (.leave _)

lemma does_rotate (pem : Option String) :
    DoesOrWaits t s (.execute (.rotateCertificate pem)) (rotateCertificate x s) := by
  fun_cases rotateCertificate x s
  · exact .inr (.leave _)
  · exact .inr (.leave _)
  · next certificate fingerprint hf => exact .inr (.rotate pem certificate fingerprint hf)
  · exact .inl rfl

lemma does_call (channel : ChannelRef) (operation : Operation) :
    DoesOrWaits t s (.call channel operation) (call t channel operation s) := by
  have hnone := Does.call (t := t) (s := s) channel operation []
  have hone := fun payload => Does.call (t := t) (s := s) channel operation [payload]
  unfold call
  split
  · exact .inr (hone _)
  · exact .inr (hone _)
  · dsimp only
    split
    · exact .inr (hone _)
    · exact .inr .panicked
  · dsimp only
    split
    · exact .inr (hone _)
    · exact .inr .panicked
  · refine .inr ?_
    simpa [RuntimeState.record] using hnone

lemma does_poll (peer_handle channel_handle : UInt64) :
    DoesOrWaits t s (.poll peer_handle channel_handle)
      (poll_data_channel peer_handle channel_handle x s) := by
  unfold poll_data_channel
  dsimp only
  split
  · exact .inr (.ended _ _)
  · next e =>
    cases e with
    | onClose => exact .inr (.closed _ _)
    | onMessage is_string data => exact .inr (.received _ _ _ _)
    | onOpen => exact .inr (.polled _ _ .onOpen (by simp) (by simp))
    | onError => exact .inr (.polled _ _ .onError (by simp) (by simp))
    | onClosing => exact .inr (.polled _ _ .onClosing (by simp) (by simp))
    | onBufferedAmountLow => exact .inr (.polled _ _ .onBufferedAmountLow (by simp) (by simp))
    | onBufferedAmountHigh => exact .inr (.polled _ _ .onBufferedAmountHigh (by simp) (by simp))
  · exact .inl rfl

lemma does_awaitUnit {success : Outcome} (error : String → String)
    (h : DoesOrWaits t s i success) : DoesOrWaits t s i (awaitUnit success error x s) := by
  unfold awaitUnit
  split
  · exact h
  · exact .inr (.leave _)
  · exact .inl rfl

lemma does_receive : DoesOrWaits t s .receive (receive s) := by
  unfold receive
  split
  · exact .inl rfl
  · next command commands hc =>
    dsimp only
    split_ifs with ho
    · exact .inr (.shutdown command commands hc ho)
    · exact .inr (.dispatch command commands hc ho)

lemma does_run : DoesOrWaits t s i (run x t i s) := by
  cases i with
  | execute operation =>
    by_cases hr : ∃ pem, operation = .rotateCertificate pem
    · obtain ⟨pem,rfl⟩ := hr
      exact does_rotate pem
    · have h := does_execute (t := t) (s := s) operation fun pem he => hr ⟨pem,he⟩
      cases operation with
      | rotateCertificate pem => exact absurd ⟨pem,rfl⟩ hr
      | _ => exact h
  | bindPort handle configuration ports last_error =>
    simp only [run,bindPort]
    split
    · exact .inr (.bindPort _ _ _ _ _)
    · exact .inr (.leave _)
  | buildPeer handle configuration port ports certificate =>
    simp only [run,buildPeer]
    split
    · exact .inr (.built _ _ _ _ _)
    · split_ifs
      · exact .inr (.leave _)
      · exact .inr (.retry _ _ _ _ _ _)
    · exact .inl rfl
  | insertPeer handle peer receive_queue_capacity => exact .inr (.insertPeer _ _ _)
  | getPeer peer_handle body => exact does_getPeer rfl
  | lock peer body =>
    simp only [run,lock]
    split_ifs with hl
    · exact .inl rfl
    · exact .inr (.lock peer body (by simpa using hl))
  | unlock peer => exact .inr (.unlock peer)
  | call channel operation => exact does_call channel operation
  | request operation =>
    simp only [run,request]
    split
    · exact .inr (.leave _)
    · exact .inl rfl
  | createChannel peer_handle configuration =>
    simp only [run,createChannel]
    split
    · exact .inr (.createChannel _ _ _)
    · exact .inr (.leave _)
    · exact .inl rfl
  | setLow channel low => exact does_awaitUnit _ (.inr (.setLow _ _))
  | awaitLow => exact .inr .awaitLow
  | setHigh channel high => exact does_awaitUnit _ (.inr (.setHigh _ _))
  | awaitHigh => exact .inr (.leave _)
  | closeChannel channel => exact .inr (.closeChannel _)
  | awaitChannelClosed => exact does_awaitUnit _ (.inr (.leave _))
  | closePeer peer => exact .inr (.closePeer _)
  | awaitPeerClosed => exact does_awaitUnit _ (.inr (.leave _))
  | accept peer_handle channel => exact .inr (.accept _ _)
  | registerChannel peer_handle channel emit => exact .inr (.registerChannel _ _ _)
  | readAttributes handle peer_handle channel emit =>
    simp only [run]
    split
    · exact .inr (.readAttributes _ _ _ _ _)
    · exact .inl rfl
  | insertChannel handle peer_handle channel emit attributes =>
    exact .inr (.insertChannel _ _ _ _ _)
  | sendCreated event => exact .inr (.sendCreated _)
  | startPolling handle peer_handle channel =>
    simp only [run,startPolling]
    split
    · exact .inr (.leave _)
    · next entry he => exact .inr (.startPolling _ _ _ entry (get_peer_ok he))
  | returnChannel handle id => exact .inr (.leave _)
  | poll peer_handle channel_handle => exact does_poll _ _
  | deliver peer_handle channel_handle is_string data =>
    simp only [run,deliver]
    split_ifs with hs
    · exact .inl rfl
    · exact .inr (.deliver _ _ _ _ hs)
  | removePolled channel_handle => exact .inr (.removePolled _)
  | dispatched op => exact .inr (.skip (.inl ⟨_,rfl⟩))
  | graceful op => exact .inr (.skip (.inr ⟨_,rfl⟩))
  | post op result => exact .inr (.post _ _)
  | finish => exact .inr .finish
  | receive => exact does_receive
  | join task =>
    simp only [run]
    split_ifs with hf
    · exact .inr (.joined task (.inl rfl) hf)
    · exact .inl rfl
  | joinClose task =>
    simp only [run]
    split_ifs with hf
    · exact .inr (.joined task (.inr rfl) hf)
    · exact .inl rfl
  | clearRegistry => exact .inr .clearRegistry
  | spawnCloses peers closes =>
    cases peers with
    | nil => exact .inr (.spawned _)
    | cons entry peers => exact .inr (.spawnClose _ _ _)
  | shutDown => exact .inr (.leave _)
  | abort => exact .inr .abort
  | shutdownTimeout => exact .inr .shutdownTimeout
  | stopReceiving => exact .inr .stopReceiving

theorem does_exec : DoesOrWaits t s i (exec x t i s) := by
  unfold exec
  split
  · unfold expire
    split
    · exact .inr (.leave _)
    · exact .inr (.giveUp _ _)
    · split_ifs
      · exact .inr (.leave _)
      · exact .inl rfl
  · unfold drop
    split_ifs with hd
    · exact .inr (.dropped hd.2.1 hd.2.2)
    · exact .inl rfl
  · exact does_run

theorem does_of {o : Outcome} (h : machine.exec x t i s = o) (ho : o ≠ .blocked) : Does t s i o := by
  obtain hb | hd := does_exec (x := x) (t := t) (i := i) (s := s)
  · exact absurd (h.symm.trans hb) ho
  · rw [← h]
    exact hd

end Exec

/-- Dropping guards frees locks and aborts tasks, and changes nothing else. -/
theorem unwind_kept (e : Exit) (l : List Instr) (s : RuntimeState) :
    ∃ locked aborted, (machine.unwind e l s).1 = { s with locked := locked, aborted := aborted } := by
  refine Machine.unwind_shared (M := machine) (P := fun s' => ∃ locked aborted,
    s' = { s with locked := locked, aborted := aborted }) ?_ e l s ⟨s.locked,s.aborted,rfl⟩
  rintro i s' ⟨locked,aborted,rfl⟩
  simp only [machine,release]
  split
  · exact ⟨_,_,rfl⟩
  · exact ⟨_,_,rfl⟩
  · exact ⟨_,_,rfl⟩

/-- One step of the runtime. -/
inductive SystemStep (c : Config) : Label → Config → Prop
  | submit (command : Command) (hr : c.shared.receiving = true) :
      SystemStep c (.submit command)
        { c with shared := c.shared.submit command }
  | completeError (operation_handle : UInt64) (error : String) :
      SystemStep c (.completeError operation_handle error)
        { c with shared := c.shared.complete_error operation_handle error }
  | task {t x c'} (h : Machine.TaskStep machine x t c c') : SystemStep c (.task t x) c'
  | announce (peer : PeerRef) (channel : DataChannel) (hp : peer < c.shared.nextPeer) :
      SystemStep c (.announce peer channel)
        { shared := { c.shared with
            nextChannel := c.shared.nextChannel+1
            channel := Function.update c.shared.channel c.shared.nextChannel channel
            nextTask := c.shared.nextTask+1 }
          tasks := Function.update c.tasks c.shared.nextTask
            [.accept (c.shared.peer peer).handle c.shared.nextChannel,.finish] }
  | callback (peer : PeerRef) (x : Callback) (hx : x.admitted = true) :
      SystemStep c (.callback peer x)
        { c with shared := c.shared.send_event (x.event (c.shared.peer peer).handle) }

theorem step_cases {l : Label} {c c' : Config} (h : step l c = some c') : SystemStep c l c' := by
  cases l with
  | submit command =>
    simp only [step] at h
    split_ifs at h with hr
    cases h
    exact .submit command hr
  | completeError operation_handle error =>
    cases h
    exact .completeError operation_handle error
  | task t x => exact .task (Machine.taskStep_of_stepTask h)
  | announce peer channel =>
    simp only [step] at h
    split_ifs at h with hp
    cases h
    exact .announce peer channel hp.1
  | callback peer x =>
    simp only [step] at h
    split_ifs at h with hp
    cases h
    exact .callback peer x hp.2

/-- Tasks that have not been spawned are idle; task 0 is dispatched for nothing. -/
structure Spawned (c : Config) : Prop where
  pos : 0 < c.shared.nextTask
  controller : c.shared.command 0 = none
  idle : ∀ t : ℕ, c.shared.nextTask ≤ t → c.tasks t = []
  command : ∀ t : ℕ, c.shared.nextTask ≤ t → c.shared.command t = none

/-- What a step does to the tasks. -/
def Spawns (s : RuntimeState) : Outcome → Prop
  | .next s' _ | .throw s' _ => s'.nextTask = s.nextTask ∧ s'.command = s.command
  | .fork s' _ child _ => s.nextTask = child ∧ s'.nextTask = s.nextTask+1 ∧
    ∀ t : ℕ, t ≠ s.nextTask → s'.command t = s.command t
  | .blocked => True

lemma spawns_of_does {t : TaskId} {s : RuntimeState} {i : Instr} {o : Outcome} (h : Does t s i o) :
    Spawns s o := by
  cases h
  case dispatch command commands hc ho =>
    refine ⟨rfl,rfl,fun u hu => ?_⟩
    simp [Function.update_of_ne hu]
  all_goals first | exact ⟨rfl,rfl⟩ | exact ⟨rfl,rfl,fun _ _ => rfl⟩

section Reachable
variable {x : Choice} {t : ℕ} {c c' : Config}

lemma Spawned.lt (h : Spawned c) {i : Instr} (hi : i ∈ c.tasks t) : t < c.shared.nextTask := by
  by_contra hn
  rw [h.idle t (not_lt.mp hn)] at hi
  cases hi

/-- A task is forked under an idle number. -/
lemma Spawned.forks (h : Spawned c) {i : Instr} {s : RuntimeState} {code childCode : List Instr}
    {child : TaskId} (he : machine.exec x t i c.shared = .fork s code child childCode) :
    c.tasks child = [] := by
  have hs : Spawns c.shared (.fork s code child childCode) :=
    spawns_of_does (does_of he (by simp))
  exact h.idle child hs.1.le

lemma Spawned.task (h : Spawned c) (hs : Machine.TaskStep machine x t c c') : Spawned c' := by
  cases hs with
  | @next i rest s code head he =>
    have hlt : t < c.shared.nextTask := h.lt (i := i) (by simp [head])
    obtain ⟨hn,hc⟩ : Spawns c.shared (.next s code) := spawns_of_does (does_of he (by simp))
    refine ⟨hn ▸ h.pos,hc ▸ h.controller,fun u hu => ?_,fun u hu => ?_⟩
    · have hne : u ≠ t := by
        rintro rfl
        exact absurd hlt (not_lt.mpr (hn ▸ hu))
      simpa [Function.update_of_ne hne] using h.idle u (hn ▸ hu)
    · change s.command u = none
      rw [hc]
      exact h.command u (hn ▸ hu)
  | @fork i rest s code child childCode head he =>
    have hlt : t < c.shared.nextTask := h.lt (i := i) (by simp [head])
    obtain ⟨hchild,hn,hc⟩ : Spawns c.shared (.fork s code child childCode) :=
      spawns_of_does (does_of he (by simp))
    subst hchild
    refine ⟨?_,?_,fun u hu => ?_,fun u hu => ?_⟩
    · change 0 < s.nextTask
      omega
    · change s.command 0 = none
      rw [hc 0 (Nat.ne_of_lt h.pos)]
      exact h.controller
    · change s.nextTask ≤ u at hu
      have h₁ : u ≠ c.shared.nextTask := by omega
      have h₂ : u ≠ t := by omega
      simpa [Function.update_of_ne h₁,Function.update_of_ne h₂] using h.idle u (by omega)
    · change s.nextTask ≤ u at hu
      change s.command u = none
      rw [hc u (by omega)]
      exact h.command u (by omega)
  | @throw i rest s e head he =>
    have hlt : t < c.shared.nextTask := h.lt (i := i) (by simp [head])
    obtain ⟨hn,hc⟩ : Spawns c.shared (.throw s e) := spawns_of_does (does_of he (by simp))
    obtain ⟨locked,aborted,hu⟩ := unwind_kept e rest s
    rw [hu]
    refine ⟨hn ▸ h.pos,hc ▸ h.controller,fun u hle => ?_,fun u hle => ?_⟩
    · have hne : u ≠ t := by
        rintro rfl
        exact absurd hlt (not_lt.mpr (hn ▸ hle))
      simpa [Function.update_of_ne hne] using h.idle u (hn ▸ hle)
    · change s.command u = none
      rw [hc]
      exact h.command u (hn ▸ hle)

theorem spawned_step {l : Label} (h : Spawned c) (hs : step l c = some c') : Spawned c' := by
  cases step_cases hs with
  | task ht => exact h.task ht
  | announce peer channel hp =>
    refine ⟨Nat.succ_pos _,h.controller,fun u hu => ?_,
      fun u hu => h.command u ((Nat.le_succ _).trans hu)⟩
    change c.shared.nextTask+1 ≤ u at hu
    have hne : u ≠ c.shared.nextTask := by omega
    simpa [Function.update_of_ne hne] using h.idle u (by omega)
  | submit | completeError | callback => exact ⟨h.pos,h.controller,h.idle,h.command⟩

lemma spawned_init (certificate : RTCCertificate) : Spawned (init certificate) := by
  refine ⟨Nat.one_pos,rfl,fun t ht => ?_,fun _ _ => rfl⟩
  have hne : t ≠ 0 := Nat.ne_of_gt ht
  simp [init,hne]

theorem spawned_of_reachable {certificate : RTCCertificate} {ok : Label → Config → Prop}
    (h : Reachable certificate ok c) : Spawned c :=
  h.invariant (spawned_init certificate) fun _ _ _ hI _ hs => spawned_step hI hs

end Reachable
end Kestara.Native
