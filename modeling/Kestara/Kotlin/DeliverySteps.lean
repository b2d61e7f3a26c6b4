import Kestara.Kotlin.Allocation
import Kestara.Kotlin.Control
import Kestara.Library.Relay

/-!
# Steps of the deliveries

An event takes several steps from the native queue to the object it is for: it is polled, the
peer is looked up, the peer handles it or looks the channel up, the channel handles it. Events
for an object that is not registered are parked and replayed when it is.
-/
namespace Kestara.Kotlin
open Interleaving Relay

/-- The message `DataChannel.handleNativeEvent` sends for an event. -/
def DataChannel.message? (e : NativeEvent) : Option DataChannelMessage :=
  match e.kind? with
  | some .dataChannelText => some (.text (e.text.getD ""))
  | some .dataChannelBinary => some (.binary (e.data.getD []))
  | _ => none

/-- The event that is going to be handed to the peer. -/
def Instr.peerBegins (p : PeerId) : Instr → Option NativeEvent
  | .peer q (.handle e) => if q = p then some e else none
  | _ => none

/-- The event the peer is going to have handled. -/
def Instr.peerFinishes (p : PeerId) : Instr → Option NativeEvent
  | .peer q (.handle e) | .peer q (.handled e) => if q = p then some e else none
  | _ => none

def Instr.channelBegins (c : ChannelId) : Instr → Option NativeEvent
  | .channel d (.handle e) => if d = c then some e else none
  | _ => none

def Instr.channelFinishes (c : ChannelId) : Instr → Option NativeEvent
  | .channel d (.handle e) | .channel d (.handled e) => if d = c then some e else none
  | _ => none

/-- The message that is going to be put into the queue of the channel. -/
def Instr.channelMessage (c : ChannelId) : Instr → Option DataChannelMessage
  | .channel d (.handle e) => if d = c then DataChannel.message? e else none
  | .send (.message d) (.message m) | .sendSuspended (.message d) (.message m) =>
    if d = c then some m else none
  | _ => none

/-- The messages put into the queue of a channel. -/
def History.messages (h : History) (c : ChannelId) : List DataChannelMessage :=
  h.put.filterMap fun
    | (.message d,.message m) => if d = c then some m else none
    | _ => none

/-- The instruction is on the way to register the peer. -/
def Instr.registers (p : PeerId) : Instr → Bool
  | .runtime (.registerLock q) | .runtime (.registerCheck q) | .runtime (.registerPeer q) =>
    decide (q = p)
  | _ => false

/-- An instruction that delivers nothing, looks nothing up and registers no peer. -/
def Instr.inert : Instr → Bool
  | .peer _ (.handle _) | .peer _ (.handled _) | .channel _ (.handle _) | .channel _ (.handled _)
  | .send (.message _) _ | .sendSuspended (.message _) _ | .loop (.lookupPeer _)
  | .runtime (.registerLock _) | .runtime (.registerCheck _) | .runtime (.registerPeer _) => false
  | _ => true

/-- The instruction is part of a delivery. -/
def Instr.delivers : Instr → Bool
  | .peer _ (.handle _) | .peer _ (.handled _) | .channel _ (.handle _) | .channel _ (.handled _)
  | .send (.message _) _ | .sendSuspended (.message _) _ => true
  | _ => false

/-- `k` reads something off the instructions of deliveries only. -/
def ReadsDeliveries {α : Type*} (k : Instr → Option α) : Prop := ∀ j, j.delivers = false → k j = none

section Reads
variable (p : PeerId) (c : ChannelId)

lemma reads_peerBegins : ReadsDeliveries (Instr.peerBegins p) := by
  intro j hj
  unfold Instr.peerBegins
  split <;> first | rfl | cases hj

lemma reads_peerFinishes : ReadsDeliveries (Instr.peerFinishes p) := by
  intro j hj
  unfold Instr.peerFinishes
  split <;> first | rfl | cases hj

lemma reads_channelBegins : ReadsDeliveries (Instr.channelBegins c) := by
  intro j hj
  unfold Instr.channelBegins
  split <;> first | rfl | cases hj

lemma reads_channelFinishes : ReadsDeliveries (Instr.channelFinishes c) := by
  intro j hj
  unfold Instr.channelFinishes
  split <;> first | rfl | cases hj

lemma reads_channelMessage : ReadsDeliveries (Instr.channelMessage c) := by
  intro j hj
  unfold Instr.channelMessage
  split <;> first | rfl | cases hj

lemma delivers_of_inert {j : Instr} (h : j.inert = true) : j.delivers = false := by
  unfold Instr.inert at h
  split at h <;> cases h
  unfold Instr.delivers
  split <;> simp_all

lemma delivers_of_registers {j : Instr} {p : PeerId} (h : j.registers p = true) :
    j.delivers = false := by
  unfold Instr.registers at h
  split at h <;> first | rfl | cases h

lemma ReadsDeliveries.nil {α : Type*} {k : Instr → Option α} (hk : ReadsDeliveries k)
    {l : List Instr} (hl : ∀ j ∈ l, j.delivers = false) : l.filterMap k = [] :=
  List.filterMap_eq_nil_iff.mpr fun j hj => hk j (hl j hj)

end Reads

/-- Nothing is delivered, parked or registered. Registrations and parked events may be lost. -/
structure SameDeliveries (s s' : Shared) : Prop where
  polled : s'.history.polled = s.history.polled
  peerStarted : s'.history.peerStarted = s.history.peerStarted
  peerHandled : s'.history.peerHandled = s.history.peerHandled
  channelStarted : s'.history.channelStarted = s.history.channelStarted
  channelHandled : s'.history.channelHandled = s.history.channelHandled
  messages : s'.history.messages = s.history.messages
  peers : ∀ h p, s'.runtime.peers.lookup h = some p → s.runtime.peers.lookup h = some p
  parkedPeers : ∀ h, (s'.runtime.parked h).Sublist (s.runtime.parked h)
  handle : ∀ p < s.nextPeer, (s'.peer p).handle = (s.peer p).handle
  channels : ∀ p h c, (s'.peer p).channels.lookup h = some c → (s.peer p).channels.lookup h = some c
  parkedChannels : ∀ p h, ((s'.peer p).parked h).Sublist ((s.peer p).parked h)
  owner : ∀ c, (s'.channel c).owner = (s.channel c).owner
  channelHandle : ∀ c, (s'.channel c).handle = (s.channel c).handle
  nextPeer : s.nextPeer ≤ s'.nextPeer
  nextChannel : s'.nextChannel = s.nextChannel

namespace SameDeliveries
variable {s s' s'' : Shared}

lemma refl (s : Shared) : SameDeliveries s s := by
  constructor <;> simp

lemma trans (h : SameDeliveries s s') (h' : SameDeliveries s' s'') : SameDeliveries s s'' where
  polled := h'.polled.trans h.polled
  peerStarted := h'.peerStarted.trans h.peerStarted
  peerHandled := h'.peerHandled.trans h.peerHandled
  channelStarted := h'.channelStarted.trans h.channelStarted
  channelHandled := h'.channelHandled.trans h.channelHandled
  messages := h'.messages.trans h.messages
  peers := fun k p hp => h.peers k p (h'.peers k p hp)
  parkedPeers := fun k => (h'.parkedPeers k).trans (h.parkedPeers k)
  handle := fun p hp => (h'.handle p (lt_of_lt_of_le hp h.nextPeer)).trans (h.handle p hp)
  channels := fun p k c hc => h.channels p k c (h'.channels p k c hc)
  parkedChannels := fun p k => (h'.parkedChannels p k).trans (h.parkedChannels p k)
  owner := fun c => (h'.owner c).trans (h.owner c)
  channelHandle := fun c => (h'.channelHandle c).trans (h.channelHandle c)
  nextPeer := h.nextPeer.trans h'.nextPeer
  nextChannel := h'.nextChannel.trans h.nextChannel

lemma setRuntime {f : WebRtcRuntime → WebRtcRuntime}
    (hp : ∀ h p, (f s.runtime).peers.lookup h = some p → s.runtime.peers.lookup h = some p)
    (hq : ∀ h, ((f s.runtime).parked h).Sublist (s.runtime.parked h)) :
    SameDeliveries s (s.setRuntime f) :=
  { refl s with peers := hp, parkedPeers := hq }

lemma setPeer {p : PeerId} {f : PeerConnection → PeerConnection}
    (hh : (f (s.peer p)).handle = (s.peer p).handle)
    (hc : ∀ h c, (f (s.peer p)).channels.lookup h = some c → (s.peer p).channels.lookup h = some c)
    (hq : ∀ h, ((f (s.peer p)).parked h).Sublist ((s.peer p).parked h)) :
    SameDeliveries s (s.setPeer p f) :=
  { refl s with
    handle := by
      intro q _
      by_cases hp : q = p
      · subst hp
        simpa [Shared.setPeer] using hh
      · simp [Shared.setPeer,hp]
    channels := by
      intro q
      by_cases hp : q = p
      · subst hp
        simpa [Shared.setPeer] using hc
      · simp [Shared.setPeer,hp]
    parkedChannels := by
      intro q
      by_cases hp : q = p
      · subst hp
        simpa [Shared.setPeer] using hq
      · simp [Shared.setPeer,hp] }

lemma setChannel {c : ChannelId} {f : DataChannel → DataChannel}
    (ho : (f (s.channel c)).owner = (s.channel c).owner)
    (hh : (f (s.channel c)).handle = (s.channel c).handle) : SameDeliveries s (s.setChannel c f) :=
  { refl s with
    owner := by
      intro d
      by_cases hd : d = c
      · subst hd
        simpa [Shared.setChannel] using ho
      · simp [Shared.setChannel,hd]
    channelHandle := by
      intro d
      by_cases hd : d = c
      · subst hd
        simpa [Shared.setChannel] using hh
      · simp [Shared.setChannel,hd] }

lemma setQueue (q : QueueRef) (f : BoundedQueue Item → BoundedQueue Item) :
    SameDeliveries s (s.setQueue q f) := { refl s with }

lemma completeOperation (op : ℤ) (r : OperationResult) :
    SameDeliveries s (s.completeOperation op r) := { refl s with }

/-- Recording what is not part of a delivery. -/
lemma record {f : History → History} (h₁ : (f s.history).polled = s.history.polled)
    (h₂ : (f s.history).peerStarted = s.history.peerStarted)
    (h₃ : (f s.history).peerHandled = s.history.peerHandled)
    (h₄ : (f s.history).channelStarted = s.history.channelStarted)
    (h₅ : (f s.history).channelHandled = s.history.channelHandled)
    (h₆ : (f s.history).messages = s.history.messages) : SameDeliveries s (s.record f) :=
  { refl s with
    polled := h₁, peerStarted := h₂, peerHandled := h₃, channelStarted := h₄
    channelHandled := h₅, messages := h₆ }

lemma newPeer (handle : ℤ) (capacity : ReceiveQueueCapacity) (timeout : ℤ) :
    SameDeliveries s (s.newPeer handle capacity timeout) :=
  { refl s with
    handle := by
      intro p hp
      have hne : p ≠ s.nextPeer := ne_of_lt hp
      simp [Shared.newPeer,hne]
    channels := by
      intro p h c hc
      by_cases hp : p = s.nextPeer
      · simp [Shared.newPeer,hp] at hc
      · simpa [Shared.newPeer,hp] using hc
    parkedChannels := by
      intro p h
      by_cases hp : p = s.nextPeer
      · simp [Shared.newPeer,hp,PeerConnection.parked]
      · simp [Shared.newPeer,hp]
    nextPeer := Nat.le_succ _ }

end SameDeliveries

/-- An instruction that takes part in a delivery or in a registration. -/
inductive Move (s : Shared) : Instr → Shared → List Instr → Prop
  | poll {e es j} (hj : j.inert = true ∨ j = .loop (.lookupPeer e)) :
      Move s (.loop .poll)
        ({ s with native := es }.record fun h => { h with polled := h.polled ++ [e] }) [j]
  | direct {e p} (found : s.runtime.peers.lookup e.peerHandle = some p) :
      Move s (.loop (.lookupPeer e)) s [.peer p (.handle e)]
  | park {e} (missing : s.runtime.peers.lookup e.peerHandle = none) :
      Move s (.loop (.lookupPeer e)) (s.setRuntime (·.park e)) []
  | construct {i} (handle : ℤ) (capacity : ReceiveQueueCapacity) (timeout : ℤ) :
      Move s i (s.newPeer handle capacity timeout) [.runtime (.registerLock s.nextPeer)]
  | proceed {i j p s'} (hi : i.registers p = true) (hn : i ≠ .runtime (.registerPeer p))
      (hj : j.registers p = true) (same : SameDeliveries s s') : Move s i s' [j]
  | registerPeer (p : PeerId) :
      Move s (.runtime (.registerPeer p))
        ((WebRtcRuntime.unlock s).setRuntime fun r =>
          { r with peers := r.peers.insert (s.peer p).handle p
                   queuedPeerEvents := r.queuedPeerEvents.erase (s.peer p).handle })
        ((s.runtime.parked (s.peer p).handle).map (fun e => .peer p (.handle e)) ++
          [.runtime (.returnPeer p)])
  | handle {p e s' code} (h : PeerConnection.handleNativeEvent p e s = .ok (s',code)) :
      Move s (.peer p (.handle e))
        (s'.record fun h => { h with peerStarted := h.peerStarted ++ [(p,e)] })
        (code ++ [.peer p (.handled e)])
  | handled (p : PeerId) (e : NativeEvent) :
      Move s (.peer p (.handled e))
        (s.record fun h => { h with peerHandled := h.peerHandled ++ [(p,e)] }) []
  | registerChannel {p k handle info b} (before after : List Instr)
      (hi : (Instr.peer p k).inert = true)
      (hb : ∀ j ∈ before, ∃ x, j = .send (.incomingDataChannel p) x)
      (ha : ∀ j ∈ after, j.inert = true) :
      Move s (.peer p k)
        ((s.newChannel p handle info b).setPeer p (·.register handle s.nextChannel))
        (before ++ ((s.peer p).parked handle).map (fun e => .channel s.nextChannel (.handle e)) ++
          after)
  | channelHandle {c e code} (h : DataChannel.handleNativeEvent c e = .ok code) :
      Move s (.channel c (.handle e))
        (s.record fun h => { h with channelStarted := h.channelStarted ++ [(c,e)] })
        (code ++ [.channel c (.handled e)])
  | channelHandled (c : ChannelId) (e : NativeEvent) :
      Move s (.channel c (.handled e))
        (s.record fun h => { h with channelHandled := h.channelHandled ++ [(c,e)] }) []
  | put {i q x} (hi : i = .send q x ∨ i = .sendSuspended q x) :
      Move s i ((s.setQueue q (·.put x)).record fun h => { h with put := h.put ++ [(q,x)] }) []
  | suspend (q : QueueRef) (x : Item) : Move s (.send q x) s [.sendSuspended q x]

/-- What an instruction does with the deliveries. -/
inductive DeliveryStep (s : Shared) (i : Instr) : Outcome → Prop
  | blocked : DeliveryStep s i .blocked
  | throw {s' e} (same : SameDeliveries s s') : DeliveryStep s i (.throw s' e)
  | silent {s' code} (same : SameDeliveries s s') (inert : ∀ j ∈ code, j.inert = true) :
      DeliveryStep s i (.next s' code)
  | move {s' code} (h : Move s i s' code) : DeliveryStep s i (.next s' code)

section Steps
variable (s : Shared)

lemma delivery_execAwait (i : Instr) (r : Option Completion) : DeliveryStep s i (execAwait r s) := by
  fun_cases execAwait r s
  · exact .blocked
  · exact .silent (.refl s) (by simp)
  · exact .throw (.refl s)

lemma delivery_channel (c : ChannelId) (i : ChannelInstr) :
    DeliveryStep s (.channel c i) (DataChannel.exec c i s) := by
  fun_cases DataChannel.exec c i s
  case case2 | case8 => exact .throw (.refl s)
  case case7 => exact delivery_execAwait s _ _
  case case9 e code he => exact .move (.channelHandle he)
  case case10 e => exact .move (.channelHandled c e)
  case case17 b _ =>
    refine .silent (.setChannel rfl rfl) ?_
    cases b <;> simp [DataChannel.teardown,Instr.inert]
  case case1 | case4 | case6 | case11 | case12 | case13 | case14 | case16 | case19 =>
    exact .silent (.refl s) (by simp [Instr.inert])
  case case3 | case5 | case15 | case18 | case20 =>
    exact .silent (.setChannel rfl rfl) (by simp [DataChannel.closeBody,Instr.inert])

/-- Removing a registration. -/
lemma lookup_of_erase {κ ν : Type} [DecidableEq κ] {m : LinkedMap κ ν} {k h : κ} {v : ν}
    (hl : (m.erase k).lookup h = some v) : m.lookup h = some v := by
  rw [LinkedMap.lookup_erase] at hl
  split_ifs at hl
  exact hl

lemma delivery_peer (p : PeerId) (i : PeerInstr) :
    DeliveryStep s (.peer p i) (PeerConnection.exec p i s) := by
  fun_cases PeerConnection.exec p i s
  case case2 | case9 | case12 => exact .throw (.refl s)
  case case3 => exact .move (.registerChannel [] [_] rfl (by simp) (by simp [Instr.inert]))
  case case4 => exact .silent { SameDeliveries.refl s with } (by simp)
  case case8 => exact delivery_execAwait s _ _
  case case10 e s' code he => exact .move (.handle he)
  case case11 e => exact .move (.handled p e)
  case case13 =>
    refine .move (.registerChannel [_] _ rfl (by simp) ?_)
    intro j hj
    split_ifs at hj
    · cases List.mem_singleton.mp hj
      rfl
    · cases hj
  case case14 =>
    exact .silent (.setPeer rfl (fun _ _ => lookup_of_erase) fun _ => .refl _) (by simp)
  case case17 =>
    exact .silent (.setPeer rfl (fun _ _ => id) fun _ => .refl _)
      (by simp [PeerConnection.teardown,Instr.inert])
  case case19 =>
    exact .silent (.setPeer rfl (by simp) (by simp [PeerConnection.parked])) (by simp [Instr.inert])
  case case1 | case5 | case7 | case15 | case16 =>
    exact .silent (.refl s) (by simp [Instr.inert])
  case case6 | case18 | case20 | case21 | case22 =>
    exact .silent (.setPeer rfl (fun _ _ => id) fun _ => .refl _)
      (by simp [PeerConnection.closeBody,Instr.inert])

lemma delivery_resume (op : ℤ) (r : Resume) (e : NativeEvent) :
    DeliveryStep s (.submit (.await op r)) (WebRtcRuntime.resume r e s) := by
  fun_cases WebRtcRuntime.resume r e s
  case case3 | case5 | case7 => exact .throw (.refl s)
  case case8 capacity timeout => exact .move (.construct _ _ _)
  all_goals exact .silent (.refl s) (by simp [Instr.inert])

/-- A change of the runtime that leaves registrations and parked events alone. -/
lemma SameDeliveries.runtime {f : WebRtcRuntime → WebRtcRuntime}
    (hp : (f s.runtime).peers = s.runtime.peers)
    (hq : (f s.runtime).queuedPeerEvents = s.runtime.queuedPeerEvents) :
    SameDeliveries s (s.setRuntime f) := by
  refine .setRuntime ?_ ?_
  · rw [hp]
    exact fun _ _ => id
  · intro h
    unfold WebRtcRuntime.parked
    rw [hq]

lemma SameDeliveries.unlock : SameDeliveries s (WebRtcRuntime.unlock s) := .runtime s rfl rfl

lemma delivery_submit (t : TaskId) (i : SubmitInstr) :
    DeliveryStep s (.submit i) (WebRtcRuntime.execSubmit t i s) := by
  fun_cases WebRtcRuntime.execSubmit t i s
  case case1 | case12 => exact .throw (.refl s)
  case case2 | case8 =>
    exact .silent ((SameDeliveries.runtime s rfl rfl).trans (.record rfl rfl rfl rfl rfl rfl))
      (by simp [Instr.inert])
  case case3 => exact WebRtcRuntime.withLock_of .blocked (.silent (.runtime s rfl rfl) (by simp [Instr.inert]))
  case case4 | case6 => exact .throw (.unlock s)
  case case5 | case7 => exact .silent (.refl s) (by simp [Instr.inert])
  case case9 =>
    exact .silent ((SameDeliveries.unlock s).trans (.record rfl rfl rfl rfl rfl rfl))
      (by simp [Instr.inert])
  case case10 => exact .blocked
  case case11 => exact delivery_resume s _ _ _

lemma delivery_loop (i : LoopInstr) : DeliveryStep s (.loop i) (WebRtcRuntime.execLoop i s) := by
  fun_cases WebRtcRuntime.execLoop i s
  case case4 e es _ =>
    refine .move (.poll ?_)
    split_ifs
    · exact .inl rfl
    · exact .inr rfl
  case case5 e =>
    refine WebRtcRuntime.withLock_of .blocked ?_
    split
    · next p hp => exact .move (.direct hp)
    · next hp => exact .move (.park hp)
  case case6 e =>
    refine WebRtcRuntime.withLock_of .blocked ?_
    split
    · exact .silent (.refl s) (by simp)
    · exact .silent ((SameDeliveries.runtime s rfl rfl).trans (.record rfl rfl rfl rfl rfl rfl))
        (by simp [Instr.inert])
  case case7 => exact .silent (.completeOperation _ _) (by simp)
  all_goals exact .silent (.refl s) (by simp [Instr.inert])

lemma inert_afterDrain (peers : List PeerId) (pending : List ℤ) (failure : Option Exn) :
    ∀ j ∈ WebRtcRuntime.afterDrain peers pending failure, j.inert = true := by
  intro j hj
  simp only [WebRtcRuntime.afterDrain,List.mem_append,List.mem_map,List.mem_cons,
    List.not_mem_nil,or_false] at hj
  rcases hj with (⟨p,-,rfl⟩ | ⟨op,-,rfl⟩) | rfl | rfl <;> rfl

lemma delivery_runtime (t : TaskId) (i : RuntimeInstr) :
    DeliveryStep s (.runtime i) (WebRtcRuntime.execRuntime t i s) := by
  fun_cases WebRtcRuntime.execRuntime t i s
  case case2 p =>
    exact WebRtcRuntime.withLock_of .blocked (.move (.proceed (p := p) (by simp [Instr.registers])
      (by simp) (by simp [Instr.registers]) (.runtime s rfl rfl)))
  case case3 => exact .throw (.unlock s)
  case case4 p _ =>
    exact .move (.proceed (p := p) (by simp [Instr.registers]) (by simp)
      (by simp [Instr.registers]) (.refl s))
  case case5 p _ => exact .move (.registerPeer p)
  case case6 => exact .silent { SameDeliveries.refl s with } (by simp)
  case case7 p _ =>
    refine WebRtcRuntime.withLock_of .blocked (.silent ?_ (by simp))
    split_ifs
    · exact .setRuntime (fun _ _ => lookup_of_erase) fun _ => .refl _
    · exact .refl s
  case case11 => exact delivery_execAwait s _ _
  case case15 failure =>
    refine WebRtcRuntime.withLock_of .blocked (.silent ?_ (inert_afterDrain _ _ failure))
    exact (SameDeliveries.setRuntime (by simp) (by simp [WebRtcRuntime.parked])).trans
      (.record rfl rfl rfl rfl rfl rfl)
  case case16 => exact .silent (.completeOperation _ _) (by simp)
  case case21 => exact WebRtcRuntime.withLock_of .blocked (.silent (.refl s) (by simp))
  case case17 | case18 => exact .silent (.record rfl rfl rfl rfl rfl rfl) (by simp [Instr.inert])
  case case1 | case9 | case13 | case14 | case19 | case20 =>
    exact .silent (.runtime s rfl rfl)
      (by simp [Instr.inert,WebRtcRuntime.closeBody,WebRtcRuntime.teardown])
  all_goals exact .silent (.refl s) (by simp [Instr.inert])

theorem deliveryStep_exec (x : Choice) (t : TaskId) (i : Instr) :
    DeliveryStep s i (exec x t i s) := by
  cases x with
  | ok =>
    cases i with
    | send q y =>
      simp only [exec,execOk,execSend]
      split_ifs
      · exact .throw (.refl s)
      · exact .move (.put (.inl rfl))
      · exact .move (.suspend q y)
    | sendSuspended q y =>
      simp only [exec,execOk,execSendSuspended]
      split_ifs
      · exact .move (.put (.inr rfl))
      · exact .blocked
    | closeQueue q => exact .silent (.setQueue q _) (by simp)
    | channel c i => exact delivery_channel s c i
    | peer p i => exact delivery_peer s p i
    | submit i => exact delivery_submit s t i
    | loop i => exact delivery_loop s i
    | runtime i => exact delivery_runtime s t i
  | fail message =>
    simp only [exec]
    fun_cases execFail message i s
    case case1 => exact .throw (.refl s)
    case case2 =>
      exact .throw (((SameDeliveries.unlock s).trans (.runtime _ rfl rfl)).trans
        (.record rfl rfl rfl rfl rfl rfl))
    case case3 | case4 => exact .silent (.record rfl rfl rfl rfl rfl rfl) (by simp [Instr.inert])
    case case5 => exact .blocked
  | cancel =>
    simp only [exec]
    fun_cases execCancel i s <;> first | exact .throw (.refl s) | exact .blocked

end Steps

lemma inert_handler {e : Exn} {i : Instr} {code : List Instr} (h : handler e i = some code) :
    ∀ j ∈ code, j.inert = true := by
  unfold handler at h
  split at h <;> cases h <;> simp [Instr.inert]

lemma inert_api (s : Shared) (a : Api) : ∀ j ∈ a.code s, j.inert = true := by
  cases a <;> simp [Api.code,Instr.inert]

/-- The instructions of a coroutine that take part in deliveries and registrations. -/
def active (code : List Instr) : List Instr := code.filter fun j => !j.inert

lemma active_append (l l' : List Instr) : active (l ++ l') = active l ++ active l' :=
  List.filter_append l l'

lemma active_eq_nil {l : List Instr} : active l = [] ↔ ∀ j ∈ l, j.inert = true := by
  simp [active,List.filter_eq_nil_iff]

lemma active_afterThrow (e : Exn) (l : List Instr) : (active (afterThrow e l)).Sublist (active l) := by
  rcases afterThrow_cases e l with hn | ⟨skipped,i,rest,code,rfl,hc,hn⟩
  · rw [hn]
    exact List.nil_sublist _
  · rw [hn,active_append,active_eq_nil.mpr (inert_handler hc),active_append]
    refine List.Sublist.trans ?_ (List.sublist_append_right (active skipped) _)
    exact (List.sublist_cons_self i rest).filter _

lemma ReadsDeliveries.active {α : Type*} {k : Instr → Option α} (hk : ReadsDeliveries k)
    (l : List Instr) : l.filterMap k = (active l).filterMap k := by
  rw [Kotlin.active,List.filterMap_filter]
  refine List.filterMap_congr fun j _ => ?_
  split_ifs with hj
  · rfl
  · exact hk j (delivers_of_inert (by simpa using hj))

/-- A step that delivers nothing. Pending deliveries may be lost. -/
structure Quiet (c c' : Config) : Prop where
  same : SameDeliveries c.shared c'.shared
  code : ∀ t, (active (c'.tasks t)).Sublist (active (c.tasks t))

/-- The step of a coroutine that takes part in a delivery or in a registration. -/
def Moves (l : Label) (c c' : Config) : Prop :=
  ∃ t x i rest s code, l.scheduled = some (t,x) ∧ c.tasks t = i :: rest ∧
    (∀ j ∈ code, i.leaves j) ∧ Move c.shared i s code ∧
    c' = ⟨s,Function.update c.tasks t (code ++ rest)⟩

lemma quiet_update {c : Config} {t : TaskId} {i : Instr} {rest code : List Instr} {s : Shared}
    (head : c.tasks t = i :: rest) (same : SameDeliveries c.shared s)
    (h : (active code).Sublist (active rest)) :
    Quiet c ⟨s,Function.update c.tasks t code⟩ := by
  refine ⟨same,fun u => ?_⟩
  by_cases hu : u = t
  · subst hu
    simp only [Function.update_self,head]
    exact h.trans ((List.sublist_cons_self i rest).filter _)
  · simp only [Function.update_of_ne hu]
    exact .refl _

theorem delivery_cases {l : Label} {c c' : Config} (h : step l c = some c') :
    Quiet c c' ∨ Moves l c c' := by
  cases step_cases h with
  | @task _ x t _ hl active ht =>
    cases ht with
    | @next i rest s code head he =>
      have hd := deliveryStep_exec c.shared x t i
      rw [he] at hd
      cases hd with
      | silent same inert =>
        refine .inl (quiet_update head same ?_)
        rw [active_append,active_eq_nil.mpr inert]
        exact .refl _
      | move h =>
        have hleaves := leaves_exec c.shared x t i
        rw [he] at hleaves
        exact .inr ⟨t,x,i,rest,s,code,hl,head,hleaves,h,rfl⟩
    | @throw i rest s e head he =>
      have hd := deliveryStep_exec c.shared x t i
      rw [he] at hd
      cases hd with
      | throw same => exact .inl (quiet_update head same (active_afterThrow e rest))
  | @call t a ht idle admitted =>
    refine .inl ⟨.refl _,fun u => ?_⟩
    by_cases hu : u = t
    · subst hu
      simp only [Function.update_self]
      rw [active_eq_nil.mpr (inert_api _ a)]
      exact List.nil_sublist _
    · simp only [Function.update_of_ne hu]
      exact .refl _
  | receive ht idle hr =>
    obtain ⟨x,xs,known,-,-,rfl⟩ := receive_cases hr
    exact .inl ⟨{ SameDeliveries.refl _ with },fun _ => .refl _⟩
  | cancel | native => exact .inl ⟨{ SameDeliveries.refl _ with },fun _ => .refl _⟩

lemma Quiet.filterMap {α : Type*} {k : Instr → Option α} (hk : ReadsDeliveries k) {c c' : Config}
    (h : Quiet c c') (t : TaskId) :
    ((c'.tasks t).filterMap k).Sublist ((c.tasks t).filterMap k) := by
  rw [hk.active,hk.active (c.tasks t)]
  exact (h.code t).filterMap k

/-- What handling an event changes in the peer itself. -/
structure PeerConnection.Keeps (p : PeerId) (e : NativeEvent) (s s' : Shared) : Prop where
  runtime : s'.runtime = s.runtime
  channel : s'.channel = s.channel
  history : s'.history = s.history
  nextPeer : s'.nextPeer = s.nextPeer
  nextChannel : s'.nextChannel = s.nextChannel
  handle : ∀ q, (s'.peer q).handle = (s.peer q).handle
  channels : ∀ q, (s'.peer q).channels = (s.peer q).channels
  parked : ∀ q h, (s'.peer q).parked h = (s.peer q).parked h ∨
    q = p ∧ h = e.channelHandle ∧ (s'.peer q).parked h = (s.peer q).parked h ++ [e]

lemma PeerConnection.parked_park (peer : PeerConnection) (e : NativeEvent) (h : ℤ) :
    (peer.park e).parked h = if h = e.channelHandle then peer.parked h ++ [e] else peer.parked h := by
  unfold parked park
  rw [LinkedMap.lookup_insert]
  split_ifs with hh
  · rw [hh]
    rfl
  · rfl

lemma PeerConnection.keeps_of_handled {p : PeerId} {e : NativeEvent} {s s' : Shared}
    {code : List Instr} (h : Handled p e s s' code) : Keeps p e s s' := by
  cases h with
  | candidate hk | negotiation hk | register hk | deliver hc => constructor <;> simp
  | state v ice gathering signaling =>
    refine ⟨rfl,rfl,rfl,rfl,rfl,fun q => ?_,fun q => ?_,fun q h => .inl ?_⟩ <;>
    · by_cases hq : q = p
      · subst hq
        simp [Shared.setPeer,parked]
      · simp [Shared.setPeer,hq]
  | park hc =>
    refine ⟨rfl,rfl,rfl,rfl,rfl,fun q => ?_,fun q => ?_,fun q h => ?_⟩
    · by_cases hq : q = p
      · subst hq
        simp [Shared.setPeer,PeerConnection.park]
      · simp [Shared.setPeer,hq]
    · by_cases hq : q = p
      · subst hq
        simp [Shared.setPeer,PeerConnection.park]
      · simp [Shared.setPeer,hq]
    · by_cases hq : q = p
      · subst hq
        simp only [Shared.setPeer,Function.update_self,parked_park]
        by_cases hh : h = e.channelHandle
        · rw [if_pos hh]
          exact .inr ⟨trivial,hh,rfl⟩
        · rw [if_neg hh]
          exact .inl rfl
      · simp [Shared.setPeer,hq]

end Kestara.Kotlin
