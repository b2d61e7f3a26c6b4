import Kestara.Kotlin.Code

/-! The steps of DataChannel.kt, and of the queues it shares with PeerConnection.kt. -/
namespace Kestara.Kotlin
open Interleaving.Outcome

/-- Room for one more element, or else the coroutine is suspended. -/
def execSend (q : QueueRef) (x : Item) (s : Shared) : Outcome :=
  if (s.queue q).closed then .throw s (.closedSend q)
  else if (s.queue q).hasRoom then
    .next ((s.setQueue q (·.put x)).record fun h => { h with put := h.put ++ [(q,x)] }) []
  else .next s [.sendSuspended q x]

/-- A sender that is already suspended is not affected by a close. -/
def execSendSuspended (q : QueueRef) (x : Item) (s : Shared) : Outcome :=
  if (s.queue q).hasRoom then
    .next ((s.setQueue q (·.put x)).record fun h => { h with put := h.put ++ [(q,x)] }) []
  else .blocked

/-- `closeCompletion.await()`. -/
def execAwait (completion : Option Completion) (s : Shared) : Outcome :=
  match completion with
  | none => .blocked
  | some .done => .next s []
  | some (.failed e) => .throw s e

namespace DataChannel

/-- `handleNativeEvent` up to its first access to shared state. -/
def handleNativeEvent (c : ChannelId) (e : NativeEvent) : Except Exn (List Instr) :=
  match e.kind? with
  | some .dataChannelOpen => .ok [.channel c .notifyOpen]
  | some .dataChannelClosing =>
    .ok [.channel c (.setState .closing),.send (.event c) (.event .closing)]
  | some .dataChannelClosed => .ok [.channel c (.markClosed false)]
  | some .dataChannelError =>
    .ok [.send (.event c) (.event (.error (e.text.getD "DataChannel error")))]
  | some .dataChannelText => .ok [.send (.message c) (.message (.text (e.text.getD "")))]
  | some .dataChannelBinary => .ok [.send (.message c) (.message (.binary (e.data.getD [])))]
  | some .dataChannelBufferedAmountLow => .ok [.send (.event c) (.event .bufferedAmountLow)]
  | some .dataChannelBufferedAmountHigh => .ok [.send (.event c) (.event .bufferedAmountHigh)]
  | _ => .error (.webRtc s!"Unsupported DataChannel event: {e.kind}")

/-- What `markClosed` does after it has won the compare-and-set on `closed`. -/
def teardown (c : ChannelId) (runtimeShutdown : Bool) : List Instr :=
  [.channel c .setClosing,.channel c (.setState .closed)] ++
    (if runtimeShutdown then [] else [.send (.event c) (.event .closed)]) ++
    [.closeQueue (.message c),.closeQueue (.event c),.channel c .onTerminal,
      .channel c (.complete .done)]

/-- `close` after it has won the compare-and-set on `closing`. -/
def closeBody (c : ChannelId) (d : DataChannel) : List Instr :=
  [.channel c (.setState .closing),
    .submit (.begin { request := .closeDataChannel, target := d.handle, timeout := d.timeout }),
    .channel c (.markClosed false),.channel c (.complete .done),.channel c .catchClose,
    .channel c .awaitClosed]

def exec (c : ChannelId) (i : ChannelInstr) (s : Shared) : Outcome :=
  let d := s.channel c
  match i with
  | .requireOpen =>
    if d.state = .open ∧ d.closing = false ∧ d.closed = false then .next s []
    else .throw s (.illegalState "DataChannel is not open")
  | .setThresholds low high =>
    .next (s.setChannel c fun d => { d with lowThreshold := low, highThreshold := high }) []
  | .close =>
    if d.closing then .next s [.channel c .awaitClosed]
    else .next (s.setChannel c fun d => { d with closing := true }) (closeBody c d)
  | .catchClose => .next s []
  | .awaitClosed => execAwait d.closeCompletion s
  | .handle e =>
    match handleNativeEvent c e with
    | .error x => .throw s x
    | .ok code =>
      .next (s.record fun h => { h with channelStarted := h.channelStarted ++ [(c,e)] })
        (code ++ [.channel c (.handled e)])
  | .handled e =>
    .next (s.record fun h => { h with channelHandled := h.channelHandled ++ [(c,e)] }) []
  | .notifyOpen => if d.closed then .next s [] else .next s [.channel c .notifyOpenState]
  | .notifyOpenState =>
    if d.state = .open then .next s []
    else .next s [.channel c (.setState .open),.send (.event c) (.event .open)]
  | .setState v => .next (s.setChannel c fun d => { d with state := v }) []
  | .markClosed runtimeShutdown =>
    if d.closed then .next s []
    else .next (s.setChannel c fun d => { d with closed := true }) (teardown c runtimeShutdown)
  | .setClosing => .next (s.setChannel c fun d => { d with closing := true }) []
  | .onTerminal => .next s [.peer d.owner (.unregisterDataChannel d.handle)]
  | .complete r =>
    .next (s.setChannel c fun d => { d with closeCompletion := complete d.closeCompletion r }) []

end DataChannel
end Kestara.Kotlin
