import Kestara.Kotlin.PeerConnection

/-! The steps of WebRtcRuntime.kt: `submit`, the event loop, registration and shutdown. -/
namespace Kestara.Kotlin
open Interleaving.Outcome

namespace Shared

/-- Construct a PeerConnection object with its four queues. -/
def newPeer (s : Shared) (handle : ℤ) (capacity : ReceiveQueueCapacity) (timeout : ℤ) : Shared :=
  let p := s.nextPeer
  { s with
    nextPeer := p+1
    peer := Function.update s.peer p
      { handle := handle, timeout := timeout, receiveQueueCapacity := capacity }
    queue := Function.update (Function.update (Function.update (Function.update s.queue
      (.localDescription p) { capacity := some bufferedCapacity })
      (.localCandidate p) { capacity := some bufferedCapacity })
      (.incomingDataChannel p) { capacity := some bufferedCapacity })
      (.negotiationNeeded p) { capacity := none } }

end Shared

namespace WebRtcRuntime

def closedMessage : Exn := .illegalState "WebRtcRuntime is closed"

/-- The digits of `String.toIntOrNull` after an optional sign. -/
def digits : List Char → Option ℕ
  | [] => some 0
  | cs => cs.foldl (fun n c => n.bind fun n => if c.isDigit then some (n*10+(c.toNat-48)) else none)
      (some 0)

/-- `String.toIntOrNull`: decimal digits with an optional sign, within the range of `Int`. -/
def toIntOrNull (text : String) : Option ℤ :=
  let value : Option ℤ := match text.toList with
    | [] | ['-'] | ['+'] => none
    | '-' :: cs => (digits cs).map fun n => -(n : ℤ)
    | '+' :: cs => (digits cs).map fun n => (n : ℤ)
    | cs => (digits cs).map fun n => (n : ℤ)
  value.bind fun n => if -2147483648 ≤ n ∧ n ≤ 2147483647 then some n else none

/-- Leave the body under `lifecycleMutex`. -/
def unlock (s : Shared) : Shared := s.setRuntime fun r => { r with lifecycleMutex := none }

/-- A body under `lifecycleMutex` that is one step. -/
def withLock (s : Shared) (body : Outcome) : Outcome :=
  if s.runtime.lifecycleMutex = none then body else .blocked

/-- The body is run, or the mutex is taken. -/
theorem withLock_cases {P : Outcome → Prop} {s : Shared} {body : Outcome}
    (held : s.runtime.lifecycleMutex ≠ none → P .blocked)
    (free : s.runtime.lifecycleMutex = none → P body) : P (withLock s body) := by
  unfold withLock
  split_ifs with hm
  · exact free hm
  · exact held hm

theorem withLock_of {P : Outcome → Prop} {s : Shared} {body : Outcome} (held : P .blocked)
    (free : P body) : P (withLock s body) :=
  withLock_cases (fun _ => held) fun _ => free

/-- What the caller of `submit` does after its `await`. -/
def resume (r : Resume) (e : NativeEvent) (s : Shared) : Outcome :=
  match r with
  | .return => .next s []
  | .returnText missing => if e.text.isSome then .next s [] else .throw s (.webRtc missing)
  | .returnData missing => if e.data.isSome then .next s [] else .throw s (.webRtc missing)
  | .rotateCertificate =>
    match e.text with
    | some rotated => .next s [.runtime (.setFingerprint rotated)]
    | none => .throw s (.webRtc "The native runtime did not return a certificate fingerprint")
  | .registerPeer capacity timeout =>
    .next (s.newPeer e.peerHandle capacity timeout) [.runtime (.registerLock s.nextPeer)]
  | .registerChannel p label options =>
    .next s [.peer p (.registerChannel e.channelHandle ((e.text.bind toIntOrNull).getD (-1))
      label options)]
  | .sendLocalDescription p d => .next s [.send (.localDescription p) (.description d)]
  | .setThresholds c low high => .next s [.channel c (.setThresholds low high)]

def execSubmit (t : TaskId) (i : SubmitInstr) (s : Shared) : Outcome :=
  let r := s.runtime
  match i with
  | .begin b =>
    if b.timeout < 1 then
      .throw s (.illegalArgument "Operation timeout must be at least one millisecond")
    else
      .next ((s.setRuntime fun r => { r with nextOperation := r.nextOperation+1 }).record fun h =>
        { h with submitter := Function.update h.submitter r.nextOperation (some t) })
        [.submit (.lock r.nextOperation b)]
  | .lock op b =>
    withLock s (.next (s.setRuntime fun r => { r with lifecycleMutex := some t })
      [.submit (.checkClosed op b)])
  | .checkClosed op b =>
    if r.closed then .throw (unlock s) closedMessage else .next s [.submit (.checkClosing op b)]
  | .checkClosing op b =>
    if b.allowClosing = false ∧ r.closing = true then .throw (unlock s) closedMessage
    else .next s [.submit (.insert op b)]
  | .insert op b =>
    .next ((s.setRuntime fun r => { r with operations := r.operations.insert op op }).record fun h =>
      { h with inserted := h.inserted ++ [op], before := r.operations }) [.submit (.call op b)]
  | .call op b =>
    .next ((unlock s).record fun h => { h with calls := h.calls ++ [.submit op b.request b.target] })
      [.submit (.await op b.resume)]
  | .await op k =>
    match s.deferred op with
    | none => .blocked
    | some (.completed e) => resume k e s
    | some (.failed x) => .throw s x

/-- The submission function throws: the entry is removed and the exception passed on. -/
def submissionFails (op : ℤ) (b : Submission) (message : String) (s : Shared) : Outcome :=
  .throw (((unlock s).setRuntime fun r => { r with operations := r.operations.erase op }).record
    fun h => { h with taken := h.taken ++ [(op,.submissionFailure)]
                      calls := h.calls ++ [.refused op b.request b.target] }) (.webRtc message)

/-- The events parked for a peer handle. -/
def parked (r : WebRtcRuntime) (handle : ℤ) : List NativeEvent :=
  (r.queuedPeerEvents.lookup handle).getD []

/-- Park an event for a peer that is not registered. -/
def park (r : WebRtcRuntime) (e : NativeEvent) : WebRtcRuntime :=
  { r with
    queuedPeerEvents :=
      r.queuedPeerEvents.insert e.peerHandle (r.parked e.peerHandle ++ [e]) }

/-- The value `handleOperationCompletion` completes an operation with. -/
def completionResult (e : NativeEvent) : OperationResult :=
  if e.number = 0 then .completed e
  else .failed (.webRtc (e.secondaryText.getD "WebRTC operation failed"))

def execLoop (i : LoopInstr) (s : Shared) : Outcome :=
  let r := s.runtime
  match i with
  | .head =>
    if r.scopeActive = true ∧ r.closed = false then .next s [.loop .poll,.loop .head] else .next s []
  | .poll =>
    match s.native with
    | [] => .next s []
    | e :: es =>
      .next ({ s with native := es }.record fun h => { h with polled := h.polled ++ [e] })
        [if e.kind? = some .operationComplete then .loop (.takeOperation e)
          else .loop (.lookupPeer e)]
  | .lookupPeer e =>
    withLock s (match r.peers.lookup e.peerHandle with
      | some p => .next s [.peer p (.handle e)]
      | none => .next (s.setRuntime (·.park e)) [])
  | .takeOperation e =>
    withLock s (match r.operations.lookup e.operationHandle with
      | none => .next s []
      | some op =>
        .next ((s.setRuntime fun r => { r with operations := r.operations.erase e.operationHandle }).record
          fun h => { h with taken := h.taken ++ [(op,.completion e)] }) [.loop (.resolve op e)])
  | .resolve op e => .next (s.completeOperation op (completionResult e)) []
  | .catch => .next s []
  | .failed x => if r.closed then .next s [] else .next s [.runtime (.completeShutdown (some x))]

/-- `completeShutdown` after it has won the compare-and-set on `closed`. -/
def teardown (failure : Option Exn) : List Instr :=
  [.runtime .setClosing,.runtime (.drain failure)]

/-- The rest of `completeShutdown`, once the maps have been drained. -/
def afterDrain (peers : List PeerId) (pending : List ℤ) (failure : Option Exn) : List Instr :=
  peers.map (fun p => .peer p .closeForRuntimeShutdown) ++
    pending.map (fun op => .runtime (.failOperation op failure)) ++
    [.runtime .wake,.runtime (.release failure)]

/-- `close` after it has won the compare-and-set on `closing`. -/
def closeBody (r : WebRtcRuntime) : List Instr :=
  [.submit (.begin { request := .closeRuntime, timeout := r.shutdownTimeout, allowClosing := true }),
    .runtime (.completeShutdown none),.runtime .catchClose,.runtime .awaitClosed]

def execRuntime (t : TaskId) (i : RuntimeInstr) (s : Shared) : Outcome :=
  let r := s.runtime
  match i with
  | .setFingerprint value => .next (s.setRuntime fun r => { r with fingerprint := value }) []
  | .registerLock p =>
    withLock s (.next (s.setRuntime fun r => { r with lifecycleMutex := some t })
      [.runtime (.registerCheck p)])
  | .registerCheck p =>
    if r.closed then .throw (unlock s) closedMessage else .next s [.runtime (.registerPeer p)]
  | .registerPeer p =>
    let handle := (s.peer p).handle
    .next ((unlock s).setRuntime fun r =>
        { r with peers := r.peers.insert handle p
                 queuedPeerEvents := r.queuedPeerEvents.erase handle })
      ((r.parked handle).map (fun e => .peer p (.handle e)) ++ [.runtime (.returnPeer p)])
  | .returnPeer p => .next { s with knownPeers := p :: s.knownPeers } []
  | .unregisterPeer p =>
    let handle := (s.peer p).handle
    withLock s (.next (if r.peers.lookup handle = some p then
      s.setRuntime fun r => { r with peers := r.peers.erase handle } else s) [])
  | .close =>
    if r.closing then .next s [.runtime .awaitClosed]
    else .next (s.setRuntime fun r => { r with closing := true }) (closeBody r)
  | .catchClose => .next s []
  | .awaitClosed => execAwait r.closeCompletion s
  | .completeShutdown failure =>
    if r.closed then .next s []
    else .next (s.setRuntime fun r => { r with closed := true }) (teardown failure)
  | .setClosing => .next (s.setRuntime fun r => { r with closing := true }) []
  | .drain failure =>
    withLock s (.next ((s.setRuntime fun r =>
        { r with peers := ∅, queuedPeerEvents := ∅, operations := ∅ }).record fun h =>
        { h with taken := h.taken ++ r.operations.values.map (fun op => (op,.drain))
                 drained := true })
      (afterDrain r.peers.values r.operations.values failure))
  | .failOperation op failure =>
    .next (s.completeOperation op (.failed (failure.getD
      (.illegalState "WebRtcRuntime closed before the operation completed")))) []
  | .wake => .next (s.record fun h => { h with calls := h.calls ++ [.wake] }) []
  | .release failure =>
    .next (s.record fun h => { h with calls := h.calls ++ [.release] })
      [.runtime .cancelScope,.runtime (.complete failure)]
  | .cancelScope => .next (s.setRuntime fun r => { r with scopeActive := false }) []
  | .complete failure =>
    .next (s.setRuntime fun r =>
      { r with closeCompletion := complete r.closeCompletion (match failure with
        | none => .done
        | some x => .failed x) }) []
  | .diagnostics => withLock s (.next s [])

end WebRtcRuntime
end Kestara.Kotlin
