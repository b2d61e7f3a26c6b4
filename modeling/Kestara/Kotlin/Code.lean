import Kestara.Kotlin.State

/-!
# Atomic steps of the Kotlin coroutines

A coroutine is the list of atomic steps it still has to take. A step is one access to an
atomic or a `StateFlow`, one body under a mutex, one external call, or one attempt to send.
Bodies under `channelsMutex` and most bodies under `lifecycleMutex` read no atomic and do
not suspend, so they are one step; the two bodies that read `closed` or `closing` are split
at the reads.
-/
namespace Kestara.Kotlin

/-- What a caller of `submit` does with the completion event it gets back. -/
inductive Resume
  | return
  | returnText (missing : String)
  | returnData (missing : String)
  | rotateCertificate
  | registerPeer (capacity : ReceiveQueueCapacity) (timeout : ℤ)
  | registerChannel (p : PeerId) (label : String) (options : DataChannelOptions)
  | sendLocalDescription (p : PeerId) (d : SessionDescription)
  | setThresholds (c : ChannelId) (low high : ℤ)

/-- One call of `submit`, with what follows its `await`. -/
structure Submission where
  request : Request
  target : ℤ := 0
  timeout : ℤ
  allowClosing : Bool := false
  resume : Resume := .return

inductive SubmitInstr
  | begin (b : Submission)
  | lock (op : ℤ) (b : Submission)
  | checkClosed (op : ℤ) (b : Submission)
  | checkClosing (op : ℤ) (b : Submission)
  | insert (op : ℤ) (b : Submission)
  | call (op : ℤ) (b : Submission)
  | await (op : ℤ) (resume : Resume)

inductive ChannelInstr
  | requireOpen
  | setThresholds (low high : ℤ)
  | close
  | catchClose
  | awaitClosed
  | handle (e : NativeEvent)
  | handled (e : NativeEvent)
  | notifyOpen
  | notifyOpenState
  | setState (v : DataChannelState)
  | markClosed (runtimeShutdown : Bool)
  | setClosing
  | onTerminal
  | complete (r : Completion)

inductive PeerInstr
  | requireOpen
  | registerChannel (handle id : ℤ) (label : String) (options : DataChannelOptions)
  | returnChannel (c : ChannelId)
  | close
  | catchClose
  | awaitClosed
  | handle (e : NativeEvent)
  | handled (e : NativeEvent)
  | registerRemote (e : NativeEvent)
  | unregisterDataChannel (handle : ℤ)
  | closeForRuntimeShutdown
  | markClosed (runtimeShutdown : Bool)
  | setClosing
  | takeChannels (runtimeShutdown : Bool)
  | setState (v : PeerConnectionState)
  | setSignalingState (v : SignalingState)
  | complete (r : Completion)

inductive LoopInstr
  | head
  | poll
  | lookupPeer (e : NativeEvent)
  | takeOperation (e : NativeEvent)
  | resolve (op : ℤ) (e : NativeEvent)
  | catch
  | failed (e : Exn)

inductive RuntimeInstr
  | setFingerprint (value : String)
  | registerLock (p : PeerId)
  | registerCheck (p : PeerId)
  | registerPeer (p : PeerId)
  | returnPeer (p : PeerId)
  | unregisterPeer (p : PeerId)
  | close
  | catchClose
  | awaitClosed
  | completeShutdown (failure : Option Exn)
  | setClosing
  | drain (failure : Option Exn)
  | failOperation (op : ℤ) (failure : Option Exn)
  | wake
  | release (failure : Option Exn)
  | cancelScope
  | complete (failure : Option Exn)
  | diagnostics

inductive Instr
  | send (q : QueueRef) (x : Item)
  | sendSuspended (q : QueueRef) (x : Item)
  | closeQueue (q : QueueRef)
  | channel (c : ChannelId) (i : ChannelInstr)
  | peer (p : PeerId) (i : PeerInstr)
  | submit (i : SubmitInstr)
  | loop (i : LoopInstr)
  | runtime (i : RuntimeInstr)

abbrev Outcome := Interleaving.Outcome Shared Instr Exn TaskId

/-- The result of an external call, or that a cancellation takes effect at the suspension
point the coroutine is at. -/
inductive Choice
  | ok
  | fail (message : String)
  | cancel
  deriving DecidableEq, Repr

end Kestara.Kotlin
