import Kestara.Native.Bridge
import Kestara.Native.Delivery

/-!
# The runtimes of one process

RUNTIMES of runtime.rs, the threads of the application that call into it, and the controller
threads up to their loop. A call looks its runtime up and goes on with the controller that it has
found, whatever happens to the registry in the meantime.
-/
namespace Kestara.Native
open Interleaving Interleaving.Outcome

abbrev ControllerRef := ℕ

/-- What a controller thread has sent on its ready channel, or that it has not sent anything. -/
inductive Startup
  | starting
  | ready
  | failed (error : String)
  | panicked
  deriving DecidableEq, Repr

/-- A `RuntimeController` with its thread. The certificate is that of the runtime. -/
structure Controller where
  handle : UInt64
  configuration : RuntimeConfiguration
  startup : Startup := .starting
  /-- The ports that `SharedSocketMux::bind` has been tried with, and its errors. -/
  binds : List (UInt16 × Option String) := []
  runtime : Config
  received : ℕ := 0
  handing : List NativeEvent := []
  buffers : LinkedMap UInt64 NativeBufferEntry := ∅

/-- What has happened so far. The code does not read it. -/
structure ProcessHistory where
  /-- The results of `fetch_add` on NEXT_RUNTIME_HANDLE. -/
  allocated : List UInt64 := []
  /-- The handles of the controllers, in the order in which their threads were spawned. -/
  spawned : List UInt64 := []
  inserted : List ControllerRef := []
  /-- The controllers whose `create` has failed. -/
  failed : List ControllerRef := []
  removed : List ControllerRef := []
  /-- The controllers whose `release` has returned. -/
  released : List ControllerRef := []
  /-- The views handed to the JVM, with the bytes of the message. -/
  views : List (ControllerRef × NativeBufferView × List UInt8) := []
  /-- The calls of `release_buffer` that have found their runtime. -/
  freed : List (ControllerRef × UInt64) := []

structure Process where
  next_runtime_handle : UInt64 := 1
  next_buffer_handle : UInt64 := 1
  /-- RUNTIMES. -/
  runtimes : LinkedMap UInt64 ControllerRef := ∅
  controller : ControllerRef → Controller
  nextController : ℕ := 0
  history : ProcessHistory := {}

/-- What a call does with the controller that it has found. -/
inductive Use
  | certificateFingerprint
  | certificatePem
  | submit (command : Command)
  | completeError (operation_handle : UInt64) (error : String)
  /-- By the JNI boundary, or by the C boundary. -/
  | poll (jni : Bool)
  | wake
  | releaseBuffer (buffer_handle : UInt64)

/-- What a call gives. -/
inductive Answer
  | unit
  | runtime (handle : UInt64)
  | text (text : String)
  | jvm (event : Option JvmNativeEvent)
  | bytes (data : List UInt8)

/-- The threads of the application, and those of the controllers. -/
inductive ThreadId
  | application (n : ℕ)
  | controller (k : ControllerRef)
  deriving DecidableEq, Repr

inductive ThreadInstr
  | create (configuration : RuntimeConfiguration)
  | allocate (configuration : RuntimeConfiguration) (certificate : RTCCertificate)
  | spawn (handle : UInt64) (configuration : RuntimeConfiguration) (certificate : RTCCertificate)
  | awaitReady (k : ControllerRef)
  | joinFailed (k : ControllerRef) (error : String)
  | insertRuntime (k : ControllerRef)
  /-- The controller thread. -/
  | buildRuntime (k : ControllerRef)
  | bindMux (k : ControllerRef) (ports : List UInt16) (last_error : Option String)
  | getRuntime (runtime_handle : UInt64) (use : Use)
  | use (runtime_handle : UInt64) (k : ControllerRef) (use : Use)
  /-- `nativePollRuntimeEvent` looks the runtime up anew for a message. -/
  | lookupBuffer (runtime_handle : UInt64) (source : ControllerRef) (event : NativeEvent)
  | registerBuffer (k source : ControllerRef) (event : NativeEvent)
  | convert (k : ControllerRef) (event : NativeEvent) (jni : Bool)
  | remove (runtime_handle : UInt64)
  | shutdown (k : ControllerRef)
  | join (k : ControllerRef)
  | return (answer : Except String Answer)

/-- What a call of another library gives. -/
inductive ThreadChoice
  | ok
  | fail (message : String)
  | panic
  | timeout
  | certificate (result : Except String RTCCertificate)

abbrev ThreadOutcome := Interleaving.Outcome Process ThreadInstr Empty ThreadId

abbrev ProcessConfig := Interleaving.Config Process ThreadInstr ThreadId

namespace Process

def record (p : Process) (f : ProcessHistory → ProcessHistory) : Process :=
  { p with history := f p.history }

def setController (k : ControllerRef) (f : Controller → Controller) (p : Process) : Process :=
  { p with controller := Function.update p.controller k (f (p.controller k)) }

/-- One runtime of the process with its polls. -/
def delivery (k : ControllerRef) (p : Process) : Delivery where
  runtime := (p.controller k).runtime
  received := (p.controller k).received
  handing := (p.controller k).handing
  buffers := ⟨p.next_buffer_handle,(p.controller k).buffers⟩

def setDelivery (k : ControllerRef) (d : Delivery) (p : Process) : Process :=
  { p.setController k fun c => { c with
      runtime := d.runtime
      received := d.received
      handing := d.handing
      buffers := d.buffers.buffers } with
    next_buffer_handle := d.buffers.next_buffer_handle }

/-- A step of one runtime with its polls, if it is possible. -/
def deliveryStep (k : ControllerRef) (l : DeliveryLabel) (p : Process) : Option Process :=
  ((p.delivery k).step l).map fun d => p.setDelivery k d

/-- The controller thread has returned or panicked. -/
def ended (k : ControllerRef) (p : Process) : Bool :=
  match (p.controller k).startup with
  | .starting => false
  | .ready => (p.controller k).runtime.tasks 0 = []
  | .failed _ | .panicked => true

end Process

def unknownRuntime (runtime_handle : UInt64) : String :=
  s!"Unknown WebRTC runtime handle: {runtime_handle}"

/-- `socket_addresses`: every host with the port. -/
def socket_addresses (x : Externals) (hosts : List String) (port : UInt16) :
    Except String (List (IpAddr × UInt16)) :=
  hosts.mapM fun host =>
    match x.parse_ip_addr host with
    | .ok ip => .ok (ip,port)
    | .error error => .error s!"Invalid shared bind address {host}: {error}"

/-- The ports that `create_socket_mux` tries. -/
def muxPorts (configuration : RuntimeConfiguration) : List UInt16 :=
  if configuration.shared_min_port = 0 then [0]
  else (List.range' configuration.shared_min_port.toNat
    (configuration.shared_max_port.toNat+1-configuration.shared_min_port.toNat)).map UInt16.ofNat

/-- `create` up to the handle of the runtime; the certificate is imported or generated. -/
def create (configuration : RuntimeConfiguration) (x : ThreadChoice) (p : Process) :
    ThreadOutcome :=
  if configuration.worker_threads = 0 then
    .next p [.return (.error "The WebRTC runtime must have at least one worker thread")]
  else
    match x with
    | .certificate (.ok certificate) => .next p [.allocate configuration certificate]
    | .certificate (.error error) => .next p [.return (.error error)]
    | _ => .blocked

/-- Start the controller thread, which waits for nobody. -/
def spawnController (handle : UInt64) (configuration : RuntimeConfiguration)
    (certificate : RTCCertificate) (x : ThreadChoice) (p : Process) : ThreadOutcome :=
  match x with
  | .ok =>
    let k := p.nextController
    .fork (({ p with
        nextController := k+1
        controller := Function.update p.controller k
          { handle,configuration,runtime := init certificate } }).record fun h =>
            { h with spawned := h.spawned ++ [handle] })
      [.awaitReady k] (.controller k) [.buildRuntime k]
  | .fail message =>
    .next p [.return (.error s!"Failed to start the WebRTC runtime controller: {message}")]
  | _ => .blocked

def awaitReady (k : ControllerRef) (p : Process) : ThreadOutcome :=
  match (p.controller k).startup with
  | .starting => .blocked
  | .ready => .next p [.insertRuntime k]
  | .failed error => .next p [.joinFailed k error]
  | .panicked => .next p [.joinFailed k
      "The WebRTC runtime controller stopped during startup: receiving on an empty and disconnected channel"]

/-- `run_runtime` up to the sockets. -/
def buildRuntime (k : ControllerRef) (x : ThreadChoice) (p : Process) : ThreadOutcome :=
  let configuration := (p.controller k).configuration
  match x with
  | .ok =>
    if configuration.shared_udp_addresses = [] ∧ configuration.shared_tcp_addresses = [] then
      .next (p.setController k fun c => { c with startup := .ready }) []
    else .next p [.bindMux k (muxPorts configuration) none]
  | .fail message => .next (p.setController k fun c => { c with
      startup := .failed s!"Failed to start the WebRTC runtime: {message}" }) []
  | .panic => .next (p.setController k fun c => { c with startup := .panicked }) []
  | _ => .blocked

/-- An iteration of the loop of `create_socket_mux`, or what follows the loop. -/
def bindMux (ext : Externals) (k : ControllerRef) (ports : List UInt16)
    (last_error : Option String) (x : ThreadChoice) (p : Process) : ThreadOutcome :=
  let configuration := (p.controller k).configuration
  let fails (error : String) : ThreadOutcome :=
    .next (p.setController k fun c => { c with startup := .failed error }) []
  match ports with
  | [] =>
    let error := last_error.getD "unknown bind error"
    fails s!"No shared transport port is available: {error}"
  | port :: ports =>
    match socket_addresses ext configuration.shared_udp_addresses port,
        socket_addresses ext configuration.shared_tcp_addresses port with
    | .error error,_ | .ok _,.error error => fails error
    | .ok _,.ok _ =>
      match x with
      | .ok => .next (p.setController k fun c => { c with
          startup := .ready
          binds := c.binds ++ [(port,none)] }) []
      | .fail message => .next (p.setController k fun c => { c with
          binds := c.binds ++ [(port,some message)] }) [.bindMux k ports (some message)]
      | .panic => .next (p.setController k fun c => { c with startup := .panicked }) []
      | _ => .blocked

/-- What the call does and gives, once the controller has been found. -/
def perform (runtime_handle : UInt64) (k : ControllerRef) (use : Use) (x : ThreadChoice)
    (p : Process) : ThreadOutcome :=
  let s := (p.controller k).runtime.shared
  match use with
  | .certificateFingerprint =>
    .next p [.return ((certificate_fingerprint_value s.certificate).map .text)]
  | .certificatePem => .next p [.return (.ok (.text s.certificate.pem))]
  | .submit command =>
    match p.deliveryStep k (.runtime (.submit command)) with
    | some p => .next p [.return (.ok .unit)]
    | none => .next p [.return (.error "The WebRTC runtime is shutting down")]
  | .completeError operation_handle error =>
    match p.deliveryStep k (.runtime (.completeError operation_handle error)) with
    | some p => .next p [.return (.ok .unit)]
    | none => .blocked
  | .wake =>
    match p.deliveryStep k .wake with
    | some p => .next p [.return (.ok .unit)]
    | none => .blocked
  | .releaseBuffer buffer_handle =>
    match p.deliveryStep k (.releaseBuffer buffer_handle) with
    | some p =>
      .next (p.record fun h => { h with freed := h.freed ++ [(k,buffer_handle)] })
        [.return (.ok .unit)]
    | none => .blocked
  | .poll jni =>
    let nothing : ThreadInstr := .return (.ok (if jni then .jvm none else .bytes []))
    match x,s.events[(p.controller k).received]? with
    | .timeout,_ => .next p [nothing]
    | .ok,some event =>
      match p.deliveryStep k .receive with
      | none => .blocked
      | some p =>
        if event.kind = WAKE then .next p [nothing]
        else if jni ∧ event.delivery_permit.isSome then
          .next p [.lookupBuffer runtime_handle k event]
        else .next p [.convert k event jni]
    | _,_ => .blocked

/-- Where an event is among those that are being handed over. -/
def Process.place (k : ControllerRef) (event : NativeEvent) (p : Process) : ℕ :=
  (p.controller k).handing.idxOf event

/-- The event is dropped, with its permit. -/
def dropEvent (source : ControllerRef) (event : NativeEvent) (p : Process) : Process :=
  (p.deliveryStep source (.c (p.place source event))).getD p

/-- The second half of `nativePollRuntimeEvent`, for a message. -/
def registerBuffer (k source : ControllerRef) (event : NativeEvent) (p : Process) : ThreadOutcome :=
  let p := p.setController source fun c => { c with handing := c.handing.erase event }
  let view := (register_buffer (event.data.getD []) event.delivery_permit (p.delivery k).buffers).1
  let answer := (nativePollRuntimeEvent (.event event) (p.delivery k).buffers).1
  .next ((p.setDelivery k ((p.delivery k).handOver event)).record fun h =>
      { h with views := h.views ++ [(k,view,event.data.getD [])] })
    [.return (.ok (.jvm answer))]

/-- An event without a permit, or one for the C boundary. -/
def convert (k : ControllerRef) (event : NativeEvent) (jni : Bool) (p : Process) : ThreadOutcome :=
  if jni then
    .next ((p.deliveryStep k (.jni (p.place k event))).getD p)
      [.return (.ok (.jvm (nativePollRuntimeEvent (.event event) (p.delivery k).buffers).1))]
  else .next (dropEvent k event p) [.return (.ok (.bytes (encode_event event)))]

/-- The Shutdown that `release` submits. -/
def releaseCommand : Command := { operation_handle := 0,timeout := ⟨2000⟩,operation := .shutdown }

/-- One step of a thread. -/
def runThread (ext : Externals) (x : ThreadChoice) (i : ThreadInstr) (p : Process) :
    ThreadOutcome :=
  match i with
  | .create configuration => create configuration x p
  | .allocate configuration certificate =>
    .next (({ p with next_runtime_handle := p.next_runtime_handle+1 }).record fun h =>
        { h with allocated := h.allocated ++ [p.next_runtime_handle] })
      [.spawn p.next_runtime_handle configuration certificate]
  | .spawn handle configuration certificate =>
    spawnController handle configuration certificate x p
  | .awaitReady k => awaitReady k p
  | .joinFailed k error =>
    if p.ended k then
      .next (p.record fun h => { h with failed := h.failed ++ [k] }) [.return (.error error)]
    else .blocked
  | .insertRuntime k =>
    .next (({ p with runtimes := p.runtimes.insert (p.controller k).handle k }).record fun h =>
        { h with inserted := h.inserted ++ [k] })
      [.return (.ok (.runtime (p.controller k).handle))]
  | .buildRuntime k => buildRuntime k x p
  | .bindMux k ports last_error => bindMux ext k ports last_error x p
  | .getRuntime runtime_handle use =>
    match p.runtimes.lookup runtime_handle with
    | some k => .next p [.use runtime_handle k use]
    | none => .next p [.return (.error (unknownRuntime runtime_handle))]
  | .use runtime_handle k use => perform runtime_handle k use x p
  | .lookupBuffer runtime_handle source event =>
    match p.runtimes.lookup runtime_handle with
    | some k => .next p [.registerBuffer k source event]
    | none =>
      .next (dropEvent source event p) [.return (.error (unknownRuntime runtime_handle))]
  | .registerBuffer k source event => registerBuffer k source event p
  | .convert k event jni => convert k event jni p
  | .remove runtime_handle =>
    match p.runtimes.lookup runtime_handle with
    | none => .next p [.return (.ok .unit)]
    | some k =>
      .next (({ p with runtimes := p.runtimes.erase runtime_handle }).record fun h =>
          { h with removed := h.removed ++ [k] })
        [.shutdown k]
  | .shutdown k =>
    .next ((p.deliveryStep k (.runtime (.submit releaseCommand))).getD p) [.join k]
  | .join k =>
    if p.ended k then
      .next (p.record fun h => { h with released := h.released ++ [k] }) [.return (.ok .unit)]
    else .blocked
  | .return _ => .next p []

def threads (ext : Externals) : Machine Process ThreadInstr Empty ThreadId ThreadChoice where
  exec x _ := runThread ext x
  handler _ _ := none
  release _ p := p

/-- The functions of runtime.rs that an application calls. -/
inductive Call
  | create (configuration : RuntimeConfiguration)
  | use (runtime_handle : UInt64) (use : Use)
  | release (runtime_handle : UInt64)

def Call.code : Call → List ThreadInstr
  | .create configuration => [.create configuration]
  | .use runtime_handle action => [.getRuntime runtime_handle action]
  | .release runtime_handle => [.remove runtime_handle]

/-- A step that a runtime makes by itself. -/
def Label.internal : Label → Bool
  | .task _ _ | .announce _ _ | .callback _ _ => true
  | .submit _ | .completeError _ _ => false

inductive ProcessLabel
  | call (n : ℕ) (call : Call)
  | thread (t : ThreadId) (x : ThreadChoice)
  /-- The controller loop, the tasks and the handlers of one runtime. -/
  | runtime (k : ControllerRef) (l : Label)

namespace Process

/-- One step of the process. -/
def step (ext : Externals) (l : ProcessLabel) (c : ProcessConfig) : Option ProcessConfig :=
  match l with
  | .call n call =>
    if c.tasks (.application n) = [] then
      some { c with tasks := Function.update c.tasks (.application n) call.code }
    else none
  | .thread t x => (threads ext).stepTask x t c
  | .runtime k l =>
    if k < c.shared.nextController ∧ (c.shared.controller k).startup = .ready ∧ l.internal then
      (c.shared.deliveryStep k (.runtime l)).map fun p => { c with shared := p }
    else none

def init : ProcessConfig where
  shared := { controller := fun _ =>
    { handle := 0
      configuration :=
        { worker_threads := 0, reactor_threads := 0, certificate_pem := none
          shared_udp_addresses := [], shared_tcp_addresses := []
          shared_min_port := 0, shared_max_port := 0 }
      runtime := Native.init ⟨"",[]⟩ } }
  tasks := fun _ => []

abbrev Reachable (ext : Externals) (ok : ProcessLabel → ProcessConfig → Prop) (c : ProcessConfig) :
    Prop :=
  Reaches (step ext) ok init c

end Process
end Kestara.Native
