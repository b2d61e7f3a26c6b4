import Kestara.Library.Guards
import Kestara.Native.Process

/-!
# The registry of runtimes

Each controller that has been spawned is in the hands of the call of `create` that waits for it,
given up by that call, registered under its own handle, or released.
-/
namespace Kestara.Native
open Interleaving

/-- The instruction can return without more ado: no controller is in its charge. -/
def ThreadInstr.quits : ThreadInstr → Bool
  | .create _ | .spawn _ _ _ | .getRuntime _ _ | .use _ _ _ | .remove _ => true
  | _ => false

/-- The controller whose thread the instruction is part of. -/
def ThreadInstr.launches : ThreadInstr → Option ControllerRef
  | .buildRuntime k | .bindMux k _ _ => some k
  | _ => none

/-- The labels of the calls that only give a runtime something to do. -/
def DeliveryLabel.requests : DeliveryLabel → Bool
  | .runtime (.submit _) | .runtime (.completeError _ _) | .wake => true
  | _ => false

/-- The steps of a thread, those apart that wait. -/
inductive ThreadStep (p : Process) : ThreadInstr → ThreadOutcome → Prop
  | quit {i} (answer) (hi : i.quits = true) : ThreadStep p i (.next p [.return answer])
  | create (configuration certificate) :
      ThreadStep p (.create configuration) (.next p [.allocate configuration certificate])
  | allocate (configuration certificate) :
      ThreadStep p (.allocate configuration certificate)
        (.next (({ p with next_runtime_handle := p.next_runtime_handle+1 }).record fun h =>
            { h with allocated := h.allocated ++ [p.next_runtime_handle] })
          [.spawn p.next_runtime_handle configuration certificate])
  | spawn (handle configuration certificate) :
      ThreadStep p (.spawn handle configuration certificate)
        (.fork (({ p with
            nextController := p.nextController+1
            controller := Function.update p.controller p.nextController
              { handle,configuration,runtime := init certificate } }).record fun h =>
                { h with spawned := h.spawned ++ [handle] })
          [.awaitReady p.nextController] (.controller p.nextController)
          [.buildRuntime p.nextController])
  | ready (k) (hs : (p.controller k).startup = .ready) :
      ThreadStep p (.awaitReady k) (.next p [.insertRuntime k])
  | notReady (k error) (hs : p.ended k = true) (hn : (p.controller k).startup ≠ .ready) :
      ThreadStep p (.awaitReady k) (.next p [.joinFailed k error])
  | joinFailed (k error) (he : p.ended k = true) :
      ThreadStep p (.joinFailed k error)
        (.next (p.record fun h => { h with failed := h.failed ++ [k] }) [.return (.error error)])
  | insertRuntime (k) :
      ThreadStep p (.insertRuntime k)
        (.next (({ p with runtimes := p.runtimes.insert (p.controller k).handle k }).record
            fun h => { h with inserted := h.inserted ++ [k] })
          [.return (.ok (.runtime (p.controller k).handle))])
  | settle {i k} (startup binds) (hi : i.launches = some k) (hs : startup ≠ .starting) :
      ThreadStep p i (.next (p.setController k fun c => { c with startup,binds }) [])
  | tryPorts {i k} (binds ports last_error) (hi : i.launches = some k) :
      ThreadStep p i
        (.next (p.setController k fun c => { c with binds }) [.bindMux k ports last_error])
  | found (runtime_handle use k) (hl : p.runtimes.lookup runtime_handle = some k) :
      ThreadStep p (.getRuntime runtime_handle use) (.next p [.use runtime_handle k use])
  | foundBuffer (runtime_handle source event k)
      (hl : p.runtimes.lookup runtime_handle = some k) :
      ThreadStep p (.lookupBuffer runtime_handle source event)
        (.next p [.registerBuffer k source event])
  | dropped (runtime_handle source event answer) :
      ThreadStep p (.lookupBuffer runtime_handle source event)
        (.next (dropEvent source event p) [.return answer])
  | remove (runtime_handle k) (hl : p.runtimes.lookup runtime_handle = some k) :
      ThreadStep p (.remove runtime_handle)
        (.next (({ p with runtimes := p.runtimes.erase runtime_handle }).record fun h =>
            { h with removed := h.removed ++ [k] })
          [.shutdown k])
  | shutdown (k) :
      ThreadStep p (.shutdown k)
        (.next ((p.deliveryStep k (.runtime (.submit releaseCommand))).getD p) [.join k])
  | join (k) (he : p.ended k = true) :
      ThreadStep p (.join k)
        (.next (p.record fun h => { h with released := h.released ++ [k] }) [.return (.ok .unit)])
  | request (runtime_handle k use l d answer) (hl : DeliveryLabel.requests l = true)
      (hd : (p.delivery k).step l = some d) :
      ThreadStep p (.use runtime_handle k use) (.next (p.setDelivery k d) [.return answer])
  | release (runtime_handle k buffer_handle d)
      (hd : (p.delivery k).step (.releaseBuffer buffer_handle) = some d) :
      ThreadStep p (.use runtime_handle k (.releaseBuffer buffer_handle))
        (.next ((p.setDelivery k d).record fun h =>
            { h with freed := h.freed ++ [(k,buffer_handle)] }) [.return (.ok .unit)])
  | woken (runtime_handle k jni event d answer)
      (he : (p.controller k).runtime.shared.events[(p.controller k).received]? = some event)
      (hw : event.kind = WAKE) (hd : (p.delivery k).step .receive = some d) :
      ThreadStep p (.use runtime_handle k (.poll jni)) (.next (p.setDelivery k d) [.return answer])
  | received (runtime_handle k jni event d i)
      (he : (p.controller k).runtime.shared.events[(p.controller k).received]? = some event)
      (hw : event.kind ≠ WAKE) (hd : (p.delivery k).step .receive = some d)
      (hi : i = .lookupBuffer runtime_handle k event ∧ event.delivery_permit.isSome = true ∨
        i = .convert k event jni ∧ (jni = true → event.delivery_permit = none)) :
      ThreadStep p (.use runtime_handle k (.poll jni)) (.next (p.setDelivery k d) [i])
  | registerBuffer (k source event) {o} (ho : registerBuffer k source event p = o) :
      ThreadStep p (.registerBuffer k source event) o
  | convert (k event jni) {o} (ho : convert k event jni p = o) :
      ThreadStep p (.convert k event jni) o
  | return (answer) : ThreadStep p (.return answer) (.next p [])

section ThreadStep
variable {ext : Externals} {x : ThreadChoice} {i : ThreadInstr} {p : Process} {k : ControllerRef}

/-- What a step does, if it does not wait. -/
def StepsOrWaits (p : Process) (i : ThreadInstr) (o : ThreadOutcome) : Prop :=
  o = .blocked ∨ ThreadStep p i o

lemma threadStep_create {configuration : RuntimeConfiguration} :
    StepsOrWaits p (.create configuration) (create configuration x p) := by
  fun_cases create configuration x p
  · exact .inr (.quit _ rfl)
  · exact .inr (.create _ _)
  · exact .inr (.quit _ rfl)
  · exact .inl rfl

lemma threadStep_awaitReady : StepsOrWaits p (.awaitReady k) (awaitReady k p) := by
  unfold awaitReady
  split
  · exact .inl rfl
  · next hs => exact .inr (.ready k hs)
  · next error hs =>
    refine .inr (.notReady k _ ?_ ?_)
    · simp [Process.ended,hs]
    · simp [hs]
  · next hs =>
    refine .inr (.notReady k _ ?_ ?_)
    · simp [Process.ended,hs]
    · simp [hs]

lemma threadStep_buildRuntime : StepsOrWaits p (.buildRuntime k) (buildRuntime k x p) := by
  have hsettle := fun startup => ThreadStep.settle (p := p) (i := .buildRuntime k) startup
    (p.controller k).binds rfl
  have htry := fun ports last_error => ThreadStep.tryPorts (p := p) (i := .buildRuntime k)
    (p.controller k).binds ports last_error rfl
  have hsame : (p.setController k fun c => { c with binds := (p.controller k).binds }) = p := by
    simp [Process.setController]
  simp only [hsame] at htry
  unfold buildRuntime
  dsimp only
  split
  · split_ifs
    · exact .inr (hsettle .ready (by simp))
    · exact .inr (htry _ _)
  · exact .inr (hsettle _ (by simp))
  · exact .inr (hsettle .panicked (by simp))
  · exact .inl rfl

lemma threadStep_bindMux {ports : List UInt16} {last_error : Option String} :
    StepsOrWaits p (.bindMux k ports last_error) (bindMux ext k ports last_error x p) := by
  have hsettle := fun startup binds => ThreadStep.settle (p := p) (i := .bindMux k ports last_error)
    startup binds rfl
  have hfail : ∀ error, StepsOrWaits p (.bindMux k ports last_error)
      (.next (p.setController k fun c => { c with startup := .failed error }) []) :=
    fun error => .inr (hsettle (.failed error) (p.controller k).binds (by simp))
  unfold bindMux
  dsimp only
  split
  · exact hfail _
  · split
    · exact hfail _
    · exact hfail _
    · split
      · exact .inr (hsettle .ready _ (by simp))
      · exact .inr (.tryPorts _ _ _ rfl)
      · exact .inr (hsettle .panicked (p.controller k).binds (by simp))
      · exact .inl rfl

lemma deliveryStep_some {l : DeliveryLabel} {p' : Process} (h : p.deliveryStep k l = some p') :
    ∃ d, (p.delivery k).step l = some d ∧ p' = p.setDelivery k d := by
  obtain ⟨d,hd,rfl⟩ := Option.map_eq_some_iff.mp h
  exact ⟨d,hd,rfl⟩

lemma threadStep_perform {runtime_handle : UInt64} {use : Use} :
    StepsOrWaits p (.use runtime_handle k use) (perform runtime_handle k use x p) := by
  cases use with
  | certificateFingerprint | certificatePem => exact .inr (.quit _ rfl)
  | submit command =>
    simp only [perform]
    split
    · next hp =>
      obtain ⟨d,hd,rfl⟩ := deliveryStep_some hp
      exact .inr (.request _ _ _ _ d _ rfl hd)
    · exact .inr (.quit _ rfl)
  | completeError | wake =>
    simp only [perform]
    split
    · next hp =>
      obtain ⟨d,hd,rfl⟩ := deliveryStep_some hp
      exact .inr (.request _ _ _ _ d _ rfl hd)
    · exact .inl rfl
  | releaseBuffer buffer_handle =>
    simp only [perform]
    split
    · next hp =>
      obtain ⟨d,hd,rfl⟩ := deliveryStep_some hp
      exact .inr (.release _ _ _ d hd)
    · exact .inl rfl
  | poll jni =>
    simp only [perform]
    split
    · exact .inr (.quit _ rfl)
    · next event he =>
      split
      · exact .inl rfl
      · next hp =>
        obtain ⟨d,hd,rfl⟩ := deliveryStep_some hp
        by_cases hw : event.kind = WAKE
        · rw [if_pos hw]
          exact .inr (.woken _ _ _ event d _ he hw hd)
        · rw [if_neg hw]
          by_cases hj : jni = true ∧ event.delivery_permit.isSome = true
          · rw [if_pos hj]
            exact .inr (.received _ _ _ event d _ he hw hd (.inl ⟨rfl,hj.2⟩))
          · rw [if_neg hj]
            refine .inr (.received _ _ _ event d _ he hw hd (.inr ⟨rfl,fun hjni => ?_⟩))
            have hpermit : ¬event.delivery_permit.isSome = true := fun hs => hj ⟨hjni,hs⟩
            simpa using hpermit
    · exact .inl rfl

/-- A step of a thread is one of these, or it waits. -/
theorem threadStep_run : StepsOrWaits p i (runThread ext x i p) := by
  cases i with
  | create => exact threadStep_create
  | allocate configuration certificate => exact .inr (.allocate _ _)
  | spawn handle configuration certificate =>
    cases x with
    | ok => exact .inr (.spawn _ _ _)
    | fail message => exact .inr (.quit _ rfl)
    | _ => exact .inl rfl
  | awaitReady => exact threadStep_awaitReady
  | joinFailed k error =>
    simp only [runThread]
    split_ifs with he
    · exact .inr (.joinFailed k error he)
    · exact .inl rfl
  | insertRuntime k => exact .inr (.insertRuntime k)
  | buildRuntime => exact threadStep_buildRuntime
  | bindMux => exact threadStep_bindMux
  | getRuntime runtime_handle use =>
    simp only [runThread]
    split
    · next k hl => exact .inr (.found _ _ k hl)
    · exact .inr (.quit _ rfl)
  | use => exact threadStep_perform
  | lookupBuffer runtime_handle source event =>
    simp only [runThread]
    split
    · next k hl => exact .inr (.foundBuffer _ _ _ k hl)
    · exact .inr (.dropped _ _ _ _)
  | registerBuffer k source event => exact .inr (.registerBuffer k source event rfl)
  | convert k event jni => exact .inr (.convert k event jni rfl)
  | remove runtime_handle =>
    simp only [runThread]
    split
    · exact .inr (.quit _ rfl)
    · next k hl => exact .inr (.remove _ k hl)
  | shutdown k => exact .inr (.shutdown k)
  | join k =>
    simp only [runThread]
    split_ifs with he
    · exact .inr (.join k he)
    · exact .inl rfl
  | «return» answer => exact .inr (.return answer)

lemma threadStep_of {t : ThreadId} {o : ThreadOutcome} (h : (threads ext).exec x t i p = o)
    (ho : o ≠ .blocked) : ThreadStep p i o := by
  have hrun : StepsOrWaits p i (runThread ext x i p) := threadStep_run
  exact h ▸ hrun.resolve_left fun hb => ho (h.symm.trans hb)

end ThreadStep
/-- What is known of the controllers, their runtimes apart. -/
structure Roster where
  next_runtime_handle : UInt64
  runtimes : LinkedMap UInt64 ControllerRef
  nextController : ℕ
  handle : ControllerRef → UInt64
  startup : ControllerRef → Startup
  allocated : List UInt64
  spawned : List UInt64
  inserted : List ControllerRef
  failed : List ControllerRef
  removed : List ControllerRef
  released : List ControllerRef

def Process.roster (p : Process) : Roster where
  next_runtime_handle := p.next_runtime_handle
  runtimes := p.runtimes
  nextController := p.nextController
  handle k := (p.controller k).handle
  startup k := (p.controller k).startup
  allocated := p.history.allocated
  spawned := p.history.spawned
  inserted := p.history.inserted
  failed := p.history.failed
  removed := p.history.removed
  released := p.history.released

/-- The handle that an instruction is going to give to a controller. -/
def ThreadInstr.spawns (h : UInt64) : ThreadInstr → ℕ
  | .spawn handle _ _ => if handle = h then 1 else 0
  | _ => 0

/-- The instruction is part of the call of `create` that waits for the controller. -/
def ThreadInstr.creates (k : ControllerRef) : ThreadInstr → ℕ
  | .awaitReady j | .joinFailed j _ | .insertRuntime j => if j = k then 1 else 0
  | _ => 0

/-- The instruction is part of the thread of the controller. -/
def ThreadInstr.starts (k : ControllerRef) : ThreadInstr → ℕ
  | .buildRuntime j | .bindMux j _ _ => if j = k then 1 else 0
  | _ => 0

/-- The instruction is part of the call of `release` that has taken the controller out. -/
def ThreadInstr.releases (k : ControllerRef) : ThreadInstr → ℕ
  | .shutdown j | .join j => if j = k then 1 else 0
  | _ => 0

/-- The instruction has no part in any of that. -/
def ThreadInstr.Idle (i : ThreadInstr) : Prop :=
  (∀ h, i.spawns h = 0) ∧ ∀ k, i.creates k = 0 ∧ i.starts k = 0 ∧ i.releases k = 0

/-- What a step does to the roster, the start of a controller thread apart. -/
inductive RosterMove (r : Roster) : ThreadInstr → Roster → List ThreadInstr → Prop
  | keep {i code} (hi : i.Idle) (hc : ∀ j ∈ code, j.Idle) : RosterMove r i r code
  | giveUp (handle configuration certificate answer) :
      RosterMove r (.spawn handle configuration certificate) r [.return answer]
  | allocate (configuration certificate) :
      RosterMove r (.allocate configuration certificate)
        { r with
          next_runtime_handle := r.next_runtime_handle+1
          allocated := r.allocated ++ [r.next_runtime_handle] }
        [.spawn r.next_runtime_handle configuration certificate]
  | ready (k) (hs : r.startup k = .ready) : RosterMove r (.awaitReady k) r [.insertRuntime k]
  | notReady (k error) (hs : r.startup k ≠ .starting) (hn : r.startup k ≠ .ready) :
      RosterMove r (.awaitReady k) r [.joinFailed k error]
  | joinFailed (k error answer) :
      RosterMove r (.joinFailed k error) { r with failed := r.failed ++ [k] } [.return answer]
  | insertRuntime (k answer) :
      RosterMove r (.insertRuntime k)
        { r with runtimes := r.runtimes.insert (r.handle k) k, inserted := r.inserted ++ [k] }
        [.return answer]
  | settle {i k} (startup) (hi : i.launches = some k) (hs : startup ≠ .starting) :
      RosterMove r i { r with startup := Function.update r.startup k startup } []
  | tryPorts {i k} (ports last_error) (hi : i.launches = some k) :
      RosterMove r i r [.bindMux k ports last_error]
  | remove (runtime_handle k) (hl : r.runtimes.lookup runtime_handle = some k) :
      RosterMove r (.remove runtime_handle)
        { r with runtimes := r.runtimes.erase runtime_handle, removed := r.removed ++ [k] }
        [.shutdown k]
  | shutdown (k) : RosterMove r (.shutdown k) r [.join k]
  | join (k answer) :
      RosterMove r (.join k) { r with released := r.released ++ [k] } [.return answer]

section Roster
variable {x : ThreadChoice} {i : ThreadInstr} {p p' : Process} {k : ControllerRef}

@[simp] lemma roster_setDelivery (k : ControllerRef) (d : Delivery) (p : Process) :
    (p.setDelivery k d).roster = p.roster := by
  have hcontroller : ∀ {α : Type} (f : Controller → α), (∀ c : Controller, f { c with
      runtime := d.runtime, received := d.received, handing := d.handing,
      buffers := d.buffers.buffers } = f c) →
        (fun j => f ((p.setDelivery k d).controller j)) = fun j => f (p.controller j) := by
    intro α f hf
    funext j
    by_cases hj : j = k
    · subst hj
      simp only [Process.setDelivery,Process.setController,Function.update_self]
      exact hf _
    · simp only [Process.setDelivery,Process.setController,Function.update_of_ne hj]
  simp only [Process.roster,hcontroller (·.handle) fun _ => rfl,
    hcontroller (·.startup) fun _ => rfl]
  rfl

@[simp] lemma roster_deliveryStep (k : ControllerRef) (l : DeliveryLabel) (p : Process) :
    ((p.deliveryStep k l).getD p).roster = p.roster := by
  unfold Process.deliveryStep
  cases (p.delivery k).step l with
  | none => rfl
  | some d => exact roster_setDelivery k d p

lemma roster_setController (k : ControllerRef) (f : Controller → Controller) (p : Process)
    (hf : (f (p.controller k)).handle = (p.controller k).handle) :
    (p.setController k f).roster = { p.roster with
      startup := Function.update p.roster.startup k (f (p.controller k)).startup } := by
  have hhandle : (fun j => ((p.setController k f).controller j).handle) =
      fun j => (p.controller j).handle := by
    funext j
    by_cases hj : j = k
    · subst hj
      simp only [Process.setController,Function.update_self,hf]
    · simp only [Process.setController,Function.update_of_ne hj]
  have hstartup : (fun j => ((p.setController k f).controller j).startup) =
      Function.update p.roster.startup k (f (p.controller k)).startup := by
    funext j
    by_cases hj : j = k
    · subst hj
      simp only [Process.setController,Function.update_self]
    · simp only [Process.setController,Function.update_of_ne hj,Process.roster]
  simp only [Process.roster] at hstartup ⊢
  rw [hhandle,hstartup]
  rfl

lemma roster_setController_same (k : ControllerRef) (f : Controller → Controller) (p : Process)
    (hf : (f (p.controller k)).handle = (p.controller k).handle)
    (hs : (f (p.controller k)).startup = (p.controller k).startup) :
    (p.setController k f).roster = p.roster := by
  rw [roster_setController k f p hf,hs]
  have hsame : Function.update p.roster.startup k (p.controller k).startup = p.roster.startup :=
    Function.update_eq_self k p.roster.startup
  rw [hsame]

lemma roster_registerBuffer {source : ControllerRef} {event : NativeEvent} {code}
    (h : registerBuffer k source event p = .next p' code) :
    p'.roster = p.roster ∧ ∃ answer, code = [.return answer] := by
  cases h
  refine ⟨?_,_,rfl⟩
  have hset := roster_setController_same source
    (fun c => { c with handing := c.handing.erase event }) p rfl rfl
  exact (roster_setDelivery k _ _).trans hset

lemma roster_convert {event : NativeEvent} {jni : Bool} {code}
    (h : convert k event jni p = .next p' code) :
    p'.roster = p.roster ∧ ∃ answer, code = [.return answer] := by
  unfold convert at h
  split_ifs at h <;> cases h
  · exact ⟨roster_deliveryStep _ _ _,_,rfl⟩
  · exact ⟨roster_deliveryStep _ _ _,_,rfl⟩

/-- What a thread does to the roster. -/
lemma rosterMove_of_threadStep {code : List ThreadInstr} (h : ThreadStep p i (.next p' code)) :
    RosterMove p.roster i p'.roster code := by
  have hidle : ∀ (i : ThreadInstr) (r r' : Roster) code, r' = r → i.Idle →
      (∀ j ∈ code, j.Idle) → RosterMove r i r' code := by
    rintro i r _ code rfl hi hc
    exact .keep hi hc
  have hone : ∀ {j : ThreadInstr}, j.Idle → ∀ j' ∈ [j], j'.Idle := fun hj j' hj' =>
    List.mem_singleton.mp hj' ▸ hj
  cases h with
  | quit answer hi =>
    cases i with
    | spawn => exact .giveUp _ _ _ _
    | create | getRuntime | use | remove =>
      exact hidle _ _ _ _ rfl ⟨fun _ => rfl,fun _ => ⟨rfl,rfl,rfl⟩⟩
        (hone ⟨fun _ => rfl,fun _ => ⟨rfl,rfl,rfl⟩⟩)
    | _ => cases hi
  | create | found | foundBuffer =>
    exact hidle _ _ _ _ rfl ⟨fun _ => rfl,fun _ => ⟨rfl,rfl,rfl⟩⟩
      (hone ⟨fun _ => rfl,fun _ => ⟨rfl,rfl,rfl⟩⟩)
  | allocate => exact .allocate _ _
  | ready k hs => exact .ready k hs
  | notReady k error hs hn =>
    refine .notReady k error (fun he => ?_) hn
    have hstarting : (p.controller k).startup = .starting := he
    simp [Process.ended,hstarting] at hs
  | joinFailed k error he => exact .joinFailed k error _
  | insertRuntime k => exact .insertRuntime k _
  | settle startup binds hi hs =>
    rw [roster_setController _ _ _ rfl]
    exact .settle startup hi hs
  | tryPorts binds ports last_error hi =>
    rw [roster_setController_same _ _ _ rfl rfl]
    exact .tryPorts ports last_error hi
  | dropped =>
    exact hidle _ _ _ _ (roster_deliveryStep _ _ _) ⟨fun _ => rfl,fun _ => ⟨rfl,rfl,rfl⟩⟩
      (hone ⟨fun _ => rfl,fun _ => ⟨rfl,rfl,rfl⟩⟩)
  | remove runtime_handle k hl => exact .remove runtime_handle k hl
  | shutdown k =>
    rw [roster_deliveryStep]
    exact .shutdown k
  | join k he => exact .join k _
  | request | woken =>
    exact hidle _ _ _ _ (roster_setDelivery _ _ _) ⟨fun _ => rfl,fun _ => ⟨rfl,rfl,rfl⟩⟩
      (hone ⟨fun _ => rfl,fun _ => ⟨rfl,rfl,rfl⟩⟩)
  | release runtime_handle k buffer_handle d hd =>
    have hroster := roster_setDelivery k d p
    exact hidle _ _ _ _ hroster ⟨fun _ => rfl,fun _ => ⟨rfl,rfl,rfl⟩⟩
      (hone ⟨fun _ => rfl,fun _ => ⟨rfl,rfl,rfl⟩⟩)
  | registerBuffer k source event ho =>
    obtain ⟨hroster,answer,rfl⟩ := roster_registerBuffer ho
    exact hidle _ _ _ _ hroster ⟨fun _ => rfl,fun _ => ⟨rfl,rfl,rfl⟩⟩
      (hone ⟨fun _ => rfl,fun _ => ⟨rfl,rfl,rfl⟩⟩)
  | convert k event jni ho =>
    obtain ⟨hroster,answer,rfl⟩ := roster_convert ho
    exact hidle _ _ _ _ hroster ⟨fun _ => rfl,fun _ => ⟨rfl,rfl,rfl⟩⟩
      (hone ⟨fun _ => rfl,fun _ => ⟨rfl,rfl,rfl⟩⟩)
  | received runtime_handle k jni event d i he hw hd hi =>
    refine hidle _ _ _ _ (roster_setDelivery _ _ _) ⟨fun _ => rfl,fun _ => ⟨rfl,rfl,rfl⟩⟩
      (hone ?_)
    obtain ⟨rfl,-⟩ | ⟨rfl,-⟩ := hi <;> exact ⟨fun _ => rfl,fun _ => ⟨rfl,rfl,rfl⟩⟩
  | «return» answer =>
    exact hidle _ _ _ _ rfl ⟨fun _ => rfl,fun _ => ⟨rfl,rfl,rfl⟩⟩ (by simp)

def Roster.spawn (handle : UInt64) (r : Roster) : Roster :=
  { r with
    nextController := r.nextController+1
    handle := Function.update r.handle r.nextController handle
    startup := Function.update r.startup r.nextController .starting
    spawned := r.spawned ++ [handle] }

/-- The process with one more controller thread. -/
def Process.spawned (handle : UInt64) (configuration : RuntimeConfiguration)
    (certificate : RTCCertificate) (p : Process) : Process :=
  ({ p with
    nextController := p.nextController+1
    controller := Function.update p.controller p.nextController
      { handle,configuration,runtime := Native.init certificate } }).record fun h =>
        { h with spawned := h.spawned ++ [handle] }

lemma roster_spawned (handle : UInt64) (configuration : RuntimeConfiguration)
    (certificate : RTCCertificate) (p : Process) :
    (p.spawned handle configuration certificate).roster = p.roster.spawn handle := by
  simp only [Process.spawned,Roster.spawn,Process.roster,Process.record,Roster.mk.injEq,true_and,
    and_true]
  constructor <;> (funext j; simp only [Function.update]; split_ifs <;> simp_all)

/-- The only threads that start others are those that create a runtime. -/
lemma threadStep_fork {code childCode : List ThreadInstr} {child : ThreadId}
    (h : ThreadStep p i (.fork p' code child childCode)) :
    ∃ handle configuration certificate, i = .spawn handle configuration certificate ∧
      p' = p.spawned handle configuration certificate ∧ code = [.awaitReady p.nextController] ∧
        child = .controller p.nextController ∧ childCode = [.buildRuntime p.nextController] := by
  cases h with
  | spawn handle configuration certificate =>
    exact ⟨handle,configuration,certificate,rfl,rfl,rfl,rfl,rfl⟩
  | registerBuffer k source event ho => cases ho
  | convert k event jni ho =>
    unfold convert at ho
    split_ifs at ho

/-- What a step of the process does to the roster and to the threads. -/
inductive RosterStep (r : Roster) (tasks : ThreadId → List ThreadInstr) :
    Roster → (ThreadId → List ThreadInstr) → Prop
  | stay : RosterStep r tasks r tasks
  | call (n code) (hn : tasks (.application n) = []) (hc : ∀ i ∈ code, i.Idle) :
      RosterStep r tasks r (Function.update tasks (.application n) code)
  | thread {t i rest r' code} (head : tasks t = i :: rest) (hm : RosterMove r i r' code) :
      RosterStep r tasks r' (Function.update tasks t (code ++ rest))
  | spawn {t rest} (handle configuration certificate)
      (head : tasks t = .spawn handle configuration certificate :: rest) :
      RosterStep r tasks
        (r.spawn handle)
        (Function.update (Function.update tasks t ([.awaitReady r.nextController] ++ rest))
          (.controller r.nextController) [.buildRuntime r.nextController])

lemma idle_of_call (call : Call) : ∀ i ∈ call.code, i.Idle := by
  intro i hi
  cases call <;> (rw [List.mem_singleton.mp hi]; exact ⟨fun _ => rfl,fun _ => ⟨rfl,rfl,rfl⟩⟩)

lemma deliveryStep_runtime {l : Label} {p' : Process}
    (h : p.deliveryStep k (.runtime l) = some p') : p'.roster = p.roster := by
  obtain ⟨d,-,rfl⟩ := deliveryStep_some h
  exact roster_setDelivery k d p

theorem rosterStep_of_step {ext : Externals} {l : ProcessLabel} {c c' : ProcessConfig}
    (h : Process.step ext l c = some c') :
    RosterStep c.shared.roster c.tasks c'.shared.roster c'.tasks := by
  cases l with
  | call n call =>
    simp only [Process.step] at h
    split_ifs at h with hn
    cases h
    exact .call n call.code hn (idle_of_call call)
  | runtime k l =>
    simp only [Process.step] at h
    split_ifs at h with hk
    obtain ⟨p,hp,rfl⟩ := Option.map_eq_some_iff.mp h
    rw [deliveryStep_runtime hp]
    exact .stay
  | thread t x =>
    have hstep := Machine.taskStep_of_stepTask (M := threads ext) h
    cases hstep with
    | @next i rest p code head he =>
      exact .thread head (rosterMove_of_threadStep (threadStep_of he (by simp)))
    | @fork i rest p code child childCode head he =>
      obtain ⟨handle,configuration,certificate,rfl,rfl,rfl,rfl,rfl⟩ :=
        threadStep_fork (threadStep_of he (by simp))
      rw [roster_spawned]
      exact .spawn handle configuration certificate head
    | @throw i rest p e head he => cases e

end Roster
section Invariants
variable {r r' : Roster} {tasks tasks' : ThreadId → List ThreadInstr} {t : ThreadId}
  {i : ThreadInstr} {code rest : List ThreadInstr} {k : ControllerRef} {w : ThreadInstr → ℕ}

/-- The handles that `create` has drawn, and the controllers that have got them. -/
structure Drawn (r : Roster) (tasks : ThreadId → List ThreadInstr) : Prop where
  allocated : r.allocated = firstHandles r.allocated.length
  next : r.next_runtime_handle = UInt64.ofNat (r.allocated.length+1)
  within : ∀ h, Within (ThreadInstr.spawns h) tasks (r.spawned.count h) (r.allocated.count h)
  spawned : r.spawned = (List.range r.nextController).map r.handle

lemma spawns_covered (h : UInt64) (hm : RosterMove r i r' code) :
    weight (ThreadInstr.spawns h) code+r'.spawned.count h+r.allocated.count h ≤
      i.spawns h+r.spawned.count h+r'.allocated.count h := by
  cases hm with
  | keep hi hc =>
    have hzero := weight_eq_zero (w := ThreadInstr.spawns h) fun j hj => (hc j hj).1 h
    omega
  | allocate configuration certificate =>
    simp only [weight_cons,weight_nil,ThreadInstr.spawns,List.count_append,List.count_singleton,
      beq_iff_eq]
    omega
  | _ => simp [ThreadInstr.spawns]

lemma Drawn.step (h : Drawn r tasks) (hs : RosterStep r tasks r' tasks') : Drawn r' tasks' := by
  cases hs with
  | stay => exact h
  | call n code hn hc =>
    refine ⟨h.allocated,h.next,fun k => (h.within k).update ?_,h.spawned⟩
    rw [weight_eq_zero fun j hj => (hc j hj).1 k]
    omega
  | thread head hm =>
    have hwithin := fun k => Within.thread (h.within k) head (spawns_covered k hm)
    cases hm with
    | allocate configuration certificate =>
      refine ⟨?_,?_,hwithin,h.spawned⟩
      · rw [List.length_append,List.length_singleton,firstHandles_succ,← h.allocated,← h.next]
      · rw [List.length_append,List.length_singleton,h.next,← UInt64.ofNat_one,← UInt64.ofNat_add]
    | _ => exact ⟨h.allocated,h.next,hwithin,h.spawned⟩
  | @spawn t rest handle configuration certificate head =>
    refine ⟨h.allocated,h.next,fun k => ?_,?_⟩
    · have hmid : Within (ThreadInstr.spawns k)
          (Function.update tasks t ([.awaitReady r.nextController] ++ rest))
          ((r.spawned ++ [handle]).count k) (r.allocated.count k) := by
        refine (h.within k).thread head ?_
        simp only [weight_cons,weight_nil,ThreadInstr.spawns,List.count_append,
          List.count_singleton,beq_iff_eq]
        omega
      apply hmid.update
      simp [ThreadInstr.spawns,Roster.spawn]
    · simp only [Roster.spawn,List.range_succ,List.map_append,List.map_cons,List.map_nil,
        Function.update_self]
      rw [h.spawned]
      congr 1
      refine List.map_congr_left fun j hj => ?_
      rw [Function.update_of_ne (Nat.ne_of_lt (List.mem_range.mp hj))]

/-- Until the counter wraps, no two controllers have one handle. -/
lemma Drawn.distinct (h : Drawn r tasks) (hn : r.allocated.length < 2^64) {j k : ControllerRef}
    (hj : j < r.nextController) (hk : k < r.nextController) (he : r.handle j = r.handle k) :
    j = k := by
  have hnodup : r.allocated.Nodup := by
    rw [h.allocated]
    exact nodup_firstHandles hn
  have hspawned : r.spawned.Nodup := List.nodup_iff_count_le_one.mpr fun a =>
    (h.within a).spent_le.trans (List.nodup_iff_count_le_one.mp hnodup a)
  rw [h.spawned] at hspawned
  exact List.inj_on_of_nodup_map hspawned (List.mem_range.mpr hj) (List.mem_range.mpr hk) he

/-- A call of `create` waits for the controller. -/
def Roster.awaited (k : ControllerRef) (r : Roster) : Bool :=
  decide (k < r.nextController ∧ k ∉ r.inserted ∧ k ∉ r.failed)

/-- A call of `release` waits for the controller. -/
def Roster.leaving (k : ControllerRef) (r : Roster) : Bool :=
  decide (k ∈ r.removed ∧ k ∉ r.released)

/-- In whose hands the controllers are. -/
structure Held (r : Roster) (tasks : ThreadId → List ThreadInstr) : Prop where
  fresh : ∀ k, r.nextController ≤ k → tasks (.controller k) = [] ∧ r.startup k = .starting ∧
    k ∉ r.inserted ∧ k ∉ r.failed
  creating : ∀ k, Sole (ThreadInstr.creates k) tasks (r.awaited k)
  starting : ∀ k, Within (ThreadInstr.starts k) tasks (if r.startup k = .starting then 0 else 1)
    (if k < r.nextController then 1 else 0)
  ready : ∀ k, (k ∈ r.inserted ∨ ∃ t, .insertRuntime k ∈ tasks t) → r.startup k = .ready
  failing : ∀ k, (k ∈ r.failed ∨ ∃ t error, .joinFailed k error ∈ tasks t) →
    r.startup k ≠ .starting ∧ r.startup k ≠ .ready

lemma launches_weights (hi : i.launches = some k) (j : ControllerRef) :
    i.creates j = 0 ∧ i.releases j = 0 ∧ i.starts j = if k = j then 1 else 0 := by
  cases i with
  | buildRuntime | bindMux =>
    cases hi
    exact ⟨rfl,rfl,rfl⟩
  | _ => cases hi

lemma creates_balanced (hm : RosterMove r i r' code) (k : ControllerRef)
    (hk : 0 < i.creates k → r.awaited k = true) :
    weight (ThreadInstr.creates k) code+(r.awaited k).toNat =
      i.creates k+(r'.awaited k).toNat := by
  cases hm with
  | keep hi hc =>
    rw [weight_eq_zero fun j hj => ((hc j hj).2 k).1,(hi.2 k).1]
  | settle startup hi hs =>
    rw [(launches_weights hi k).1]
    rfl
  | tryPorts ports last_error hi =>
    rw [(launches_weights hi k).1]
    rfl
  | joinFailed j error answer | insertRuntime j answer =>
    by_cases hj : j = k
    · subst hj
      have hheld := of_decide_eq_true (hk (by simp [ThreadInstr.creates]))
      simp [ThreadInstr.creates,hheld,Roster.awaited]
    · have hsame : ∀ l : List ControllerRef, k ∈ l ++ [j] ↔ k ∈ l := fun l => by
        simp [Ne.symm hj]
      simp [ThreadInstr.creates,hj,Roster.awaited,hsame]
  | _ => simp [ThreadInstr.creates,Roster.awaited]

lemma releases_balanced (hm : RosterMove r i r' code) (k : ControllerRef)
    (hk : 0 < i.releases k → r.leaving k = true)
    (hl : ∀ h j, r.runtimes.lookup h = some j → j ∉ r.removed ∧ j ∉ r.released) :
    weight (ThreadInstr.releases k) code+(r.leaving k).toNat =
      i.releases k+(r'.leaving k).toNat := by
  cases hm with
  | keep hi hc =>
    rw [weight_eq_zero fun j hj => ((hc j hj).2 k).2.2,(hi.2 k).2.2]
  | settle startup hi hs =>
    rw [(launches_weights hi k).2.1]
    rfl
  | tryPorts ports last_error hi =>
    rw [(launches_weights hi k).2.1]
    rfl
  | remove h j hlookup =>
    obtain ⟨hremoved,hreleased⟩ := hl h j hlookup
    by_cases hj : j = k
    · subst hj
      simp [ThreadInstr.releases,Roster.leaving,hremoved,hreleased]
    · simp [ThreadInstr.releases,hj,Ne.symm hj,Roster.leaving]
  | join j answer =>
    by_cases hj : j = k
    · subst hj
      have hheld := of_decide_eq_true (hk (by simp [ThreadInstr.releases]))
      simp [ThreadInstr.releases,hheld,Roster.leaving]
    · simp [ThreadInstr.releases,hj,Ne.symm hj,Roster.leaving]
  | _ => simp [ThreadInstr.releases,Roster.leaving]

/-- What the step of a thread leaves pending is its code, or was pending before. -/
lemma mem_thread {j : ThreadInstr} {u : ThreadId} (head : tasks t = i :: rest)
    (hj : j ∈ Function.update tasks t (code ++ rest) u) : j ∈ code ∨ ∃ v, j ∈ tasks v := by
  by_cases hu : u = t
  · subst hu
    rw [Function.update_self,List.mem_append] at hj
    obtain hj | hj := hj
    · exact .inl hj
    · exact .inr ⟨u,by simp [head,hj]⟩
  · rw [Function.update_of_ne hu] at hj
    exact .inr ⟨u,hj⟩

/-- A controller thread settles while nobody has settled it. -/
lemma Held.starting_of_head (h : Held r tasks) (head : tasks t = i :: rest)
    (hi : i.launches = some k) : r.startup k = .starting ∧ k < r.nextController := by
  have hmem := (h.starting k).mem (t := t) (i := i) (by simp [head])
  rw [(launches_weights hi k).2.2,if_pos rfl] at hmem
  split_ifs at hmem with hs hk
  · exact ⟨hs,hk⟩
  all_goals omega

lemma RosterMove.nextController (hm : RosterMove r i r' code) :
    r'.nextController = r.nextController := by
  cases hm <;> rfl

/-- Only the thread of a controller says how its startup has ended. -/
lemma RosterMove.startup (hm : RosterMove r i r' code) (k : ControllerRef) :
    r'.startup k = r.startup k ∨ i.launches = some k ∧ r'.startup k ≠ .starting ∧ code = [] := by
  cases hm with
  | @settle _ j startup hi hs =>
    by_cases hj : k = j
    · subst hj
      exact .inr ⟨hi,by simpa using hs,rfl⟩
    · exact .inl (Function.update_of_ne hj _ _)
  | _ => exact .inl rfl

lemma RosterMove.inserted (hm : RosterMove r i r' code) {k : ControllerRef} :
    (k ∈ r'.inserted → k ∈ r.inserted ∨ i = .insertRuntime k) ∧
      (.insertRuntime k ∈ code → r.startup k = .ready) := by
  cases hm with
  | keep hi hc =>
    refine ⟨.inl,fun hj => ?_⟩
    have hzero := ((hc _ hj).2 k).1
    simp [ThreadInstr.creates] at hzero
  | ready j hs =>
    refine ⟨.inl,fun hj => ?_⟩
    cases List.mem_singleton.mp hj
    exact hs
  | insertRuntime j answer =>
    refine ⟨fun hj => ?_,by simp⟩
    obtain hj | hj := List.mem_append.mp hj
    · exact .inl hj
    · exact .inr (by rw [List.mem_singleton.mp hj])
  | _ => exact ⟨.inl,by simp⟩

lemma RosterMove.failed (hm : RosterMove r i r' code) {k : ControllerRef} :
    (k ∈ r'.failed → k ∈ r.failed ∨ ∃ error, i = .joinFailed k error) ∧
      ∀ error, .joinFailed k error ∈ code → r.startup k ≠ .starting ∧ r.startup k ≠ .ready := by
  cases hm with
  | keep hi hc =>
    refine ⟨.inl,fun error hj => ?_⟩
    have hzero := ((hc _ hj).2 k).1
    simp [ThreadInstr.creates] at hzero
  | notReady j error hs hn =>
    refine ⟨.inl,fun error hj => ?_⟩
    cases List.mem_singleton.mp hj
    exact ⟨hs,hn⟩
  | joinFailed j error answer =>
    refine ⟨fun hj => ?_,by simp⟩
    obtain hj | hj := List.mem_append.mp hj
    · exact .inl hj
    · exact .inr ⟨error,by rw [List.mem_singleton.mp hj]⟩
  | _ => exact ⟨.inl,by simp⟩

lemma starts_covered (hm : RosterMove r i r' code) (k : ControllerRef)
    (hk : i.launches = some k → r.startup k = .starting) :
    weight (ThreadInstr.starts k) code+(if r'.startup k = .starting then 0 else 1) ≤
      i.starts k+(if r.startup k = .starting then 0 else 1) := by
  cases hm with
  | keep hi hc =>
    rw [weight_eq_zero fun j hj => ((hc j hj).2 k).2.1]
    omega
  | @settle _ j startup hi hs =>
    rw [(launches_weights hi k).2.2]
    by_cases hj : k = j
    · subst hj
      simp [hk hi,hs]
    · simp [Function.update_of_ne hj,Ne.symm hj]
  | @tryPorts _ j ports last_error hi =>
    rw [(launches_weights hi k).2.2]
    simp [ThreadInstr.starts]
  | _ => simp [ThreadInstr.starts]

lemma Held.thread (h : Held r tasks) (head : tasks t = i :: rest)
    (hm : RosterMove r i r' code) : Held r' (Function.update tasks t (code ++ rest)) := by
  have hi : i ∈ tasks t := by simp [head]
  have hstill : ∀ k, r.startup k ≠ .starting → r'.startup k = r.startup k := fun k hk =>
    (hm.startup k).resolve_right fun hl => hk (h.starting_of_head head hl.1).1
  have hsame : ∀ {k startup}, startup ≠ .starting → r.startup k = startup →
      r'.startup k = startup := fun hs hk => (hstill _ (hk ▸ hs)).trans hk
  refine ⟨fun k hk => ?_,fun k => ?_,fun k => ?_,fun k hk => ?_,fun k hk => ?_⟩
  · rw [hm.nextController] at hk
    obtain ⟨hidle,hstart,hinserted,hfailed⟩ := h.fresh k hk
    have hne : ThreadId.controller k ≠ t := by
      rintro rfl
      rw [hidle] at head
      cases head
    have hcreates : i.creates k = 0 := by
      by_contra hpos
      have hawaited := of_decide_eq_true ((h.creating k).of_head head (Nat.pos_of_ne_zero hpos))
      exact Nat.not_lt.mpr hk hawaited.1
    refine ⟨by rw [Function.update_of_ne hne,hidle],?_,fun hk' => ?_,fun hk' => ?_⟩
    · refine ((hm.startup k).resolve_right fun hl => ?_).trans hstart
      exact Nat.not_lt.mpr hk (h.starting_of_head head hl.1).2
    · obtain hk' | rfl := hm.inserted.1 hk'
      · exact hinserted hk'
      · simp [ThreadInstr.creates] at hcreates
    · obtain hk' | ⟨error,rfl⟩ := hm.failed.1 hk'
      · exact hfailed hk'
      · simp [ThreadInstr.creates] at hcreates
  · exact (h.creating k).thread head (creates_balanced hm k ((h.creating k).of_head head))
  · rw [hm.nextController]
    refine (h.starting k).thread head ?_
    have := starts_covered hm k fun hl => (h.starting_of_head head hl).1
    omega
  · refine hsame (by simp) ?_
    obtain hk | ⟨u,hu⟩ := hk
    · obtain hk | rfl := hm.inserted.1 hk
      · exact h.ready k (.inl hk)
      · exact h.ready k (.inr ⟨t,hi⟩)
    · obtain hu | ⟨v,hv⟩ := mem_thread head hu
      · exact hm.inserted.2 hu
      · exact h.ready k (.inr ⟨v,hv⟩)
  · have hold : r.startup k ≠ .starting ∧ r.startup k ≠ .ready := by
      obtain hk | ⟨u,error,hu⟩ := hk
      · obtain hk | ⟨error,rfl⟩ := hm.failed.1 hk
        · exact h.failing k (.inl hk)
        · exact h.failing k (.inr ⟨t,error,hi⟩)
      · obtain hu | ⟨v,hv⟩ := mem_thread head hu
        · exact hm.failed.2 error hu
        · exact h.failing k (.inr ⟨v,error,hv⟩)
    rw [hstill k hold.1]
    exact hold

/-- The start of a controller is awaited by the call that has spawned it. -/
lemma Held.spawn (h : Held r tasks) {handle : UInt64} {configuration : RuntimeConfiguration}
    {certificate : RTCCertificate}
    (head : tasks t = .spawn handle configuration certificate :: rest) :
    Held (r.spawn handle)
      (Function.update (Function.update tasks t ([.awaitReady r.nextController] ++ rest))
        (.controller r.nextController) [.buildRuntime r.nextController]) := by
  have hnew := h.fresh r.nextController le_rfl
  have hstartup : (r.spawn handle).startup = r.startup := by
    simp only [Roster.spawn]
    rw [← hnew.2.1]
    exact Function.update_eq_self _ _
  have ht : t ≠ .controller r.nextController := by
    rintro rfl
    rw [hnew.1] at head
    cases head
  have hidle : Function.update tasks t ([.awaitReady r.nextController] ++ rest)
      (.controller r.nextController) = [] := by
    rw [Function.update_of_ne (Ne.symm ht),hnew.1]
  have hmem : ∀ {j u}, j ∈ Function.update (Function.update tasks t
      ([.awaitReady r.nextController] ++ rest)) (.controller r.nextController)
        [.buildRuntime r.nextController] u →
      j = .buildRuntime r.nextController ∨ j = .awaitReady r.nextController ∨ ∃ v, j ∈ tasks v := by
    intro j u hj
    by_cases hu : u = .controller r.nextController
    · subst hu
      rw [Function.update_self] at hj
      exact .inl (List.mem_singleton.mp hj)
    · rw [Function.update_of_ne hu] at hj
      obtain hj | hj := mem_thread head hj
      · exact .inr (.inl (List.mem_singleton.mp hj))
      · exact .inr (.inr hj)
  refine ⟨fun k hk => ?_,fun k => ?_,fun k => ?_,fun k hk => ?_,fun k hk => ?_⟩
  · have hk' : r.nextController < k := hk
    obtain ⟨hfree,hrest⟩ := h.fresh k hk'.le
    have hne : ThreadId.controller k ≠ .controller r.nextController := fun he =>
      Nat.ne_of_gt hk' (ThreadId.controller.inj he)
    have hkt : ThreadId.controller k ≠ t := by
      rintro rfl
      rw [hfree] at head
      cases head
    exact ⟨by rw [Function.update_of_ne hne,Function.update_of_ne hkt,hfree],
      (congrFun hstartup k).trans hrest.1,hrest.2⟩
  · have hawaited : (if r.nextController = k then 1 else 0)+(r.awaited k).toNat =
        ((r.spawn handle).awaited k).toNat := by
      by_cases hk : r.nextController = k
      · subst hk
        simp [Roster.awaited,Roster.spawn,hnew.2.2]
      · have hlt : k < r.nextController+1 ↔ k < r.nextController := by
          rw [Nat.lt_succ_iff]
          exact ⟨fun hle => Nat.lt_of_le_of_ne hle (Ne.symm hk),Nat.le_of_lt⟩
        simp [Roster.awaited,Roster.spawn,hk,hlt]
    have hmid : Sole (ThreadInstr.creates k)
        (Function.update tasks t ([.awaitReady r.nextController] ++ rest))
        ((r.spawn handle).awaited k) := by
      refine (h.creating k).thread head ?_
      rw [← hawaited]
      simp [ThreadInstr.creates]
    apply hmid.update
    rw [hidle]
    rfl
  · have hmid : Within (ThreadInstr.starts k)
        (Function.update tasks t ([.awaitReady r.nextController] ++ rest))
        (if r.startup k = .starting then 0 else 1) (if k < r.nextController then 1 else 0) := by
      refine (h.starting k).thread head ?_
      simp [ThreadInstr.starts]
    rw [congrFun hstartup k]
    apply hmid.update
    rw [hidle]
    have hlt : k < (r.spawn handle).nextController ↔ k < r.nextController ∨ r.nextController = k := by
      change k < r.nextController+1 ↔ _
      rw [Nat.lt_succ_iff,Nat.le_iff_lt_or_eq,eq_comm]
    by_cases hk : r.nextController = k
    · subst hk
      simp [ThreadInstr.starts,hnew.2.1,hlt]
    · simp [ThreadInstr.starts,hk,hlt]
  · obtain hk | ⟨u,hu⟩ := hk
    · exact (congrFun hstartup k).trans (h.ready k (.inl hk))
    · obtain hu | hu | hu := hmem hu
      · cases hu
      · cases hu
      · exact (congrFun hstartup k).trans (h.ready k (.inr hu))
  · rw [congrFun hstartup k]
    obtain hk | ⟨u,error,hu⟩ := hk
    · exact h.failing k (.inl hk)
    · obtain hu | hu | ⟨v,hv⟩ := hmem hu
      · cases hu
      · cases hu
      · exact h.failing k (.inr ⟨v,error,hv⟩)

lemma Held.step (h : Held r tasks) (hs : RosterStep r tasks r' tasks') : Held r' tasks' := by
  cases hs with
  | stay => exact h
  | thread head hm => exact h.thread head hm
  | spawn handle configuration certificate head => exact h.spawn head
  | call n code hn hc =>
    have hmem : ∀ {j u}, j ∈ Function.update tasks (.application n) code u →
        j ∈ code ∨ ∃ v, j ∈ tasks v := by
      intro j u hj
      by_cases hu : u = .application n
      · subst hu
        rw [Function.update_self] at hj
        exact .inl hj
      · rw [Function.update_of_ne hu] at hj
        exact .inr ⟨u,hj⟩
    refine ⟨fun k hk => ?_,fun k => (h.creating k).update ?_,fun k => (h.starting k).update ?_,
      fun k hk => ?_,fun k hk => ?_⟩
    · rw [Function.update_of_ne (by simp)]
      exact h.fresh k hk
    · rw [weight_eq_zero fun j hj => ((hc j hj).2 k).1,hn]
      rfl
    · rw [weight_eq_zero fun j hj => ((hc j hj).2 k).2.1,hn]
      simp
    · obtain hk | ⟨u,hu⟩ := hk
      · exact h.ready k (.inl hk)
      · obtain hu | hu := hmem hu
        · have hzero := ((hc _ hu).2 k).1
          simp [ThreadInstr.creates] at hzero
        · exact h.ready k (.inr hu)
    · obtain hk | ⟨u,error,hu⟩ := hk
      · exact h.failing k (.inl hk)
      · obtain hu | ⟨v,hv⟩ := hmem hu
        · have hzero := ((hc _ hu).2 k).1
          simp [ThreadInstr.creates] at hzero
        · exact h.failing k (.inr ⟨v,error,hv⟩)

/-- What RUNTIMES holds. -/
structure Listed (r : Roster) (tasks : ThreadId → List ThreadInstr) : Prop where
  registered : ∀ h k, r.runtimes.lookup h = some k →
    r.handle k = h ∧ k ∈ r.inserted ∧ k ∉ r.removed
  present : r.allocated.length < 2^64 → ∀ k ∈ r.inserted, k ∉ r.removed →
    r.runtimes.lookup (r.handle k) = some k
  releasing : ∀ k, Sole (ThreadInstr.releases k) tasks (r.leaving k)
  removed : ∀ k ∈ r.removed, k ∈ r.inserted
  released : ∀ k ∈ r.released, k ∈ r.removed

lemma Held.inserted_lt (h : Held r tasks) (hk : k ∈ r.inserted) : k < r.nextController := by
  by_contra hlt
  exact (h.fresh k (Nat.not_lt.mp hlt)).2.2.1 hk

lemma Held.inserting (h : Held r tasks) (head : tasks t = .insertRuntime k :: rest) :
    k < r.nextController ∧ k ∉ r.inserted := by
  have hawaited := of_decide_eq_true ((h.creating k).of_head head (by simp [ThreadInstr.creates]))
  exact ⟨hawaited.1,hawaited.2.1⟩

/-- Only `create` and `release` write to RUNTIMES. -/
lemma RosterMove.runtimes (hm : RosterMove r i r' code) :
    (∃ k, i = .insertRuntime k) ∨ (∃ h, i = .remove h) ∨
      r'.runtimes = r.runtimes ∧ r'.inserted = r.inserted ∧ r'.removed = r.removed := by
  cases hm with
  | insertRuntime k answer => exact .inl ⟨k,rfl⟩
  | remove h k hl => exact .inr (.inl ⟨h,rfl⟩)
  | _ => exact .inr (.inr ⟨rfl,rfl,rfl⟩)

lemma RosterMove.handle (hm : RosterMove r i r' code) : r'.handle = r.handle := by
  cases hm <;> rfl

lemma RosterMove.allocated (hm : RosterMove r i r' code) :
    r.allocated.length ≤ r'.allocated.length := by
  cases hm with
  | allocate => simp
  | _ => exact le_rfl

lemma RosterMove.released (hm : RosterMove r i r' code) {k : ControllerRef}
    (hk : k ∈ r'.released) : k ∈ r.released ∨ i = .join k := by
  cases hm with
  | join j answer =>
    obtain hk | hk := List.mem_append.mp hk
    · exact .inl hk
    · exact .inr (by rw [List.mem_singleton.mp hk])
  | _ => exact .inl hk

lemma RosterMove.removed_grows (hm : RosterMove r i r' code) {k : ControllerRef}
    (hk : k ∈ r.removed) : k ∈ r'.removed := by
  cases hm with
  | remove => exact List.mem_append_left _ hk
  | _ => exact hk

lemma Listed.thread (h : Listed r tasks) (hheld : Held r tasks) (hdrawn : Drawn r tasks)
    (head : tasks t = i :: rest) (hm : RosterMove r i r' code) :
    Listed r' (Function.update tasks t (code ++ rest)) := by
  have hreleasing : ∀ k, Sole (ThreadInstr.releases k)
      (Function.update tasks t (code ++ rest)) (r'.leaving k) := fun k =>
    (h.releasing k).thread head (releases_balanced hm k ((h.releasing k).of_head head)
      fun a j hl => ⟨(h.registered a j hl).2.2,
        fun hj => (h.registered a j hl).2.2 (h.released j hj)⟩)
  have hreleased : ∀ k ∈ r'.released, k ∈ r'.removed := by
    intro k hk
    refine hm.removed_grows ?_
    obtain hk | rfl := hm.released hk
    · exact h.released k hk
    · exact (of_decide_eq_true ((h.releasing k).of_head head (by simp [ThreadInstr.releases]))).1
  obtain ⟨k,rfl⟩ | ⟨a,rfl⟩ | ⟨hruntimes,hinserted,hremoved⟩ := hm.runtimes
  · obtain ⟨hlt,hnew⟩ := hheld.inserting head
    cases hm with
    | insertRuntime _ answer =>
      refine ⟨fun a j hl => ?_,fun hn j hj hr => ?_,hreleasing,
        fun j hj => List.mem_append_left _ (h.removed j hj),hreleased⟩
      · simp only [LinkedMap.lookup_insert] at hl
        split_ifs at hl with ha
        · cases hl
          exact ⟨ha.symm,by simp,fun hr => hnew (h.removed k hr)⟩
        · obtain ⟨hhandle,hj,hr⟩ := h.registered a j hl
          exact ⟨hhandle,List.mem_append_left _ hj,hr⟩
      · simp only [LinkedMap.lookup_insert]
        obtain hj | hj := List.mem_append.mp hj
        · have hne : r.handle j ≠ r.handle k := fun he =>
            hnew (hdrawn.distinct hn (hheld.inserted_lt hj) hlt he ▸ hj)
          rw [if_neg hne]
          exact h.present hn j hj hr
        · rw [List.mem_singleton.mp hj,if_pos rfl]
    | keep hi hc =>
      have hzero := (hi.2 k).1
      simp [ThreadInstr.creates] at hzero
    | settle startup hi hs => cases hi
    | tryPorts ports last_error hi => cases hi
  · cases hm with
    | remove _ k hl =>
      obtain ⟨hhandle,hinserted,hnot⟩ := h.registered a k hl
      refine ⟨fun b j hj => ?_,fun hn j hj hr => ?_,hreleasing,fun j hj => ?_,hreleased⟩
      · simp only [LinkedMap.lookup_erase] at hj
        split_ifs at hj with hb
        obtain ⟨hhandle',hj',hr⟩ := h.registered b j hj
        refine ⟨hhandle',hj',fun hmem => ?_⟩
        obtain hmem | hmem := List.mem_append.mp hmem
        · exact hr hmem
        · rw [List.mem_singleton.mp hmem] at hhandle'
          exact hb (hhandle'.symm.trans hhandle)
      · simp only [List.mem_append,List.mem_singleton,not_or] at hr
        have hne : r.handle j ≠ a := fun he => hr.2 (hdrawn.distinct hn (hheld.inserted_lt hj)
          (hheld.inserted_lt hinserted) (he.trans hhandle.symm))
        simp only [LinkedMap.lookup_erase]
        rw [if_neg hne]
        exact h.present hn j hj hr.1
      · obtain hj | hj := List.mem_append.mp hj
        · exact h.removed j hj
        · rw [List.mem_singleton.mp hj]
          exact hinserted
    | keep hi hc =>
      exact ⟨h.registered,h.present,hreleasing,h.removed,hreleased⟩
    | settle startup hi hs => cases hi
    | tryPorts ports last_error hi => cases hi
  · refine ⟨?_,fun hn => ?_,hreleasing,?_,hreleased⟩
    · rw [hruntimes,hinserted,hremoved,hm.handle]
      exact h.registered
    · rw [hruntimes,hinserted,hremoved,hm.handle]
      exact h.present (hm.allocated.trans_lt hn)
    · rw [hinserted,hremoved]
      exact h.removed

lemma Listed.step (h : Listed r tasks) (hheld : Held r tasks) (hdrawn : Drawn r tasks)
    (hs : RosterStep r tasks r' tasks') : Listed r' tasks' := by
  cases hs with
  | stay => exact h
  | thread head hm => exact h.thread hheld hdrawn head hm
  | call n code hn hc =>
    refine ⟨h.registered,h.present,fun k => (h.releasing k).update ?_,h.removed,h.released⟩
    rw [weight_eq_zero fun j hj => ((hc j hj).2 k).2.2,hn]
    rfl
  | @spawn t rest handle configuration certificate head =>
    have hkept : ∀ k ∈ r.inserted, (r.spawn handle).handle k = r.handle k := fun k hk =>
      Function.update_of_ne (Nat.ne_of_lt (hheld.inserted_lt hk)) _ _
    have hidle := (hheld.fresh r.nextController le_rfl).1
    have ht : ThreadId.controller r.nextController ≠ t := by
      rintro rfl
      rw [hidle] at head
      cases head
    refine ⟨fun a k hl => ?_,fun hn k hk hr => ?_,fun k => ?_,h.removed,h.released⟩
    · obtain ⟨hhandle,hk,hr⟩ := h.registered a k hl
      exact ⟨(hkept k hk).trans hhandle,hk,hr⟩
    · rw [hkept k hk]
      exact h.present hn k hk hr
    · have hmid : Sole (ThreadInstr.releases k)
          (Function.update tasks t ([.awaitReady r.nextController] ++ rest)) (r.leaving k) :=
        (h.releasing k).thread head rfl
      refine hmid.update ?_
      rw [Function.update_of_ne ht,hidle]
      rfl

/-- The invariant of the registry of runtimes. -/
structure RosterInv (c : ProcessConfig) : Prop where
  drawn : Drawn c.shared.roster c.tasks
  held : Held c.shared.roster c.tasks
  listed : Listed c.shared.roster c.tasks

theorem rosterInv_step {ext : Externals} {l : ProcessLabel} {c c' : ProcessConfig}
    (h : RosterInv c) (hs : Process.step ext l c = some c') : RosterInv c' := by
  have hstep := rosterStep_of_step hs
  exact ⟨h.drawn.step hstep,h.held.step hstep,h.listed.step h.held h.drawn hstep⟩

theorem rosterInv_of_reachable {ext : Externals} {ok : ProcessLabel → ProcessConfig → Prop}
    {c : ProcessConfig} (h : Process.Reachable ext ok c) : RosterInv c := by
  refine h.invariant ⟨⟨rfl,rfl,fun a => ?_,rfl⟩,⟨fun k _ => ⟨rfl,rfl,by simp [Process.init,
    Process.roster]⟩,fun k => ?_,fun k => ?_,fun k hk => ?_,fun k hk => ?_⟩,
      ⟨fun a k hl => ?_,fun _ k hk => ?_,fun k => ?_,fun k hk => ?_,fun k hk => ?_⟩⟩
    fun _ _ _ hI _ hs => rosterInv_step hI hs
  · exact .of_idle (fun _ => rfl) le_rfl
  · exact .of_idle fun _ => rfl
  · exact .of_idle (fun _ => rfl) le_rfl
  · obtain hk | ⟨t,hk⟩ := hk <;> cases hk
  · obtain hk | ⟨t,error,hk⟩ := hk <;> cases hk
  · cases hl
  · cases hk
  · exact .of_idle fun _ => rfl
  · cases hk
  · cases hk

end Invariants
end Kestara.Native
