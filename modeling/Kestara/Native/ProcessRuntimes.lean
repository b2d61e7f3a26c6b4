import Kestara.Native.Runtimes

/-!
# Each runtime of a process

A runtime among others does what it would do alone: the other runtimes of the process take buffer
handles from the common counter, and that is all it sees of them.
-/
namespace Kestara.Native
open Interleaving

section Names
variable {ext : Externals} {ok : ProcessLabel → ProcessConfig → Prop} {l : ProcessLabel}
  {c c' : ProcessConfig} {p p' : Process} {r r' : Roster} {i : ThreadInstr} {t : ThreadId}
  {k : ControllerRef} {code rest : List ThreadInstr}

/-- What a pending instruction knows of the controllers that it names. -/
def NamesRuntime (r : Roster) : ThreadInstr → Prop
  | .use runtime_handle k _ => r.handle k = runtime_handle ∧ k ∈ r.inserted
  | .lookupBuffer runtime_handle k event =>
    r.handle k = runtime_handle ∧ k ∈ r.inserted ∧ event.delivery_permit.isSome = true ∧
      event.kind ≠ WAKE
  | .registerBuffer k source event =>
    r.handle k = r.handle source ∧ k ∈ r.inserted ∧ source ∈ r.inserted ∧
      event.delivery_permit.isSome = true ∧ event.kind ≠ WAKE
  | .convert k event jni => k ∈ r.inserted ∧ (jni = true → event.delivery_permit = none)
  | _ => True

/-- Controllers keep their handles, and stay entered. -/
structure RosterGrows (r r' : Roster) : Prop where
  handle : ∀ k ∈ r.inserted, r'.handle k = r.handle k
  inserted : ∀ k ∈ r.inserted, k ∈ r'.inserted

lemma NamesRuntime.mono (h : NamesRuntime r i) (hr : RosterGrows r r') : NamesRuntime r' i := by
  cases i with
  | use runtime_handle k action => exact ⟨(hr.handle k h.2).trans h.1,hr.inserted k h.2⟩
  | lookupBuffer runtime_handle k event =>
    exact ⟨(hr.handle k h.2.1).trans h.1,hr.inserted k h.2.1,h.2.2⟩
  | registerBuffer k source event =>
    obtain ⟨hhandle,hk,hsource,hpermit⟩ := h
    exact ⟨by rw [hr.handle k hk,hr.handle source hsource,hhandle],hr.inserted k hk,
      hr.inserted source hsource,hpermit⟩
  | convert k event jni => exact ⟨hr.inserted k h.1,h.2⟩
  | _ => trivial

lemma rosterGrows_of_move (hm : RosterMove r i r' code) : RosterGrows r r' := by
  refine ⟨fun k _ => by rw [hm.handle],fun k hk => ?_⟩
  cases hm with
  | insertRuntime => exact List.mem_append_left _ hk
  | _ => exact hk

/-- The code of a step names what the instruction has named, or what it has looked up. -/
lemma namesRuntime_of_threadStep (h : ThreadStep p i (.next p' code)) (hi : NamesRuntime p.roster i)
    (hr : ∀ a k, p.runtimes.lookup a = some k → p.roster.handle k = a ∧ k ∈ p.roster.inserted) :
    ∀ j ∈ code, NamesRuntime p'.roster j := by
  have hgrows := rosterGrows_of_move (rosterMove_of_threadStep h)
  have hone : ∀ {j : ThreadInstr}, NamesRuntime p'.roster j →
      ∀ j' ∈ [j], NamesRuntime p'.roster j' := fun hj j' hj' => List.mem_singleton.mp hj' ▸ hj
  cases h with
  | found runtime_handle action k hl => exact hone (hr _ k hl)
  | foundBuffer runtime_handle source event k hl =>
    obtain ⟨hhandle,hk⟩ := hr _ k hl
    exact hone ⟨hhandle.trans hi.1.symm,hk,hi.2.1,hi.2.2⟩
  | received runtime_handle k jni event d i he hw hd hcode =>
    have hk : NamesRuntime _ (.use runtime_handle k (.poll jni)) := hi.mono hgrows
    obtain ⟨rfl,hpermit⟩ | ⟨rfl,hpermit⟩ := hcode
    · exact hone ⟨hk.1,hk.2,hpermit,hw⟩
    · exact hone ⟨hk.2,hpermit⟩
  | registerBuffer k source event ho =>
    obtain ⟨-,answer,rfl⟩ := roster_registerBuffer ho
    exact hone trivial
  | convert k event jni ho =>
    obtain ⟨-,answer,rfl⟩ := roster_convert ho
    exact hone trivial
  | settle | «return» => simp
  | _ => exact hone trivial

theorem namesRuntime_of_reachable (h : Process.Reachable ext ok c) :
    ∀ t, ∀ i ∈ c.tasks t, NamesRuntime c.shared.roster i := by
  refine h.induct (I := fun c => ∀ t, ∀ i ∈ c.tasks t, NamesRuntime c.shared.roster i)
    (fun t i hi => by cases hi) ?_
  intro l c c' hc ih _ hs
  have hinv := rosterInv_of_reachable hc
  cases l with
  | call n call =>
    simp only [Process.step] at hs
    split_ifs at hs with hn
    cases hs
    intro t i hi
    by_cases ht : t = .application n
    · subst ht
      simp only [Function.update_self] at hi
      cases call <;> (rw [List.mem_singleton.mp hi]; trivial)
    · simp only [Function.update_of_ne ht] at hi
      exact ih t i hi
  | runtime k l =>
    simp only [Process.step] at hs
    split_ifs at hs with hk
    obtain ⟨p,hp,rfl⟩ := Option.map_eq_some_iff.mp hs
    rw [deliveryStep_runtime hp]
    exact ih
  | thread t x =>
    refine (Machine.taskStep_of_stepTask (M := threads ext) hs).assertions
      (A := fun p _ i => NamesRuntime p.roster i) ih ?_ ?_ ?_
    · intro i rest p code head he
      have hmoves := threadStep_of he (by simp)
      have hgrows := rosterGrows_of_move (rosterMove_of_threadStep hmoves)
      refine ⟨namesRuntime_of_threadStep hmoves (ih t i (by simp [head])) fun a k hl => ?_,
        fun u j _ hj => hj.mono hgrows⟩
      obtain ⟨hhandle,hk,-⟩ := hinv.listed.registered a k hl
      exact ⟨hhandle,hk⟩
    · intro i rest p code child childCode head he
      obtain ⟨handle,configuration,certificate,rfl,rfl,rfl,rfl,rfl⟩ :=
        threadStep_fork (threadStep_of he (by simp))
      have hgrows : RosterGrows c.shared.roster
          (c.shared.spawned handle configuration certificate).roster := by
        rw [roster_spawned]
        refine ⟨fun k hk => ?_,fun k hk => hk⟩
        exact Function.update_of_ne (Nat.ne_of_lt (hinv.held.inserted_lt hk)) _ _
      refine ⟨fun j hj => ?_,fun j hj => ?_,fun u j _ hj => hj.mono hgrows⟩ <;>
        (rw [List.mem_singleton.mp hj]; trivial)
    · intro i rest p e head he
      cases e

end Names
section Deliveries
variable {p p' : Process} {i : ThreadInstr} {k j : ControllerRef} {code : List ThreadInstr}
  {d s : Delivery} {l : DeliveryLabel} {event : NativeEvent}

lemma step_runtime {l : Label} (hs : s.step (.runtime l) = some d) :
    d.handing = s.handing ∧ d.buffers = s.buffers := by
  obtain ⟨c,-,rfl⟩ := Option.map_eq_some_iff.mp hs
  exact ⟨rfl,rfl⟩

lemma step_requests (hl : l.requests = true) (hs : s.step l = some d) :
    d.handing = s.handing ∧ d.buffers = s.buffers := by
  cases l with
  | runtime l => exact step_runtime hs
  | wake =>
    cases hs
    exact ⟨rfl,rfl⟩
  | _ => cases hl

lemma step_releaseBuffer {buffer_handle : UInt64} (hs : s.step (.releaseBuffer buffer_handle) = some d) :
    d.handing = s.handing ∧ d.buffers = release_buffer buffer_handle s.buffers := by
  cases hs
  exact ⟨rfl,rfl⟩

lemma step_receive (he : s.runtime.shared.events[s.received]? = some event)
    (hs : s.step .receive = some d) : d.buffers = s.buffers ∧
      d.handing = if event.kind = WAKE then s.handing else s.handing ++ [event] := by
  simp only [Delivery.step,he] at hs
  split_ifs at hs with hw <;> cases hs
  · exact ⟨rfl,by rw [if_pos hw]; rfl⟩
  · exact ⟨rfl,by rw [if_neg hw]⟩

lemma getElem?_idxOf {event : NativeEvent} {events : List NativeEvent} (h : event ∈ events) :
    events[events.idxOf event]? = some event :=
  List.getElem?_eq_some_iff.mpr ⟨List.idxOf_lt_length_of_mem h,List.getElem_idxOf _⟩

lemma eraseIdx_idxOf (event : NativeEvent) (events : List NativeEvent) :
    events.eraseIdx (events.idxOf event) = events.erase event :=
  (List.erase_eq_eraseIdx_of_idxOf rfl).symm

lemma step_c (h : event ∈ s.handing) :
    s.step (.c (s.handing.idxOf event)) =
      some { s.dropPermit event.delivery_permit with handing := s.handing.erase event } := by
  simp only [Delivery.step,getElem?_idxOf h,eraseIdx_idxOf]

lemma step_jni (h : event ∈ s.handing) :
    s.step (.jni (s.handing.idxOf event)) =
      some { s.handOver event with handing := s.handing.erase event } := by
  simp only [Delivery.step,getElem?_idxOf h,eraseIdx_idxOf]

@[simp] lemma delivery_setDelivery (k : ControllerRef) (d : Delivery) (p : Process) :
    (p.setDelivery k d).delivery k = d := by
  simp only [Process.delivery,Process.setDelivery,Process.setController,Function.update_self]

/-- The other runtimes see the common counter move. -/
lemma delivery_setDelivery_of_ne (hj : j ≠ k) (d : Delivery) (p : Process) :
    (p.setDelivery k d).delivery j =
      { p.delivery j with buffers :=
          { (p.delivery j).buffers with next_buffer_handle := d.buffers.next_buffer_handle } } := by
  simp only [Process.delivery,Process.setDelivery,Process.setController,Function.update_of_ne hj]

/-- What a thread means to the runtimes: nothing, or a step of one of them. -/
inductive Feeds (p p' : Process) : Prop
  | none (h : ∀ j, p'.delivery j = p.delivery j)
  | step (k : ControllerRef) (l) (d) (hd : (p.delivery k).step l = some d)
      (h : ∀ j, p'.delivery j = (p.setDelivery k d).delivery j)

lemma feeds_deliveryStep (k : ControllerRef) (l : DeliveryLabel) (p : Process) :
    Feeds p ((p.deliveryStep k l).getD p) := by
  unfold Process.deliveryStep
  cases hd : (p.delivery k).step l with
  | none => exact .none fun _ => rfl
  | some d => exact .step k l d hd fun _ => rfl

lemma delivery_setController {f : Controller → Controller} (hf : ∀ c : Controller,
    (f c).runtime = c.runtime ∧ (f c).received = c.received ∧ (f c).handing = c.handing ∧
      (f c).buffers = c.buffers) (j : ControllerRef) :
    (p.setController k f).delivery j = p.delivery j := by
  obtain ⟨hruntime,hreceived,hhanding,hbuffers⟩ := hf (p.controller k)
  by_cases hj : j = k
  · subst hj
    simp only [Process.delivery,Process.setController,Function.update_self,hruntime,hreceived,
      hhanding,hbuffers]
  · simp only [Process.delivery,Process.setController,Function.update_of_ne hj]

/-- A message is registered with the runtime that it has been polled from. -/
lemma feeds_registerBuffer {code : List ThreadInstr} (hk : event ∈ (p.controller k).handing)
    (ho : registerBuffer k k event p = .next p' code) : Feeds p p' := by
  cases ho
  have hstep := step_jni (s := p.delivery k) hk
  refine .step k _ _ hstep fun j => ?_
  have herased : (p.setController k fun c => { c with
      handing := c.handing.erase event }).delivery k =
        { p.delivery k with handing := (p.delivery k).handing.erase event } := by
    simp only [Process.delivery,Process.setController,Function.update_self]
  change Process.delivery j (Process.setDelivery k _ _) = _
  rw [herased]
  by_cases hj : j = k
  · subst hj
    rw [delivery_setDelivery,delivery_setDelivery]
    rfl
  · rw [delivery_setDelivery_of_ne hj,delivery_setDelivery_of_ne hj]
    simp only [Process.delivery,Process.setController,Function.update_of_ne hj]
    rfl

lemma feeds_of_threadStep (h : ThreadStep p i (.next p' code))
    (hk : ∀ k source event, i = .registerBuffer k source event →
      k = source ∧ event ∈ (p.controller source).handing) : Feeds p p' := by
  cases h with
  | settle | tryPorts =>
    exact .none (delivery_setController fun _ => ⟨rfl,rfl,rfl,rfl⟩)
  | dropped | shutdown => exact feeds_deliveryStep _ _ _
  | request runtime_handle k action l d answer hl hd => exact .step k l d hd fun _ => rfl
  | release runtime_handle k buffer_handle d hd => exact .step k _ d hd fun _ => rfl
  | woken runtime_handle k jni event d answer he hw hd => exact .step k _ d hd fun _ => rfl
  | received runtime_handle k jni event d i he hw hd hi => exact .step k _ d hd fun _ => rfl
  | registerBuffer k source event ho =>
    obtain ⟨rfl,hmem⟩ := hk k source event rfl
    exact feeds_registerBuffer hmem ho
  | convert k event jni ho =>
    unfold convert at ho
    split_ifs at ho <;> cases ho
    · exact feeds_deliveryStep _ _ _
    · exact feeds_deliveryStep _ _ _
  | _ => exact .none fun _ => rfl

/-- The instruction has the event of the runtime in hand. -/
def ThreadInstr.hands (k : ControllerRef) (event : NativeEvent) : ThreadInstr → ℕ
  | .lookupBuffer _ source e | .registerBuffer _ source e | .convert source e _ =>
    if source = k ∧ e = event then 1 else 0
  | _ => 0

/-- How often the event is being handed over. -/
def Process.handed (k : ControllerRef) (event : NativeEvent) (p : Process) : ℕ :=
  (p.controller k).handing.count event

lemma handed_setDelivery (k j : ControllerRef) (event : NativeEvent) (d : Delivery) (p : Process) :
    (p.setDelivery k d).handed j event =
      if j = k then d.handing.count event else p.handed j event := by
  simp only [Process.handed,Process.setDelivery,Process.setController,Function.update]
  split_ifs with hj
  · subst hj
    rfl
  · rfl

lemma handed_setController {f : Controller → Controller}
    (hf : ∀ c : Controller, (f c).handing = c.handing) (j : ControllerRef) (event : NativeEvent) :
    (p.setController k f).handed j event = p.handed j event := by
  simp only [Process.handed,Process.setController,Function.update]
  split_ifs with hj
  · subst hj
    rw [hf]
  · rfl

lemma handed_record (f : ProcessHistory → ProcessHistory) (p : Process) (j : ControllerRef)
    (event : NativeEvent) : (p.record f).handed j event = p.handed j event := rfl

lemma handed_same (hd : d.handing = (p.delivery k).handing) (j : ControllerRef)
    (event : NativeEvent) : (p.setDelivery k d).handed j event = p.handed j event := by
  rw [handed_setDelivery,hd]
  split_ifs with hj
  · subst hj
    rfl
  · rfl

/-- An event that is converted or dropped is not in hand any more. -/
lemma handed_erase {p'' : Process} (source : ControllerRef) (event : NativeEvent)
    (hmem : event ∈ (p.controller source).handing)
    (hp : ∀ j, (p''.controller j).handing =
      if j = source then (p.controller source).handing.erase event else (p.controller j).handing)
    (j : ControllerRef) (e : NativeEvent) :
    p.handed j e = (if source = j ∧ event = e then 1 else 0)+p''.handed j e := by
  simp only [Process.handed,hp]
  by_cases hj : j = source
  · subst hj
    rw [if_pos rfl]
    by_cases he : event = e
    · subst he
      have hpos : 0 < (p.controller j).handing.count event := List.count_pos_iff.mpr hmem
      rw [List.count_erase_self,if_pos ⟨rfl,rfl⟩]
      omega
    · rw [List.count_erase_of_ne (Ne.symm he),if_neg fun h => he h.2]
      omega
  · rw [if_neg hj,if_neg fun h => hj h.1.symm]
    omega

lemma handing_deliveryStep {l : DeliveryLabel} (hd : (p.delivery k).step l = some d)
    (hh : d.handing = (p.controller k).handing.erase event) (j : ControllerRef) :
    (((p.deliveryStep k l).getD p).controller j).handing =
      if j = k then (p.controller k).handing.erase event else (p.controller j).handing := by
  simp only [Process.deliveryStep,hd,Option.map_some,Option.getD_some,Process.setDelivery,
    Process.setController,Function.update]
  split_ifs with hj
  · subst hj
    exact hh
  · rfl

lemma handed_registerBuffer (source : ControllerRef)
    (ho : registerBuffer k source event p = .next p' code) (j : ControllerRef) :
    (p'.controller j).handing =
      if j = source then (p.controller source).handing.erase event
      else (p.controller j).handing := by
  cases ho
  simp only [Process.record,Process.setDelivery,Process.setController,Process.delivery,
    Delivery.handOver,Delivery.dropPermit,Function.update]
  by_cases hj : j = k
  · subst hj
    by_cases hs : j = source
    · subst hs
      simp
    · simp [hs]
  · by_cases hs : j = source
    · subst hs
      simp [hj]
    · simp [hj,hs]

/-- What is in hand is with a thread. -/
lemma handed_of_threadStep (h : ThreadStep p i (.next p' code)) (j : ControllerRef) (e : NativeEvent)
    (hi : ∀ j e, i.hands j e ≤ p.handed j e) :
    weight (ThreadInstr.hands j e) code+p.handed j e ≤ i.hands j e+p'.handed j e := by
  have hmem : ∀ source event, i.hands source event = 1 → event ∈ (p.controller source).handing :=
    fun source event h1 =>
      List.count_pos_iff.mp (Nat.lt_of_lt_of_le (by omega) (hi source event))
  cases h with
  | settle | tryPorts =>
    rw [handed_setController]
    · simp [ThreadInstr.hands]
    · exact fun _ => rfl
  | dropped runtime_handle source event answer =>
    have hin := hmem source event (if_pos ⟨rfl,rfl⟩)
    have herase := handed_erase source event hin
      (handing_deliveryStep (step_c (s := p.delivery source) hin) rfl) j e
    change weight _ _ + _ ≤ _+(Process.handed j e ((p.deliveryStep source
      (.c ((p.delivery source).handing.idxOf event))).getD p))
    simp only [weight_cons,weight_nil,ThreadInstr.hands]
    omega
  | shutdown k =>
    unfold Process.deliveryStep
    cases hd : (p.delivery k).step (.runtime (.submit releaseCommand)) with
    | none => simp [ThreadInstr.hands]
    | some d =>
      simp only [Option.map_some,Option.getD_some]
      rw [handed_same (step_requests rfl hd).1]
      simp [ThreadInstr.hands]
  | request runtime_handle k action l d answer hl hd =>
    rw [handed_same (step_requests hl hd).1]
    simp [ThreadInstr.hands]
  | release runtime_handle k buffer_handle d hd =>
    rw [handed_record,handed_same (step_releaseBuffer hd).1]
    simp [ThreadInstr.hands]
  | woken runtime_handle k jni event d answer he hw hd =>
    have hhanding := (step_receive he hd).2
    rw [if_pos hw] at hhanding
    rw [handed_same hhanding]
    simp [ThreadInstr.hands]
  | received runtime_handle k jni event d i he hw hd hnext =>
    have hhanding := (step_receive he hd).2
    rw [if_neg hw] at hhanding
    have hcode : weight (ThreadInstr.hands j e) [i] = if k = j ∧ event = e then 1 else 0 := by
      obtain ⟨rfl,-⟩ | ⟨rfl,-⟩ := hnext <;> simp [ThreadInstr.hands]
    rw [hcode,handed_setDelivery,hhanding,List.count_append,List.count_singleton]
    by_cases hj : j = k
    · subst hj
      rw [if_pos rfl]
      by_cases hev : event = e
      · subst hev
        simp [ThreadInstr.hands,Process.handed,Process.delivery,Nat.add_comm]
      · simp [ThreadInstr.hands,Process.handed,Process.delivery,hev]
    · rw [if_neg hj,if_neg fun hk => hj hk.1.symm]
      simp [ThreadInstr.hands]
  | registerBuffer k source event ho =>
    obtain ⟨-,answer,rfl⟩ := roster_registerBuffer ho
    have hin := hmem source event (if_pos ⟨rfl,rfl⟩)
    have herase := handed_erase source event hin (handed_registerBuffer source ho) j e
    simp only [weight_cons,weight_nil,ThreadInstr.hands]
    omega
  | convert k event jni ho =>
    have hin := hmem k event (if_pos ⟨rfl,rfl⟩)
    unfold convert at ho
    split_ifs at ho <;> cases ho
    · have herase := handed_erase k event hin
        (handing_deliveryStep (step_jni (s := p.delivery k) hin) rfl) j e
      change weight _ _ + _ ≤ _+(Process.handed j e ((p.deliveryStep k
        (.jni ((p.delivery k).handing.idxOf event))).getD p))
      simp only [weight_cons,weight_nil,ThreadInstr.hands]
      omega
    · have herase := handed_erase k event hin
        (handing_deliveryStep (step_c (s := p.delivery k) hin) rfl) j e
      change weight _ _ + _ ≤ _+(Process.handed j e ((p.deliveryStep k
        (.c ((p.delivery k).handing.idxOf event))).getD p))
      simp only [weight_cons,weight_nil,ThreadInstr.hands]
      omega
  | foundBuffer | «return» => simp [ThreadInstr.hands,weight]
  | quit answer hi =>
    cases i with
    | create | spawn | getRuntime | use | remove => simp [ThreadInstr.hands]
    | _ => cases hi
  | _ => simp [ThreadInstr.hands,Process.handed,Process.record]

end Deliveries
section Projection
variable {ext : Externals} {ok : ProcessLabel → ProcessConfig → Prop} {l : ProcessLabel}
  {c c' : ProcessConfig} {p p' : Process} {i : ThreadInstr} {t : ThreadId} {k : ControllerRef}
  {event : NativeEvent} {code : List ThreadInstr}

lemma hands_eq_zero {r : Roster} (h : NamesRuntime r i) (hk : k ∉ r.inserted) :
    i.hands k event = 0 := by
  have hne : ∀ {source} {e : NativeEvent}, source ∈ r.inserted → ¬(source = k ∧ e = event) := by
    rintro source e hs ⟨rfl,-⟩
    exact hk hs
  cases i with
  | lookupBuffer a source e => exact if_neg (hne h.2.1)
  | registerBuffer a source e => exact if_neg (hne h.2.2.1)
  | convert source e jni => exact if_neg (hne h.1)
  | _ => rfl

/-- The events that a runtime of the process hands over. -/
def Process.inHand (k : ControllerRef) (event : NativeEvent) (p : Process) : ℕ :=
  if k < p.nextController then p.handed k event else 0

/-- A step of a thread takes in hand what is handed over. -/
lemma inHand_covered (h : ThreadStep p i (.next p' code)) (hnames : NamesRuntime p.roster i)
    (hinv : ∀ a k, p.runtimes.lookup a = some k →
      p.roster.handle k = a ∧ k ∈ p.roster.inserted)
    (hlt : ∀ k ∈ p'.roster.inserted, k < p'.nextController)
    (hi : ∀ k event, i.hands k event ≤ p.inHand k event) (k : ControllerRef)
    (event : NativeEvent) :
    weight (ThreadInstr.hands k event) code+p.inHand k event ≤
      i.hands k event+p'.inHand k event := by
  have hnext : p'.nextController = p.nextController := (rosterMove_of_threadStep h).nextController
  by_cases hk : k < p.nextController
  · have hcovered := handed_of_threadStep h k event fun j e => (hi j e).trans (by
      unfold Process.inHand
      split_ifs
      · exact le_rfl
      · exact Nat.zero_le _)
    simpa only [Process.inHand,hnext,if_pos hk] using hcovered
  · have hcode : weight (ThreadInstr.hands k event) code = 0 := by
      apply weight_eq_zero
      intro j hj
      refine hands_eq_zero (namesRuntime_of_threadStep h hnames hinv j hj) fun hm => ?_
      exact hk (hnext ▸ hlt k hm)
    simp only [Process.inHand,hnext,if_neg hk,hcode]
    omega

/-- Every event in hand is with one thread at most. -/
theorem inHand_of_reachable (h : Process.Reachable ext ok c) : ∀ k event,
    Within (ThreadInstr.hands k event) c.tasks 0 (c.shared.inHand k event) := by
  refine h.induct (I := fun c => ∀ k event,
    Within (ThreadInstr.hands k event) c.tasks 0 (c.shared.inHand k event))
    (fun _ _ => .of_idle (fun _ => rfl) (Nat.zero_le _)) ?_
  intro l c c' hc ih hok hs k event
  have hinv := rosterInv_of_reachable hc
  have hinv' := rosterInv_of_reachable (hc.tail ⟨l,hok,hs⟩)
  have hnames := namesRuntime_of_reachable hc
  cases l with
  | call n call =>
    simp only [Process.step] at hs
    split_ifs at hs with hn
    cases hs
    apply (ih k event).update
    rw [hn]
    cases call <;> exact le_rfl
  | runtime j l =>
    simp only [Process.step] at hs
    split_ifs at hs with hj
    obtain ⟨p,hp,rfl⟩ := Option.map_eq_some_iff.mp hs
    obtain ⟨d,hd,rfl⟩ := deliveryStep_some hp
    have hsame := handed_same (step_runtime hd).1 k event
    change Within _ c.tasks 0 (if k < c.shared.nextController then
      (c.shared.setDelivery j d).handed k event else 0)
    rw [hsame]
    exact ih k event
  | thread t x =>
    have hstep := Machine.taskStep_of_stepTask (M := threads ext) hs
    refine @Machine.TaskStep.within _ _ _ _ _ _ (threads ext) (ThreadInstr.hands k event)
      (fun _ => 0) (Process.inHand k event) (fun _ _ _ hcode => by cases hcode)
        (fun _ _ => ⟨rfl,rfl⟩) _ _ _ _ hstep ?_ ?_ (ih k event)
    · intro i p code child childCode he
      obtain ⟨handle,configuration,certificate,rfl,rfl,rfl,rfl,rfl⟩ :=
        threadStep_fork (threadStep_of he (by simp))
      exact (hinv.held.fresh c.shared.nextController le_rfl).1
    · intro i rest head
      have hmem : i ∈ c.tasks t := by simp [head]
      cases he : (threads ext).exec x t i c.shared with
      | blocked => trivial
      | throw p e => cases e
      | next p code =>
        have hmoves := threadStep_of he (by simp)
        have hheld := hinv.held.thread head (rosterMove_of_threadStep hmoves)
        have hlt : ∀ k ∈ p.roster.inserted, k < p.nextController := fun k hk => hheld.inserted_lt hk
        have hcovered := inHand_covered hmoves (hnames t i hmem)
          (fun a k hl => ⟨(hinv.listed.registered a k hl).1,(hinv.listed.registered a k hl).2.1⟩)
          hlt (fun k event => (ih k event).mem hmem) k event
        simpa [Machine.Covers] using hcovered
      | fork p code child childCode =>
        have hmoves := threadStep_of he (by simp)
        obtain ⟨handle,configuration,certificate,rfl,rfl,rfl,rfl,rfl⟩ := threadStep_fork hmoves
        have hgrows : c.shared.inHand k event ≤
            (c.shared.spawned handle configuration certificate).inHand k event := by
          by_cases hk : k < c.shared.nextController
          · have hne : k ≠ c.shared.nextController := Nat.ne_of_lt hk
            have hk' : k < c.shared.nextController+1 := Nat.lt_succ_of_lt hk
            simp only [Process.inHand,Process.spawned,Process.record,Process.handed,if_pos hk,
              if_pos hk',Function.update_of_ne hne]
            exact le_rfl
          · simp only [Process.inHand,if_neg hk]
            exact Nat.zero_le _
        simp only [Machine.Covers,weight_cons,weight_nil,ThreadInstr.hands]
        omega

/-- The runtime is in a state that it could reach by itself. -/
def Process.Alone (k : ControllerRef) (p : Process) : Prop :=
  ∃ certificate, Delivery.Reachable certificate (fun _ _ => True) (p.delivery k)

/-- A new runtime finds the counter where the others have moved it. -/
lemma reachable_elsewhere (certificate : RTCCertificate) (n : ℕ) :
    Delivery.Reachable certificate (fun _ _ => True)
      { Delivery.init certificate with
        buffers := { next_buffer_handle := UInt64.ofNat (n+1) } } := by
  induction n with
  | zero => exact .refl
  | succ n ih =>
    refine ih.tail ⟨.elsewhere,trivial,?_⟩
    simp only [Delivery.step,Option.some.injEq]
    rw [UInt64.ofNat_add (n+1) 1,UInt64.ofNat_one]

lemma alone_spawned (handle : UInt64) (configuration : RuntimeConfiguration)
    (certificate : RTCCertificate) (p : Process) :
    (p.spawned handle configuration certificate).Alone p.nextController := by
  have hreach := reachable_elsewhere certificate (p.next_buffer_handle-1).toNat
  have hnext : UInt64.ofNat ((p.next_buffer_handle-1).toNat+1) = p.next_buffer_handle := by
    rw [UInt64.ofNat_add,UInt64.ofNat_toNat,UInt64.ofNat_one]
    exact UInt64.sub_add_cancel _ _
  rw [hnext] at hreach
  refine ⟨certificate,?_⟩
  have hdelivery : (p.spawned handle configuration certificate).delivery p.nextController =
      { Delivery.init certificate with
        buffers := { next_buffer_handle := p.next_buffer_handle } } := by
    simp only [Process.delivery,Process.spawned,Process.record,Function.update_self]
    rfl
  rwa [hdelivery]

/-- A step of a runtime takes one buffer handle at most. -/
lemma next_buffer_handle_step {s d : Delivery} {l : DeliveryLabel} (hs : s.step l = some d) :
    d.buffers.next_buffer_handle = s.buffers.next_buffer_handle ∨
      d.buffers.next_buffer_handle = s.buffers.next_buffer_handle+1 := by
  cases l with
  | runtime l => exact .inl (by rw [(step_runtime hs).2])
  | wake | releaseBuffer =>
    cases hs
    exact .inl rfl
  | elsewhere =>
    cases hs
    exact .inr rfl
  | receive =>
    simp only [Delivery.step] at hs
    split at hs
    · cases hs
    · split_ifs at hs <;> cases hs <;> exact .inl rfl
  | c n =>
    simp only [Delivery.step] at hs
    split at hs <;> cases hs
    exact .inl rfl
  | jni n =>
    simp only [Delivery.step] at hs
    split at hs <;> cases hs
    next event _ =>
    change (nativePollRuntimeEvent (.event event) s.buffers).2.next_buffer_handle = _ ∨
      (nativePollRuntimeEvent (.event event) s.buffers).2.next_buffer_handle = _
    unfold nativePollRuntimeEvent
    split
    · exact .inl rfl
    · split
      · exact .inl rfl
      · exact .inr rfl

lemma alone_of_feeds (h : Feeds p p') (hk : p.Alone k) : p'.Alone k := by
  obtain ⟨certificate,hreach⟩ := hk
  refine ⟨certificate,?_⟩
  cases h with
  | none hsame => rwa [hsame k]
  | step j l d hd hsame =>
    rw [hsame k]
    by_cases hj : k = j
    · subst hj
      rw [delivery_setDelivery]
      exact hreach.tail ⟨l,trivial,hd⟩
    · rw [delivery_setDelivery_of_ne hj]
      have hcounter : (p.delivery j).buffers.next_buffer_handle =
        (p.delivery k).buffers.next_buffer_handle := rfl
      obtain hnext | hnext := next_buffer_handle_step hd
      · rw [hnext,hcounter]
        exact hreach
      · rw [hnext,hcounter]
        exact hreach.tail ⟨.elsewhere,trivial,rfl⟩

/-- What is pending names the runtime that its event is from. -/
lemma source_of_pending (h : Process.Reachable ext ok c)
    (hn : c.shared.history.allocated.length < 2^64) {source : ControllerRef}
    (hi : .registerBuffer k source event ∈ c.tasks t) :
    k = source ∧ event ∈ (c.shared.controller source).handing := by
  have hinv := rosterInv_of_reachable h
  obtain ⟨hhandle,hk,hsource,-⟩ := namesRuntime_of_reachable h t _ hi
  have hlt := hinv.held.inserted_lt hsource
  refine ⟨hinv.drawn.distinct hn (hinv.held.inserted_lt hk) hlt hhandle,?_⟩
  have hle := (inHand_of_reachable h source event).mem hi
  have hlt' : source < c.shared.nextController := hlt
  simp only [ThreadInstr.hands,and_self,if_true,Process.inHand,if_pos hlt'] at hle
  exact List.count_pos_iff.mp (Nat.lt_of_lt_of_le Nat.zero_lt_one hle)

lemma alone_of_reachable (h : Process.Reachable ext ok c)
    (hn : c.shared.history.allocated.length < 2^64) :
    ∀ k, k < c.shared.nextController → c.shared.Alone k := by
  refine h.induct (I := fun c => c.shared.history.allocated.length < 2^64 →
    ∀ k, k < c.shared.nextController → c.shared.Alone k) (fun _ k hk => absurd hk (Nat.not_lt_zero k))
    ?_ hn
  intro l c c' hc ih hok hs hn k hk
  cases l with
  | call n call =>
    simp only [Process.step] at hs
    split_ifs at hs with hidle
    cases hs
    exact ih hn k hk
  | runtime j l =>
    simp only [Process.step] at hs
    split_ifs at hs with hj
    obtain ⟨p,hp,rfl⟩ := Option.map_eq_some_iff.mp hs
    have hroster := deliveryStep_runtime hp
    obtain ⟨d,hd,rfl⟩ := deliveryStep_some hp
    exact alone_of_feeds (.step j _ d hd fun _ => rfl) (ih hn k hk)
  | thread t x =>
    cases Machine.taskStep_of_stepTask (M := threads ext) hs with
    | @next i rest p code head he =>
      have hmoves := threadStep_of he (by simp)
      have hmove := rosterMove_of_threadStep hmoves
      have hn' : c.shared.history.allocated.length < 2^64 := hmove.allocated.trans_lt hn
      have hk' : k < c.shared.roster.nextController := by
        rw [← hmove.nextController]
        exact hk
      refine alone_of_feeds (feeds_of_threadStep hmoves ?_) (ih hn' k hk')
      rintro a source event rfl
      exact source_of_pending hc hn' (t := t) (by simp [head])
    | @fork i rest p code child childCode head he =>
      obtain ⟨handle,configuration,certificate,rfl,rfl,rfl,rfl,rfl⟩ :=
        threadStep_fork (threadStep_of he (by simp))
      obtain hlt | heq := Nat.lt_succ_iff_lt_or_eq.mp hk
      · have hsame : (c.shared.spawned handle configuration certificate).delivery k =
            c.shared.delivery k := by
          simp only [Process.delivery,Process.spawned,Process.record,
            Function.update_of_ne (Nat.ne_of_lt hlt)]
        obtain ⟨certificate',hreach⟩ := ih hn k hlt
        exact ⟨certificate',by rwa [hsame]⟩
      · rw [heq]
        exact alone_spawned handle configuration certificate c.shared
    | @throw i rest p e head he => cases e

/-- Each runtime of a process is in a state that it reaches alone, with its own polls, whatever the
other runtimes and the threads of the application do. A buffer is registered only with the runtime
that has handed the event over. -/
theorem runtimes_alone (h : Process.Reachable ext ok c)
    (hn : c.shared.history.allocated.length < 2^64) :
    (∀ k, k < c.shared.nextController → c.shared.Alone k) ∧
      ∀ t k source event, .registerBuffer k source event ∈ c.tasks t →
        k = source ∧ event ∈ (c.shared.controller source).handing :=
  ⟨alone_of_reachable h hn,fun _ _ _ _ => source_of_pending h hn⟩

end Projection
section Witness

def plainExternals : Externals :=
  ⟨"",fun _ => .error "invalid IP address syntax",fun _ _ => .ok ()⟩

def plainRuntime : RuntimeConfiguration where
  worker_threads := 2
  reactor_threads := 1
  certificate_pem := none
  shared_udp_addresses := []
  shared_tcp_addresses := []
  shared_min_port := 0
  shared_max_port := 0

/-- A thread of the application makes a call of so many steps. -/
def calling (n : ℕ) (call : Call) (steps : ℕ) : List ProcessLabel :=
  .call n call :: List.replicate steps (.thread (.application n) .ok)

/-- A thread of the application creates the controller `k`. -/
def creating (n : ℕ) (k : ControllerRef) : List ProcessLabel :=
  [.call n (.create plainRuntime),.thread (.application n) (.certificate (.ok ⟨"",[]⟩)),
    .thread (.application n) .ok,.thread (.application n) .ok,.thread (.controller k) .ok,
    .thread (.application n) .ok,.thread (.application n) .ok,.thread (.application n) .ok]

/-- Two runtimes are created. The first one gets a channel and a message, which the JVM polls. -/
def processRun : List ProcessLabel :=
  creating 0 0 ++ creating 1 1 ++ calling 0 (.use 1 (.submit twoPortsCommand)) 3 ++
    (Delivery.openingRun.tail.map (.runtime 0)) ++
    [.runtime 0 (.task 2 .ok),.runtime 0 (.task 3 (.event (some (.onMessage false [104,105])))),
      .runtime 0 (.task 3 .ok)] ++
    calling 0 (.use 1 (.poll true)) 4 ++ calling 0 (.use 1 (.poll true)) 4 ++
    calling 0 (.use 1 (.poll true)) 5

/-- The thread is going to register the buffer of the message with the first runtime. -/
def registering (c : ProcessConfig) : Bool :=
  match c.tasks (.application 0) with
  | [.registerBuffer 0 0 _] => true
  | _ => false

theorem runtimes_alone_two : ∃ c d event, Process.Reachable plainExternals (fun _ _ => True) c ∧
    c.tasks (.application 0) = [.registerBuffer 0 0 event] ∧
      event ∈ (c.shared.controller 0).handing ∧
    Process.Reachable plainExternals (fun _ _ => True) d ∧
      (d.shared.nextController,d.shared.next_buffer_handle) = (2,2) ∧
        ∀ k, k < d.shared.nextController → d.shared.Alone k := by
  have hpending : (Interleaving.run (Process.step plainExternals)
      (processRun.take (processRun.length-2)) Process.init).map (fun c =>
        (c.shared.history.allocated.length,registering c)) = some (2,true) := by rfl
  have hrun : (Interleaving.run (Process.step plainExternals) processRun Process.init).map (fun c =>
      (c.shared.history.allocated.length,c.shared.nextController,c.shared.next_buffer_handle)) =
      some (2,2,2) := by rfl
  obtain ⟨c,hc,hseen⟩ := Option.map_eq_some_iff.mp hpending
  obtain ⟨hcount,hregistering⟩ := Prod.mk.inj hseen
  obtain ⟨d,hd,hseen⟩ := Option.map_eq_some_iff.mp hrun
  obtain ⟨hallocated,hseen⟩ := Prod.mk.inj hseen
  have hreach : Process.Reachable plainExternals (fun _ _ => True) c :=
    reaches_of_run hc fun _ _ _ => trivial
  have hafter : Process.Reachable plainExternals (fun _ _ => True) d :=
    reaches_of_run hd fun _ _ _ => trivial
  unfold registering at hregistering
  split at hregistering
  · next event hcode =>
    have hsource := (runtimes_alone hreach (by rw [hcount]; decide)).2 (.application 0) 0 0 event
      (by simp [hcode])
    exact ⟨c,d,event,hreach,hcode,hsource.2,hafter,hseen,
      (runtimes_alone hafter (by rw [hallocated]; decide)).1⟩
  · cases hregistering

end Witness
end Kestara.Native
