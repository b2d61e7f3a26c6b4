import Kestara.Native.ProcessRuntimes

/-!
# The buffers that the JVM sees

The runtimes of a process draw the handles of their buffers from one counter. A direct buffer shows
the bytes of its message until it is released through its own runtime.
-/
namespace Kestara.Native
open Interleaving

section Steps
variable {p p' : Process} {i : ThreadInstr} {k j : ControllerRef} {code : List ThreadInstr}
  {d : Delivery} {event : NativeEvent}

/-- The buffers that a runtime of the process holds. -/
def Process.buffersOf (p : Process) (k : ControllerRef) : LinkedMap UInt64 NativeBufferEntry :=
  (p.controller k).buffers

lemma buffersOf_setDelivery (k : ControllerRef) (d : Delivery) (p : Process) :
    (p.setDelivery k d).buffersOf = Function.update p.buffersOf k d.buffers.buffers := by
  funext j
  simp only [Process.buffersOf,Process.setDelivery,Process.setController,Function.update]
  split_ifs with hj
  · subst hj
    rfl
  · rfl

lemma buffersOf_setController {f : Controller → Controller}
    (hf : ∀ c : Controller, (f c).buffers = c.buffers) (k : ControllerRef) (p : Process) :
    (p.setController k f).buffersOf = p.buffersOf := by
  funext j
  simp only [Process.buffersOf,Process.setController,Function.update]
  split_ifs with hj
  · subst hj
    exact hf _
  · rfl

/-- What a step does to the buffers: nothing, drop one, or enter the next one. -/
inductive ViewStep (p p' : Process) : Prop
  | keep (hb : p'.buffersOf = p.buffersOf) (hn : p'.next_buffer_handle = p.next_buffer_handle)
      (hv : p'.history.views = p.history.views) (hf : p'.history.freed = p.history.freed)
  | free (k : ControllerRef) (handle : UInt64)
      (hb : p'.buffersOf = Function.update p.buffersOf k ((p.buffersOf k).erase handle))
      (hn : p'.next_buffer_handle = p.next_buffer_handle)
      (hv : p'.history.views = p.history.views)
      (hf : p'.history.freed = p.history.freed ++ [(k,handle)])
  | enter (k : ControllerRef) (entry : NativeBufferEntry) (hk : k ∈ p.history.inserted)
      (hb : p'.buffersOf = Function.update p.buffersOf k
        ((p.buffersOf k).insert p.next_buffer_handle entry))
      (hn : p'.next_buffer_handle = p.next_buffer_handle+1)
      (hv : p'.history.views = p.history.views ++
        [(k,⟨p.next_buffer_handle,entry.data.length⟩,entry.data)])
      (hf : p'.history.freed = p.history.freed)

lemma viewStep_setDelivery (hd : d.buffers = (p.delivery k).buffers) :
    ViewStep p (p.setDelivery k d) := by
  refine .keep ?_ ?_ rfl rfl
  · rw [buffersOf_setDelivery,hd]
    exact Function.update_eq_self k p.buffersOf
  · change d.buffers.next_buffer_handle = _
    rw [hd]
    rfl

lemma viewStep_deliveryStep {l : DeliveryLabel}
    (hl : ∀ d, (p.delivery k).step l = some d → d.buffers = (p.delivery k).buffers) :
    ViewStep p ((p.deliveryStep k l).getD p) := by
  unfold Process.deliveryStep
  cases hd : (p.delivery k).step l with
  | none => exact .keep rfl rfl rfl rfl
  | some d => exact viewStep_setDelivery (hl d hd)

lemma step_dropped {s d : Delivery} {n : ℕ} (hs : s.step (.c n) = some d) :
    d.buffers = s.buffers := by
  simp only [Delivery.step] at hs
  split at hs <;> cases hs
  rfl

/-- An event without a permit needs no buffer. -/
lemma step_converted {s d : Delivery} (hs : s.step (.jni (s.handing.idxOf event)) = some d)
    (hp : event.delivery_permit = none) : d.buffers = s.buffers := by
  simp only [Delivery.step] at hs
  cases hevent : s.handing[s.handing.idxOf event]? with
  | none => simp [hevent] at hs
  | some e =>
    obtain ⟨hlt,he⟩ := List.getElem?_eq_some_iff.mp hevent
    have hsame : e = event := he.symm.trans (List.getElem_idxOf hlt)
    subst hsame
    simp only [hevent,Option.some.injEq] at hs
    subst hs
    change (nativePollRuntimeEvent (.event e) s.buffers).2 = s.buffers
    unfold nativePollRuntimeEvent
    split
    · rfl
    · simp only [poll] at *
      split_ifs at * <;> simp_all

lemma viewStep_registerBuffer {source : ControllerRef} (hk : k ∈ p.history.inserted)
    (hp : event.delivery_permit.isSome = true) (hw : event.kind ≠ WAKE)
    (ho : registerBuffer k source event p = .next p' code) : ViewStep p p' := by
  obtain ⟨permit,hpermit⟩ := Option.isSome_iff_exists.mp hp
  have herased : (p.setController source fun c => { c with
      handing := c.handing.erase event }).buffersOf = p.buffersOf := by
    apply buffersOf_setController
    exact fun _ => rfl
  have hover : ∀ s : Delivery, (s.handOver event).buffers =
      (register_buffer (event.data.getD []) (some permit) s.buffers).2 := by
    intro s
    change (nativePollRuntimeEvent (.event event) s.buffers).2 = _
    simp only [nativePollRuntimeEvent,poll,if_pos hw,hpermit]
    rfl
  cases ho
  refine .enter k ⟨event.data.getD [],some permit⟩ hk ?_ ?_ ?_ rfl
  · refine (buffersOf_setDelivery k _ _).trans ?_
    rw [hover,herased]
    congr 1
    change ((p.setController source _).buffersOf k).insert _ _ = _
    rw [herased]
    rfl
  · change ((Delivery.handOver event _).buffers).next_buffer_handle = _
    rw [hover]
    rfl
  · rfl

lemma viewStep_of_threadStep (h : ThreadStep p i (.next p' code)) (hi : NamesRuntime p.roster i) :
    ViewStep p p' := by
  have hsame : ∀ (f : Controller → Controller) k, (∀ c : Controller, (f c).buffers = c.buffers) →
      ViewStep p (p.setController k f) := fun f k hf =>
    .keep (buffersOf_setController hf k p) rfl rfl rfl
  cases h with
  | settle | tryPorts => exact hsame _ _ fun _ => rfl
  | dropped => exact viewStep_deliveryStep fun d hd => step_dropped hd
  | shutdown => exact viewStep_deliveryStep fun d hd => (step_runtime hd).2
  | request runtime_handle k action l d answer hl hd =>
    exact viewStep_setDelivery (step_requests hl hd).2
  | release runtime_handle k buffer_handle d hd =>
    have hbuffers := (step_releaseBuffer hd).2
    refine .free k buffer_handle ?_ ?_ rfl rfl
    · refine (buffersOf_setDelivery k d p).trans ?_
      rw [hbuffers]
      rfl
    · change d.buffers.next_buffer_handle = _
      rw [hbuffers]
      rfl
  | woken runtime_handle k jni event d answer he hw hd =>
    exact viewStep_setDelivery (step_receive he hd).1
  | received runtime_handle k jni event d i he hw hd hnext =>
    exact viewStep_setDelivery (step_receive he hd).1
  | registerBuffer k source event ho =>
    obtain ⟨-,hk,-,hp,hw⟩ := hi
    exact viewStep_registerBuffer hk hp hw ho
  | convert k event jni ho =>
    unfold convert at ho
    split_ifs at ho with hjni <;> cases ho
    · exact viewStep_deliveryStep fun d hd => step_converted hd (hi.2 hjni)
    · exact viewStep_deliveryStep fun d hd => step_dropped hd
  | _ => exact .keep rfl rfl rfl rfl

end Steps
section Views
variable {ext : Externals} {ok : ProcessLabel → ProcessConfig → Prop} {c : ProcessConfig}
  {p p' : Process}

/-- The buffers that have been entered, and those of them that must still be there. -/
structure ViewInv (p : Process) : Prop where
  counted : p.history.views.map (·.2.1.handle) = firstHandles p.history.views.length
  next : p.next_buffer_handle = UInt64.ofNat (p.history.views.length+1)
  held : p.history.views.length < 2^64 → ∀ k view data, (k,view,data) ∈ p.history.views →
    k < p.nextController ∧ ((k,view.handle) ∉ p.history.freed →
      view.length = data.length ∧
        ((p.buffersOf k).lookup view.handle).map (·.data) = some data)

/-- The next handle has not been given to a buffer yet. -/
lemma ViewInv.fresh (h : ViewInv p) (hn : p.history.views.length+1 < 2^64) {k : ControllerRef}
    {view : NativeBufferView} {data : List UInt8} (hv : (k,view,data) ∈ p.history.views) :
    view.handle ≠ p.next_buffer_handle := by
  have hmem : view.handle ∈ firstHandles p.history.views.length := by
    rw [← h.counted]
    exact List.mem_map.mpr ⟨_,hv,rfl⟩
  have hnodup := nodup_firstHandles hn
  rw [firstHandles_succ,List.nodup_append] at hnodup
  rw [h.next]
  exact hnodup.2.2 _ hmem _ (List.mem_singleton_self _)

lemma ViewInv.step (h : ViewInv p) (hs : ViewStep p p')
    (hlt : ∀ k ∈ p.history.inserted, k < p.nextController)
    (hn : p.nextController ≤ p'.nextController) : ViewInv p' := by
  cases hs with
  | keep hb hnext hv hf =>
    refine ⟨by rw [hv,h.counted],by rw [hv,hnext,h.next],?_⟩
    rw [hv,hf,hb]
    intro hlength k view data hmem
    obtain ⟨hk,hheld⟩ := h.held hlength k view data hmem
    exact ⟨hk.trans_le hn,hheld⟩
  | free k handle hb hnext hv hf =>
    refine ⟨by rw [hv,h.counted],by rw [hv,hnext,h.next],?_⟩
    rw [hv,hf,hb]
    intro hlength j view data hmem
    obtain ⟨hj,hheld⟩ := h.held hlength j view data hmem
    refine ⟨hj.trans_le hn,fun hfree => ?_⟩
    simp only [List.mem_append,List.mem_singleton,not_or] at hfree
    obtain ⟨hview,hlookup⟩ := hheld hfree.1
    refine ⟨hview,?_⟩
    by_cases hjk : j = k
    · subst hjk
      have hne : handle ≠ view.handle := fun he => hfree.2 (by rw [he])
      rw [Function.update_self,LinkedMap.lookup_erase]
      simpa [hne,Ne.symm hne] using hlookup
    · rwa [Function.update_of_ne hjk]
  | enter k entry hk hb hnext hv hf =>
    have hlength : p'.history.views.length = p.history.views.length+1 := by simp [hv]
    refine ⟨?_,?_,?_⟩
    · rw [hlength,firstHandles_succ,← h.counted,hv,List.map_append,← h.next]
      rfl
    · rw [hlength,hnext,h.next,← UInt64.ofNat_one,← UInt64.ofNat_add]
    · rw [hlength]
      intro hbound j view data hmem
      rw [hv,List.mem_append] at hmem
      rw [hb,hf]
      obtain hmem | hmem := hmem
      · obtain ⟨hj,hheld⟩ := h.held (Nat.lt_of_succ_lt hbound) j view data hmem
        refine ⟨hj.trans_le hn,fun hfree => ?_⟩
        obtain ⟨hview,hlookup⟩ := hheld hfree
        refine ⟨hview,?_⟩
        by_cases hjk : j = k
        · subst hjk
          have hne := h.fresh hbound hmem
          rw [Function.update_self,LinkedMap.lookup_insert]
          simpa [hne,Ne.symm hne] using hlookup
        · rwa [Function.update_of_ne hjk]
      · obtain ⟨rfl,rfl,rfl⟩ := List.mem_singleton.mp hmem
        refine ⟨(hlt _ hk).trans_le hn,fun _ => ⟨rfl,?_⟩⟩
        rw [Function.update_self,LinkedMap.lookup_insert]
        simp

theorem viewInv_of_reachable (h : Process.Reachable ext ok c) : ViewInv c.shared := by
  refine h.induct (I := fun c => ViewInv c.shared) ⟨rfl,rfl,fun _ k view data hv => ?_⟩ ?_
  · cases hv
  intro l c c' hc ih hok hs
  have hinv := rosterInv_of_reachable hc
  have hlt : ∀ k ∈ c.shared.history.inserted, k < c.shared.nextController := fun k hk =>
    hinv.held.inserted_lt hk
  cases l with
  | call n call =>
    simp only [Process.step] at hs
    split_ifs at hs
    cases hs
    exact ih
  | runtime k l =>
    simp only [Process.step] at hs
    split_ifs at hs
    obtain ⟨p,hp,rfl⟩ := Option.map_eq_some_iff.mp hs
    obtain ⟨d,hd,rfl⟩ := deliveryStep_some hp
    exact ih.step (viewStep_setDelivery (step_runtime hd).2) hlt le_rfl
  | thread t x =>
    cases Machine.taskStep_of_stepTask (M := threads ext) hs with
    | @next i rest p code head he =>
      have hmoves := threadStep_of he (by simp)
      have hnext : p.nextController = c.shared.nextController :=
        (rosterMove_of_threadStep hmoves).nextController
      exact ih.step (viewStep_of_threadStep hmoves (namesRuntime_of_reachable hc t i (by simp [head])))
        hlt hnext.ge
    | @fork i rest p code child childCode head he =>
      obtain ⟨handle,configuration,certificate,rfl,rfl,rfl,rfl,rfl⟩ :=
        threadStep_fork (threadStep_of he (by simp))
      refine ⟨ih.counted,ih.next,fun hn k view data hv => ?_⟩
      obtain ⟨hk,hheld⟩ := ih.held hn k view data hv
      refine ⟨Nat.lt_succ_of_lt hk,?_⟩
      simp only [Process.spawned,Process.record,Process.buffersOf,
        Function.update_of_ne (Nat.ne_of_lt hk)]
      exact hheld
    | @throw i rest p e head he => cases e

/-- The buffers of all runtimes have different handles. A view shows the bytes of its message as
long as its runtime is registered and the buffer has not been released through it, whatever is
released through the others. -/
theorem views_valid (h : Process.Reachable ext ok c) (hn : c.shared.history.views.length < 2^64) :
    (c.shared.history.views.map (·.2.1.handle)).Nodup ∧
      ∀ runtime_handle k, c.shared.runtimes.lookup runtime_handle = some k →
        ∀ view data, (k,view,data) ∈ c.shared.history.views →
          (k,view.handle) ∉ c.shared.history.freed →
            view.bytes (c.shared.delivery k).buffers = data := by
  have hinv := viewInv_of_reachable h
  refine ⟨hinv.counted ▸ nodup_firstHandles hn,fun runtime_handle k _ view data hv hfree => ?_⟩
  obtain ⟨hlength,hlookup⟩ := (hinv.held hn k view data hv).2 hfree
  have hbytes : view.bytes (c.shared.delivery k).buffers =
      ((((c.shared.buffersOf k).lookup view.handle).map (·.data)).getD []).take view.length := rfl
  rw [hbytes,hlookup,hlength]
  exact List.take_length

end Views

section Witness

/-- The message has been handed over, and somebody releases its handle with the other runtime. -/
theorem views_valid_otherRuntime : ∃ c, Process.Reachable plainExternals (fun _ _ => True) c ∧
    (c.shared.history.views,c.shared.history.freed) = ([(0,⟨1,2⟩,[104,105])],[(1,1)]) ∧
      NativeBufferView.bytes ⟨1,2⟩ (c.shared.delivery 0).buffers = [104,105] := by
  have hrun : (Interleaving.run (Process.step plainExternals)
      (processRun ++ calling 1 (.use 2 (.releaseBuffer 1)) 2) Process.init).map (fun c =>
        (c.shared.runtimes.lookup 1,c.shared.history.views,c.shared.history.freed)) =
      some (some 0,[(0,⟨1,2⟩,[104,105])],[(1,1)]) := by rfl
  obtain ⟨c,hc,hseen⟩ := Option.map_eq_some_iff.mp hrun
  obtain ⟨hlookup,hseen⟩ := Prod.mk.inj hseen
  obtain ⟨hviews,hfreed⟩ := Prod.mk.inj hseen
  have hreach : Process.Reachable plainExternals (fun _ _ => True) c :=
    reaches_of_run hc fun _ _ _ => trivial
  obtain ⟨-,hvalid⟩ := views_valid hreach (by rw [hviews]; decide)
  refine ⟨c,hreach,by rw [hviews,hfreed],hvalid 1 0 hlookup _ _ ?_ ?_⟩
  · rw [hviews]
    exact List.mem_singleton_self _
  · rw [hfreed]
    decide

end Witness
end Kestara.Native
