import Kestara.Kotlin.ChannelBudgets

/-!
# Room for Closed events

`markClosed` sends its Closed event into a bounded queue that only the application empties. The
event finds room when the teardown, of the channel or of its peer, begins with room for it and
the other senders leave it.
-/
namespace Kestara.Kotlin
open Interleaving

/-- The Closed event of the channel is still to be sent. -/
def ClosedDue (c : Config) (d : ChannelId) : Prop := ∃ t, ∃ i ∈ c.tasks t, i.sendsClosed d ≠ 0

/-- The code of a teardown that is going to close the channel together with its peer. -/
def Dooms (d : ChannelId) : List Instr → Prop
  | [] => False
  | k :: rest => k = .channel d (.markClosed false) ∧ Covered rest ∨ Dooms d rest

/-- A teardown of the peer has begun that is going to close the channel. -/
def Doomed (c : Config) (d : ChannelId) : Prop :=
  (∃ t, Dooms d (c.tasks t)) ∨ ∃ t p, .peer p (.takeChannels false) ∈ c.tasks t ∧
    d ∈ (c.shared.peer p).channels.values

/-- A teardown that has begun needs a place for the Closed event of the channel. -/
def NeedsRoom (c : Config) (d : ChannelId) : Prop :=
  ClosedDue c d ∨ (c.shared.channel d).closed = false ∧ Doomed c d

/-- Closed events find room: when the teardown of the channel or of its peer begins, and after
every other event that is sent while a teardown needs the place. -/
def LeavesRoom (c : Config) : Instr → Prop
  | .channel d (.markClosed false) =>
    (c.shared.channel d).closed = false → (c.shared.queue (.event d)).hasRoom = true
  | .peer p (.markClosed false) =>
    (c.shared.peer p).closed = false → ∀ d ∈ (c.shared.peer p).channels.values,
      (c.shared.channel d).closed = false → (c.shared.queue (.event d)).hasRoom = true
  | .send (.event d) x | .sendSuspended (.event d) x =>
    x.isClosed = false → NeedsRoom c d →
      (c.shared.queue (.event d)).buffer.length+1 < bufferedCapacity
  | _ => True

/-- No cancellation takes effect inside a teardown, and Closed events find room. -/
def TeardownUninterrupted : Label → Config → Prop
  | .run t,c => ∀ i rest, c.tasks t = i :: rest → LeavesRoom c i
  | .interrupt t _,c => ∀ i rest, c.tasks t = i :: rest → i.tearing = false
  | _,_ => True

/-- The event queues have their capacity, and room for the Closed events to come. -/
structure Provided (c : Config) : Prop where
  capacity : ∀ d < c.shared.nextChannel,
    (c.shared.queue (.event d)).capacity = some bufferedCapacity
  room : ∀ d, NeedsRoom c d → (c.shared.queue (.event d)).hasRoom = true

lemma allocated_of_sendsClosed {s : Shared} {i : Instr} {d : ChannelId} (hi : i.Allocated s)
    (h : i.sendsClosed d ≠ 0) : d < s.nextChannel := by
  by_contra hd
  exact h (sendsClosed_budget.allocated d s i hi (not_lt.mp hd))

lemma capacity_task {x : Choice} {t : TaskId} {c c' : Config}
    (h : ∀ d < c.shared.nextChannel, (c.shared.queue (.event d)).capacity = some bufferedCapacity)
    (hs : TaskStep x t c c') :
    ∀ d < c'.shared.nextChannel, (c'.shared.queue (.event d)).capacity = some bufferedCapacity := by
  cases hs with
  | @next i rest s code head he =>
    intro d hd
    have heff := queueEffect_exec c.shared he
    by_cases hlt : d < c.shared.nextChannel
    · rw [heff.capacity (.event d) hlt]
      exact h d hlt
    · exact (heff.fresh d (not_lt.mp hlt) hd).1
  | @throw i rest s e head he =>
    intro d hd
    have hsame := objects_of_throw he
    change d < s.nextChannel at hd
    change (s.queue (.event d)).capacity = _
    rw [hsame.queue]
    exact h d (hsame.nextChannel ▸ hd)

/-- A Closed event becomes due by the compare-and-set of the teardown only. -/
lemma closedDue_next {x : Choice} {t : TaskId} {c : Config} {i : Instr} {rest code : List Instr}
    {s : Shared} {d : ChannelId} (head : c.tasks t = i :: rest)
    (he : exec x t i c.shared = .next s code)
    (h : ClosedDue ⟨s,Function.update c.tasks t (code ++ rest)⟩ d) :
    ClosedDue c d ∨ i = .channel d (.markClosed false) ∧ (c.shared.channel d).closed = false ∧
      s.queue = c.shared.queue := by
  obtain ⟨u,j,hj,hw⟩ := h
  by_cases hu : u = t
  · subst hu
    simp only [Function.update_self] at hj
    obtain hj | hj := List.mem_append.mp hj
    · have hl := leaves_exec c.shared x u i
      rw [he] at hl
      obtain h0 | h0 | ⟨k,rfl⟩ := leaves_sendsClosed (d := d) (hl j hj)
      · exact absurd h0 hw
      · exact .inl ⟨u,i,by simp [head],h0⟩
      · have hok := execOk_of_object rfl he
        have hmem := le_weight (w := Instr.sendsClosed d) hj
        by_cases hk : ∃ b, k = .markClosed b
        · obtain ⟨b,rfl⟩ := hk
          obtain ⟨rfl,rfl⟩ | ⟨hc,rfl,rfl⟩ := markClosed_cases he
          · cases hj
          · cases b with
            | false => exact .inr ⟨rfl,hc,rfl⟩
            | true =>
              simp [DataChannel.teardown,Instr.sendsClosed] at hmem
              exact absurd hmem hw
        · have := weight_sendsClosed_channel hok fun b hb => hk ⟨b,hb⟩
          omega
    · exact .inl ⟨u,j,by simp [head,hj],hw⟩
  · simp only [Function.update_of_ne hu] at hj
    exact .inl ⟨u,j,hj,hw⟩

lemma dooms_append {d : ChannelId} {code rest : List Instr} (h : Dooms d (code ++ rest)) :
    .channel d (.markClosed false) ∈ code ∨ Dooms d rest := by
  induction code with
  | nil => exact .inr h
  | cons k code ih =>
    obtain ⟨rfl,-⟩ | h := h
    · exact .inl (by simp)
    · exact (ih h).imp_left (List.mem_cons_of_mem _)

lemma mem_of_dooms {d : ChannelId} {code : List Instr} (h : Dooms d code) :
    .channel d (.markClosed false) ∈ code := by
  induction code with
  | nil => exact h.elim
  | cons k code ih =>
    obtain ⟨rfl,-⟩ | h := h
    · simp
    · exact List.mem_cons_of_mem _ (ih h)

lemma not_covered {i : Instr} {rest : List Instr} (h : i.tearing = false) : ¬Covered (i :: rest) := by
  intro hc
  rw [hc.cons.1] at h
  cases h

/-- `close` closes its own channel only. -/
lemma dooms_closeBody {c d : ChannelId} {ch : DataChannel} {rest : List Instr}
    (h : Dooms d (DataChannel.closeBody c ch ++ rest)) : Dooms d rest := by
  have hc : ∀ more, ¬Covered (.channel c (.complete .done) :: .channel c .catchClose :: more) := by
    intro more hcov
    obtain hcov | ⟨p,hp⟩ := hcov.cons.2
    · exact not_covered rfl hcov
    · cases hp
  simpa [DataChannel.closeBody,Dooms,hc] using h

lemma dooms_handle {c d : ChannelId} {e : NativeEvent} {code rest : List Instr}
    (he : DataChannel.handleNativeEvent c e = .ok code)
    (h : Dooms d (code ++ [.channel c (.handled e)] ++ rest)) : Dooms d rest := by
  have hc : ¬Covered (.channel c (.handled e) :: rest) := not_covered rfl
  unfold DataChannel.handleNativeEvent at he
  split at he <;> cases he <;> simpa [Dooms,hc] using h

/-- A step dooms a channel only by the snapshot of the channels of its peer. -/
lemma dooms_next {x : Choice} {t : TaskId} {i : Instr} {rest code : List Instr} {s s' : Shared}
    {d : ChannelId} (he : exec x t i s = .next s' code) (h : Dooms d (code ++ rest)) :
    Dooms d rest ∨ ∃ p, i = .peer p (.takeChannels false) ∧ d ∈ (s.peer p).channels.values := by
  obtain hm | hm := dooms_append h
  · have hl := leaves_exec s x t i
    rw [he] at hl
    obtain ⟨p,rfl⟩ | rfl | rfl | ⟨e,rfl⟩ := origin_of_leaves (hl _ hm)
    · have hok := execOk_of_object rfl he
      simp only [execOk,PeerConnection.exec] at hok
      cases hok
      obtain ⟨d',hd,heq⟩ := List.mem_map.mp hm
      cases heq
      exact .inr ⟨p,rfl,hd⟩
    · have hok := execOk_of_object rfl he
      simp only [execOk,DataChannel.exec] at hok
      split_ifs at hok
      · cases hok
        simp at hm
      · cases hok
        exact .inl (dooms_closeBody h)
    · have hok := execOk_of_object rfl he
      simp only [execOk,DataChannel.exec] at hok
      cases hok
      cases hm
    · have hok := execOk_of_object rfl he
      simp only [execOk,DataChannel.exec] at hok
      split at hok
      · cases hok
      · next code' hcode =>
        cases hok
        exact .inl (dooms_handle hcode h)
  · exact .inl hm

lemma dooms_afterThrow {e : Exn} {d : ChannelId} {code : List Instr} (hf : Formed code)
    (h : Dooms d (afterThrow e code)) : Dooms d code := by
  induction code with
  | nil => exact h
  | cons i rest ih =>
    refine .inr ?_
    unfold afterThrow at h
    cases hc : handler e i with
    | none =>
      rw [hc] at h
      exact ih hf.2 h
    | some l =>
      rw [hc] at h
      unfold handler at hc
      split at hc <;> cases hc
      case h_2 c =>
        obtain ⟨rest',rfl⟩ := hf.1
        have hcov : ¬Covered (.channel c (.complete (.failed e)) :: .channel c .awaitClosed :: rest') := by
          intro hcov
          obtain hcov | ⟨p,hp⟩ := hcov.cons.2
          · exact not_covered rfl hcov
          · cases hp
        simpa [Dooms,hcov] using h
      all_goals simpa [Dooms] using h

lemma mem_takeChannels_afterThrow {e : Exn} {p : PeerId} {b : Bool} {code : List Instr}
    (h : .peer p (.takeChannels b) ∈ afterThrow e code) : .peer p (.takeChannels b) ∈ code := by
  obtain h | ⟨i,-,l,hc,h⟩ := mem_afterThrow h
  · exact h
  · unfold handler at hc
    split at hc <;> cases hc <;> simp at h

lemma channels_setPeer {s : Shared} {q : PeerId} {f : PeerConnection → PeerConnection}
    (hf : ∀ d ∈ (f (s.peer q)).channels.values, d ∈ (s.peer q).channels.values) {p : PeerId}
    {d : ChannelId} (hd : d ∈ ((s.setPeer q f).peer p).channels.values) :
    d ∈ (s.peer p).channels.values := by
  by_cases hp : p = q
  · subst hp
    simp only [Shared.setPeer,Function.update_self] at hd
    exact hf d hd
  · simpa only [Shared.setPeer,Function.update_of_ne hp] using hd

lemma channels_register {s : Shared} {q : PeerId} {handle : ℤ} {info : ChannelInfo} {b : Bool}
    {p : PeerId} {d : ChannelId}
    (hd : d ∈ (((s.newChannel q handle info b).setPeer q
      (·.register handle s.nextChannel)).peer p).channels.values) :
    d ∈ (s.peer p).channels.values ∨ s.nextChannel ≤ d := by
  by_cases hp : p = q
  · subst hp
    simp only [Shared.setPeer,Function.update_self,PeerConnection.register] at hd
    obtain hd | rfl := LinkedMap.mem_values_insert hd
    · exact .inl hd
    · exact .inr le_rfl
  · simp only [Shared.setPeer,Function.update_of_ne hp] at hd
    exact .inl hd

lemma channels_peer {q : PeerId} {i : PeerInstr} {s s' : Shared} {code : List Instr}
    (h : PeerConnection.exec q i s = .next s' code) {p : PeerId} {d : ChannelId}
    (hd : d ∈ (s'.peer p).channels.values) :
    d ∈ (s.peer p).channels.values ∨ s.nextChannel ≤ d := by
  revert h
  fun_cases PeerConnection.exec q i s <;> intro h
  case case8 =>
    unfold execAwait at h
    split at h <;> cases h
    exact .inl hd
  case case3 | case13 =>
    cases h
    exact channels_register hd
  case case10 e s'' code' he =>
    cases h
    change d ∈ (s''.peer p).channels.values at hd
    cases PeerConnection.handled_of_handleNativeEvent he with
    | state v ice gathering signaling => exact .inl (channels_setPeer (fun d hd => hd) hd)
    | park hc => exact .inl (channels_setPeer (fun d hd => hd) hd)
    | candidate | negotiation | register | deliver => exact .inl hd
  case case14 =>
    cases h
    exact .inl (channels_setPeer (fun d hd => LinkedMap.mem_values_erase hd) hd)
  case case19 =>
    cases h
    exact .inl (channels_setPeer (fun d hd => by simp at hd) hd)
  case case6 | case17 | case18 | case20 | case21 | case22 =>
    cases h
    exact .inl (channels_setPeer (fun d hd => hd) hd)
  all_goals cases h
  all_goals exact .inl hd

/-- The map of a peer gains channels that are just being constructed only. -/
lemma channels_exec {x : Choice} {t : TaskId} {i : Instr} {s s' : Shared} {code : List Instr}
    (h : exec x t i s = .next s' code) {p : PeerId} {d : ChannelId}
    (hd : d ∈ (s'.peer p).channels.values) :
    d ∈ (s.peer p).channels.values ∨ s.nextChannel ≤ d := by
  by_cases hi : i.isSystem = true
  · obtain hs | ⟨handle,capacity,timeout,rfl,-⟩ := objects_of_system hi h
    · exact .inl (hs.peer ▸ hd)
    · by_cases hp : p = s.nextPeer
      · subst hp
        simp [Shared.newPeer] at hd
      · simp only [Shared.newPeer,Function.update_of_ne hp] at hd
        exact .inl hd
  · have hok := execOk_of_object (by simpa using hi) h
    cases i with
    | submit | loop | runtime => exact (hi rfl).elim
    | peer q i => exact channels_peer hok hd
    | closeQueue q =>
      cases hok
      exact .inl hd
    | send q y =>
      simp only [execOk,execSend] at hok
      split_ifs at hok <;> cases hok <;> exact .inl hd
    | sendSuspended q y =>
      simp only [execOk,execSendSuspended] at hok
      split_ifs at hok
      cases hok
      exact .inl hd
    | channel c i =>
      simp only [execOk] at hok
      revert hok
      fun_cases DataChannel.exec c i s <;> intro hok
      case case7 =>
        unfold execAwait at hok
        split at hok <;> cases hok
        exact .inl hd
      all_goals cases hok
      all_goals exact .inl hd

lemma allocated_of_needsRoom {c : Config} {d : ChannelId} (hc : Constructed c)
    (h : NeedsRoom c d) : d < c.shared.nextChannel := by
  obtain ⟨t,i,hi,hw⟩ | ⟨-,⟨t,h⟩ | ⟨t,p,-,h⟩⟩ := h
  · exact allocated_of_sendsClosed (hc.code t i hi) hw
  · exact hc.code t _ (mem_of_dooms h)
  · exact hc.heap.channels p d h

/-- How a channel comes to need room in a step. -/
lemma needsRoom_next {x : Choice} {t : TaskId} {c : Config} {i : Instr} {rest code : List Instr}
    {s : Shared} {d : ChannelId} (head : c.tasks t = i :: rest)
    (he : exec x t i c.shared = .next s code) (hleaves : i.isSystem = false → LeavesRoom c i)
    (h : NeedsRoom ⟨s,Function.update c.tasks t (code ++ rest)⟩ d) :
    NeedsRoom c d ∨ s.queue = c.shared.queue ∧ (c.shared.queue (.event d)).hasRoom = true ∨
      c.shared.nextChannel ≤ d := by
  obtain hdue | ⟨hclosed,hdoomed⟩ := h
  · obtain hold | ⟨rfl,hclosed,hq⟩ := closedDue_next head he hdue
    · exact .inl (.inl hold)
    · exact .inr (.inl ⟨hq,hleaves rfl hclosed⟩)
  by_cases hlt : c.shared.nextChannel ≤ d
  · exact .inr (.inr hlt)
  have hold : (c.shared.channel d).closed = false := by
    obtain h | ⟨b,-,h,-⟩ := (closeEffect_exec c.shared he).channel d (not_le.mp hlt)
    · exact h.symm.trans hclosed
    · exact h
  obtain ⟨u,hu⟩ | ⟨u,p,hp,hd⟩ := hdoomed
  · refine .inl (.inr ⟨hold,?_⟩)
    by_cases hut : u = t
    · subst hut
      simp only [Function.update_self] at hu
      obtain h | ⟨p,rfl,hd⟩ := dooms_next he hu
      · exact .inl ⟨u,head ▸ .inr h⟩
      · exact .inr ⟨u,p,by simp [head],hd⟩
    · simp only [Function.update_of_ne hut] at hu
      exact .inl ⟨u,hu⟩
  · have hmem := (channels_exec he hd).resolve_right hlt
    by_cases hut : u = t
    · subst hut
      simp only [Function.update_self] at hp
      obtain hp | hp := List.mem_append.mp hp
      · have hl := leaves_exec c.shared x u i
        rw [he] at hl
        obtain rfl := origin_of_leaves (hl _ hp)
        have hok := execOk_of_object rfl he
        simp only [execOk,PeerConnection.exec] at hok
        split_ifs at hok with hpc
        · cases hok
          cases hp
        · cases hok
          exact .inr (.inl ⟨rfl,hleaves rfl (by simpa using hpc) d hmem hold⟩)
      · exact .inl (.inr ⟨hold,.inr ⟨u,p,by simp [head,hp],hmem⟩⟩)
    · simp only [Function.update_of_ne hut] at hp
      exact .inl (.inr ⟨hold,.inr ⟨u,p,hp,hmem⟩⟩)

lemma hasRoom_congr {q q' : BoundedQueue Item} (hc : q'.capacity = q.capacity)
    (hb : q'.buffer = q.buffer) (h : q.hasRoom = true) : q'.hasRoom = true := by
  unfold BoundedQueue.hasRoom at *
  rw [hc,hb]
  exact h

lemma hasRoom_iff_short {q : BoundedQueue Item} (hc : q.capacity = some bufferedCapacity) :
    q.hasRoom = true ↔ q.buffer.length < bufferedCapacity := by
  simp [BoundedQueue.hasRoom,hc]

/-- Once the Closed event of a channel has been put, no teardown needs room for it. -/
lemma not_needsRoom_of_put {c : Config} {d : ChannelId}
    (hw : Within (Instr.sendsClosed d) c.tasks (closedPut d c.shared) (closedCount d c.shared))
    (h : 0 < closedPut d c.shared) : ¬NeedsRoom c d := by
  have hle := Bool.toNat_le (c.shared.channel d).closed
  rintro (⟨t,i,hi,hiw⟩ | ⟨hclosed,-⟩)
  · have := hw.mem hi
    simp only [closedCount] at this
    omega
  · have := hw.spent_le
    simp only [closedCount,hclosed,Bool.toNat_false] at this
    omega

/-- Room for the Closed event of a channel is kept. -/
lemma Provided.room_next {x : Choice} {t : TaskId} {c : Config} {i : Instr} {rest code : List Instr}
    {s : Shared} {d : ChannelId} (h : Provided c) (hc : Constructed c)
    (head : c.tasks t = i :: rest) (he : exec x t i c.shared = .next s code)
    (hleaves : i.isSystem = false → LeavesRoom c i) (hd : d < s.nextChannel)
    (hw : Within (Instr.sendsClosed d) (Function.update c.tasks t (code ++ rest)) (closedPut d s)
      (closedCount d s))
    (hneeds : NeedsRoom ⟨s,Function.update c.tasks t (code ++ rest)⟩ d) :
    (s.queue (.event d)).hasRoom = true := by
  have heff := queueEffect_exec c.shared he
  obtain hold | ⟨hq,hroom⟩ | hfresh := needsRoom_next head he hleaves hneeds
  · have hlt := allocated_of_needsRoom hc hold
    have hroom := h.room d hold
    have hcap := heff.capacity (.event d) hlt
    obtain ⟨-,hb⟩ | ⟨q,y,hs,-,-,hput,hb,hother⟩ := heff.contents
    · exact hasRoom_congr hcap (hb _ hlt) hroom
    · by_cases hq : q = .event d
      · subst hq
        cases hy : y.isClosed with
        | true =>
          have hcount := closedPut_append (d := d) rfl hput
          simp only [hy,and_self,if_true] at hcount
          exact absurd hneeds (not_needsRoom_of_put hw (by change 0 < closedPut d s; omega))
        | false =>
          have hsys : i.isSystem = false := by obtain rfl | rfl := hs <;> rfl
          have hshort : (c.shared.queue (.event d)).buffer.length+1 < bufferedCapacity := by
            have hl := hleaves hsys
            obtain rfl | rfl := hs <;> exact hl hy hold
          rw [h.capacity d hlt] at hcap
          rw [hasRoom_iff_short hcap,hb]
          simpa [BoundedQueue.put,h.capacity d hlt] using hshort
      · exact hasRoom_congr hcap (hother _ (Ne.symm hq)) hroom
  · rw [hq]
    exact hroom
  · obtain ⟨hcap,hb⟩ := heff.fresh d hfresh hd
    rw [hasRoom_iff_short hcap,hb]
    decide

lemma choice_of_object {x : Choice} {t : TaskId} {i : Instr} {s s' : Shared} {code : List Instr}
    (hi : i.isSystem = false) (h : exec x t i s = .next s' code) : x = .ok := by
  cases x with
  | ok => rfl
  | fail message =>
    simp only [exec] at h
    revert h
    fun_cases execFail message i s <;> intro h
    case case1 | case2 | case3 | case4 => cases hi
    case case5 => cases h
  | cancel =>
    simp only [exec] at h
    revert h
    fun_cases execCancel i s <;> intro h <;> cases h

lemma run_of_scheduled {l : Label} {t : TaskId} (h : l.scheduled = some (t,.ok)) : l = .run t := by
  cases l <;> cases h
  rfl

/-- An exception makes no channel need room. -/
lemma needsRoom_throw {t : TaskId} {c : Config} {i : Instr} {rest : List Instr} {s : Shared}
    {e : Exn} {d : ChannelId} (head : c.tasks t = i :: rest) (hf : Formed (c.tasks t))
    (hs : SameObjects c.shared s)
    (h : NeedsRoom ⟨s,Function.update c.tasks t (afterThrow e rest)⟩ d) : NeedsRoom c d := by
  obtain ⟨u,j,hj,hw⟩ | ⟨hclosed,⟨u,hu⟩ | ⟨u,p,hp,hd⟩⟩ := h
  · refine .inl ?_
    by_cases hu : u = t
    · subst hu
      simp only [Function.update_self] at hj
      obtain hj | ⟨k,hk,code,hh,hj⟩ := mem_afterThrow hj
      · exact ⟨u,j,by simp [head,hj],hw⟩
      · have hle := sendsClosed_budget.handler d e k code hh
        have hmem := le_weight (w := Instr.sendsClosed d) hj
        exact ⟨u,k,by simp [head,hk],by omega⟩
    · simp only [Function.update_of_ne hu] at hj
      exact ⟨u,j,hj,hw⟩
  · refine .inr ⟨by rwa [← hs.channel],.inl ⟨u,?_⟩⟩
    by_cases hut : u = t
    · subst hut
      simp only [Function.update_self] at hu
      rw [head] at hf ⊢
      exact .inr (dooms_afterThrow hf.2 hu)
    · simpa only [Function.update_of_ne hut] using hu
  · refine .inr ⟨by rwa [← hs.channel],.inr ⟨u,p,?_,by rwa [← hs.peer]⟩⟩
    by_cases hut : u = t
    · subst hut
      simp only [Function.update_self] at hp
      simp [head,mem_takeChannels_afterThrow hp]
    · simpa only [Function.update_of_ne hut] using hp

lemma needsRoom_call {t : TaskId} {c : Config} {a : Api} {d : ChannelId}
    (h : NeedsRoom { c with tasks := Function.update c.tasks t (a.code c.shared) } d) :
    NeedsRoom c d := by
  obtain ⟨u,j,hj,hw⟩ | ⟨hclosed,⟨u,hu⟩ | ⟨u,p,hp,hd⟩⟩ := h
  · by_cases hut : u = t
    · subst hut
      simp only [Function.update_self] at hj
      have := le_weight (w := Instr.sendsClosed d) hj
      rw [sendsClosed_budget.api] at this
      omega
    · simp only [Function.update_of_ne hut] at hj
      exact .inl ⟨u,j,hj,hw⟩
  · by_cases hut : u = t
    · subst hut
      simp only [Function.update_self] at hu
      have := mem_of_dooms hu
      cases a <;> simp [Api.code] at this
    · simp only [Function.update_of_ne hut] at hu
      exact .inr ⟨hclosed,.inl ⟨u,hu⟩⟩
  · by_cases hut : u = t
    · subst hut
      simp only [Function.update_self] at hp
      cases a <;> simp [Api.code] at hp
    · simp only [Function.update_of_ne hut] at hp
      exact .inr ⟨hclosed,.inr ⟨u,p,hp,hd⟩⟩

/-- In undisturbed runs every Closed event to come finds room. -/
theorem provided_of_reachable {shutdownTimeout : ℤ} {fingerprint : String} {c : Config}
    (h : Reachable shutdownTimeout fingerprint TeardownUninterrupted c) : Provided c := by
  refine h.induct ⟨?_,?_⟩ fun l c c' hr hI hok hs => ?_
  · intro d hd
    exact absurd hd (Nat.not_lt_zero d)
  · intro d hd
    exact absurd (allocated_of_needsRoom (constructed_init _ _) hd) (Nat.not_lt_zero d)
  · have hc := constructed_of_reachable hr
    have hr' : Reachable shutdownTimeout fingerprint TeardownUninterrupted c' := hr.tail ⟨l,hok,hs⟩
    cases step_cases hs with
    | @task _ x t _ hl active ht =>
      refine ⟨capacity_task hI.capacity ht,fun d hneeds => ?_⟩
      cases ht with
      | @next i rest s code head he =>
        have hlt : d < s.nextChannel := allocated_of_needsRoom (constructed_of_reachable hr') hneeds
        refine hI.room_next hc head he ?_ hlt (sendsClosed_budget.within_of_reachable hr' d hlt)
          hneeds
        intro hi
        obtain rfl := choice_of_object hi he
        obtain rfl := run_of_scheduled hl
        exact hok i rest head
      | @throw i rest s e head he =>
        have hsame := objects_of_throw he
        change (s.queue (.event d)).hasRoom = true
        rw [hsame.queue]
        exact hI.room d (needsRoom_throw head (formed_of_reachable hr t) hsame hneeds)
    | call ht idle admitted => exact ⟨hI.capacity,fun d hneeds => hI.room d (needsRoom_call hneeds)⟩
    | @receive t q s ht idle hrecv =>
      obtain ⟨y,ys,known,hb,-,rfl⟩ := receive_cases hrecv
      refine ⟨fun d hd => ?_,fun d hneeds => ?_⟩
      · by_cases hq : .event d = q
        · subst hq
          simpa [Shared.setQueue] using hI.capacity d hd
        · simpa [Shared.setQueue,hq] using hI.capacity d hd
      · by_cases hq : .event d = q
        · subst hq
          simpa [Shared.setQueue] using BoundedQueue.hasRoom_of_tail hb (hI.room d hneeds)
        · simpa [Shared.setQueue,hq] using hI.room d hneeds
    | cancel | native => exact ⟨hI.capacity,hI.room⟩

end Kestara.Kotlin
