import Kestara.Library.Guards
import Kestara.Native.Duties
import Kestara.Native.PortSearch

/-!
# The operations locks

The functions of a peer run one after the other. The lock of a peer is held by one task at most,
the task that holds it waits for no other lock, and whatever ends its function gives it back.
-/
namespace Kestara.Native
open Interleaving

/-- The guard of the operations lock of a peer. -/
def Instr.guards (p : PeerRef) : Instr → ℕ
  | .unlock q => if q = p then 1 else 0
  | _ => 0

/-- The most steps that a function under the lock takes from here. -/
def Instr.ahead : Instr → ℕ
  | .createChannel _ _ => 7
  | .registerChannel _ _ _ => 6
  | .readAttributes _ _ _ _ => 5
  | .insertChannel _ _ _ _ _ => 4
  | .startPolling _ _ _ | .call _ _ | .closeChannel _ | .closePeer _ => 2
  | .sendCreated _ | .returnChannel _ _ | .request _ | .awaitChannelClosed | .awaitPeerClosed => 1
  | _ => 0

section Does
variable {x : Choice} {t : ℕ} {s : RuntimeState} {i : Instr} {o : Outcome}

@[simp] lemma guards_unlock (p q : PeerRef) :
    (Instr.unlock q).guards p = if q = p then 1 else 0 := rfl

@[simp] lemma guards_lock (p q : PeerRef) (body : Locked) : (Instr.lock q body).guards p = 0 := rfl

lemma guards_first (p peer : PeerRef) (body : Locked) : (body.first peer).guards p = 0 := by
  cases body <;> rfl

lemma ahead_first (peer : PeerRef) (body : Locked) : 0 < (body.first peer).ahead := by
  cases body <;> simp [Locked.first,Instr.ahead]

lemma ahead_first_le (peer : PeerRef) (body : Locked) : (body.first peer).ahead ≤ 7 := by
  cases body <;> simp [Locked.first,Instr.ahead]

lemma exec_unlock (p : PeerRef) :
    exec x t (.unlock p) s = .blocked ∨ exec x t (.unlock p) s = .next (unlock p s) [] :=
  exec_plain rfl rfl fun _ => ⟨by simp,by simp⟩

lemma balances_of_does (p : PeerRef) (h : Does t s i o) (hi : i.guards p = 0) :
    Machine.Balances (Instr.guards p) (·.locked p) s i o := by
  cases h with
  | lock peer body hl =>
    by_cases hp : peer = p
    · subst hp
      simp [Machine.Balances,guards_first,hi,hl]
    · have hne : p ≠ peer := fun he => hp he.symm
      simp [Machine.Balances,guards_first,hi,hp,Function.update_of_ne hne]
  | unlock peer =>
    have hne : p ≠ peer := by
      rintro rfl
      simp [Instr.guards] at hi
    simp [Machine.Balances,hi,unlock,Function.update_of_ne hne]
  | insertChannel handle peer_handle channel emit attributes =>
    cases emit <;>
      simp [insertChannel,Machine.Balances,Instr.guards,RuntimeState.setRegistry,
        RuntimeState.record]
  | shutdown command commands hc ho =>
    have hjoin := Machine.weight_map_eq_zero (w := Instr.guards p) (f := Instr.join) (fun _ => rfl)
      (s.operations.filter fun t => !s.finished t)
    simp [Machine.Balances,hjoin,Instr.guards]
  | spawned closes =>
    have hjoin := Machine.weight_map_eq_zero (w := Instr.guards p) (f := Instr.joinClose)
      (fun _ => rfl) closes
    simp [Machine.Balances,hjoin,Instr.guards]
  | leave | dropped | skip | joined => simp [Machine.Balances,hi]
  | findPeer => simp [Machine.Balances,hi]
  | _ =>
    simp [Machine.Balances,Instr.guards,RuntimeState.setRegistry,RuntimeState.record,
      RuntimeState.setChannel,RuntimeState.send_event,RuntimeState.notePoll,
      RuntimeState.allocate]

/-- The operations lock of a peer is held while its guard is pending. -/
lemma guards_machine (p : PeerRef) :
    Machine.Guards machine (Instr.guards p) (·.locked p) := by
  refine ⟨fun x t i s hle => ?_,fun e i code hc => ?_,fun i s => ?_⟩
  · by_cases hi : i.guards p = 0
    · by_cases hb : machine.exec x t i s = .blocked
      · rw [hb]
        trivial
      · exact balances_of_does p (does_of rfl hb) hi
    · cases i <;> try exact absurd rfl hi
      next q =>
        have hq : q = p := by
          by_contra hn
          simp [Instr.guards,hn] at hi
        subst hq
        have hl : s.locked q = true := by
          cases hl : s.locked q with
          | true => rfl
          | false => simp [hl] at hle
        change Machine.Balances _ _ s _ (exec x t (.unlock q) s)
        obtain he | he := exec_unlock (x := x) (t := t) (s := s) q
        · rw [he]
          trivial
        · rw [he]
          simp [Machine.Balances,Instr.guards,unlock,hl]
  · simp only [machine,handler] at hc
    split at hc <;> cases hc <;> simp [Instr.guards]
  · simp only [machine,release]
    split
    · next q =>
      by_cases hq : q = p
      · subst hq
        simp [unlock,Instr.guards]
      · have hne : p ≠ q := fun he => hq he.symm
        simp [unlock,Instr.guards,hq,Function.update_of_ne hne]
    · simp [Instr.guards]
    · next hn _ =>
      have hi : Instr.guards p i = 0 := by
        cases i <;> first | rfl | exact absurd rfl (hn _)
      simp [hi]

end Does

section Sole
variable {certificate : RTCCertificate} {ok : Label → Config → Prop} {l : Label} {c c' : Config}

lemma sole_step {p : PeerRef} (h : Sole (Instr.guards p) c.tasks (c.shared.locked p))
    (hspawned : Spawned c) (hs : step l c = some c') :
    Sole (Instr.guards p) c'.tasks (c'.shared.locked p) := by
  cases step_cases hs with
  | task ht =>
    exact ht.sole (guards_machine p) (fun i s code child childCode he => hspawned.forks he) h
  | submit | completeError | callback => exact h
  | announce peer channel =>
    refine h.update ?_
    rw [hspawned.idle _ le_rfl]
    simp [Instr.guards]

/-- At most one task is inside the functions of a peer. -/
theorem sole_of_reachable (h : Reachable certificate ok c) (p : PeerRef) :
    Sole (Instr.guards p) c.tasks (c.shared.locked p) := by
  refine h.induct (I := fun c => Sole (Instr.guards p) c.tasks (c.shared.locked p)) ?_
    fun _ _ _ hd hI _ hs => sole_step hI (spawned_of_reachable hd) hs
  refine Sole.of_idle fun t => ?_
  simp only [init]
  split_ifs <;> rfl

end Sole

section Shape
variable {t : ℕ} {s s' : RuntimeState} {i : Instr} {o : Outcome} {code rest : List Instr}

/-- The code of a task is that of one function under a lock, or of none. -/
inductive Shape : List Instr → Prop
  | free {l : List Instr} (h : ∀ j ∈ l, ∀ p, j ≠ .unlock p) : Shape l
  | holding {pre p l} (hpre : ∀ j ∈ pre, 0 < j.ahead) (hsteps : weight Instr.ahead pre ≤ 7)
      (hrest : ∀ j ∈ l, ∀ q, j ≠ .unlock q) : Shape (pre ++ .unlock p :: l)

lemma handler_ahead (e : Exit) (hi : 0 < i.ahead) : machine.handler e i = none := by
  cases i <;> first | exact absurd hi (lt_irrefl _) | simp [machine,handler]

lemma inside_of_does (h : Does t s i o) (hi : 0 < i.ahead) :
    (∀ j ∈ codeOf o, 0 < j.ahead) ∧ weight Instr.ahead (codeOf o) ≤ i.ahead := by
  cases h with
  | insertChannel handle peer_handle channel emit attributes =>
    cases emit <;> simp [codeOf,insertChannel,Instr.ahead]
  | findPeer hfinds =>
    cases i <;> first | exact absurd hi (lt_irrefl _) | cases hfinds
  | skip hskip => obtain ⟨op,rfl⟩ | ⟨op,rfl⟩ := hskip <;> exact absurd hi (lt_irrefl _)
  | call | createChannel | closeChannel | closePeer | registerChannel | readAttributes
  | startPolling => simp [codeOf,Instr.ahead]
  | leave | dropped | panicked | giveUp | rotate | noPeer | insertPeer | sendCreated | joined =>
    simp [codeOf]
  | _ => exact absurd hi (lt_irrefl _)

lemma unlocks_of_does (h : Does t s i o) (hi : ∀ p body, i ≠ .lock p body) :
    ∀ j ∈ codeOf o, ∀ p, j ≠ .unlock p := by
  cases h with
  | lock peer body => exact absurd rfl (hi peer body)
  | insertChannel handle peer_handle channel emit attributes =>
    cases emit <;> simp [codeOf,insertChannel]
  | shutdown | spawned =>
    rintro j hj p rfl
    simp [codeOf] at hj
  | _ => simp [codeOf]

/-- The code that is left when an instruction has run. -/
lemma shape_run (h : Does t s i o) (hs : Shape (i :: rest)) (ho : ∀ q, i = .unlock q → codeOf o = []) :
    Shape (codeOf o ++ rest) := by
  generalize hl : i :: rest = l at hs
  cases hs with
  | free hfree =>
    subst hl
    have hrest : ∀ j ∈ rest, ∀ p, j ≠ .unlock p := fun j hj => hfree j (by simp [hj])
    by_cases hlock : ∃ p body, i = .lock p body
    · obtain ⟨p,body,rfl⟩ := hlock
      have hcode : codeOf o = [body.first p,.unlock p] ∨ codeOf o = [] := by
        cases h with
        | lock => exact .inl rfl
        | findPeer hfinds => cases hfinds
        | _ => exact .inr rfl
      obtain hcode | hcode := hcode
      · rw [hcode]
        have hshape : Shape ([body.first p] ++ .unlock p :: rest) :=
          .holding (by simpa using ahead_first p body) (by simpa using ahead_first_le p body) hrest
        exact hshape
      · rw [hcode]
        exact .free hrest
    · have hcode := unlocks_of_does h fun p body he => hlock ⟨p,body,he⟩
      refine .free fun j hj => ?_
      obtain hj | hj := List.mem_append.mp hj
      · exact hcode j hj
      · exact hrest j hj
  | @holding pre p tail hpre hsteps hrest =>
    cases pre with
    | nil =>
      simp only [List.nil_append,List.cons.injEq] at hl
      obtain ⟨rfl,rfl⟩ := hl
      rw [ho p rfl]
      exact .free hrest
    | cons k pre =>
      simp only [List.cons_append,List.cons.injEq] at hl
      obtain ⟨rfl,rfl⟩ := hl
      obtain ⟨hcode,hle⟩ := inside_of_does h (hpre i (by simp))
      rw [← List.append_assoc]
      refine .holding (fun j hj => ?_) ?_ hrest
      · obtain hj | hj := List.mem_append.mp hj
        · exact hcode j hj
        · exact hpre j (by simp [hj])
      · simp only [weight_append,weight_cons] at hsteps ⊢
        omega

lemma unlocks_unwind {e : Exit} (hfree : ∀ j ∈ code, ∀ p, j ≠ .unlock p) :
    ∀ j ∈ (machine.unwind e code s).2, ∀ p, j ≠ .unlock p := by
  intro j hj p he
  obtain hj | ⟨k,-,new,hc,hj⟩ := Machine.mem_unwind hj
  · exact hfree j hj p he
  · subst he
    simp only [machine,handler] at hc
    split at hc <;> cases hc <;> simp at hj

lemma unwind_holding (e : Exit) {pre : List Instr} {p : PeerRef} (hpre : ∀ j ∈ pre, 0 < j.ahead) :
    ∃ s', machine.unwind e (pre ++ .unlock p :: rest) s = machine.unwind e rest (unlock p s') := by
  obtain ⟨s',hs'⟩ := unwind_skip (fun j hj => handler_ahead e (hpre j hj)) (.unlock p :: rest) s
  refine ⟨s',hs'.trans ?_⟩
  have hnone : machine.handler e (.unlock p) = none := by simp [machine,handler]
  simp only [Machine.unwind,hnone]
  rfl

lemma shape_unwind (e : Exit) (h : Shape code) (s : RuntimeState) :
    Shape (machine.unwind e code s).2 := by
  cases h with
  | free hfree => exact .free (unlocks_unwind hfree)
  | holding hpre _ hrest =>
    obtain ⟨s',hs'⟩ := unwind_holding e hpre
    rw [hs']
    exact .free (unlocks_unwind hrest)

lemma Shape.tail (h : Shape (i :: rest)) : Shape rest := by
  generalize hl : i :: rest = l at h
  cases h with
  | free hfree =>
    subst hl
    exact .free fun j hj => hfree j (by simp [hj])
  | @holding pre p tail hpre hsteps hrest =>
    cases pre with
    | nil =>
      cases hl
      exact .free hrest
    | cons k pre =>
      cases hl
      rw [weight_cons] at hsteps
      exact .holding (fun j hj => hpre j (by simp [hj])) (by omega) hrest

lemma shape_child {childCode : List Instr} {child : TaskId}
    (h : Does t s i (.fork s' code child childCode)) : Shape childCode := by
  refine .free fun j hj p => ?_
  cases h <;> (simp only [List.mem_cons,List.not_mem_nil,or_false] at hj; aesop)

end Shape

section Reachable
variable {x : Choice} {t : ℕ} {c c' : Config}

lemma shape_taskStep (h : ∀ u, Shape (c.tasks u)) (hs : Machine.TaskStep machine x t c c') :
    ∀ u, Shape (c'.tasks u) := by
  intro u
  refine code_of_taskStep hs (h u) ?_ ?_ ?_
  · intro i rest o _ head he ho _
    refine shape_run (does_of he ho) (head ▸ h t) fun q hq => ?_
    subst hq
    obtain hx | hx := exec_unlock (x := x) (t := t) (s := c.shared) q
    · exact absurd (he.symm.trans hx) ho
    · rw [← he]
      exact congrArg codeOf hx
  · exact fun _ hdoes => shape_child hdoes
  · intro i rest s e _ head _
    exact shape_unwind e (Shape.tail (head ▸ h t)) s

lemma shape_step {l : Label} (h : ∀ u, Shape (c.tasks u)) (hs : step l c = some c') :
    ∀ u, Shape (c'.tasks u) := by
  cases step_cases hs with
  | task ht => exact shape_taskStep h ht
  | submit | completeError | callback => exact h
  | announce peer channel =>
    intro u
    by_cases hu : u = c.shared.nextTask
    · subst hu
      exact .free (by simp)
    · simpa [Function.update_of_ne hu] using h u

theorem shape_of_reachable {certificate : RTCCertificate} {ok : Label → Config → Prop}
    (h : Reachable certificate ok c) : ∀ u, Shape (c.tasks u) := by
  refine h.invariant (I := fun c => ∀ u, Shape (c.tasks u)) (fun u => ?_)
    fun _ _ _ hI _ hs => shape_step hI hs
  refine .free fun j hj p => ?_
  simp only [init] at hj
  split_ifs at hj
  · rw [List.mem_singleton.mp hj]
    simp
  · cases hj

end Reachable

section Progress
variable {t : ℕ} {s : RuntimeState} {i : Instr} {c : Config}

/-- The instruction leads on to the end of the function. -/
def Advances (i : Instr) : Outcome → Prop
  | .next _ code | .fork _ code _ _ => weight Instr.ahead code < i.ahead ∧ ∀ j ∈ code, 0 < j.ahead
  | .throw _ _ => True
  | .blocked => False

/-- A result of the library with which `request` does not wait. -/
def answer : Operation → Choice
  | .getStats _ => .stats (.ok [])
  | _ => .fail ""

lemma reply_answer (operation : Operation) : (reply operation (answer operation)).isSome := by
  cases operation <;> rfl

/-- Under the lock a task waits for the library only. -/
lemma advances (hi : 0 < i.ahead) : ∃ x, Advances i (machine.exec x t i s) := by
  cases i with
  | request operation =>
    refine ⟨answer operation,?_⟩
    obtain ⟨result,hr⟩ := Option.isSome_iff_exists.mp (reply_answer operation)
    have hx : machine.exec (answer operation) t (.request operation) s = .throw s (.done result) := by
      cases operation <;> (cases hr; rfl)
    rw [hx]
    trivial
  | call channel operation =>
    refine ⟨.ok,?_⟩
    change Advances _ (call t channel operation s)
    unfold call
    dsimp only
    split
    · simp [Advances,Instr.ahead]
    · simp [Advances,Instr.ahead]
    · split <;> simp [Advances,Instr.ahead]
    · split <;> simp [Advances,Instr.ahead]
    · simp [Advances,Instr.ahead]
  | createChannel peer_handle configuration => exact ⟨.fail "",trivial⟩
  | closeChannel channel => exact ⟨.ok,by simp [Advances,machine,exec,run,Instr.ahead]⟩
  | awaitChannelClosed => exact ⟨.ok,trivial⟩
  | closePeer peer => exact ⟨.ok,by simp [Advances,machine,exec,run,Instr.ahead]⟩
  | awaitPeerClosed => exact ⟨.ok,trivial⟩
  | registerChannel peer_handle channel emit =>
    exact ⟨.ok,by simp [Advances,machine,exec,run,registerChannel,Instr.ahead]⟩
  | readAttributes handle peer_handle channel emit =>
    exact ⟨.attributes ⟨"","",true,0,false,none,none,true⟩,
      by simp [Advances,machine,exec,run,Instr.ahead]⟩
  | insertChannel handle peer_handle channel emit attributes =>
    refine ⟨.ok,?_⟩
    cases emit <;> simp [Advances,machine,exec,run,insertChannel,Instr.ahead]
  | sendCreated event => exact ⟨.ok,by simp [Advances,machine,exec,run,Instr.ahead]⟩
  | startPolling handle peer_handle channel =>
    refine ⟨.ok,?_⟩
    change Advances _ (startPolling handle peer_handle channel s)
    unfold startPolling
    split <;> simp [Advances,Instr.ahead]
  | returnChannel handle id => exact ⟨.ok,trivial⟩
  | _ => exact absurd hi (lt_irrefl _)

lemma unwind_unlocks (e : Exit) {pre rest : List Instr} {p : PeerRef}
    (hpre : ∀ j ∈ pre, 0 < j.ahead) :
    (machine.unwind e (pre ++ .unlock p :: rest) s).1.locked p = false := by
  obtain ⟨s',hs'⟩ : ∃ s', machine.unwind e (pre ++ .unlock p :: rest) s =
      machine.unwind e rest (unlock p s') := unwind_holding e hpre
  rw [hs']
  refine Machine.unwind_shared (P := fun s : RuntimeState => s.locked p = false) (fun j s hfree => ?_) e rest _
    (by simp [unlock])
  rw [(guards_machine p).release,hfree,Bool.false_and]

/-- The holder of a lock gives it back by steps of its own. -/
lemma released (hc : Spawned c) {pre rest : List Instr} {p : PeerRef}
    (hcode : c.tasks t = pre ++ .unlock p :: rest) (hpre : ∀ j ∈ pre, 0 < j.ahead) :
    ∃ (xs : List Choice) (c' : Config), Interleaving.run step (xs.map (Label.task t)) c = some c' ∧
      xs.length ≤ weight Instr.ahead pre+1 ∧ c'.shared.locked p = false := by
  induction hn : weight Instr.ahead pre using Nat.strong_induction_on generalizing c pre with
  | _ n ih =>
  cases pre with
  | nil =>
    refine ⟨[.ok],⟨unlock p c.shared,Function.update c.tasks t rest⟩,?_,by simp,by simp [unlock]⟩
    simp [Interleaving.run,step,Machine.stepTask,hcode,machine,exec,run]
  | cons i pre =>
    subst hn
    rw [List.cons_append] at hcode
    have hlt := hc.lt (t := t) (i := i) (by simp [hcode])
    have htail : ∀ j ∈ pre, 0 < j.ahead := fun j hj => hpre j (by simp [hj])
    have hgo : ∀ {x code d}, step (.task t x) c = some d → d.tasks t = code ++ (pre ++ .unlock p :: rest) →
        weight Instr.ahead code < i.ahead → (∀ j ∈ code, 0 < j.ahead) →
        ∃ (xs : List Choice) (c' : Config),
          Interleaving.run step (xs.map (Label.task t)) c = some c' ∧
            xs.length ≤ weight Instr.ahead (i :: pre)+1 ∧ c'.shared.locked p = false := by
      intro x code d hs hd hless hinside
      obtain ⟨xs,c',hr,hlen,hfree⟩ := ih (weight Instr.ahead (code ++ pre)) (by
        simp only [weight_append,weight_cons]
        omega) (spawned_step hc hs) (by rw [hd,List.append_assoc]) (fun j hj => by
        obtain hj | hj := List.mem_append.mp hj
        · exact hinside j hj
        · exact htail j hj) rfl
      refine ⟨x :: xs,c',by simp [Interleaving.run,hs,hr],?_,hfree⟩
      simp only [List.length_cons,weight_append,weight_cons] at hlen ⊢
      omega
    obtain ⟨x,hx⟩ := advances (t := t) (s := c.shared) (hpre i (by simp))
    cases ho : machine.exec x t i c.shared with
    | blocked =>
      rw [ho] at hx
      exact hx.elim
    | next s' code =>
      rw [ho] at hx
      have hs : step (.task t x) c =
          some ⟨s',Function.update c.tasks t (code ++ (pre ++ .unlock p :: rest))⟩ := by
        simp only [step,Machine.stepTask,hcode,ho]
      exact hgo hs (by simp) hx.1 hx.2
    | fork s' code child childCode =>
      rw [ho] at hx
      have hspawns : Spawns c.shared (.fork s' code child childCode) :=
        spawns_of_does (does_of ho (by simp))
      have hne : t ≠ child := hspawns.1 ▸ Nat.ne_of_lt hlt
      have hs : step (.task t x) c = some ⟨s',Function.update
          (Function.update c.tasks t (code ++ (pre ++ .unlock p :: rest))) child childCode⟩ := by
        simp only [step,Machine.stepTask,hcode,ho]
      exact hgo hs (by simp [Function.update_of_ne hne]) hx.1 hx.2
    | throw s' e =>
      have hs : step (.task t x) c = some ⟨(machine.unwind e (pre ++ .unlock p :: rest) s').1,
          Function.update c.tasks t (machine.unwind e (pre ++ .unlock p :: rest) s').2⟩ := by
        simp only [step,Machine.stepTask,hcode,ho]
      exact ⟨[x],_,Option.bind_eq_some_iff.mpr ⟨_,hs,rfl⟩,by simp,unwind_unlocks e htail⟩

end Progress

section Holders
variable {certificate : RTCCertificate} {ok : Label → Config → Prop} {c : Config} {t : ℕ}

/-- The lock of a peer is held by the task `t`. -/
structure HeldBy (p : PeerRef) (t : ℕ) (c : Config) : Prop where
  locked : c.shared.locked p = true
  /-- The guard is pending once, and only there. -/
  guard : ∀ u, weight (Instr.guards p) (c.tasks u) = if u = t then 1 else 0
  /-- The task does not wait for a lock, this one or another, nor for a task. -/
  waits : ∀ q body u, (c.tasks t).head? ≠ some (.lock q body) ∧ (c.tasks t).head? ≠ some (.join u) ∧
    (c.tasks t).head? ≠ some (.joinClose u)
  /-- Eight steps of the task alone are enough to free the lock. -/
  release : ∃ (xs : List Choice) (c' : Config),
    Interleaving.run step (xs.map (Label.task t)) c = some c' ∧ xs.length ≤ 8 ∧
      c'.shared.locked p = false

/-- The lock of a peer is free, and no guard of it is pending. -/
structure Free (p : PeerRef) (c : Config) : Prop where
  unlocked : c.shared.locked p = false
  guard : ∀ u, weight (Instr.guards p) (c.tasks u) = 0

lemma weight_guards_eq_zero {p : PeerRef} {l : List Instr} (h : ∀ j ∈ l, ∀ q, j ≠ .unlock q) :
    weight (Instr.guards p) l = 0 := by
  apply weight_eq_zero
  intro j hj
  cases j <;> first | rfl | exact absurd rfl (h _ hj _)

/-- A pending guard belongs to the function that the task is in. -/
lemma Shape.guarded {p : PeerRef} {l : List Instr} (h : Shape l)
    (hw : weight (Instr.guards p) l = 1) : ∃ pre rest, l = pre ++ .unlock p :: rest ∧
      (∀ j ∈ pre, 0 < j.ahead) ∧ weight Instr.ahead pre ≤ 7 := by
  cases h with
  | free hfree =>
    rw [weight_guards_eq_zero hfree] at hw
    cases hw
  | @holding pre q rest hpre hsteps hrest =>
    have hpre₀ : weight (Instr.guards p) pre = 0 := by
      apply weight_eq_zero
      intro j hj
      have := hpre j hj
      cases j <;> first | rfl | exact absurd this (lt_irrefl _)
    by_cases hq : q = p
    · subst hq
      exact ⟨pre,rest,rfl,hpre,hsteps⟩
    · simp [hpre₀,weight_guards_eq_zero hrest,hq] at hw

lemma HeldBy.of_guarded (hc : Spawned c) (hshape : Shape (c.tasks t)) {p : PeerRef}
    (hlocked : c.shared.locked p = true)
    (hguard : ∀ u, weight (Instr.guards p) (c.tasks u) = if u = t then 1 else 0) :
    HeldBy p t c := by
  obtain ⟨pre,rest,hcode,hpre,hsteps⟩ := hshape.guarded (by simpa using hguard t)
  refine ⟨hlocked,hguard,fun q body u => ?_,?_⟩
  · rw [hcode]
    cases pre with
    | nil => simp
    | cons i pre =>
      have hi := hpre i (by simp)
      refine ⟨?_,?_,?_⟩ <;>
        (intro he; cases he; exact absurd hi (lt_irrefl _))
  · obtain ⟨xs,c',hr,hlen,hfree⟩ := released hc hcode hpre
    exact ⟨xs,c',hr,by omega,hfree⟩

/-- In every reachable state the operations lock of a peer is free or held by exactly one task,
which waits for no lock and can free it by itself: the locks do not deadlock, and no way of leaving
a function, be it by an error, a timeout, a panic or an abort, keeps a lock. -/
theorem operations_exclusive (h : Reachable certificate ok c) (p : PeerRef) :
    Free p c ∨ ∃ t, HeldBy p t c := by
  have hsole := sole_of_reachable h p
  cases hl : c.shared.locked p with
  | false => exact .inl ⟨hl,fun u => (hl ▸ hsole).free u⟩
  | true =>
    obtain ⟨t,ht,hother⟩ := (hl ▸ hsole).owner
    refine .inr ⟨t,.of_guarded (spawned_of_reachable h) (shape_of_reachable h t) hl fun u => ?_⟩
    split_ifs with hu
    · rw [hu,ht]
    · by_contra hn
      exact hu (hother u hn)

end Holders

section Witness

/-- A description is being created for a peer when a second task comes to close the peer. -/
def describingRun : List Label :=
  [.submit twoPortsCommand,.task 0 .ok] ++ secondPortRun ++
    [.submit { operation_handle := 8, timeout := ⟨1000⟩, operation := .createDescription 1 true },
      .submit { operation_handle := 9, timeout := ⟨1000⟩, operation := .closePeer 1 },
      .task 0 .ok,.task 0 .ok,.task 2 .ok,.task 2 .ok,.task 3 .ok]

/-- The second task is at the lock. -/
def contends (c : Config) : Bool :=
  match c.tasks 3 with
  | .lock 0 .closePeer :: _ => (step (.task 3 .ok) c).isNone
  | _ => false

theorem operations_exclusive_describing : ∃ c,
    Reachable ⟨"",[]⟩ (fun _ _ => True) c ∧ HeldBy 0 2 c ∧ contends c = true := by
  have hrun : (Interleaving.run step describingRun (init ⟨"",[]⟩)).map (fun c =>
      (c.shared.locked 0,weight (Instr.guards 0) (c.tasks 2),contends c)) =
        some (true,1,true) := by rfl
  obtain ⟨c,hc,hseen⟩ := Option.map_eq_some_iff.mp hrun
  obtain ⟨hlocked,hseen⟩ := Prod.mk.inj hseen
  obtain ⟨hguard,hcontends⟩ := Prod.mk.inj hseen
  have hreach : Reachable ⟨"",[]⟩ (fun _ _ => True) c := reaches_of_run hc fun _ _ _ => trivial
  obtain hfree | ⟨t,ht⟩ := operations_exclusive hreach 0
  · rw [hfree.unlocked] at hlocked
    cases hlocked
  · have h2 : 2 = t := by
      by_contra hne
      have := ht.guard 2
      simp [hguard,hne] at this
    exact ⟨c,hreach,h2 ▸ ht,hcontends⟩

end Witness
end Kestara.Native
