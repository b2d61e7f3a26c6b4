import Kestara.Kotlin.CloseSteps
import Kestara.Kotlin.Budgets
import Kestara.Kotlin.StateFlows

/-!
# CLOSED in the state flows of a peer

`markClosed` writes CLOSED to two state flows after it has won the compare-and-set on `closed`.
A state event is applied without a look at that flag, by a coroutine that may have found the peer
long before. As long as no such event comes after the write, CLOSED stays.
-/
namespace Kestara.Kotlin
open Interleaving

/-- The state flows of a peer that `markClosed` writes to. -/
inductive PeerFlow
  | state
  | signalingState
  deriving DecidableEq, Repr

namespace PeerFlow

def closedIn : PeerFlow → PeerConnection → Bool
  | .state,peer => decide (peer.state = .closed)
  | .signalingState,peer => decide (peer.signalingState = .closed)

/-- The write of `markClosed`. -/
def write : PeerFlow → PeerId → Instr
  | .state,p => .peer p (.setState .closed)
  | .signalingState,p => .peer p (.setSignalingState .closed)

/-- A state event that gives the flow another value than CLOSED. -/
def reopens : PeerFlow → NativeEvent → Bool
  | .state,e => decide (e.kind? = some .peerState) &&
      (getOrNull PeerConnectionState.values e.number).any (· ≠ .closed)
  | .signalingState,e => decide (e.kind? = some .signalingState) &&
      (getOrNull SignalingState.values e.number).any (· ≠ .closed)

/-- How many writes of CLOSED an instruction is. -/
def writes : PeerFlow → PeerId → Instr → ℕ
  | .state,p,.peer q (.setState .closed) => if q = p then 1 else 0
  | .signalingState,p,.peer q (.setSignalingState .closed) => if q = p then 1 else 0
  | _,_,_ => 0

end PeerFlow

/-- An event that gives the flow another value than CLOSED is applied to a peer only while its
closed flag is not set. -/
def OrderlyStates (f : PeerFlow) (l : Label) (c : Config) : Prop :=
  ∀ t x p e rest, l.scheduled = some (t,x) → c.tasks t = .peer p (.handle e) :: rest →
    f.reopens e = true → (c.shared.peer p).closed = false

def PeerInstr.setsFlow : PeerInstr → Bool
  | .setState _ | .setSignalingState _ => true
  | _ => false

/-- The flows are set by `markClosed`, and to CLOSED. -/
lemma leaves_setsFlow {i : Instr} {p : PeerId} {k : PeerInstr} (hk : k.setsFlow = true)
    (h : i.leaves (.peer p k)) :
    (∃ b, i = .peer p (.markClosed b)) ∧ (k = .setState .closed ∨ k = .setSignalingState .closed) := by
  cases k with
  | setState v | setSignalingState v =>
    obtain ⟨hb,rfl⟩ := origin_of_leaves h
    exact ⟨hb,by simp⟩
  | _ => cases hk

section Writes
variable {f : PeerFlow} {p : PeerId}

@[simp] lemma writes_write : f.writes p (f.write p) = 1 := by
  cases f <;> simp [PeerFlow.writes,PeerFlow.write]

lemma write_of_writes {i : Instr} (h : f.writes p i ≠ 0) : i = f.write p := by
  unfold PeerFlow.writes at h
  split at h
  · obtain rfl : _ = p := by simpa using h
    rfl
  · obtain rfl : _ = p := by simpa using h
    rfl
  · exact absurd rfl h

lemma leaves_writes {i j : Instr} (h : i.leaves j) :
    f.writes p j = 0 ∨ ∃ b, i = .peer p (.markClosed b) := by
  by_cases hj : f.writes p j = 0
  · exact .inl hj
  · cases write_of_writes hj
    cases f <;> exact .inr (leaves_setsFlow rfl h).1

/-- Every pending write of a flow writes CLOSED. -/
def Instr.WritesClosed : Instr → Prop
  | .peer _ (.setState v) => v = .closed
  | .peer _ (.setSignalingState v) => v = .closed
  | _ => True

lemma writesClosed_leaves {i j : Instr} (h : i.leaves j) : j.WritesClosed := by
  unfold Instr.WritesClosed
  split
  · simpa using (leaves_setsFlow rfl h).2
  · simpa using (leaves_setsFlow rfl h).2
  · trivial

theorem writesClosed_of_reachable {shutdownTimeout : ℤ} {fingerprint : String}
    {ok : Label → Config → Prop} {c : Config} (h : Reachable shutdownTimeout fingerprint ok c)
    (t : TaskId) : ∀ j ∈ c.tasks t, j.WritesClosed := by
  refine kind_of_reachable (P := fun _ j => j.WritesClosed) ?_ trivial trivial ?_ h t
  · intro _ i j _ hl
    exact writesClosed_leaves hl
  · intro _ _ s a
    cases a <;> simp [Api.code,Instr.WritesClosed]

def peerClosedCount (p : PeerId) (s : Shared) : ℕ := (s.peer p).closed.toNat

lemma weight_writes_teardown (b : Bool) :
    weight (f.writes p) (PeerConnection.teardown p b) = 1 := by
  cases f <;> simp [PeerConnection.teardown,PeerFlow.writes]

/-- The outcomes of the `markClosed` of a peer. -/
lemma peer_markClosed_cases {x : Choice} {t : TaskId} {b : Bool} {s s' : Shared}
    {code : List Instr} (h : exec x t (.peer p (.markClosed b)) s = .next s' code) :
    s' = s ∧ code = [] ∨ (s.peer p).closed = false ∧ code = PeerConnection.teardown p b ∧
      s' = s.setPeer p fun peer => { peer with closed := true } := by
  have hok := execOk_of_object rfl h
  simp only [execOk,PeerConnection.exec] at hok
  split_ifs at hok with hc
  · cases hok
    exact .inl ⟨rfl,rfl⟩
  · cases hok
    exact .inr ⟨by simpa using hc,rfl,rfl⟩

/-- The compare-and-set on `closed` pays for one write to each flow. -/
lemma pays_writes {s : Shared} {x : Choice} {t : TaskId} {i : Instr} (hp : p < s.nextPeer) :
    Pays (f.writes p) (fun _ => 0) (peerClosedCount p) s i (exec x t i s) := by
  cases ho : exec x t i s with
  | blocked | fork => trivial
  | throw s' e =>
    have hs := objects_of_throw ho
    simp [Pays,peerClosedCount,hs.peer]
  | next s' code =>
    change weight (f.writes p) code + 0 + peerClosedCount p s ≤ _
    by_cases hi : ∃ b, i = .peer p (.markClosed b)
    · obtain ⟨b,rfl⟩ := hi
      obtain ⟨rfl,rfl⟩ | ⟨hc,rfl,rfl⟩ := peer_markClosed_cases ho
      · simp
      · rw [weight_writes_teardown]
        simp [peerClosedCount,Shared.setPeer,hc]
    · have hl := leaves_exec s x t i
      rw [ho] at hl
      have hcode : weight (f.writes p) code = 0 :=
        weight_eq_zero fun j hj => (leaves_writes (hl j hj)).resolve_right hi
      obtain hcl | ⟨b,rfl,-⟩ := (closeEffect_exec s ho).peer p hp
      · simp [hcode,hcl,peerClosedCount]
      · exact absurd ⟨b,rfl⟩ hi

lemma writes_handler {e : Exn} {i : Instr} {code : List Instr} (h : handler e i = some code) :
    weight (f.writes p) code ≤ f.writes p i := by
  unfold handler at h
  split at h <;> cases h <;> simp [PeerFlow.writes]

lemma writes_allocated {s : Shared} {i : Instr} (hi : i.Allocated s) (hp : s.nextPeer ≤ p) :
    f.writes p i = 0 := by
  by_contra hw
  cases write_of_writes hw
  cases f <;> exact absurd hi (not_lt.mpr hp)

variable (f p) in
/-- No write is pending for a peer that a step constructs. -/
lemma writes_fresh {x : Choice} {t : TaskId} {c c' : Config} (hc : Constructed c)
    (hs : TaskStep x t c c') (hp : c.shared.nextPeer ≤ p) :
    ∀ u, weight (f.writes p) (c'.tasks u) = 0 := by
  have hold : ∀ u, weight (f.writes p) (c.tasks u) = 0 := fun u =>
    weight_eq_zero fun i hi => writes_allocated (hc.code u i hi) hp
  intro u
  cases hs with
  | @next i rest s code head he =>
    by_cases hu : u = t
    · subst hu
      have hrest := hold u
      rw [head,weight_cons] at hrest
      have hl := leaves_exec c.shared x u i
      rw [he] at hl
      have hcode : weight (f.writes p) code = 0 := by
        apply weight_eq_zero
        intro j hj
        obtain hw | ⟨b,rfl⟩ := leaves_writes (f := f) (p := p) (hl j hj)
        · exact hw
        · have hi : (Instr.peer p (.markClosed b)).Allocated c.shared := hc.code u _ (by simp [head])
          exact absurd hi (not_lt.mpr hp)
      simp only [Function.update_self,weight_append]
      omega
    · simpa only [Function.update_of_ne hu] using hold u
  | @throw i rest s e head he =>
    by_cases hu : u = t
    · subst hu
      have hrest := hold u
      have hthrow := weight_afterThrow (fun _ _ _ => writes_handler (f := f) (p := p)) e rest
      rw [head,weight_cons] at hrest
      simp only [Function.update_self]
      omega
    · simpa only [Function.update_of_ne hu] using hold u

/-- Each flow of a peer has at most one write of CLOSED pending, and none before `closed`. -/
theorem writes_within {shutdownTimeout : ℤ} {fingerprint : String} {ok : Label → Config → Prop}
    {c : Config} (h : Reachable shutdownTimeout fingerprint ok c) (f : PeerFlow) :
    ∀ p < c.shared.nextPeer, Within (f.writes p) c.tasks 0 (peerClosedCount p c.shared) := by
  refine h.induct (I := fun c => ∀ p < c.shared.nextPeer,
    Within (f.writes p) c.tasks 0 (peerClosedCount p c.shared)) ?_ ?_
  · intro p hp
    exact absurd hp (Nat.not_lt_zero p)
  · intro l c c' hr hI _ hs p hp
    cases step_cases hs with
    | @task _ x t _ hl active ht =>
      by_cases hlt : p < c.shared.nextPeer
      · have hpays : ∀ i rest, c.tasks t = i :: rest →
            Pays (f.writes p) (fun _ => 0) (peerClosedCount p) c.shared i (exec x t i c.shared) :=
          fun i _ _ => pays_writes hlt
        exact ht.within (fun _ _ _ => writes_handler) hpays (hI p hlt)
      · exact .of_idle (writes_fresh f p (constructed_of_reachable hr) ht (not_lt.mp hlt))
          (Nat.zero_le _)
    | @call t a ht idle admitted =>
      apply (hI p hp).update
      have hcode : weight (f.writes p) (a.code c.shared) = 0 := by
        cases a <;> simp [Api.code,PeerFlow.writes]
      simp only [hcode,idle,weight_nil]
      omega
    | receive ht idle hr =>
      obtain ⟨y,ys,known,-,-,rfl⟩ := receive_cases hr
      exact hI p hp
    | cancel | native => exact hI p hp

end Writes

section Flows
variable {s s' : Shared} {f : PeerFlow} {p : PeerId}

/-- A step that changes the peers by one function that keeps CLOSED. -/
lemma closedIn_setPeer {q : PeerId} {g : PeerConnection → PeerConnection}
    (hg : q = p → f.closedIn (s.peer p) = true → f.closedIn (g (s.peer p)) = true)
    (h : f.closedIn (s.peer p) = true) : f.closedIn ((s.setPeer q g).peer p) = true := by
  by_cases hq : p = q
  · subst hq
    simpa [Shared.setPeer] using hg rfl h
  · simpa [Shared.setPeer,hq] using h

/-- The other state events, and CLOSED itself, leave CLOSED. -/
lemma closedIn_update {peer peer' : PeerConnection} {e : NativeEvent}
    (hf : peer'.flows = peer.flows.update e) (hr : f.reopens e = false)
    (h : f.closedIn peer = true) : f.closedIn peer' = true := by
  have hstate := congrArg Flows.state hf
  have hsignaling := congrArg Flows.signalingState hf
  simp only [PeerConnection.flows,Flows.update] at hstate hsignaling
  cases f with
  | state =>
    simp only [PeerFlow.closedIn,decide_eq_true_eq] at h ⊢
    rw [hstate]
    split
    · next hk =>
      cases hv : getOrNull PeerConnectionState.values e.number <;>
        simp_all [PeerFlow.reopens]
    all_goals exact h
  | signalingState =>
    simp only [PeerFlow.closedIn,decide_eq_true_eq] at h ⊢
    rw [hsignaling]
    split
    case h_4 hk =>
      cases hv : getOrNull SignalingState.values e.number <;> simp_all [PeerFlow.reopens]
    all_goals exact h

lemma closedIn_handle {e : NativeEvent} {code : List Instr} {q : PeerId}
    (he : PeerConnection.handleNativeEvent q e s = .ok (s',code))
    (hr : q = p → f.reopens e = false) (h : f.closedIn (s.peer p) = true) :
    f.closedIn (s'.peer p) = true := by
  have hflows := (flows_handleNativeEvent s he).2 p
  by_cases hq : p = q
  · subst hq
    rw [if_pos rfl] at hflows
    exact closedIn_update hflows (hr rfl) h
  · rw [if_neg hq] at hflows
    have hstate := congrArg Flows.state hflows
    have hsignaling := congrArg Flows.signalingState hflows
    simp only [PeerConnection.flows] at hstate hsignaling
    cases f <;> simpa [PeerFlow.closedIn,hstate,hsignaling] using h

lemma closedIn_peer {q : PeerId} {i : PeerInstr} {code : List Instr}
    (he : PeerConnection.exec q i s = .next s' code) (hw : (Instr.peer q i).WritesClosed)
    (hr : ∀ e, q = p → i = .handle e → f.reopens e = false) (h : f.closedIn (s.peer p) = true) :
    f.closedIn (s'.peer p) = true := by
  revert he
  fun_cases PeerConnection.exec q i s <;> intro he
  case case8 =>
    unfold execAwait at he
    split at he <;> cases he
    exact h
  case case10 e s'' code' hh =>
    cases he
    have hkept := closedIn_handle hh (fun hq => hr e hq rfl) h
    exact hkept
  case case3 | case13 =>
    cases he
    exact closedIn_setPeer (s := s.newChannel q _ _ _) (fun _ h => by cases f <;> exact h) h
  case case6 | case14 | case17 | case18 | case19 | case22 =>
    cases he
    exact closedIn_setPeer (fun _ h => by cases f <;> exact h) h
  case case20 v =>
    cases he
    cases hw
    exact closedIn_setPeer (fun _ h => by cases f <;> simp_all [PeerFlow.closedIn]) h
  case case21 v =>
    cases he
    cases hw
    exact closedIn_setPeer (fun _ h => by cases f <;> simp_all [PeerFlow.closedIn]) h
  all_goals cases he
  all_goals exact h

/-- CLOSED is lost by the application of a state event only. -/
theorem closedIn_exec {x : Choice} {t : TaskId} {i : Instr} {code : List Instr}
    (he : exec x t i s = .next s' code) (hp : p < s.nextPeer) (hw : i.WritesClosed)
    (hr : ∀ e, i = .peer p (.handle e) → f.reopens e = false) (h : f.closedIn (s.peer p) = true) :
    f.closedIn (s'.peer p) = true := by
  by_cases hi : i.isSystem = true
  · obtain hs | ⟨handle,capacity,timeout,rfl,-⟩ := objects_of_system hi he
    · rw [hs.peer]
      exact h
    · have hne : p ≠ s.nextPeer := Nat.ne_of_lt hp
      simpa [Shared.newPeer,hne] using h
  · have hok := execOk_of_object (by simpa using hi) he
    cases i with
    | submit | loop | runtime => exact (hi rfl).elim
    | peer q i => exact closedIn_peer hok hw (fun e hq hi => hr e (by rw [hq,hi])) h
    | channel c i =>
      simp only [execOk] at hok
      revert hok
      fun_cases DataChannel.exec c i s <;> intro hok
      case case7 =>
        unfold execAwait at hok
        split at hok <;> cases hok
        exact h
      all_goals cases hok
      all_goals exact h
    | send q y =>
      simp only [execOk,execSend] at hok
      split_ifs at hok <;> cases hok <;> exact h
    | sendSuspended q y =>
      simp only [execOk,execSendSuspended] at hok
      split_ifs at hok
      cases hok
      exact h
    | closeQueue q =>
      cases hok
      exact h

end Flows

/-- CLOSED has been written to the flow of the peer, and no write to it is left. -/
structure Absorbed (f : PeerFlow) (p : PeerId) (c : Config) : Prop where
  constructed : p < c.shared.nextPeer
  closed : (c.shared.peer p).closed = true
  closedIn : f.closedIn (c.shared.peer p) = true
  written : ∀ u, weight (f.writes p) (c.tasks u) = 0

section Theorem
variable {shutdownTimeout : ℤ} {fingerprint : String} {f : PeerFlow} {p : PeerId}

lemma Absorbed.step {ok : Label → Config → Prop} {l : Label} {c c' : Config}
    (hc : Reachable shutdownTimeout fingerprint ok c) (h : Absorbed f p c)
    (hok : OrderlyStates f l c) (hs : step l c = some c') : Absorbed f p c' := by
  have hbudget : Within (f.writes p) c.tasks 0 0 := .of_idle h.written le_rfl
  cases step_cases hs with
  | @task _ x t _ hl active ht =>
    cases ht with
    | @next i rest s code head he =>
      have hw := writesClosed_of_reachable hc t i (by simp [head])
      have heff := closeEffect_exec c.shared he
      have hclosed : (s.peer p).closed = true := by
        obtain hcl | ⟨b,-,hcl,-⟩ := heff.peer p h.constructed
        · exact hcl.trans h.closed
        · rw [h.closed] at hcl
          cases hcl
      have hpay := pays_writes (f := f) (x := x) (t := t) (i := i) h.constructed
      rw [he] at hpay
      change weight (f.writes p) code + 0 + peerClosedCount p c.shared ≤
        f.writes p i + 0 + peerClosedCount p s at hpay
      simp only [peerClosedCount,h.closed,hclosed] at hpay
      refine ⟨lt_of_lt_of_le h.constructed heff.nextPeer,hclosed,?_,?_⟩
      · refine closedIn_exec he h.constructed hw ?_ h.closedIn
        rintro e rfl
        by_contra hr
        have hopen := hok t x p e rest hl head (by simpa using hr)
        rw [h.closed] at hopen
        cases hopen
      · intro u
        have hafter : Within (f.writes p) (Function.update c.tasks t (code ++ rest)) 0 0 := by
          apply hbudget.update
          simp only [head,weight_append,weight_cons]
          omega
        simpa using hafter.task u
    | @throw i rest s e head he =>
      have hsame := objects_of_throw he
      refine ⟨by simpa [hsame.nextPeer] using h.constructed,by simpa [hsame.peer] using h.closed,
        by simpa [hsame.peer] using h.closedIn,?_⟩
      intro u
      have hthrow := weight_afterThrow (fun _ _ _ => writes_handler (f := f) (p := p)) e rest
      have hafter : Within (f.writes p) (Function.update c.tasks t (afterThrow e rest)) 0 0 := by
        apply hbudget.update
        simp only [head,weight_cons]
        omega
      simpa using hafter.task u
  | @call t a ht idle admitted =>
    refine ⟨h.constructed,h.closed,h.closedIn,?_⟩
    intro u
    by_cases hu : u = t
    · subst hu
      simp only [Function.update_self]
      cases a <;> simp [Api.code,PeerFlow.writes]
    · simpa only [Function.update_of_ne hu] using h.written u
  | receive ht idle hr =>
    obtain ⟨y,ys,known,-,-,rfl⟩ := receive_cases hr
    exact ⟨h.constructed,h.closed,h.closedIn,h.written⟩
  | cancel | native => exact ⟨h.constructed,h.closed,h.closedIn,h.written⟩

/-- The step that writes CLOSED. -/
lemma absorbed_of_write {ok : Label → Config → Prop} {l : Label} {t : TaskId} {x : Choice}
    {c c' : Config} {rest : List Instr} (hc : Reachable shutdownTimeout fingerprint ok c)
    (hl : l.scheduled = some (t,x)) (head : c.tasks t = f.write p :: rest)
    (hs : step l c = some c') : Absorbed f p c' := by
  have hp : p < c.shared.nextPeer := by
    have hi := (constructed_of_reachable hc).code t (f.write p) (by simp [head])
    cases f <;> exact hi
  have hbudget := writes_within hc f p hp
  have hclosed : (c.shared.peer p).closed = true := by
    have hpending := hbudget.mem (show f.write p ∈ c.tasks t by simp [head])
    by_contra hn
    have hcount : peerClosedCount p c.shared = 0 := by simpa [peerClosedCount] using hn
    rw [hcount,writes_write] at hpending
    omega
  have hafter : Within (f.writes p) (Function.update c.tasks t rest) 0 0 := by
    apply hbudget.update
    simp [head,peerClosedCount,hclosed]
  cases step_cases hs with
  | @task _ x' t' _ hl' active ht =>
    cases hl.symm.trans hl'
    cases ht with
    | @next i rest' s code head' he =>
      cases head.symm.trans head'
      have hok := execOk_of_object (by cases f <;> rfl) he
      cases f with
      | state | signalingState =>
        cases hok
        refine ⟨hp,?_,?_,fun u => by simpa using hafter.task u⟩
        · simpa [Shared.setPeer] using hclosed
        · simp [Shared.setPeer,PeerFlow.closedIn]
    | @throw i rest' s e head' he =>
      cases head.symm.trans head'
      cases f <;> cases x <;> cases he
  | call | receive | cancel | native => cases hl

/-- Once `markClosed` has set a flow of a peer to CLOSED, the flow is CLOSED in every later state of
an orderly run. -/
theorem closedIn_of_orderlyStates {l : Label} {t : TaskId} {x : Choice} {c c' d : Config}
    {rest : List Instr} (hc : Reachable shutdownTimeout fingerprint (OrderlyStates f) c)
    (hl : l.scheduled = some (t,x)) (head : c.tasks t = f.write p :: rest)
    (hs : step l c = some c') (hd : Reaches step (OrderlyStates f) c' d) :
    f.closedIn (d.shared.peer p) = true := by
  have hok : OrderlyStates f l c := by
    intro u y q e r hu hi
    cases hl.symm.trans hu
    have hi := head.symm.trans hi
    cases f <;> cases hi
  have hc' : Reachable shutdownTimeout fingerprint (OrderlyStates f) c' := hc.tail ⟨l,hok,hs⟩
  have habsorbed := hd.induct (I := Absorbed f p) (absorbed_of_write hc hl head hs)
    (fun a e e' he hI ha hse => hI.step (hc'.trans he) ha hse)
  exact habsorbed.closedIn

end Theorem
/-- An executable form of the condition. -/
def orderlyStates (f : PeerFlow) (l : Label) (c : Config) : Bool :=
  match l.scheduled with
  | none => true
  | some (t,_) =>
    match c.tasks t with
    | .peer p (.handle e) :: _ => !(c.shared.peer p).closed || !f.reopens e
    | _ => true

lemma orderlyStates_of_check {f : PeerFlow} (l : Label) (c : Config)
    (h : orderlyStates f l c = true) : OrderlyStates f l c := by
  intro t x p e rest hl head hr
  simpa [orderlyStates,hl,head,hr] using h

/-- A state event of the peer with the handle 7. -/
def stateEvent : PeerFlow → ℤ → NativeEvent
  | .state,n => { kind := NativeEventKind.peerState.number, peerHandle := 7, number := n }
  | .signalingState,n =>
    { kind := NativeEventKind.signalingState.number, peerHandle := 7, number := n }

/-- Coroutine 1 closes the peer; an event of the flow follows the completion, and the event loop
has looked the peer up for it. -/
def closedWithEvent (f : PeerFlow) (n : ℤ) : List Label :=
  peerCreated ++ [.call 1 (.peerClose 0)] ++ steps 1 7 ++
    [.native (completion 2 7 0),.native (stateEvent f n)] ++ steps 0 7

/-- Coroutine 1 then gets as far as the write of CLOSED to the flow. -/
def writeReached : PeerFlow → List Label
  | .state => steps 1 4
  | .signalingState => steps 1 5

/-- The next instruction of the coroutine is the write of CLOSED to the flow. -/
def writeNext (f : PeerFlow) (c : Config) : Bool :=
  match f,c.tasks 1 with
  | .state,.peer 0 (.setState .closed) :: _ => true
  | .signalingState,.peer 0 (.setSignalingState .closed) :: _ => true
  | _,_ => false

lemma head_of_writeNext {f : PeerFlow} {c : Config} (h : writeNext f c = true) :
    ∃ rest, c.tasks 1 = f.write 0 :: rest := by
  unfold writeNext at h
  split at h
  · next hc => exact ⟨_,hc⟩
  · next hc => exact ⟨_,hc⟩
  · cases h

/-- The event loop finds CLOSED in the event, and the state flow stays CLOSED. -/
theorem closedIn_after_closedEvent : ∃ c c' d, Reachable 1000 "" (OrderlyStates .state) c ∧
    (∃ rest, c.tasks 1 = PeerFlow.state.write 0 :: rest) ∧ step (.run 1) c = some c' ∧
      Reaches step (OrderlyStates .state) c' d ∧
        (0,stateEvent .state 5) ∈ d.shared.history.peerStarted ∧
          PeerFlow.state.closedIn (d.shared.peer 0) = true := by
  have hrun : ((run (fun a d => if orderlyStates .state a d then step a d else none)
      (closedWithEvent .state 5 ++ writeReached .state) (init 1000 "")).bind fun c =>
        (step (.run 1) c).bind fun c' =>
          (run (fun a d => if orderlyStates .state a d then step a d else none) (steps 0 1) c').map fun d =>
            (writeNext .state c,d.shared.history.peerStarted)) =
      some (true,[(0,stateEvent .state 5)]) := by
    rfl
  obtain ⟨c,hc,hrest⟩ := Option.bind_eq_some_iff.mp hrun
  obtain ⟨c',hc',hrest⟩ := Option.bind_eq_some_iff.mp hrest
  obtain ⟨d,hd,ho⟩ := Option.map_eq_some_iff.mp hrest
  obtain ⟨rest,head⟩ := head_of_writeNext (Prod.mk.inj ho).1
  have hr : Reachable 1000 "" (OrderlyStates .state) c := reaches_of_checked orderlyStates_of_check hc
  have hr' : Reaches step (OrderlyStates .state) c' d := reaches_of_checked orderlyStates_of_check hd
  exact ⟨c,c',d,hr,⟨rest,head⟩,hc',hr',by simp [(Prod.mk.inj ho).2],
    closedIn_of_orderlyStates hr rfl head hc' hr'⟩

/-- A flow leaves CLOSED after markClosed has written it. -/
def Reopens (f : PeerFlow) : Prop :=
  ∃ c c' d, Reachable 1000 "" (fun _ _ => True) c ∧ (∃ rest, c.tasks 1 = f.write 0 :: rest) ∧
    step (.run 1) c = some c' ∧ Reaches step (fun _ _ => True) c' d ∧
      f.closedIn (c'.shared.peer 0) = true ∧ f.closedIn (d.shared.peer 0) = false

lemma reopens (f : PeerFlow) : Reopens f := by
  have hrun : ((run step (closedWithEvent f 3 ++ writeReached f) (init 1000 "")).bind fun c =>
        (step (.run 1) c).bind fun c' => (run step (steps 0 1) c').map fun d =>
          (writeNext f c,f.closedIn (c'.shared.peer 0),f.closedIn (d.shared.peer 0))) =
      some (true,true,false) := by
    cases f <;> rfl
  obtain ⟨c,hc,hrest⟩ := Option.bind_eq_some_iff.mp hrun
  obtain ⟨c',hc',hrest⟩ := Option.bind_eq_some_iff.mp hrest
  obtain ⟨d,hd,ho⟩ := Option.map_eq_some_iff.mp hrest
  obtain ⟨hw,hflows⟩ := Prod.mk.inj ho
  obtain ⟨hclosed,hopen⟩ := Prod.mk.inj hflows
  exact ⟨c,c',d,reaches_of_run hc (fun _ _ _ => trivial),head_of_writeNext hw,hc',
    reaches_of_run hd (fun _ _ _ => trivial),hclosed,hopen⟩

/-- A late state event takes either flow away from CLOSED. -/
theorem closed_flow_reopens : Reopens .state ∧ Reopens .signalingState :=
  ⟨reopens .state,reopens .signalingState⟩

end Kestara.Kotlin
