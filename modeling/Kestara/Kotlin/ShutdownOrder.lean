import Kestara.Kotlin.BridgeCalls

/-!
# Shutdown comes last

`close` raises the closing flag before it submits `closeRuntime` under the mutex, and every
other submission reads the flag under the mutex; `completeShutdown` drains under the mutex
before it releases. So nothing is submitted behind either of them.
-/
namespace Kestara.Kotlin
open Interleaving

/-- The instructions of a submission that has been let through. -/
def Instr.accepted : Instr → Bool
  | .submit (.insert _ _) | .submit (.call _ _) => true
  | _ => false

lemma pastCheck_of_accepted {i : Instr} (h : i.accepted = true) : i.pastCheck = true := by
  unfold Instr.accepted at h
  split at h <;> first | rfl | cases h

lemma locked_of_accepted {i : Instr} (h : i.accepted = true) : i.locked = true :=
  locked_of_pastCheck (pastCheck_of_accepted h)

/-- What ends the runtime on the native side. -/
def BridgeCall.shutsDown (x : BridgeCall) : Bool := x.closesRuntime || x.releases

/-- No submission follows what ends the runtime. -/
def NothingBehind (calls : List BridgeCall) : Prop :=
  ∀ before x after, calls = before ++ x :: after → x.shutsDown = true →
    ∀ y ∈ after, y.isSubmission = false

lemma NothingBehind.append {calls : List BridgeCall} {y : BridgeCall} (h : NothingBehind calls)
    (hy : y.isSubmission = true → ∀ x ∈ calls, x.shutsDown = false) :
    NothingBehind (calls ++ [y]) := by
  intro before x after he hx z hz
  rcases List.eq_nil_or_concat after with rfl | ⟨after',w,rfl⟩
  · cases hz
  · rw [List.concat_eq_append] at he hz
    have hsplit : calls ++ [y] = (before ++ x :: after') ++ [w] := by rw [he]; simp
    obtain ⟨hcalls,hw⟩ := List.append_inj' hsplit rfl
    cases hw
    rcases List.mem_append.mp hz with hz | hz
    · exact h before x after' hcalls hx z hz
    · cases List.mem_singleton.mp hz
      rw [Bool.eq_false_iff]
      intro hs
      rw [hy hs x (by simp [hcalls])] at hx
      cases hx

section Budgets
variable {shutdownTimeout : ℤ} {fingerprint : String} {ok : Label → Config → Prop} {c : Config}

lemma handler_light {e : Exn} {i : Instr} {code : List Instr} (h : handler e i = some code) :
    ∀ j ∈ code, j.light := by
  unfold handler at h
  split at h <;> cases h <;> simp [Instr.light,Instr.closeWeight,Instr.releaseWeight]

lemma api_light (s : Shared) (a : Api) (h : a.admitted s) : ∀ j ∈ a.code s, j.light := by
  cases a with
  | peerRequest p request =>
    obtain ⟨-,h⟩ := h
    simp only [peerRequests,List.mem_cons,List.not_mem_nil,or_false] at h
    rcases h with rfl | rfl | rfl | rfl <;>
      simp [Api.code,Instr.light,Instr.closeWeight,Instr.releaseWeight,SubmitInstr.submission?]
  | channelRequest p request =>
    obtain ⟨-,h⟩ := h
    simp only [channelRequests,List.mem_cons,List.not_mem_nil,or_false] at h
    rcases h with rfl | rfl | rfl <;>
      simp [Api.code,Instr.light,Instr.closeWeight,Instr.releaseWeight,SubmitInstr.submission?]
  | _ => simp [Api.code,Instr.light,Instr.closeWeight,Instr.releaseWeight,SubmitInstr.submission?]

lemma receive_same {q : QueueRef} {s s' : Shared} (h : receive q s = some s') :
    s'.history = s.history ∧ s'.runtime = s.runtime := by
  obtain ⟨y,ys,known,-,-,rfl⟩ := receive_cases h
  exact ⟨rfl,rfl⟩

/-- At most one coroutine is going to submit `closeRuntime`, and only if nobody has. -/
theorem closeWithin_of_reachable (h : Reachable shutdownTimeout fingerprint ok c) :
    Within Instr.closeWeight c.tasks c.shared.closeCalls c.shared.runtime.closing.toNat := by
  refine within_of_reachable Shared.closeCalls (fun s => s.runtime.closing.toNat) ?_ ?_ ?_ rfl rfl
    (by simp [init,Shared.closeCalls]) ?_ (fun _ _ _ => ⟨rfl,rfl⟩) h
  · intro e i code hc
    rw [weight_eq_zero fun j hj => (handler_light hc j hj).1]
    omega
  · intro x t i s
    have := calls_exec t s x i
    cases he : exec x t i s with
    | next s' code => rw [he] at this; exact this.close
    | throw s' e =>
      rw [he] at this
      simpa [Pays] using this.close
    | blocked | fork => trivial
  · exact fun s a ha => weight_eq_zero fun j hj => (api_light s a ha j hj).1
  · intro q s s' hr
    obtain ⟨hh,hr⟩ := receive_same hr
    simp only [Shared.closeCalls,hh,hr,and_self]

/-- At most one coroutine is going to release the native runtime, and only if nobody has. -/
theorem releaseWithin_of_reachable (h : Reachable shutdownTimeout fingerprint ok c) :
    Within Instr.releaseWeight c.tasks c.shared.releaseCalls c.shared.runtime.closed.toNat := by
  refine within_of_reachable Shared.releaseCalls (fun s => s.runtime.closed.toNat) ?_ ?_ ?_ rfl rfl
    (by simp [init,Shared.releaseCalls]) ?_ (fun _ _ _ => ⟨rfl,rfl⟩) h
  · intro e i code hc
    rw [weight_eq_zero fun j hj => (handler_light hc j hj).2]
    omega
  · intro x t i s
    have := calls_exec t s x i
    cases he : exec x t i s with
    | next s' code => rw [he] at this; exact this.release
    | throw s' e =>
      rw [he] at this
      simpa [Pays] using this.release
    | blocked | fork => trivial
  · exact fun s a ha => weight_eq_zero fun j hj => (api_light s a ha j hj).2
  · intro q s s' hr
    obtain ⟨hh,hr⟩ := receive_same hr
    simp only [Shared.releaseCalls,hh,hr,and_self]

lemma guarded_leaves {i j : Instr} (hi : i.guarded) (h : i.leaves j) : j.guarded := by
  cases j with
  | send | sendSuspended | closeQueue | channel | peer | loop | runtime => trivial
  | submit k =>
    cases i with
    | send | sendSuspended | closeQueue => cases h
    | submit m =>
      cases m with
      | await op r => cases r <;> simp [Instr.leaves,SubmitInstr.leaves,Resume.leaves] at h
      | begin b =>
        obtain ⟨op,h⟩ := h
        cases h
        exact hi
      | lock | checkClosed | checkClosing | insert =>
        cases h
        exact hi
      | call =>
        cases h
        simp [Instr.guarded,SubmitInstr.submission?]
    | channel c m =>
      cases m <;> simp [Instr.leaves,ChannelInstr.leaves,DataChannel.closeBody,
        DataChannel.teardown] at h
      obtain ⟨d,rfl⟩ := h
      simp [Instr.guarded,SubmitInstr.submission?]
    | peer p m =>
      cases m <;> simp [Instr.leaves,PeerInstr.leaves,PeerConnection.closeBody,
        PeerConnection.teardown] at h
      obtain ⟨d,rfl⟩ := h
      simp [Instr.guarded,SubmitInstr.submission?]
    | loop m => cases m <;> simp [Instr.leaves,LoopInstr.leaves] at h
    | runtime m =>
      cases m <;> simp [Instr.leaves,RuntimeInstr.leaves,WebRtcRuntime.closeBody,
        WebRtcRuntime.teardown,WebRtcRuntime.afterDrain] at h
      obtain ⟨d,rfl⟩ := h
      simp [Instr.guarded,SubmitInstr.submission?]

theorem guarded_of_reachable (h : Reachable shutdownTimeout fingerprint ok c) :
    ∀ t, ∀ j ∈ c.tasks t, j.guarded := by
  refine kind_of_reachable (P := fun _ => Instr.guarded) (fun _ _ _ => guarded_leaves) trivial
    trivial ?_ h
  intro t _ s a
  cases a <;> simp [Api.code,Instr.guarded,SubmitInstr.submission?]

end Budgets

/-- A submission is let through by the check of `closing` only. -/
lemma leaves_accepted {i j : Instr} (h : i.leaves j) (hj : j.accepted = true) :
    i.accepted = true ∨ ∃ op b, i = .submit (.checkClosing op b) := by
  cases j with
  | send | sendSuspended | closeQueue | channel | peer | loop | runtime => cases hj
  | submit k =>
    cases i with
    | send | sendSuspended | closeQueue => cases h
    | channel c m =>
      cases m <;> simp [Instr.leaves,ChannelInstr.leaves,DataChannel.closeBody,
        DataChannel.teardown] at h
      obtain ⟨d,rfl⟩ := h
      cases hj
    | peer p m =>
      cases m <;> simp [Instr.leaves,PeerInstr.leaves,PeerConnection.closeBody,
        PeerConnection.teardown] at h
      obtain ⟨d,rfl⟩ := h
      cases hj
    | loop m => cases m <;> simp [Instr.leaves,LoopInstr.leaves] at h
    | runtime m =>
      cases m <;> simp [Instr.leaves,RuntimeInstr.leaves,WebRtcRuntime.closeBody,
        WebRtcRuntime.teardown,WebRtcRuntime.afterDrain] at h
      obtain ⟨d,rfl⟩ := h
      cases hj
    | submit m =>
      cases m with
      | begin b =>
        obtain ⟨op,h⟩ := h
        cases h
        cases hj
      | lock | checkClosed =>
        cases h
        cases hj
      | checkClosing op b => exact .inr ⟨op,b,rfl⟩
      | insert | call => exact .inl rfl
      | await op r => cases r <;> simp [Instr.leaves,SubmitInstr.leaves,Resume.leaves] at h

structure ShutdownSealed (c : Config) : Prop where
  drained : c.shared.history.drained = true → c.shared.runtime.closed = true
  past : ∀ t i rest, c.tasks t = i :: rest → i.pastCheck = true → c.shared.history.drained = false
  releasing : ∀ t f, .runtime (.release f) ∈ c.tasks t → c.shared.history.drained = true
  released : 1 ≤ c.shared.releaseCalls → c.shared.history.drained = true
  closing : 1 ≤ c.shared.closeCalls → ∀ t, ∀ j ∈ c.tasks t, j.accepted = false
  last : NothingBehind c.shared.history.calls

lemma handler_plain {e : Exn} {i : Instr} {code : List Instr} (h : handler e i = some code) :
    ∀ j ∈ code, j.accepted = false ∧ ∀ f, j ≠ .runtime (.release f) := by
  unfold handler at h
  split at h <;> cases h <;> simp [Instr.accepted]

lemma checkClosing_next {x : Choice} {t : TaskId} {op : ℤ} {b : Submission} {s s' : Shared}
    {code : List Instr} (h : exec x t (.submit (.checkClosing op b)) s = .next s' code) :
    b.allowClosing = true ∨ s.runtime.closing = false := by
  cases x <;> simp only [exec,execOk,execFail,execCancel,WebRtcRuntime.execSubmit] at h
  · split_ifs at h with hc
    by_cases hb : b.allowClosing = true
    · exact .inl hb
    · refine .inr ?_
      simpa [hb] using hc
  · cases h
  · cases h

/-- A step in terms of the calls it makes and the instructions it leaves. -/
theorem TaskStep.calls {x : Choice} {t : TaskId} {c c' : Config} (hs : TaskStep x t c c') :
    ∃ i rest code rest', c.tasks t = i :: rest ∧ CallStep c.shared c'.shared i code ∧
      (∀ j ∈ code, i.leaves j ∧ exec x t i c.shared = .next c'.shared code) ∧
      (∀ j ∈ rest', j ∈ rest ∨ j.accepted = false ∧ ∀ f, j ≠ .runtime (.release f)) ∧
      c'.tasks = Function.update c.tasks t (code ++ rest') := by
  cases hs with
  | @next i rest s code head he =>
    have hcalls := calls_exec t c.shared x i
    have hleaves := leaves_exec c.shared x t i
    rw [he] at hcalls hleaves
    exact ⟨i,rest,code,rest,head,hcalls,fun j hj => ⟨hleaves j hj,he⟩,fun j hj => .inl hj,rfl⟩
  | @throw i rest s e head he =>
    have hcalls := calls_exec t c.shared x i
    rw [he] at hcalls
    refine ⟨i,rest,[],afterThrow e rest,head,hcalls,by simp,?_,rfl⟩
    intro j hj
    rcases mem_afterThrow hj with hj | ⟨k,-,code,hc,hj⟩
    · exact .inl hj
    · exact .inr (handler_plain hc j hj)

section Step
variable {x : Choice} {t : TaskId} {c c' : Config} (h : ShutdownSealed c) (hlock : Locking c)
  (hclose : Within Instr.closeWeight c.tasks c.shared.closeCalls c.shared.runtime.closing.toNat)
  (hrelease : Within Instr.releaseWeight c.tasks c.shared.releaseCalls c.shared.runtime.closed.toNat)
  (hguard : ∀ t, ∀ j ∈ c.tasks t, j.guarded) (hs : TaskStep x t c c')
include h hs

lemma ShutdownSealed.releasing_step (u : TaskId) (f : Option Exn)
    (hj : .runtime (.release f) ∈ c'.tasks u) : c'.shared.history.drained = true := by
  obtain ⟨i,rest,code,rest',head,-,hcode,hrest,htasks⟩ := hs.calls
  obtain ⟨_,_,_,_,-,hf,-⟩ := hs.flags
  have old : ∀ f, .runtime (.release f) ∈ c.tasks u → c'.shared.history.drained = true :=
    fun f hj => hf.drained_mono (h.releasing u f hj)
  rw [htasks] at hj
  by_cases hu : u = t
  · subst hu
    rw [Function.update_self,List.mem_append] at hj
    rcases hj with hj | hj
    · obtain ⟨hl,he⟩ := hcode _ hj
      obtain ⟨f,rfl⟩ := origin_of_leaves hl
      exact drained_drain he
    · rcases hrest _ hj with hj | ⟨-,hne⟩
      · exact old f (by simp [head,hj])
      · exact (hne f rfl).elim
  · rw [Function.update_of_ne hu] at hj
    exact old f hj

lemma ShutdownSealed.released_step (hr : 1 ≤ c'.shared.releaseCalls) :
    c'.shared.history.drained = true := by
  obtain ⟨i,rest,code,rest',head,hcalls,-⟩ := hs.calls
  obtain ⟨_,_,_,_,-,hf,-⟩ := hs.flags
  apply hf.drained_mono
  rcases hcalls.calls with he | ⟨y,he,-,hy⟩
  · rw [Shared.releaseCalls,he] at hr
    exact h.released hr
  · rw [Shared.releaseCalls,he,List.countP_append] at hr
    by_cases hyr : y.releases = true
    · obtain ⟨f,rfl⟩ := hy hyr
      exact h.releasing t f (by simp [head])
    · simp only [List.countP_cons,List.countP_nil,hyr] at hr
      exact h.released (by simpa [Shared.releaseCalls] using hr)

include hrelease in
lemma ShutdownSealed.drained_step (hd : c'.shared.history.drained = true) :
    c'.shared.runtime.closed = true := by
  obtain ⟨i,rest,code,rest',head,hf,-⟩ := hs.flags
  apply hf.closed_mono
  rcases hf.drained hd with hd | ⟨⟨f,rfl⟩,-⟩
  · exact h.drained hd
  · have hi : .runtime (.drain f) ∈ c.tasks t := by simp [head]
    have hw := hrelease.mem hi
    cases hc : c.shared.runtime.closed with
    | true => rfl
    | false =>
      rw [hc] at hw
      simp [Instr.releaseWeight] at hw

include hlock hclose hguard in
/-- Whoever submits `closeRuntime` holds the mutex, and the flag stops all others. -/
lemma ShutdownSealed.closing_step (hn : 1 ≤ c'.shared.closeCalls) (u : TaskId) (j : Instr)
    (hj : j ∈ c'.tasks u) : j.accepted = false := by
  obtain ⟨i,rest,code,rest',head,hcalls,hcode,hrest,htasks⟩ := hs.calls
  have hi : i ∈ c.tasks t := by simp [head]
  rw [Bool.eq_false_iff]
  intro ha
  have hheld : ∀ v, j ∈ c.tasks v → c.shared.runtime.lifecycleMutex = some v ∧
      ∃ r, c.tasks v = j :: r := by
    intro v hv
    have hl := locked_of_accepted ha
    cases hcv : c.tasks v with
    | nil => rw [hcv] at hv; cases hv
    | cons k r =>
      rw [hcv] at hv
      rcases List.mem_cons.mp hv with rfl | hv
      · exact ⟨hlock.holder v j r hcv hl,r,rfl⟩
      · have := locked_of_not_headOnly (hlock.tail v j (by simpa [hcv] using hv))
        rw [this] at hl
        cases hl
  by_cases hold : 1 ≤ c.shared.closeCalls
  · have hno := h.closing hold
    rw [htasks] at hj
    by_cases hu : u = t
    · subst hu
      rw [Function.update_self,List.mem_append] at hj
      rcases hj with hj | hj
      · obtain ⟨hl,he⟩ := hcode j hj
        rcases leaves_accepted hl ha with hia | ⟨op,b,rfl⟩
        · rw [hno u i hi] at hia
          cases hia
        · have hw := hclose.mem hi
          have hb := hguard u _ hi b rfl
          rcases checkClosing_next he with hal | hcl
          · simp [Instr.closeWeight,SubmitInstr.submission?,hb hal] at hw
            have := Bool.toNat_le c.shared.runtime.closing
            omega
          · have := hclose.spent_le
            rw [hcl] at this
            simp at this
            omega
      · rcases hrest j hj with hj | ⟨hj,-⟩
        · rw [hno u j (by simp [head,hj])] at ha
          cases ha
        · rw [hj] at ha
          cases ha
    · rw [Function.update_of_ne hu] at hj
      rw [hno u j hj] at ha
      cases ha
  · obtain ⟨op,b,rfl⟩ : ∃ op b, i = .submit (.call op b) := by
      rcases hcalls.calls with he | ⟨y,he,hy,-⟩
      · rw [Shared.closeCalls,he] at hn
        exact (hold hn).elim
      · apply hy
        by_contra hys
        rw [Shared.closeCalls,he,List.countP_append] at hn
        have hyc : y.closesRuntime = false := by
          cases y <;> first | rfl | exact (hys rfl).elim
        simp only [List.countP_cons,List.countP_nil,hyc] at hn
        exact hold (by simpa [Shared.closeCalls] using hn)
    have hmutex := hlock.holder t _ rest head rfl
    rw [htasks] at hj
    by_cases hu : u = t
    · subst hu
      rw [Function.update_self,List.mem_append] at hj
      rcases hj with hj | hj
      · obtain ⟨hl,-⟩ := hcode j hj
        cases hl
        cases ha
      · rcases hrest j hj with hj | ⟨hj,-⟩
        · have := locked_of_not_headOnly (hlock.tail u j (by simpa [head] using hj))
          rw [locked_of_accepted ha] at this
          cases this
        · rw [hj] at ha
          cases ha
    · rw [Function.update_of_ne hu] at hj
      obtain ⟨hm,-⟩ := hheld u hj
      rw [hmutex] at hm
      exact hu (Option.some.inj hm).symm

lemma ShutdownSealed.last_step : NothingBehind c'.shared.history.calls := by
  obtain ⟨i,rest,code,rest',head,hcalls,-⟩ := hs.calls
  rcases hcalls.calls with he | ⟨y,he,hy,-⟩
  · rw [he]
    exact h.last
  · rw [he]
    refine h.last.append ?_
    intro hys z hz
    obtain ⟨op,b,rfl⟩ := hy hys
    have hi : .submit (.call op b) ∈ c.tasks t := by simp [head]
    have hd := h.past t _ rest head rfl
    rw [Bool.eq_false_iff]
    intro hzs
    rw [BridgeCall.shutsDown,Bool.or_eq_true] at hzs
    rcases hzs with hzc | hzr
    · have hn : 1 ≤ c.shared.closeCalls := List.countP_pos_iff.mpr ⟨z,hz,hzc⟩
      cases h.closing hn t _ hi
    · have hn : 1 ≤ c.shared.releaseCalls := List.countP_pos_iff.mpr ⟨z,hz,hzr⟩
      rw [h.released hn] at hd
      cases hd

end Step

theorem shutdownSealed_of_reachable {shutdownTimeout : ℤ} {fingerprint : String}
    {ok : Label → Config → Prop} {c : Config} (h : Reachable shutdownTimeout fingerprint ok c) :
    ShutdownSealed c := by
  refine h.induct ?_ ?_
  · have hcode : ∀ t, ∀ j ∈ (init shutdownTimeout fingerprint).tasks t,
        j.accepted = false ∧ j.pastCheck = false ∧ ∀ f, j ≠ .runtime (.release f) := by
      intro t
      simp only [init]
      split_ifs <;> simp [Instr.accepted,Instr.pastCheck]
    refine ⟨by simp [init],by simp [init],?_,by simp [init,Shared.releaseCalls],
      fun _ t j hj => (hcode t j hj).1,?_⟩
    · exact fun t f hj => ((hcode t _ hj).2.2 f rfl).elim
    · intro before x after he
      simp [init] at he
  · intro l d d' hr hd _ hs
    cases step_cases hs with
    | task hl active ht =>
      exact ⟨hd.drained_step (releaseWithin_of_reachable hr) ht,
        ht.past (locking_of_reachable hr) hd.drained hd.past,hd.releasing_step ht,
        hd.released_step ht,
        hd.closing_step (locking_of_reachable hr) (closeWithin_of_reachable hr)
          (guarded_of_reachable hr) ht,
        hd.last_step ht⟩
    | @call t a ht idle admitted =>
      have hop := isOp_api d.shared a
      refine ⟨hd.drained,?_,?_,hd.released,?_,hd.last⟩
      · intro u i rest hi hp
        simp only [Function.update_apply] at hi
        split_ifs at hi
        · rw [pastCheck_of_not_locked (locked_of_not_isOp (hop i (by simp [hi])))] at hp
          cases hp
        · exact hd.past u i rest hi hp
      · intro u f hj
        simp only [Function.update_apply] at hj
        split_ifs at hj
        · cases (api_light d.shared a admitted _ hj).2
        · exact hd.releasing u f hj
      · intro hn u j hj
        simp only [Function.update_apply] at hj
        split_ifs at hj
        · rw [Bool.eq_false_iff]
          intro ha
          cases (locked_of_not_isOp (hop j hj)).symm.trans (locked_of_accepted ha)
        · exact hd.closing hn u j hj
    | receive ht idle hrec =>
      obtain ⟨y,ys,known,-,-,rfl⟩ := receive_cases hrec
      exact { hd with }
    | cancel | native => exact { hd with }

/-- What stands in the queue of the native controller. -/
inductive Command
  | operation (handle : ℤ) (request : Request) (target : ℤ)
  | shutdown (handle : ℤ)
  deriving DecidableEq, Repr

/-- What a call of the bridge puts into that queue. `release` sends a Shutdown of its own. -/
def BridgeCall.command? : BridgeCall → Option Command
  | .submit operation .closeRuntime _ => some (.shutdown operation)
  | .submit operation request target => some (.operation operation request target)
  | .release => some (.shutdown 0)
  | .refused _ _ _ | .wake => none

/-- `run_runtime` takes the commands in order and returns after the first Shutdown; what is
queued behind it is dropped. -/
def dropped : List Command → List Command
  | [] => []
  | .shutdown _ :: rest => rest
  | .operation _ _ _ :: rest => dropped rest

/-- Behind the first Shutdown there is only the one of `release`. -/
lemma dropped_of_nothingBehind {calls : List BridgeCall} (h : NothingBehind calls) :
    ∀ command ∈ dropped (calls.filterMap (·.command?)), command = .shutdown 0 := by
  induction calls with
  | nil => simp [dropped]
  | cons x calls ih =>
    have htail : NothingBehind calls :=
      fun before y after he => h (x :: before) y after (by rw [he]; rfl)
    have hbehind : x.shutsDown = true →
        ∀ command ∈ calls.filterMap (·.command?), command = .shutdown 0 := by
      intro hx command hc
      obtain ⟨y,hy,hyc⟩ := List.mem_filterMap.mp hc
      have hys := h [] x calls rfl hx y hy
      cases y <;> simp_all [BridgeCall.isSubmission,BridgeCall.command?]
    cases x with
    | submit operation request target =>
      cases request with
      | closeRuntime => simpa [BridgeCall.command?,dropped] using hbehind rfl
      | _ => simpa [BridgeCall.command?,dropped] using ih htail
    | release => simpa [BridgeCall.command?,dropped] using hbehind rfl
    | refused | wake => simpa [BridgeCall.command?] using ih htail

/-- The calls made so far, in their order. -/
structure ShutdownLast (calls : List BridgeCall) : Prop where
  closedOnce : calls.countP (·.closesRuntime) ≤ 1
  releasedOnce : calls.countP (·.releases) ≤ 1
  last : ∀ before x after, calls = before ++ x :: after → x.closesRuntime = true →
    ∀ y ∈ after, y.isSubmission = false
  handled : ∀ command ∈ dropped (calls.filterMap (·.command?)), command = .shutdown 0

theorem shutdownLast_of_reachable {shutdownTimeout : ℤ} {fingerprint : String} {c : Config}
    (h : Reachable shutdownTimeout fingerprint (fun _ _ => True) c) :
    ShutdownLast c.shared.history.calls := by
  have hsealed := shutdownSealed_of_reachable h
  refine ⟨?_,?_,?_,dropped_of_nothingBehind hsealed.last⟩
  · exact (closeWithin_of_reachable h).spent_le.trans (Bool.toNat_le _)
  · exact (releaseWithin_of_reachable h).spent_le.trans (Bool.toNat_le _)
  · intro before x after he hx
    exact hsealed.last before x after he (by simp [BridgeCall.shutsDown,hx])

/-- Coroutine 3 draws its operation before coroutine 2 closes the runtime, and takes the mutex
after it. -/
def submittedWhileClosing : List Label :=
  [.call 1 (.createPeerConnection ⟨1,least_range⟩ 1000)] ++ steps 1 6 ++
    [.call 3 .rotateCertificate] ++ steps 3 1 ++ [.call 2 .runtimeClose] ++ steps 2 7 ++ steps 3 3

theorem shutdownLast_submittedWhileClosing : ∃ c, Reachable 1000 "" (fun _ _ => True) c ∧
    c.shared.history.calls = [.submit 1 .createPeer 0,.submit 3 .closeRuntime 0] ∧
      ShutdownLast c.shared.history.calls := by
  have hrun : ((run step submittedWhileClosing (init 1000 "")).map fun c =>
      c.shared.history.calls) = some [.submit 1 .createPeer 0,.submit 3 .closeRuntime 0] := by
    rfl
  obtain ⟨c,hc,ho⟩ := Option.map_eq_some_iff.mp hrun
  have hr : Reachable 1000 "" (fun _ _ => True) c := reaches_of_run hc (fun _ _ _ => trivial)
  exact ⟨c,hr,ho,shutdownLast_of_reachable hr⟩

end Kestara.Kotlin
