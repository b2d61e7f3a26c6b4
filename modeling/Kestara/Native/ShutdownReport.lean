import Kestara.Native.ShutdownPhases

/-!
# The report of a shutdown

A successful Shutdown is reported after every command dispatched before it has been completed, and
no command is completed after the report.
-/
namespace Kestara.Native
open Interleaving

section Growth
variable {ok : Label → Config → Prop} {c c' : Config} (op : UInt64)

lemma calls_grow {l : Label} (hs : step l c = some c') : calls op c.shared ≤ calls op c'.shared := by
  obtain ⟨hsubmitted,hrefused⟩ := calls_step hs
  rw [calls,calls,hsubmitted,hrefused,List.countP_append,List.count_append]
  omega

lemma calls_le_of_reaches (h : Reaches step ok c c') : calls op c.shared ≤ calls op c'.shared :=
  h.invariant (I := fun d => calls op c.shared ≤ calls op d.shared) le_rfl
    fun _ _ _ hI _ hs => hI.trans (calls_grow op hs)

lemma completions_le_of_reaches (h : Reaches step ok c c') :
    completions op c.shared ≤ completions op c'.shared :=
  h.invariant (I := fun d => completions op c.shared ≤ completions op d.shared) le_rfl
    fun _ _ _ hI _ hs => hI.trans (completions_mono op hs)

end Growth

/-- The controller has reported the Shutdown `op`, and dispatches no more commands. -/
structure Reported (op : UInt64) (command : TaskId → Option Command) (c : Config) : Prop where
  code : c.tasks 0 = [.stopReceiving] ∨ c.tasks 0 = []
  command : c.shared.command = command
  books : Books c.shared (some op) []
  sent : 0 < completions op c.shared

section Report
variable {x : Choice} {c c' d : Config} {l : Label} {op : UInt64} {value : OperationValue}
  {code : List Instr} {command : TaskId → Option Command}

lemma Reported.step (h : Reported op command c) (hspawned : Spawned c) (hctrl : ControlOnly c)
    (hs : step l c = some c') : Reported op command c' := by
  have ha := ahead_of_step hs
  have hsent : 0 < completions op c'.shared := h.sent.trans_le (ha.completions op)
  by_cases hl : ∃ x, l = .task 0 x
  · obtain ⟨x,rfl⟩ := hl
    obtain hc | hc := h.code
    · obtain ⟨hshared,htasks⟩ :=
        taskStep_plain (Machine.taskStep_of_stepTask hs) hc rfl rfl (by simp) rfl
      refine ⟨.inr (by simp [htasks]),?_,?_,hsent⟩
      · rw [hshared]
        exact h.command
      · rw [hshared]
        exact ⟨h.books.queue,h.books.done⟩
    · simp only [Native.step,Machine.stepTask,hc] at hs
      cases hs
  · have hl : ∀ x, l ≠ .task 0 x := fun x he => hl ⟨x,he⟩
    have hm := unmoved_of_step hctrl hl hs
    refine ⟨?_,hm.command.trans h.command,h.books.other hm ha (calls_step hs).1,hsent⟩
    rw [other_code hspawned.pos hl hs]
    exact h.code

/-- When the controller is about to report success, nothing is left to wait for. -/
lemma Phase.reporting (h : Phase c) (head : c.tasks 0 = .post op (.ok value) :: code) :
    code = [.stopReceiving] ∧ Books c.shared (some op) [] := by
  cases h with
  | receiving hc => cases head.symm.trans hc
  | joining op' left hc =>
    cases left with
    | nil => cases head.symm.trans hc
    | cons u left => cases head.symm.trans hc
  | closing op' pre hc hpre =>
    cases hpre with
    | spawning => cases head.symm.trans hc
    | @joining closes =>
      cases closes with
      | nil => cases head.symm.trans hc
      | cons u closes => cases head.symm.trans hc
  | succeeded op' value' hc books =>
    obtain hc | hc | ⟨hc | hc,-⟩ := hc
    · cases head.symm.trans hc
    · cases head.symm.trans hc
      exact ⟨rfl,books⟩
    · cases head.symm.trans hc
    · cases head.symm.trans hc
  | failed op' error hc =>
    rw [head] at hc
    have hmem := hc.subset (List.mem_cons_self (a := Instr.post op (.ok value)) (l := code))
    simp at hmem

lemma reported_of_post (h : Phase c) (head : c.tasks 0 = .post op (.ok value) :: code)
    (hs : step (.task 0 x) c = some c') :
    c'.shared = c.shared.send_event (.operation op (.ok value)) ∧
      Reported op c.shared.command c' := by
  obtain ⟨rfl,books⟩ := h.reporting head
  obtain ⟨hshared,htasks⟩ :=
    taskStep_plain (Machine.taskStep_of_stepTask hs) head rfl rfl (by simp) rfl
  refine ⟨hshared,.inl (by simp [htasks]),?_,?_,?_⟩
  · rw [hshared]
    rfl
  · rw [hshared]
    refine ⟨books.queue,fun u command hu => (books.done u command hu).imp_right fun hsent => ?_⟩
    rw [completions_send_event]
    omega
  · rw [hshared]
    simp

lemma reported_of_reaches {certificate : RTCCertificate} {ok ok' : Label → Config → Prop}
    (hc : Reachable certificate ok' c) (h : Reported op command c) (hd : Reaches step ok c d) :
    Reported op command d := by
  have hany : ∀ {e}, Reaches step ok c e → Reachable certificate (fun _ _ => True) e := fun he =>
    (hc.weaken fun _ _ _ => trivial).trans (he.weaken fun _ _ _ => trivial)
  exact hd.induct (I := Reported op command) h fun l e e' he hI _ hs =>
    hI.step (spawned_of_reachable (hany he)) (controlOnly_of_reachable (hany he)) hs

/-- After the report no command is completed. -/
lemma completions_kept {certificate : RTCCertificate} {ok : Label → Config → Prop}
    (hreach : Reachable certificate ok d) (hd : Distinct d.shared) (h : Reported op command c)
    (h' : Reported op command d) (hcd : Reaches step ok c d) {cmd : Command}
    (hcmd : cmd ∈ d.shared.history.submitted) :
    completions cmd.operation_handle d.shared = completions cmd.operation_handle c.shared := by
  have hanswers : answers cmd.operation_handle d.shared ≤ 1 :=
    (answering_of_reachable hreach _).spent_le.trans (hd.calls_le _)
  have hmono := completions_le_of_reaches cmd.operation_handle hcd
  rw [answers] at hanswers
  obtain hqueue | ⟨u,hu⟩ | htaken := h'.books.queue cmd hcmd
  · have hpos : 0 < queued cmd.operation_handle d.shared :=
      List.countP_pos_iff.mpr ⟨cmd,hqueue,by simp⟩
    omega
  · rw [h'.command,← h.command] at hu
    obtain hnone | hsent := h.books.done u cmd hu
    · cases hnone
    · omega
  · cases htaken
    have hsent := h.sent
    omega

/-- Before the report every command that has left the queue is complete, but for the Shutdown. -/
lemma completed_before {certificate : RTCCertificate} {ok : Label → Config → Prop}
    (hreach : Reachable certificate ok c) (hcalls : ∀ op, calls op c.shared ≤ 1)
    (books : Books c.shared (some op) []) {cmd : Command}
    (hcmd : cmd ∈ c.shared.history.submitted) (hqueue : cmd ∉ c.shared.commands)
    (hop : cmd.operation_handle ≠ op) : completions cmd.operation_handle c.shared = 1 := by
  have hup := (completions_le_calls hreach cmd.operation_handle).trans (hcalls _)
  obtain h | ⟨u,hu⟩ | h := books.queue cmd hcmd
  · exact absurd h hqueue
  · obtain hnone | hsent := books.done u cmd hu
    · cases hnone
    · omega
  · exact absurd (Option.some.inj h).symm hop

/-- What is accounted for when the controller reports success for the Shutdown `op` in the step
from `c` to `c'`. -/
structure ShutdownReport (op : UInt64) (value : OperationValue) (c c' : Config) : Prop where
  report : c'.shared.events = c.shared.events ++ [.operation op (.ok value)]
  unreported : completions op c.shared = 0
  before : ∀ command ∈ c.shared.history.submitted, command ∉ c.shared.commands →
    command.operation_handle ≠ op → completions command.operation_handle c.shared = 1

/-- Every operation is completed at most once and every refused one exactly once. A successful
Shutdown is reported when all commands taken before it are complete, and none is completed after
it. -/
theorem completions_accounted {certificate : RTCCertificate} :
    (∀ ok c, Reachable certificate ok c → Distinct c.shared → Accounted c.shared) ∧
    ∀ op value code x c c' d, Reachable certificate NoPanic c →
      c.tasks 0 = .post op (.ok value) :: code → step (.task 0 x) c = some c' →
        Reaches step NoPanic c' d → Distinct d.shared →
          ShutdownReport op value c c' ∧ ∀ command ∈ d.shared.history.submitted,
            completions command.operation_handle d.shared =
              completions command.operation_handle c'.shared := by
  refine ⟨fun ok c => accounted_of_reachable,
    fun op value code x c c' d hc head hs hd hdistinct => ?_⟩
  have hphase := phase_of_reachable hc
  have hc' : Reachable certificate (fun _ _ => True) c' :=
    .tail (hc.weaken fun _ _ _ => trivial) ⟨_,trivial,hs⟩
  have hcd : Reaches step (fun _ _ => True) c' d := hd.weaken fun _ _ _ => trivial
  have hcalls : ∀ op, calls op c.shared ≤ 1 := fun op =>
    (calls_grow op hs).trans ((calls_le_of_reaches op hd).trans (hdistinct.calls_le op))
  obtain ⟨hshared,hreported⟩ := reported_of_post hphase head hs
  refine ⟨⟨?_,?_,fun command hcmd hqueue hop => ?_⟩,fun command hcmd => ?_⟩
  · rw [hshared]
    rfl
  · have hpending := (answering_of_reachable hc op).task 0
    rw [head,weight_cons,answers] at hpending
    have hone : (Instr.post op (.ok value)).completes op = 1 := by simp [Instr.completes]
    have hle := hcalls op
    omega
  · exact completed_before hc hcalls (hphase.reporting head).2 hcmd hqueue hop
  · exact completions_kept (hc'.trans hcd) hdistinct hreported
      (reported_of_reaches hc' hreported hcd) hcd hcmd

end Report

section Witness

/-- A command, a refused call and a Shutdown, up to its report. -/
def shutdownRun : List Label :=
  [.submit { operation_handle := 7, timeout := ⟨1000⟩, operation := .closePeer 5 },
    .submit { operation_handle := 8, timeout := ⟨1000⟩, operation := .shutdown },
    .completeError 9 "Runtime is closed",.task 0 .ok,.task 1 .ok,.task 1 .ok,.task 1 .ok,
    .task 0 .ok,.task 0 .ok,.task 0 .ok,.task 0 .ok,.task 0 .ok]

/-- The steps that `NoPanic` admits. -/
def guarded (l : Label) (c : Config) : Option Config := if noPanic l c then step l c else none

theorem completions_accounted_shutdown : ∃ c c' d, Reachable ⟨"",[]⟩ NoPanic c ∧
    Reaches step NoPanic c' d ∧ ShutdownReport 8 {} c c' ∧ Accounted d.shared ∧
      [7,8,9].map (completions · d.shared) = [1,1,1] := by
  have hrun : ((Interleaving.run guarded shutdownRun (init ⟨"",[]⟩)).bind fun c =>
      (step (.task 0 .ok) c).bind fun c' =>
        (Interleaving.run guarded [.task 0 .ok] c').map fun d => (c,c',d)).map
          (fun y => (y.1.tasks 0,[7,8,9].map (completions · y.2.2.shared),
            y.2.2.shared.history.submitted.map Command.operation_handle ++
              y.2.2.shared.history.refused)) =
        some ([.post 8 (.ok {}),.stopReceiving],[1,1,1],[7,8,9]) := by rfl
  obtain ⟨⟨c,c',d⟩,hall,hseen⟩ := Option.map_eq_some_iff.mp hrun
  obtain ⟨_,hc,hall⟩ := Option.bind_eq_some_iff.mp hall
  obtain ⟨_,hstep,hall⟩ := Option.bind_eq_some_iff.mp hall
  obtain ⟨_,hd,heq⟩ := Option.map_eq_some_iff.mp hall
  cases heq
  obtain ⟨head,hseen⟩ := Prod.mk.inj hseen
  obtain ⟨hcompletions,hhandles⟩ := Prod.mk.inj hseen
  have hreach : Reachable ⟨"",[]⟩ NoPanic c := reaches_of_checked noPanic_sound hc
  have hafter : Reaches step NoPanic c' d := reaches_of_checked noPanic_sound hd
  have hpost : NoPanic (.task 0 .ok) c := noPanic_sound _ _ (by simp only [noPanic]; rw [head]; rfl)
  have hdistinct : Distinct d.shared := by
    rw [Distinct,hhandles]
    decide
  have haccounted := @completions_accounted ⟨"",[]⟩
  exact ⟨c,c',d,hreach,hafter,
    (haccounted.2 8 {} _ .ok c c' d hreach head hstep hafter hdistinct).1,
    haccounted.1 NoPanic d ((hreach.tail ⟨_,hpost,hstep⟩).trans hafter) hdistinct,hcompletions⟩

end Witness
end Kestara.Native
