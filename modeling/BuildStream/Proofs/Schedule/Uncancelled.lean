/-
# Schedules that nobody cancels

Cancellation is requested by a choice or by the action of a task, and by nobody else.  So if no
action that is registered cancels and the choices do not either, nothing is requested all along
(`Uncancelled.run`); the end of a schedule, which is driven without a deadline, adds no such choice.

Then no poll is answered with yes, and the schedule comes to the verdicts of its plan
(`verdicts_of_not_requested`).  The tasks of a workspace are of this kind: what is configured waits,
runs its tests and reports, but never cancels (`Workspace.neverCancels_registry`).
-/
import BuildStream.Proofs.Schedule.Reports
import BuildStream.Task.Configured

namespace BuildStream

/-! ## 1. Actions and scripts -/

/-- However its questions are answered and its tests end, the action does not cancel. -/
def Action.NeverCancels : Action → Prop
  | .finish _ => True
  | .poll next => ∀ answer, (next answer).NeverCancels
  | .cancel _ => False
  | .pause _ next => next.NeverCancels
  | .test _ _ body next => body.NeverCancels ∧ ∀ passed, (next passed).NeverCancels

namespace Script

variable {ε : Type} {r : Reporter ε} {lost : String} {run : TaskRun}

/-- Whatever is learnt on the way, the rest of the script does not cancel. -/
def NeverCancels : Script ε → Prop
  | .done _ => True
  | .emit _ next => next.NeverCancels
  | .clock next => ∀ now, (next now).NeverCancels
  | .stamp next => ∀ stamp, (next stamp).NeverCancels
  | .poll next => ∀ answer, (next answer).NeverCancels
  | .cancel _ => False
  | .pause _ next => next.NeverCancels

/-- A way through a script that does not cancel leads to one that does not. -/
theorem Path.neverCancels {s t : Script ε} {signs : List (Sign ε)} (h : Path run s signs t)
    (hs : s.NeverCancels) : t.NeverCancels := by
  induction h with
  | refl s => exact hs
  | emit sign _ ih => exact ih hs
  | clock now _ ih => exact ih (hs now)
  | stamp stamp _ ih => exact ih (hs stamp)
  | poll answer _ ih => exact ih (hs answer)
  | cancel _ ih => exact hs.elim
  | pause millis _ ih => exact ih hs

theorem neverCancels_tell {hook : Hook} {next : Script ε} (hn : next.NeverCancels) :
    (tell r hook next).NeverCancels := by
  intro now
  change (emitAll (r.signs (r.moment now) hook) next).NeverCancels
  generalize r.signs (r.moment now) hook = signs
  induction signs with
  | nil => exact hn
  | cons sign signs ih => exact ih

theorem neverCancels_ofAction {a : Action} (ha : a.NeverCancels) {finish : ActionResult → Script ε}
    (hf : ∀ result, (finish result).NeverCancels) : (ofAction r run finish a).NeverCancels := by
  induction a generalizing finish with
  | finish result => exact hf result
  | poll next ih => exact fun answer => ih answer (ha answer) hf
  | cancel next ih => exact ha.elim
  | pause millis next ih => exact ih ha hf
  | test name className body next ihb ihn =>
    intro stamp
    refine neverCancels_tell fun started => ihb ha.1 ?_
    intro result ended
    exact neverCancels_tell (ihn _ (ha.2 _) hf)

/-- **The script of a task** does not cancel if its action does not. -/
theorem neverCancels_ofTask {a : Action} (ha : a.NeverCancels) :
    (ofTask r lost run a).NeverCancels := by
  intro began
  refine neverCancels_tell fun started => neverCancels_ofAction ha ?_
  intro result ended
  dsimp only
  split
  · trivial
  · exact neverCancels_tell trivial

end Script

/-! ## 2. Configured tasks -/

namespace Action

theorem neverCancels_waitIntervals {interrupted : ActionResult} {next : Action}
    (hn : next.NeverCancels) (n : Nat) : (waitIntervals interrupted next n).NeverCancels := by
  induction n with
  | zero => exact hn
  | succ n ih =>
    intro answer
    cases answer with
    | true => trivial
    | false => exact ih

theorem neverCancels_wait {interrupted : ActionResult} {next : Action} (hn : next.NeverCancels)
    (millis : Nat) : (wait interrupted millis next).NeverCancels := by
  refine neverCancels_waitIntervals ?_ _
  split
  · exact hn
  · intro answer
    cases answer with
    | true => trivial
    | false => exact hn

end Action

theorem TaskConfig.neverCancels_action (t : TaskConfig) : t.action.NeverCancels := by
  have htests (tests : List TestConfig) (failed : Nat) : (t.runTests failed tests).NeverCancels := by
    induction tests generalizing failed with
    | nil => trivial
    | cons test tests ih => exact ⟨trivial, fun passed => ih _⟩
  exact Action.neverCancels_wait (htests _ _) _

namespace Registry

/-- No action of a registered task cancels. -/
def NeverCancels (r : Registry) : Prop := ∀ task ∈ r.tasks, task.action.NeverCancels

theorem mem_place {task other : TaskDefinition} {ts : List TaskDefinition}
    (h : other ∈ place task ts) : other = task ∨ other ∈ ts := by
  induction ts with
  | nil => exact .inl (List.mem_singleton.mp h)
  | cons t ts ih =>
    unfold place at h
    split at h <;> rcases List.mem_cons.mp h with rfl | h
    · exact .inl rfl
    · exact .inr (List.mem_cons_of_mem _ h)
    · exact .inr List.mem_cons_self
    · exact (ih h).imp_right (List.mem_cons_of_mem _)

theorem NeverCancels.foldl_register {r : Registry} (h : r.NeverCancels)
    {tasks : List TaskDefinition} (ht : ∀ task ∈ tasks, task.action.NeverCancels) :
    (tasks.foldl register r).NeverCancels := by
  induction tasks generalizing r with
  | nil => exact h
  | cons task tasks ih =>
    have hregistered : (r.register task).NeverCancels := by
      intro other ho
      rcases mem_place ho with rfl | ho
      · exact ht _ List.mem_cons_self
      · exact h other ho
    exact ih hregistered fun other ho => ht other (List.mem_cons_of_mem _ ho)

end Registry

/-- **No task of a workspace cancels.** -/
theorem Workspace.neverCancels_registry (w : Workspace) : w.registry.NeverCancels := by
  have hempty : ({} : Registry).NeverCancels := fun task ht => nomatch ht
  refine hempty.foldl_register ?_
  intro task ht
  obtain ⟨t, -, rfl⟩ := List.mem_map.mp ht
  exact t.neverCancels_action

/-! ## 3. Runs -/

namespace Schedule

variable {ε : Type} {su : ScheduleSetup ε} {s : Schedule ε}

/-- Nothing was requested, and no worker is going to. -/
structure Uncancelled (s : Schedule ε) : Prop where
  requested : s.requested = false
  workers : ∀ w ∈ s.workers, w.script.NeverCancels

theorem uncancelled_start (su : ScheduleSetup ε) (g : Generator) :
    (start su g false).Uncancelled where
  requested := rfl
  workers := by simp [start]

theorem Uncancelled.scheduler (hr : su.registry.NeverCancels) (h : s.Uncancelled) {t : Schedule ε}
    (hmove : SchedulerMove su s t) : t.Uncancelled := by
  cases hmove with
  | @handOver path queue task hw hq hget =>
    refine ⟨h.requested, ?_⟩
    intro w hw
    rcases List.mem_append.mp hw with hw | hw
    · exact h.workers w hw
    · obtain rfl := List.mem_singleton.mp hw
      exact Script.neverCancels_ofTask (hr task (List.mem_of_find?_eq_some hget))
  | endWave =>
    rw [endWave_eq]
    exact ⟨h.requested, fun w hw => nomatch hw⟩
  | _ => exact ⟨h.requested, h.workers⟩

/-- Only a worker whose script says so requests anything. -/
theorem Uncancelled.requested_workerStep (h : s.Uncancelled) (i : Nat) :
    (s.workerStep su i).requested = false := by
  cases hw : s.workers[i]? with
  | none => simp [workerStep, hw, h.requested]
  | some w =>
    have hn := h.workers w (List.mem_of_getElem? hw)
    cases hs : w.script with
    | cancel next =>
      rw [hs] at hn
      exact hn.elim
    | _ => simp [workerStep, hw, hs, h.requested]

theorem Uncancelled.worker (h : s.Uncancelled) (i : Nat) : (s.workerStep su i).Uncancelled := by
  refine ⟨h.requested_workerStep i, ?_⟩
  rcases workerStep_cases su s i with he | ⟨w, w', signs, hmove⟩
  · rw [he]
    exact h.workers
  · intro x hx
    rw [hmove.workers] at hx
    rcases List.mem_or_eq_of_mem_set hx with hx | rfl
    · exact h.workers x hx
    · exact hmove.path.neverCancels (h.workers w (List.mem_of_getElem? hmove.here))

/-- **A step keeps it**, unless it is the choice to cancel. -/
theorem Uncancelled.step (hr : su.registry.NeverCancels) (h : s.Uncancelled) {c : Choice}
    (hc : c ≠ .cancel) : (s.step su c).Uncancelled := by
  cases c with
  | scheduler =>
    unfold Schedule.step
    cases hs : s.schedulerStep su with
    | none => exact h
    | some t => exact h.scheduler hr (schedulerStep_cases hs)
  | worker i => exact h.worker i
  | cancel => exact absurd rfl hc

/-- **Nothing is requested in a run** in which nobody chooses to cancel. -/
theorem Uncancelled.run (hr : su.registry.NeverCancels) (h : s.Uncancelled) {choices : List Choice}
    (hc : .cancel ∉ choices) : (s.run su choices).Uncancelled := by
  induction choices generalizing s with
  | nil => exact h
  | cons c choices ih =>
    rw [List.mem_cons, not_or] at hc
    exact ih (h.step hr (Ne.symm hc.1)) hc.2

theorem Uncancelled.runToEnd (hr : su.registry.NeverCancels) (h : s.Uncancelled)
    {choices : List Choice} (hc : .cancel ∉ choices) : (s.runToEnd su choices).Uncancelled := by
  obtain ⟨more, hrun, hmore⟩ := exists_runToEnd_eq_run su choices s
  rw [hrun]
  exact h.run hr (by simp [hc, hmore])

/-- **Where nothing was requested**, the reports in the end are the verdicts of the plan. -/
theorem verdicts_of_not_requested {targets : List String} {nodes : List PlanNode}
    (hm : Plan.Made su.registry targets nodes su.plan) {g : Generator} {requested : Bool}
    {choices : List Choice} (hr : ((start su g requested).run su choices).requested = false)
    (hf : ((start su g requested).run su choices).isFinished = true) :
    ((start su g requested).run su choices).cancelled = false ∧
      (((start su g requested).run su choices).orderedReports su).map
          (fun report => (report.path, report.verdict)) =
        su.plan.sorted.map fun path => (path, su.verdict path) := by
  have hcourse := onCourse_run hm g requested choices
  have hp : ((start su g requested).run su choices).poll su = false := by
    rw [poll, hr, Bool.and_false]
  obtain ⟨k, hk⟩ := judged_run hm hp
  exact ⟨hk.cancelled, (hk.finished hm hcourse hf).2⟩

end Schedule

end BuildStream
