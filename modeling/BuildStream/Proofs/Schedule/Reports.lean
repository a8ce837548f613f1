/-
# What a schedule reports

The reports of a schedule that nobody cancels are determined by its plan: they are the verdicts
that `Plan.verdict` gives without running anything, whatever the number of permits and whoever took
the steps (`reports_runToEnd`).  What is said of a worker that is lost comes from the machine; it is
in the text of the verdict on its own task, and makes no other difference.

Three pieces of its state decide what is started: whether something failed, which tasks block
others, and what was reported.  The invariant `Judged` says what they mean after the first waves
were begun.

* The schedule is where `Placed` says.
* Every report is the verdict on its task.  A worker is on its way to the verdict on its task.
* Something failed if a reported task failed; and as long as waves are begun, the tasks that block
  others are those reported that did not succeed.

Since what a task depends on is in an earlier wave, it was reported when the task is next.  So the
scheduler leaves out a task exactly if it is held back (`Judged.waitsOnFailure_iff`), and here the
two ways of going on after a failure meet.
-/
import BuildStream.Proofs.Plan.Verdicts
import BuildStream.Proofs.Schedule.Waves

namespace BuildStream

open Relation

/-! ## 1. The invariant -/

namespace ScheduleSetup

variable {ε : Type}

/-- A task is held back. -/
abbrev Held (su : ScheduleSetup ε) (path : TaskPath) : Prop :=
  su.plan.Held su.registry su.options.continueOnError path

/-- The verdict on a task. -/
noncomputable abbrev verdict (su : ScheduleSetup ε) (path : TaskPath) : Verdict :=
  su.plan.verdict su.registry su.lost su.options.continueOnError path

end ScheduleSetup

/-- A worker that was rightly started, and that is on its way to the verdict on its task. -/
structure Worker.Judged {ε : Type} (su : ScheduleSetup ε) (w : Worker ε) : Prop where
  planned : w.run.path ∈ su.plan.sorted
  free : ¬ su.Held w.run.path
  owned : w.script.Owned w.run
  ends : ∀ signs report, w.script.Path w.run signs (.done report) → Script.Quiet signs →
    report.path = w.run.path ∧ report.verdict = su.verdict w.run.path

namespace Worker.Judged

variable {ε : Type} {su : ScheduleSetup ε} {w : Worker ε}

/-- What a worker that is done reports. -/
theorem report (h : w.Judged su) {report : TaskReport}
    (hw : w.script = .done report) :
    report.path = w.run.path ∧ report.verdict = su.verdict w.run.path :=
  h.ends [] report (hw ▸ .refl _) fun _ _ ha => nomatch ha

theorem hasFailed_iff (h : w.Judged su) {report : TaskReport}
    (hw : w.script = .done report) :
    w.hasFailed = true ↔ (su.verdict w.run.path).status.isSuccess = false := by
  rw [← (h.report hw).2, Worker.hasFailed, hw]
  simp [Script.report?, TaskReport.verdict]

/-- A worker that was rightly started fails, or it succeeds. -/
theorem isFailed_iff {targets : List String} {nodes : List PlanNode}
    (hm : Plan.Made su.registry targets nodes su.plan) (h : w.Judged su) :
    (su.verdict w.run.path).status.isSuccess = false ↔
      (su.verdict w.run.path).status.isFailed = true := by
  obtain ⟨task, hg⟩ := hm.exists_task h.planned
  rw [Plan.isSuccess_verdict hg, Plan.isFailed_verdict, or_iff_right h.free, and_iff_right h.free]

end Worker.Judged

namespace Schedule

variable {ε : Type} {su : ScheduleSetup ε}

/-- What the state of a schedule means when so many waves were begun or passed over. -/
structure Judged (su : ScheduleSetup ε) (k : Nat) (s : Schedule ε) : Prop
    extends Placed su.registry su k s where
  verdicts : ∀ report ∈ s.reports, report.verdict = su.verdict report.path
  judged : ∀ w ∈ s.workers, w.Judged su
  failed : s.failed = true ↔
    ∃ path ∈ s.reports.map (·.path), (su.verdict path).status.isFailed = true
  blocked : s.isOver su = false → ∀ path, path ∈ s.blocked ↔
    path ∈ s.reports.map (·.path) ∧ (su.verdict path).status.isSuccess = false
  cancelled : s.cancelled = false
  /-- In a wave the schedule is not over. -/
  goesOn : s.inWave = true → s.isOver su = false

variable {targets : List String} {nodes : List PlanNode} {s : Schedule ε} {k : Nat}

theorem judged_start (hm : Plan.Made su.registry targets nodes su.plan) (g : Generator)
    (requested : Bool) : Judged su 0 (start su g requested) where
  toPlaced := placed_start hm g requested
  verdicts := by simp [start]
  judged := by simp [start]
  failed := by simp [start]
  blocked := by simp [start]
  cancelled := rfl
  goesOn := fun hf => nomatch hf

/-! ## 2. The next task of a wave -/

section Next

variable (hm : Plan.Made su.registry targets nodes su.plan) (h : Judged su k s)
include hm h

variable {path : TaskPath} {queue : List TaskPath} (hw : s.inWave = true)
  (hq : s.queue = path :: queue)
include hw hq

/-- What the next task awaits was reported. -/
theorem Judged.reported_of_awaits {other : TaskPath}
    (ha : su.plan.Awaits su.registry su.options.continueOnError path other) :
    other ∈ s.reports.map (·.path) := by
  have hnext : path ∈ s.workers.map (·.run.path) ++ s.queue := by simp [hq]
  obtain ⟨n, hn, -⟩ := h.wave hw path hnext
  obtain ⟨ho, m, hlm, hlt⟩ := hm.lower_of_awaits (h.mem_sorted hm hq) ha hn
  exact h.reported hm hw hnext hn ho hlm hlt

/-- **The next task is left out exactly if it is held back.** -/
theorem Judged.waitsOnFailure_iff : waitsOnFailure su s path = true ↔ su.Held path := by
  have hover := h.goesOn hw
  have hp := h.mem_sorted hm hq
  have hwaits : waitsOnFailure su s path = true ↔
      ∃ d, su.registry.DependsOn path d ∧ (su.verdict d).status.isSuccess = false := by
    rw [waitsOnFailure, List.any_eq_true]
    refine exists_congr ?_
    intro d
    rw [hm.mem_dependencies hp, List.contains_iff_mem, h.blocked hover]
    refine and_congr_right fun hd => and_iff_right ?_
    exact h.reported_of_awaits hm hw hq (hm.awaits_of_dependsOn hp hd)
  rw [hwaits]
  refine ⟨fun ⟨d, hd, hs⟩ => hm.held_of_dependsOn hp hd hs, ?_⟩
  intro hh
  cases hc : su.options.continueOnError with
  | true =>
    by_contra hn
    rw [ScheduleSetup.Held, hc] at hh
    have hs : ∀ d, su.registry.DependsOn path d →
        (su.plan.verdict su.registry su.lost true d).status.isSuccess = true := by
      intro d hd
      by_contra hs
      refine hn ⟨d, hd, ?_⟩
      rw [ScheduleSetup.verdict, hc]
      exact Bool.eq_false_iff.mpr hs
    exact hm.not_held_of_dependencies hp hs hh
  | false =>
    -- a failure in an earlier wave would have ended the schedule
    obtain ⟨other, ha, hv⟩ := (hm.held_iff hp).mp hh
    have hf : s.failed = true := h.failed.mpr ⟨other, h.reported_of_awaits hm hw hq ha, hv⟩
    simp [isOver, hf, hc] at hover

end Next

/-! ## 3. The invariant is kept -/

theorem Judged.leaveOut (h : Judged su k s) {path : TaskPath} {queue : List TaskPath}
    (hq : s.queue = path :: queue) (hh : su.Held path) :
    Judged su k (Schedule.leaveOut { s with queue } path) := by
  have hv : su.verdict path = .notRun := Plan.verdict_of_held hh
  refine ⟨h.toPlaced.leaveOut hq, ?_, h.judged, ?_, ?_, h.cancelled, h.goesOn⟩
  · intro report hr
    rcases List.mem_append.mp hr with hr | hr
    · exact h.verdicts report hr
    · rw [List.mem_singleton.mp hr]
      exact hv.symm
  · refine h.failed.trans ?_
    simp [Schedule.leaveOut, TaskReport.notRun, or_and_right, exists_or, hv, Verdict.notRun,
      TaskStatus.isFailed]
  · intro ho other
    have hb := h.blocked ho other
    by_cases he : other = path
    · subst he
      simp [Schedule.leaveOut, TaskReport.notRun, hv, Verdict.notRun, TaskStatus.isSuccess]
    · simpa [Schedule.leaveOut, TaskReport.notRun, he] using hb

/-- A worker that was just started is on its way to the verdict on its task. -/
theorem judged_ofTask {run : TaskRun} {task : TaskDefinition} {wake : Nat}
    (hr : su.registry.get? run.path = some task) (hp : run.path ∈ su.plan.sorted)
    (hf : ¬ su.Held run.path) :
    Worker.Judged su ⟨run, .ofTask su.reporter (su.lost run.path) run task.action, wake⟩ where
  planned := hp
  free := hf
  owned := Script.owned_ofTask _ run task.action
  ends := fun _ _ hpath hquiet => by
    obtain ⟨hreport, result, hgiven, hverdict, -⟩ := Script.path_ofTask hpath
    refine ⟨hreport, ?_⟩
    rw [hverdict, (Action.eq_outcome_of_given hgiven hquiet.answers).1, ScheduleSetup.verdict,
      Plan.verdict_of_not_held hf, Registry.ownVerdict_of_get? hr]

theorem Judged.handOver (h : Judged su k s) {path : TaskPath} {queue : List TaskPath}
    {task : TaskDefinition} (hq : s.queue = path :: queue)
    (hr : su.registry.get? path = some task) (hp : path ∈ su.plan.sorted) (hf : ¬ su.Held path) :
    Judged su k ((ask su { s with queue }).handOver su task) := by
  refine ⟨h.toPlaced.handOver hq hr, h.verdicts, ?_, h.failed, h.blocked, h.cancelled, h.goesOn⟩
  obtain rfl : task.path = path := Registry.path_of_get? hr
  intro w hw
  rcases List.mem_append.mp hw with hw | hw
  · exact h.judged w hw
  · rw [List.mem_singleton.mp hw]
    exact judged_ofTask hr hp hf

theorem Judged.endWave (hm : Plan.Made su.registry targets nodes su.plan) (h : Judged su k s)
    (hfollowed : Followed su s) (hw : s.inWave = true) (hq : s.queue = []) (hn : s.running = 0)
    (hp : s.poll su = false) : Judged su k (s.endWave su) := by
  have hplaced := h.toPlaced.endWave hfollowed hq hn
  have hreports : (s.workers.filterMap (·.script.report?)).map (·.path) =
      s.workers.map (·.run.path) := map_filterMap_eq_map fun w hw => by
    obtain ⟨report, hr⟩ := done_of_running hn hw
    exact ⟨report, by rw [hr]; rfl, ((h.judged w hw).report hr).1⟩
  have hfailed {w : Worker ε} (hw : w ∈ s.workers) :
      w.hasFailed = true ↔ (su.verdict w.run.path).status.isSuccess = false := by
    obtain ⟨report, hr⟩ := done_of_running hn hw
    exact (h.judged w hw).hasFailed_iff hr
  rw [endWave_eq] at hplaced ⊢
  refine ⟨hplaced, ?_, (fun w hw => nomatch hw), ?_, ?_, by simp [h.cancelled, hp],
    fun hf => nomatch hf⟩
  · intro report hr
    rcases List.mem_append.mp hr with hr | hr
    · exact h.verdicts report hr
    · obtain ⟨w, hw, hs⟩ := List.mem_filterMap.mp hr
      obtain ⟨other, ho⟩ := done_of_running hn hw
      obtain rfl : other = report := by rw [ho] at hs; exact Option.some.inj hs
      obtain ⟨hpath, hv⟩ := (h.judged w hw).report ho
      rw [hpath, hv]
  · simp only [Bool.or_eq_true, h.failed, List.map_append, hreports, List.mem_append, or_and_right,
      exists_or]
    refine or_congr_right ?_
    simp only [List.any_eq_true, List.mem_map, exists_exists_and_eq_and]
    refine exists_congr fun w => and_congr_right ?_
    intro hw
    rw [hfailed hw, (h.judged w hw).isFailed_iff hm]
  · intro _ other
    simp only [List.map_append, hreports, List.mem_append, or_and_right, h.blocked (h.goesOn hw)]
    refine or_congr_right ?_
    simp only [List.mem_map, List.mem_filter]
    constructor
    · rintro ⟨w, ⟨hw, hf⟩, rfl⟩
      exact ⟨⟨w, hw, rfl⟩, (hfailed hw).mp hf⟩
    · rintro ⟨⟨w, hw, rfl⟩, hf⟩
      exact ⟨w, ⟨hw, (hfailed hw).mpr hf⟩, rfl⟩

/-- Where something failed and the schedule does not go on, the whole next wave is held back. -/
theorem Judged.held_of_isOver (hm : Plan.Made su.registry targets nodes su.plan)
    (h : Judged su k s) (ho : s.isOver su = true) {wave : List TaskPath}
    (hk : su.plan.waves[k]? = some wave) {path : TaskPath} (hp : path ∈ wave) : su.Held path := by
  simp only [isOver, h.cancelled, Bool.false_or, Bool.and_eq_true, Bool.not_eq_true'] at ho
  obtain ⟨other, hr, hv⟩ := h.failed.mp ho.1
  obtain ⟨hos, n, hn, hlt⟩ := (h.mem_paths hm).mp (List.mem_append_left _ hr)
  have ha : su.plan.Awaits su.registry su.options.continueOnError path other := by
    rw [ho.2]
    exact ⟨n, k, hm.wave?_eq_some.mpr ⟨hos, hn⟩,
      hm.wave?_eq_some.mpr (hm.mem_wave.mp ⟨wave, hk, hp⟩), hlt⟩
  exact ⟨other, ha, (Plan.isFailed_verdict.mp hv).2⟩

theorem Judged.passOver (hm : Plan.Made su.registry targets nodes su.plan) (h : Judged su k s)
    (hset : s.workers = [] ∧ s.queue = []) {wave : List TaskPath} {waves : List (List TaskPath)}
    (hw : s.inWave = false) (hv : s.waves = wave :: waves) (ho : s.isOver su = true) :
    Judged su (k + 1)
      { s with waves, queue := [], reports := s.reports ++ wave.map .notRun } := by
  obtain ⟨hk, -⟩ := h.next hset hv
  have hheld {path : TaskPath} (hp : path ∈ wave) : su.verdict path = .notRun :=
    Plan.verdict_of_held (h.held_of_isOver hm ho hk hp)
  have hmap : (wave.map TaskReport.notRun).map (·.path) = wave := by
    rw [List.map_map]
    exact List.map_id _
  refine ⟨h.toPlaced.passOver hset hw hv, ?_, h.judged, ?_, ?_, h.cancelled, ?_⟩
  · intro report hr
    rcases List.mem_append.mp hr with hr | hr
    · exact h.verdicts report hr
    · obtain ⟨path, hmem, rfl⟩ := List.mem_map.mp hr
      exact (hheld hmem).symm
  · refine h.failed.trans ?_
    simp only [List.map_append, hmap, List.mem_append, or_and_right, exists_or]
    refine (or_iff_left ?_).symm
    rintro ⟨path, hmem, hf⟩
    rw [hheld hmem] at hf
    exact nomatch hf
  · exact fun hover => absurd (ho.symm.trans hover) (by simp)
  · exact fun hf => absurd (hw.symm.trans hf) (by simp)

theorem Judged.beginWave (hm : Plan.Made su.registry targets nodes su.plan) (h : Judged su k s)
    (hset : s.workers = [] ∧ s.queue = []) {wave : List TaskPath} {waves : List (List TaskPath)}
    (hv : s.waves = wave :: waves) (ho : s.isOver su = false) :
    Judged su (k + 1) { s with waves, inWave := true, queue := wave } :=
  ⟨h.toPlaced.beginWave hm hset hv, h.verdicts, h.judged, h.failed, h.blocked, h.cancelled,
    fun _ => ho⟩

theorem Judged.worker {t : Schedule ε} (h : Judged su k s) (hfollowed : Followed su s) {i : Nat}
    {w w' : Worker ε} {signs : List (Sign ε)} (hmove : WorkerMove su s t i w w' signs)
    (hp : s.poll su = false) : Judged su k t := by
  have hplaced := h.toPlaced.worker hfollowed hmove
  have hw := h.judged w (List.mem_of_getElem? hmove.here)
  have hw' : w'.Judged su := by
    refine ⟨hmove.run ▸ hw.planned, hmove.run ▸ hw.free, hmove.run ▸ ?_, ?_⟩
    · exact (hmove.path.owned hw.owned).2
    · intro more report hpath hquiet
      rw [hmove.run] at hpath ⊢
      refine hw.ends (signs ++ more) report (hmove.path.trans hpath) (Script.Quiet.append ?_ hquiet)
      exact fun worker answer ha => (hmove.answers hw.owned worker answer ha).trans hp
  have hworkers : ∀ x ∈ t.workers, x.Judged su := by
    intro x hx
    rw [hmove.workers] at hx
    rcases List.mem_or_eq_of_mem_set hx with hx | rfl
    · exact h.judged x hx
    · exact hw'
  rw [hmove.eq] at hplaced hworkers ⊢
  exact ⟨hplaced, h.verdicts, hworkers, h.failed, h.blocked, h.cancelled, h.goesOn⟩

/-- **A move keeps the invariant**, as long as cancellation cannot be observed. -/
theorem Judged.move (hm : Plan.Made su.registry targets nodes su.plan) {t : Schedule ε}
    (h : Judged su k s) (hs : OnCourse su.registry su s) (hp : s.poll su = false)
    (hmove : Move su s t) : ∃ k, Judged su k t := by
  cases hmove with
  | scheduler hmove =>
    cases hmove with
    | @leaveOut path queue hw hq why =>
      refine ⟨k, h.leaveOut hq ?_⟩
      obtain ⟨task, hr⟩ := hm.exists_task (h.mem_sorted hm hq)
      rcases why with hnone | hwaits | hc
      · exact nomatch hnone.symm.trans hr
      · exact (h.waitsOnFailure_iff hm hw hq).mp hwaits
      · exact nomatch hc.symm.trans h.cancelled
    | observe hw hq hp' => exact nomatch hp'.symm.trans hp
    | handOver hw hq hr hf hc hn hp' =>
      refine ⟨k, h.handOver hq hr (h.mem_sorted hm hq) ?_⟩
      intro hh
      exact nomatch hf.symm.trans ((h.waitsOnFailure_iff hm hw hq).mpr hh)
    | endWave hw hq hn => exact ⟨k, h.endWave hm hs.followed hw hq hn hp⟩
    | passOver hw hv ho => exact ⟨k + 1, h.passOver hm (hs.settled hw) hw hv ho⟩
    | beginWave hw hv ho => exact ⟨k + 1, h.beginWave hm (hs.settled hw) hv ho⟩
  | worker hmove => exact ⟨k, h.worker hs.followed hmove hp⟩
  | request hmove =>
    rw [hmove]
    exact ⟨k, h.toPlaced.congr rfl rfl rfl rfl rfl rfl, h.verdicts, h.judged, h.failed, h.blocked,
      h.cancelled, h.goesOn⟩

theorem judged_run (hm : Plan.Made su.registry targets nodes su.plan) {generator : Generator}
    {requested : Bool} {choices : List Choice}
    (hp : ((start su generator requested).run su choices).poll su = false) :
    ∃ k, Judged su k ((start su generator requested).run su choices) := by
  refine run_induction_onCourse (P := fun s => s.poll su = false → ∃ k, Judged su k s) hm
    (fun _ => ⟨0, judged_start hm generator requested⟩) (fun s t hs hj hmove ht => ?_) choices hp
  have hquiet : s.poll su = false :=
    Bool.eq_false_iff.mpr fun hp => Bool.eq_false_iff.mp ht (hmove.poll hp)
  obtain ⟨k, h⟩ := hj hquiet
  exact h.move hm hs hquiet hmove

/-! ## 4. At the end -/

/-- At the end every planned task was reported once, and the reports in the order of the plan are
the verdicts. -/
theorem Judged.finished (hm : Plan.Made su.registry targets nodes su.plan) (h : Judged su k s)
    (hs : OnCourse su.registry su s) (hf : s.isFinished = true) :
    (s.reports.map (·.path)).Perm su.plan.sorted ∧
      (s.orderedReports su).map (fun report => (report.path, report.verdict)) =
        su.plan.sorted.map fun path => (path, su.verdict path) := by
  refine ⟨hs.reports_perm hm hf, ?_⟩
  rw [← hs.map_path_orderedReports hm hf, List.map_map]
  refine List.map_congr_left fun report hr => ?_
  rw [h.verdicts report ((hs.mem_orderedReports hm hf).mp hr)]
  rfl

/-- **What a schedule reports**, if cancellation is never observed.

There is one verdict on each planned task, and every way to the end gives these verdicts: whatever
is made of hooks, whatever the number of permits, and whoever takes the steps.  A task is not run
if a task that it depends on, directly or not, failed, and if the schedule does not go on after
failures, if any task of an earlier wave failed.  Every other task ends as its own action does.

An error that cannot be rendered costs the worker, and what is then said of the task is the
machine's choice of words, so the verdict is given these words.  They decide no more than the text:
which tasks are run and which of them fail is the same for all words, and where the words for each
task that loses its worker are the same, so are the verdicts. -/
theorem reports_runToEnd {r : Registry} {targets : List String} {plan : Plan}
    (hplan : Plan.ofTargets r targets = .ok plan) (continueOnError : Bool) :
    plan.sorted.Nodup ∧ plan.sorted.Perm (plan.nodes.map (·.path)) ∧
    ∃ verdict : (TaskPath → String) → TaskPath → Verdict,
      (∀ lost, ∀ path ∈ plan.sorted, (verdict lost path).status = .notRun ↔
        if continueOnError then
          ∃ d, TransGen r.DependsOn path d ∧ (verdict lost d).status.isFailed = true
        else
          ∃ other i j, plan.wave? other = some i ∧ plan.wave? path = some j ∧ i < j ∧
            (verdict lost other).status.isFailed = true) ∧
      (∀ lost, ∀ path ∈ plan.sorted, (verdict lost path).status ≠ .notRun →
        ∃ task, r.get? path = some task ∧
          verdict lost path = task.action.outcome.verdict path (lost path)) ∧
      (∀ lost words, ∀ path ∈ plan.sorted,
        ((verdict lost path).status = .notRun ↔ (verdict words path).status = .notRun) ∧
          (verdict lost path).status.isFailed = (verdict words path).status.isFailed) ∧
      (∀ lost words, r.LostAlike lost words → verdict lost = verdict words) ∧
      ∀ {ε : Type} (su : ScheduleSetup ε) (generator : Generator) (requested : Bool)
        (choices : List Choice), su.registry = r → su.plan = plan →
        su.options.continueOnError = continueOnError →
        let final := (start su generator requested).runToEnd su choices
        final.poll su = false →
        final.isFinished = true ∧ (final.reports.map (·.path)).Perm plan.sorted ∧
          (final.orderedReports su).map (fun report => (report.path, report.verdict)) =
            plan.sorted.map fun path => (path, verdict su.lost path) := by
  obtain ⟨nodes, hm⟩ := Plan.exists_made hplan
  have hnotRun (lost : TaskPath → String) {path : TaskPath} (hp : path ∈ plan.sorted) :
      (plan.verdict r lost continueOnError path).status = .notRun ↔
        plan.Held r continueOnError path := by
    obtain ⟨task, hg⟩ := hm.exists_task hp
    exact Plan.verdict_eq_notRun_iff hg
  refine ⟨hm.taken.nodup, hm.sorted_perm, fun lost => plan.verdict r lost continueOnError,
    ?_, ?_, ?_, ?_, ?_⟩
  · intro lost path hp
    rw [hnotRun lost hp, hm.held_iff hp]
    cases continueOnError with
    | true => exact Iff.rfl
    | false =>
      simp only [Plan.Awaits, Bool.false_eq_true, if_false]
      constructor
      · rintro ⟨other, ⟨i, j, hi, hj, hij⟩, hv⟩
        exact ⟨other, i, j, hi, hj, hij, hv⟩
      · rintro ⟨other, i, j, hi, hj, hij, hv⟩
        exact ⟨other, ⟨i, j, hi, hj, hij⟩, hv⟩
  · intro lost path hp hn
    obtain ⟨task, hg⟩ := hm.exists_task hp
    refine ⟨task, hg, ?_⟩
    exact (Plan.verdict_of_not_held (mt (hnotRun lost hp).mpr hn)).trans
      (Registry.ownVerdict_of_get? hg)
  · intro lost words path hp
    refine ⟨(hnotRun lost hp).trans (hnotRun words hp).symm, ?_⟩
    rw [Bool.eq_iff_iff, Plan.isFailed_verdict, Plan.isFailed_verdict]
  · intro lost words hwords
    funext path
    exact Plan.verdict_congr (hwords path)
  · rintro ε su generator requested choices rfl rfl rfl final hquiet
    have hfinished : final.isFinished = true := isFinished_runToEnd su choices _
    obtain ⟨more, hrun⟩ := runToEnd_eq_run su choices (start su generator requested)
    change final = _ at hrun
    have hcourse : OnCourse su.registry su final := hrun ▸ onCourse_run hm generator requested _
    obtain ⟨k, h⟩ : ∃ k, Judged su k final := by
      rw [hrun] at hquiet ⊢
      exact judged_run hm hquiet
    exact ⟨hfinished, h.finished hm hcourse hfinished⟩

/-! ### A failure in the first wave -/

namespace Sample

/-- Two tasks that each wait for another, of which one fails. -/
def registry : Registry := .ofTasks
  [{ path := ":a", action := .finish (.error "broken") }, { path := ":b", dependsOn := [":a"] },
    { path := ":c" }, { path := ":d", dependsOn := [":c"] }] []

/-- Their plan. -/
def plan : Plan where
  nodes := [⟨":b", [":a"], 1⟩, ⟨":d", [":c"], 1⟩, ⟨":a", [], 0⟩, ⟨":c", [], 0⟩]
  sorted := [":a", ":c", ":b", ":d"]
  waves := [[":a", ":c"], [":b", ":d"]]

/-- A schedule that goes on after failures, with so many permits. -/
def setup (concurrency : Nat) : ScheduleSetup Empty where
  registry := registry
  plan := plan
  options := { concurrency, continueOnError := true }
  build := ⟨⟨1, 1⟩⟩
  reporter := ⟨.epoch, fun _ _ => []⟩
  hasToken := false
  lost := fun _ => "task 1 panicked"

/-- Both tasks of the first wave are at work, and the second one ends first. -/
def choices : List Choice :=
  List.replicate 3 .scheduler ++ List.replicate 7 (.worker 1) ++ List.replicate 7 (.worker 0) ++
    List.replicate 4 .scheduler ++ List.replicate 7 (.worker 0) ++ [.scheduler]

end Sample

/-- One task after the other comes to the same as both at once. -/
theorem reports_sample : Plan.ofTargets Sample.registry ["b", "d"] = .ok Sample.plan ∧
    let final := (start (Sample.setup 0) ⟨1, 1⟩ false).runToEnd (Sample.setup 0) []
    final.poll (Sample.setup 0) = false ∧
      (final.orderedReports (Sample.setup 0)).map (fun report => (report.path, report.verdict)) =
        [(":a", .ofError (.single "broken")), (":c", ⟨.success, none⟩), (":b", .notRun),
          (":d", ⟨.success, none⟩)] := by
  have hp : Plan.ofTargets Sample.registry ["b", "d"] = .ok Sample.plan := rfl
  obtain ⟨-, -, verdict, -, -, -, -, h⟩ := reports_runToEnd hp true
  have hone := h (Sample.setup 0) ⟨1, 1⟩ false [] rfl rfl rfl rfl
  have hboth := h (Sample.setup 2) ⟨1, 1⟩ false Sample.choices rfl rfl rfl rfl
  rw [runToEnd_of_isFinished (by decide)] at hboth
  exact ⟨hp, rfl, hone.2.2.trans hboth.2.2.symm⟩

end Schedule

end BuildStream
