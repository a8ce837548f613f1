/-
# Why tasks are not successful

Nothing is left out without a reason.  If a task was reported as anything but a success, the
schedule was cancelled or something failed (`Blamed.reports`), and if something failed, a task that
was run is reported as failed (`Blamed.failed`).  So where the schedule was not cancelled and no
task is reported as failed, every task was a success: none is left out quietly.

A report has a failure exactly if it says that its task failed (`Followed.failure_isSome`).
-/
import BuildStream.Proofs.Schedule.Waves

namespace BuildStream

theorem TaskStatus.isFailed_of_isSuccess {status : TaskStatus} (h : status.isSuccess = true) :
    status.isFailed = false := by
  cases status with
  | failed message => exact nomatch h
  | _ => rfl

namespace Schedule

variable {ε : Type} {su : ScheduleSetup ε} {s t : Schedule ε}

/-! ## 1. What a report says -/

/-- What a worker reports is a success or a failure. -/
theorem Tracks.status {run : TaskRun} {report : TaskReport} (h : Tracks su s run (.done report)) :
    report.status.isFailed = !report.status.isSuccess ∧
      report.failure.isSome = report.status.isFailed := by
  obtain ⟨task, -, -, hp⟩ := h.task
  obtain ⟨-, result, -, hv, -⟩ := Script.path_ofTask hp
  obtain ⟨hs, hf⟩ := ActionResult.status_verdict run.path (su.lost run.path) result
  have hstatus : report.status = _ := congrArg Verdict.status hv
  have hfailure : report.failure = _ := congrArg Verdict.failure hv
  rw [hstatus, hfailure, hs, hf, ActionResult.failure_verdict, Bool.not_not]
  exact ⟨rfl, rfl⟩

/-- **A report has a failure** exactly if it says that its task failed. -/
theorem Followed.failure_isSome (h : Followed su s) {report : TaskReport}
    (hr : report ∈ s.reports) : report.failure.isSome = report.status.isFailed := by
  rcases h.reported report hr with ⟨run, hg⟩ | hn
  · exact hg.tracks.status.2
  · rw [hn]
    rfl

/-! ## 2. The invariant -/

/-- Whether there is a reason not to start a task. -/
def Stopped (s : Schedule ε) : Prop := s.cancelled = true ∨ s.failed = true

/-- Whoever blocks others, and whoever is not reported as a success, has a reason. -/
structure Blamed (s : Schedule ε) : Prop where
  blocked : ∀ path ∈ s.blocked, s.Stopped
  reports : ∀ report ∈ s.reports, report.status.isSuccess = false → s.Stopped
  failed : s.failed = true → ∃ report ∈ s.reports, report.status.isFailed = true

theorem blamed_start (g : Generator) (requested : Bool) : Blamed (start su g requested) where
  blocked := by simp [start]
  reports := by simp [start]
  failed := fun hf => nomatch hf

/-- Where there is a reason, it does not matter what is left out. -/
theorem Blamed.of_stopped (h : Blamed s) (hs : t.Stopped) (hf : t.failed = s.failed)
    {more : List TaskReport} (hr : t.reports = s.reports ++ more) : Blamed t where
  blocked := fun _ _ => hs
  reports := fun _ _ _ => hs
  failed := by
    intro ht
    obtain ⟨report, hm, hfailed⟩ := h.failed (hf ▸ ht)
    exact ⟨report, hr ▸ List.mem_append_left _ hm, hfailed⟩

/-- Nothing that the invariant reads has changed. -/
theorem Blamed.congr (h : Blamed s) (hb : t.blocked = s.blocked) (hr : t.reports = s.reports)
    (hc : t.cancelled = s.cancelled) (hf : t.failed = s.failed) : Blamed t := by
  have hstopped : t.Stopped ↔ s.Stopped := by rw [Stopped, Stopped, hc, hf]
  refine ⟨fun path hp => ?_, fun report hm hs => ?_, fun ht => ?_⟩
  · exact hstopped.mpr (h.blocked path (hb ▸ hp))
  · exact hstopped.mpr (h.reports report (hr ▸ hm) hs)
  · rw [hr]
    exact h.failed (hf ▸ ht)

theorem Worker.report_of_hasFailed {w : Worker ε} (h : w.hasFailed = true) : ∃ report,
    w.script = .done report ∧ report.status.isSuccess = false := by
  cases hs : w.script with
  | done report =>
    refine ⟨report, rfl, ?_⟩
    simpa [Worker.hasFailed, hs, Script.report?] using h
  | _ => simp [Worker.hasFailed, hs, Script.report?] at h

theorem Stopped.endWave (h : s.Stopped) : (s.endWave su).Stopped := by
  rcases h with hc | hf
  · exact .inl (by rw [cancelled_endWave, hc, Bool.true_or])
  · exact .inr (failed_endWave.mpr (.inl hf))

theorem stopped_of_hasFailed {w : Worker ε} (hw : w ∈ s.workers) (hf : w.hasFailed = true) :
    (s.endWave su).Stopped :=
  .inr (failed_endWave.mpr (.inr ⟨w, hw, hf⟩))

/-- **At the end of a wave** a task that failed is one that was run. -/
theorem Blamed.endWave (h : Blamed s) (hf : Followed su s) : Blamed (s.endWave su) where
  blocked := by
    intro path hp
    rcases mem_blocked_endWave.mp hp with hp | ⟨w, hw, hh, -⟩
    · exact (h.blocked path hp).endWave
    · exact stopped_of_hasFailed hw hh
  reports := by
    intro report hr hs
    rcases mem_reports_endWave.mp hr with hr | ⟨w, hw, he⟩
    · exact (h.reports report hr hs).endWave
    · exact stopped_of_hasFailed hw (by simp [Worker.hasFailed, he, hs])
  failed := by
    intro ht
    rcases failed_endWave.mp ht with ht | ⟨w, hw, hh⟩
    · obtain ⟨report, hm, hr⟩ := h.failed ht
      exact ⟨report, mem_reports_endWave.mpr (.inl hm), hr⟩
    · obtain ⟨report, hr, hs⟩ := Worker.report_of_hasFailed hh
      have hstatus := (Tracks.status (hr ▸ hf.working w hw)).1
      rw [hs, Bool.not_false] at hstatus
      exact ⟨report, mem_reports_endWave.mpr (.inr ⟨w, hw, by rw [hr]; rfl⟩), hstatus⟩

variable {targets : List String} {nodes : List PlanNode}

theorem Blamed.leaveOut (hm : Plan.Made su.registry targets nodes su.plan)
    (hs : OnCourse su.registry su s) (h : Blamed s) {path : TaskPath} {queue : List TaskPath}
    (hq : s.queue = path :: queue)
    (why : su.registry.get? path = none ∨ waitsOnFailure su s path = true ∨ s.cancelled = true) :
    Blamed (Schedule.leaveOut { s with queue } path) := by
  obtain ⟨k, hk⟩ := hs.placed
  have hstopped : s.Stopped := by
    rcases why with hnone | hwaits | hc
    · obtain ⟨task, hg⟩ := hm.exists_task (hk.mem_sorted hm hq)
      exact nomatch hnone.symm.trans hg
    · obtain ⟨d, -, hd⟩ := List.any_eq_true.mp hwaits
      exact h.blocked d (by simpa using hd)
    · exact .inl hc
  exact h.of_stopped hstopped rfl rfl

/-- **A move keeps the invariant.** -/
theorem Blamed.move (hm : Plan.Made su.registry targets nodes su.plan)
    (hs : OnCourse su.registry su s) (h : Blamed s) (hmove : Move su s t) : Blamed t := by
  cases hmove with
  | scheduler hmove =>
    cases hmove with
    | leaveOut hw hq why => exact h.leaveOut hm hs hq why
    | observe hw hq hp => exact h.of_stopped (.inl rfl) rfl rfl
    | handOver => exact h.congr rfl rfl rfl rfl
    | endWave hw hq hn => exact h.endWave hs.followed
    | passOver hw hv ho =>
      refine h.of_stopped ?_ rfl rfl
      rcases Bool.or_eq_true_iff.mp ho with hc | hf
      · exact .inl hc
      · exact .inr (Bool.and_eq_true_iff.mp hf).1
    | beginWave => exact h.congr rfl rfl rfl rfl
  | worker hmove =>
    have heq := hmove.eq
    exact h.congr (by rw [heq]) (by rw [heq]) (by rw [heq]) (by rw [heq])
  | request hmove =>
    rw [hmove]
    exact h.congr rfl rfl rfl rfl

theorem blamed_run (hm : Plan.Made su.registry targets nodes su.plan) (g : Generator)
    (requested : Bool) (choices : List Choice) :
    Blamed ((start su g requested).run su choices) :=
  run_induction_onCourse hm (blamed_start g requested) (fun _ _ hs h hmove => h.move hm hs hmove)
    choices

/-- **No task is left out quietly.**  Where the schedule was not cancelled and no task is reported
as failed, every report is that of a success. -/
theorem Blamed.isSuccess (h : Blamed s) (hc : s.cancelled = false)
    (hf : ∀ report ∈ s.reports, report.status.isFailed = false) :
    ∀ report ∈ s.reports, report.status.isSuccess = true := by
  intro report hr
  by_contra hs
  rcases h.reports report hr (Bool.eq_false_iff.mpr hs) with hcancelled | hfailed
  · exact nomatch hc.symm.trans hcancelled
  · obtain ⟨other, ho, hof⟩ := h.failed hfailed
    exact nomatch (hf other ho).symm.trans hof

/-- **There are no failures** exactly if every planned task is reported as a success. -/
theorem Blamed.failures_eq_nil_iff (hm : Plan.Made su.registry targets nodes su.plan)
    (hs : OnCourse su.registry su s) (hf : s.isFinished = true) (h : Blamed s)
    (hc : s.cancelled = false) :
    (s.orderedReports su).filterMap (·.failure) = [] ↔ ∀ path ∈ su.plan.sorted,
      ∃ report ∈ s.orderedReports su, report.path = path ∧ report.status.isSuccess = true := by
  have hsorted := hs.map_path_orderedReports hm hf
  have hmem {report : TaskReport} : report ∈ s.orderedReports su ↔ report ∈ s.reports :=
    hs.mem_orderedReports hm hf
  rw [List.filterMap_eq_nil_iff]
  constructor
  · intro hnone path hp
    obtain ⟨report, hr, rfl⟩ := List.mem_map.mp (hsorted ▸ hp)
    refine ⟨report, hr, rfl, h.isSuccess hc (fun other ho => ?_) report (hmem.mp hr)⟩
    rw [← hs.followed.failure_isSome ho, hnone other (hmem.mpr ho)]
    rfl
  · intro hall report hr
    obtain ⟨other, ho, hpath, hsuccess⟩ :=
      hall report.path (hsorted ▸ List.mem_map_of_mem hr)
    -- there is one report for each path
    obtain rfl : other = report :=
      List.inj_on_of_nodup_map (hsorted ▸ hm.taken.nodup) ho hr hpath
    have hfailure := hs.followed.failure_isSome (hmem.mp hr)
    rw [TaskStatus.isFailed_of_isSuccess hsuccess] at hfailure
    exact Option.not_isSome_iff_eq_none.mp (Bool.eq_false_iff.mp hfailure)

end Schedule

end BuildStream
