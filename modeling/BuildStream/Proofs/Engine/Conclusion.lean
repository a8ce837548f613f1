/-
# What a build concludes

A summary says how the build ended, how every task ended and what failed, and how long it all took.
Times aside (`Summary.conclusion`), nothing of it depends on how the build was run: if nothing was
requested by its end, a build concludes what can be read off its plan (`conclusion_buildAlong`).
Whether a build has a summary at all can be read off its request as well (`Engine.BreaksDown`).
The listeners of a request, which decide what is sent, the stamps and the clock are no part of
`Engine.conclusion`, and neither are the choices.

That nothing was requested is a fact about the end of a build.  It holds where the choices do not
cancel and no registered task does (`requested_buildAlong`).
-/
import BuildStream.Proofs.Engine.Summary
import BuildStream.Proofs.Schedule.Uncancelled

namespace BuildStream

/-! ## 1. Conclusions -/

/-- What a build says in the end, times aside. -/
structure Conclusion where
  outcome : BuildOutcome
  /-- The verdicts on the planned tasks, in the order of the plan. -/
  verdicts : List (TaskPath × Verdict)
  failures : List Failure

/-- The conclusion of a summary. -/
def Summary.conclusion (s : Summary) : Conclusion :=
  ⟨s.outcome, s.tasks.map fun report => (report.path, report.verdict), s.failures⟩

namespace Engine

/-- The conclusion of a build in which certain verdicts are given. -/
def concluded (verdicts : List (TaskPath × Verdict)) : Conclusion :=
  let failures := verdicts.filterMap fun (_, verdict) => verdict.failure
  ⟨if failures.isEmpty then .succeeded else .failed, verdicts, failures⟩

/-- **The conclusion of a request** that nobody cancels, read off its plan. -/
noncomputable def conclusion (e : Engine) (request : Request) : Conclusion :=
  match Plan.ofRequest e.registry request with
  | .error error => ⟨.failed, [], [.ofMessage error.message]⟩
  | .ok plan =>
    concluded (plan.sorted.map fun path =>
      (path, plan.verdict e.registry e.lost e.options.continueOnError path))

/-- Only what a request asks for counts. -/
theorem conclusion_congr {e : Engine} {request other : Request} (ht : request.tasks = other.tasks)
    (hl : request.launchables = other.launchables) : e.conclusion request = e.conclusion other := by
  rw [conclusion, Plan.ofRequest_congr ht hl, conclusion]

/-- A build that nobody cancels succeeds or fails. -/
theorem outcome_conclusion (e : Engine) (request : Request) :
    (e.conclusion request).outcome = .succeeded ∨ (e.conclusion request).outcome = .failed := by
  unfold conclusion concluded
  split
  · exact .inr rfl
  · dsimp only
    split
    · exact .inl rfl
    · exact .inr rfl

/-- A build that is not cancelled before it is planned breaks down exactly if there is a plan, and
more permits are asked for than there can be. -/
theorem breaksDown_iff {e : Engine} {request : Request} : e.BreaksDown request false ↔
    (∃ plan, Plan.ofRequest e.registry request = .ok plan) ∧
      ScheduleOptions.maxPermits < e.options.permits :=
  ⟨fun h => ⟨h.planned, h.permits⟩, fun ⟨hp, hl⟩ => ⟨rfl, hp, hl⟩⟩

theorem breaksDown_congr {e : Engine} {request other : Request} (ht : request.tasks = other.tasks)
    (hl : request.launchables = other.launchables) :
    e.BreaksDown request false ↔ e.BreaksDown other false := by
  rw [breaksDown_iff, Plan.ofRequest_congr ht hl, breaksDown_iff]

/-! ## 2. Builds -/

variable {e : Engine} {request : Request} {g : Generator} {start : Timestamp}
  {choices : List Choice} {summary : Summary}

/-- A schedule that was not cancelled concludes what its reports say. -/
theorem conclusion_scheduled {su : ScheduleSetup Event} {s : Schedule Event}
    (hc : s.cancelled = false) :
    (summaryOf (scheduled su s)).conclusion =
      concluded ((s.orderedReports su).map fun report => (report.path, report.verdict)) := by
  have hfailures : ((s.orderedReports su).map fun report => (report.path, report.verdict)).filterMap
      (fun (_, verdict) => verdict.failure) = (s.orderedReports su).filterMap (·.failure) := by
    rw [List.filterMap_map]
    rfl
  unfold concluded
  rw [hfailures]
  simp [scheduled, summaryOf, outcomeOf, Summary.conclusion, hc]

/-- A build that took its course was not cancelled, if nothing was requested by its end. -/
theorem Course.not_cancelled {run : BuildRun} {p : Progressed}
    (h : Course e request run start false (some p)) (hr : p.requested = false) :
    p.cancelled = false := by
  cases h with
  | unplannable requested hp => rfl
  | scheduled g requested choices hp hl hf =>
    obtain ⟨targets, nodes, hm⟩ := Plan.exists_made_of_ofRequest hp
    exact (Schedule.verdicts_of_not_requested hm hr hf).1

/-- ...and it concludes what its plan says. -/
theorem Course.conclusion {run : BuildRun} {p : Progressed}
    (h : Course e request run start false (some p)) (hr : p.requested = false) :
    (summaryOf p).conclusion = e.conclusion request := by
  have hc := h.not_cancelled hr
  unfold Engine.conclusion
  cases h with
  | unplannable requested hp =>
    rw [hp]
    rfl
  | @scheduled plan g requested choices hp hl hf =>
    obtain ⟨targets, nodes, hm⟩ := Plan.exists_made_of_ofRequest hp
    rw [conclusion_scheduled hc, (Schedule.verdicts_of_not_requested hm hr hf).2, hp]
    rfl

/-- The course of a build that has a summary and was not cancelled before it was planned. -/
theorem exists_course_of_summary
    (hs : (e.buildAlong choices request g false start).summary? = some summary) :
    ∃ p, Course e request (runOf g) start false (some p) ∧ summaryOf p = summary ∧
      (e.buildAlong choices request g false start).requested = p.requested := by
  obtain ⟨p, ended, hcourse, -, hp, hr⟩ :=
    (buildAlong_course e request g false start choices).resolve_right fun hdown =>
      Option.some_ne_none _ (hs.symm.trans hdown.2.2.1)
  rw [Bool.and_false] at hcourse
  exact ⟨p, hcourse, Option.some.inj (hp.symm.trans hs), hr⟩

/-- **What a build concludes** if nothing was requested by its end: what its plan says, in whatever
order the workers take their steps. -/
theorem conclusion_buildAlong
    (hs : (e.buildAlong choices request g false start).summary? = some summary)
    (hr : (e.buildAlong choices request g false start).requested = false) :
    summary.conclusion = e.conclusion request := by
  obtain ⟨p, hcourse, rfl, hp⟩ := exists_course_of_summary hs
  exact hcourse.conclusion (hp.symm.trans hr)

/-- A build in which nothing was requested succeeds exactly if all that can be reached from the
targets did. -/
theorem succeeded_buildAlong_iff
    (hs : (e.buildAlong choices request g false start).summary? = some summary)
    (hr : (e.buildAlong choices request g false start).requested = false) :
    summary.outcome = .succeeded ↔ ∃ targets plan,
      Plan.targetsOf e.registry request.tasks request.launchables = .ok targets ∧
      Plan.ofTargets e.registry targets = .ok plan ∧
      ∀ path, e.registry.Reachable targets path →
        ∃ report ∈ summary.tasks, report.path = path ∧ report.status.isSuccess = true := by
  obtain ⟨p, hcourse, rfl, hp⟩ := exists_course_of_summary hs
  exact hcourse.succeeded_iff.trans (and_iff_right (hcourse.not_cancelled (hp.symm.trans hr)))

/-- **Nothing is requested in a build** if nobody chooses to cancel and no task cancels. -/
theorem requested_buildAlong (hn : e.registry.NeverCancels) (hc : .cancel ∉ choices) :
    (e.buildAlong choices request g false start).requested = false := by
  rw [buildAlong, buildBy_eq]
  unfold progressBy
  rw [Bool.and_false, if_neg Bool.false_ne_true]
  split
  · rfl
  · next plan hp =>
    split
    · rfl
    · let su := e.setup request (runOf g) start plan
      exact ((Schedule.uncancelled_start su g.allocate.2).runToEnd hn hc).requested

end Engine

end BuildStream
