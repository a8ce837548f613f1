/-
# Cancelled builds

A build asks about cancellation before it plans anything, the scheduler asks before it hands over a
task and after each wave, and actions ask when they like.  A build is cancelled exactly if one of
these questions was answered with yes, whoever asked it, and so says its finish, whatever failures
there were.  What this means for the tasks is what it means for the schedule: nothing is handed over
after the engine was told, what was not handed over was never run, and what was handed over came to
its own end (`buildAlong_cancellation`).
-/
import BuildStream.Proofs.Engine.Finish
import BuildStream.Proofs.Schedule.Cancellation

namespace BuildStream

/-- What a part of the trace says of a run, the whole says, if all signs of the run are in it. -/
theorem Sign.RanToEnd.of_part {ε : Type} {registry : Registry} {lost : TaskPath → String}
    {part whole : List (Sign ε)} {run : TaskRun} {report : TaskReport}
    (h : Sign.RanToEnd registry lost part run report)
    (hp : ∀ sign ∈ part, sign ∈ whole)
    (ho : (whole.filter fun sign => decide (sign.worker? = some run)) =
      part.filter fun sign => decide (sign.worker? = some run)) :
    Sign.RanToEnd registry lost whole run report where
  path := h.path
  began := hp _ h.began
  ended := by
    obtain ⟨task, result, hg, hgiven, hv, hl⟩ := h.ended
    refine ⟨task, result, hg, ho ▸ hgiven, hv, fun hr => ?_⟩
    obtain ⟨state, hc, hstate⟩ := hl hr
    exact ⟨state, hp _ hc, hstate⟩

namespace Engine

section Course

variable {e : Engine} {request : Request} {run : BuildRun} {start ended : Timestamp} {asked : Bool}
  {p : Progressed} {state : BuildState} {inner : List (Sign Event)}

/-! ## 1. The question before the build -/

theorem observed_around : Sign.Observed (around request run start ended asked state inner) ↔
    asked = true ∨ Sign.Observed inner := by
  constructor
  · rintro ⟨worker, ha⟩
    rcases (mem_around_of_subject? rfl).mp ha with he | he | ha
    · exact nomatch he
    · exact .inl (Sign.asked.inj he).2.symm
    · exact .inr ⟨worker, ha⟩
  · rintro (rfl | ⟨worker, ha⟩)
    · exact ⟨none, (mem_around_of_subject? rfl).mpr (.inr (.inl rfl))⟩
    · exact ⟨worker, mem_around ha⟩

/-- Nothing is handed over after a question that was answered with yes, if the one before the build
was not, or if nothing is handed over at all. -/
theorem closed_around (hi : Sign.Closed inner)
    (h : asked = false ∨ ∀ task, .handed task ∉ inner) :
    Sign.Closed (around request run start ended asked state inner) := by
  rcases h with rfl | h
  · have hsigns (now : Timestamp) (hook : Hook) :
        (.asked none true : Sign Event) ∉ (reporter request start).signs now hook :=
      fun hm => nomatch Reporter.subject_of_mem_signs hm
    have hafter (task : TaskRun) :
        .handed task ∉ (reporter request start).signs ended (.afterBuild run state) :=
      fun hm => nomatch Reporter.subject_of_mem_signs hm
    have hbefore : (.asked none true : Sign Event) ∉ .begun run ::
        ((reporter request start).signs start (.beforeBuild run) ++ [.asked none false]) := by
      simp [hsigns]
    have hc := (hi.append hafter).cons_of_notMem hbefore
    simpa [around] using hc
  · exact Sign.closed_of_notMem_handed fun task hm => h task (handed_mem_around.mp hm)

/-! ## 2. The course of a build -/

theorem Course.cancelled_iff (h : Course e request run start asked (some p)) :
    p.cancelled = true ↔ asked = true ∨ Sign.Observed p.trace := by
  cases h with
  | cancelled requested => exact ⟨fun _ => .inl rfl, fun _ => rfl⟩
  | unplannable requested hp => simp [unplanned, Sign.Observed]
  | scheduled g requested choices hp hl hf =>
    obtain ⟨targets, nodes, hm⟩ := Plan.exists_made_of_ofRequest hp
    rw [or_iff_right (by simp)]
    exact (Schedule.heeds_run hm g requested choices).cancelled_iff hf

theorem Course.closed (h : Course e request run start asked (some p)) : Sign.Closed p.trace ∧
    (asked = false ∨ ∀ task, .handed task ∉ p.trace) := by
  cases h with
  | cancelled requested => exact ⟨.nil, .inr fun _ => List.not_mem_nil⟩
  | unplannable requested hp => exact ⟨.nil, .inl rfl⟩
  | scheduled g requested choices hp hl hf =>
    obtain ⟨targets, nodes, hm⟩ := Plan.exists_made_of_ofRequest hp
    exact ⟨(Schedule.heeds_run hm g requested choices).closed, .inl rfl⟩

/-- What a planned build reports of its tasks. -/
theorem Course.tasks (h : Course e request run start false (some p)) {plan : Plan}
    (hp : Plan.ofRequest e.registry request = .ok plan) :
    p.tasks.map (·.path) = plan.sorted ∧
    (∀ path ∈ plan.sorted, (∀ task, .handed task ∈ p.trace → task.path ≠ path) →
      .notRun path ∈ p.tasks ∧ ∀ hook, .called hook ∈ p.trace →
        ∀ task, hook.subject.task? = some task → task.path ≠ path) ∧
    ∀ task, .handed task ∈ p.trace →
      ∃ report ∈ p.tasks, Sign.RanToEnd e.registry e.lost p.trace task report := by
  generalize hasked : false = asked at h
  cases h with
  | cancelled requested => exact nomatch hasked
  | unplannable requested hother => exact nomatch hother.symm.trans hp
  | scheduled g requested choices hother hl hf =>
    cases hother.symm.trans hp
    obtain ⟨targets, nodes, hm⟩ := Plan.exists_made_of_ofRequest hp
    have hcourse : Schedule.OnCourse e.registry (e.setup request run start plan) _ :=
      Schedule.onCourse_run hm g requested choices
    exact ⟨hcourse.map_path_orderedReports hm hf,
      fun path hpath hn => hcourse.notRun hm hf hpath hn,
      fun task hr => hcourse.ranToEnd hm hf hr⟩

/-- **A task that was handed over came to its end.**  Its own signs lead through its script to a
report, the only one for its path. -/
theorem Course.tracks (h : Course e request run start asked (some p)) {task : TaskRun}
    (hr : .handed task ∈ p.trace) : ∃ (su : ScheduleSetup Event) (s : Schedule Event) (report : _),
      Schedule.Tracks su s task (.done report) ∧ su.registry = e.registry ∧ su.lost = e.lost ∧
      su.reporter = reporter request start ∧ s.trace = p.trace ∧ report ∈ p.tasks ∧
      (p.tasks.map (·.path)).Nodup := by
  cases h with
  | cancelled => exact nomatch hr
  | unplannable => exact nomatch hr
  | scheduled g requested choices hp hl hf =>
    obtain ⟨targets, nodes, hm⟩ := Plan.exists_made_of_ofRequest hp
    have hcourse : Schedule.OnCourse e.registry (e.setup request run start _) _ :=
      Schedule.onCourse_run hm g requested choices
    have hnodup : (Schedule.orderedReports _ _).map (·.path) |>.Nodup :=
      hcourse.map_path_orderedReports hm hf ▸ hm.taken.nodup
    have hwave := hf
    simp only [Schedule.isFinished, Bool.and_eq_true, Bool.not_eq_true'] at hwave
    obtain ⟨report, hmem, ht⟩ := hcourse.followed.completed (hcourse.settled hwave.2).1 hr
    exact ⟨_, _, report, ht, rfl, rfl, rfl, rfl, (hcourse.mem_orderedReports hm hf).mpr hmem, hnodup⟩

end Course

/-! ## 3. Builds -/

/-- **What a build keeps of a task that was handed over**: its signs lead through its script to a
report, the only one for its path in the summary. -/
theorem buildAlong_tracks {e : Engine} {request : Request} {g : Generator} {requested : Bool}
    {start : Timestamp} {choices : List Choice} {task : TaskRun}
    (hr : .handed task ∈ (e.buildAlong choices request g requested start).trace) :
    let result := e.buildAlong choices request g requested start
    ∃ (su : ScheduleSetup Event) (s : Schedule Event) (report : _) (summary : Summary),
      Schedule.Tracks su s task (.done report) ∧ su.registry = e.registry ∧ su.lost = e.lost ∧
      su.reporter = reporter request start ∧ s.trace ⊆ result.trace ∧
      (result.trace.filter fun sign => decide (sign.worker? = some task)) = s.own task ∧
      result.summary? = some summary ∧
      (summary.tasks.filter fun other => other.path == report.path) = [report] := by
  intro result
  change .handed task ∈ result.trace at hr
  rcases buildAlong_course e request g requested start choices with
    ⟨p, stopped, hcourse, htrace, hsummary, -⟩ | ⟨-, htrace, -⟩
  · change result.trace = _ at htrace
    rw [htrace] at hr
    obtain ⟨su, s, report, ht, hregistry, hlost, hreporter, hs, hreport, hn⟩ :=
      hcourse.tracks (handed_mem_around.mp hr)
    refine ⟨su, s, report, summaryOf p, ht, hregistry, hlost, hreporter, fun sign hsign => ?_, ?_,
      hsummary, filter_of_mem hn hreport⟩
    · rw [htrace]
      exact mem_around (hs ▸ hsign)
    · rw [htrace, filter_around, Schedule.own, hs]
  · exact absurd (htrace ▸ hr) notMem_opening

/-- What a build shows before it is planned asks once. -/
theorem observed_opening {request : Request} {run : BuildRun} {requested : Bool}
    {start : Timestamp} : Sign.Observed (opening request run requested start) ↔
      (request.cancellation.isSome && requested) = true := by
  have hsigns (worker : Option TaskRun) :
      .asked worker true ∉ (reporter request start).signs start (.beforeBuild run) :=
    fun hm => nomatch Reporter.subject_of_mem_signs hm
  constructor
  · rintro ⟨worker, ha⟩
    rcases List.mem_cons.mp ha with he | ha
    · exact nomatch he
    · rcases List.mem_append.mp ha with ha | ha
      · exact absurd ha (hsigns worker)
      · exact (Sign.asked.inj (List.mem_singleton.mp ha)).2.symm
  · intro hasked
    refine ⟨none, List.mem_cons_of_mem _ (List.mem_append_right _ ?_)⟩
    rw [hasked]
    exact List.mem_singleton_self _

/-- **What cancellation does to a build**, in whatever order the workers take their steps and
whenever it is requested.

After the engine itself was told, before the build or by its scheduler, no task is handed over.

The build is cancelled, and its finish says so, exactly if some question about cancellation was
answered with yes.  If the build was planned, a task that was not handed over is reported as never
run and none of its hooks was called; and a task that was handed over came to its end and is
reported as its own action ended.

This is so unless the build breaks down.  Then no question was answered with yes, and there is
neither a summary nor a finish, nor was any task handed over. -/
theorem buildAlong_cancellation (e : Engine) (request : Request) (g : Generator) (requested : Bool)
    (start : Timestamp) (choices : List Choice) :
    let asked := request.cancellation.isSome && requested
    let result := e.buildAlong choices request g requested start
    (∀ before after, result.trace = before ++ .asked none true :: after →
      ∀ task, .handed task ∉ after) ∧
    (¬ e.BreaksDown request asked → ∃ summary, result.summary? = some summary ∧
      (summary.outcome = .cancelled ↔ Sign.Observed result.trace) ∧
      (∃ earlier time r,
        result.events = earlier ++ [.progress ⟨time, (runOf g).descriptor, .finished r⟩] ∧
        (∀ event ∈ earlier, event.isBuildFinish = false) ∧
        (r.ending = .cancelled ↔ Sign.Observed result.trace)) ∧
      ∀ plan, asked = false → Plan.ofRequest e.registry request = .ok plan →
        summary.tasks.map (·.path) = plan.sorted ∧
        (∀ path ∈ plan.sorted, (∀ task, .handed task ∈ result.trace → task.path ≠ path) →
          .notRun path ∈ summary.tasks ∧ ∀ hook ∈ result.hooks,
            ∀ task, hook.subject.task? = some task → task.path ≠ path) ∧
        ∀ task, .handed task ∈ result.trace →
          ∃ report ∈ summary.tasks, Sign.RanToEnd e.registry e.lost result.trace task report) ∧
    (e.BreaksDown request asked → result.summary? = none ∧ ¬ Sign.Observed result.trace ∧
      (∀ event ∈ result.events, event.isBuildFinish = false) ∧
      ∀ task, .handed task ∉ result.trace) := by
  intro asked result
  rcases buildAlong_course e request g requested start choices with
    ⟨p, ended, hcourse, ht, hs, -⟩ | ⟨hdown, ht, -, -⟩
  · have hcourse : Course e request (runOf g) start asked (some p) := hcourse
    have htrace : result.trace = around request (runOf g) start ended asked _ p.trace := ht
    have houtcome : (summaryOf p).outcome = .cancelled ↔ Sign.Observed result.trace := by
      rw [htrace, observed_around, ← hcourse.cancelled_iff]
      exact outcomeOf_eq_cancelled
    refine ⟨fun before after hsplit task => ?_, fun _ => ⟨summaryOf p, hs, houtcome, ?_, ?_⟩,
      fun hdown => absurd hdown hcourse.not_breaksDown⟩
    · rw [htrace] at hsplit
      exact (closed_around hcourse.closed.1 hcourse.closed.2).notMem_after hsplit task
    · obtain ⟨earlier, time, r, hevents, hearlier, hending⟩ := finish_of_summary hs
      refine ⟨earlier, time, r, hevents, hearlier, ?_⟩
      rw [hending, BuildOutcome.ending_eq_cancelled]
      exact houtcome
    · intro plan hasked hp
      rw [hasked] at hcourse
      obtain ⟨hsorted, hnot, hran⟩ := hcourse.tasks hp
      rw [htrace]
      refine ⟨hsorted, fun path hpath hn => ?_, fun task hr => ?_⟩
      · obtain ⟨hreport, hhooks⟩ := hnot path hpath fun task hr => hn task (handed_mem_around.mpr hr)
        refine ⟨hreport, fun hook hm task hh => hhooks hook ?_ task hh⟩
        obtain ⟨sign, hs, hc⟩ := List.mem_filterMap.mp hm
        rw [Sign.eq_called hc, htrace] at hs
        have hw : (Sign.called hook : Sign Event).worker? = some task := hh
        exact (mem_around_of_worker? hw).mp hs
      · obtain ⟨report, hm, hend⟩ := hran task (handed_mem_around.mp hr)
        exact ⟨report, hm, hend.of_part (fun _ => mem_around) (filter_around task)⟩
  · have hdown : e.BreaksDown request asked := hdown.breaksDown
    have htrace : result.trace = opening request (runOf g) requested start := ht
    obtain ⟨-, hnone, -, hfinish⟩ := trace_of_breaksDown hdown
    have hhanded (task : TaskRun) : .handed task ∉ result.trace := htrace ▸ notMem_opening
    have hquiet : ¬ Sign.Observed result.trace := by
      rw [htrace, observed_opening]
      exact fun hasked => nomatch hasked.symm.trans hdown.notCancelled
    refine ⟨fun before after hsplit task hr => hhanded task ?_, fun hup => absurd hdown hup,
      fun _ => ⟨hnone, hquiet, hfinish, hhanded⟩⟩
    rw [hsplit]
    exact List.mem_append_right _ (List.mem_cons_of_mem _ hr)

/-! ### Cancelled halfway -/

namespace Halfway

/-- An engine for the diamond. -/
def engine : Engine where
  registry := Plan.diamond
  options := { concurrency := 2 }
  lost := fun _ => "task 1 panicked"

/-- The engine with one permit more than there can be. -/
def overdrawn : Engine := { engine with options := { concurrency := 2305843009213693952 } }

/-- A request for all of it that can be cancelled. -/
def request : Request where
  tasks := some ["top"]
  cancellation := some 1

/-- Cancellation is requested while the task that all others need is at work. -/
def choices : List Choice :=
  List.replicate 2 .scheduler ++ [.worker 0, .cancel] ++ List.replicate 6 (.worker 0) ++
    List.replicate 3 .scheduler

/-- The build. -/
def result : BuildResult := engine.buildAlong choices request ⟨1, 1⟩ false .epoch

theorem result_eq :
    result = engine.buildBy (fun su s => s.run su choices) request ⟨1, 1⟩ false .epoch := by
  refine buildAlong_of_isFinished ?_
  intro plan hp
  cases hp
  rfl

theorem path_handed : (result.trace.filterMap Sign.handed?).map (·.path) = [":base"] := by
  rw [result_eq]
  rfl

end Halfway

/-- The task that was at work comes to its end, and the tasks that need it are never run. -/
theorem cancellation_halfway :
    Plan.ofRequest Plan.diamond Halfway.request = .ok Plan.diamondPlan ∧
      Sign.Observed Halfway.result.trace ∧
      ∃ summary, Halfway.result.summary? = some summary ∧ summary.outcome = .cancelled ∧
        .notRun ":top" ∈ summary.tasks ∧
        ∃ task, task.path = ":base" ∧ ∃ report ∈ summary.tasks,
          Sign.RanToEnd Plan.diamond Halfway.engine.lost Halfway.result.trace task report := by
  have hp : Plan.ofRequest Plan.diamond Halfway.request = .ok Plan.diamondPlan := rfl
  have hup : ¬ Halfway.engine.BreaksDown Halfway.request false :=
    fun hdown => absurd hdown.permits (by decide)
  obtain ⟨-, hbuilt, -⟩ := buildAlong_cancellation Halfway.engine Halfway.request ⟨1, 1⟩ false
    .epoch Halfway.choices
  obtain ⟨summary, hs, hcancelled, -, htasks⟩ := hbuilt hup
  obtain ⟨-, hnot, hran⟩ := htasks Plan.diamondPlan rfl hp
  have ho : summary.outcome = .cancelled := by
    have houtcome : Halfway.result.summary?.map (·.outcome) = some .cancelled := by
      rw [Halfway.result_eq]
      rfl
    change Halfway.result.summary? = some summary at hs
    rw [hs] at houtcome
    exact Option.some.inj houtcome
  refine ⟨hp, hcancelled.mp ho, summary, hs, ho, (hnot ":top" (by decide) fun task hr he => ?_).1,
    ?_⟩
  · have hm : task.path ∈ (Halfway.result.trace.filterMap Sign.handed?).map (·.path) :=
      List.mem_map_of_mem (Sign.mem_handed.mpr hr)
    rw [Halfway.path_handed, List.mem_singleton, he] at hm
    exact absurd hm (by decide)
  · have hm : ":base" ∈ (Halfway.result.trace.filterMap Sign.handed?).map (·.path) := by
      rw [Halfway.path_handed]
      exact List.mem_singleton_self _
    obtain ⟨task, hr, hpath⟩ := List.mem_map.mp hm
    exact ⟨task, hpath, hran task (Sign.mem_handed.mp hr)⟩

/-- **A task that was not handed over may go unreported**: a build that asks for one permit more
than there can be reports nothing. -/
theorem cancellation_overdrawn :
    ¬ ∀ (e : Engine) (request : Request) (g : Generator) (requested : Bool) (start : Timestamp)
      (choices : List Choice) (plan : Plan), (request.cancellation.isSome && requested) = false →
      Plan.ofRequest e.registry request = .ok plan →
      let result := e.buildAlong choices request g requested start
      ∀ path ∈ plan.sorted, (∀ task, .handed task ∈ result.trace → task.path ≠ path) →
        ∃ summary, result.summary? = some summary ∧ .notRun path ∈ summary.tasks := by
  intro hall
  have hp : Plan.ofRequest Halfway.overdrawn.registry Halfway.request = .ok Plan.diamondPlan := rfl
  have hdown : Halfway.overdrawn.BreaksDown Halfway.request
      (Halfway.request.cancellation.isSome && false) := ⟨rfl, ⟨_, hp⟩, by decide⟩
  have hnone : (Halfway.overdrawn.buildAlong [] Halfway.request ⟨1, 1⟩ false .epoch).summary? =
      none := (summary?_eq_none_iff ..).mpr hdown
  have htrace : (Halfway.overdrawn.buildAlong [] Halfway.request ⟨1, 1⟩ false .epoch).trace =
      opening Halfway.request (runOf ⟨1, 1⟩) false .epoch := (trace_of_breaksDown hdown).1
  have hunhanded (task : TaskRun) : .handed task ∉
      (Halfway.overdrawn.buildAlong [] Halfway.request ⟨1, 1⟩ false .epoch).trace := by
    rw [htrace]
    exact notMem_opening
  obtain ⟨summary, hs, -⟩ := hall Halfway.overdrawn Halfway.request ⟨1, 1⟩ false .epoch []
    Plan.diamondPlan rfl hp ":top" (by decide) fun task hr => absurd hr (hunhanded task)
  rw [hnone] at hs
  exact nomatch hs

end Engine

end BuildStream
