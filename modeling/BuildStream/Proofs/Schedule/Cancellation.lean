/-
# What a schedule makes of cancellation

The scheduler and the workers ask about cancellation whenever they like, and everybody gets the
answer that the state gives.  What was requested stays requested, so once a question was answered
with yes, all later ones are (`Heeds.polled`).  The scheduler asks after every wave; so whoever was
told, the scheduler knows when the wave is over (`Heeds.heeded`), and at the end a schedule was
cancelled exactly if anybody was told (`Heeds.cancelled_iff`).

Where the scheduler itself was told, nothing is handed over any more (`Heeds.closed`).  What is not
handed over is reported as never run (`OnCourse.notRun`), and whatever was handed over comes to its
end, as its own action does with the answers that it got (`OnCourse.ranToEnd`).
-/
import BuildStream.Proofs.Schedule.Hooks

namespace BuildStream

variable {ε : Type}

namespace Sign

/-- Somebody asked about cancellation and was told that it was requested. -/
def Observed (signs : List (Sign ε)) : Prop := ∃ worker, .asked worker true ∈ signs

/-- No task is handed over after the engine itself was told of cancellation. -/
def Closed (signs : List (Sign ε)) : Prop :=
  signs.Pairwise fun sign later => sign = .asked none true → ∀ run, later ≠ .handed run

variable {signs more : List (Sign ε)}

theorem Closed.append (h : Closed signs) (hm : ∀ run, .handed run ∉ more) :
    Closed (signs ++ more) := by
  refine List.pairwise_append.mpr ⟨h, ?_, ?_⟩
  · exact List.pairwise_of_forall_mem_list fun _ _ later hl _ run he => hm run (he ▸ hl)
  · exact fun _ _ later hl _ run he => hm run (he ▸ hl)

theorem closed_of_notMem_handed (h : ∀ run, .handed run ∉ signs) : Closed signs :=
  List.pairwise_of_forall_mem_list fun _ _ _ hl _ run he => h run (he ▸ hl)

theorem closed_of_notMem (h : .asked none true ∉ signs) : Closed signs :=
  List.pairwise_of_forall_mem_list fun _ hs _ _ he => absurd (he ▸ hs) h

theorem Closed.cons_of_notMem (h : Closed more) (hn : .asked none true ∉ signs) :
    Closed (signs ++ more) :=
  List.pairwise_append.mpr
    ⟨closed_of_notMem hn, h, fun _ hs _ _ he => absurd (he ▸ hs) hn⟩

/-- Nothing is handed over in the part after a question that was answered with yes. -/
theorem Closed.notMem_after (h : Closed signs) {before after : List (Sign ε)}
    (hs : signs = before ++ .asked none true :: after) (run : TaskRun) :
    .handed run ∉ after := by
  rw [hs] at h
  have hafter := (List.pairwise_cons.mp (List.pairwise_append.mp h).2.1).1
  exact fun hm => hafter _ hm rfl run rfl

end Sign

namespace Schedule

variable {su : ScheduleSetup ε} {s t : Schedule ε} {r : Registry}

/-! ## 1. The invariant -/

/-- What a schedule knows of cancellation. -/
structure Heeds (su : ScheduleSetup ε) (s : Schedule ε) : Prop where
  observed : s.cancelled = true → .asked none true ∈ s.trace
  polled : ∀ worker, .asked worker true ∈ s.trace → s.poll su = true
  /-- The scheduler knows what it was told itself, and between waves what anybody was told. -/
  heeded : ∀ worker, .asked worker true ∈ s.trace → worker = none ∨ s.inWave = false →
    s.cancelled = true
  closed : Sign.Closed s.trace

theorem heeds_start (g : Generator) (requested : Bool) : Heeds su (start su g requested) where
  observed := fun hc => nomatch hc
  polled := by simp [start]
  heeded := by simp [start]
  closed := .nil

/-- Nothing was seen, and the scheduler knows of cancellation what it knew before. -/
theorem Heeds.congr (h : Heeds su s) (ht : t.trace = s.trace) (hc : t.cancelled = s.cancelled)
    (hp : s.poll su = true → t.poll su = true) (hw : t.inWave = false → s.inWave = false) :
    Heeds su t where
  observed := by
    rw [ht, hc]
    exact h.observed
  polled := fun worker ha => hp (h.polled worker (ht ▸ ha))
  heeded := by
    rw [hc]
    exact fun worker ha hn => h.heeded worker (ht ▸ ha) (hn.imp id hw)
  closed := by
    rw [ht]
    exact h.closed

theorem Heeds.observe (h : Heeds su s) {path : TaskPath} {queue : List TaskPath}
    (hp : s.poll su = true) :
    Heeds su { (ask su { s with queue }).leaveOut path with cancelled := true } where
  observed := fun _ => by simp [Schedule.leaveOut, ask, ← hp, poll]
  polled := fun _ _ => hp
  heeded := fun _ _ _ => rfl
  closed := h.closed.append (by simp)

/-- Where nothing can be observed, nothing was. -/
theorem Heeds.notMem_asked (h : Heeds su s) (hp : s.poll su = false) (worker : Option TaskRun) :
    .asked worker true ∉ s.trace :=
  fun ha => nomatch hp.symm.trans (h.polled worker ha)

theorem Heeds.handOver (h : Heeds su s) {queue : List TaskPath} {task : TaskDefinition}
    (hc : s.cancelled = false) (hp : s.poll su = false) :
    Heeds su ((ask su { s with queue }).handOver su task) := by
  have hnone (worker : Option TaskRun) :
      .asked worker true ∉ ((ask su { s with queue }).handOver su task).trace := by
    intro ha
    simp only [trace_handOver, ask, List.append_assoc] at ha
    rcases List.mem_append.mp ha with ha | ha
    · exact h.notMem_asked hp worker ha
    · have hpoll : poll su { s with queue } = false := hp
      simp [hpoll] at ha
  exact ⟨fun hc' => absurd (hc.symm.trans hc') Bool.false_ne_true,
    fun worker ha => absurd ha (hnone worker),
    fun worker ha => absurd ha (hnone worker), Sign.closed_of_notMem (hnone none)⟩

/-- **After a wave the scheduler asks**, and then it knows what anybody was told. -/
theorem Heeds.endWave (h : Heeds su s) : Heeds su (s.endWave su) := by
  have hpoll : ∀ worker, .asked worker true ∈ (s.endWave su).trace → s.poll su = true := by
    intro worker ha
    rw [trace_endWave] at ha
    rcases List.mem_append.mp ha with ha | ha
    · exact h.polled worker ha
    · exact (Sign.asked.inj (List.mem_singleton.mp ha)).2.symm
  refine ⟨fun hc => ?_, fun worker ha => ?_, fun worker ha _ => ?_, ?_⟩
  · rw [cancelled_endWave, Bool.or_eq_true] at hc
    rw [trace_endWave]
    rcases hc with hc | hp
    · exact List.mem_append_left _ (h.observed hc)
    · exact List.mem_append_right _ (by simp [hp])
  · rw [endWave_eq]
    exact hpoll worker ha
  · have hp := hpoll worker ha
    rw [cancelled_endWave, hp, Bool.or_true]
  · rw [trace_endWave]
    exact h.closed.append (by simp)

theorem Heeds.worker (h : Heeds su s) (hset : s.Settled) (hf : Followed su s) {i : Nat}
    {w w' : Worker ε} {signs : List (Sign ε)} (hm : WorkerMove su s t i w w' signs) :
    Heeds su t := by
  have hhere := List.mem_of_getElem? hm.here
  have hshown := hf.shown hm
  have hcases {worker : Option TaskRun} (ha : .asked worker true ∈ t.trace) :
      .asked worker true ∈ s.trace ∨ worker = some w.run ∧ s.poll su = true := by
    rw [hm.trace] at ha
    rcases List.mem_append.mp ha with ha | ha
    · exact .inl ha
    · exact .inr ⟨hshown _ ha, (hm.answers (hf.working w hhere).owned worker true ha).symm⟩
  have hcancelled : t.cancelled = s.cancelled := by rw [hm.eq]
  have hwave : t.inWave = s.inWave := by rw [hm.eq]
  refine ⟨fun hc => ?_, fun worker ha => ?_, fun worker ha hn => ?_, ?_⟩
  · rw [hm.trace]
    exact List.mem_append_left _ (h.observed (hcancelled ▸ hc))
  · refine (Move.worker hm).poll ?_
    rcases hcases ha with ha | ⟨-, hp⟩
    · exact h.polled worker ha
    · exact hp
  · rw [hcancelled]
    rcases hcases ha with ha | ⟨rfl, -⟩
    · exact h.heeded worker ha (hwave ▸ hn)
    · -- between waves nobody is at work
      rcases hn with hn | hn
      · exact nomatch hn
      · rw [(hset (hwave ▸ hn)).1] at hhere
        exact nomatch hhere
  · rw [hm.trace]
    exact h.closed.append fun run hs => nomatch hshown _ hs

/-- **A move keeps the invariant.** -/
theorem Heeds.move (h : Heeds su s) (hset : s.Settled) (hf : Followed su s) (hm : Move su s t) :
    Heeds su t := by
  cases hm with
  | scheduler hm =>
    cases hm with
    | leaveOut => exact h.congr rfl rfl id id
    | observe hw hq hp => exact h.observe hp
    | handOver hw hq hr hfree hc hn hp => exact h.handOver hc hp
    | endWave => exact h.endWave
    | passOver => exact h.congr rfl rfl id id
    | beginWave => exact h.congr rfl rfl id (fun hw => nomatch hw)
  | worker hm => exact h.worker hset hf hm
  | request hm =>
    have hp : s.poll su = true → t.poll su = true := (Move.request hm).poll
    rw [hm] at hp ⊢
    exact h.congr rfl rfl hp id

variable {targets : List String} {nodes : List PlanNode}

theorem heeds_run (hm : Plan.Made r targets nodes su.plan) (g : Generator) (requested : Bool)
    (choices : List Choice) : Heeds su ((start su g requested).run su choices) :=
  run_induction_onCourse hm (heeds_start g requested)
    (fun _ _ hs h hmove => h.move hs.settled hs.followed hmove) choices

/-- **A schedule was cancelled exactly if anybody was told of cancellation.** -/
theorem Heeds.cancelled_iff (h : Heeds su s) (hf : s.isFinished = true) :
    s.cancelled = true ↔ Sign.Observed s.trace := by
  simp only [isFinished, Bool.and_eq_true, Bool.not_eq_true'] at hf
  refine ⟨fun hc => ⟨none, h.observed hc⟩, ?_⟩
  rintro ⟨worker, ha⟩
  exact h.heeded worker ha (.inr hf.2)

/-! ## 2. What was handed over, and what was not -/

end Schedule

/-- A run came to its end, and its report says so: the hook before its task was called, its action
ended as it does with the answers that it got, and the hook after the task was called, unless the
error of the action cannot be rendered. -/
structure Sign.RanToEnd (registry : Registry) (lost : TaskPath → String) (signs : List (Sign ε))
    (run : TaskRun) (report : TaskReport) : Prop where
  path : report.path = run.path
  began : .called (.beforeTask run) ∈ signs
  ended : ∃ task result, registry.get? run.path = some task ∧
    task.action.given (Sign.answers (signs.filter fun sign => decide (sign.worker? = some run))) =
      some (result, []) ∧
    report.verdict = result.verdict run.path (lost run.path) ∧
    (result ≠ .fails .unrenderable → ∃ state, .called (.afterTask run state) ∈ signs ∧
      state.isFailed = result.isFailed)

namespace Schedule

variable {su : ScheduleSetup ε} {s t : Schedule ε} {r : Registry} {targets : List String}
  {nodes : List PlanNode}

/-- A run whose own signs lead to a report came to its end. -/
theorem Tracks.ranToEnd {run : TaskRun} {report : TaskReport}
    (h : Tracks su s run (.done report)) : Sign.RanToEnd su.registry su.lost s.trace run report := by
  obtain ⟨hpath, hbegan, task, result, hg, hgiven, hv, hlast⟩ := h.ended
  refine ⟨hpath, hbegan, task, result, hg, hgiven, hv, fun hr => ?_⟩
  obtain ⟨began, ended, hc⟩ := hlast hr
  exact ⟨_, hc, RunState.isFailed_ofResult began ended result⟩

section Finished

variable (hm : Plan.Made r targets nodes su.plan) (h : OnCourse r su s)
  (hf : s.isFinished = true)
include hm h hf

/-- **Whatever was handed over came to its end**, and was reported. -/
theorem OnCourse.ranToEnd {run : TaskRun} (hr : .handed run ∈ s.trace) :
    ∃ report ∈ s.orderedReports su, Sign.RanToEnd su.registry su.lost s.trace run report := by
  have hw : s.workers = [] := by
    simp only [isFinished, Bool.and_eq_true, Bool.not_eq_true'] at hf
    exact (h.settled hf.2).1
  obtain ⟨report, hmem, ht⟩ := h.followed.completed hw hr
  exact ⟨report, (h.mem_orderedReports hm hf).mpr hmem, ht.ranToEnd⟩

/-- **Whatever was not handed over was never run**: it is reported so, and none of its hooks was
called. -/
theorem OnCourse.notRun {path : TaskPath} (hp : path ∈ su.plan.sorted)
    (hn : ∀ run, .handed run ∈ s.trace → run.path ≠ path) :
    .notRun path ∈ s.orderedReports su ∧
      ∀ hook, .called hook ∈ s.trace → ∀ run, hook.subject.task? = some run → run.path ≠ path := by
  refine ⟨?_, fun hook hc run hr => hn run (h.followed.handed_of_called hc hr)⟩
  obtain ⟨report, hr, rfl⟩ := List.mem_map.mp ((h.reports_perm hm hf).mem_iff.mpr hp)
  rcases h.followed.reported report hr with ⟨run, hg⟩ | he
  · exact absurd hg.tracks.path.symm (hn run hg.tracks.handed)
  · rw [← he]
    exact (h.mem_orderedReports hm hf).mpr hr

end Finished

end Schedule

end BuildStream
