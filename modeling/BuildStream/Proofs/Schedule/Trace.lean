/-
# The trace of a schedule

Workers take their steps in any order, so the trace of a schedule mixes what they show.  It can be
sorted out again: `own` takes from it the signs of one run.  What those signs are is the invariant
`Followed`.

* The own signs of a run are a way through the script of its task, which ends where its worker is
  now, or at its report if the worker is gone.
* Every sign is a question of the scheduler, a task that is handed over, or an own sign of a run
  that was handed over before.
* Every report is that of a run that was handed over, or says that there was none.

The invariant rests on a run that is handed over being a new one (`Followed.move`).  Runs are told
apart by their stamps as long as no stamp comes twice, that is, for the first `2 ^ 64` stamps
(`traced_run`).  At the end there are no workers, and every run has its whole script behind it
(`Followed.completed`).
-/
import BuildStream.Proofs.Dependencies
import BuildStream.Proofs.Schedule.Ending
import BuildStream.Proofs.Stamps

namespace BuildStream

namespace Schedule

variable {ε : Type} {su : ScheduleSetup ε} {g : Generator}

/-! ## 1. The parts of a trace -/

/-- The stamps that were taken. -/
def stamps (s : Schedule ε) : List Stamp := s.trace.filterMap Sign.stamp?

/-- The signs of a run, in order. -/
def own (s : Schedule ε) (run : TaskRun) : List (Sign ε) :=
  s.trace.filter fun sign => decide (sign.worker? = some run)

theorem own_of_trace {s t : Schedule ε} {signs : List (Sign ε)} (h : t.trace = s.trace ++ signs)
    (run : TaskRun) :
    t.own run = s.own run ++ signs.filter fun sign => decide (sign.worker? = some run) := by
  rw [own, own, h, List.filter_append]

theorem stamps_of_trace {s t : Schedule ε} {signs : List (Sign ε)}
    (h : t.trace = s.trace ++ signs) : t.stamps = s.stamps ++ signs.filterMap Sign.stamp? := by
  rw [stamps, stamps, h, List.filterMap_append]

/-- **A move only adds to the trace.** -/
theorem Move.trace {s t : Schedule ε} (h : Move su s t) : ∃ signs, t.trace = s.trace ++ signs := by
  cases h with
  | scheduler h =>
    cases h with
    | leaveOut => exact ⟨[], (List.append_nil _).symm⟩
    | observe => exact ⟨_, rfl⟩
    | handOver => exact ⟨_, List.append_assoc _ _ _⟩
    | endWave => exact ⟨_, by rw [endWave_eq]⟩
    | passOver => exact ⟨[], (List.append_nil _).symm⟩
    | beginWave => exact ⟨[], (List.append_nil _).symm⟩
  | worker h => exact ⟨_, by rw [h.eq]⟩
  | request h => exact ⟨[], by rw [h]; exact (List.append_nil _).symm⟩

/-! ## 2. The invariant -/

/-- A run was handed over, and its own signs lead to a script. -/
structure Tracks (su : ScheduleSetup ε) (s : Schedule ε) (run : TaskRun) (script : Script ε) :
    Prop where
  handed : .handed run ∈ s.trace
  build : run.build = su.build
  task : ∃ task, su.registry.get? run.path = some task ∧ run.description = task.description ∧
    (Script.ofTask su.reporter (su.lost run.path) run task.action).Path run (s.own run) script

/-- A sign that the trace accounts for: the scheduler's, or that of a run that was handed over. -/
def Explained (s : Schedule ε) (sign : Sign ε) : Prop :=
  (∃ run, sign = .handed run) ∨ (∃ answer, sign = .asked none answer) ∨
    ∃ run, sign.worker? = some run ∧ .handed run ∈ s.trace

/-- The worker of a run is gone, and its own signs lead to a report. -/
structure Gone (su : ScheduleSetup ε) (s : Schedule ε) (run : TaskRun) (report : TaskReport) :
    Prop where
  notMem : run ∉ s.workers.map (·.run)
  tracks : Tracks su s run (.done report)

/-- What the trace of a schedule tells about its workers and reports. -/
structure Followed (su : ScheduleSetup ε) (s : Schedule ε) : Prop where
  working : ∀ w ∈ s.workers, Tracks su s w.run w.script
  distinct : (s.workers.map (·.run)).Nodup
  ended : ∀ run, .handed run ∈ s.trace →
    run ∈ s.workers.map (·.run) ∨ ∃ report ∈ s.reports, Gone su s run report
  reported : ∀ report ∈ s.reports, (∃ run, Gone su s run report) ∨ report = .notRun report.path
  signs : ∀ sign ∈ s.trace, Explained s sign

/-- The script of a worker belongs to its run. -/
theorem Tracks.owned {s : Schedule ε} {run : TaskRun} {script : Script ε}
    (h : Tracks su s run script) : script.Owned run := by
  obtain ⟨task, -, -, hp⟩ := h.task
  exact (hp.owned (Script.owned_ofTask _ run task.action)).2

/-- Signs that are not of a run do not matter to it. -/
theorem Tracks.of_trace {s t : Schedule ε} {run : TaskRun} {script : Script ε}
    {signs : List (Sign ε)} (h : Tracks su s run script) (ht : t.trace = s.trace ++ signs)
    (hs : ∀ sign ∈ signs, sign.worker? ≠ some run) : Tracks su t run script := by
  obtain ⟨task, hg, hd, hp⟩ := h.task
  have ho : t.own run = s.own run := by
    rw [own_of_trace ht, List.filter_eq_nil_iff.mpr (by simpa using hs), List.append_nil]
  exact ⟨ht ▸ List.mem_append_left _ h.handed, h.build, task, hg, hd, ho ▸ hp⟩

theorem explained_of_trace {s t : Schedule ε} {signs : List (Sign ε)}
    (ht : t.trace = s.trace ++ signs) (h : ∀ sign ∈ s.trace, Explained s sign)
    (hs : ∀ sign ∈ signs, Explained t sign) : ∀ sign ∈ t.trace, Explained t sign := by
  intro sign hm
  rcases List.mem_append.mp (ht ▸ hm) with hm | hm
  · rcases h sign hm with hh | ha | ⟨run, hw, hh⟩
    · exact .inl hh
    · exact .inr (.inl ha)
    · exact .inr (.inr ⟨run, hw, ht ▸ List.mem_append_left _ hh⟩)
  · exact hs sign hm

theorem followed_start (g : Generator) (requested : Bool) : Followed su (start su g requested) where
  working := by simp [start]
  distinct := by simp [start]
  ended := by simp [start]
  reported := by simp [start]
  signs := by simp [start]

/-! ## 3. The invariant is kept -/

/-- **What the scheduler does alone**: it asks about cancellation, and reports tasks that are not
started. -/
theorem Followed.alone {s t : Schedule ε} (h : Followed su s) (signs : List (Sign ε))
    (left : List TaskPath) (ht : t.trace = s.trace ++ signs)
    (hs : ∀ sign ∈ signs, ∃ answer, sign = .asked none answer) (hw : t.workers = s.workers)
    (hr : t.reports = s.reports ++ left.map .notRun) : Followed su t := by
  have htr {run : TaskRun} {script : Script ε} (h : Tracks su s run script) :
      Tracks su t run script := by
    refine h.of_trace ht fun sign hm => ?_
    obtain ⟨answer, rfl⟩ := hs sign hm
    exact fun hn => nomatch hn
  have hgone {run : TaskRun} {report : TaskReport} (h : Gone su s run report) :
      Gone su t run report := ⟨hw ▸ h.notMem, htr h.tracks⟩
  refine ⟨fun w hm => htr (h.working w (hw ▸ hm)), hw ▸ h.distinct, fun run hm => ?_,
    fun report hm => ?_, explained_of_trace ht h.signs fun sign hm => .inr (.inl (hs sign hm))⟩
  · have hold : .handed run ∈ s.trace := by
      rcases List.mem_append.mp (ht ▸ hm) with hm | hm
      · exact hm
      · obtain ⟨answer, he⟩ := hs _ hm
        exact nomatch he
    rcases h.ended run hold with hm | ⟨report, hm, hd⟩
    · exact .inl (hw ▸ hm)
    · exact .inr ⟨report, hr ▸ List.mem_append_left _ hm, hgone hd⟩
  · rcases List.mem_append.mp (hr ▸ hm) with hm | hm
    · exact (h.reported report hm).imp_left (Exists.imp fun _ => hgone)
    · obtain ⟨path, -, rfl⟩ := List.mem_map.mp hm
      exact .inr rfl

/-- Nothing that the invariant reads has changed. -/
theorem Followed.congr {s t : Schedule ε} (h : Followed su s) (ht : t.trace = s.trace)
    (hw : t.workers = s.workers) (hr : t.reports = s.reports) : Followed su t :=
  h.alone [] [] (by simp [ht]) (by simp) hw (by simp [hr])

theorem Followed.ask {s : Schedule ε} (h : Followed su s) : Followed su (s.ask su) :=
  h.alone [.asked none (s.poll su)] [] rfl (by simp) rfl (by simp [Schedule.ask])

theorem Followed.ask_queue {s : Schedule ε} (h : Followed su s) (queue : List TaskPath) :
    Followed su (Schedule.ask su { s with queue }) :=
  Followed.ask (s := { s with queue }) (h.congr rfl rfl rfl)

/-- The run that a task gets when it is handed over. -/
def newRun (su : ScheduleSetup ε) (s : Schedule ε) (task : TaskDefinition) : TaskRun :=
  ⟨s.generator.allocate.1, task.path, task.description, su.build⟩

theorem handOver_eq (su : ScheduleSetup ε) (s : Schedule ε) (task : TaskDefinition) :
    s.handOver su task =
      { s with
        generator := s.generator.allocate.2
        workers := s.workers ++ [⟨newRun su s task,
          .ofTask su.reporter (su.lost task.path) (newRun su s task) task.action, s.now⟩]
        trace := s.trace ++ [.handed (newRun su s task)] } := rfl

/-- A run that was not handed over has shown nothing. -/
theorem Followed.own_eq_nil {s : Schedule ε} (h : Followed su s) {run : TaskRun}
    (hr : .handed run ∉ s.trace) : s.own run = [] := by
  refine List.filter_eq_nil_iff.mpr ?_
  intro sign hm hsign
  have hw : sign.worker? = some run := by simpa using hsign
  rcases h.signs sign hm with ⟨other, rfl⟩ | ⟨answer, rfl⟩ | ⟨other, ho, hh⟩
  · exact nomatch hw
  · exact nomatch hw
  · obtain rfl : other = run := Option.some.inj (ho.symm.trans hw)
    exact hr hh

theorem trace_handOver (su : ScheduleSetup ε) (s : Schedule ε) (task : TaskDefinition) :
    (s.handOver su task).trace = s.trace ++ [.handed (newRun su s task)] := rfl

theorem runs_handOver (su : ScheduleSetup ε) (s : Schedule ε) (task : TaskDefinition) :
    (s.handOver su task).workers.map (·.run) = s.workers.map (·.run) ++ [newRun su s task] := by
  rw [handOver_eq, List.map_append]
  rfl

/-- A run that is handed over is at the beginning of its script. -/
theorem Followed.tracks_newRun {s : Schedule ε} (h : Followed su s) {path : TaskPath}
    {task : TaskDefinition} (hr : su.registry.get? path = some task)
    (hn : .handed (newRun su s task) ∉ s.trace) :
    Tracks su (s.handOver su task) (newRun su s task)
      (.ofTask su.reporter (su.lost task.path) (newRun su s task) task.action) where
  handed := by simp [trace_handOver]
  build := rfl
  task := by
    refine ⟨task, Registry.get?_path hr, rfl, ?_⟩
    rw [own_of_trace (trace_handOver su s task), h.own_eq_nil hn]
    exact .refl _

/-- The run that is handed over is none of those at work. -/
theorem Followed.distinct_handOver {s : Schedule ε} (h : Followed su s) {task : TaskDefinition}
    (hn : .handed (newRun su s task) ∉ s.trace) :
    ((s.handOver su task).workers.map (·.run)).Nodup := by
  rw [runs_handOver, List.nodup_append]
  refine ⟨h.distinct, by simp, ?_⟩
  rintro _ hm _ hl rfl
  obtain ⟨w, hm, hwr⟩ := List.mem_map.mp hm
  have hwr : w.run = newRun su s task := hwr.trans (List.mem_singleton.mp hl)
  exact hn (hwr ▸ (h.working w hm).handed)

theorem Followed.handOver {s : Schedule ε} (h : Followed su s) {path : TaskPath}
    {task : TaskDefinition} (hr : su.registry.get? path = some task)
    (hn : .handed (newRun su s task) ∉ s.trace) : Followed su (s.handOver su task) := by
  have ht := trace_handOver su s task
  have htr {other : TaskRun} {script : Script ε} (h : Tracks su s other script) :
      Tracks su (s.handOver su task) other script := h.of_trace ht (by simp [Sign.worker?])
  have hgone {other : TaskRun} {report : TaskReport} (h : Gone su s other report) :
      Gone su (s.handOver su task) other report := by
    refine ⟨?_, htr h.tracks⟩
    rw [runs_handOver, List.mem_append, List.mem_singleton]
    rintro (hm | rfl)
    · exact h.notMem hm
    · exact hn h.tracks.handed
  refine ⟨fun w hm => ?_, h.distinct_handOver hn, fun other ho => ?_, fun report hm => ?_,
    explained_of_trace ht h.signs fun sign hm => .inl ⟨_, List.mem_singleton.mp hm⟩⟩
  · rcases List.mem_append.mp hm with hm | hm
    · exact htr (h.working w hm)
    · rw [List.mem_singleton.mp hm]
      exact h.tracks_newRun hr hn
  · rw [ht] at ho
    rw [runs_handOver]
    rcases List.mem_append.mp ho with ho | ho
    · rcases h.ended other ho with hm | ⟨report, hm, hd⟩
      · exact .inl (List.mem_append_left _ hm)
      · exact .inr ⟨report, hm, hgone hd⟩
    · obtain rfl : other = newRun su s task := by simpa using ho
      exact .inl (List.mem_append_right _ (List.mem_singleton_self _))
  · exact (h.reported report hm).imp_left (Exists.imp fun _ => hgone)

/-- When a wave ends, its runs have their whole scripts behind them. -/
theorem Followed.endWave {s : Schedule ε} (h : Followed su s) (hn : s.running = 0) :
    Followed su (s.endWave su) := by
  have ha := h.ask
  have ht : (s.endWave su).trace = (s.ask su).trace ++ [] := by
    rw [endWave_eq, List.append_nil]
    rfl
  have hr : (s.endWave su).reports = s.reports ++ s.workers.filterMap (·.script.report?) := by
    rw [endWave_eq]
  have hgone {run : TaskRun} {report : TaskReport} (h : Tracks su (s.ask su) run (.done report)) :
      Gone su (s.endWave su) run report := ⟨List.not_mem_nil, h.of_trace ht (by simp)⟩
  -- every worker leaves its report
  have hdone {w : Worker ε} (hw : w ∈ s.workers) : ∃ report,
      w.script.report? = some report ∧ Gone su (s.endWave su) w.run report := by
    obtain ⟨report, hs⟩ := done_of_running hn hw
    exact ⟨report, by rw [hs]; rfl, hgone (hs ▸ ha.working w hw)⟩
  refine ⟨(fun w hm => nomatch hm), List.nodup_nil, fun run hm => ?_, fun report hm => ?_,
    explained_of_trace ht ha.signs (by simp)⟩
  · right
    rw [ht, List.append_nil] at hm
    rcases ha.ended run hm with hm | ⟨report, hm, hd⟩
    · obtain ⟨w, hw, rfl⟩ := List.mem_map.mp hm
      obtain ⟨report, hs, hd⟩ := hdone hw
      exact ⟨report, hr ▸ List.mem_append_right _ (List.mem_filterMap.mpr ⟨w, hw, hs⟩), hd⟩
    · exact ⟨report, hr ▸ List.mem_append_left _ hm, hgone hd.tracks⟩
  · rcases List.mem_append.mp (hr ▸ hm) with hm | hm
    · exact (ha.reported report hm).imp_left (Exists.imp fun _ hd => hgone hd.tracks)
    · obtain ⟨w, hw, hs⟩ := List.mem_filterMap.mp hm
      obtain ⟨other, ho, hd⟩ := hdone hw
      obtain rfl : other = report := Option.some.inj (ho.symm.trans hs)
      exact .inl ⟨w.run, hd⟩

/-- The signs that a worker shows are its own. -/
theorem Followed.shown {s t : Schedule ε} (h : Followed su s) {i : Nat} {w w' : Worker ε}
    {signs : List (Sign ε)} (hm : WorkerMove su s t i w w' signs) :
    ∀ sign ∈ signs, sign.worker? = some w.run :=
  (hm.path.owned (h.working w (List.mem_of_getElem? hm.here)).owned).1

/-- The worker that moved has come further through its script. -/
theorem Followed.tracks_worker {s t : Schedule ε} (h : Followed su s) {i : Nat} {w w' : Worker ε}
    {signs : List (Sign ε)} (hm : WorkerMove su s t i w w' signs) :
    t.own w.run = s.own w.run ++ signs ∧ Tracks su t w.run w'.script := by
  have htw := h.working w (List.mem_of_getElem? hm.here)
  obtain ⟨task, hg, hd, hp⟩ := htw.task
  have hall : (signs.filter fun sign => decide (sign.worker? = some w.run)) = signs :=
    List.filter_eq_self.mpr (by simpa using h.shown hm)
  have hown : t.own w.run = s.own w.run ++ signs := by rw [own_of_trace hm.trace, hall]
  exact ⟨hown, hm.trace ▸ List.mem_append_left _ htw.handed, htw.build, task, hg, hd,
    hown ▸ hp.trans hm.path⟩

theorem Followed.worker {s t : Schedule ε} (h : Followed su s) {i : Nat} {w w' : Worker ε}
    {signs : List (Sign ε)} (hm : WorkerMove su s t i w w' signs) : Followed su t := by
  have hhere := List.mem_of_getElem? hm.here
  have ht := hm.trace
  have hr : t.reports = s.reports := by rw [hm.eq]
  have hothers {other : TaskRun} {script : Script ε} (hne : other ≠ w.run)
      (h' : Tracks su s other script) : Tracks su t other script := by
    refine h'.of_trace ht ?_
    intro sign hs
    rw [h.shown hm sign hs]
    exact fun he => hne (Option.some.inj he).symm
  have hgone {other : TaskRun} {report : TaskReport} (h' : Gone su s other report) :
      Gone su t other report := by
    refine ⟨hm.runs ▸ h'.notMem, hothers ?_ h'.tracks⟩
    rintro rfl
    exact h'.notMem (List.mem_map_of_mem hhere)
  refine ⟨?_, hm.runs ▸ h.distinct, ?_, ?_, explained_of_trace ht h.signs ?_⟩
  · intro x hx
    rcases hm.mem_workers h.distinct hx with rfl | ⟨hx, hne⟩
    · rw [hm.run]
      exact (h.tracks_worker hm).2
    · exact hothers hne (h.working x hx)
  · intro run hh
    rw [ht] at hh
    rw [hm.runs, hr]
    rcases List.mem_append.mp hh with hh | hh
    · rcases h.ended run hh with hw | ⟨report, hmem, hd⟩
      · exact .inl hw
      · exact .inr ⟨report, hmem, hgone hd⟩
    · exact nomatch h.shown hm _ hh
  · intro report hmem
    exact (h.reported report (hr ▸ hmem)).imp_left (Exists.imp fun _ => hgone)
  · refine fun sign hs => .inr (.inr ⟨w.run, h.shown hm sign hs, ?_⟩)
    exact ht ▸ List.mem_append_left _ (h.working w hhere).handed

/-- If the next task is handed over between two states, its run is a new one. -/
def HandsNew (su : ScheduleSetup ε) (s t : Schedule ε) : Prop :=
  ∀ path queue task, s.queue = path :: queue → su.registry.get? path = some task →
    t.trace = s.trace ++ [.asked none (s.poll su), .handed (newRun su s task)] →
    .handed (newRun su s task) ∉ s.trace

/-- The run is still new after the question that comes before it is handed over. -/
theorem HandsNew.notMem_ask {s : Schedule ε} {path : TaskPath} {queue : List TaskPath}
    {task : TaskDefinition}
    (h : HandsNew su s ((Schedule.ask su { s with queue }).handOver su task))
    (hq : s.queue = path :: queue) (hr : su.registry.get? path = some task) :
    .handed (newRun su s task) ∉ (Schedule.ask su { s with queue }).trace := by
  intro hm
  rcases List.mem_append.mp hm with hm | hm
  · exact h path queue task hq hr (List.append_assoc ..) hm
  · exact nomatch List.mem_singleton.mp hm

/-- **A move keeps the invariant**, as long as what is handed over is a new run. -/
theorem Followed.move {s t : Schedule ε} (h : Followed su s) (hm : Move su s t)
    (hnew : HandsNew su s t) : Followed su t := by
  cases hm with
  | scheduler hm =>
    cases hm with
    | @leaveOut path queue hw hq why =>
      exact h.alone [] [path] (List.append_nil _).symm (by simp) rfl rfl
    | @observe path queue hw hq hp =>
      exact h.alone [.asked none (s.poll su)] [path] rfl (by simp) rfl rfl
    | @handOver path queue task hw hq hr hf hc hn hp =>
      exact (h.ask_queue queue).handOver hr (hnew.notMem_ask hq hr)
    | endWave hw hq hn => exact h.endWave hn
    | @passOver wave waves hw hv ho =>
      exact h.alone [] wave (List.append_nil _).symm (by simp) rfl rfl
    | beginWave hw hv ho => exact h.congr rfl rfl rfl
  | worker hm => exact h.worker hm
  | request hm => exact h.congr (by rw [hm]) (by rw [hm]) (by rw [hm])

/-- **The end.**  Every run that was handed over has its whole script behind it, and its report. -/
theorem Followed.completed {s : Schedule ε} (h : Followed su s) (hw : s.workers = [])
    {run : TaskRun} (hr : .handed run ∈ s.trace) :
    ∃ report ∈ s.reports, Tracks su s run (.done report) := by
  rcases h.ended run hr with hm | ⟨report, hm, hd⟩
  · simp [hw] at hm
  · exact ⟨report, hm, hd.tracks⟩

/-! ## 4. What a move shows -/

/-- A list that is split at a member of the first or the second of two lists. -/
theorem split_append {α : Type} {first second before after : List α} {a : α}
    (h : first ++ second = before ++ a :: after) :
    (∃ rest, first = before ++ a :: rest ∧ after = rest ++ second) ∨
      ∃ more, before = first ++ more ∧ second = more ++ a :: after := by
  rcases List.append_eq_append_iff.mp h with ⟨more, hb, hs⟩ | ⟨more, hf, ha⟩
  · exact .inr ⟨more, hb, hs⟩
  · cases more with
    | nil => exact .inr ⟨[], by rw [hf, List.append_nil, List.append_nil], ha.symm⟩
    | cons x rest =>
      rw [List.cons_append, List.cons.injEq] at ha
      exact .inl ⟨rest, by rw [hf, ha.1], ha.2⟩

/-- What a move shows of a run is shown by its worker, which got the run before. -/
theorem Followed.signs_move {s t : Schedule ε} (h : Followed su s) (hm : Move su s t) :
    ∃ signs, t.trace = s.trace ++ signs ∧
      ∀ sign ∈ signs, ∀ run, sign.worker? = some run → .handed run ∈ s.trace := by
  cases hm with
  | scheduler hm =>
    cases hm with
    | leaveOut => exact ⟨[], (List.append_nil _).symm, by simp⟩
    | observe => exact ⟨_, rfl, by simp [Sign.worker?]⟩
    | handOver => exact ⟨_, List.append_assoc _ _ _, by simp [Sign.worker?]⟩
    | endWave => exact ⟨_, trace_endWave su s, by simp [Sign.worker?]⟩
    | passOver => exact ⟨[], (List.append_nil _).symm, by simp⟩
    | beginWave => exact ⟨[], (List.append_nil _).symm, by simp⟩
  | @worker i w w' signs hm =>
    refine ⟨_, hm.trace, fun sign hs run hr => ?_⟩
    obtain rfl : w.run = run := Option.some.inj ((h.shown hm sign hs).symm.trans hr)
    exact (h.working w (List.mem_of_getElem? hm.here)).handed
  | request hm => exact ⟨[], by rw [hm, List.append_nil], by simp⟩

/-- A run can be handed over: its task is the next one, and nothing is in its way. -/
structure HandsOver (su : ScheduleSetup ε) (s : Schedule ε) (run : TaskRun) : Prop where
  inWave : s.inWave = true
  next : ∃ queue, s.queue = run.path :: queue
  free : waitsOnFailure su s run.path = false
  cancelled : s.cancelled = false
  quiet : s.poll su = false

/-- **What was handed over** was so before, or its turn has just come. -/
theorem Followed.handed_cases {s t : Schedule ε} (h : Followed su s) (hm : Move su s t)
    {run : TaskRun} (hr : .handed run ∈ t.trace) :
    .handed run ∈ s.trace ∨ HandsOver su s run := by
  cases hm with
  | scheduler hm =>
    cases hm with
    | leaveOut => exact .inl hr
    | observe => exact .inl (by simpa [Schedule.leaveOut, Schedule.ask] using hr)
    | @handOver path queue task hw hq hg hf hc hn hp =>
      obtain rfl : task.path = path := Registry.path_of_get? hg
      rcases List.mem_append.mp hr with hr | hr
      · exact .inl (by simpa [Schedule.ask] using hr)
      · obtain rfl : run = newRun su s task := Sign.handed.inj (List.mem_singleton.mp hr)
        exact .inr ⟨hw, ⟨queue, hq⟩, hf, hc, hp⟩
    | endWave => exact .inl (by simpa using hr)
    | passOver => exact .inl hr
    | beginWave => exact .inl hr
  | worker hm =>
    rw [hm.trace] at hr
    rcases List.mem_append.mp hr with hr | hr
    · exact .inl hr
    · cases h.shown hm _ hr
  | request hm => exact .inl (by simpa [hm] using hr)

/-! ## 5. Stamps -/

/-- The invariant, together with the stamps that were taken: they are those of a generator, one
after the other. -/
structure Traced (su : ScheduleSetup ε) (g : Generator) (s : Schedule ε) : Prop
    extends Followed su s where
  generator : s.generator = g.after s.stamps.length
  stamps : s.stamps = g.firstStamps s.stamps.length

theorem traced_start (requested : Bool) : Traced su g (start su g requested) where
  toFollowed := followed_start g requested
  generator := (Generator.after_zero g).symm
  stamps := rfl

/-- A run that was handed over has one of the stamps. -/
theorem stamp_mem_of_handed {s : Schedule ε} {run : TaskRun} (h : .handed run ∈ s.trace) :
    run.stamp ∈ s.stamps :=
  List.mem_filterMap.mpr ⟨_, h, rfl⟩

/-- The next stamp is none of those taken, as long as the counter did not come back. -/
theorem Traced.fresh {s : Schedule ε} (h : Traced su g s) (hb : s.stamps.length < UInt64.size) :
    s.generator.allocate.1 ∉ s.stamps := by
  have hn := Generator.nodup_firstStamps (g := g) (n := s.stamps.length + 1) hb
  rw [Generator.firstStamps_succ, ← h.stamps] at hn
  rw [h.generator, Generator.allocate_after]
  intro hm
  exact (List.nodup_append.mp hn).2.2 _ hm _ (List.mem_singleton_self _) rfl

/-- The stamps and the generator after one more stamp. -/
theorem Traced.next {s t : Schedule ε} (h : Traced su g s)
    (hs : t.stamps = s.stamps ++ [s.generator.allocate.1])
    (hg : t.generator = s.generator.allocate.2) :
    t.generator = g.after t.stamps.length ∧ t.stamps = g.firstStamps t.stamps.length := by
  rw [h.generator, Generator.allocate_after] at hs hg
  rw [hs, hg, List.length_append, List.length_singleton, Generator.firstStamps_succ, ← h.stamps]
  exact ⟨rfl, rfl⟩

/-- **A move takes no stamp, or the next one** of the generator. -/
theorem Followed.stamps_move {s t : Schedule ε} (h : Followed su s) (hm : Move su s t) :
    t.stamps = s.stamps ∧ t.generator = s.generator ∨
      t.stamps = s.stamps ++ [s.generator.allocate.1] ∧ t.generator = s.generator.allocate.2 := by
  cases hm with
  | scheduler hm =>
    cases hm with
    | leaveOut => exact .inl ⟨rfl, rfl⟩
    | observe => exact .inl ⟨by simp [stamps, Schedule.leaveOut, Schedule.ask, Sign.stamp?], rfl⟩
    | handOver =>
      refine .inr ⟨?_, rfl⟩
      rw [stamps_of_trace (List.append_assoc _ _ _)]
      rfl
    | endWave => exact .inl (by simp [stamps, endWave_eq, Sign.stamp?])
    | passOver => exact .inl ⟨rfl, rfl⟩
    | beginWave => exact .inl ⟨rfl, rfl⟩
  | worker hm =>
    rw [stamps_of_trace hm.trace]
    rcases hm.stamps (h.working _ (List.mem_of_getElem? hm.here)).owned with ⟨hs, hg⟩ | ⟨hs, hg⟩
    · exact .inl ⟨by rw [hs, List.append_nil], hg⟩
    · exact .inr ⟨by rw [hs], hg⟩
  | request hm => exact .inl (by rw [hm]; exact ⟨rfl, rfl⟩)

/-- **A move keeps the invariant**, unless the counter of stamps has come back. -/
theorem Traced.move {s t : Schedule ε} (h : Traced su g s) (hm : Move su s t)
    (hb : t.stamps.length ≤ UInt64.size) : Traced su g t := by
  have hnew : HandsNew su s t := by
    intro path queue task _ _ ht hs
    have hlen : t.stamps.length = s.stamps.length + 1 := by
      rw [stamps_of_trace ht, List.length_append]
      rfl
    exact h.fresh (by omega) (stamp_mem_of_handed hs)
  have hst : t.generator = g.after t.stamps.length ∧ t.stamps = g.firstStamps t.stamps.length := by
    rcases h.stamps_move hm with ⟨hs, hg⟩ | ⟨hs, hg⟩
    · rw [hs, hg]
      exact ⟨h.generator, h.stamps⟩
    · exact h.next hs hg
  exact { h.toFollowed.move hm hnew with generator := hst.1, stamps := hst.2 }

/-- **The invariant of a run.**  It holds of every run in which no stamp came twice. -/
theorem traced_run {generator : Generator} {requested : Bool} {choices : List Choice}
    (hb : ((start su generator requested).run su choices).stamps.length ≤ UInt64.size) :
    Traced su generator ((start su generator requested).run su choices) := by
  refine run_induction (P := fun s => s.stamps.length ≤ UInt64.size → Traced su generator s)
    (fun _ => traced_start requested) (fun s t hs hm ht => ?_) choices hb
  obtain ⟨signs, htr⟩ := hm.trace
  have hle : s.stamps.length ≤ t.stamps.length := by simp [stamps_of_trace htr]
  exact (hs (Nat.le_trans hle ht)).move hm ht

end Schedule

end BuildStream
