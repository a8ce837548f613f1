/-
# Wave by wave

Where a schedule is in its plan.  After so many waves were begun or passed over (`Placed`), their
tasks are reported, at work or next, each of them once; what is at work or next is of the last of
these waves; and tasks are handed over in the order of the plan.

The plan may be that of any registry: what is handed over is looked up among the tasks of the
schedule, and the graph that the waves were made of need not be theirs.

Since a plan has no task twice, no task is handed over twice, and a run is new because its path is
(`Placed.handsNew`).  So what `Trace` tells of a schedule as long as no stamp comes twice holds of
every schedule of a plan that could be made, whatever its stamps (`onCourse_run`).
-/
import BuildStream.Proofs.Plan.Layout
import BuildStream.Proofs.Schedule.Trace

namespace BuildStream

/-- Members of which each is mapped to something, with the same property as the member. -/
theorem map_filterMap_eq_map {α β γ : Type} {f : α → Option β} {g : β → γ} {p : α → γ}
    {l : List α} (h : ∀ a ∈ l, ∃ b, f a = some b ∧ g b = p a) :
    (l.filterMap f).map g = l.map p := by
  rw [List.map_filterMap, ← List.filterMap_eq_map]
  refine List.filterMap_congr ?_
  intro a ha
  obtain ⟨b, hb, hg⟩ := h a ha
  rw [hb, Option.map_some, hg]
  rfl

/-- The run that is handed over. -/
def Sign.handed? {ε : Type} : Sign ε → Option TaskRun
  | handed run => some run
  | _ => none

theorem Sign.mem_handed {ε : Type} {signs : List (Sign ε)} {run : TaskRun} :
    run ∈ signs.filterMap handed? ↔ .handed run ∈ signs := by
  rw [List.mem_filterMap]
  constructor
  · rintro ⟨sign, hs, he⟩
    cases sign with
    | handed other =>
      obtain rfl : other = run := Option.some.inj he
      exact hs
    | _ => exact nomatch he
  · exact fun h => ⟨_, h, rfl⟩

namespace Schedule

variable {ε : Type} {su : ScheduleSetup ε} {r : Registry}

/-! ## 1. The invariant -/

/-- The tasks of the waves that were begun or passed over: reported, at work, and next. -/
def paths (s : Schedule ε) : List TaskPath :=
  s.reports.map (·.path) ++ (s.workers.map (·.run.path) ++ s.queue)

/-- The runs that were handed over, in order. -/
def handed (s : Schedule ε) : List TaskRun := s.trace.filterMap Sign.handed?

theorem mem_handed {s : Schedule ε} {run : TaskRun} :
    run ∈ s.handed ↔ .handed run ∈ s.trace := Sign.mem_handed

theorem handed_of_trace {s t : Schedule ε} {signs : List (Sign ε)}
    (h : t.trace = s.trace ++ signs) : t.handed = s.handed ++ signs.filterMap Sign.handed? := by
  rw [handed, handed, h, List.filterMap_append]

theorem handed_ask (su : ScheduleSetup ε) (s : Schedule ε) : (s.ask su).handed = s.handed := by
  rw [handed_of_trace rfl]
  exact List.append_nil _

theorem handed_endWave (su : ScheduleSetup ε) (s : Schedule ε) :
    (s.endWave su).handed = s.handed := by
  rw [handed_of_trace (trace_endWave su s)]
  exact List.append_nil _

/-- Where a schedule is when so many waves were begun or passed over.  The lengths of chains are
those of the registry that the plan was made of. -/
structure Placed (r : Registry) (su : ScheduleSetup ε) (k : Nat) (s : Schedule ε) : Prop where
  waves : s.waves = su.plan.waves.drop k
  paths : s.paths.Perm (su.plan.waves.take k).flatten
  wave : s.inWave = true → ∀ path ∈ s.workers.map (·.run.path) ++ s.queue,
    ∃ n, r.LongestChain path n ∧ k = n + 1
  order : (s.handed.map (·.path) ++ (s.queue ++ s.waves.flatten)).Sublist su.plan.sorted

variable {targets : List String} {nodes : List PlanNode} {s : Schedule ε} {k : Nat}

theorem placed_start (hm : Plan.Made r targets nodes su.plan) (g : Generator) (requested : Bool) :
    Placed r su 0 (start su g requested) where
  waves := rfl
  paths := .refl _
  wave := fun hf => nomatch hf
  order := by
    rw [← hm.flatten_waves]
    exact .refl _

/-! ## 2. What it tells -/

section Made

variable (hm : Plan.Made r targets nodes su.plan) (h : Placed r su k s)
include hm h

theorem Placed.mem_paths {path : TaskPath} : path ∈ s.paths ↔
    path ∈ su.plan.sorted ∧ ∃ n, r.LongestChain path n ∧ n < k := by
  rw [h.paths.mem_iff, hm.mem_flatten_take]

theorem Placed.planned {path : TaskPath} (hp : path ∈ s.paths) : path ∈ su.plan.sorted :=
  ((h.mem_paths hm).mp hp).1

theorem Placed.mem_sorted {path : TaskPath} {queue : List TaskPath} (hq : s.queue = path :: queue) :
    path ∈ su.plan.sorted := by
  refine h.planned hm ?_
  rw [Schedule.paths, hq]
  simp

/-- What is of an earlier wave than a task that is at work or next was reported. -/
theorem Placed.reported (hw : s.inWave = true) {path other : TaskPath} {m n : Nat}
    (hp : path ∈ s.workers.map (·.run.path) ++ s.queue) (hn : r.LongestChain path n)
    (ho : other ∈ su.plan.sorted) (hmo : r.LongestChain other m) (hlt : m < n) :
    other ∈ s.reports.map (·.path) := by
  obtain ⟨n', hn', rfl⟩ := h.wave hw path hp
  obtain rfl : n' = n := hn'.unique hn
  have hin := (h.mem_paths hm).mpr ⟨ho, m, hmo, by omega⟩
  rcases List.mem_append.mp hin with hin | hin
  · exact hin
  · -- what is at work or next is of the present wave
    obtain ⟨m', hm', he⟩ := h.wave hw other hin
    obtain rfl : m' = m := hm'.unique hmo
    omega

/-- No task is handed over twice. -/
theorem Placed.nodup_handed : (s.handed.map (·.path)).Nodup :=
  (List.nodup_append.mp (h.order.nodup hm.taken.nodup)).1

/-- The next task was not handed over before, so its run is a new one. -/
theorem Placed.handsNew (t : Schedule ε) : HandsNew su s t := by
  intro path queue task hq hr _ hs
  have hpath : (newRun su s task).path = path := Registry.path_of_get? hr
  have hmem : path ∈ s.handed.map (·.path) := hpath ▸ List.mem_map_of_mem (mem_handed.mpr hs)
  have hnext : path ∈ s.queue ++ s.waves.flatten := by simp [hq]
  exact (List.nodup_append.mp (h.order.nodup hm.taken.nodup)).2.2 _ hmem _ hnext rfl

end Made

/-! ## 3. The invariant is kept -/

/-- Nothing that the invariant reads has changed. -/
theorem Placed.congr {t : Schedule ε} (h : Placed r su k s) (hwaves : t.waves = s.waves)
    (hin : t.inWave = s.inWave) (hq : t.queue = s.queue)
    (hw : t.workers.map (·.run.path) = s.workers.map (·.run.path))
    (hr : t.reports.map (·.path) = s.reports.map (·.path)) (hh : t.handed = s.handed) :
    Placed r su k t where
  waves := hwaves.trans h.waves
  paths := by
    rw [Schedule.paths, hr, hw, hq]
    exact h.paths
  wave := by
    rw [hin, hw, hq]
    exact h.wave
  order := by
    rw [hh, hq, hwaves]
    exact h.order

theorem Placed.leaveOut (h : Placed r su k s) {path : TaskPath} {queue : List TaskPath}
    (hq : s.queue = path :: queue) : Placed r su k (Schedule.leaveOut { s with queue } path) where
  waves := h.waves
  paths := by
    refine List.Perm.trans ?_ h.paths
    simp only [Schedule.paths, Schedule.leaveOut, hq, List.map_append, List.map_singleton,
      List.append_assoc, List.singleton_append]
    exact List.Perm.append_left _ List.perm_middle.symm
  wave := by
    intro hw other hp
    refine h.wave hw other ?_
    rw [hq]
    rcases List.mem_append.mp hp with hp | hp
    · exact List.mem_append_left _ hp
    · exact List.mem_append_right _ (List.mem_cons_of_mem _ hp)
  order := by
    refine List.Sublist.trans ?_ h.order
    rw [hq]
    exact .append_left (.append_right (List.sublist_cons_self path queue) _) _

theorem Placed.handOver (h : Placed r su k s) {path : TaskPath} {queue : List TaskPath}
    {task : TaskDefinition} (hq : s.queue = path :: queue)
    (hr : su.registry.get? path = some task) :
    Placed r su k ((ask su { s with queue }).handOver su task) := by
  obtain rfl : task.path = path := Registry.path_of_get? hr
  have hnext : ((ask su { s with queue }).handOver su task).workers.map (·.run.path) ++ queue =
      s.workers.map (·.run.path) ++ s.queue := by
    simp [Schedule.handOver, ask, hq]
  have hhanded : ((ask su { s with queue }).handOver su task).handed.map (·.path) =
      s.handed.map (·.path) ++ [task.path] := by
    rw [handed_of_trace (List.append_assoc _ _ _), List.map_append]
    rfl
  refine ⟨h.waves, ?_, fun hw => ?_, ?_⟩
  · have he : ((ask su { s with queue }).handOver su task).paths = s.paths :=
      congrArg (s.reports.map (·.path) ++ ·) hnext
    exact he ▸ h.paths
  · exact fun other hm => h.wave hw other (hnext ▸ hm)
  · have ho := h.order
    rw [hq] at ho
    rw [hhanded, List.append_assoc]
    exact ho

/-- What a worker that is done reports is about its task. -/
theorem Tracks.path {run : TaskRun} {report : TaskReport} (h : Tracks su s run (.done report)) :
    report.path = run.path := by
  obtain ⟨task, -, -, hp⟩ := h.task
  exact (Script.path_ofTask hp).1

theorem Placed.endWave (h : Placed r su k s) (hf : Followed su s) (hq : s.queue = [])
    (hn : s.running = 0) : Placed r su k (s.endWave su) := by
  have hreports : (s.workers.filterMap (·.script.report?)).map (·.path) =
      s.workers.map (·.run.path) := map_filterMap_eq_map fun w hw => by
    obtain ⟨report, hr⟩ := done_of_running hn hw
    exact ⟨report, by rw [hr]; rfl, (hr ▸ hf.working w hw).path⟩
  refine ⟨?_, ?_, ?_, ?_⟩
  · rw [endWave_eq]
    exact h.waves
  · have he : s.reports.map (·.path) ++ s.workers.map (·.run.path) = s.paths := by
      rw [Schedule.paths, hq, List.append_nil]
    rw [endWave_eq]
    simp only [Schedule.paths, List.map_append, hreports, List.map_nil, hq, List.append_nil]
    exact he ▸ h.paths
  · rw [endWave_eq]
    exact fun hf => nomatch hf
  · rw [handed_endWave, endWave_eq]
    exact h.order

/-- The wave after those that were begun or passed over. -/
theorem Placed.next (h : Placed r su k s) (hset : s.workers = [] ∧ s.queue = [])
    {wave : List TaskPath} {waves : List (List TaskPath)} (hv : s.waves = wave :: waves) :
    su.plan.waves[k]? = some wave ∧ waves = su.plan.waves.drop (k + 1) ∧
      (s.reports.map (·.path) ++ wave).Perm (su.plan.waves.take (k + 1)).flatten := by
  have hd : su.plan.waves.drop k = wave :: waves := h.waves.symm.trans hv
  have hk : su.plan.waves[k]? = some wave := by rw [← List.head?_drop, hd, List.head?_cons]
  refine ⟨hk, by rw [← List.tail_drop, hd, List.tail_cons], ?_⟩
  have hp : s.paths = s.reports.map (·.path) := by
    simp [Schedule.paths, hset.1, hset.2]
  rw [List.take_add_one, hk, Option.toList_some, List.flatten_append, List.flatten_singleton, ← hp]
  exact h.paths.append_right wave

theorem Placed.passOver (h : Placed r su k s) (hset : s.workers = [] ∧ s.queue = [])
    {wave : List TaskPath} {waves : List (List TaskPath)} (hw : s.inWave = false)
    (hv : s.waves = wave :: waves) :
    Placed r su (k + 1)
      { s with waves, queue := [], reports := s.reports ++ wave.map .notRun } := by
  obtain ⟨-, hd, hp⟩ := h.next hset hv
  have hmap : (wave.map TaskReport.notRun).map (·.path) = wave := by
    rw [List.map_map]
    exact List.map_id _
  refine ⟨hd, ?_, ?_, ?_⟩
  · simp only [Schedule.paths, List.map_append, hmap, hset.1, List.map_nil, List.append_nil]
    exact hp
  · exact fun hf => absurd (hw.symm.trans hf) (by simp)
  · refine List.Sublist.trans ?_ h.order
    rw [hset.2, hv, List.flatten_cons]
    exact .append_left (List.sublist_append_right _ _) _

theorem Placed.beginWave (hm : Plan.Made r targets nodes su.plan) (h : Placed r su k s)
    (hset : s.workers = [] ∧ s.queue = []) {wave : List TaskPath} {waves : List (List TaskPath)}
    (hv : s.waves = wave :: waves) :
    Placed r su (k + 1) { s with waves, inWave := true, queue := wave } := by
  obtain ⟨hk, hd, hp⟩ := h.next hset hv
  refine ⟨hd, ?_, fun _ path hmem => ?_, ?_⟩
  · simp only [Schedule.paths, hset.1, List.map_nil, List.nil_append]
    exact hp
  · have hmem : path ∈ wave := by simpa [hset.1] using hmem
    exact ⟨k, (hm.mem_wave.mp ⟨wave, hk, hmem⟩).2, rfl⟩
  · have ho := h.order
    rw [hset.2, hv, List.flatten_cons] at ho
    exact ho

/-- A worker's own signs are none of tasks that are handed over. -/
theorem Followed.handed_worker {t : Schedule ε} (hf : Followed su s) {i : Nat} {w w' : Worker ε}
    {signs : List (Sign ε)} (hm : WorkerMove su s t i w w' signs) : t.handed = s.handed := by
  rw [handed_of_trace hm.trace, List.filterMap_eq_nil_iff.mpr, List.append_nil]
  intro sign hs
  have hw := hf.shown hm sign hs
  cases sign with
  | handed run => exact nomatch hw
  | _ => rfl

theorem Placed.worker {t : Schedule ε} (h : Placed r su k s) (hf : Followed su s) {i : Nat}
    {w w' : Worker ε} {signs : List (Sign ε)} (hm : WorkerMove su s t i w w' signs) :
    Placed r su k t := by
  have hpaths := congrArg (List.map (·.path)) hm.runs
  simp only [List.map_map] at hpaths
  have heq := hm.eq
  exact h.congr (by rw [heq]) (by rw [heq]) (by rw [heq]) hpaths (by rw [heq])
    (hf.handed_worker hm)

/-- **A move keeps the invariant**: it is in the same wave, or the next. -/
theorem Placed.move (hm : Plan.Made r targets nodes su.plan) {t : Schedule ε}
    (h : Placed r su k s) (hset : s.Settled) (hf : Followed su s) (hmove : Move su s t) :
    ∃ k, Placed r su k t := by
  cases hmove with
  | scheduler hmove =>
    cases hmove with
    | leaveOut hw hq why => exact ⟨k, h.leaveOut hq⟩
    | observe hw hq hp =>
      exact ⟨k, (h.leaveOut hq).congr rfl rfl rfl rfl rfl (handed_ask su _)⟩
    | handOver hw hq hr => exact ⟨k, h.handOver hq hr⟩
    | endWave hw hq hn => exact ⟨k, h.endWave hf hq hn⟩
    | passOver hw hv ho => exact ⟨k + 1, h.passOver (hset hw) hw hv⟩
    | beginWave hw hv ho => exact ⟨k + 1, h.beginWave hm (hset hw) hv⟩
  | worker hmove => exact ⟨k, h.worker hf hmove⟩
  | request hmove =>
    rw [hmove]
    exact ⟨k, h.congr rfl rfl rfl rfl rfl rfl⟩

/-! ## 4. Runs -/

/-- What holds of every state of a schedule whose plan could be made. -/
structure OnCourse (r : Registry) (su : ScheduleSetup ε) (s : Schedule ε) : Prop where
  settled : s.Settled
  followed : Followed su s
  placed : ∃ k, Placed r su k s

theorem OnCourse.move (hm : Plan.Made r targets nodes su.plan) {t : Schedule ε}
    (h : OnCourse r su s) (hmove : Move su s t) : OnCourse r su t := by
  obtain ⟨k, hk⟩ := h.placed
  exact ⟨settled_move h.settled hmove, h.followed.move hmove (hk.handsNew hm t),
    hk.move hm h.settled h.followed hmove⟩

theorem onCourse_start (hm : Plan.Made r targets nodes su.plan) (generator : Generator)
    (requested : Bool) : OnCourse r su (start su generator requested) where
  settled := fun _ => ⟨rfl, rfl⟩
  followed := followed_start generator requested
  placed := ⟨0, placed_start hm generator requested⟩

/-- **The invariant of a run** of a plan that could be made. -/
theorem onCourse_run (hm : Plan.Made r targets nodes su.plan) (generator : Generator)
    (requested : Bool) (choices : List Choice) :
    OnCourse r su ((start su generator requested).run su choices) :=
  run_induction (onCourse_start hm generator requested) (fun _ _ h hmove => h.move hm hmove) choices

/-- What every move of a state on its course keeps, a run keeps. -/
theorem run_induction_onCourse (hm : Plan.Made r targets nodes su.plan) {P : Schedule ε → Prop}
    {generator : Generator} {requested : Bool} (h0 : P (start su generator requested))
    (hstep : ∀ s t, OnCourse r su s → P s → Move su s t → P t) (choices : List Choice) :
    P ((start su generator requested).run su choices) :=
  (run_induction (P := fun s => OnCourse r su s ∧ P s) ⟨onCourse_start hm generator requested, h0⟩
    (fun s t ⟨hs, hp⟩ hmove => ⟨hs.move hm hmove, hstep s t hs hp hmove⟩) choices).2

/-! ## 5. At the end -/

section Finished

variable (hm : Plan.Made r targets nodes su.plan) (h : OnCourse r su s) (hf : s.isFinished = true)
include hm h hf

/-- At the end every planned task was reported once. -/
theorem OnCourse.reports_perm : (s.reports.map (·.path)).Perm su.plan.sorted := by
  simp only [isFinished, Bool.and_eq_true, List.isEmpty_iff, Bool.not_eq_true'] at hf
  obtain ⟨hworkers, hqueue⟩ := h.settled hf.2
  obtain ⟨k, hk⟩ := h.placed
  have hall : su.plan.waves.take k = su.plan.waves :=
    List.take_of_length_le (List.drop_eq_nil_iff.mp (hk.waves.symm.trans hf.1))
  have hp := hk.paths
  rwa [hall, hm.flatten_waves, Schedule.paths, hworkers, hqueue, List.map_nil, List.append_nil,
    List.append_nil] at hp

/-- A report is found by its path. -/
theorem OnCourse.find?_reports {report : TaskReport} (hr : report ∈ s.reports) :
    (s.reports.find? fun other => other.path == report.path) = some report :=
  find?_of_mem ((h.reports_perm hm hf).nodup_iff.mpr hm.taken.nodup) hr

/-- The reports in the order of the plan are one for each planned task... -/
theorem OnCourse.map_path_orderedReports :
    (s.orderedReports su).map (·.path) = su.plan.sorted := by
  rw [orderedReports, map_filterMap_eq_map (p := id), List.map_id]
  intro path hp
  obtain ⟨report, hr, rfl⟩ := List.mem_map.mp ((h.reports_perm hm hf).mem_iff.mpr hp)
  exact ⟨report, h.find?_reports hm hf hr, rfl⟩

/-- ...and all that there are. -/
theorem OnCourse.mem_orderedReports {report : TaskReport} :
    report ∈ s.orderedReports su ↔ report ∈ s.reports := by
  rw [orderedReports, List.mem_filterMap]
  constructor
  · rintro ⟨path, -, hr⟩
    exact List.mem_of_find?_eq_some hr
  · intro hr
    have hp := (h.reports_perm hm hf).mem_iff.mp (List.mem_map_of_mem hr)
    exact ⟨report.path, hp, h.find?_reports hm hf hr⟩

end Finished

end Schedule

end BuildStream
