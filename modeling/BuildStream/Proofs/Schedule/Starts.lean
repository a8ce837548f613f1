/-
# When a task starts

A task starts when the hook before it is called.  This module says when that can be, in every state
that a schedule of a plan can come to, whoever took the steps (`starts_run`).

* **After its dependencies.**  A task is handed over only if all that it depends on was reported
  with success.  What was not is among the tasks that block others (`Guarded.blocked`), and the
  scheduler looks there before it hands over a task.  Since a report with success is made after the
  hook that follows the task (`Tracks.succeeded`), that hook was called before.
* **Within the permits.**  A task that has started and was not reported has a worker that is not
  done, and there are never more of these than permits (`running_le_permits`).
* **One after the other**, if there is one permit.  Then only the last task that was handed over can
  have a worker that is not done (`InTurn`), so hooks of different tasks do not mix.

The plan may be that of any registry, as in `Waves`.
-/
import BuildStream.Proofs.Schedule.Hooks

namespace BuildStream

open Relation

/-- A task of a path was run to its end without a failure. -/
def Sign.Succeeded {ε : Type} (signs : List (Sign ε)) (path : TaskPath) : Prop :=
  ∃ run state, run.path = path ∧ .called (.afterTask run state) ∈ signs ∧ state.isFailed = false

namespace Schedule

variable {ε : Type} {su : ScheduleSetup ε} {r : Registry} {s t : Schedule ε}

/-- The reports that were made, those of the present wave included. -/
def made (s : Schedule ε) : List TaskReport :=
  s.reports ++ s.workers.filterMap (·.script.report?)

/-- The runs of the tasks that have started and were not reported. -/
def underway (s : Schedule ε) : List TaskRun :=
  s.begun.filter fun run => !s.made.any fun report => report.path == run.path

/-- A task was reported with success. -/
def HasSucceeded (s : Schedule ε) (path : TaskPath) : Prop :=
  ∃ report ∈ s.reports, report.path = path ∧ report.status.isSuccess = true

theorem HasSucceeded.move (h : Move su s t) {path : TaskPath} (hs : s.HasSucceeded path) :
    t.HasSucceeded path := by
  obtain ⟨more, hr⟩ := h.reports
  obtain ⟨report, hm, hp⟩ := hs
  exact ⟨report, hr ▸ List.mem_append_left _ hm, hp⟩

/-! ## 1. What a task depends on -/

/-- What the tasks that block others are for: in a wave, and as long as there may be another, no
task that was not a success is missing; and a task was handed over only after all that it depends
on was reported with success. -/
structure Guarded (r : Registry) (su : ScheduleSetup ε) (s : Schedule ε) : Prop where
  blocked : s.inWave = true ∨ s.isOver su = false →
    ∀ report ∈ s.reports, report.status.isSuccess = false → report.path ∈ s.blocked
  ready : ∀ run, .handed run ∈ s.trace → ∀ d, r.DependsOn run.path d → s.HasSucceeded d

theorem guarded_start (g : Generator) (requested : Bool) :
    Guarded r su (start su g requested) where
  blocked := by simp [start]
  ready := by simp [start]

theorem Guarded.leaveOut (h : Guarded r su s) (hw : s.inWave = true) (path : TaskPath) :
    ∀ report ∈ s.reports ++ [.notRun path], report.status.isSuccess = false →
      report.path ∈ s.blocked ++ [path] := by
  intro report hr hs
  rcases List.mem_append.mp hr with hr | hr
  · exact List.mem_append_left _ (h.blocked (.inl hw) report hr hs)
  · rw [List.mem_singleton.mp hr]
    exact List.mem_append_right _ (List.mem_singleton_self path)

theorem Guarded.endWave (h : Guarded r su s) (hf : Followed su s) (hw : s.inWave = true)
    (hn : s.running = 0) : ∀ report ∈ (s.endWave su).reports, report.status.isSuccess = false →
      report.path ∈ (s.endWave su).blocked := by
  intro report hr hs
  rw [mem_blocked_endWave]
  rcases mem_reports_endWave.mp hr with hr | ⟨w, hm, he⟩
  · exact .inl (h.blocked (.inl hw) report hr hs)
  · obtain ⟨other, ho⟩ := done_of_running hn hm
    obtain rfl : other = report := by rw [ho] at he; exact Option.some.inj he
    have hpath : other.path = w.run.path := Tracks.path (ho ▸ hf.working w hm)
    exact .inr ⟨w, hm, by simp [Worker.hasFailed, he, hs], hpath.symm⟩

theorem Guarded.blocked_move (h : Guarded r su s) (hf : Followed su s) (hm : Move su s t)
    (ht : t.inWave = true ∨ t.isOver su = false) :
    ∀ report ∈ t.reports, report.status.isSuccess = false → report.path ∈ t.blocked := by
  cases hm with
  | scheduler hm =>
    cases hm with
    | leaveOut hw hq why => exact h.leaveOut hw _
    | observe hw hq hp => exact h.leaveOut hw _
    | handOver hw hq hr => exact h.blocked (.inl hw)
    | endWave hw hq hn => exact h.endWave hf hw hn
    | passOver hw hv ho =>
      rcases ht with ht | ht
      · exact nomatch hw.symm.trans ht
      · exact nomatch ho.symm.trans ht
    | beginWave hw hv ho => exact h.blocked (.inr ho)
  | worker hm =>
    rw [hm.eq] at ht ⊢
    exact h.blocked ht
  | request hm =>
    rw [hm] at ht ⊢
    exact h.blocked ht

variable {targets : List String} {nodes : List PlanNode}

/-- **All that the next task depends on was reported with success**, if its turn has come. -/
theorem Guarded.ready_of_handsOver (hm : Plan.Made r targets nodes su.plan) {k : Nat}
    (hk : Placed r su k s) (h : Guarded r su s) {run : TaskRun} (ho : HandsOver su s run)
    {d : TaskPath} (hd : r.DependsOn run.path d) : s.HasSucceeded d := by
  obtain ⟨queue, hq⟩ := ho.next
  have hp : run.path ∈ su.plan.sorted := hk.mem_sorted hm hq
  have hdp := hm.mem_of_dependsOn hp hd
  obtain ⟨m, hlm⟩ := hm.exists_longest hdp
  have hnext : run.path ∈ s.workers.map (·.run.path) ++ s.queue := by simp [hq]
  obtain ⟨n, hn, -⟩ := hk.wave ho.inWave _ hnext
  obtain ⟨report, hr, rfl⟩ := List.mem_map.mp
    (hk.reported hm ho.inWave hnext hn hdp hlm (hn.lt_of_dependsOn hd hlm))
  refine ⟨report, hr, rfl, ?_⟩
  by_contra hs
  -- then it would block the task
  have hb := h.blocked (.inl ho.inWave) report hr (Bool.eq_false_iff.mpr hs)
  refine Bool.eq_false_iff.mp ho.free (List.any_eq_true.mpr ⟨report.path, ?_, by simpa using hb⟩)
  exact (hm.mem_dependencies hp).mpr hd

theorem Guarded.move (hm : Plan.Made r targets nodes su.plan) (hs : OnCourse r su s)
    (h : Guarded r su s) (hmove : Move su s t) : Guarded r su t := by
  refine ⟨h.blocked_move hs.followed hmove, fun run hr d hd => ?_⟩
  obtain ⟨k, hk⟩ := hs.placed
  refine HasSucceeded.move hmove ?_
  rcases hs.followed.handed_cases hmove hr with hr | ho
  · exact h.ready run hr d hd
  · exact h.ready_of_handsOver hm hk ho hd

/-- A report with success is made after the hook that follows the task. -/
theorem Tracks.succeeded {run : TaskRun} {report : TaskReport}
    (h : Tracks su s run (.done report)) (hs : report.status.isSuccess = true) :
    ∃ state, .called (.afterTask run state) ∈ s.trace ∧ state.isFailed = false := by
  obtain ⟨-, -, task, result, -, -, hv, hlast⟩ := h.ended
  have hresult : result.isFailed = false := by
    have hsuccess : (!result.isFailed) = true := by
      rw [← (ActionResult.status_verdict run.path (su.lost run.path) result).1, ← hv]
      exact hs
    simpa using hsuccess
  obtain ⟨began, ended, hc⟩ := hlast (by rintro rfl; exact nomatch hresult)
  exact ⟨_, hc, (RunState.isFailed_ofResult began ended result).trans hresult⟩

/-- A success was a run. -/
theorem Followed.run_of_hasSucceeded (h : Followed su s) {path : TaskPath}
    (hs : s.HasSucceeded path) : ∃ run report, run.path = path ∧
      report.status.isSuccess = true ∧ Tracks su s run (.done report) := by
  obtain ⟨report, hr, rfl, hsuccess⟩ := hs
  rcases h.reported report hr with ⟨run, hg⟩ | hn
  · exact ⟨run, report, hg.tracks.path.symm, hsuccess, hg.tracks⟩
  · rw [hn] at hsuccess
    exact nomatch hsuccess

theorem Followed.succeeded (h : Followed su s) {path : TaskPath} (hs : s.HasSucceeded path) :
    Sign.Succeeded s.trace path := by
  obtain ⟨run, report, hp, hsuccess, ht⟩ := h.run_of_hasSucceeded hs
  obtain ⟨state, hc, hstate⟩ := ht.succeeded hsuccess
  exact ⟨run, state, hp, hc, hstate⟩

/-- Along any number of edges: what a task that was handed over depends on was a success. -/
theorem Guarded.hasSucceeded (h : Guarded r su s) (hf : Followed su s) {run : TaskRun}
    (hr : .handed run ∈ s.trace) {d : TaskPath} (hd : TransGen r.DependsOn run.path d) :
    s.HasSucceeded d := by
  induction hd with
  | single hd => exact h.ready run hr _ hd
  | tail _ hd ih =>
    obtain ⟨other, report, rfl, -, ht⟩ := hf.run_of_hasSucceeded ih
    exact h.ready other ht.handed _ hd

/-- Wherever a task starts, what it depends on has come to its end before. -/
def StartsReady (r : Registry) (s : Schedule ε) : Prop :=
  ∀ before run after, s.trace = before ++ .called (.beforeTask run) :: after →
    ∀ d, TransGen r.DependsOn run.path d → Sign.Succeeded before d

theorem StartsReady.move (hf : Followed su s) (hg : Guarded r su s) (h : StartsReady r s)
    (hm : Move su s t) : StartsReady r t := by
  intro before run after ht d hd
  obtain ⟨signs, htrace, hshown⟩ := hf.signs_move hm
  rcases split_append (htrace.symm.trans ht) with ⟨rest, hs, -⟩ | ⟨more, rfl, rfl⟩
  · exact h before run rest hs d hd
  · have hr : .handed run ∈ s.trace := hshown (.called (.beforeTask run)) (by simp) run rfl
    obtain ⟨other, state, hp, hc, hstate⟩ := hf.succeeded (hg.hasSucceeded hf hr hd)
    exact ⟨other, state, hp, List.mem_append_left _ hc, hstate⟩

/-! ## 2. Permits -/

theorem running_handOver (su : ScheduleSetup ε) (s : Schedule ε) (task : TaskDefinition) :
    (s.handOver su task).running ≤ s.running + 1 := by
  simp only [running, handOver_eq, List.filter_append, List.length_append]
  exact Nat.add_le_add_left (List.length_filter_le _ _) _

/-- **Nobody works without a permit.** -/
theorem running_le_move (h : s.running ≤ su.options.permits) (hm : Move su s t) :
    t.running ≤ su.options.permits := by
  cases hm with
  | scheduler hm =>
    cases hm with
    | leaveOut => exact h
    | observe => exact h
    | @handOver path queue task hw hq hr hf hc hn hp =>
      exact Nat.le_trans (running_handOver su (ask su { s with queue }) task) hn
    | endWave =>
      rw [running, workers_endWave]
      exact Nat.zero_le _
    | passOver => exact h
    | beginWave => exact h
  | worker hm => exact Nat.le_trans hm.running_le h
  | request hm =>
    rw [hm]
    exact h

theorem running_le_permits (su : ScheduleSetup ε) (g : Generator) (requested : Bool)
    (choices : List Choice) :
    ((start su g requested).run su choices).running ≤ su.options.permits :=
  run_induction (P := fun s => s.running ≤ su.options.permits) (Nat.zero_le _)
    (fun _ _ => running_le_move) choices

/-- What is underway has a worker that is not done. -/
theorem Followed.worker_of_underway (h : Followed su s) {run : TaskRun} (hu : run ∈ s.underway) :
    ∃ w ∈ s.workers, w.script.isDone = false ∧ w.run = run := by
  obtain ⟨hb, hn⟩ := List.mem_filter.mp hu
  have hmade : ∀ report ∈ s.made, report.path ≠ run.path := by simpa using hn
  rcases h.ended run (h.handed_of_begun hb) with hm | ⟨report, hm, hg⟩
  · obtain ⟨w, hw, rfl⟩ := List.mem_map.mp hm
    refine ⟨w, hw, Bool.eq_false_iff.mpr fun hd => ?_, rfl⟩
    obtain ⟨report, hr⟩ := Option.isSome_iff_exists.mp hd
    have hs : w.script = .done report := by
      cases hscript : w.script <;> simp_all [Script.report?]
    refine hmade report (List.mem_append_right _ (List.mem_filterMap.mpr ⟨w, hw, hr⟩)) ?_
    exact (hs ▸ h.working w hw).path
  · exact absurd hg.tracks.path (hmade report (List.mem_append_left _ hm))

theorem Followed.underway_le (h : Followed su s) : s.underway.length ≤ s.running := by
  have hsub : s.underway ⊆ (s.workers.filter fun w => !w.script.isDone).map (·.run) := by
    intro run hu
    obtain ⟨w, hw, hd, rfl⟩ := h.worker_of_underway hu
    exact List.mem_map_of_mem (List.mem_filter.mpr ⟨hw, by simp [hd]⟩)
  have hle := (List.subperm_of_subset (h.nodup_begun.filter _) hsub).length_le
  rwa [List.length_map] at hle

/-! ## 3. One after the other -/

/-- Hooks of different tasks do not mix: only the last task that was handed over can have a worker
that is not done, and the hooks are those of one task after the other. -/
structure InTurn (s : Schedule ε) : Prop where
  last : ∀ w ∈ s.workers, w.script.isDone = false → s.handed.getLast? = some w.run
  grouped : s.hooks = s.handed.flatMap s.hooksOf

theorem hooksOf_congr (h : t.hooks = s.hooks) : t.hooksOf = s.hooksOf := by
  funext run
  rw [hooksOf, hooksOf, h]

/-- Nothing that the invariant reads has changed. -/
theorem InTurn.congr (h : InTurn s) (hw : t.workers = s.workers) (hh : t.handed = s.handed)
    (hk : t.hooks = s.hooks) : InTurn t where
  last := by
    rw [hw, hh]
    exact h.last
  grouped := by
    rw [hk, hh, hooksOf_congr hk]
    exact h.grouped

theorem inTurn_start (g : Generator) (requested : Bool) : InTurn (start su g requested) where
  last := by simp [start]
  grouped := rfl

theorem InTurn.handOver (h : InTurn s) (hf : Followed su s) (hd : s.running = 0)
    {task : TaskDefinition} (hn : .handed (newRun su s task) ∉ s.trace) :
    InTurn (s.handOver su task) := by
  have hhooks : (s.handOver su task).hooks = s.hooks := by
    rw [hooks, trace_handOver, Sign.hooks_append]
    exact List.append_nil _
  have hhanded : (s.handOver su task).handed = s.handed ++ [newRun su s task] :=
    handed_of_trace (trace_handOver su s task)
  refine ⟨fun w hw hdone => ?_, ?_⟩
  · rw [hhanded, List.getLast?_concat]
    rcases List.mem_append.mp hw with hw | hw
    · -- those that were there are all done
      obtain ⟨report, hr⟩ := done_of_running hd hw
      rw [hr] at hdone
      cases hdone
    · rw [List.mem_singleton.mp hw]
      rfl
  · have hnew : s.hooksOf (newRun su s task) = [] := by
      rw [hooksOf_eq, hf.own_eq_nil hn]
      rfl
    rw [hhooks, hhanded, hooksOf_congr hhooks, List.flatMap_append, List.flatMap_singleton, hnew,
      List.append_nil]
    exact h.grouped

section Worker

variable {i : Nat} {w w' : Worker ε} {signs : List (Sign ε)}

/-- The last task that was handed over is still the only one whose worker is not done. -/
theorem InTurn.last_worker (h : InTurn s) (hf : Followed su s)
    (hm : WorkerMove su s t i w w' signs) :
    ∀ x ∈ t.workers, x.script.isDone = false → t.handed.getLast? = some x.run := by
  intro x hx hdone
  rw [hf.handed_worker hm]
  rcases hm.mem_workers hf.distinct hx with rfl | ⟨hx, -⟩
  · rw [hm.run]
    refine h.last w (List.mem_of_getElem? hm.here) (Bool.eq_false_iff.mpr fun hw => ?_)
    exact Bool.eq_false_iff.mp hdone (hm.of_done hw).2
  · exact h.last x hx hdone

theorem InTurn.worker (h : InTurn s) (hf : Followed su s) (hd : s.handed.Nodup)
    (hm : WorkerMove su s t i w w' signs) : InTurn t := by
  refine ⟨h.last_worker hf hm, ?_⟩
  rw [hf.handed_worker hm]
  cases hw : w.script.isDone with
  | true =>
    have hnone : t.hooks = s.hooks := by
      rw [hm.hooks, (hm.of_done hw).1, Sign.hooks_nil, List.append_nil]
    rw [hnone, hooksOf_congr hnone]
    exact h.grouped
  | false =>
    -- the worker has the last task that was handed over
    have hlast := h.last w (List.mem_of_getElem? hm.here) hw
    obtain ⟨earlier, he⟩ := List.getLast?_eq_some_iff.mp hlast
    have hothers : ∀ run ∈ earlier, t.hooksOf run = s.hooksOf run := by
      intro run hr
      refine hf.hooksOf_worker_of_ne hm fun hrun => ?_
      rw [he] at hd
      exact (List.nodup_append.mp hd).2.2 run hr w.run (by simp) hrun
    have hgrouped := h.grouped
    rw [he, List.flatMap_append, List.flatMap_singleton] at hgrouped ⊢
    rw [hm.hooks, hf.hooksOf_worker hm, List.flatMap_congr hothers, hgrouped, List.append_assoc]

end Worker

theorem InTurn.move (h : InTurn s) (hone : su.options.permits = 1) (hf : Followed su s)
    (hd : s.handed.Nodup) (hm : Move su s t) (hnew : HandsNew su s t) : InTurn t := by
  cases hm with
  | scheduler hm =>
    cases hm with
    | leaveOut => exact h.congr rfl rfl rfl
    | observe hw hq hp => exact h.congr rfl (handed_ask su _) (hooks_ask su _)
    | @handOver path queue task hw hq hr hfree hc hn hp =>
      have ha : InTurn (ask su { s with queue }) :=
        h.congr rfl (handed_ask su { s with queue }) (hooks_ask su { s with queue })
      rw [hone, Nat.lt_one_iff] at hn
      exact ha.handOver (hf.ask_queue queue) hn (hnew.notMem_ask hq hr)
    | endWave hw hq hn =>
      refine ⟨(fun w hw => nomatch hw), ?_⟩
      rw [hooks_endWave, handed_endWave, hooksOf_congr (hooks_endWave su s)]
      exact h.grouped
    | passOver => exact h.congr rfl rfl rfl
    | beginWave => exact h.congr rfl rfl rfl
  | worker hm => exact h.worker hf hd hm
  | request hm => exact h.congr (by rw [hm]) (by rw [hm]; rfl) (by rw [hm]; rfl)

/-- Members for which there is nothing can be left out. -/
theorem flatMap_filter_of_eq_nil {α β : Type} {f : α → List β} {p : α → Bool} {l : List α}
    (h : ∀ a ∈ l, p a = false → f a = []) : (l.filter p).flatMap f = l.flatMap f := by
  induction l with
  | nil => rfl
  | cons a l ih =>
    have hl := ih fun b hb => h b (List.mem_cons_of_mem _ hb)
    cases hp : p a with
    | true => rw [List.filter_cons_of_pos hp, List.flatMap_cons, List.flatMap_cons, hl]
    | false =>
      rw [List.filter_cons_of_neg (by simp [hp]), hl, List.flatMap_cons, h a (by simp) hp,
        List.nil_append]

theorem flatMap_ite_singleton {α : Type} (p : α → Bool) (l : List α) :
    (l.flatMap fun a => if p a then [] else [a]) = l.filter fun a => !p a := by
  induction l with
  | nil => rfl
  | cons a l ih => cases hp : p a <;> simp [hp, ih]

/-- The tasks that have started are among those that were handed over, in their order. -/
theorem InTurn.begun_eq (h : InTurn s) (hf : Followed su s) :
    s.begun = s.handed.filter fun run => !(s.hooksOf run).isEmpty := by
  rw [begun, h.grouped, List.filterMap_flatMap, ← flatMap_ite_singleton]
  exact List.flatMap_congr fun run hr => hf.filterMap_hooksOf (mem_handed.mp hr)

theorem InTurn.hooks_eq (h : InTurn s) (hf : Followed su s) :
    s.hooks = s.begun.flatMap s.hooksOf := by
  rw [h.begun_eq hf, flatMap_filter_of_eq_nil, ← h.grouped]
  intro run _ he
  simpa using he

theorem inTurn_run (hm : Plan.Made r targets nodes su.plan) (hone : su.options.permits = 1)
    (g : Generator) (requested : Bool) (choices : List Choice) :
    InTurn ((start su g requested).run su choices) := by
  refine run_induction_onCourse hm (inTurn_start g requested) (fun s t hs h hmove => ?_) choices
  obtain ⟨k, hk⟩ := hs.placed
  exact h.move hone hs.followed ((hk.nodup_handed hm).of_map _) hmove (hk.handsNew hm t)

/-! ## 4. Every state -/

/-- **When tasks start**, in every state of a schedule.

No task starts twice, and none before all that it depends on, directly or not, was run to its end
without a failure and reported with success.  No more tasks are underway than permits allow.  With
one permit the tasks start in the order of the plan, and all hooks of one are called before those of
the next. -/
theorem starts_run {targets : List String} {plan : Plan}
    (hplan : Plan.ofTargets r targets = .ok plan) (su : ScheduleSetup ε) (hsu : su.plan = plan)
    (g : Generator) (requested : Bool) (choices : List Choice) :
    let s := (start su g requested).run su choices
    (s.begun.map (·.path)).Nodup ∧
    (∀ before run after, s.trace = before ++ .called (.beforeTask run) :: after →
      ∀ d, TransGen r.DependsOn run.path d → Sign.Succeeded before d ∧ s.HasSucceeded d) ∧
    s.underway.length ≤ max 1 su.options.concurrency ∧
    (su.options.concurrency ≤ 1 → (s.begun.map (·.path)).Sublist plan.sorted ∧
      s.hooks = s.begun.flatMap s.hooksOf) := by
  obtain ⟨nodes, hm⟩ := Plan.exists_made hplan
  rw [← hsu] at hm ⊢
  intro s
  have hs : OnCourse r su s := onCourse_run hm g requested choices
  have hg : Guarded r su s := run_induction_onCourse hm (guarded_start g requested)
    (fun _ _ hs hg hmove => hg.move hm hs hmove) choices
  have hready : StartsReady r s := (run_induction_onCourse
    (P := fun s => Guarded r su s ∧ StartsReady r s) hm
    ⟨guarded_start g requested, fun before run after ht => by simp [start] at ht⟩
    (fun _ _ hs ⟨hg, h⟩ hmove => ⟨hg.move hm hs hmove, h.move hs.followed hg hmove⟩) choices).2
  obtain ⟨k, hk⟩ := hs.placed
  refine ⟨hs.followed.nodup_begun_path (hk.nodup_handed hm), ?_, ?_, ?_⟩
  · intro before run after ht d hd
    have hb : .called (.beforeTask run) ∈ s.trace := by simp [ht]
    exact ⟨hready before run after ht d hd,
      hg.hasSucceeded hs.followed (hs.followed.handed_of_called hb rfl) hd⟩
  · exact Nat.le_trans hs.followed.underway_le (running_le_permits su g requested choices)
  · intro hc
    have hturn : InTurn s := inTurn_run hm (Nat.max_eq_left hc) g requested choices
    refine ⟨?_, hturn.hooks_eq hs.followed⟩
    rw [hturn.begun_eq hs.followed]
    exact (List.filter_sublist.map _).trans ((List.sublist_append_left _ _).trans hk.order)

/-! ### Two tasks at once -/

/-- A schedule of the diamond, with so many permits. -/
def diamondSetup (concurrency : Nat) : ScheduleSetup Empty where
  registry := Plan.diamond
  plan := Plan.diamondPlan
  options := { concurrency }
  build := ⟨⟨1, 1⟩⟩
  reporter := ⟨.epoch, fun _ _ => []⟩
  hasToken := false
  lost := fun _ => "task 1 panicked"

/-- The task that all others need is run, and then the two that need nothing else are started, if
there are permits. -/
def diamondRun (concurrency : Nat) : Schedule Empty :=
  (start (diamondSetup concurrency) ⟨1, 1⟩ false).run (diamondSetup concurrency)
    (List.replicate 2 .scheduler ++ List.replicate 7 (.worker 0) ++ List.replicate 4 .scheduler ++
      [.worker 0, .worker 1, .worker 0, .worker 1, .worker 0, .worker 1])

/-- With two permits both of them are underway, and with one the second has to wait. -/
theorem starts_diamond : Plan.ofTargets Plan.diamond ["top"] = .ok Plan.diamondPlan ∧
    (diamondRun 2).underway.map (·.path) = [":right", ":left"] ∧
    (diamondRun 2).underway.length ≤ 2 ∧
    (diamondRun 0).begun.map (·.path) = [":base", ":right"] ∧
    ((diamondRun 0).begun.map (·.path)).Sublist Plan.diamondPlan.sorted ∧
    (diamondRun 0).hooks = (diamondRun 0).begun.flatMap (diamondRun 0).hooksOf := by
  have hp : Plan.ofTargets Plan.diamond ["top"] = .ok Plan.diamondPlan := rfl
  obtain ⟨-, -, htwo, -⟩ := starts_run hp (diamondSetup 2) rfl ⟨1, 1⟩ false _
  obtain ⟨-, -, -, hone⟩ := starts_run hp (diamondSetup 0) rfl ⟨1, 1⟩ false _
  exact ⟨hp, rfl, htwo, rfl, hone (by decide)⟩

end Schedule

end BuildStream
