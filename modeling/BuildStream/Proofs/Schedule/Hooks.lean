/-
# The hooks of a run

Every script can be carried on to its end (`Script.exists_path`), so what a worker has shown is the
beginning of what it shows by then.  Hence the hooks of a run that were called are none, or the hook
before its task and then others (`Followed.hooksOf_cases`).  The hook before a task is called at
most once for each run (`Followed.nodup_begun`), and for each path, if no path is handed over twice.
-/
import BuildStream.Proofs.Brackets
import BuildStream.Proofs.Schedule.Waves

namespace BuildStream

/-! ## 1. The hooks of a script -/

/-- The run of the task that a hook begins. -/
def Hook.begins? : Hook → Option TaskRun
  | beforeTask run => some run
  | _ => none

theorem Hook.eq_beforeTask {hook : Hook} {run : TaskRun} (h : hook.begins? = some run) :
    hook = .beforeTask run := by
  cases hook with
  | beforeTask other =>
    obtain rfl : other = run := Option.some.inj h
    rfl
  | _ => exact nomatch h

namespace Sign

variable {ε : Type}

/-- The hooks that are called, in order. -/
def hooks (signs : List (Sign ε)) : List Hook := signs.filterMap called?

@[simp] theorem hooks_nil : hooks ([] : List (Sign ε)) = [] := rfl

@[simp] theorem hooks_append (signs more : List (Sign ε)) :
    hooks (signs ++ more) = hooks signs ++ hooks more :=
  List.filterMap_append

theorem hooks_stamped (run : TaskRun) (stamp : Stamp) (signs : List (Sign ε)) :
    hooks (.stamped run stamp :: signs) = hooks signs := rfl

theorem mem_hooks {signs : List (Sign ε)} {hook : Hook} :
    hook ∈ hooks signs ↔ .called hook ∈ signs := by
  rw [hooks, List.mem_filterMap]
  constructor
  · rintro ⟨sign, hs, he⟩
    cases sign with
    | called other =>
      obtain rfl : other = hook := Option.some.inj he
      exact hs
    | _ => exact nomatch he
  · exact fun h => ⟨_, h, rfl⟩

/-- Of the signs of a hook, one is its call. -/
@[simp] theorem hooks_signs (r : Reporter ε) (now : Timestamp) (hook : Hook) :
    hooks (r.signs now hook) = [hook] := by
  rw [hooks, Reporter.signs, List.filterMap_cons, List.filterMap_map]
  exact congrArg (hook :: ·) (List.filterMap_eq_nil_iff.mpr fun _ _ => rfl)

/-- The hooks of a run are those among its own signs. -/
theorem filter_hooks (signs : List (Sign ε)) (run : TaskRun) :
    ((hooks signs).filter fun hook => decide (hook.subject.task? = some run)) =
      hooks (signs.filter fun sign => decide (sign.worker? = some run)) := by
  rw [hooks, hooks, List.filter_filterMap, List.filterMap_filter]
  refine List.filterMap_congr fun sign _ => ?_
  cases sign with
  | called hook => by_cases h : hook.subject.task? = some run <;> simp [called?, worker?, h]
  | _ => simp [called?]

end Sign

namespace Script

variable {ε : Type} {r : Reporter ε} {lost : String} {run : TaskRun}

/-- **Every script can be carried on to its end.** -/
theorem exists_path (s : Script ε) : ∃ signs report, s.Path run signs (.done report) := by
  induction s with
  | done report => exact ⟨[], report, .refl _⟩
  | emit sign next ih =>
    obtain ⟨signs, report, h⟩ := ih
    exact ⟨_, report, .emit sign h⟩
  | clock next ih =>
    obtain ⟨signs, report, h⟩ := ih 0
    exact ⟨_, report, .clock 0 h⟩
  | stamp next ih =>
    obtain ⟨signs, report, h⟩ := ih ⟨0, 0⟩
    exact ⟨_, report, .stamp _ h⟩
  | poll next ih =>
    obtain ⟨signs, report, h⟩ := ih false
    exact ⟨_, report, .poll false h⟩
  | cancel next ih =>
    obtain ⟨signs, report, h⟩ := ih
    exact ⟨_, report, .cancel h⟩
  | pause millis next ih =>
    obtain ⟨signs, report, h⟩ := ih
    exact ⟨_, report, .pause millis h⟩

theorem Shown.begins?_eq_none {tests : List TestRun} {signs : List (Sign ε)}
    (h : Shown r run tests signs) {hook : Hook} (hm : hook ∈ Sign.hooks signs) :
    hook.begins? = none := by
  obtain ⟨t, -, hsub⟩ := h.subject (Sign.mem_hooks.mp hm) rfl
  cases hook with
  | beforeTask other => exact nomatch hsub
  | _ => rfl

theorem Concludes.begins?_eq_none {result : ActionResult} {last : List (Sign ε)}
    (h : Concludes r run result last) {hook : Hook} (hm : hook ∈ Sign.hooks last) :
    hook.begins? = none := by
  rcases h with ⟨after, state, rfl, -⟩ | ⟨rfl, -⟩
  · rw [Sign.hooks_signs, List.mem_singleton] at hm
    rw [hm]
    rfl
  · exact nomatch hm

/-- **The hooks of a task** that were called so far are none, or the hook before it and others that
do not begin a task. -/
theorem hooks_ofTask {action : Action} {signs : List (Sign ε)} {script : Script ε}
    (h : (ofTask r lost run action).Path run signs script) : Sign.hooks signs = [] ∨
      ∃ rest, Sign.hooks signs = .beforeTask run :: rest ∧ ∀ hook ∈ rest, hook.begins? = none := by
  obtain ⟨more, report, hmore⟩ := exists_path script
  obtain ⟨-, _, -, -, before, tests, shown, last, hs, hshown, hlast⟩ := path_ofTask (h.trans hmore)
  have hall : Sign.hooks signs ++ Sign.hooks more =
      .beforeTask run :: (Sign.hooks shown ++ Sign.hooks last) := by
    simpa using congrArg Sign.hooks hs
  cases hc : Sign.hooks signs with
  | nil => exact .inl rfl
  | cons first rest =>
    rw [hc, List.cons_append, List.cons.injEq] at hall
    refine .inr ⟨rest, by rw [hall.1], fun hook hm => ?_⟩
    rcases List.mem_append.mp (hall.2 ▸ List.mem_append_left _ hm) with hm | hm
    · exact hshown.begins?_eq_none hm
    · exact hlast.begins?_eq_none hm

/-- Whatever a task sends for a hook is made of it. -/
theorem sent_ofTask {action : Action} {signs : List (Sign ε)} {script : Script ε}
    (h : (ofTask r lost run action).Path run signs script) {hook : Hook} {e : ε}
    (he : .sent hook e ∈ signs) : ∃ now, e ∈ r.emit now hook := by
  obtain ⟨more, report, hmore⟩ := exists_path script
  obtain ⟨-, _, -, -, before, tests, shown, last, hs, hshown, hlast⟩ := path_ofTask (h.trans hmore)
  refine sent_of_brackets hs hshown (hlast.imp ?_ And.left) (List.mem_append_left _ he)
  exact fun ⟨after, state, hl, _⟩ => ⟨after, state, hl⟩

end Script

namespace Schedule

variable {ε : Type} {su : ScheduleSetup ε} {s : Schedule ε}

/-! ## 2. The hooks of a schedule -/

/-- The hooks that were called, in order. -/
def hooks (s : Schedule ε) : List Hook := Sign.hooks s.trace

theorem hooks_ask (su : ScheduleSetup ε) (s : Schedule ε) : (s.ask su).hooks = s.hooks := by
  rw [hooks, ask, Sign.hooks_append]
  exact List.append_nil _

theorem hooks_endWave (su : ScheduleSetup ε) (s : Schedule ε) :
    (s.endWave su).hooks = s.hooks := by
  rw [hooks, trace_endWave, Sign.hooks_append]
  exact List.append_nil _

/-- The hooks of a run and of its tests, in order. -/
def hooksOf (s : Schedule ε) (run : TaskRun) : List Hook :=
  s.hooks.filter fun hook => decide (hook.subject.task? = some run)

/-- The runs whose hook before the task was called, in order. -/
def begun (s : Schedule ε) : List TaskRun := s.hooks.filterMap Hook.begins?

theorem mem_begun {run : TaskRun} : run ∈ s.begun ↔ .called (.beforeTask run) ∈ s.trace := by
  rw [begun, List.mem_filterMap, ← Sign.mem_hooks]
  refine ⟨fun ⟨hook, hm, hb⟩ => ?_, fun h => ⟨_, h, rfl⟩⟩
  rw [← Hook.eq_beforeTask hb]
  exact hm

theorem hooksOf_eq (s : Schedule ε) (run : TaskRun) : s.hooksOf run = Sign.hooks (s.own run) :=
  Sign.filter_hooks s.trace run

/-- The hook before its task is one of the hooks of a run. -/
theorem filter_begun (s : Schedule ε) (run : TaskRun) :
    s.begun.filter (· == run) = (s.hooksOf run).filterMap Hook.begins? := by
  rw [begun, hooksOf, List.filter_filterMap, List.filterMap_filter]
  refine List.filterMap_congr fun hook _ => ?_
  cases hook with
  | beforeTask other =>
    by_cases h : other = run <;> simp [Hook.begins?, Hook.subject, Subject.task?, h]
  | _ => simp [Hook.begins?]

section Worker

variable {t : Schedule ε} {i : Nat} {w w' : Worker ε} {signs : List (Sign ε)}

theorem WorkerMove.hooks (hm : WorkerMove su s t i w w' signs) :
    t.hooks = s.hooks ++ Sign.hooks signs := by
  rw [Schedule.hooks, hm.trace, Sign.hooks_append, Schedule.hooks]

/-- When a worker moves, hooks of its own run are called... -/
theorem Followed.hooksOf_worker (h : Followed su s) (hm : WorkerMove su s t i w w' signs) :
    t.hooksOf w.run = s.hooksOf w.run ++ Sign.hooks signs := by
  rw [hooksOf_eq, hooksOf_eq, (h.tracks_worker hm).1, Sign.hooks_append]

/-- ...and of no other. -/
theorem Followed.hooksOf_worker_of_ne (h : Followed su s) (hm : WorkerMove su s t i w w' signs)
    {run : TaskRun} (hne : run ≠ w.run) : t.hooksOf run = s.hooksOf run := by
  rw [hooksOf_eq, hooksOf_eq, own_of_trace hm.trace, List.filter_eq_nil_iff.mpr, List.append_nil]
  intro sign hs
  rw [h.shown hm sign hs]
  simpa using hne.symm

end Worker

/-- A run that was handed over is somewhere in its script. -/
theorem Followed.tracks (h : Followed su s) {run : TaskRun} (hr : .handed run ∈ s.trace) :
    ∃ script, Tracks su s run script := by
  rcases h.ended run hr with hm | ⟨report, -, hd⟩
  · obtain ⟨w, hw, rfl⟩ := List.mem_map.mp hm
    exact ⟨_, h.working w hw⟩
  · exact ⟨_, hd.tracks⟩

/-- **How a run came to its end.**  The hook before its task was called, its action ended as it does
with the answers that it got, and the hook after the task was called with what it ended with, unless
that is an error that cannot be rendered. -/
theorem Tracks.ended {run : TaskRun} {report : TaskReport} (h : Tracks su s run (.done report)) :
    report.path = run.path ∧ .called (.beforeTask run) ∈ s.trace ∧
      ∃ task result, su.registry.get? run.path = some task ∧
        task.action.given (Sign.answers (s.own run)) = some (result, []) ∧
        report.verdict = result.verdict run.path (su.lost run.path) ∧
        (result ≠ .fails .unrenderable →
          ∃ began ended, .called (.afterTask run (.ofResult began ended result)) ∈ s.trace) := by
  obtain ⟨task, hg, -, hp⟩ := h.task
  obtain ⟨hpath, result, hgiven, hv, before, tests, shown, last, ho, -, hlast⟩ :=
    Script.path_ofTask hp
  have hmem {sign : Sign ε} (hs : sign ∈ s.own run) : sign ∈ s.trace := List.mem_of_mem_filter hs
  refine ⟨hpath, hmem ?_, task, result, hg, hgiven, hv, fun hr => ?_⟩
  · rw [ho]
    exact List.mem_append_left _ List.mem_cons_self
  · rcases hlast with ⟨after, state, rfl, began, ended, rfl⟩ | ⟨-, he⟩
    · refine ⟨began, ended, hmem ?_⟩
      rw [ho]
      exact List.mem_append_right _ (List.mem_append_right _ List.mem_cons_self)
    · exact absurd he hr

/-- A hook of a task is called only for a run that was handed over. -/
theorem Followed.handed_of_called (h : Followed su s) {hook : Hook} {run : TaskRun}
    (hc : .called hook ∈ s.trace) (hr : hook.subject.task? = some run) :
    .handed run ∈ s.trace := by
  rcases h.signs _ hc with ⟨other, he⟩ | ⟨answer, he⟩ | ⟨other, ho, hh⟩
  · exact nomatch he
  · exact nomatch he
  · obtain rfl : other = run := Option.some.inj (ho.symm.trans hr)
    exact hh

theorem Followed.handed_of_begun (h : Followed su s) {run : TaskRun} (hb : run ∈ s.begun) :
    .handed run ∈ s.trace :=
  h.handed_of_called (mem_begun.mp hb) rfl

/-- Whatever is sent is made of a hook of a task or of one of its tests. -/
theorem Followed.sent (h : Followed su s) {hook : Hook} {e : ε} (he : .sent hook e ∈ s.trace) :
    (∃ run, hook.subject.task? = some run) ∧ ∃ now, e ∈ su.reporter.emit now hook := by
  rcases h.signs _ he with ⟨other, ho⟩ | ⟨answer, ho⟩ | ⟨run, hw, hr⟩
  · exact nomatch ho
  · exact nomatch ho
  · obtain ⟨script, ht⟩ := h.tracks hr
    obtain ⟨task, -, -, hp⟩ := ht.task
    exact ⟨⟨run, hw⟩, Script.sent_ofTask hp (List.mem_filter.mpr ⟨he, decide_eq_true hw⟩)⟩

/-- **The hooks of a run** are none, or the hook before its task and then others. -/
theorem Followed.hooksOf_cases (h : Followed su s) {run : TaskRun} (hr : .handed run ∈ s.trace) :
    s.hooksOf run = [] ∨ ∃ rest, s.hooksOf run = .beforeTask run :: rest ∧
      ∀ hook ∈ rest, hook.begins? = none := by
  obtain ⟨script, ht⟩ := h.tracks hr
  obtain ⟨task, -, -, hp⟩ := ht.task
  rw [hooksOf_eq]
  exact Script.hooks_ofTask hp

/-- A run has begun if it has hooks. -/
theorem Followed.filterMap_hooksOf (h : Followed su s) {run : TaskRun}
    (hr : .handed run ∈ s.trace) : (s.hooksOf run).filterMap Hook.begins? =
      if (s.hooksOf run).isEmpty then [] else [run] := by
  rcases h.hooksOf_cases hr with he | ⟨rest, he, hrest⟩
  · rw [he]
    rfl
  · rw [he, List.filterMap_cons, List.filterMap_eq_nil_iff.mpr hrest]
    rfl

/-- **The hook before a task is called at most once** for each run. -/
theorem Followed.nodup_begun (h : Followed su s) : s.begun.Nodup := by
  rw [List.nodup_iff_count_le_one]
  intro run
  by_cases hb : run ∈ s.begun
  · rw [List.count_eq_length_filter, filter_begun, h.filterMap_hooksOf (h.handed_of_begun hb)]
    split <;> simp
  · simp [List.count_eq_zero.mpr hb]

/-- ...and for each path, if no path is handed over twice. -/
theorem Followed.nodup_begun_path (h : Followed su s) (hd : (s.handed.map (·.path)).Nodup) :
    (s.begun.map (·.path)).Nodup := by
  refine h.nodup_begun.map_on fun a ha b hb he => ?_
  exact List.inj_on_of_nodup_map hd (mem_handed.mpr (h.handed_of_begun ha))
    (mem_handed.mpr (h.handed_of_begun hb)) he

end Schedule

end BuildStream
