/-
# What a step of a schedule can do

`schedulerStep` and `workerStep` decide by cases on the state.  Here the cases are read off once:
`SchedulerMove` lists what the scheduler can do, each with what holds when it does it, and
`WorkerMove` says what a worker can do, whatever its script tells it.  `step_cases` puts them
together; what is proved of schedules elsewhere is proved move by move and never looks into a step.

A move only ever adds to the trace (`Move.trace`), and whoever asks about cancellation gets the
answer that the state gives.
-/
import BuildStream.Proofs.Script
import BuildStream.Schedule.Drive

namespace BuildStream

/-! ## 1. The end of a wave -/

/-- Whether a worker is done and its task failed. -/
def Worker.hasFailed {ε : Type} (w : Worker ε) : Bool :=
  (w.script.report?.map fun report => !report.status.isSuccess).getD false

namespace Schedule

variable {ε : Type} {su : ScheduleSetup ε}

/-- **Collecting.**  The reports of the workers are added to those that are there, and the tasks
that failed to those that block others. -/
theorem foldl_collect (ws : List (Worker ε)) (s : Schedule ε) :
    ws.foldl collect s =
      { s with
        reports := s.reports ++ ws.filterMap (·.script.report?)
        failed := s.failed || ws.any (·.hasFailed)
        blocked := s.blocked ++ (ws.filter (·.hasFailed)).map (·.run.path) } := by
  induction ws generalizing s with
  | nil => simp
  | cons w ws ih =>
    rw [List.foldl_cons, ih]
    unfold collect Worker.hasFailed
    cases hr : w.script.report? with
    | none => simp [hr]
    | some report => cases hs : report.status.isSuccess <;> simp [hr, hs]

/-- The end of a wave, with what was collected. -/
theorem endWave_eq (su : ScheduleSetup ε) (s : Schedule ε) :
    s.endWave su =
      { s with
        trace := s.trace ++ [.asked none (s.poll su)]
        reports := s.reports ++ s.workers.filterMap (·.script.report?)
        failed := s.failed || s.workers.any (·.hasFailed)
        blocked := s.blocked ++ (s.workers.filter (·.hasFailed)).map (·.run.path)
        inWave := false
        workers := []
        cancelled := s.cancelled || s.poll su } := by
  rw [endWave, foldl_collect]
  rfl

@[simp] theorem trace_endWave (su : ScheduleSetup ε) (s : Schedule ε) :
    (s.endWave su).trace = s.trace ++ [.asked none (s.poll su)] := by rw [endWave_eq]

@[simp] theorem workers_endWave (su : ScheduleSetup ε) (s : Schedule ε) :
    (s.endWave su).workers = [] := by rw [endWave_eq]

@[simp] theorem cancelled_endWave (su : ScheduleSetup ε) (s : Schedule ε) :
    (s.endWave su).cancelled = (s.cancelled || s.poll su) := by rw [endWave_eq]

/-- What was reported by the end of a wave was so before, or by a worker. -/
theorem mem_reports_endWave {s : Schedule ε} {report : TaskReport} :
    report ∈ (s.endWave su).reports ↔
      report ∈ s.reports ∨ ∃ w ∈ s.workers, w.script.report? = some report := by
  rw [endWave_eq, List.mem_append, List.mem_filterMap]

/-- What blocks others after a wave did so before, or its worker failed. -/
theorem mem_blocked_endWave {s : Schedule ε} {path : TaskPath} :
    path ∈ (s.endWave su).blocked ↔
      path ∈ s.blocked ∨ ∃ w ∈ s.workers, w.hasFailed = true ∧ w.run.path = path := by
  simp [endWave_eq, and_assoc]

theorem failed_endWave {s : Schedule ε} : (s.endWave su).failed = true ↔
    s.failed = true ∨ ∃ w ∈ s.workers, w.hasFailed = true := by
  rw [endWave_eq, Bool.or_eq_true, List.any_eq_true]

/-- Where nobody is at work, every worker has its report. -/
theorem done_of_running {s : Schedule ε} (h : s.running = 0) {w : Worker ε} (hw : w ∈ s.workers) :
    ∃ report, w.script = .done report := by
  rw [running, List.length_eq_zero_iff, List.filter_eq_nil_iff] at h
  have hd := h w hw
  cases hs : w.script <;> simp_all [Script.isDone, Script.report?]

/-! ## 2. What the scheduler can do -/

/-- The moves of the scheduler. -/
inductive SchedulerMove (su : ScheduleSetup ε) (s : Schedule ε) : Schedule ε → Prop
  /-- The next task of the wave is left out. -/
  | leaveOut {path : TaskPath} {queue : List TaskPath} (hw : s.inWave = true)
      (hq : s.queue = path :: queue)
      (why : su.registry.get? path = none ∨ waitsOnFailure su s path = true ∨ s.cancelled = true) :
      SchedulerMove su s (leaveOut { s with queue } path)
  /-- The next task of the wave is left out, since cancellation was requested. -/
  | observe {path : TaskPath} {queue : List TaskPath} (hw : s.inWave = true)
      (hq : s.queue = path :: queue) (hp : s.poll su = true) :
      SchedulerMove su s { (ask su { s with queue }).leaveOut path with cancelled := true }
  /-- The next task of the wave is handed to a worker. -/
  | handOver {path : TaskPath} {queue : List TaskPath} {task : TaskDefinition}
      (hw : s.inWave = true) (hq : s.queue = path :: queue)
      (hr : su.registry.get? path = some task) (hf : waitsOnFailure su s path = false)
      (hc : s.cancelled = false) (hn : s.running < su.options.permits)
      (hp : s.poll su = false) :
      SchedulerMove su s ((ask su { s with queue }).handOver su task)
  /-- All workers are done, and the wave ends. -/
  | endWave (hw : s.inWave = true) (hq : s.queue = []) (hn : s.running = 0) :
      SchedulerMove su s (s.endWave su)
  /-- The next wave is passed over. -/
  | passOver {wave : List TaskPath} {waves : List (List TaskPath)} (hw : s.inWave = false)
      (hv : s.waves = wave :: waves) (ho : s.isOver su = true) :
      SchedulerMove su s
        { s with waves, queue := [], reports := s.reports ++ wave.map .notRun }
  /-- The next wave begins. -/
  | beginWave {wave : List TaskPath} {waves : List (List TaskPath)} (hw : s.inWave = false)
      (hv : s.waves = wave :: waves) (ho : s.isOver su = false) :
      SchedulerMove su s { s with waves, inWave := true, queue := wave }

theorem dispatch_cases {s t : Schedule ε} {path : TaskPath} {queue : List TaskPath}
    (hw : s.inWave = true) (hq : s.queue = path :: queue)
    (h : dispatch su { s with queue } path = some t) : SchedulerMove su s t := by
  unfold dispatch at h
  split at h
  · next hr =>
    cases h
    exact .leaveOut hw hq (.inl hr)
  · next task hr =>
    split at h
    · next hb =>
      cases h
      exact .leaveOut hw hq (.inr (Bool.or_eq_true _ _ ▸ hb))
    · next hb =>
      simp only [Bool.or_eq_true, not_or, Bool.not_eq_true] at hb
      split at h
      · exact nomatch h
      · next hn =>
        split at h
        · next hp =>
          cases h
          exact .observe hw hq hp
        · next hp =>
          cases h
          exact .handOver hw hq hr hb.1 hb.2 (Nat.lt_of_not_le hn)
            (eq_false_of_ne_true hp)

/-- **The scheduler's step is one of its moves.** -/
theorem schedulerStep_cases {s t : Schedule ε} (h : s.schedulerStep su = some t) :
    SchedulerMove su s t := by
  unfold schedulerStep at h
  split at h
  · next hw hq => exact dispatch_cases hw hq h
  · next hw hq =>
    split at h
    · next hn => cases h; exact .endWave hw hq hn
    · exact nomatch h
  · next hw hv =>
    split at h
    · next ho => cases h; exact .passOver hw hv ho
    · next ho => cases h; exact .beginWave hw hv (by simpa using ho)
  · exact nomatch h

/-! ## 3. What a worker can do -/

/-- A move of the worker of a number: it goes one step on through its script and shows signs. -/
structure WorkerMove (su : ScheduleSetup ε) (s t : Schedule ε) (i : Nat) (w w' : Worker ε)
    (signs : List (Sign ε)) : Prop where
  here : s.workers[i]? = some w
  run : w'.run = w.run
  path : w.script.Path w.run signs w'.script
  eq : t = { s with
    workers := s.workers.set i w', trace := s.trace ++ signs
    generator := t.generator, requested := t.requested, now := t.now }
  /-- A stamp that is shown is the next one of the generator. -/
  stamps : w.script.Owned w.run →
    signs.filterMap Sign.stamp? = [] ∧ t.generator = s.generator ∨
      signs.filterMap Sign.stamp? = [s.generator.allocate.1] ∧
        t.generator = s.generator.allocate.2
  /-- An answer that is shown is the one that the state gives. -/
  answers : w.script.Owned w.run →
    ∀ worker answer, .asked worker answer ∈ signs → answer = s.poll su
  requested : s.requested = true → t.requested = true

namespace WorkerMove

variable {s t : Schedule ε} {i : Nat} {w w' : Worker ε} {signs : List (Sign ε)}

theorem trace (h : WorkerMove su s t i w w' signs) : t.trace = s.trace ++ signs := by rw [h.eq]

theorem workers (h : WorkerMove su s t i w w' signs) : t.workers = s.workers.set i w' := by
  rw [h.eq]

theorem runs (h : WorkerMove su s t i w w' signs) :
    t.workers.map (·.run) = s.workers.map (·.run) := by
  have hr : (s.workers.map (·.run))[i]? = some w.run := by simp [h.here]
  obtain ⟨_, hr⟩ := List.getElem?_eq_some_iff.mp hr
  rw [h.workers, List.map_set, h.run, ← hr, List.set_getElem_self]

/-- Every worker is the one that moved, or one that was there and has another run. -/
theorem mem_workers (h : WorkerMove su s t i w w' signs) (hd : (s.workers.map (·.run)).Nodup)
    {x : Worker ε} (hx : x ∈ t.workers) : x = w' ∨ x ∈ s.workers ∧ x.run ≠ w.run := by
  rw [h.workers] at hx
  obtain ⟨j, hj⟩ := List.mem_iff_getElem?.mp hx
  by_cases hij : i = j
  · subst hij
    left
    simpa [List.getElem?_set, (List.getElem?_eq_some_iff.mp h.here).1, eq_comm] using hj
  · rw [List.getElem?_set_ne hij] at hj
    refine .inr ⟨List.mem_of_getElem? hj, fun he => hij ?_⟩
    have hi : (s.workers.map (·.run))[i]? = some w.run := by simp [h.here]
    have hj : (s.workers.map (·.run))[j]? = some w.run := by simp [hj, he]
    exact (List.getElem?_inj (List.getElem?_eq_some_iff.mp hi).1 hd).mp (hi.trans hj.symm)

/-- A worker that is done has nothing more to show, and stays done. -/
theorem of_done (h : WorkerMove su s t i w w' signs) (hd : w.script.isDone = true) :
    signs = [] ∧ w'.script.isDone = true := by
  have hp := h.path
  cases hs : w.script with
  | done report =>
    rw [hs] at hp
    generalize w'.script = script at hp ⊢
    cases hp
    exact ⟨rfl, rfl⟩
  | _ => simp [hs, Script.isDone, Script.report?] at hd

/-- Nobody is set to work by a worker. -/
theorem running_le (h : WorkerMove su s t i w w' signs) : t.running ≤ s.running := by
  obtain ⟨hi, hw⟩ := List.getElem?_eq_some_iff.mp h.here
  have hpos := List.boole_getElem_le_countP (p := fun w : Worker ε => !w.script.isDone) hi
  simp only [running, ← List.countP_eq_length_filter, h.workers, List.countP_set hi]
  rw [hw] at hpos ⊢
  cases hd : w.script.isDone with
  | true => simp [(h.of_done hd).2]
  | false =>
    simp only [hd, Bool.not_false, if_true] at hpos ⊢
    split <;> omega

/-- A move that shows nothing. -/
theorem silent (here : s.workers[i]? = some w) (run : w'.run = w.run)
    (path : w.script.Path w.run [] w'.script)
    (eq : t = { s with
      workers := s.workers.set i w', trace := s.trace ++ []
      generator := t.generator, requested := t.requested, now := t.now })
    (generator : t.generator = s.generator) (requested : s.requested = true → t.requested = true) :
    WorkerMove su s t i w w' [] where
  here := here
  run := run
  path := path
  eq := eq
  stamps := fun _ => .inl ⟨rfl, generator⟩
  answers := fun _ _ _ ha => absurd ha List.not_mem_nil
  requested := requested

end WorkerMove

/-- **A worker's step is a move, or it changes nothing.** -/
theorem workerStep_cases (su : ScheduleSetup ε) (s : Schedule ε) (i : Nat) :
    s.workerStep su i = s ∨ ∃ w w' signs, WorkerMove su s (s.workerStep su i) i w w' signs := by
  cases hw : s.workers[i]? with
  | none => exact .inl (by simp [workerStep, hw])
  | some w =>
    cases hs : w.script with
    | done report => exact .inl (by simp [workerStep, hw, hs])
    | emit sign next =>
      refine .inr ⟨w, { w with script := next, wake := max s.now w.wake }, [sign], ?_⟩
      have hn (ho : w.script.Owned w.run) :
          sign.stamp? = none ∧ ∀ worker answer, sign ≠ .asked worker answer := by
        rw [hs] at ho
        cases sign <;> simp_all [Script.Owned, Sign.subject?, Sign.stamp?]
      refine ⟨hw, rfl, hs ▸ .emit sign (.refl next), by simp [workerStep, hw, hs], ?_, ?_,
        by simp [workerStep, hw, hs]⟩
      · intro ho
        exact .inl ⟨by simp [(hn ho).1], by simp [workerStep, hw, hs]⟩
      · intro ho worker answer ha
        exact absurd (List.mem_singleton.mp ha).symm ((hn ho).2 worker answer)
    | clock next =>
      refine .inr ⟨w, { w with script := next (max s.now w.wake), wake := max s.now w.wake }, [], ?_⟩
      exact .silent hw rfl (hs ▸ .clock _ (.refl _)) (by simp [workerStep, hw, hs])
        (by simp [workerStep, hw, hs]) (by simp [workerStep, hw, hs])
    | stamp next =>
      let stamp := s.generator.allocate.1
      refine .inr ⟨w, { w with script := next stamp, wake := max s.now w.wake },
        [.stamped w.run stamp], ?_⟩
      exact ⟨hw, rfl, hs ▸ .stamp stamp (.refl _), by simp [workerStep, hw, hs, stamp],
        fun _ => .inr ⟨rfl, by simp [workerStep, hw, hs]⟩, fun _ _ _ ha => by simp at ha,
        by simp [workerStep, hw, hs]⟩
    | poll next =>
      refine .inr ⟨w, { w with script := next (s.poll su), wake := max s.now w.wake },
        [.asked (some w.run) (s.poll su)], ?_⟩
      exact ⟨hw, rfl, hs ▸ .poll _ (.refl _), by simp [workerStep, hw, hs],
        fun _ => .inl ⟨rfl, by simp [workerStep, hw, hs]⟩, fun _ _ _ ha => by simp_all,
        by simp [workerStep, hw, hs]⟩
    | cancel next =>
      refine .inr ⟨w, { w with script := next, wake := max s.now w.wake }, [], ?_⟩
      exact .silent hw rfl (hs ▸ .cancel (.refl _)) (by simp [workerStep, hw, hs])
        (by simp [workerStep, hw, hs]) (by simp [workerStep, hw, hs])
    | pause millis next =>
      refine .inr ⟨w, { w with script := next, wake := max s.now w.wake + millis }, [], ?_⟩
      exact .silent hw rfl (hs ▸ .pause millis (.refl _)) (by simp [workerStep, hw, hs])
        (by simp [workerStep, hw, hs]) (by simp [workerStep, hw, hs])

/-! ## 4. What a step can do -/

/-- A move of anybody. -/
inductive Move (su : ScheduleSetup ε) (s t : Schedule ε) : Prop
  | scheduler (h : SchedulerMove su s t)
  | worker {i : Nat} {w w' : Worker ε} {signs : List (Sign ε)} (h : WorkerMove su s t i w w' signs)
  /-- Cancellation is requested from outside. -/
  | request (h : t = { s with requested := true })

/-- What was requested stays requested. -/
theorem Move.requested {s t : Schedule ε} (h : Move su s t) (hr : s.requested = true) :
    t.requested = true := by
  cases h with
  | scheduler h =>
    cases h with
    | endWave => rw [endWave_eq]; exact hr
    | _ => exact hr
  | worker h => exact h.requested hr
  | request h => rw [h]

/-- What can be observed once can be observed ever after. -/
theorem Move.poll {s t : Schedule ε} (h : Move su s t) (hp : s.poll su = true) :
    t.poll su = true := by
  rw [Schedule.poll, Bool.and_eq_true] at hp ⊢
  exact ⟨hp.1, h.requested hp.2⟩

/-- What was reported stays reported. -/
theorem Move.reports {s t : Schedule ε} (h : Move su s t) :
    ∃ more, t.reports = s.reports ++ more := by
  cases h with
  | scheduler h =>
    cases h with
    | leaveOut => exact ⟨_, rfl⟩
    | observe => exact ⟨_, rfl⟩
    | handOver => exact ⟨[], (List.append_nil _).symm⟩
    | endWave => exact ⟨_, by rw [endWave_eq]⟩
    | passOver => exact ⟨_, rfl⟩
    | beginWave => exact ⟨[], (List.append_nil _).symm⟩
  | worker h => exact ⟨[], by rw [h.eq, List.append_nil]⟩
  | request h => exact ⟨[], by rw [h, List.append_nil]⟩

/-- **A step is a move, or it changes nothing.** -/
theorem step_cases (su : ScheduleSetup ε) (s : Schedule ε) (c : Choice) :
    s.step su c = s ∨ Move su s (s.step su c) := by
  cases c with
  | scheduler =>
    cases h : s.schedulerStep su with
    | none => exact .inl (by simp [step, h])
    | some t =>
      have ht : s.step su .scheduler = t := by simp [step, h]
      rw [ht]
      exact .inr (.scheduler (schedulerStep_cases h))
  | worker i =>
    rcases workerStep_cases su s i with h | ⟨w, w', signs, h⟩
    · exact .inl h
    · exact .inr (.worker h)
  | cancel => exact .inr (.request rfl)

/-- What every move keeps, a run keeps. -/
theorem run_induction {P : Schedule ε → Prop} {s : Schedule ε} (h0 : P s)
    (hm : ∀ s t, P s → Move su s t → P t) (choices : List Choice) : P (s.run su choices) := by
  induction choices generalizing s with
  | nil => exact h0
  | cons c cs ih =>
    refine ih ?_
    rcases step_cases su s c with h | h
    · rw [h]; exact h0
    · exact hm s _ h0 h

end Schedule

end BuildStream
