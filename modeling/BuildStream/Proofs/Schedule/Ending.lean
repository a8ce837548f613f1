/-
# Every schedule comes to its end

A schedule is never stuck: if the scheduler has to wait, some worker can take a step, since there
is always at least one permit (`isFinished_of_choose`).  A drive stops only where nobody can take a
step, so it stops at the end, and `runToEnd` gets to the end from whatever its choices led to
(`isFinished_runToEnd`).

`runToEnd` is nothing but a run of more choices (`runToEnd_eq_run`), and nothing at all is added
where the choices led to the end themselves (`runToEnd_of_isFinished`).  So what holds of `runToEnd`
for all choices holds of every order in which the scheduler and the workers can take their steps.
-/
import BuildStream.Proofs.Schedule.Step

namespace BuildStream

namespace Schedule

variable {ε : Type} {su : ScheduleSetup ε}

/-! ## 1. Nobody is stuck -/

theorem earliest_eq_none {ws : List (Worker ε)} {i : Nat} (h : earliest i ws = none) :
    ∀ w ∈ ws, w.script.isDone = true := by
  induction ws generalizing i with
  | nil => simp
  | cons w ws ih =>
    unfold earliest at h
    simp only at h
    split at h
    · next hd =>
      intro x hx
      rcases List.mem_cons.mp hx with rfl | hx
      · exact hd
      · exact ih h x hx
    · split at h
      · split at h <;> exact nomatch h
      · exact nomatch h

theorem running_eq_zero {s : Schedule ε} (h : ∀ w ∈ s.workers, w.script.isDone = true) :
    s.running = 0 := by
  unfold running
  rw [List.length_eq_zero_iff, List.filter_eq_nil_iff]
  intro w hw
  simp [h w hw]

/-- The scheduler is stuck only at the end, if no worker is at work. -/
theorem isFinished_of_schedulerStep {s : Schedule ε} (h : s.schedulerStep su = none)
    (hn : s.running = 0) : s.isFinished = true := by
  have hpermits : ¬ su.options.permits ≤ s.running := by
    have : 1 ≤ su.options.permits := Nat.le_max_left _ _
    omega
  unfold schedulerStep at h
  split at h
  · next path queue hw hq =>
    unfold dispatch at h
    split at h
    · exact nomatch h
    · split at h
      · exact nomatch h
      · split at h
        · next hp => exact absurd hp hpermits
        · split at h <;> exact nomatch h
  · simp [hn] at h
  · split at h <;> exact nomatch h
  · next hw hv => simp [isFinished, hw, hv]

/-- **No deadlock.**  Where a drive chooses nobody, the schedule has come to its end. -/
theorem isFinished_of_choose {deadline : Option Nat} {s : Schedule ε}
    (h : s.choose su deadline = none) : s.isFinished = true := by
  unfold choose at h
  split at h
  · exact nomatch h
  · split at h
    · exact nomatch h
    · next hs =>
      split at h
      · next he =>
        exact isFinished_of_schedulerStep (by simpa using hs) (running_eq_zero (earliest_eq_none he))
      · split at h <;> exact nomatch h

/-! ## 2. Drives -/

/-- Without a deadline a drive never chooses to cancel. -/
theorem choose_ne_cancel (s : Schedule ε) : s.choose su none ≠ some .cancel := by
  have hdue (time : Nat) : s.isDue none time = false := by simp [isDue]
  unfold choose
  rw [hdue, if_neg Bool.false_ne_true]
  split
  · simp
  · split
    · simp
    · simp [hdue]

theorem isFinished_drive (su : ScheduleSetup ε) (deadline : Option Nat) (s : Schedule ε) :
    (s.drive su deadline).isFinished = true := by
  induction s using drive.induct su deadline with
  | case1 s h =>
    rw [drive, h]
    exact isFinished_of_choose h
  | case2 s c h ih =>
    rw [drive, h]
    exact ih

/-- A drive is a run, and nobody cancels it if there is no deadline. -/
theorem exists_drive_eq_run (su : ScheduleSetup ε) (deadline : Option Nat) (s : Schedule ε) :
    ∃ choices, s.drive su deadline = s.run su choices ∧
      (deadline = none → .cancel ∉ choices) := by
  induction s using drive.induct su deadline with
  | case1 s h =>
    refine ⟨[], ?_, by simp⟩
    rw [drive, h]
    rfl
  | case2 s c h ih =>
    obtain ⟨choices, hrun, hcancel⟩ := ih
    refine ⟨c :: choices, ?_, fun hd => ?_⟩
    · rw [drive, h]
      exact hrun
    · rw [List.mem_cons, not_or]
      exact ⟨fun hc => choose_ne_cancel s (by rw [← hd, h, hc]), hcancel hd⟩

theorem drive_eq_run (su : ScheduleSetup ε) (deadline : Option Nat) (s : Schedule ε) :
    ∃ choices, s.drive su deadline = s.run su choices := by
  obtain ⟨choices, h, -⟩ := exists_drive_eq_run su deadline s
  exact ⟨choices, h⟩

/-- **Every run can be carried on to the end.** -/
theorem isFinished_runToEnd (su : ScheduleSetup ε) (choices : List Choice) (s : Schedule ε) :
    (s.runToEnd su choices).isFinished = true :=
  isFinished_drive su none _

/-- ...and nobody cancels on the way, so the end is that of a run of more choices. -/
theorem exists_runToEnd_eq_run (su : ScheduleSetup ε) (choices : List Choice) (s : Schedule ε) :
    ∃ more, s.runToEnd su choices = s.run su (choices ++ more) ∧ .cancel ∉ more := by
  obtain ⟨more, h, hcancel⟩ := exists_drive_eq_run su none (s.run su choices)
  refine ⟨more, ?_, hcancel rfl⟩
  rw [runToEnd, h, run, run, run, List.foldl_append]

theorem runToEnd_eq_run (su : ScheduleSetup ε) (choices : List Choice) (s : Schedule ε) :
    ∃ more, s.runToEnd su choices = s.run su (choices ++ more) := by
  obtain ⟨more, h, -⟩ := exists_runToEnd_eq_run su choices s
  exact ⟨more, h⟩

/-! ## 3. Between waves -/

/-- Between two waves nothing is left of the one before. -/
def Settled (s : Schedule ε) : Prop := s.inWave = false → s.workers = [] ∧ s.queue = []

theorem settled_move {s t : Schedule ε} (hs : s.Settled) (h : Move su s t) : t.Settled := by
  cases h with
  | scheduler h =>
    cases h with
    | leaveOut hw hq why => exact fun hf => absurd (hw.symm.trans hf) (by simp)
    | observe hw hq hp => exact fun hf => absurd (hw.symm.trans hf) (by simp)
    | handOver hw hq hr hf hc hn hp => exact fun hf => absurd (hw.symm.trans hf) (by simp)
    | endWave hw hq hn =>
      refine fun _ => ⟨rfl, ?_⟩
      rw [endWave_eq]
      exact hq
    | passOver hw hv ho => exact fun _ => ⟨(hs hw).1, rfl⟩
    | beginWave hw hv ho => exact fun hf => nomatch hf
  | worker h =>
    rw [h.eq]
    intro hf
    have hn : s.workers = [] := (hs hf).1
    simp [hn, (hs hf).2]
  | request h => rw [h]; exact hs

theorem settled_run (su : ScheduleSetup ε) (generator : Generator) (requested : Bool)
    (choices : List Choice) :
    ((start su generator requested).run su choices).Settled :=
  run_induction (fun _ => ⟨rfl, rfl⟩) (fun _ _ => settled_move) choices

/-- **Choices that lead to the end are not added to.** -/
theorem runToEnd_of_isFinished {generator : Generator} {requested : Bool} {choices : List Choice}
    (h : ((start su generator requested).run su choices).isFinished = true) :
    (start su generator requested).runToEnd su choices =
      (start su generator requested).run su choices := by
  have hs := settled_run su generator requested choices
  unfold runToEnd
  generalize (start su generator requested).run su choices = s at h hs
  simp only [isFinished, Bool.and_eq_true, List.isEmpty_iff, Bool.not_eq_true'] at h
  have hn : s.choose su none = none := by
    simp [choose, isDue, schedulerStep, h.1, h.2, (hs h.2).1, earliest]
  rw [drive, hn]

end Schedule

end BuildStream
