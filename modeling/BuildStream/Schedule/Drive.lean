/-
# Driving a schedule

One way through a schedule: the scheduler steps whenever it can, and otherwise the worker that can
take its step at the earliest time, the first of those handed over.  Cancellation may be due at a
time; it is requested before anything that happens at that time or later.

The drive ends.  A step of the scheduler leaves less of the plan, a step of a worker makes its
script smaller, and cancellation is requested once.  So any beginning of a schedule can be carried
on to its end, which is what `runToEnd` does after following choices.
-/
import BuildStream.Schedule

namespace BuildStream

/-! ## 1. Lists in which one member gets smaller -/

/-- One member is smaller and the others are the same. -/
inductive OneBelow {α : Type} (r : α → α → Prop) : List α → List α → Prop
  | head {a b : α} (l : List α) : r a b → OneBelow r (a :: l) (b :: l)
  | tail (a : α) {l m : List α} : OneBelow r l m → OneBelow r (a :: l) (a :: m)

namespace OneBelow

variable {α : Type} {r : α → α → Prop}

theorem acc_nil : Acc (OneBelow r) [] := ⟨_, fun _ h => nomatch h⟩

theorem acc_cons {a : α} (ha : Acc r a) : ∀ {l : List α}, Acc (OneBelow r) l →
    Acc (OneBelow r) (a :: l) := by
  induction ha with
  | intro a ha iha =>
    intro l hl
    induction hl with
    | intro l hl ihl =>
      refine ⟨_, fun m hm => ?_⟩
      cases hm with
      | head _ h => exact iha _ h ⟨_, hl⟩
      | tail _ h => exact ihl _ h

theorem wf (h : ∀ a, Acc r a) : WellFounded (OneBelow r) := by
  refine ⟨fun l => ?_⟩
  induction l with
  | nil => exact acc_nil
  | cons a l ih => exact acc_cons (h a) ih

theorem set {l : List α} {i : Nat} {a b : α} (h : l[i]? = some b) (hr : r a b) :
    OneBelow r (l.set i a) l := by
  induction l generalizing i with
  | nil => simp at h
  | cons c l ih =>
    cases i with
    | zero =>
      obtain rfl : c = b := by simpa using h
      exact .head l hr
    | succ i => exact .tail c (ih (by simpa using h))

end OneBelow

namespace Schedule

variable {ε : Type}

/-! ## 2. Whose turn it is -/

/-- The first of the unfinished workers that wake the earliest, by number; `i` is the number of
the first worker. -/
def earliest (i : Nat) : List (Worker ε) → Option (Nat × Nat)
  | [] => none
  | w :: ws =>
    let later := earliest (i + 1) ws
    if w.script.isDone then later
    else
      match later with
      | some (j, wake) => if wake < w.wake then some (j, wake) else some (i, w.wake)
      | none => some (i, w.wake)

/-- Whether cancellation is due at a time and was not requested yet. -/
def isDue (deadline : Option Nat) (s : Schedule ε) (time : Nat) : Bool :=
  !s.requested && (deadline.map fun d => decide (d ≤ time)).getD false

/-- Who takes the next step; nobody at the end. -/
def choose (su : ScheduleSetup ε) (deadline : Option Nat) (s : Schedule ε) : Option Choice :=
  if s.isDue deadline s.now then some .cancel
  else if (s.schedulerStep su).isSome then some .scheduler
  else
    match earliest 0 s.workers with
    | none => none
    | some (i, wake) => if s.isDue deadline wake then some .cancel else some (.worker i)

/-! ## 3. The drive ends -/

/-- How much of the plan the scheduler has still to deal with. -/
def work (s : Schedule ε) : Nat :=
  s.waves.flatten.length + 2 * s.waves.length + s.queue.length + (if s.inWave then 1 else 0)

theorem work_dispatch {su : ScheduleSetup ε} {s t : Schedule ε} {path : TaskPath}
    (h : s.dispatch su path = some t) : t.work = s.work := by
  unfold dispatch at h
  split at h
  · cases h; rfl
  · split at h
    · cases h; rfl
    · split at h
      · cases h
      · split at h
        · cases h; rfl
        · cases h; rfl

theorem collect_work (s : Schedule ε) (w : Worker ε) :
    (s.collect w).waves = s.waves ∧ (s.collect w).queue = s.queue := by
  unfold collect
  split
  · exact ⟨rfl, rfl⟩
  · dsimp only
    split <;> exact ⟨rfl, rfl⟩

theorem foldl_collect_work (ws : List (Worker ε)) (s : Schedule ε) :
    (ws.foldl collect s).waves = s.waves ∧ (ws.foldl collect s).queue = s.queue := by
  induction ws generalizing s with
  | nil => exact ⟨rfl, rfl⟩
  | cons w ws ih =>
    have h := collect_work s w
    rw [List.foldl_cons, (ih _).1, (ih _).2, h.1, h.2]
    exact ⟨rfl, rfl⟩

theorem work_schedulerStep {su : ScheduleSetup ε} {s t : Schedule ε}
    (h : s.schedulerStep su = some t) : t.work < s.work := by
  unfold schedulerStep at h
  split at h
  · next path queue hw hq =>
    rw [work_dispatch h]
    simp [work, hq]
  · next hw hq =>
    split at h
    · cases h
      simp [endWave, ask, work, foldl_collect_work, hw]
    · cases h
  · next wave waves hw hv =>
    split at h
    · cases h
      simp [work, hw, hv]
      omega
    · cases h
      simp [work, hw, hv]
      omega
  · cases h

theorem workerStep_below {su : ScheduleSetup ε} {s : Schedule ε} {i : Nat} {w : Worker ε}
    (hw : s.workers[i]? = some w) (hd : w.script.isDone = false) :
    (s.workerStep su i).work = s.work ∧
      OneBelow Script.Below ((s.workerStep su i).workers.map (·.script))
        (s.workers.map (·.script)) := by
  have hm : (s.workers.map (·.script))[i]? = some w.script := by simp [hw]
  unfold workerStep
  simp only [hw]
  split <;> rename_i hs <;> rw [hs] at hm
  · simp [hs, Script.isDone, Script.report?] at hd
  all_goals
    refine ⟨rfl, ?_⟩
    simp only [List.map_set]
    exact OneBelow.set hm (by constructor)

theorem earliest_spec {ws : List (Worker ε)} {k i wake : Nat}
    (h : earliest k ws = some (i, wake)) :
    ∃ w, k ≤ i ∧ ws[i - k]? = some w ∧ w.script.isDone = false := by
  induction ws generalizing k i wake with
  | nil => simp [earliest] at h
  | cons w ws ih =>
    have later {j : Nat} {n : Nat} (hj : earliest (k + 1) ws = some (j, n)) :
        ∃ w', k ≤ j ∧ (w :: ws)[j - k]? = some w' ∧ w'.script.isDone = false := by
      obtain ⟨w', hk, hw', hd⟩ := ih hj
      refine ⟨w', by omega, ?_, hd⟩
      have : j - k = (j - (k + 1)) + 1 := by omega
      rw [this, List.getElem?_cons_succ]
      exact hw'
    unfold earliest at h
    simp only at h
    split at h
    · exact later h
    · next hd =>
      have here : ∃ w', k ≤ k ∧ (w :: ws)[k - k]? = some w' ∧ w'.script.isDone = false :=
        ⟨w, Nat.le_refl k, by simp, by simpa using hd⟩
      split at h
      · next j n hj =>
        split at h
        · cases h; exact later hj
        · cases h; exact here
      · cases h; exact here

instance : WellFoundedRelation (List (Script ε)) :=
  ⟨OneBelow Script.Below, OneBelow.wf Script.below_acc⟩

/-- What gets smaller in every step of a drive. -/
def measure (s : Schedule ε) : Nat × List (Script ε) × Nat :=
  (s.work, s.workers.map (·.script), if s.requested then 0 else 1)

/-- Follows the choices to the end. -/
def drive (su : ScheduleSetup ε) (deadline : Option Nat) (s : Schedule ε) : Schedule ε :=
  match _h : s.choose su deadline with
  | none => s
  | some c => drive su deadline (s.step su c)
termination_by s.measure
decreasing_by
  have cancels {time : Nat} (hdue : s.isDue deadline time = true) :
      (s.step su .cancel).measure.1 = s.measure.1 ∧
        (s.step su .cancel).measure.2.1 = s.measure.2.1 ∧
        (s.step su .cancel).measure.2.2 < s.measure.2.2 := by
    have hr : s.requested = false := by
      simp [isDue] at hdue
      exact hdue.1
    exact ⟨rfl, rfl, by simp [step, measure, hr]⟩
  have byCancel {time : Nat} (hdue : s.isDue deadline time = true) :
      WellFoundedRelation.rel (s.step su .cancel).measure s.measure := by
    obtain ⟨h1, h2, h3⟩ := cancels hdue
    generalize (s.step su .cancel).measure = m at h1 h2 h3
    obtain ⟨a, b, c⟩ := m
    generalize s.measure = n at h1 h2 h3
    obtain ⟨a', b', c'⟩ := n
    simp only at h1 h2 h3
    subst h1 h2
    exact .right _ (.right _ h3)
  unfold choose at _h
  split at _h
  · next hdue => cases _h; exact byCancel hdue
  · split at _h
    · next hs =>
      cases _h
      obtain ⟨t, ht⟩ := Option.isSome_iff_exists.1 hs
      have : s.step su .scheduler = t := by simp [step, ht]
      rw [this]
      exact .left _ _ (work_schedulerStep ht)
    · split at _h
      · cases _h
      · next i wake he =>
        split at _h
        · next hdue => cases _h; exact byCancel hdue
        · cases _h
          obtain ⟨w, _, hw, hd⟩ := earliest_spec he
          obtain ⟨h1, h2⟩ := @workerStep_below _ su s i w (by simpa using hw) hd
          show Prod.Lex _ (Prod.Lex _ _) (s.workerStep su i).measure s.measure
          unfold measure
          rw [h1]
          exact .right _ (.left _ _ h2)

/-- Follows choices as far as they go, and then goes on to the end. -/
def runToEnd (su : ScheduleSetup ε) (choices : List Choice) (s : Schedule ε) : Schedule ε :=
  (s.run su choices).drive su none

end Schedule

end BuildStream
