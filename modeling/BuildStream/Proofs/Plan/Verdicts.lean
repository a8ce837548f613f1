/-
# Verdicts on planned tasks

How a schedule ends is determined by its plan, without running anything.  A task that is started
ends with the verdict on the outcome of its action (`Registry.ownVerdict`), in which the words for
a lost worker are the machine's.  Whether it is started depends on the tasks that it awaits: those
that it depends on, directly or not, if the schedule goes on after failures, and otherwise all
planned tasks of earlier waves (`Plan.Awaits`).  A task is held back if some task that it awaits
would fail (`Plan.Held`), and for that no words matter.

Such a task may be held back itself.  But then something that it awaits would fail too, in an
earlier wave, so going back from wave to wave one comes upon a task that was started and failed
(`Made.exists_failed`).  Hence a task is held back exactly if a task that it awaits has failed
(`Made.held_iff`).
-/
import BuildStream.Proofs.Outcome
import BuildStream.Proofs.Plan.Layout

namespace BuildStream

open Relation

/-! ## 1. What a task would do -/

namespace Registry

/-- The verdict on a task if it is started and never told of cancellation, with the words for the
loss of its worker; there is nothing to start where no task is registered. -/
def ownVerdict (r : Registry) (lost : TaskPath → String) (path : TaskPath) : Verdict :=
  ((r.get? path).map fun task => task.action.outcome.verdict path (lost path)).getD .notRun

/-- A task that fails if it is started. -/
def Fails (r : Registry) (path : TaskPath) : Prop :=
  ∃ task, r.get? path = some task ∧ task.action.outcome.isFailed = true

/-- A task whose worker is lost if it is started, since its error cannot be rendered. -/
def Loses (r : Registry) (path : TaskPath) : Prop :=
  ∃ task, r.get? path = some task ∧ task.action.outcome = .fails .unrenderable

/-- The same is said of every worker that may be lost. -/
def LostAlike (r : Registry) (lost words : TaskPath → String) : Prop :=
  ∀ path, r.Loses path → lost path = words path

variable {r : Registry} {lost words : TaskPath → String} {path : TaskPath}

theorem ownVerdict_of_get? {task : TaskDefinition} (h : r.get? path = some task) :
    r.ownVerdict lost path = task.action.outcome.verdict path (lost path) := by
  rw [ownVerdict, h]
  rfl

/-- A task fails as it would, whatever is said of lost workers. -/
theorem isFailed_ownVerdict : (r.ownVerdict lost path).status.isFailed = true ↔ r.Fails path := by
  unfold ownVerdict Fails
  cases r.get? path with
  | none => simp [Verdict.notRun, TaskStatus.isFailed]
  | some task => simp [(ActionResult.status_verdict path (lost path) task.action.outcome).2]

/-- A registered task fails or succeeds if it is started. -/
theorem isSuccess_ownVerdict {task : TaskDefinition} (h : r.get? path = some task) :
    (r.ownVerdict lost path).status.isSuccess = false ↔ r.Fails path := by
  have hr : (r.ownVerdict lost path).status.isFailed = true ↔ r.Fails path := isFailed_ownVerdict
  obtain ⟨hs, hf⟩ := ActionResult.status_verdict path (lost path) task.action.outcome
  rw [ownVerdict_of_get? h, hf] at hr
  rw [ownVerdict_of_get? h, hs, Bool.not_eq_false', hr]

/-- Only where a worker is lost do the words for that make a difference. -/
theorem ownVerdict_congr (h : r.Loses path → lost path = words path) :
    r.ownVerdict lost path = r.ownVerdict words path := by
  unfold ownVerdict Loses at *
  cases hg : r.get? path with
  | none => rfl
  | some task =>
    have hw : task.action.outcome = .fails .unrenderable → lost path = words path :=
      fun he => h ⟨task, hg, he⟩
    show task.action.outcome.verdict path (lost path) = task.action.outcome.verdict path (words path)
    cases ho : task.action.outcome with
    | returns outcome => cases outcome <;> rfl
    | panics payload => rfl
    | fails fault =>
      cases fault with
      | error chain => rfl
      | unrenderable => rw [hw ho]

end Registry

/-! ## 2. What holds a task back -/

namespace Plan

/-- A task is not started before another has ended. -/
def Awaits (plan : Plan) (r : Registry) (continueOnError : Bool) (path other : TaskPath) : Prop :=
  if continueOnError then TransGen r.DependsOn path other
  else ∃ i j, plan.wave? other = some i ∧ plan.wave? path = some j ∧ i < j

/-- A task awaits one that would fail. -/
def Held (plan : Plan) (r : Registry) (continueOnError : Bool) (path : TaskPath) : Prop :=
  ∃ other, plan.Awaits r continueOnError path other ∧ r.Fails other

open Classical in
/-- The verdict on a planned task. -/
noncomputable def verdict (plan : Plan) (r : Registry) (lost : TaskPath → String)
    (continueOnError : Bool) (path : TaskPath) : Verdict :=
  if plan.Held r continueOnError path then .notRun else r.ownVerdict lost path

variable {plan : Plan} {r : Registry} {lost words : TaskPath → String} {continueOnError : Bool}
  {path other : TaskPath}

theorem verdict_of_held (h : plan.Held r continueOnError path) :
    plan.verdict r lost continueOnError path = .notRun :=
  if_pos h

theorem verdict_of_not_held (h : ¬ plan.Held r continueOnError path) :
    plan.verdict r lost continueOnError path = r.ownVerdict lost path :=
  if_neg h

/-- A task failed if it was not held back, and fails. -/
theorem isFailed_verdict : (plan.verdict r lost continueOnError path).status.isFailed = true ↔
    ¬ plan.Held r continueOnError path ∧ r.Fails path := by
  by_cases h : plan.Held r continueOnError path
  · simp [verdict_of_held h, h, Verdict.notRun, TaskStatus.isFailed]
  · simp [verdict_of_not_held h, h, Registry.isFailed_ownVerdict]

/-- The verdict depends on the words for lost workers only where a worker is lost. -/
theorem verdict_congr (h : r.Loses path → lost path = words path) :
    plan.verdict r lost continueOnError path = plan.verdict r words continueOnError path := by
  rw [verdict, verdict, Registry.ownVerdict_congr h]

/-- A task did not succeed if it was held back, or fails. -/
theorem isSuccess_verdict {task : TaskDefinition} (hg : r.get? path = some task) :
    (plan.verdict r lost continueOnError path).status.isSuccess = false ↔
      plan.Held r continueOnError path ∨ r.Fails path := by
  by_cases h : plan.Held r continueOnError path
  · simp [verdict_of_held h, h, Verdict.notRun, TaskStatus.isSuccess]
  · simp [verdict_of_not_held h, h, Registry.isSuccess_ownVerdict hg]

theorem verdict_eq_notRun_iff {task : TaskDefinition} (hg : r.get? path = some task) :
    (plan.verdict r lost continueOnError path).status = .notRun ↔
      plan.Held r continueOnError path := by
  refine ⟨fun hv => ?_, fun h => by rw [verdict_of_held h]; rfl⟩
  by_contra h
  have hs : (plan.verdict r lost continueOnError path).status.isSuccess = false := by rw [hv]; rfl
  have hf : (plan.verdict r lost continueOnError path).status.isFailed = true :=
    isFailed_verdict.mpr ⟨h, ((isSuccess_verdict hg).mp hs).resolve_left h⟩
  rw [hv] at hf
  exact nomatch hf

theorem Awaits.trans {last : TaskPath} (h : plan.Awaits r continueOnError path other)
    (h' : plan.Awaits r continueOnError other last) : plan.Awaits r continueOnError path last := by
  cases continueOnError with
  | true => exact TransGen.trans h h'
  | false =>
    obtain ⟨i, j, hi, hj, hij⟩ := h
    obtain ⟨k, i', hk, hi', hki⟩ := h'
    obtain rfl : i = i' := Option.some.inj (hi.symm.trans hi')
    exact ⟨k, j, hk, hj, hki.trans hij⟩

namespace Made

variable {targets : List String} {nodes : List PlanNode}

/-! ## 3. Going back from wave to wave -/

/-- What a task awaits is planned, and in an earlier wave. -/
theorem lower_of_awaits (h : Made r targets nodes plan) (hp : path ∈ plan.sorted)
    (ha : plan.Awaits r continueOnError path other) {n : Nat} (hn : r.LongestChain path n) :
    other ∈ plan.sorted ∧ ∃ m, r.LongestChain other m ∧ m < n := by
  cases continueOnError with
  | false =>
    obtain ⟨i, j, hi, hj, hij⟩ := ha
    obtain ⟨ho, hi⟩ := h.wave?_eq_some.mp hi
    obtain rfl : j = n := (h.wave?_eq_some.mp hj).2.unique hn
    exact ⟨ho, i, hi, hij⟩
  | true =>
    replace ha : TransGen r.DependsOn path other := ha
    induction ha with
    | single hd =>
      have ho := h.mem_of_dependsOn hp hd
      obtain ⟨m, hm⟩ := h.exists_longest ho
      exact ⟨ho, m, hm, hn.lt_of_dependsOn hd hm⟩
    | tail _ hd ih =>
      obtain ⟨hb, k, hk, hkn⟩ := ih
      have ho := h.mem_of_dependsOn hb hd
      obtain ⟨m, hm⟩ := h.exists_longest ho
      exact ⟨ho, m, hm, (hk.lt_of_dependsOn hd hm).trans hkn⟩

/-- A task awaits what it depends on. -/
theorem awaits_of_dependsOn (h : Made r targets nodes plan) (hp : path ∈ plan.sorted)
    (hd : r.DependsOn path other) : plan.Awaits r continueOnError path other := by
  cases continueOnError with
  | true => exact .single hd
  | false =>
    have ho := h.mem_of_dependsOn hp hd
    obtain ⟨i, hi⟩ := h.exists_longest ho
    obtain ⟨j, hj⟩ := h.exists_longest hp
    exact ⟨i, j, h.wave?_eq_some.mpr ⟨ho, hi⟩, h.wave?_eq_some.mpr ⟨hp, hj⟩,
      hj.lt_of_dependsOn hd hi⟩

/-- Where a task would fail, it was started and failed, or one that it awaits did. -/
theorem exists_failed (h : Made r targets nodes plan) (hp : path ∈ plan.sorted)
    (hf : r.Fails path) : ∃ other, (other = path ∨ plan.Awaits r continueOnError path other) ∧
      (plan.verdict r lost continueOnError other).status.isFailed = true := by
  obtain ⟨n, hn⟩ := h.exists_longest hp
  induction n using Nat.strongRecOn generalizing path with
  | _ n ih =>
    by_cases hh : plan.Held r continueOnError path
    · obtain ⟨first, ha, hff⟩ := hh
      obtain ⟨hfp, m, hm, hlt⟩ := h.lower_of_awaits hp ha hn
      obtain ⟨other, ho, hv⟩ := ih m hlt hfp hff hm
      refine ⟨other, .inr ?_, hv⟩
      rcases ho with rfl | ho
      · exact ha
      · exact ha.trans ho
    · exact ⟨path, .inl rfl, isFailed_verdict.mpr ⟨hh, hf⟩⟩

/-- **What holds a task back** is a task that it awaits, and that failed. -/
theorem held_iff (h : Made r targets nodes plan) (hp : path ∈ plan.sorted) :
    plan.Held r continueOnError path ↔ ∃ other, plan.Awaits r continueOnError path other ∧
      (plan.verdict r lost continueOnError other).status.isFailed = true := by
  constructor
  · rintro ⟨first, ha, hf⟩
    obtain ⟨n, hn⟩ := h.exists_longest hp
    obtain ⟨other, ho, hv⟩ := h.exists_failed (h.lower_of_awaits hp ha hn).1 hf
    rcases ho with rfl | ho
    · exact ⟨_, ha, hv⟩
    · exact ⟨other, ha.trans ho, hv⟩
  · rintro ⟨other, ha, hv⟩
    exact ⟨other, ha, (isFailed_verdict.mp hv).2⟩

/-- A task is held back if one that it depends on did not succeed. -/
theorem held_of_dependsOn (h : Made r targets nodes plan) (hp : path ∈ plan.sorted)
    (hd : r.DependsOn path other)
    (hs : (plan.verdict r lost continueOnError other).status.isSuccess = false) :
    plan.Held r continueOnError path := by
  have ha : plan.Awaits r continueOnError path other := h.awaits_of_dependsOn hp hd
  obtain ⟨task, hg⟩ := h.exists_task (h.mem_of_dependsOn hp hd)
  rcases (isSuccess_verdict hg).mp hs with ⟨first, ha', hf⟩ | hf
  · exact ⟨first, ha.trans ha', hf⟩
  · exact ⟨other, ha, hf⟩

/-- If a schedule goes on after failures, only dependencies hold a task back. -/
theorem not_held_of_dependencies (h : Made r targets nodes plan) (hp : path ∈ plan.sorted)
    (hs : ∀ d, r.DependsOn path d → (plan.verdict r lost true d).status.isSuccess = true) :
    ¬ plan.Held r true path := by
  rintro ⟨other, ha, hf⟩
  obtain ⟨d, hd, hl⟩ := TransGen.head'_iff.mp ha
  obtain ⟨task, hg⟩ := h.exists_task (h.mem_of_dependsOn hp hd)
  have hbad : plan.Held r true d ∨ r.Fails d := by
    rcases reflTransGen_iff_eq_or_transGen.mp hl with rfl | hl
    · exact .inr hf
    · exact .inl ⟨other, hl, hf⟩
  have hfail : (plan.verdict r lost true d).status.isSuccess = false :=
    (isSuccess_verdict hg).mpr hbad
  rw [hs d hd] at hfail
  exact nomatch hfail

end Made

end Plan

end BuildStream
