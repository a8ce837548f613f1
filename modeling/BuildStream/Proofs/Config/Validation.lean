/-
# What a valid configuration is

A configuration is accepted exactly if its Java home is a directory, its concurrency is not zero,
and its workspace is well-formed: the declared paths are rooted and different, and neither a
dependency nor a default task leads nowhere (`Config.validate_eq_ok`).  Each part is what one list
of violations being empty says.

What validation takes for a known target is read off the declared paths (`Config.isKnownTarget_iff`).
-/
import BuildStream.Config.Validation
import BuildStream.Proofs.TaskPath

namespace BuildStream

/-- A workspace without references that lead nowhere. -/
structure Workspace.WellFormed (w : Workspace) : Prop where
  rooted : ∀ path ∈ Config.declaredPaths w, TaskPath.isRooted path = true
  nodup : (Config.declaredPaths w).Nodup
  dependencies : ∀ task ∈ w.tasks, ∀ d ∈ task.dependsOn, d ∈ Config.declaredPaths w
  defaults : ∀ target ∈ w.defaultTasks, Config.isKnownTarget (Config.declaredPaths w) target = true

namespace Config

variable {declared : List TaskPath}

/-! ## 1. Each list of violations -/

theorem javaHomeViolations_eq_nil {fs : Files} {build : BuildDefaults} :
    javaHomeViolations fs build = [] ↔ ∀ home ∈ build.javaHome, fs.isDirectory home = true := by
  unfold javaHomeViolations
  cases build.javaHome with
  | none => simp
  | some home => simp

theorem concurrencyViolations_eq_nil {build : BuildDefaults} :
    concurrencyViolations build = [] ↔ build.concurrency ≠ some 0 := by
  simp [concurrencyViolations]

theorem pathViolations_eq_nil {index : Nat} {path : TaskPath} :
    pathViolations declared index path = [] ↔
      TaskPath.isRooted path = true ∧ path ∉ declared := by
  unfold pathViolations
  cases TaskPath.isRooted path with
  | false => simp
  | true => simp

theorem allPathViolations_eq_nil {index : Nat} {paths : List TaskPath} :
    allPathViolations declared index paths = [] ↔
      (∀ path ∈ paths, TaskPath.isRooted path = true) ∧ paths.Nodup ∧
        ∀ path ∈ paths, path ∉ declared := by
  induction paths generalizing declared index with
  | nil => simp [allPathViolations]
  | cons path paths ih =>
    rw [allPathViolations, List.append_eq_nil_iff, pathViolations_eq_nil, ih, List.nodup_cons]
    simp only [List.forall_mem_cons, List.mem_append, List.mem_singleton, not_or]
    constructor
    · rintro ⟨⟨hr, hd⟩, hrs, hn, hds⟩
      exact ⟨⟨hr, hrs⟩, ⟨fun hp => (hds path hp).2 rfl, hn⟩, hd, fun p hp => (hds p hp).1⟩
    · rintro ⟨⟨hr, hrs⟩, ⟨hp, hn⟩, hd, hds⟩
      refine ⟨⟨hr, hd⟩, hrs, hn, fun p hm => ⟨hds p hm, ?_⟩⟩
      rintro rfl
      exact hp hm

theorem dependencyViolations_eq_nil {index : Nat} {tasks : List TaskConfig} :
    dependencyViolations declared index tasks = [] ↔
      ∀ task ∈ tasks, ∀ d ∈ task.dependsOn, d ∈ declared := by
  induction tasks generalizing index with
  | nil => simp [dependencyViolations]
  | cons task tasks ih =>
    rw [dependencyViolations, List.append_eq_nil_iff, ih, List.forall_mem_cons, List.map_eq_nil_iff]
    simp

theorem defaultTaskViolations_eq_nil {targets : List String} :
    defaultTaskViolations declared targets = [] ↔
      ∀ target ∈ targets, isKnownTarget declared target = true := by
  simp [defaultTaskViolations]

/-! ## 2. The whole -/

/-- **Validation** accepts exactly the configurations with nothing wrong. -/
theorem validate_eq_ok {fs : Files} {c : Config} :
    validate fs c = .ok () ↔ (∀ home ∈ c.build.javaHome, fs.isDirectory home = true) ∧
      c.build.concurrency ≠ some 0 ∧ c.workspace.WellFormed := by
  have hv : validate fs c = .ok () ↔ violations fs c = [] := by
    unfold validate
    cases violations fs c <;> simp
  rw [hv]
  simp only [violations, List.append_eq_nil_iff, javaHomeViolations_eq_nil,
    concurrencyViolations_eq_nil, allPathViolations_eq_nil, dependencyViolations_eq_nil,
    defaultTaskViolations_eq_nil]
  constructor
  · rintro ⟨⟨⟨⟨hj, hc⟩, hr, hn, -⟩, hd⟩, ht⟩
    exact ⟨hj, hc, hr, hn, hd, ht⟩
  · rintro ⟨hj, hc, hr, hn, hd, ht⟩
    exact ⟨⟨⟨⟨hj, hc⟩, hr, hn, fun path _ => List.not_mem_nil⟩, hd⟩, ht⟩

/-- A known target is a declared path, or the name of a task with a declared path. -/
theorem isKnownTarget_iff {target : String} :
    isKnownTarget declared target = true ↔
      ∃ path ∈ declared,
        if TaskPath.isRooted target then path = target else TaskPath.name path = target := by
  unfold isKnownTarget
  split
  · simp
  · simp [TaskPath.lastSegment_eq_name]

end Config

end BuildStream
