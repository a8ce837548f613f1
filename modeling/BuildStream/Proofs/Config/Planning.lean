/-
# Planning what was validated

Validation reads the declared paths of a workspace, planning the tasks of a registry.  For a
well-formed workspace the two are the same: no declaration replaces another, so the registry has
one task for each declared path, in the order of declaration (`Workspace.registry_tasks`).

Then nothing that validation let through is missing when it is planned.  Every dependency is
registered, so no plan fails at an unknown one, and a target is known to validation exactly if it
selects some task, and so exactly if the planner does not refuse it
(`Config.planning_of_validate`).
-/
import BuildStream.Engine
import BuildStream.Proofs.Config.Validation
import BuildStream.Proofs.Plan.Request

namespace BuildStream

open Registry

/-! ## 1. Registering what is declared -/

namespace Registry

theorem place_of_notMem {task : TaskDefinition} {ts : List TaskDefinition}
    (h : task.path ∉ ts.map (·.path)) : place task ts = ts ++ [task] := by
  induction ts with
  | nil => rfl
  | cons t ts ih =>
    obtain ⟨ht, hts⟩ : task.path ≠ t.path ∧ task.path ∉ ts.map (·.path) := by
      simpa [not_or] using h
    rw [place, if_neg (Ne.symm ht), ih hts, List.cons_append]

/-- Tasks with new and different paths are registered at the end, in order. -/
theorem tasks_foldl_register {r : Registry} {tasks : List TaskDefinition}
    (h : ((r.tasks ++ tasks).map (·.path)).Nodup) :
    (tasks.foldl register r).tasks = r.tasks ++ tasks := by
  induction tasks generalizing r with
  | nil => simp
  | cons task tasks ih =>
    have hnew : task.path ∉ r.tasks.map (·.path) := by
      rw [List.map_append, List.map_cons, List.nodup_append] at h
      exact fun hm => h.2.2 _ hm _ (by simp) rfl
    have hr : (r.register task).tasks = r.tasks ++ [task] := place_of_notMem hnew
    have hs : (r.register task).tasks ++ tasks = r.tasks ++ task :: tasks := by simp [hr]
    rw [List.foldl_cons, ih (by rw [hs]; exact h), hs]

/-- Every path that a task depends on is registered. -/
def Closed (r : Registry) : Prop := ∀ path d, r.DependsOn path d → r.contains d = true

end Registry

namespace Workspace

variable {w : Workspace}

/-- **The registry of a well-formed workspace** has its tasks, in the order of declaration. -/
theorem registry_tasks (h : w.WellFormed) :
    w.registry.tasks = w.tasks.map TaskConfig.definition := by
  have hn := h.nodup
  refine (tasks_foldl_register (r := {}) ?_).trans (List.nil_append _)
  rw [List.nil_append, List.map_map]
  exact hn

theorem contains_registry (h : w.WellFormed) {path : TaskPath} :
    w.registry.contains path = true ↔ path ∈ Config.declaredPaths w := by
  rw [← mem_paths_iff, paths, registry_tasks h, List.map_map]
  rfl

theorem closed_registry (h : w.WellFormed) : w.registry.Closed := by
  rintro path d ⟨task, hg, hd⟩
  have hm : task ∈ w.tasks.map TaskConfig.definition :=
    registry_tasks h ▸ List.mem_of_find?_eq_some hg
  obtain ⟨t, ht, rfl⟩ := List.mem_map.mp hm
  exact (contains_registry h).mpr (h.dependencies t ht d hd)

/-- **The two sides agree** on what a target stands for. -/
theorem resolves_iff (h : w.WellFormed) {target : String} :
    w.registry.Resolves target ↔ Config.isKnownTarget (Config.declaredPaths w) target = true := by
  simp only [Registry.Resolves, Registry.Selects, contains_registry h, Config.isKnownTarget_iff]

end Workspace

/-! ## 2. What cannot go wrong -/

namespace Plan

variable {r : Registry}

/-- Where dependencies are registered, none is unknown to a plan. -/
theorem ofTargets_ne_unknown (h : r.Closed) (targets : List String) (path d : TaskPath) :
    ofTargets r targets ≠ .error (.unknownDependency path d) := by
  intro he
  rcases ofTargets_cases r targets with
    ⟨target, ho, -⟩ | ⟨p, dep, -, -, hd⟩ | ⟨paths, ho, -⟩ | ⟨plan, nodes, ho, -⟩
  · exact nomatch ho.symm.trans he
  · exact nomatch hd.2.2.symm.trans (h _ _ hd.2.1)
  · exact nomatch ho.symm.trans he
  · exact nomatch ho.symm.trans he

/-- Where, besides, all targets have tasks, only a cycle is in the way of a plan. -/
theorem ofTargets_plan_or_cyclic (h : r.Closed) {targets : List String}
    (ht : ∀ target ∈ targets, r.Resolves target) :
    (∃ plan, ofTargets r targets = .ok plan) ∨
      ∃ paths, ofTargets r targets = .error (.cyclic paths) := by
  rcases ofTargets_cases r targets with
    ⟨target, -, before, after, rfl, -, hn⟩ | ⟨p, dep, ho, -⟩ | ⟨paths, ho, -⟩ | ⟨nodes, plan, ho, -⟩
  · exact absurd (ht target (by simp)) hn
  · exact absurd ho (ofTargets_ne_unknown h targets p dep)
  · exact .inr ⟨paths, ho⟩
  · exact .inl ⟨plan, ho⟩

/-- Planned alone, a target is refused exactly if it selects nothing. -/
theorem ofTargets_alone (h : r.Closed) (target : String) :
    r.Resolves target ∧ ((∃ plan, ofTargets r [target] = .ok plan) ∨
      ∃ paths, ofTargets r [target] = .error (.cyclic paths)) ∨
    ¬ r.Resolves target ∧ ofTargets r [target] = .error (.taskNotFound target) := by
  by_cases hr : r.Resolves target
  · refine .inl ⟨hr, ofTargets_plan_or_cyclic h fun t ht => ?_⟩
    rwa [List.mem_singleton.mp ht]
  · have hm : SomeMissing r [target] := ⟨target, List.mem_singleton_self _, hr⟩
    rcases ofTargets_cases r [target] with ⟨missing, he, before, after, hcut, -, -⟩ |
      ⟨_, _, -, hn, -⟩ | ⟨_, -, hn, -⟩ | ⟨_, _, -, hn, -⟩
    · have hmem : missing ∈ [target] := hcut ▸ by simp
      exact .inr ⟨hr, List.mem_singleton.mp hmem ▸ he⟩
    all_goals exact absurd hm hn

theorem ofRequest_ne_unknown (h : r.Closed) (request : Request) (path d : TaskPath) :
    ofRequest r request ≠ .error (.unknownDependency path d) := by
  rcases ofRequest_cases r request with ⟨ts, -, ho⟩ | ⟨l, -, reason, -, ho⟩ <;> rw [ho]
  · exact ofTargets_ne_unknown h _ path d
  · exact fun he => nomatch he

/-- A request that names nothing is planned as the default tasks, or as nothing at all where its
list of tasks is there and empty. -/
theorem ofRequest_of_unnamed {request : Request} (ht : request.tasks.getD [] = [])
    (hl : request.launchables = []) :
    ofRequest r request = ofTargets r r.defaultTasks ∨ ofRequest r request = ofTargets r [] := by
  rw [ofRequest, hl, targetsOf_of_tasks]
  cases hs : request.tasks with
  | none => exact .inl rfl
  | some tasks =>
    obtain rfl : tasks = [] := by simpa [hs] using ht
    exact .inr rfl

end Plan

namespace Config

/-- **What validation accepts can be planned.**

The engine of an accepted configuration finds no unknown dependency, whatever is requested; for a
request that names nothing it makes a plan unless tasks wait for each other; and the targets known
to validation are those that select some task, and those that the planner, given one of them alone,
does not refuse as a task that is not found. -/
theorem planning_of_validate {fs : Files} {c : Config} (rt : Runtime)
    (h : validate fs c = .ok ()) :
    let r := (Engine.ofConfig rt c).registry
    (∀ request path d, Plan.ofRequest r request ≠ .error (.unknownDependency path d)) ∧
    (∀ request : Request, request.tasks.getD [] = [] → request.launchables = [] →
      (∃ plan, Plan.ofRequest r request = .ok plan) ∨
        ∃ paths, Plan.ofRequest r request = .error (.cyclic paths)) ∧
    ∀ target, (isKnownTarget (declaredPaths c.workspace) target = true ↔ r.Resolves target) ∧
      (isKnownTarget (declaredPaths c.workspace) target = true ↔
        (∃ plan, Plan.ofTargets r [target] = .ok plan) ∨
          ∃ paths, Plan.ofTargets r [target] = .error (.cyclic paths)) ∧
      (isKnownTarget (declaredPaths c.workspace) target = false ↔
        Plan.ofTargets r [target] = .error (.taskNotFound target)) := by
  have hw : c.workspace.WellFormed := (validate_eq_ok.mp h).2.2
  have hc : (Engine.ofConfig rt c).registry.Closed := Workspace.closed_registry hw
  have hk (target : String) : isKnownTarget (declaredPaths c.workspace) target = true ↔
      (Engine.ofConfig rt c).registry.Resolves target := (Workspace.resolves_iff hw).symm
  refine ⟨Plan.ofRequest_ne_unknown hc, fun request ht hl => ?_, fun target => ⟨hk target, ?_⟩⟩
  · rcases Plan.ofRequest_of_unnamed ht hl with ho | ho <;> rw [ho]
    · exact Plan.ofTargets_plan_or_cyclic hc fun target hm => (hk target).mp (hw.defaults target hm)
    · exact Plan.ofTargets_plan_or_cyclic hc fun target hm => nomatch hm
  · rw [← Bool.not_eq_true, hk]
    rcases Plan.ofTargets_alone hc target with ⟨hr, hp⟩ | ⟨hr, he⟩
    · refine ⟨iff_of_true hr hp, iff_of_false (not_not_intro hr) fun he => ?_⟩
      rcases hp with ⟨plan, hp⟩ | ⟨paths, hp⟩ <;> exact nomatch hp.symm.trans he
    · refine ⟨iff_of_false hr ?_, iff_of_true hr he⟩
      rintro (⟨plan, hp⟩ | ⟨paths, hp⟩) <;> exact nomatch hp.symm.trans he

/-- A workspace whose default task is a bare name. -/
def sample : Config where
  workspace :=
    { defaultTasks := ["compile"]
      tasks := [{ path := ":lib:compile" }, { path := ":app:compile", dependsOn := [":lib:compile"] }] }

/-- A machine of which nothing is known. -/
def unknownMachine : Runtime where
  parallelism := none
  lost := fun _ => "task 1 panicked"

/-- The default task of the sample is known to validation, and it is two tasks to the engine. -/
theorem planning_sample :
    let r := (Engine.ofConfig unknownMachine sample).registry
    validate .empty sample = .ok () ∧ isKnownTarget (declaredPaths sample.workspace) "compile" = true ∧
      r.Resolves "compile" ∧
      ((∃ plan, Plan.ofRequest r {} = .ok plan) ∨
        ∃ paths, Plan.ofRequest r {} = .error (.cyclic paths)) ∧
      Plan.ofTargets r ["lib"] = .error (.taskNotFound "lib") := by
  have hv : validate .empty sample = .ok () := rfl
  have hk : isKnownTarget (declaredPaths sample.workspace) "compile" = true := rfl
  obtain ⟨-, hp, ht⟩ := planning_of_validate unknownMachine hv
  exact ⟨hv, hk, (ht "compile").1.mp hk, hp {} rfl rfl, (ht "lib").2.2.mp rfl⟩

end Config

end BuildStream
