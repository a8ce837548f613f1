/-
# Handing launchables back

An engine hands out a launchable for every task and for every name of tasks.  A client hands some
of them back in a request, and then the engine reads from a JSON value what it wrote there.  The
plan is the one that the user would get by writing the path or the bare name
(`Plan.launchables_handedBack`).

* §1 Nothing is lost in the JSON value, and a path is not mistaken for a name or a name for a path
  (`LaunchTarget.decode_encode`).
* §2 What is handed out, and in which order.
* §3 A request for launchables alone is planned as the targets that they carry.
* §4 The targets of everything that is handed out are all paths, some of them several times.  The
  repetitions select nothing new, so all tasks are planned.

All paths have to be rooted.  A path that is not is a target for the tasks of some name, if it is a
target at all, and its own task need not be among them.
-/
import BuildStream.Proofs.Config.Planning
import BuildStream.Proofs.Launchable
import BuildStream.Proofs.Plan.Layout
import BuildStream.Task.Launchables

namespace BuildStream

open Registry

/-! ## 1. What a launchable carries -/

/-- **A written target is read as it was written.** -/
@[simp] theorem LaunchTarget.decode_encode (allowsList : Bool) (t : LaunchTarget) :
    LaunchTarget.decode allowsList t.encode = .ok t := by
  cases t <;> rfl

namespace Registry

variable {r : Registry}

/-- What the launchables of a registry carry. -/
def targets (r : Registry) : List LaunchTarget :=
  r.tasks.map (fun t => .task t.path) ++ r.names.map .selector

theorem carries_launchables (r : Registry) : Carries r.launchables r.targets := by
  have hmap {α : Type} {l : α → NativeLaunchable} {t : α → LaunchTarget}
      (h : ∀ a, (l a).payload = (t a).encode) (as : List α) : Carries (as.map l) (as.map t) := by
    rw [Carries, List.forall₂_map_left_iff, List.forall₂_map_right_iff]
    refine List.forall₂_same.mpr ?_
    intro a _
    rw [h, LaunchTarget.decode_encode]
  exact List.rel_append (hmap (fun _ => rfl) r.tasks) (hmap (fun _ => rfl) r.names)

/-! ## 2. Names -/

/-- The names are those that tasks have. -/
theorem mem_names {name : String} : name ∈ r.names ↔ r.named name ≠ [] := by
  rw [names, mem_distinct, paths, List.map_map, List.mem_map, named, ← List.length_pos_iff,
    List.length_filter_pos_iff]
  simp

/-- The names come in the order in which they are first seen. -/
theorem pairwise_idxOf_names (r : Registry) : r.names.Pairwise fun a b =>
    (r.paths.map TaskPath.name).idxOf a < (r.paths.map TaskPath.name).idxOf b :=
  pairwise_idxOf_distinct _

/-- Every path of the registry is rooted. -/
def Rooted (r : Registry) : Prop := ∀ path ∈ r.paths, TaskPath.isRooted path = true

theorem Rooted.addressed (h : r.Rooted) (name : String) :
    ∀ task ∈ r.named name, TaskPath.IsAddress task.path := by
  intro task ht
  exact .inl (h task.path (List.mem_map_of_mem (List.mem_filter.mp ht).1))

end Registry

/-! ## 3. Requests for launchables alone -/

/-- Any native launchables can be asked for, and then nothing else is. -/
theorem Request.setLaunchables_natives (base : Request) (ls : List NativeLaunchable) :
    base.setLaunchables (ls.map .native) = .ok { base with tasks := none, launchables := ls } := by
  have hall : ∀ l ∈ ls.map Launchable.native, l.Recognized := by
    intro l hl kind
    obtain ⟨native, -, rfl⟩ := List.mem_map.mp hl
    exact nofun
  have hpaths : (ls.map Launchable.native).flatMap (·.paths) = [] := by
    simp [List.flatMap_map, Launchable.paths]
  have hnatives : (ls.map Launchable.native).filterMap (·.native?) = ls := by
    simp [List.filterMap_map, Launchable.native?]
  rw [setLaunchables_of_resolve (Targets.resolve_of_recognized hall), hpaths, hnatives]
  rfl

namespace Plan

variable {r : Registry}

/-- Handing launchables back leads to a result: any request can be changed to ask for them and
nothing else, and planning it has the result. -/
def HandedBack (r : Registry) (ls : List NativeLaunchable) (result : Except PlanError Plan) :
    Prop :=
  ∀ base : Request, ∃ request, base.setLaunchables (ls.map .native) = .ok request ∧
    ofRequest r request = result

theorem allLaunchableTargets_of_carries {ls : List NativeLaunchable} {ts : List LaunchTarget}
    (h : Carries ls ts) : allLaunchableTargets r ls = .ok (ts.flatMap (·.targets r)) := by
  induction h with
  | nil => rfl
  | cons hd _ ih =>
    rw [allLaunchableTargets, launchableTargets_of_decode hd, ih]
    rfl

/-- **Launchables are planned as the targets that they carry.** -/
theorem handedBack_of_carries {ls : List NativeLaunchable} {ts : List LaunchTarget}
    (hne : ls ≠ []) (h : Carries ls ts) :
    HandedBack r ls (ofTargets r (ts.flatMap (·.targets r))) := by
  intro base
  refine ⟨_, base.setLaunchables_natives ls, ?_⟩
  have hs : ls.isEmpty = false := by simpa using hne
  rw [ofRequest, targetsOf, allLaunchableTargets_of_carries h]
  simp only [hs, Bool.and_false]
  rfl

/-- No launchables are planned as the default tasks. -/
theorem handedBack_nil (r : Registry) : HandedBack r [] (ofTargets r r.defaultTasks) :=
  fun base => ⟨_, base.setLaunchables_natives [], rfl⟩

/-- A name and the paths of its tasks are planned alike. -/
theorem ofTargets_named {name : String} (hr : r.Rooted) (hn : r.named name ≠ []) :
    ofTargets r ((r.named name).map (·.path)) = ofTargets r [name] := by
  have hs : select r ((r.named name).map (·.path)) = select r [name] :=
    selectFrom_named hn (hr.addressed name) []
  unfold ofTargets
  rw [hs]

/-! ## 4. All tasks -/

/-- Registered paths select themselves. -/
theorem selectFrom_paths (hr : r.Rooted) {paths : List TaskPath} (hp : ∀ path ∈ paths, path ∈ r.paths)
    (selected : List TaskPath) : selectFrom r selected paths = .ok (addAllNew selected paths) := by
  have hself : ∀ path ∈ paths, pathsOf r path = .ok [path] := by
    intro path hm
    exact pathsOf_rooted (mem_paths_iff.mp (hp path hm)) (hr path (hp path hm))
  have hcut : paths = [] ++ paths := rfl
  exact selectFrom_rest hcut (fun _ h => nomatch h) fun path hm => .inl (hself path hm)

/-- What all launchables carry is planned as all paths. -/
theorem ofTargets_targets (hr : r.Rooted) :
    ofTargets r (r.targets.flatMap (·.targets r)) = ofTargets r r.paths := by
  have hsplit : r.targets.flatMap (·.targets r) =
      r.paths ++ r.names.flatMap fun name => (r.named name).map (·.path) := by
    rw [Registry.targets, List.flatMap_append, List.flatMap_map, List.flatMap_map]
    exact congrArg (· ++ _) (List.map_eq_flatMap ..).symm
  have hmore : ∀ path ∈ r.names.flatMap fun name => (r.named name).map (·.path),
      path ∈ r.paths := by
    intro path hm
    obtain ⟨name, -, hm⟩ := List.mem_flatMap.mp hm
    obtain ⟨task, ht, rfl⟩ := List.mem_map.mp hm
    exact List.mem_map_of_mem (List.mem_filter.mp ht).1
  have hs : select r (r.targets.flatMap (·.targets r)) = select r r.paths := by
    rw [hsplit, select, select, selectFrom_append, selectFrom_paths hr (fun _ h => h), Except.bind,
      selectFrom_paths hr hmore, addAllNew_of_subset]
    intro path hm
    exact mem_addAllNew.mpr (.inr (hmore path hm))
  unfold ofTargets
  rw [hs]

theorem selects_self (hr : r.Rooted) {path : TaskPath} (hp : path ∈ r.paths) :
    r.Selects path path :=
  ⟨mem_paths_iff.mp hp, by rw [if_pos (hr path hp)]⟩

theorem reachable_of_mem_paths (hr : r.Rooted) {path : TaskPath} (hp : path ∈ r.paths) :
    r.Reachable r.paths path :=
  ⟨path, hp, path, selects_self hr hp, .refl⟩

/-- A plan of all paths has every task once. -/
theorem perm_paths (hr : r.Rooted) {plan : Plan} (h : ofTargets r r.paths = .ok plan) :
    plan.sorted.Perm r.paths := by
  obtain ⟨nodes, hm⟩ := exists_made h
  refine (List.perm_ext_iff_of_nodup hm.taken.nodup r.nodup_paths).mpr ?_
  intro path
  constructor
  · intro hp
    exact mem_paths_iff.mpr (contains_iff.mpr (hm.exists_task hp))
  · intro hp
    exact (hm.all path).mpr (reachable_of_mem_paths hr hp)

/-- All paths can be planned if every dependency is registered and there is no cycle. -/
theorem exists_plan_paths_iff (hr : r.Rooted) :
    (∃ plan, ofTargets r r.paths = .ok plan) ↔ r.Closed ∧ ∀ path, ¬ r.OnCycle path := by
  have hreach {path d : TaskPath} (hd : r.DependsOn path d) : r.Reachable r.paths path := by
    obtain ⟨task, hg, -⟩ := hd
    exact reachable_of_mem_paths hr (mem_paths_iff.mpr (contains_iff.mpr ⟨task, hg⟩))
  have hmissing : ¬ SomeMissing r r.paths := by
    rintro ⟨path, hp, hn⟩
    exact hn ⟨path, selects_self hr hp⟩
  have hclosed : ¬ SomeDangling r r.paths ↔ r.Closed := by
    constructor
    · intro h path d hd
      by_contra hc
      exact h ⟨path, d, hreach hd, hd, by simpa using hc⟩
    · rintro h ⟨path, d, -, hd, hc⟩
      exact nomatch hc.symm.trans (h path d hd)
  have hcycle : ¬ SomeCycle r r.paths ↔ ∀ path, ¬ r.OnCycle path := by
    constructor
    · intro h path hp
      obtain ⟨d, hd, -⟩ := Relation.TransGen.head'_iff.mp hp
      exact h ⟨path, hreach hd, hp⟩
    · rintro h ⟨path, -, hp⟩
      exact h path hp
  rw [← hclosed, ← hcycle]
  rcases ofTargets_cases r r.paths with
    ⟨target, ho, before, after, he, -, hn⟩ | ⟨path, d, ho, -, hd⟩ | ⟨paths, ho, -, -, hc, -⟩ |
    ⟨nodes, plan, ho, -, hd, hc, -⟩ <;> rw [ho]
  · exact absurd ⟨target, by simp [he], hn⟩ hmissing
  · simp [show SomeDangling r r.paths from ⟨path, d, hd⟩]
  · simp [hc]
  · simp [hd, hc]

/-- **Launchables come back as what they were made for.**

A registry hands out a launchable for each task, in the order of declaration, and then one for each
name that tasks have, in the order in which the names are first seen.  One of them alone, handed
back in a request, is planned as the path of its task, or as its bare name, which is as good as the
paths of all tasks with that name.  All of them together are planned as all paths, so that a plan
has every task; there is one if every dependency is registered and there is no cycle.  A registry
without tasks hands nothing out, and asking for nothing is asking for the default tasks. -/
theorem launchables_handedBack (r : Registry) (hr : r.Rooted) :
    -- what is handed out
    Carries r.launchables (r.tasks.map (fun t => .task t.path) ++ r.names.map .selector) ∧
    (∀ name, name ∈ r.names ↔ ∃ task ∈ r.tasks, TaskPath.name task.path = name) ∧
    r.names.Nodup ∧ (r.names.Pairwise fun a b =>
      (r.paths.map TaskPath.name).idxOf a < (r.paths.map TaskPath.name).idxOf b) ∧
    -- one launchable, handed back
    (∀ task ∈ r.tasks, HandedBack r [taskLaunchable task] (ofTargets r [task.path])) ∧
    (∀ name ∈ r.names, HandedBack r [nameLaunchable name] (ofTargets r [name]) ∧
      HandedBack r [nameLaunchable name] (ofTargets r ((r.named name).map (·.path)))) ∧
    -- all of them
    HandedBack r r.launchables
      (ofTargets r (if r.tasks = [] then r.defaultTasks else r.paths)) ∧
    (∀ plan, ofTargets r r.paths = .ok plan → plan.sorted.Perm r.paths) ∧
    ((∃ plan, ofTargets r r.paths = .ok plan) ↔ r.Closed ∧ ∀ path, ¬ r.OnCycle path) := by
  have hone (l : NativeLaunchable) (t : LaunchTarget) (h : l.payload = t.encode) :
      HandedBack r [l] (ofTargets r (t.targets r)) := by
    have hc : Carries [l] [t] := .cons (by rw [h, LaunchTarget.decode_encode]) .nil
    simpa using handedBack_of_carries (r := r) (by simp) hc
  refine ⟨carries_launchables r, ?_, nodup_distinct _, pairwise_idxOf_names r, ?_, ?_, ?_,
    fun plan => perm_paths hr, exists_plan_paths_iff hr⟩
  · intro name
    simp [mem_names, named]
  · exact fun task _ => hone (taskLaunchable task) (.task task.path) rfl
  · intro name hm
    have hpaths := hone (nameLaunchable name) (.selector name) rfl
    exact ⟨ofTargets_named hr (mem_names.mp hm) ▸ hpaths, hpaths⟩
  · split
    · next hn =>
      have hnone : r.launchables = [] := by simp [launchables, names, paths, hn, distinct, addAllNew]
      exact hnone ▸ handedBack_nil r
    · next hn =>
      rw [← ofTargets_targets hr]
      refine handedBack_of_carries ?_ (carries_launchables r)
      simp [launchables, hn]

/-! ### Two projects -/

/-- Two projects that are built, one after the other, and one of them checked. -/
def projects : Registry := .ofTasks
  [{ path := ":app:build", dependsOn := [":lib:build"] }, { path := ":lib:check" },
    { path := ":lib:build" }] []

theorem handedBack_projects : projects.Rooted ∧ projects.names = ["build", "check"] ∧
    HandedBack projects [taskLaunchable { path := ":lib:build" }]
      (.ok ⟨[⟨":lib:build", [], 0⟩], [":lib:build"], [[":lib:build"]]⟩) ∧
    HandedBack projects [nameLaunchable "build"]
      (.ok ⟨[⟨":app:build", [":lib:build"], 1⟩, ⟨":lib:build", [], 0⟩],
        [":lib:build", ":app:build"], [[":lib:build"], [":app:build"]]⟩) ∧
    HandedBack projects projects.launchables
      (.ok ⟨[⟨":app:build", [":lib:build"], 1⟩, ⟨":lib:check", [], 0⟩, ⟨":lib:build", [], 0⟩],
        [":lib:check", ":lib:build", ":app:build"],
        [[":lib:check", ":lib:build"], [":app:build"]]⟩) := by
  have hr : projects.Rooted := by
    unfold Rooted
    decide
  obtain ⟨-, -, -, -, htask, hname, hall, -⟩ := launchables_handedBack projects hr
  have hbuild : { path := ":lib:build" } ∈ projects.tasks := .tail _ (.tail _ (.head _))
  exact ⟨hr, rfl, htask _ hbuild, (hname "build" (.head _)).1, hall⟩

end Plan

end BuildStream
