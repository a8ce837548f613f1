/-
# What the launchables of a request add to its plan

A native launchable stands for one target or for the paths of all tasks of a name, and the paths
are targets in their turn.  So a name is looked up by two programs: by the one that reads
launchables, and by the one that selects what a bare name stands for.

Where both find tasks that can be addressed, they agree: the paths select what the name selects, in
the same order (`Plan.selectFrom_named`).  They differ in two cases.

* **No task has the name.**  The bare name is refused, while the launchable stands for no target
  and is passed over, as if the request did not have it.
* **A task with the name cannot be addressed**, since its path has a colon but does not start with
  one.  The bare name selects it, while its path is refused.

What holds of every request is `Plan.ofRequest_contributes`: what is left of it without the
launchables of the first case is planned as written, and each of its targets adds to the plan.
-/
import BuildStream.Engine
import BuildStream.Proofs.Plan.Errors
import BuildStream.Proofs.TaskPath

namespace BuildStream

open Registry

namespace LaunchTarget

/-- The target that a user would write for it: a path, or a bare name. -/
def word : LaunchTarget → String
  | task path => path
  | selector name => name

/-- The targets that it is taken for: a path, or the paths of all tasks of a name. -/
def targets (r : Registry) : LaunchTarget → List String
  | task path => [path]
  | selector name => (r.named name).map (·.path)

/-- Whether it stands for some target. -/
def isLive (r : Registry) (t : LaunchTarget) : Bool := !(t.targets r).isEmpty

end LaunchTarget

/-- A path that selects its own task: it is rooted, or nothing but a name. -/
def TaskPath.IsAddress (path : TaskPath) : Prop :=
  TaskPath.isRooted path = true ∨ TaskPath.name path = path

/-- Every task that a target stands for by its name has a path that selects it. -/
def LaunchTarget.Addressed (r : Registry) : LaunchTarget → Prop
  | task _ => True
  | selector name => ∀ task ∈ r.named name, TaskPath.IsAddress task.path

/-- Native launchables carry these targets. -/
def Carries (natives : List NativeLaunchable) (ts : List LaunchTarget) : Prop :=
  List.Forall₂ (fun l t => LaunchTarget.decode false l.payload = .ok t) natives ts

namespace Plan

variable {r : Registry}

/-! ## 1. What launchables carry -/

theorem launchableTargets_of_decode {l : NativeLaunchable} {t : LaunchTarget}
    (h : LaunchTarget.decode false l.payload = .ok t) : launchableTargets r l = .ok (t.targets r) := by
  unfold launchableTargets
  rw [h]
  cases t <;> rfl

/-- **Reading launchables** finds what all of them carry, or fails at one that carries nothing. -/
theorem allLaunchableTargets_cases (r : Registry) (natives : List NativeLaunchable) :
    (∃ ts, Carries natives ts ∧
      allLaunchableTargets r natives = .ok (ts.flatMap (·.targets r))) ∨
    ∃ l ∈ natives, ∃ reason, LaunchTarget.decode false l.payload = .error reason ∧
      allLaunchableTargets r natives = .error (.invalidLaunchable l.displayName reason) := by
  induction natives with
  | nil => exact .inl ⟨[], .nil, rfl⟩
  | cons l natives ih =>
    unfold allLaunchableTargets
    cases hd : LaunchTarget.decode false l.payload with
    | error reason =>
      refine .inr ⟨l, List.mem_cons_self, reason, hd, ?_⟩
      rw [launchableTargets, hd]
    | ok t =>
      rw [launchableTargets_of_decode hd]
      rcases ih with ⟨ts, hc, ha⟩ | ⟨bad, hb, reason, he, ha⟩
      · exact .inl ⟨t :: ts, .cons hd hc, by rw [ha]; rfl⟩
      · exact .inr ⟨bad, List.mem_cons_of_mem _ hb, reason, he, by rw [ha]; rfl⟩

/-- The targets of a request that carries some targets in its launchables. -/
def expanded (r : Registry) (request : Request) (ts : List LaunchTarget) : List String :=
  if request.tasks = none ∧ request.launchables = [] then r.defaultTasks
  else request.tasks.getD [] ++ ts.flatMap (·.targets r)

/-- What a request names, without what stands for no target. -/
def asked (r : Registry) (request : Request) (ts : List LaunchTarget) : List String :=
  if request.tasks = none ∧ request.launchables = [] then r.defaultTasks
  else request.tasks.getD [] ++ (ts.filter (·.isLive r)).map (·.word)

/-- The plan of a request is that of its targets, unless some launchable carries nothing. -/
theorem ofRequest_cases (r : Registry) (request : Request) :
    (∃ ts, Carries request.launchables ts ∧
      ofRequest r request = ofTargets r (expanded r request ts)) ∨
    ∃ l ∈ request.launchables, ∃ reason, LaunchTarget.decode false l.payload = .error reason ∧
      ofRequest r request = .error (.invalidLaunchable l.displayName reason) := by
  unfold ofRequest targetsOf expanded
  rcases allLaunchableTargets_cases r request.launchables with
    ⟨ts, hc, ha⟩ | ⟨l, hl, reason, hd, ha⟩
  · refine .inl ⟨ts, hc, ?_⟩
    rw [ha]
    cases request.tasks with
    | none => cases request.launchables <;> rfl
    | some tasks => rfl
  · refine .inr ⟨l, hl, reason, hd, ?_⟩
    have hne : request.launchables ≠ [] := List.ne_nil_of_mem hl
    rw [ha, if_neg (by simp [hne])]
    rfl

/-! ## 2. Paths and their name -/

theorem selectFrom_append (selected : List TaskPath) (targets others : List String) :
    selectFrom r selected (targets ++ others) =
      (selectFrom r selected targets).bind fun all => selectFrom r all others := by
  induction targets generalizing selected with
  | nil => rfl
  | cons target targets ih =>
    rw [List.cons_append, selectFrom, selectFrom]
    cases pathsOf r target with
    | error e => rfl
    | ok paths => exact ih (addAllNew selected paths)

/-- A bare name selects the tasks that have it. -/
theorem pathsOf_name {task : TaskDefinition} {name : String} (h : task ∈ r.named name) :
    pathsOf r name = .ok ((r.named name).map (·.path)) := by
  have hn : TaskPath.name task.path = name := by simpa using (List.mem_filter.mp h).2
  have hr : TaskPath.isRooted name = false := hn ▸ TaskPath.isRooted_name task.path
  have hne : ((r.named name).map (·.path)).isEmpty = false := by
    simpa using List.ne_nil_of_mem h
  simp [pathsOf, hr, hne]

/-- A rooted path selects its own task. -/
theorem pathsOf_rooted {path : TaskPath} (hc : r.contains path = true)
    (hr : TaskPath.isRooted path = true) : pathsOf r path = .ok [path] := by
  obtain ⟨task, hg⟩ := contains_iff.mp hc
  simp [pathsOf, hr, hg, path_of_get? hg]

/-- The path of a task with a name selects the task, or all tasks of the name. -/
theorem pathsOf_path {task : TaskDefinition} {name : String} (h : task ∈ r.named name)
    (ha : TaskPath.IsAddress task.path) :
    pathsOf r task.path = .ok [task.path] ∨
      pathsOf r task.path = .ok ((r.named name).map (·.path)) := by
  obtain ⟨hm, hn⟩ := List.mem_filter.mp h
  have hn : TaskPath.name task.path = name := by simpa using hn
  rcases ha with hr | hp
  · exact .inl (pathsOf_rooted (mem_paths_iff.mp (List.mem_map_of_mem hm)) hr)
  · have hpath : task.path = name := hp.symm.trans hn
    rw [hpath]
    exact .inr (pathsOf_name h)

/-- Where each target selects itself, or all of some paths, and the targets are the rest of these
paths, selection adds the rest. -/
theorem selectFrom_rest {paths before rest selected : List TaskPath} (hp : paths = before ++ rest)
    (hb : ∀ path ∈ before, path ∈ selected)
    (hr : ∀ path ∈ rest, pathsOf r path = .ok [path] ∨ pathsOf r path = .ok paths) :
    selectFrom r selected rest = .ok (addAllNew selected rest) := by
  induction rest generalizing before selected with
  | nil => rfl
  | cons path rest ih =>
    have hrest : ∀ p ∈ rest, pathsOf r p = .ok [p] ∨ pathsOf r p = .ok paths :=
      fun p hm => hr p (List.mem_cons_of_mem _ hm)
    have hp' : paths = (before ++ [path]) ++ rest := by simpa using hp
    unfold selectFrom
    rcases hr path List.mem_cons_self with ho | ho <;> rw [ho]
    · refine ih hp' ?_ hrest
      intro p hm
      rcases List.mem_append.mp hm with hm | hm
      · exact mem_addAllNew.mpr (.inl (hb p hm))
      · exact mem_addAllNew.mpr (.inr hm)
    · have hall : addAllNew selected paths = addAllNew selected (path :: rest) := by
        rw [hp, addAllNew_append, addAllNew_of_subset hb]
      have hknown : ∀ p ∈ paths, p ∈ addAllNew selected paths :=
        fun p hm => mem_addAllNew.mpr (.inr hm)
      have hstep := ih hp' (fun p hm => hknown p (hp' ▸ List.mem_append_left _ hm)) hrest
      rw [addAllNew_of_subset fun p hm => hknown p (hp' ▸ List.mem_append_right _ hm)] at hstep
      exact hstep.trans (by rw [hall])

/-- **The two programs agree** on a name whose tasks can all be addressed: their paths select what
the name selects, in the same order. -/
theorem selectFrom_named {name : String} (hne : r.named name ≠ [])
    (ha : ∀ task ∈ r.named name, TaskPath.IsAddress task.path) (selected : List TaskPath) :
    selectFrom r selected ((r.named name).map (·.path)) = selectFrom r selected [name] := by
  obtain ⟨task, hm⟩ := List.exists_mem_of_ne_nil _ hne
  have hself : ∀ path ∈ (r.named name).map (·.path),
      pathsOf r path = .ok [path] ∨ pathsOf r path = .ok ((r.named name).map (·.path)) := by
    intro path hp
    obtain ⟨t, ht, rfl⟩ := List.mem_map.mp hp
    exact pathsOf_path ht (ha t ht)
  have hcut : (r.named name).map (·.path) = [] ++ (r.named name).map (·.path) := rfl
  rw [selectFrom_rest hcut (fun _ h => nomatch h) hself, selectFrom, pathsOf_name hm]
  rfl

/-- The path of a task that cannot be addressed selects nothing. -/
theorem not_resolves_of_not_isAddress {path : TaskPath} (h : ¬ TaskPath.IsAddress path) :
    ¬ r.Resolves path := by
  rintro ⟨other, -, hs⟩
  unfold TaskPath.IsAddress at h
  obtain ⟨hr, hn⟩ := not_or.mp h
  rw [if_neg hr] at hs
  refine hn (TaskPath.name_of_notMem ?_)
  exact hs ▸ TaskPath.colon_notMem_name other

/-! ## 3. The whole request -/

/-- What one carried target adds to what is selected: as much as the word for it, or nothing. -/
theorem selectFrom_targets {t : LaunchTarget} (ha : t.Addressed r) (selected : List TaskPath) :
    selectFrom r selected (t.targets r) =
      if t.isLive r then selectFrom r selected [t.word] else .ok selected := by
  cases t with
  | task path => rfl
  | selector name =>
    split
    · next hl =>
      refine selectFrom_named (fun hn => ?_) ha selected
      simp [LaunchTarget.isLive, LaunchTarget.targets, hn] at hl
    · next hl =>
      have hn : LaunchTarget.targets r (.selector name) = [] := by
        simpa [LaunchTarget.isLive] using hl
      rw [hn]
      rfl

theorem selectFrom_flatMap {ts : List LaunchTarget} (ha : ∀ t ∈ ts, t.Addressed r)
    (selected : List TaskPath) :
    selectFrom r selected (ts.flatMap (·.targets r)) =
      selectFrom r selected ((ts.filter (·.isLive r)).map (·.word)) := by
  induction ts generalizing selected with
  | nil => rfl
  | cons t ts ih =>
    have hts : ∀ t ∈ ts, t.Addressed r := fun t ht => ha t (List.mem_cons_of_mem _ ht)
    rw [List.flatMap_cons, selectFrom_append, selectFrom_targets (ha t List.mem_cons_self)]
    split
    · next hl =>
      have hc : ((t :: ts).filter (·.isLive r)).map (·.word) =
          [t.word] ++ (ts.filter (·.isLive r)).map (·.word) := by
        simp [List.filter_cons_of_pos hl]
      rw [hc, selectFrom_append]
      cases selectFrom r selected [t.word] with
      | error e => rfl
      | ok all => exact ih hts all
    · next hl =>
      rw [List.filter_cons_of_neg hl]
      exact ih hts selected

/-- What a request is expanded to is planned as what it asks for. -/
theorem ofTargets_expanded {request : Request} {ts : List LaunchTarget}
    (ha : ∀ t ∈ ts, t.Addressed r) :
    ofTargets r (expanded r request ts) = ofTargets r (asked r request ts) := by
  have hs : select r (expanded r request ts) = select r (asked r request ts) := by
    unfold expanded asked
    split
    · rfl
    · rw [select, select, selectFrom_append, selectFrom_append]
      congr 1
      funext all
      exact selectFrom_flatMap ha all
  unfold ofTargets
  rw [hs]

/-- Each target of a plan has a task in it. -/
theorem exists_mem_sorted {targets : List String} {plan : Plan}
    (h : ofTargets r targets = .ok plan) {target : String} (ht : target ∈ targets) :
    ∃ path ∈ plan.sorted, r.Selects target path := by
  obtain ⟨nodes, hm⟩ := exists_made h
  have hr : r.Resolves target := by
    by_contra hn
    obtain ⟨missing, he⟩ := exists_taskNotFound_iff.mpr ⟨target, ht, hn⟩
    exact nomatch h.symm.trans he
  obtain ⟨path, hs⟩ := hr
  exact ⟨path, (hm.all path).mpr ⟨target, ht, path, hs, .refl⟩, hs⟩

theorem someMissing_expanded {request : Request} {ts : List LaunchTarget}
    (hc : Carries request.launchables ts) {t : LaunchTarget} (ht : t ∈ ts)
    (hn : ¬ t.Addressed r) : SomeMissing r (expanded r request ts) := by
  cases t with
  | task path => exact absurd trivial hn
  | selector name =>
    obtain ⟨task, hm, ha⟩ : ∃ task ∈ r.named name, ¬ TaskPath.IsAddress task.path := by
      simpa [LaunchTarget.Addressed] using hn
    refine ⟨task.path, ?_, not_resolves_of_not_isAddress ha⟩
    have hne : request.launchables ≠ [] := by
      intro hl
      rw [Carries, hl, List.forall₂_nil_left_iff] at hc
      exact absurd ht (by simp [hc])
    rw [expanded, if_neg (by simp [hne])]
    refine List.mem_append_right _ (List.mem_flatMap.mpr ⟨_, ht, ?_⟩)
    exact List.mem_map_of_mem hm

/-- **What a request adds to its plan.**

A request with a launchable that carries nothing readable is refused, and so is one with a name for
a task that cannot be addressed.  Any other is planned as what it names, a launchable for a name
being as good as the bare name, except that a launchable for a name that no task has is left out.
Each task, each launchable for a task, and each launchable for a name that some task has, or else
each default task, has a task in the plan. -/
theorem ofRequest_contributes (r : Registry) (request : Request) :
    (∃ l ∈ request.launchables, ∃ reason, LaunchTarget.decode false l.payload = .error reason ∧
      ofRequest r request = .error (.invalidLaunchable l.displayName reason)) ∨
    ∃ ts, Carries request.launchables ts ∧
      ((∃ t ∈ ts, ¬ t.Addressed r) →
        ∃ target, ofRequest r request = .error (.taskNotFound target)) ∧
      ((∀ t ∈ ts, t.Addressed r) → ofRequest r request = ofTargets r (asked r request ts)) ∧
      ∀ plan, ofRequest r request = .ok plan → ∀ target ∈ asked r request ts,
        ∃ path ∈ plan.sorted, r.Selects target path := by
  rcases ofRequest_cases r request with ⟨ts, hc, ho⟩ | ⟨l, hl, reason, hd, ho⟩
  · have hbad (h : ∃ t ∈ ts, ¬ t.Addressed r) :
        ∃ target, ofRequest r request = .error (.taskNotFound target) := by
      obtain ⟨t, ht, hn⟩ := h
      rw [ho]
      exact exists_taskNotFound_iff.mpr (someMissing_expanded hc ht hn)
    have hgood (h : ∀ t ∈ ts, t.Addressed r) :
        ofRequest r request = ofTargets r (asked r request ts) := ho.trans (ofTargets_expanded h)
    refine .inr ⟨ts, hc, hbad, hgood, ?_⟩
    intro plan hp target ht
    have ha : ∀ t ∈ ts, t.Addressed r := by
      by_contra hn
      obtain ⟨missing, he⟩ := hbad (by simpa using hn)
      exact nomatch hp.symm.trans he
    exact exists_mem_sorted ((hgood ha).symm.trans hp) ht
  · exact .inl ⟨l, hl, reason, hd, ho⟩

/-! ## 4. A launchable of another day -/

namespace Stale

/-- What is left of a workspace. -/
def registry : Registry := .ofTasks [{ path := ":app" }] []

/-- An engine that serves it. -/
def engine : Engine where
  registry := registry
  options := { concurrency := 1 }
  lost := fun _ => "task 1 panicked"

/-- Asks for all tasks of a name that there once were. -/
def request : Request := { launchables := [Registry.nameLaunchable "lint"] }

end Stale

/-- **A launchable for a name that no task has** makes a plan of nothing and a build that succeeds,
where the bare name is refused. -/
theorem ofRequest_staleName :
    ofRequest Stale.registry Stale.request = .ok {} ∧
      ((Stale.engine.build none Stale.request ⟨1, 1⟩ false .epoch).summary?.map (·.outcome)) =
        some .succeeded ∧
      ofTargets Stale.registry ["lint"] = .error (.taskNotFound "lint") := by
  refine ⟨rfl, ?_, rfl⟩
  -- the schedule of a plan without waves is at its end when it starts
  let su := Stale.engine.setup Stale.request ⟨⟨1, 1⟩⟩ .epoch {}
  have hs : Schedule.drive su none (Schedule.start su ⟨1, 2⟩ false) =
      Schedule.start su ⟨1, 2⟩ false := by
    rw [Schedule.drive]
    rfl
  have hb : (Stale.engine.build none Stale.request ⟨1, 1⟩ false .epoch).summary? =
      some (Engine.summaryOf (Engine.scheduled su
        (Schedule.drive su none (Schedule.start su ⟨1, 2⟩ false)))) := rfl
  rw [hb, hs]
  rfl

end Plan

end BuildStream
