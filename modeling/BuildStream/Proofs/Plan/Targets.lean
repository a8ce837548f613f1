/-
# Targets for the same tasks

The search comes upon the tasks of a plan in an order that depends on the targets: on how they are
ordered, on whether a task is named by its path or by its bare name, and on what is listed although
another target implies it.  None of this shows in the result.  Target lists that mean the same
tasks have the same plan, or fail in the same way (`Plan.ofTargets_alike`).

* §1 says when target lists mean the same tasks (`Registry.SameClosure`), and that repetition,
  names in place of paths, and implied targets make no difference to it.
* §2 is about the nodes.  The registry says what a node is and a search gives it no wave, so two
  searches for the same tasks find the same nodes, in two orders (`Closure.Found.perm`).
* §3 goes on from the nodes.  Whatever planning does with them it does by looking them up by their
  paths, and nodes with different paths are found in any order (`find?_eq_of_perm`).
-/
import BuildStream.Proofs.Plan.Layout

namespace BuildStream

open Registry

/-! ## 1. The same closure -/

namespace Registry

variable {r : Registry} {targets others : List String}

/-- Two target lists mean the same tasks: the same registered tasks can be reached from them. -/
def SameClosure (r : Registry) (targets others : List String) : Prop :=
  ∀ path, r.contains path = true → (r.Reachable targets path ↔ r.Reachable others path)

theorem SameClosure.symm (h : r.SameClosure targets others) : r.SameClosure others targets :=
  fun path hc => (h path hc).symm

/-- What can be reached is registered, or a task that can be reached depends on it. -/
theorem Reachable.registered_or_dependency {path : TaskPath} (h : r.Reachable targets path) :
    r.contains path = true ∨ ∃ task, r.contains task = true ∧ r.Reachable targets task ∧
      r.DependsOn task path := by
  obtain ⟨target, ht, selected, hs, hl⟩ := h
  cases hl with
  | refl => exact .inl hs.1
  | @tail task _ hl hd =>
    obtain ⟨definition, hg, -⟩ := id hd
    exact .inr ⟨task, contains_iff.mpr ⟨definition, hg⟩, ⟨target, ht, selected, hs, hl⟩, hd⟩

theorem SameClosure.reachable_of_reachable (h : r.SameClosure targets others) {path : TaskPath}
    (hp : r.Reachable targets path) : r.Reachable others path := by
  rcases hp.registered_or_dependency with hc | ⟨task, hc, ht, hd⟩
  · exact (h path hc).mp hp
  · exact ((h task hc).mp ht).next hd

/-- The same paths can be reached, whether or not they are registered. -/
theorem SameClosure.reachable_iff (h : r.SameClosure targets others) (path : TaskPath) :
    r.Reachable targets path ↔ r.Reachable others path :=
  ⟨h.reachable_of_reachable, h.symm.reachable_of_reachable⟩

/-- It is enough that the targets select the same tasks. -/
theorem sameClosure_of_selects
    (h : ∀ path, (∃ t ∈ targets, r.Selects t path) ↔ ∃ t ∈ others, r.Selects t path) :
    r.SameClosure targets others := by
  have hmono {ts us : List String} {path : TaskPath}
      (h : ∀ path, (∃ t ∈ ts, r.Selects t path) → ∃ t ∈ us, r.Selects t path) :
      r.Reachable ts path → r.Reachable us path := by
    rintro ⟨t, ht, selected, hs, hl⟩
    obtain ⟨u, hu, hs⟩ := h selected ⟨t, ht, hs⟩
    exact ⟨u, hu, selected, hs, hl⟩
  intro path _
  exact ⟨hmono fun path => (h path).mp, hmono fun path => (h path).mpr⟩

/-- **Neither order nor repetition matters.** -/
theorem sameClosure_of_mem_iff (h : ∀ target, target ∈ targets ↔ target ∈ others) :
    r.SameClosure targets others :=
  sameClosure_of_selects fun path => by simp only [h]

/-- **A target that selects only what others imply can be left out.** -/
theorem sameClosure_of_implied {target : String}
    (h : ∀ path, r.Selects target path → r.Reachable targets path) :
    r.SameClosure (target :: targets) targets := by
  intro path _
  constructor
  · rintro ⟨t, ht, selected, hs, hl⟩
    rcases List.mem_cons.mp ht with rfl | ht
    · exact (h selected hs).leadsTo hl
    · exact ⟨t, ht, selected, hs, hl⟩
  · rintro ⟨t, ht, reached⟩
    exact ⟨t, List.mem_cons_of_mem target ht, reached⟩

/-- A bare name selects what the paths of the tasks with that name select, if these are rooted. -/
theorem selects_named_iff {name : String} (hn : TaskPath.isRooted name = false)
    (hr : ∀ task ∈ r.named name, TaskPath.isRooted task.path = true) (path : TaskPath) :
    r.Selects name path ↔ ∃ t ∈ (r.named name).map (·.path), r.Selects t path := by
  have hmem : path ∈ (r.named name).map (·.path) ↔ r.Selects name path := by
    rw [← Plan.mem_pathsOf, if_neg (by simp [hn])]
  rw [← hmem]
  constructor
  · intro hm
    obtain ⟨task, ht, rfl⟩ := List.mem_map.mp hm
    exact ⟨task.path, hm, (hmem.mp hm).1, by rw [if_pos (hr task ht)]⟩
  · rintro ⟨t, ht, -, hs⟩
    obtain ⟨task, hm, rfl⟩ := List.mem_map.mp ht
    rw [if_pos (hr task hm)] at hs
    exact hs ▸ ht

/-- **A bare name stands for the paths of the tasks with that name.** -/
theorem sameClosure_named {name : String} (hn : TaskPath.isRooted name = false)
    (hr : ∀ task ∈ r.named name, TaskPath.isRooted task.path = true) :
    r.SameClosure (name :: targets) ((r.named name).map (·.path) ++ targets) := by
  refine sameClosure_of_selects ?_
  intro path
  simp only [List.mem_cons, List.mem_append, or_and_right, exists_or, exists_eq_left,
    selects_named_iff hn hr]

end Registry

/-! ## 2. The nodes of the same tasks -/

/-- The registry leaves nothing but the wave of a node open. -/
theorem NodeOf.eq_of_path {r : Registry} {m n : PlanNode} (hm : NodeOf r m) (hn : NodeOf r n)
    (hp : m.path = n.path) (hw : m.wave = n.wave) : m = n := by
  obtain ⟨task, hg, hd, -⟩ := hm
  obtain ⟨other, ho, he, -⟩ := hn
  obtain rfl : task = other := Option.some.inj (hg.symm.trans (hp ▸ ho))
  have hde : m.dependencies = n.dependencies := hd.trans he.symm
  obtain ⟨path, dependencies, wave⟩ := m
  obtain ⟨path', dependencies', wave'⟩ := n
  exact PlanNode.mk.injEq .. ▸ ⟨hp, hde, hw⟩

namespace Closure

variable {r : Registry} {selected : List TaskPath}

/-- No wave has been given to any of the nodes. -/
def Unnumbered (nodes : List PlanNode) : Prop := ∀ n ∈ nodes, n.wave = 0

theorem unnumbered_step {c next : Closure} (h : Unnumbered c.nodes) (hs : c.step r = .ok next) :
    Unnumbered next.nodes := by
  cases hp : c.pending with
  | nil =>
    rw [step, hp] at hs
    cases hs
    exact h
  | cons path pending =>
    rcases step_eq_ok_cases hp hs with ⟨-, rfl⟩ | ⟨-, task, -, -, rfl⟩
    · exact h
    · intro n hn
      rcases List.mem_append.mp hn with hn | hn
      · exact h n hn
      · rw [List.mem_singleton.mp hn]

theorem unnumbered_run {c final : Closure} {fuel : Nat} (h : Unnumbered c.nodes)
    (hr : run r fuel c = .ok final) : Unnumbered final.nodes := by
  induction fuel generalizing c with
  | zero =>
    cases hr
    exact h
  | succ fuel ih =>
    unfold run at hr
    split at hr
    · cases hr
      exact h
    · cases hs : c.step r with
      | error e =>
        rw [hs] at hr
        cases hr
      | ok next =>
        rw [hs] at hr
        exact ih (unnumbered_step h hs) hr

theorem unnumbered_nodesOf {nodes : List PlanNode} (h : nodesOf r selected = .ok nodes) :
    Unnumbered nodes := by
  unfold nodesOf at h
  cases hr : run r (bound r selected) { pending := selected } with
  | error e =>
    rw [hr] at h
    exact nomatch h
  | ok final =>
    rw [hr] at h
    cases h
    exact unnumbered_run (by simp [Unnumbered]) hr

/-- What a search for some targets finds. -/
structure Found (r : Registry) (targets : List String) (nodes : List PlanNode) : Prop where
  nodup : (nodes.map (·.path)).Nodup
  node : ∀ n ∈ nodes, NodeOf r n
  unnumbered : Unnumbered nodes
  mem : ∀ path, path ∈ nodes.map (·.path) ↔ r.Reachable targets path

theorem Found.subset {targets others : List String} {nodes more : List PlanNode}
    (h : Found r targets nodes) (h' : Found r others more) (hs : r.SameClosure targets others) :
    nodes ⊆ more := by
  intro n hn
  have hp : n.path ∈ more.map (·.path) :=
    (h'.mem _).mpr (hs.reachable_of_reachable ((h.mem _).mp (List.mem_map_of_mem hn)))
  obtain ⟨m, hm, he⟩ := List.mem_map.mp hp
  have hw : m.wave = n.wave := (h'.unnumbered m hm).trans (h.unnumbered n hn).symm
  rw [← (h'.node m hm).eq_of_path (h.node n hn) he hw]
  exact hm

/-- **Searches for the same tasks find the same nodes**, in one order or another. -/
theorem Found.perm {targets others : List String} {nodes more : List PlanNode}
    (h : Found r targets nodes) (h' : Found r others more) (hs : r.SameClosure targets others) :
    nodes.Perm more := by
  refine (List.perm_ext_iff_of_nodup (.of_map _ h.nodup) (.of_map _ h'.nodup)).mpr ?_
  intro n
  exact ⟨fun hn => h.subset h' hs hn, fun hn => h'.subset h hs.symm hn⟩

end Closure

/-! ## 3. The order of the nodes -/

namespace Plan

variable {r : Registry} {targets others : List String} {nodes more : List PlanNode}

/-- The plan of nodes that were found. -/
def ofNodes (r : Registry) (nodes : List PlanNode) : Except PlanError Plan :=
  (TaskOrder.sort (declaredNodes r nodes)).map fun sorted =>
    let waves := groupWaves (assignWaves nodes [] sorted)
    ⟨numberNodes waves nodes, sorted, waves⟩

/-- Two plans with the same tasks in the same order and waves. -/
structure Same (p q : Plan) : Prop where
  sorted : p.sorted = q.sorted
  waves : p.waves = q.waves
  nodes : p.nodes.Perm q.nodes
  node? : ∀ path, p.node? path = q.node? path

/-- Two results of planning that are the same but for the order in which nodes were found. -/
inductive Alike : Except PlanError Plan → Except PlanError Plan → Prop
  | plans {p q : Plan} : Same p q → Alike (.ok p) (.ok q)
  | cyclic (paths : List TaskPath) : Alike (.error (.cyclic paths)) (.error (.cyclic paths))
  | unknown (path d path' d' : TaskPath) :
      Alike (.error (.unknownDependency path d)) (.error (.unknownDependency path' d'))

theorem dependenciesIn_congr
    (h : ∀ path : TaskPath, (nodes.find? fun n => n.path == path) = more.find? fun n => n.path == path)
    (path : TaskPath) : dependenciesIn nodes path = dependenciesIn more path := by
  rw [dependenciesIn, h, dependenciesIn]

theorem assignWaves_congr (h : ∀ path, dependenciesIn nodes path = dependenciesIn more path)
    (waves : List (TaskPath × Nat)) (paths : List TaskPath) :
    assignWaves nodes waves paths = assignWaves more waves paths := by
  induction paths generalizing waves with
  | nil => rfl
  | cons path paths ih => rw [assignWaves, h, ih, assignWaves]

/-- **The order of the nodes does not matter to planning.** -/
theorem ofNodes_alike (hn : (nodes.map (·.path)).Nodup) (h : nodes.Perm more) :
    Alike (ofNodes r nodes) (ofNodes r more) := by
  have hfind (path : TaskPath) :
      (nodes.find? fun n => n.path == path) = more.find? fun n => n.path == path :=
    find?_eq_of_perm hn h path
  have hdeclared : declaredNodes r nodes = declaredNodes r more := by
    simp only [declaredNodes, hfind]
  have hwaves := assignWaves_congr (dependenciesIn_congr hfind) []
  unfold ofNodes
  rw [← hdeclared]
  cases hs : TaskOrder.sort (declaredNodes r nodes) with
  | ok sorted =>
    refine .plans ⟨rfl, by simp only [hwaves], ?_, ?_⟩
    · simp only [hwaves]
      exact h.map _
    · intro path
      simp only [node?, find?_numberNodes, hwaves, hfind]
  | error e =>
    unfold TaskOrder.sort at hs
    dsimp only at hs
    split at hs
    · cases hs
    · cases hs
      exact .cyclic _

/-! ## 4. Target lists for the same tasks -/

/-- Planning for targets that select something goes on with the nodes that it finds, or comes upon
an unknown dependency. -/
theorem ofTargets_of_resolves (h : ∀ t ∈ targets, r.Resolves t) :
    (∃ nodes, ofTargets r targets = ofNodes r nodes ∧ ¬ SomeDangling r targets ∧
      Closure.Found r targets nodes) ∨
    ∃ path d, ofTargets r targets = .error (.unknownDependency path d) ∧
      SomeDangling r targets := by
  unfold ofTargets select
  rcases selectFrom_cases r [] targets with ⟨selected, hs, -, hsel⟩ | ⟨target, -, hf⟩
  · have hsel : ∀ path, path ∈ selected ↔ ∃ t ∈ targets, r.Selects t path :=
      fun path => by simpa using hsel path
    have hfrom := fromSelected_iff hsel
    rw [hs]
    rcases Closure.nodesOf_cases (contains_of_select hs) with ⟨nodes, hn, hg⟩ | ⟨path, d, hn, hu⟩
    · refine .inl ⟨nodes, ?_, ?_, hg.nodup, hg.node, Closure.unnumbered_nodesOf hn,
        fun path => (hg.mem path).trans (hfrom path)⟩
      · simp only [hn, bind, Except.bind]
        unfold ofNodes
        cases TaskOrder.sort (declaredNodes r nodes) <;> rfl
      · rintro ⟨path, d, hp, hd, hc⟩
        exact hg.not_unknown ⟨(hfrom path).mpr hp, hd, hc⟩
    · refine .inr ⟨path, d, ?_, path, d, (hfrom path).mp hu.1, hu.2⟩
      simp only [hn, bind, Except.bind]
  · obtain ⟨before, after, rfl, -, hn⟩ := hf
    exact absurd (h target (by simp)) hn

theorem someDangling_congr (h : r.SameClosure targets others) :
    SomeDangling r targets ↔ SomeDangling r others := by
  simp only [SomeDangling, Dangling, h.reachable_iff]

/-- **Target lists for the same tasks are planned alike.**  Both have a plan, with the same nodes,
order and waves, or both fail with the same cycle, or both fail at an unknown dependency. -/
theorem ofTargets_alike (ht : ∀ t ∈ targets, r.Resolves t) (ho : ∀ t ∈ others, r.Resolves t)
    (h : r.SameClosure targets others) : Alike (ofTargets r targets) (ofTargets r others) := by
  rcases ofTargets_of_resolves ht with ⟨nodes, he, hd, hf⟩ | ⟨path, d, he, hd⟩
  · rcases ofTargets_of_resolves ho with ⟨more, he', -, hf'⟩ | ⟨path, d, -, hd'⟩
    · rw [he, he']
      exact ofNodes_alike hf.nodup (hf.perm hf' h)
    · exact absurd ((someDangling_congr h).mpr hd') hd
  · rcases ofTargets_of_resolves ho with ⟨-, -, hd', -⟩ | ⟨path', d', he', -⟩
    · exact absurd ((someDangling_congr h).mp hd) hd'
    · rw [he, he']
      exact .unknown path d path' d'

/-- The plan of the diamond when its lower tasks are named first. -/
def diamondPlanFromBelow : Plan :=
  { diamondPlan with nodes := [⟨":base", [], 0⟩, ⟨":left", [":base"], 1⟩,
      ⟨":top", [":left", ":right"], 2⟩, ⟨":right", [":base"], 1⟩] }

theorem alike_diamond : ofTargets diamond ["base", ":left", ":top", ":left"] =
      .ok diamondPlanFromBelow ∧ ofTargets diamond ["top"] = .ok diamondPlan ∧
    diamond.SameClosure ["base", ":left", ":top", ":left"] ["top"] ∧
    Alike (.ok diamondPlanFromBelow) (.ok diamondPlan) := by
  have hb : ofTargets diamond ["base", ":left", ":top", ":left"] = .ok diamondPlanFromBelow := rfl
  have ht : ofTargets diamond ["top"] = .ok diamondPlan := rfl
  have hs : diamond.SameClosure ["base", ":left", ":top", ":left"] ["top"] := by
    obtain ⟨_, hm⟩ := exists_made hb
    obtain ⟨_, hm'⟩ := exists_made ht
    have hp : (diamondPlanFromBelow.nodes.map (·.path)).Perm (diamondPlan.nodes.map (·.path)) := by
      decide
    intro path _
    rw [← hm.mem, ← hm'.mem, ← hm.map_path_nodes, ← hm'.map_path_nodes, hp.mem_iff]
  have hres : ∀ t ∈ ["base", ":left", ":top", ":left"], diamond.Resolves t := by
    simp only [List.forall_mem_cons]
    exact ⟨⟨":base", rfl, by decide⟩, ⟨":left", rfl, by decide⟩, ⟨":top", rfl, by decide⟩,
      ⟨":left", rfl, by decide⟩, by simp⟩
  have hres' : ∀ t ∈ ["top"], diamond.Resolves t := by
    simp only [List.forall_mem_cons]
    exact ⟨⟨":top", rfl, by decide⟩, by simp⟩
  refine ⟨hb, ht, hs, ?_⟩
  rw [← hb, ← ht]
  exact ofTargets_alike hres hres' hs

end Plan

end BuildStream
