/-
# When targets cannot be planned

Planning has three steps, and each fails in one way only: selection at a target without a task, the
search at a dependency that is not registered, and sorting at a cycle.  A later step is reached
only if the earlier ones succeed, so the three failures have an order of precedence
(`Plan.ofTargets_errors`).

`Plan.ofTargets_cases` puts the specifications of the three steps together; what is said of plans
elsewhere starts from it.
-/
import BuildStream.Proofs.Plan.Order

namespace BuildStream

open Registry

/-! ## 1. Nodes in the order of declaration -/

namespace Plan

variable {r : Registry} {selected : List TaskPath} {nodes : List PlanNode}

theorem mem_declaredNodes (h : Closure.Gathered r selected nodes) {n : PlanNode} :
    n ∈ declaredNodes r nodes ↔ n ∈ nodes := by
  rw [declaredNodes, List.mem_filterMap]
  constructor
  · rintro ⟨path, -, hf⟩
    exact List.mem_of_find?_eq_some hf
  · intro hn
    obtain ⟨task, hg, -⟩ := h.node n hn
    exact ⟨n.path, mem_paths_iff.mpr (contains_iff.mpr ⟨task, hg⟩), find?_of_mem h.nodup hn⟩

/-- The declared nodes come in the order in which the registry has their tasks. -/
theorem declaredNodes_sublist (r : Registry) (nodes : List PlanNode) :
    ((declaredNodes r nodes).map (·.path)).Sublist r.paths := by
  have hf : (declaredNodes r nodes).map (·.path) =
      r.paths.filter fun path => (nodes.find? fun n => n.path == path).isSome := by
    rw [declaredNodes, List.map_filterMap, ← List.filterMap_eq_filter]
    refine List.filterMap_congr ?_
    intro path _
    cases hn : nodes.find? fun n => n.path == path with
    | none => simp [Option.guard, hn]
    | some n =>
      have hp : n.path = path := by simpa using List.find?_some hn
      simp [Option.guard, hn, hp]
  rw [hf]
  exact List.filter_sublist

/-- What was gathered covers what can be reached. -/
theorem covers_nodes (h : Closure.Gathered r selected nodes) : Covers r nodes := by
  refine ⟨h.nodup, h.node, ?_⟩
  intro n hn d hd
  obtain ⟨start, hs, hl⟩ := (h.mem n.path).mp (List.mem_map_of_mem hn)
  exact (h.mem d).mpr ⟨start, hs, hl.tail hd⟩

theorem mem_paths_declaredNodes (h : Closure.Gathered r selected nodes) {path : TaskPath} :
    path ∈ (declaredNodes r nodes).map (·.path) ↔ path ∈ nodes.map (·.path) := by
  simp only [List.mem_map, mem_declaredNodes h]

theorem covers_declaredNodes (h : Closure.Gathered r selected nodes) :
    Covers r (declaredNodes r nodes) where
  nodup := (declaredNodes_sublist r nodes).nodup r.nodup_paths
  node := fun n hn => h.node n ((mem_declaredNodes h).mp hn)
  closed := fun n hn d hd =>
    (mem_paths_declaredNodes h).mpr ((covers_nodes h).closed n ((mem_declaredNodes h).mp hn) d hd)

/-! ## 2. The three steps together -/

/-- A plan that was made: its nodes are those gathered, and all of them were taken. -/
structure Made (r : Registry) (targets : List String) (nodes : List PlanNode) (plan : Plan) :
    Prop where
  mem : ∀ path, path ∈ nodes.map (·.path) ↔ r.Reachable targets path
  covers : Covers r nodes
  declared : Covers r (declaredNodes r nodes)
  taken : TaskOrder.Taken r (declaredNodes r nodes) plan.sorted
  all : ∀ path, path ∈ plan.sorted ↔ r.Reachable targets path
  waves : plan.waves = groupWaves (assignWaves nodes [] plan.sorted)
  nodes : plan.nodes = numberNodes plan.waves nodes

/-- Some target selects nothing. -/
def SomeMissing (r : Registry) (targets : List String) : Prop := ∃ t ∈ targets, ¬ r.Resolves t

/-- A reachable task depends on a path that is not registered. -/
def Dangling (r : Registry) (targets : List String) (path dependency : TaskPath) : Prop :=
  r.Reachable targets path ∧ r.DependsOn path dependency ∧ r.contains dependency = false

/-- Some reachable task depends on a path that is not registered. -/
def SomeDangling (r : Registry) (targets : List String) : Prop := ∃ path d, Dangling r targets path d

/-- Some reachable task is on a cycle. -/
def SomeCycle (r : Registry) (targets : List String) : Prop :=
  ∃ path, r.Reachable targets path ∧ r.OnCycle path

/-- The reachable tasks from which a cycle can be reached, in the order of declaration. -/
structure Blocked (r : Registry) (targets : List String) (paths : List TaskPath) : Prop where
  declared : paths.Sublist r.paths
  mem : ∀ path, path ∈ paths ↔ r.Reachable targets path ∧ r.LeadsToCycle path

theorem fromSelected_iff {targets : List String}
    (h : ∀ path, path ∈ selected ↔ ∃ t ∈ targets, r.Selects t path) (path : TaskPath) :
    FromSelected r selected path ↔ r.Reachable targets path := by
  simp only [FromSelected, Reachable, h]
  constructor
  · rintro ⟨start, ⟨t, ht, hst⟩, hl⟩
    exact ⟨t, ht, start, hst, hl⟩
  · rintro ⟨t, ht, start, hst, hl⟩
    exact ⟨start, ⟨t, ht, hst⟩, hl⟩

/-- Sorting what was gathered makes a plan, or fails with what a cycle blocks. -/
theorem sort_cases {targets : List String} (hg : Closure.Gathered r selected nodes)
    (hfrom : ∀ path, FromSelected r selected path ↔ r.Reachable targets path) :
    (∃ sorted, TaskOrder.sort (declaredNodes r nodes) = .ok sorted ∧ ¬ SomeCycle r targets ∧
      Made r targets nodes ⟨numberNodes (groupWaves (assignWaves nodes [] sorted)) nodes, sorted,
        groupWaves (assignWaves nodes [] sorted)⟩) ∨
    ∃ paths, TaskOrder.sort (declaredNodes r nodes) = .error (.cyclic paths) ∧
      SomeCycle r targets ∧ Blocked r targets paths := by
  have hc := covers_declaredNodes hg
  have hmem (path : TaskPath) :
      path ∈ (declaredNodes r nodes).map (·.path) ↔ r.Reachable targets path := by
    rw [← hfrom, ← hg.mem, mem_paths_declaredNodes hg]
  obtain ⟨sorted, ht, ⟨hso, hall⟩ | ⟨hso, path, hp, hns⟩⟩ := TaskOrder.sort_cases hc
  · refine .inl ⟨sorted, hso, ?_, fun path => (hg.mem path).trans (hfrom path), covers_nodes hg,
      hc, ht, fun path => ⟨fun hp => (hmem path).mp (ht.known path hp),
        fun hp => hall path ((hmem path).mpr hp)⟩, rfl, rfl⟩
    rintro ⟨path, hp, hk⟩
    have hp := (hmem path).mpr hp
    exact (ht.notMem_iff hc hp).mpr ⟨path, .refl, hk⟩ (hall path hp)
  · refine .inr ⟨_, hso, ?_, List.filter_sublist.trans (declaredNodes_sublist r nodes), ?_⟩
    · obtain ⟨knot, hl, hk⟩ := (ht.notMem_iff hc hp).mp hns
      exact ⟨knot, ((hmem path).mp hp).leadsTo hl, hk⟩
    · intro path
      rw [List.mem_filter, hmem]
      refine and_congr_right ?_
      intro hp
      rw [← ht.notMem_iff hc ((hmem path).mpr hp)]
      simp

/-- **Planning**, step by step. -/
theorem ofTargets_cases (r : Registry) (targets : List String) :
    (∃ target, ofTargets r targets = .error (.taskNotFound target) ∧
      FirstMissing r targets target) ∨
    (∃ path d, ofTargets r targets = .error (.unknownDependency path d) ∧
      ¬ SomeMissing r targets ∧ Dangling r targets path d) ∨
    (∃ paths, ofTargets r targets = .error (.cyclic paths) ∧
      ¬ SomeMissing r targets ∧ ¬ SomeDangling r targets ∧ SomeCycle r targets ∧
      Blocked r targets paths) ∨
    ∃ nodes plan, ofTargets r targets = .ok plan ∧
      ¬ SomeMissing r targets ∧ ¬ SomeDangling r targets ∧ ¬ SomeCycle r targets ∧
      Made r targets nodes plan := by
  unfold ofTargets select
  rcases selectFrom_cases r [] targets with ⟨selected, hs, hres, hsel⟩ | ⟨target, hs, hf⟩
  · have hsel : ∀ path, path ∈ selected ↔ ∃ t ∈ targets, r.Selects t path :=
      fun path => by simpa using hsel path
    have hfrom := fromSelected_iff hsel
    have hmissing : ¬ SomeMissing r targets := fun ⟨t, ht, hn⟩ => hn (hres t ht)
    right
    rw [hs]
    rcases Closure.nodesOf_cases (contains_of_select hs) with ⟨nodes, hn, hg⟩ | ⟨path, d, hn, hu⟩
    · have hdangling : ¬ SomeDangling r targets := fun ⟨path, d, hp, hd, hc⟩ =>
        hg.not_unknown ⟨(hfrom path).mpr hp, hd, hc⟩
      right
      rcases sort_cases hg hfrom with ⟨sorted, hso, hcycle, hmade⟩ | ⟨paths, hso, hcycle, hb⟩
      · refine .inr ⟨nodes, _, ?_, hmissing, hdangling, hcycle, hmade⟩
        simp only [hn, hso, bind, Except.bind]
        rfl
      · refine .inl ⟨paths, ?_, hmissing, hdangling, hcycle, hb⟩
        simp only [hn, hso, bind, Except.bind]
    · refine .inl ⟨path, d, ?_, hmissing, (hfrom path).mp hu.1, hu.2⟩
      simp only [hn, bind, Except.bind]
  · refine .inl ⟨target, ?_, hf⟩
    rw [hs]
    rfl

/-- **A target without a task** is the only reason for planning to find no task. -/
theorem exists_taskNotFound_iff {r : Registry} {targets : List String} :
    (∃ target, ofTargets r targets = .error (.taskNotFound target)) ↔ SomeMissing r targets := by
  rcases ofTargets_cases r targets with ⟨target, ho, before, after, rfl, -, hn⟩ |
    ⟨_, _, ho, hm, -⟩ | ⟨_, ho, hm, -⟩ | ⟨_, _, ho, hm, -⟩ <;> rw [ho]
  · exact ⟨fun _ => ⟨target, by simp, hn⟩, fun _ => ⟨target, rfl⟩⟩
  all_goals exact iff_of_false (by simp) hm

/-- A plan that is there was made. -/
theorem exists_made {r : Registry} {targets : List String} {plan : Plan}
    (h : ofTargets r targets = .ok plan) : ∃ nodes, Made r targets nodes plan := by
  rcases ofTargets_cases r targets with ⟨_, ho, -⟩ | ⟨_, _, ho, -⟩ | ⟨_, ho, -⟩ |
    ⟨nodes, _, ho, -, -, -, hm⟩ <;> rw [h] at ho
  · exact nomatch ho
  · exact nomatch ho
  · exact nomatch ho
  · cases ho
    exact ⟨nodes, hm⟩

/-! ## 3. Requests -/

/-- The plan of a request is that of its targets. -/
theorem ofRequest_eq_ok {r : Registry} {request : Request} {plan : Plan} :
    ofRequest r request = .ok plan ↔ ∃ targets,
      targetsOf r request.tasks request.launchables = .ok targets ∧
        ofTargets r targets = .ok plan := by
  unfold ofRequest
  cases targetsOf r request.tasks request.launchables with
  | error error => exact ⟨(fun h => nomatch h), fun ⟨_, h, _⟩ => nomatch h⟩
  | ok targets =>
    refine ⟨fun h => ⟨targets, rfl, h⟩, ?_⟩
    rintro ⟨other, ho, h⟩
    cases ho
    exact h

theorem exists_made_of_ofRequest {r : Registry} {request : Request} {plan : Plan}
    (h : ofRequest r request = .ok plan) : ∃ targets nodes, Made r targets nodes plan := by
  obtain ⟨targets, -, ht⟩ := ofRequest_eq_ok.mp h
  exact ⟨targets, exists_made ht⟩

/-- Planning reads of a request what it asks for, and nothing else. -/
theorem ofRequest_congr {r : Registry} {request other : Request}
    (ht : request.tasks = other.tasks) (hl : request.launchables = other.launchables) :
    ofRequest r request = ofRequest r other := by
  rw [ofRequest, ht, hl, ofRequest]

/-- Without launchables the targets are the tasks, or else the default tasks. -/
theorem targetsOf_of_tasks (r : Registry) (tasks : Option (List TaskPath)) :
    targetsOf r tasks [] = .ok (tasks.getD r.defaultTasks) := by
  cases tasks with
  | none => rfl
  | some tasks =>
    change Except.ok (tasks ++ []) = _
    rw [List.append_nil]
    rfl

/-! ## 4. The errors -/

/-- **The errors of planning**, and their precedence.

A target without a task comes first, and the first such target is named.  Where every target has a
task, a dependency that is not registered comes next, with a reachable task that has it.  Where all
dependencies are known, a reachable cycle comes last; the paths named are the reachable tasks from
which a cycle can be reached, in the order of declaration.  Otherwise there is a plan. -/
theorem ofTargets_errors (r : Registry) (targets : List String) :
    ((∃ target, ofTargets r targets = .error (.taskNotFound target)) ↔ SomeMissing r targets) ∧
    ((∃ path d, ofTargets r targets = .error (.unknownDependency path d)) ↔
      ¬ SomeMissing r targets ∧ SomeDangling r targets) ∧
    ((∃ paths, ofTargets r targets = .error (.cyclic paths)) ↔
      ¬ SomeMissing r targets ∧ ¬ SomeDangling r targets ∧ SomeCycle r targets) ∧
    ((∃ plan, ofTargets r targets = .ok plan) ↔
      ¬ SomeMissing r targets ∧ ¬ SomeDangling r targets ∧ ¬ SomeCycle r targets) ∧
    (∀ target, ofTargets r targets = .error (.taskNotFound target) →
      FirstMissing r targets target) ∧
    (∀ path d, ofTargets r targets = .error (.unknownDependency path d) →
      Dangling r targets path d) ∧
    ∀ paths, ofTargets r targets = .error (.cyclic paths) → Blocked r targets paths := by
  rcases ofTargets_cases r targets with ⟨target, ho, hf⟩ | ⟨path, d, ho, hm, hd⟩ |
    ⟨paths, ho, hm, hd, hc, hb⟩ | ⟨nodes, plan, ho, hm, hd, hc, -⟩ <;> rw [ho]
  · have hm : SomeMissing r targets := by
      obtain ⟨before, after, rfl, -, hn⟩ := hf
      exact ⟨target, by simp, hn⟩
    refine ⟨by simp [hm], by simp [hm], by simp [hm], by simp [hm], ?_, by simp, by simp⟩
    rintro _ ⟨⟩
    exact hf
  · have hd' : SomeDangling r targets := ⟨path, d, hd⟩
    refine ⟨by simp [hm], by simp [hm, hd'], by simp [hd'], by simp [hd'], by simp, ?_, by simp⟩
    rintro _ _ ⟨⟩
    exact hd
  · refine ⟨by simp [hm], by simp [hd], by simp [hm, hd, hc], by simp [hc], by simp, by simp, ?_⟩
    rintro _ ⟨⟩
    exact hb
  · exact ⟨by simp [hm], by simp [hd], by simp [hc], by simp [hm, hd, hc], by simp, by simp,
      by simp⟩

end Plan

end BuildStream
