/-
# What a plan looks like

A plan that could be made is determined by the graph of the registry: its nodes are what can be
reached, its waves are the lengths of longest chains, and its order is that of the waves, in each
wave by the place of the latest dependency and then by declaration (`Plan.ofTargets_layout`).  The
order in which the search came upon the nodes does not show in it.

The facts are first proved one by one of a plan that was made (`Plan.Made`), in the form in which
they are used elsewhere.
-/
import BuildStream.Proofs.Plan.Errors
import BuildStream.Proofs.Plan.Waves

namespace BuildStream

open Registry

namespace Registry

/-- A path is declared before another. -/
def DeclaredBefore (r : Registry) (a b : TaskPath) : Prop := [a, b].Sublist r.paths

/-- The place in an order of the latest dependency of a task. -/
def LatestAt (r : Registry) (sorted : List TaskPath) (path : TaskPath) (i : Nat) : Prop :=
  IsGreatest {i | ∃ d, r.DependsOn path d ∧ sorted[i]? = some d} i

end Registry

namespace Plan

/-! ## 1. Nodes and their waves -/

theorem map_path_numberNodes (waves : List (List TaskPath)) (nodes : List PlanNode) :
    (numberNodes waves nodes).map (·.path) = nodes.map (·.path) := by
  rw [numberNodes, List.map_map]
  rfl

theorem find?_numberNodes (waves : List (List TaskPath)) (nodes : List PlanNode)
    (path : TaskPath) :
    (numberNodes waves nodes).find? (fun n => n.path == path) =
      (nodes.find? fun n => n.path == path).map fun n =>
        { n with wave := (waves.findIdx? (·.contains n.path)).getD n.wave } := by
  rw [numberNodes, List.find?_map]
  rfl

theorem dependenciesIn_numberNodes (waves : List (List TaskPath)) (nodes : List PlanNode)
    (path : TaskPath) :
    dependenciesIn (numberNodes waves nodes) path = dependenciesIn nodes path := by
  rw [dependenciesIn, find?_numberNodes, dependenciesIn]
  cases nodes.find? fun n => n.path == path <;> rfl

namespace Made

variable {r : Registry} {targets : List String} {nodes : List PlanNode} {plan : Plan}

theorem map_path_nodes (h : Made r targets nodes plan) :
    plan.nodes.map (·.path) = nodes.map (·.path) := by
  rw [h.nodes, map_path_numberNodes]

/-- The dependencies of a planned task are those of the registry. -/
theorem mem_dependencies (h : Made r targets nodes plan) {path d : TaskPath}
    (hp : path ∈ plan.sorted) : d ∈ plan.dependencies path ↔ r.DependsOn path d := by
  rw [dependencies, h.nodes, dependenciesIn_numberNodes]
  exact h.covers.mem_dependenciesIn ((h.mem path).mpr ((h.all path).mp hp))

/-- A planned task is registered. -/
theorem exists_task (h : Made r targets nodes plan) {path : TaskPath} (hp : path ∈ plan.sorted) :
    ∃ task, r.get? path = some task := by
  obtain ⟨n, hn, rfl⟩ := List.mem_map.mp ((h.mem path).mpr ((h.all path).mp hp))
  obtain ⟨task, hg, -⟩ := h.covers.node n hn
  exact ⟨task, hg⟩

/-- The order has every node once. -/
theorem sorted_perm (h : Made r targets nodes plan) :
    plan.sorted.Perm (plan.nodes.map (·.path)) := by
  rw [h.map_path_nodes]
  refine (List.perm_ext_iff_of_nodup h.taken.nodup h.covers.nodup).mpr ?_
  intro path
  rw [h.all, h.mem]

/-- What a planned task depends on is planned. -/
theorem mem_of_dependsOn (h : Made r targets nodes plan) {path d : TaskPath}
    (hp : path ∈ plan.sorted) (hd : r.DependsOn path d) : d ∈ plan.sorted :=
  (h.all d).mpr (((h.all path).mp hp).next hd)

/-- The waves of a plan before they are grouped. -/
def assigned (nodes : List PlanNode) (plan : Plan) : List (TaskPath × Nat) :=
  assignWaves nodes [] plan.sorted

theorem longest_of_mem (h : Made r targets nodes plan) :
    ∀ w ∈ assigned nodes plan, r.LongestChain w.1 w.2 := by
  refine longest_of_mem_assignWaves h.covers (fun path hp => ?_) h.taken.first rfl (by simp)
  exact (h.mem path).mpr ((h.all path).mp hp)

theorem map_fst_assigned (nodes : List PlanNode) (plan : Plan) :
    (assigned nodes plan).map (·.1) = plan.sorted := by
  rw [assigned, map_fst_assignWaves, List.map_nil, List.nil_append]

/-- The waves are the lengths of longest chains. -/
theorem mem_assigned (h : Made r targets nodes plan) {path : TaskPath} {k : Nat} :
    (path, k) ∈ assigned nodes plan ↔ path ∈ plan.sorted ∧ r.LongestChain path k := by
  constructor
  · intro hm
    have hp := List.mem_map_of_mem (f := (·.1)) hm
    rw [map_fst_assigned] at hp
    exact ⟨hp, h.longest_of_mem _ hm⟩
  · rintro ⟨hp, hk⟩
    rw [← map_fst_assigned] at hp
    obtain ⟨⟨path, n⟩, hm, rfl⟩ := List.mem_map.mp hp
    obtain rfl : k = n := hk.unique (h.longest_of_mem _ hm)
    exact hm

/-- Every planned task has a longest chain. -/
theorem exists_longest (h : Made r targets nodes plan) {path : TaskPath} (hp : path ∈ plan.sorted) :
    ∃ n, r.LongestChain path n := by
  rw [← map_fst_assigned] at hp
  obtain ⟨w, hm, rfl⟩ := List.mem_map.mp hp
  exact ⟨w.2, h.longest_of_mem w hm⟩

/-- **The waves of a plan** hold the tasks by their longest chains. -/
theorem mem_wave (h : Made r targets nodes plan) {path : TaskPath} {k : Nat} :
    (∃ wave, plan.waves[k]? = some wave ∧ path ∈ wave) ↔
      path ∈ plan.sorted ∧ r.LongestChain path k := by
  rw [h.waves, mem_groupWaves]
  exact h.mem_assigned

/-- **The waves of a plan**, one after the other, are its order. -/
theorem flatten_waves (h : Made r targets nodes plan) : plan.waves.flatten = plan.sorted := by
  rw [h.waves, flatten_groupWaves, ← assigned, map_fst_assigned]
  refine List.pairwise_iff_getElem.mpr ?_
  intro i j hi hj hij
  have hat (k : Nat) (hk : k < (assigned nodes plan).length) :
      plan.sorted[k]? = some (assigned nodes plan)[k].1 := by
    rw [← map_fst_assigned, List.getElem?_map, List.getElem?_eq_getElem hk]
    rfl
  exact h.taken.longest_mono h.declared (fun path => h.exists_longest) (Nat.le_of_lt hij)
    (hat i hi) (hat j hj) (h.longest_of_mem _ (List.getElem_mem hi))
    (h.longest_of_mem _ (List.getElem_mem hj))

/-- The first waves hold the tasks with short chains. -/
theorem mem_flatten_take (h : Made r targets nodes plan) {path : TaskPath} {k : Nat} :
    path ∈ (plan.waves.take k).flatten ↔
      path ∈ plan.sorted ∧ ∃ n, r.LongestChain path n ∧ n < k := by
  rw [List.mem_flatten]
  constructor
  · rintro ⟨wave, hw, hp⟩
    obtain ⟨n, hn⟩ := List.mem_iff_getElem?.mp hw
    have hlt : n < k :=
      Nat.lt_of_lt_of_le (List.getElem?_eq_some_iff.mp hn).1 (List.length_take_le _ _)
    rw [List.getElem?_take_of_lt hlt] at hn
    obtain ⟨hs, hl⟩ := h.mem_wave.mp ⟨wave, hn, hp⟩
    exact ⟨hs, n, hl, hlt⟩
  · rintro ⟨hs, n, hl, hlt⟩
    obtain ⟨wave, hw, hp⟩ := h.mem_wave.mpr ⟨hs, hl⟩
    rw [← List.getElem?_take_of_lt hlt] at hw
    exact ⟨wave, List.mem_of_getElem? hw, hp⟩

/-- A wave comes in the order of the plan. -/
theorem wave_sublist (h : Made r targets nodes plan) {k : Nat} {wave : List TaskPath}
    (hw : plan.waves[k]? = some wave) : wave.Sublist plan.sorted := by
  have hs : (((assigned nodes plan).filter fun w => w.2 == k).map (·.1)).Sublist
      ((assigned nodes plan).map (·.1)) := List.filter_sublist.map _
  rw [map_fst_assigned] at hs
  rw [h.waves] at hw
  rw [getElem?_groupWaves hw]
  exact hs

/-- The first wave that has a task is that of its longest chain. -/
theorem findIdx?_waves (h : Made r targets nodes plan) {path : TaskPath} {n : Nat}
    (hp : path ∈ plan.sorted) (hn : r.LongestChain path n) :
    plan.waves.findIdx? (·.contains path) = some n := by
  obtain ⟨wave, hwave, hmem⟩ := h.mem_wave.mpr ⟨hp, hn⟩
  obtain ⟨i, hi⟩ : ∃ i, plan.waves.findIdx? (·.contains path) = some i := by
    rw [← Option.isSome_iff_exists, List.findIdx?_isSome, List.any_eq_true]
    exact ⟨wave, List.mem_of_getElem? hwave, by simpa using hmem⟩
  obtain ⟨hlt, hin, -⟩ := List.findIdx?_eq_some_iff_getElem.mp hi
  have hat : ∃ wave, plan.waves[i]? = some wave ∧ path ∈ wave :=
    ⟨_, List.getElem?_eq_getElem hlt, by simpa using hin⟩
  rw [hi, (h.mem_wave.mp hat).2.unique hn]

theorem wave?_of_longest (h : Made r targets nodes plan) {path : TaskPath} {n : Nat}
    (hp : path ∈ plan.sorted) (hn : r.LongestChain path n) : plan.wave? path = some n := by
  obtain ⟨node, hnode, rfl⟩ := List.mem_map.mp ((h.mem path).mpr ((h.all path).mp hp))
  rw [wave?, node?, h.nodes, find?_numberNodes, find?_of_mem h.covers.nodup hnode,
    Option.map_some, Option.map_some, h.findIdx?_waves hp hn, Option.getD_some]

/-- **The node of a task** has the number of its wave. -/
theorem wave?_eq_some (h : Made r targets nodes plan) {path : TaskPath} {k : Nat} :
    plan.wave? path = some k ↔ path ∈ plan.sorted ∧ r.LongestChain path k := by
  refine ⟨fun hw => ?_, fun ⟨hp, hk⟩ => h.wave?_of_longest hp hk⟩
  obtain ⟨n, hn, -⟩ := Option.map_eq_some_iff.mp hw
  have hp : path ∈ plan.sorted := by
    obtain rfl : n.path = path := by simpa using List.find?_some hn
    exact h.sorted_perm.mem_iff.mpr (List.mem_map_of_mem (List.mem_of_find?_eq_some hn))
  obtain ⟨m, hm⟩ := h.exists_longest hp
  obtain rfl : m = k := Option.some.inj ((h.wave?_of_longest hp hm).symm.trans hw)
  exact ⟨hp, hm⟩

/-! ## 2. The order in a wave -/

/-- The rank of a task is one more than the place of its latest dependency. -/
theorem rank_of_dependsOn (h : Made r targets nodes plan) {path d : TaskPath}
    (hp : path ∈ plan.sorted) (hd : r.DependsOn path d) : ∃ i, r.LatestAt plan.sorted path i ∧
      rankOf plan.sorted (dependenciesIn (declaredNodes r nodes) path) = i + 1 := by
  have hmem {x : TaskPath} :
      x ∈ dependenciesIn (declaredNodes r nodes) path ↔ r.DependsOn path x :=
    h.declared.mem_dependenciesIn (h.taken.known path hp)
  rcases @foldl_max_mem _ (fun d => plan.sorted.idxOf d + 1)
    (dependenciesIn (declaredNodes r nodes) path) 0 with h0 | ⟨e, he, hr⟩
  · have hle := le_foldl_max (f := fun d => plan.sorted.idxOf d + 1) (a := 0) (hmem.mpr hd)
    omega
  · refine ⟨plan.sorted.idxOf e, ⟨⟨e, hmem.mp he, ?_⟩, ?_⟩, hr⟩
    · exact List.getElem?_idxOf (h.mem_of_dependsOn hp (hmem.mp he))
    · rintro i ⟨x, hx, hi⟩
      have hle := le_foldl_max (f := fun d => plan.sorted.idxOf d + 1) (a := 0) (hmem.mpr hx)
      obtain ⟨hlt, hi⟩ := List.getElem?_eq_some_iff.mp hi
      rw [hr, ← hi, h.taken.nodup.idxOf_getElem] at hle
      omega

theorem rank_of_not_dependsOn (h : Made r targets nodes plan) {path : TaskPath}
    (hp : path ∈ plan.sorted) (hd : ∀ d, ¬ r.DependsOn path d) :
    rankOf plan.sorted (dependenciesIn (declaredNodes r nodes) path) = 0 := by
  have hnil : dependenciesIn (declaredNodes r nodes) path = [] :=
    List.eq_nil_iff_forall_not_mem.mpr fun d hm =>
      hd d ((h.declared.mem_dependenciesIn (h.taken.known path hp)).mp hm)
  rw [hnil]
  rfl

/-- A task with the longest chain of one edge more or none has a dependency, or has none. -/
theorem before_cases (h : Made r targets nodes plan) {a b : TaskPath} (ha : a ∈ plan.sorted)
    (hb : b ∈ plan.sorted) (hab : Before (declaredNodes r nodes) plan.sorted a b) :
    ((∀ d, ¬ r.DependsOn a d) → (∀ d, ¬ r.DependsOn b d) → r.DeclaredBefore a b) ∧
      ((∃ d, r.DependsOn a d) → (∃ d, r.DependsOn b d) → ∃ i j, r.LatestAt plan.sorted a i ∧
        r.LatestAt plan.sorted b j ∧ (i < j ∨ i = j ∧ r.DeclaredBefore a b)) := by
  have hdecl (hs : [a, b].Sublist ((declaredNodes r nodes).map (·.path))) : r.DeclaredBefore a b :=
    hs.trans (declaredNodes_sublist r nodes)
  unfold Before at hab
  dsimp only at hab
  constructor
  · intro hna hnb
    rw [h.rank_of_not_dependsOn ha hna, h.rank_of_not_dependsOn hb hnb] at hab
    rcases hab with hlt | ⟨-, hs⟩
    · omega
    · exact hdecl hs
  · rintro ⟨d, hd⟩ ⟨e, he⟩
    obtain ⟨i, hi, hri⟩ := h.rank_of_dependsOn ha hd
    obtain ⟨j, hj, hrj⟩ := h.rank_of_dependsOn hb he
    rw [hri, hrj] at hab
    refine ⟨i, j, hi, hj, ?_⟩
    rcases hab with hlt | ⟨heq, hs⟩
    · exact .inl (by omega)
    · exact .inr ⟨by omega, hdecl hs⟩

end Made

end Plan

namespace Registry

theorem LongestChain.not_dependsOn {r : Registry} {path : TaskPath} (h : r.LongestChain path 0)
    (d : TaskPath) : ¬ r.DependsOn path d := fun hd =>
  Nat.not_succ_le_zero 0 (h.2 (.cons hd (.nil d)))

end Registry

/-! ## 3. Plans -/

/-- **What a plan looks like.** -/
theorem Plan.ofTargets_layout {r : Registry} {targets : List String} {plan : Plan}
    (h : Plan.ofTargets r targets = .ok plan) :
    -- the nodes are what can be reached, and the order has each of them once
    (∀ path, path ∈ plan.nodes.map (·.path) ↔ r.Reachable targets path) ∧
    plan.sorted.Nodup ∧ plan.sorted.Perm (plan.nodes.map (·.path)) ∧
    -- dependencies come first
    (∀ path d, r.Reachable targets path → r.DependsOn path d → [d, path].Sublist plan.sorted) ∧
    -- the waves are the lengths of longest chains, and the nodes say so
    (∀ path k, (∃ wave, plan.waves[k]? = some wave ∧ path ∈ wave) ↔
      r.Reachable targets path ∧ r.LongestChain path k) ∧
    (∀ path k, plan.wave? path = some k ↔ r.Reachable targets path ∧ r.LongestChain path k) ∧
    -- the order is that of the waves
    plan.sorted = plan.waves.flatten ∧
    (∀ wave, plan.waves[0]? = some wave → wave.Pairwise r.DeclaredBefore) ∧
    ∀ k wave, plan.waves[k + 1]? = some wave → wave.Pairwise fun a b =>
      ∃ i j, r.LatestAt plan.sorted a i ∧ r.LatestAt plan.sorted b j ∧
        (i < j ∨ i = j ∧ r.DeclaredBefore a b) := by
  obtain ⟨nodes, hm⟩ := exists_made h
  have hnodes (path : TaskPath) : path ∈ plan.nodes.map (·.path) ↔ r.Reachable targets path := by
    rw [hm.map_path_nodes, hm.mem]
  have hwave {k : Nat} {wave : List TaskPath} (hw : plan.waves[k]? = some wave) {path : TaskPath}
      (hp : path ∈ wave) : path ∈ plan.sorted ∧ r.LongestChain path k :=
    hm.mem_wave.mp ⟨wave, hw, hp⟩
  refine ⟨hnodes, hm.taken.nodup, hm.sorted_perm, ?_, ?_, ?_, hm.flatten_waves.symm, ?_, ?_⟩
  · intro path d hp hd
    obtain ⟨before, after, he⟩ := List.append_of_mem ((hm.all path).mpr hp)
    have hb := hm.taken.first before path after he d hd
    rw [he]
    exact (List.singleton_sublist.mpr hb).append (List.singleton_sublist.mpr (by simp))
  · exact fun path k => by rw [hm.mem_wave, hm.all]
  · exact fun path k => by rw [hm.wave?_eq_some, hm.all]
  · intro wave hw
    refine (hm.taken.order.sublist (hm.wave_sublist hw)).imp_of_mem ?_
    intro a b ha hb hab
    obtain ⟨ha, hla⟩ := hwave hw ha
    obtain ⟨hb, hlb⟩ := hwave hw hb
    exact (hm.before_cases ha hb hab).1 hla.not_dependsOn hlb.not_dependsOn
  · intro k wave hw
    refine (hm.taken.order.sublist (hm.wave_sublist hw)).imp_of_mem ?_
    intro a b ha hb hab
    obtain ⟨ha, hla⟩ := hwave hw ha
    obtain ⟨hb, hlb⟩ := hwave hw hb
    obtain ⟨d, hd, -⟩ := hla.next
    obtain ⟨e, he, -⟩ := hlb.next
    exact (hm.before_cases ha hb hab).2 ⟨d, hd⟩ ⟨e, he⟩

/-! ### A diamond -/

namespace Plan

/-- Two tasks between one that needs both and one that both need. -/
def diamond : Registry := .ofTasks
  [{ path := ":top", dependsOn := [":left", ":right"] }, { path := ":right", dependsOn := [":base"] },
    { path := ":left", dependsOn := [":base"] }, { path := ":base" }] []

/-- The plan of the task that needs all others. -/
def diamondPlan : Plan where
  nodes := [⟨":top", [":left", ":right"], 2⟩, ⟨":left", [":base"], 1⟩, ⟨":right", [":base"], 1⟩,
    ⟨":base", [], 0⟩]
  sorted := [":base", ":right", ":left", ":top"]
  waves := [[":base"], [":right", ":left"], [":top"]]

theorem layout_diamond : ofTargets diamond ["top"] = .ok diamondPlan ∧
    diamond.Reachable ["top"] ":base" ∧ diamond.LongestChain ":top" 2 ∧
    diamondPlan.sorted = diamondPlan.waves.flatten := by
  have ho : ofTargets diamond ["top"] = .ok diamondPlan := rfl
  obtain ⟨hnodes, -, -, -, hwaves, -, hflat, -⟩ := ofTargets_layout ho
  exact ⟨ho, (hnodes ":base").mp (by decide),
    ((hwaves ":top" 2).mp ⟨[":top"], rfl, by decide⟩).2, hflat⟩

end Plan

end BuildStream
