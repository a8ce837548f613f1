/-
# What is planned

The nodes of a plan are what can be reached from the selected tasks, and the search for them fails
exactly where something that can be reached depends on a path that is not registered.

* §1 Selection fails at the first target that selects nothing, and selects registered paths only.
* §2 What a step does is said once (`Closure.step_eq_ok_cases`).  The search keeps `Searching`:
  everything that was found can be reached, and whatever a node depends on is a node or pending.
  When nothing is pending the nodes are closed, so everything that can be reached is among them.
* §3 The search ends within its bound.  What it has still to do (`Closure.load`) is the pending
  paths and the dependencies of the tasks that are no nodes; a step takes one pending path and
  adds the dependencies of a node to the pending ones at most once.
-/
import BuildStream.Plan
import BuildStream.Proofs.Dependencies
import BuildStream.Proofs.Distinct
import Mathlib.Data.List.Flatten

namespace BuildStream

open Registry

/-! ## 1. Selection -/

/-- The first of the targets that selects nothing. -/
def FirstMissing (r : Registry) (targets : List String) (target : String) : Prop :=
  ∃ before after, targets = before ++ target :: after ∧ (∀ t ∈ before, r.Resolves t) ∧
    ¬ r.Resolves target

namespace Plan

variable {r : Registry}

theorem mem_pathsOf (r : Registry) (target : String) (path : TaskPath) :
    path ∈ (if TaskPath.isRooted target then (r.get? target).toList.map (·.path)
      else (r.named target).map (·.path)) ↔ r.Selects target path := by
  unfold Selects
  split
  · rw [List.mem_map]
    constructor
    · rintro ⟨task, hm, rfl⟩
      have hg : r.get? target = some task := by simpa using hm
      rw [path_of_get? hg]
      exact ⟨contains_iff.mpr ⟨task, hg⟩, rfl⟩
    · rintro ⟨hc, rfl⟩
      obtain ⟨task, hg⟩ := contains_iff.mp hc
      exact ⟨task, by simp [hg], path_of_get? hg⟩
  · rw [List.mem_map, ← mem_paths_iff, paths, List.mem_map, named]
    constructor
    · rintro ⟨task, hm, rfl⟩
      obtain ⟨hm, hn⟩ := List.mem_filter.mp hm
      exact ⟨⟨task, hm, rfl⟩, by simpa using hn⟩
    · rintro ⟨⟨task, hm, rfl⟩, hn⟩
      exact ⟨task, List.mem_filter.mpr ⟨hm, by simpa using hn⟩, rfl⟩

/-- One target selects some tasks, or is not found. -/
theorem pathsOf_cases (r : Registry) (target : String) :
    (∃ paths, pathsOf r target = .ok paths ∧ r.Resolves target ∧
      ∀ path, path ∈ paths ↔ r.Selects target path) ∨
    (pathsOf r target = .error (.taskNotFound target) ∧ ¬ r.Resolves target) := by
  have hm := mem_pathsOf r target
  unfold pathsOf
  generalize (if TaskPath.isRooted target then (r.get? target).toList.map (·.path)
      else (r.named target).map (·.path)) = paths at hm
  dsimp only
  cases paths with
  | nil => exact .inr ⟨rfl, fun ⟨path, hs⟩ => nomatch (hm path).mpr hs⟩
  | cons path paths => exact .inl ⟨_, rfl, ⟨path, (hm path).mp (by simp)⟩, hm⟩

/-- **Selection** finds what the targets select, or fails at the first that selects nothing. -/
theorem selectFrom_cases (r : Registry) (selected : List TaskPath) (targets : List String) :
    (∃ all, selectFrom r selected targets = .ok all ∧ (∀ t ∈ targets, r.Resolves t) ∧
      ∀ path, path ∈ all ↔ path ∈ selected ∨ ∃ t ∈ targets, r.Selects t path) ∨
    ∃ target, selectFrom r selected targets = .error (.taskNotFound target) ∧
      FirstMissing r targets target := by
  induction targets generalizing selected with
  | nil => exact .inl ⟨selected, rfl, by simp, by simp⟩
  | cons target targets ih =>
    unfold selectFrom
    rcases pathsOf_cases r target with ⟨paths, hp, hr, hm⟩ | ⟨hp, hr⟩
    · rw [hp]
      rcases ih (addAllNew selected paths) with ⟨all, ha, hrs, hall⟩ | ⟨t, ht, hf⟩
      · refine .inl ⟨all, ha, by simpa using ⟨hr, hrs⟩, ?_⟩
        intro path
        rw [hall, mem_addAllNew, hm, List.exists_mem_cons_iff, or_assoc]
      · obtain ⟨before, after, rfl, hb, hn⟩ := hf
        exact .inr ⟨t, ht, target :: before, after, rfl, by simpa using ⟨hr, hb⟩, hn⟩
    · rw [hp]
      exact .inr ⟨target, rfl, [], targets, rfl, by simp, hr⟩

theorem nodup_selectFrom {before selected : List TaskPath} {targets : List String}
    (hn : before.Nodup) (h : selectFrom r before targets = .ok selected) : selected.Nodup := by
  induction targets generalizing before with
  | nil =>
    cases h
    exact hn
  | cons target targets ih =>
    rw [selectFrom] at h
    split at h
    · exact ih (nodup_addAllNew hn) h
    · exact nomatch h

/-- What targets select is registered. -/
theorem contains_of_select {selected : List TaskPath} {targets : List String}
    (h : select r targets = .ok selected) : ∀ path ∈ selected, r.contains path = true := by
  rcases selectFrom_cases r [] targets with ⟨all, hs, -, hall⟩ | ⟨target, hs, -⟩
  · cases hs.symm.trans h
    intro path hp
    obtain ⟨target, -, hselects⟩ := ((hall path).mp hp).resolve_left List.not_mem_nil
    exact hselects.1
  · cases hs.symm.trans h

end Plan

/-! ## 2. The search -/

/-- The paths that some paths lead to. -/
def FromSelected (r : Registry) (selected : List TaskPath) (path : TaskPath) : Prop :=
  ∃ start ∈ selected, r.LeadsTo start path

/-- A node says what the registry says, and everything it depends on is registered. -/
def NodeOf (r : Registry) (n : PlanNode) : Prop :=
  ∃ task, r.get? n.path = some task ∧ n.dependencies = distinct task.dependsOn ∧
    ∀ d ∈ task.dependsOn, r.contains d = true

theorem NodeOf.mem_dependencies {r : Registry} {n : PlanNode} (h : NodeOf r n) {d : TaskPath} :
    d ∈ n.dependencies ↔ r.DependsOn n.path d := by
  obtain ⟨task, hg, hd, -⟩ := h
  rw [hd, mem_distinct, dependsOn_iff hg]

theorem NodeOf.nodup_dependencies {r : Registry} {n : PlanNode} (h : NodeOf r n) :
    n.dependencies.Nodup := by
  obtain ⟨task, -, hd, -⟩ := h
  exact hd ▸ nodup_distinct _

theorem NodeOf.contains {r : Registry} {n : PlanNode} (h : NodeOf r n) {d : TaskPath}
    (hd : r.DependsOn n.path d) : r.contains d = true := by
  obtain ⟨task, hg, -, hc⟩ := h
  exact hc d ((dependsOn_iff hg).mp hd)

namespace Closure

variable {r : Registry} {selected : List TaskPath}

/-- The paths of the nodes. -/
def paths (c : Closure) : List TaskPath := c.nodes.map (·.path)

theorem has_iff {c : Closure} {path : TaskPath} : c.has path = true ↔ path ∈ c.paths := by
  simp [has, paths]

/-- **What a step does**: it passes over a path that is a node already, or makes a node of a path
whose task and dependencies are all registered. -/
theorem step_eq_ok_cases {c next : Closure} {path : TaskPath} {pending : List TaskPath}
    (hp : c.pending = path :: pending) (hs : c.step r = .ok next) :
    (path ∈ c.paths ∧ next = { c with pending }) ∨
    (path ∉ c.paths ∧ ∃ task, r.get? path = some task ∧
      (∀ d ∈ task.dependsOn, r.contains d = true) ∧
      next = ⟨pending ++ task.dependsOn,
        c.nodes ++ [{ path, dependencies := distinct task.dependsOn }]⟩) := by
  rw [step, hp] at hs
  dsimp only at hs
  split at hs
  · next hm =>
    cases hs
    exact .inl ⟨has_iff.mp hm, rfl⟩
  · next hm =>
    split at hs
    · exact nomatch hs
    · next task hg =>
      split at hs
      · exact nomatch hs
      · next hu =>
        cases hs
        exact .inr ⟨fun hx => hm (has_iff.mpr hx), task, hg, by simpa [unknown?] using hu, rfl⟩

/-- A search in the middle of its work. -/
structure Searching (r : Registry) (selected : List TaskPath) (c : Closure) : Prop where
  nodup : c.paths.Nodup
  nodes : ∀ n ∈ c.nodes, NodeOf r n
  registered : ∀ path ∈ c.pending, r.contains path = true
  found : ∀ path, path ∈ c.pending ∨ path ∈ c.paths → FromSelected r selected path
  kept : ∀ path ∈ selected, path ∈ c.pending ∨ path ∈ c.paths
  closed : ∀ path ∈ c.paths, ∀ d, r.DependsOn path d → d ∈ c.pending ∨ d ∈ c.paths

theorem searching_start (h : ∀ path ∈ selected, r.contains path = true) :
    Searching r selected { pending := selected } where
  nodup := List.nodup_nil
  nodes := by simp
  registered := h
  found := fun path hp => ⟨path, by simpa [paths] using hp, .refl⟩
  kept := fun path hp => .inl hp
  closed := by simp [paths]

/-- A pending path that is a node already is passed over. -/
theorem Searching.pass {c : Closure} {path : TaskPath} {pending : List TaskPath}
    (h : Searching r selected c) (hp : c.pending = path :: pending) (hm : path ∈ c.paths) :
    Searching r selected { c with pending } := by
  have hsub {p : TaskPath} (hx : p ∈ c.pending ∨ p ∈ c.paths) : p ∈ pending ∨ p ∈ c.paths := by
    rcases hx with hx | hx
    · rw [hp] at hx
      rcases List.mem_cons.mp hx with rfl | hx
      · exact .inr hm
      · exact .inl hx
    · exact .inr hx
  refine ⟨h.nodup, h.nodes, fun p hx => h.registered p (by simp [hp, hx]), fun p hx => ?_,
    fun p hx => hsub (h.kept p hx), fun p hx d hd => hsub (h.closed p hx d hd)⟩
  exact h.found p (hx.imp (fun hx => by simp [hp, hx]) id)

/-- A pending path becomes a node, and its dependencies become pending. -/
theorem Searching.add {c : Closure} {path : TaskPath} {pending : List TaskPath}
    {task : TaskDefinition} (h : Searching r selected c) (hp : c.pending = path :: pending)
    (hm : path ∉ c.paths) (hg : r.get? path = some task)
    (hd : ∀ d ∈ task.dependsOn, r.contains d = true) :
    Searching r selected ⟨pending ++ task.dependsOn,
      c.nodes ++ [{ path, dependencies := distinct task.dependsOn }]⟩ := by
  have hpaths : paths ⟨pending ++ task.dependsOn,
      c.nodes ++ [{ path, dependencies := distinct task.dependsOn }]⟩ = c.paths ++ [path] := by
    simp [paths]
  have hpath : FromSelected r selected path := h.found path (.inl (by simp [hp]))
  have hsub {p : TaskPath} (hx : p ∈ c.pending ∨ p ∈ c.paths) :
      p ∈ pending ++ task.dependsOn ∨ p ∈ c.paths ++ [path] := by
    rw [hp, List.mem_cons] at hx
    simp only [List.mem_append, List.mem_singleton]
    tauto
  refine ⟨?_, ?_, ?_, ?_, ?_, ?_⟩
  · rw [hpaths]
    exact h.nodup.append (List.nodup_singleton path) (by simpa using hm)
  · intro n hn
    rcases List.mem_append.mp hn with hn | hn
    · exact h.nodes n hn
    · rw [List.mem_singleton.mp hn]
      exact ⟨task, hg, rfl, hd⟩
  · intro p hx
    rcases List.mem_append.mp hx with hx | hx
    · exact h.registered p (by simp [hp, hx])
    · exact hd p hx
  · intro p hx
    rw [hpaths] at hx
    simp only [List.mem_append, List.mem_singleton] at hx
    rcases hx with (hx | hx) | hx | rfl
    · exact h.found p (.inl (by simp [hp, hx]))
    · obtain ⟨start, hs, hl⟩ := hpath
      exact ⟨start, hs, hl.tail ((dependsOn_iff hg).mpr hx)⟩
    · exact h.found p (.inr hx)
    · exact hpath
  · intro p hx
    rw [hpaths]
    exact hsub (h.kept p hx)
  · intro p hx d hpd
    rw [hpaths] at hx ⊢
    rcases List.mem_append.mp hx with hx | hx
    · exact hsub (h.closed p hx d hpd)
    · rw [List.mem_singleton.mp hx] at hpd
      exact .inl (List.mem_append_right _ ((dependsOn_iff hg).mp hpd))

/-! ## 3. The search ends -/

/-- What the search has still to do: pending paths, and dependencies of tasks that are no nodes. -/
def load (r : Registry) (c : Closure) : Nat :=
  c.pending.length + ((r.tasks.filter fun t => !c.has t.path).flatMap (·.dependsOn)).length

theorem length_flatMap_filter_add_le {α β : Type} {f : α → List β} {p : α → Bool} {l : List α}
    {a : α} (ha : a ∈ l) (hp : p a = false) :
    ((l.filter p).flatMap f).length + (f a).length ≤ (l.flatMap f).length := by
  obtain ⟨before, after, rfl⟩ := List.append_of_mem ha
  have hbefore := ((List.filter_sublist (p := p) (l := before)).flatMap f).length_le
  have hafter := ((List.filter_sublist (p := p) (l := after)).flatMap f).length_le
  rw [List.filter_append, List.filter_cons_of_neg (by simp [hp])]
  simp only [List.flatMap_append, List.flatMap_cons, List.length_append]
  omega

/-- A new node takes the dependencies of its task from what has still to be done. -/
theorem load_add {c : Closure} {path : TaskPath} {pending : List TaskPath} {task : TaskDefinition}
    (hp : c.pending = path :: pending) (hm : path ∉ c.paths) (hg : r.get? path = some task) :
    load r ⟨pending ++ task.dependsOn,
      c.nodes ++ [{ path, dependencies := distinct task.dependsOn }]⟩ < load r c := by
  have hpath := path_of_get? hg
  have hmem : task ∈ r.tasks.filter fun t => !c.has t.path := by
    refine List.mem_filter.mpr ⟨List.mem_of_find?_eq_some hg, ?_⟩
    rw [hpath, Bool.not_eq_true', ← Bool.not_eq_true, has_iff]
    exact hm
  have hle := length_flatMap_filter_add_le (f := (·.dependsOn))
    (p := fun t => t.path != path) hmem (by simp [hpath])
  have hfilter : (r.tasks.filter fun t => !c.has t.path).filter (fun t => t.path != path) =
      r.tasks.filter fun t => !(Closure.mk (pending ++ task.dependsOn)
        (c.nodes ++ [{ path, dependencies := distinct task.dependsOn }])).has t.path := by
    rw [List.filter_filter]
    refine List.filter_congr ?_
    intro t _
    simp only [has, List.any_append, List.any_cons, List.any_nil, Bool.or_false, Bool.not_or]
    rw [Bool.and_comm, bne, BEq.comm]
  rw [hfilter] at hle
  unfold load
  rw [hp, List.length_cons, List.length_append]
  omega

/-- A dependency of something that can be reached is not registered. -/
def UnknownFrom (r : Registry) (selected : List TaskPath) (path dependency : TaskPath) : Prop :=
  FromSelected r selected path ∧ r.DependsOn path dependency ∧ r.contains dependency = false

/-- **A step** takes a pending path and leaves less to do, or finds an unknown dependency. -/
theorem step_cases {c : Closure} (h : Searching r selected c) (hne : c.pending ≠ []) :
    (∃ next, c.step r = .ok next ∧ Searching r selected next ∧ load r next < load r c) ∨
    ∃ path d, c.step r = .error (.unknownDependency path d) ∧ UnknownFrom r selected path d := by
  unfold step
  cases hp : c.pending with
  | nil => exact absurd hp hne
  | cons path pending =>
    dsimp only
    split
    · next hm =>
      refine .inl ⟨_, rfl, h.pass hp (has_iff.mp hm), ?_⟩
      simp [load, has, hp]
    · next hm =>
      have hnew : path ∉ c.paths := fun hx => hm (has_iff.mpr hx)
      obtain ⟨task, hg⟩ := contains_iff.mp (h.registered path (by simp [hp]))
      rw [hg]
      dsimp only
      cases hu : unknown? r task with
      | none =>
        have hd : ∀ d ∈ task.dependsOn, r.contains d = true := by
          simpa [unknown?] using hu
        exact .inl ⟨_, rfl, h.add hp hnew hg hd, load_add hp hnew hg⟩
      | some d =>
        refine .inr ⟨path, d, rfl, h.found path (.inl (by simp [hp])), ⟨task, hg, ?_⟩, ?_⟩
        · exact List.mem_of_find?_eq_some hu
        · simpa using List.find?_some hu

/-- What a search has found when nothing is pending. -/
structure Gathered (r : Registry) (selected : List TaskPath) (nodes : List PlanNode) : Prop where
  nodup : (nodes.map (·.path)).Nodup
  node : ∀ n ∈ nodes, NodeOf r n
  mem : ∀ path, path ∈ nodes.map (·.path) ↔ FromSelected r selected path

theorem Searching.gathered {c : Closure} (h : Searching r selected c) (hp : c.pending = []) :
    Gathered r selected c.nodes := by
  refine ⟨h.nodup, h.nodes, fun path => ⟨fun hm => h.found path (.inr hm), ?_⟩⟩
  rintro ⟨start, hs, hl⟩
  induction hl with
  | refl => simpa [hp, paths] using h.kept start hs
  | tail _ hd ih => simpa [hp, paths] using h.closed _ ih _ hd

theorem run_cases {c : Closure} {fuel : Nat} (h : Searching r selected c) (hf : load r c ≤ fuel) :
    (∃ final, run r fuel c = .ok final ∧ Gathered r selected final.nodes) ∨
    ∃ path d, run r fuel c = .error (.unknownDependency path d) ∧ UnknownFrom r selected path d := by
  induction fuel generalizing c with
  | zero =>
    have hp : c.pending = [] := List.length_eq_zero_iff.mp (by unfold load at hf; omega)
    exact .inl ⟨c, rfl, h.gathered hp⟩
  | succ fuel ih =>
    unfold run
    split
    · next hp => exact .inl ⟨c, rfl, h.gathered (List.isEmpty_iff.mp hp)⟩
    · next hp =>
      rcases step_cases h (by simpa using hp) with ⟨next, hs, hn, hl⟩ | ⟨path, d, hs, hu⟩
      · rw [hs]
        exact ih hn (by omega)
      · rw [hs]
        exact .inr ⟨path, d, rfl, hu⟩

/-- **The search** gathers what can be reached from the selected paths, or finds something among it
that depends on a path that is not registered. -/
theorem nodesOf_cases (h : ∀ path ∈ selected, r.contains path = true) :
    (∃ nodes, nodesOf r selected = .ok nodes ∧ Gathered r selected nodes) ∨
    ∃ path d, nodesOf r selected = .error (.unknownDependency path d) ∧
      UnknownFrom r selected path d := by
  have hl : load r { pending := selected } ≤ bound r selected := by
    simp [load, bound, has]
  unfold nodesOf
  rcases run_cases (searching_start h) hl with ⟨final, hr, hg⟩ | ⟨path, d, hr, hu⟩
  · rw [hr]
    exact .inl ⟨_, rfl, hg⟩
  · rw [hr]
    exact .inr ⟨path, d, rfl, hu⟩

/-- Where everything was gathered, no dependency is unknown. -/
theorem Gathered.not_unknown {nodes : List PlanNode} (h : Gathered r selected nodes)
    {path d : TaskPath} : ¬ UnknownFrom r selected path d := by
  rintro ⟨hf, hd, hc⟩
  obtain ⟨n, hn, rfl⟩ := List.mem_map.mp ((h.mem path).mpr hf)
  rw [(h.node n hn).contains hd] at hc
  exact nomatch hc

end Closure

end BuildStream
