/-
# How long a search takes

Whatever a node depends on becomes pending, even if it is pending or a node already.  So what is
pending can grow while the nodes do not, and one path can be taken again and again.  The search
ends because nothing is pending without a reason: a path is pending once for being selected, and
once for each time that the task of some node lists it.

* §1 counts the steps without a limit on them (`Closure.Ends`).  The limit that the search is given
  is then one that it never comes to.
* §2 keeps the account: the paths that were taken and those that are pending are together the
  selected ones and all that was listed so far (`Closure.length_pending_of_step`).
* §3 The nodes are tasks that can be reached, each once.  So a search takes no more steps than there
  are selected paths and entries in the lists of those tasks, and if it succeeds it takes exactly
  as many, since then each of the tasks is a node (`Closure.search_ends`).
-/
import BuildStream.Proofs.Plan.Errors

namespace BuildStream

open Registry

/-! ## 1. Steps without a limit -/

namespace Closure

variable {r : Registry} {selected : List TaskPath} {c next : Closure} {n : Nat}
  {result : Except PlanError (List PlanNode)}

/-- A search ends after so many steps: with its nodes as soon as nothing is pending, or with the
error of its last step. -/
inductive Ends (r : Registry) : Closure → Nat → Except PlanError (List PlanNode) → Prop
  | done {c : Closure} : c.pending = [] → Ends r c 0 (.ok c.nodes)
  | fails {c : Closure} {e : PlanError} :
      c.pending ≠ [] → c.step r = .error e → Ends r c 1 (.error e)
  | goesOn {c next : Closure} {n : Nat} {result : Except PlanError (List PlanNode)} :
      c.pending ≠ [] → c.step r = .ok next → Ends r next n result → Ends r c (n + 1) result

/-- A search ends in one way only. -/
theorem Ends.unique {m : Nat} {other : Except PlanError (List PlanNode)} (h : Ends r c n result)
    (h' : Ends r c m other) : m = n ∧ other = result := by
  induction h generalizing m other with
  | done hp =>
    cases h' with
    | done => exact ⟨rfl, rfl⟩
    | fails hne => exact absurd hp hne
    | goesOn hne => exact absurd hp hne
  | fails hne hs =>
    cases h' with
    | done hp => exact absurd hp hne
    | fails _ hs' =>
      cases hs.symm.trans hs'
      exact ⟨rfl, rfl⟩
    | goesOn _ hs' => exact nomatch hs.symm.trans hs'
  | goesOn hne hs _ ih =>
    cases h' with
    | done hp => exact absurd hp hne
    | fails _ hs' => exact nomatch hs.symm.trans hs'
    | goesOn _ hs' hrest =>
      cases hs.symm.trans hs'
      obtain ⟨rfl, rfl⟩ := ih hrest
      exact ⟨rfl, rfl⟩

/-- **The limit** on steps changes nothing if it is not below their number. -/
theorem Ends.run_eq (h : Ends r c n result) {fuel : Nat} (hf : n ≤ fuel) :
    (run r fuel c).map (·.nodes) = result := by
  induction h generalizing fuel with
  | done hp =>
    cases fuel with
    | zero => rfl
    | succ fuel =>
      rw [run, hp]
      rfl
  | fails hne hs =>
    obtain ⟨fuel, rfl⟩ := Nat.exists_eq_add_of_le' hf
    rw [run, if_neg (by simpa using hne), hs]
    rfl
  | goesOn hne hs _ ih =>
    obtain ⟨fuel, rfl⟩ := Nat.exists_eq_add_of_le' (Nat.le_trans (Nat.le_add_left 1 _) hf)
    rw [run, if_neg (by simpa using hne), hs]
    exact ih (by omega)

/-- A search that is in the middle of its work ends. -/
theorem Searching.exists_ends (h : Searching r selected c) : ∃ n result, Ends r c n result := by
  -- on what there is still to do, since what is pending alone may grow
  induction hl : load r c using Nat.strong_induction_on generalizing c with
  | _ rest ih =>
    by_cases hp : c.pending = []
    · exact ⟨0, _, .done hp⟩
    · rcases step_cases h hp with ⟨next, hs, hnext, hlt⟩ | ⟨path, d, hs, -⟩
      · obtain ⟨n, result, he⟩ := ih (load r next) (hl ▸ hlt) hnext rfl
        exact ⟨n + 1, result, .goesOn hp hs he⟩
      · exact ⟨1, _, .fails hp hs⟩

end Closure

/-! ## 2. What was listed -/

/-- The dependencies of a path, as its task lists them; a path without a task has none. -/
def Registry.listed (r : Registry) (path : TaskPath) : List TaskPath :=
  ((r.get? path).map (·.dependsOn)).getD []

theorem Registry.listed_eq {r : Registry} {path : TaskPath} {task : TaskDefinition}
    (h : r.get? path = some task) : r.listed path = task.dependsOn := by
  rw [listed, h]
  rfl

namespace Closure

variable {r : Registry} {selected : List TaskPath} {c next : Closure} {n : Nat}
  {result : Except PlanError (List PlanNode)}

/-- Everything that the tasks of the nodes list. -/
def listedBy (r : Registry) (c : Closure) : List TaskPath := c.paths.flatMap r.listed

/-- **The account of a step**: one path is taken, and what becomes pending is what a new node
lists. -/
theorem length_pending_of_step (hne : c.pending ≠ []) (hs : c.step r = .ok next) :
    next.pending.length + 1 + (listedBy r c).length =
      c.pending.length + (listedBy r next).length := by
  obtain ⟨path, pending, hp⟩ := List.exists_cons_of_ne_nil hne
  rcases step_eq_ok_cases hp hs with ⟨-, rfl⟩ | ⟨-, task, hg, -, rfl⟩
  · rw [hp, List.length_cons]
    rfl
  · have hlisted : listedBy r ⟨pending ++ task.dependsOn,
        c.nodes ++ [{ path, dependencies := distinct task.dependsOn }]⟩ =
        listedBy r c ++ task.dependsOn := by
      simp [listedBy, paths, listed_eq hg]
    rw [hlisted, hp, List.length_cons, List.length_append, List.length_append]
    omega

/-! ## 3. The number of steps -/

/-- The registered tasks that some paths lead to. -/
def tasksFrom (r : Registry) (selected : List TaskPath) [DecidablePred (FromSelected r selected)] :
    List TaskDefinition :=
  r.tasks.filter fun t => FromSelected r selected t.path

/-- The number of the selected paths and of all entries in the lists of the tasks they lead to. -/
def effort (r : Registry) (selected : List TaskPath) [DecidablePred (FromSelected r selected)] :
    Nat :=
  selected.length + ((tasksFrom r selected).flatMap (·.dependsOn)).length

section

variable [DecidablePred (FromSelected r selected)]

/-- The limit that a search is given, which counts the lists of all tasks, is enough. -/
theorem effort_le_bound : effort r selected ≤ bound r selected :=
  Nat.add_le_add_left (List.filter_sublist.flatMap _).length_le _

theorem nodup_tasksFrom : ((tasksFrom r selected).map (·.path)).Nodup :=
  (List.filter_sublist.map _).nodup r.nodup

theorem mem_tasksFrom {path : TaskPath} : path ∈ (tasksFrom r selected).map (·.path) ↔
    r.contains path = true ∧ FromSelected r selected path := by
  rw [← mem_paths_iff, Registry.paths, tasksFrom]
  simp only [List.mem_map, List.mem_filter, decide_eq_true_eq]
  constructor
  · rintro ⟨task, ⟨hm, hf⟩, rfl⟩
    exact ⟨⟨task, hm, rfl⟩, hf⟩
  · rintro ⟨⟨task, hm, rfl⟩, hf⟩
    exact ⟨task, ⟨hm, hf⟩, rfl⟩

theorem flatMap_listed_tasksFrom :
    ((tasksFrom r selected).map (·.path)).flatMap r.listed =
      (tasksFrom r selected).flatMap (·.dependsOn) := by
  rw [List.flatMap_map]
  refine List.flatMap_congr ?_
  intro task hm
  exact listed_eq (find?_of_mem r.nodup (List.mem_of_mem_filter hm))

/-- The nodes are some of the tasks that can be reached. -/
theorem Searching.subset_tasksFrom (h : Searching r selected c) :
    c.paths ⊆ (tasksFrom r selected).map (·.path) := by
  intro path hp
  obtain ⟨node, hn, rfl⟩ := List.mem_map.mp hp
  obtain ⟨task, hg, -⟩ := h.nodes node hn
  exact mem_tasksFrom.mpr ⟨contains_iff.mpr ⟨task, hg⟩, h.found _ (.inr hp)⟩

/-- So what they list is no more than what those tasks list. -/
theorem Searching.add_listedBy_le (h : Searching r selected c) :
    selected.length + (listedBy r c).length ≤ effort r selected := by
  obtain ⟨some, hperm, hsub⟩ := List.subperm_of_subset h.nodup h.subset_tasksFrom
  rw [effort, ← flatMap_listed_tasksFrom, listedBy, ← (hperm.flatMap_right r.listed).length_eq]
  exact Nat.add_le_add_left (hsub.flatMap r.listed).length_le _

/-- When nothing is pending, all of these tasks are nodes. -/
theorem Searching.add_listedBy_eq (h : Searching r selected c) (hp : c.pending = []) :
    selected.length + (listedBy r c).length = effort r selected := by
  have hperm : c.paths.Perm ((tasksFrom r selected).map (·.path)) := by
    refine (List.perm_ext_iff_of_nodup h.nodup nodup_tasksFrom).mpr ?_
    intro path
    exact ⟨fun hm => h.subset_tasksFrom hm,
      fun hm => ((h.gathered hp).mem path).mpr (mem_tasksFrom.mp hm).2⟩
  rw [effort, ← flatMap_listed_tasksFrom]
  exact congrArg (selected.length + ·) (hperm.flatMap_right r.listed).length_eq

/-- **The number of steps** that a search still takes, from what is pending and what can still be
listed. -/
theorem Ends.add_listedBy (he : Ends r c n result) (h : Searching r selected c) :
    n + (selected.length + (listedBy r c).length) ≤ c.pending.length + effort r selected ∧
      ∀ nodes, result = .ok nodes →
        n + (selected.length + (listedBy r c).length) = c.pending.length + effort r selected := by
  induction he with
  | done hp =>
    rw [hp, h.add_listedBy_eq hp]
    exact ⟨Nat.le_refl _, fun _ _ => rfl⟩
  | fails hne hs =>
    -- the step that fails has taken a path, and made nothing of it
    have hpos := List.length_pos_iff.mpr hne
    have hle := h.add_listedBy_le
    exact ⟨by omega, by simp⟩
  | goesOn hne hs _ ih =>
    have hstep := length_pending_of_step hne hs
    rcases step_cases h hne with ⟨next, hs', hnext, -⟩ | ⟨path, d, hs', -⟩
    · cases hs.symm.trans hs'
      obtain ⟨hle, hok⟩ := ih hnext
      refine ⟨by omega, ?_⟩
      intro nodes hr
      have heq := hok nodes hr
      omega
    · exact nomatch hs.symm.trans hs'

/-- At the start nothing is listed, and what was selected is pending. -/
theorem Ends.le_effort (he : Ends r { pending := selected } n result)
    (h : Searching r selected { pending := selected }) :
    n ≤ effort r selected ∧ ∀ nodes, result = .ok nodes → n = effort r selected := by
  simpa [listedBy, paths, Nat.add_comm n] using he.add_listedBy h

end

/-- **The search for selected tasks** ends, and in one way only.

It takes no more steps than there are selected paths and entries in the lists of the tasks that
they lead to, and never comes to a path without a task.  If it succeeds, it has taken exactly so
many, and its nodes are the paths that the selected ones lead to, each once.  Every node is that of
a registered task and has the dependencies that the task lists, which are nodes as well. -/
theorem search_ends {targets : List String} [DecidablePred (FromSelected r selected)]
    (h : Plan.select r targets = .ok selected) :
    selected.Nodup ∧ ∃ n,
      (∀ m result, Ends r { pending := selected } m result ↔
        m = n ∧ result = nodesOf r selected) ∧
      n ≤ effort r selected ∧
      (∀ path, nodesOf r selected ≠ .error (.taskNotFound path)) ∧
      ∀ nodes, nodesOf r selected = .ok nodes →
        n = effort r selected ∧ (nodes.map (·.path)).Nodup ∧
        (∀ path, path ∈ nodes.map (·.path) ↔ FromSelected r selected path) ∧
        ∀ node ∈ nodes,
          (∃ task, r.get? node.path = some task ∧ node.dependencies.Nodup ∧
            ∀ d, d ∈ node.dependencies ↔ d ∈ task.dependsOn) ∧
          ∀ d ∈ node.dependencies, d ∈ nodes.map (·.path) := by
  have hreg := Plan.contains_of_select h
  have hstart : Searching r selected { pending := selected } := searching_start hreg
  obtain ⟨n, result, he⟩ := hstart.exists_ends
  obtain ⟨hle, hok⟩ := he.le_effort hstart
  obtain rfl : nodesOf r selected = result := he.run_eq (hle.trans effort_le_bound)
  refine ⟨Plan.nodup_selectFrom List.nodup_nil h, n, ?_, hle, ?_⟩
  · intro m other
    constructor
    · exact he.unique
    · rintro ⟨rfl, rfl⟩
      exact he
  · rcases nodesOf_cases hreg with ⟨nodes, hfound, hg⟩ | ⟨path, d, herror, -⟩
    · have heq := hok nodes hfound
      rw [hfound]
      refine ⟨by simp, ?_⟩
      rintro _ ⟨⟩
      refine ⟨heq, hg.nodup, hg.mem, ?_⟩
      intro node hm
      obtain ⟨task, hget, hd, -⟩ := hg.node node hm
      refine ⟨⟨task, hget, hd ▸ nodup_distinct _, fun d => by rw [hd, mem_distinct]⟩, ?_⟩
      intro d hdep
      exact (Plan.covers_nodes hg).closed node hm d ((hg.node node hm).mem_dependencies.mp hdep)
    · rw [herror]
      exact ⟨by simp, by simp⟩

/-! ### A tangle -/

/-- Two tasks that depend on each other and on a third one, which depends on itself; one of them
lists the other twice.  Nothing leads to the fourth. -/
def tangle : Registry := .ofTasks
  [{ path := ":app:test", dependsOn := [":app:compile", ":lib:compile", ":app:compile"] },
    { path := ":app:compile", dependsOn := [":lib:compile", ":app:test"] },
    { path := ":lib:compile", dependsOn := [":lib:compile"] },
    { path := ":lint", dependsOn := [":app:test", ":lint"] }] []

/-- The nodes of the tangle. -/
def tangleNodes : List PlanNode :=
  [{ path := ":app:test", dependencies := [":app:compile", ":lib:compile"] },
    { path := ":app:compile", dependencies := [":lib:compile", ":app:test"] },
    { path := ":lib:compile", dependencies := [":lib:compile"] }]

/-- Three paths are selected and six are listed, so nine are taken for the three nodes. -/
theorem search_tangle :
    Plan.select tangle [":app:test", "compile"] =
        .ok [":app:test", ":app:compile", ":lib:compile"] ∧
      Ends tangle { pending := [":app:test", ":app:compile", ":lib:compile"] } 9
        (.ok tangleNodes) ∧
      ¬ FromSelected tangle [":app:test", ":app:compile", ":lib:compile"] ":lint" := by
  have hselect : Plan.select tangle [":app:test", "compile"] =
      .ok [":app:test", ":app:compile", ":lib:compile"] := rfl
  have hnodes : nodesOf tangle [":app:test", ":app:compile", ":lib:compile"] = .ok tangleNodes := rfl
  classical
  obtain ⟨-, n, hends, -, -, hfound⟩ := search_ends hselect
  obtain ⟨hn, -, hmem, -⟩ := hfound tangleNodes hnodes
  have hlint : ¬ FromSelected tangle [":app:test", ":app:compile", ":lib:compile"] ":lint" :=
    fun hl => absurd ((hmem _).mpr hl) (by decide)
  have htasks : tasksFrom tangle [":app:test", ":app:compile", ":lib:compile"] =
      tangle.tasks.filter fun t => t.path ∈ tangleNodes.map (·.path) :=
    List.filter_congr fun t _ => decide_eq_decide.mpr (hmem t.path).symm
  have heffort : effort tangle [":app:test", ":app:compile", ":lib:compile"] = 9 := by
    rw [effort, htasks]
    rfl
  exact ⟨hselect, (hends 9 _).mpr ⟨(hn.trans heffort).symm, hnodes.symm⟩, hlint⟩

end Closure

end BuildStream
