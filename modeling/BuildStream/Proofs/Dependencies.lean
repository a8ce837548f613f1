/-
# The graph of a registry

What a plan has to do with is a graph: its nodes are the registered paths, and there is an edge
from a task to each path that it depends on (`Registry.DependsOn`), registered or not.  Nothing is
assumed of the graph; a task may depend on itself, on one path several times, and on paths in a
circle.

Targets select tasks (`Registry.Selects`), and what is reachable from the selected ones has to be
planned (`Registry.Reachable`).  Two facts of finite graphs are needed.

* Where every member of a list leads to another, every member leads to a cycle
  (`exists_cycle_of_forall_mem`).
* A longest chain of edges goes on with a longest chain (`LongestChain.next`).
-/
import BuildStream.Task
import Mathlib.Data.Set.Finite.Basic
import Mathlib.Logic.Relation
import Mathlib.Order.Bounds.Basic

namespace BuildStream

open Relation

namespace Registry

/-! ## 1. Edges -/

/-- A task has a path among those it depends on. -/
def DependsOn (r : Registry) (path dependency : TaskPath) : Prop :=
  ∃ task, r.get? path = some task ∧ dependency ∈ task.dependsOn

/-- A target selects a task: the one with its path if it is rooted, and otherwise every task with
its name. -/
def Selects (r : Registry) (target : String) (path : TaskPath) : Prop :=
  r.contains path = true ∧
    if TaskPath.isRooted target then path = target else TaskPath.name path = target

/-- Some task is selected by a target. -/
def Resolves (r : Registry) (target : String) : Prop := ∃ path, r.Selects target path

/-- A path leads to another along any number of edges. -/
abbrev LeadsTo (r : Registry) : TaskPath → TaskPath → Prop := ReflTransGen r.DependsOn

/-- What targets select, and everything it depends on. -/
def Reachable (r : Registry) (targets : List String) (path : TaskPath) : Prop :=
  ∃ target ∈ targets, ∃ selected, r.Selects target selected ∧ r.LeadsTo selected path

/-- A path on a cycle. -/
def OnCycle (r : Registry) (path : TaskPath) : Prop := TransGen r.DependsOn path path

/-- A path from which a cycle can be reached. -/
def LeadsToCycle (r : Registry) (path : TaskPath) : Prop :=
  ∃ knot, r.LeadsTo path knot ∧ r.OnCycle knot

variable {r : Registry} {path : TaskPath}

theorem path_of_get? {task : TaskDefinition} (h : r.get? path = some task) : task.path = path := by
  have hp := List.find?_some h
  simpa using hp

theorem get?_path {task : TaskDefinition} (h : r.get? path = some task) :
    r.get? task.path = some task := by
  rw [path_of_get? h]
  exact h

theorem contains_iff : r.contains path = true ↔ ∃ task, r.get? path = some task :=
  Option.isSome_iff_exists

theorem mem_paths_iff : path ∈ r.paths ↔ r.contains path = true := by
  rw [paths, List.mem_map, contains, get?, List.find?_isSome]
  simp

/-- What a registered task depends on is what it says. -/
theorem dependsOn_iff {task : TaskDefinition} (h : r.get? path = some task)
    {dependency : TaskPath} : r.DependsOn path dependency ↔ dependency ∈ task.dependsOn := by
  refine ⟨fun ⟨other, ho, hm⟩ => ?_, fun hm => ⟨task, h, hm⟩⟩
  obtain rfl : task = other := Option.some.inj (h.symm.trans ho)
  exact hm

theorem nodup_paths (r : Registry) : r.paths.Nodup := r.nodup

theorem Reachable.next {targets : List String} {dependency : TaskPath}
    (h : r.Reachable targets path) (hd : r.DependsOn path dependency) :
    r.Reachable targets dependency := by
  obtain ⟨target, ht, selected, hs, hp⟩ := h
  exact ⟨target, ht, selected, hs, hp.tail hd⟩

theorem Reachable.leadsTo {targets : List String} {other : TaskPath}
    (h : r.Reachable targets path) (hl : r.LeadsTo path other) : r.Reachable targets other := by
  obtain ⟨target, ht, selected, hs, hp⟩ := h
  exact ⟨target, ht, selected, hs, hp.trans hl⟩

end Registry

/-! ## 2. Cycles -/

/-- **Where there is always a next member, there is a cycle.**  The members are finitely many, so
they cannot all be different for ever. -/
theorem exists_cycle_of_forall_mem {α : Type} {R : α → α → Prop} {l : List α}
    (h : ∀ a ∈ l, ∃ b ∈ l, R a b) {a : α} (ha : a ∈ l) :
    ∃ c ∈ l, ReflTransGen R a c ∧ TransGen R c c := by
  by_contra hn
  push Not at hn
  -- without a cycle the members that `a` leads to would be well-founded
  let S := {c : α // c ∈ l ∧ ReflTransGen R a c}
  let below : S → S → Prop := fun x y => TransGen R y.1 x.1
  have hfin : Finite S :=
    Set.Finite.subset (List.finite_toSet l) fun c (hc : c ∈ l ∧ ReflTransGen R a c) => hc.1
  have htrans : IsTrans S below := ⟨fun x y z hxy hyz => hyz.trans hxy⟩
  have hirrefl : Std.Irrefl below := ⟨fun x hx => hn x.1 x.2.1 x.2.2 hx⟩
  have hwf : WellFounded below := Finite.wellFounded_of_trans_of_irrefl below
  have hnone (x : S) : False := by
    induction x using hwf.induction with
    | _ x ih =>
      obtain ⟨b, hb, hr⟩ := h x.1 x.2.1
      exact ih ⟨b, hb, x.2.2.tail hr⟩ (.single hr)
  exact hnone ⟨a, ha, .refl⟩

namespace Registry

variable {r : Registry} {path : TaskPath}

/-! ## 3. Chains -/

/-- There is a chain of so many edges from a path. -/
inductive Chain (r : Registry) : TaskPath → Nat → Prop
  | nil (path : TaskPath) : Chain r path 0
  | cons {path dependency : TaskPath} {n : Nat} :
      r.DependsOn path dependency → Chain r dependency n → Chain r path (n + 1)

/-- The longest chain of edges from a path has so many. -/
def LongestChain (r : Registry) (path : TaskPath) (n : Nat) : Prop :=
  IsGreatest {m | r.Chain path m} n

theorem LongestChain.unique {m n : Nat} (h : r.LongestChain path m) (h' : r.LongestChain path n) :
    m = n :=
  IsGreatest.unique h h'

/-- What a task depends on has a shorter longest chain. -/
theorem LongestChain.lt_of_dependsOn {dependency : TaskPath} {m n : Nat}
    (h : r.LongestChain path n) (hd : r.DependsOn path dependency)
    (h' : r.LongestChain dependency m) : m < n :=
  h.2 (.cons hd h'.1)

/-- A longest chain goes on with a longest chain. -/
theorem LongestChain.next {n : Nat} (h : r.LongestChain path (n + 1)) :
    ∃ dependency, r.DependsOn path dependency ∧ r.LongestChain dependency n := by
  cases h.1 with
  | @cons _ dependency _ hd hc =>
    refine ⟨dependency, hd, hc, ?_⟩
    intro m hm
    have hle : m + 1 ≤ n + 1 := h.2 (.cons hd hm)
    omega

end Registry

end BuildStream
