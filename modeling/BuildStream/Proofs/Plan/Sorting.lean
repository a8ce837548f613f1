/-
# Every step of sorting

A count that is lowered too often would stop at zero and show nothing.  So what is said of the
counts here is said after any number of steps, and not of the order at the end alone
(`TaskOrder.sorting_steps`).

* **The counts.**  A node's count is the number of its dependencies that were not taken, at every
  step.  The path that is taken next is one of these for each node that depends on it, so no count
  is lowered from zero.
* **The queue.**  What was taken and what waits is, in this order, everything that ever entered the
  queue (`TaskOrder.entered_eq`), and no path is there twice.
* **The end.**  Each step takes a path, so after as many steps as paths were taken the queue is
  empty.  The paths that were taken are then those from which no cycle can be reached.

The nodes are those of any search that succeeds.  That the paths it started from are registered
need not be asked for: the search comes to each of them before its steps are used up
(`Closure.contains_of_run`).
-/
import BuildStream.Proofs.Plan.Errors

namespace BuildStream

open Registry

/-! ## 1. What a search started from -/

namespace Closure

variable {r : Registry}

/-- A step takes the first pending path, which is a node already or else is registered. -/
theorem step_eq_ok {c next : Closure} {path : TaskPath} {pending : List TaskPath}
    (hp : c.pending = path :: pending) (hs : c.step r = .ok next) :
    (c.has path = true ∨ r.contains path = true) ∧ pending <+: next.pending ∧
      ∀ p, next.has p = true → c.has p = true ∨ p = path := by
  rcases step_eq_ok_cases hp hs with ⟨hm, rfl⟩ | ⟨-, task, hg, -, rfl⟩
  · exact ⟨.inl (has_iff.mpr hm), List.prefix_refl _, fun _ => .inl⟩
  · refine ⟨.inr (contains_iff.mpr ⟨task, hg⟩), List.prefix_append _ _, ?_⟩
    intro p hx
    simp only [has, List.any_append, List.any_cons, List.any_nil, Bool.or_false, Bool.or_eq_true,
      beq_iff_eq] at hx ⊢
    exact hx.imp_right Eq.symm

/-- Of the pending paths, those that the steps are enough for turn out to be registered. -/
theorem contains_of_run {fuel : Nat} {c final : Closure} (h : run r fuel c = .ok final) :
    ∀ path ∈ c.pending.take fuel, c.has path = true ∨ r.contains path = true := by
  induction fuel generalizing c with
  | zero => simp
  | succ fuel ih =>
    cases hp : c.pending with
    | nil => simp
    | cons first pending =>
      rw [run, hp, if_neg (by simp)] at h
      cases hs : c.step r with
      | error e => rw [hs] at h; exact nomatch h
      | ok next =>
        rw [hs] at h
        obtain ⟨hfirst, ⟨more, hnext⟩, hhas⟩ := step_eq_ok hp hs
        intro path hm
        rw [List.take_succ_cons, List.mem_cons] at hm
        rcases hm with rfl | hm
        · exact hfirst
        · have hmore : path ∈ next.pending.take fuel := by
            rw [← hnext, List.take_append]
            exact List.mem_append_left _ hm
          rcases ih h path hmore with hn | hc
          · rcases hhas path hn with hn | rfl
            · exact .inl hn
            · exact hfirst
          · exact .inr hc

/-- **A search that succeeds** has gathered what can be reached, and it started from registered
paths. -/
theorem gathered_of_nodesOf {selected : List TaskPath} {nodes : List PlanNode}
    (h : nodesOf r selected = .ok nodes) : Gathered r selected nodes := by
  have hs : ∀ path ∈ selected, r.contains path = true := by
    intro path hp
    unfold nodesOf at h
    cases hr : run r (bound r selected) { pending := selected } with
    | error e => rw [hr] at h; cases h
    | ok final =>
      have hle : selected.length ≤ bound r selected := Nat.le_add_right _ _
      have hm : path ∈ selected.take (bound r selected) := by rwa [List.take_of_length_le hle]
      exact (contains_of_run hr path hm).resolve_left (by simp [has])
  rcases nodesOf_cases hs with ⟨found, hf, hg⟩ | ⟨path, d, hf, -⟩
  · obtain rfl : found = nodes := Except.ok.inj (hf.symm.trans h)
    exact hg
  · cases hf.symm.trans h

end Closure

/-! ## 2. After so many steps -/

namespace TaskOrder

variable {r : Registry} {declared : List PlanNode}

/-- The order after so many steps. -/
def after (declared : List PlanNode) : Nat → TaskOrder
  | 0 => start declared
  | k + 1 => (after declared k).step

/-- What a step puts into the queue, behind what is left of it. -/
def entering (o : TaskOrder) : List TaskPath := o.step.queue.drop o.queue.tail.length

/-- Everything that entered the queue up to a step, from the first to the last. -/
def entered (declared : List PlanNode) : Nat → List TaskPath
  | 0 => (start declared).queue
  | k + 1 => entered declared k ++ entering (after declared k)

theorem step_of_queue_eq_nil {o : TaskOrder} (hq : o.queue = []) : o.step = o := by
  rw [step, hq]

theorem step_of_queue_eq_cons {o : TaskOrder} {taken : TaskPath} {queue : List TaskPath}
    (hq : o.queue = taken :: queue) :
    o.step = ⟨o.waiting.map (lower taken), queue ++ readyAfter o taken, o.sorted ++ [taken]⟩ := by
  rw [step, hq]
  rfl

theorem ordering_after (hc : Covers r declared) (k : Nat) :
    Ordering r declared (after declared k) := by
  induction k with
  | zero => exact ordering_start hc
  | succ k ih =>
    rw [after]
    cases hq : (after declared k).queue with
    | nil => rwa [step_of_queue_eq_nil hq]
    | cons taken queue =>
      rw [step_of_queue_eq_cons hq]
      exact ih.step hc hq

/-- **Everything that entered the queue** was taken or waits, in the order in which it entered. -/
theorem entered_eq (declared : List PlanNode) (k : Nat) :
    entered declared k = (after declared k).sorted ++ (after declared k).queue := by
  induction k with
  | zero => rfl
  | succ k ih =>
    rw [entered, ih, after, entering]
    cases hq : (after declared k).queue with
    | nil => simp [step_of_queue_eq_nil hq, hq]
    | cons taken queue => simp [step_of_queue_eq_cons hq]

/-- **No count is lowered from zero**: who depends on the path that is taken next has it among the
dependencies that were not taken. -/
theorem Ordering.degree_pos {o : TaskOrder} (h : Ordering r declared o) {taken : TaskPath}
    {queue : List TaskPath} (hq : o.queue = taken :: queue) {w : Waiting} (hw : w ∈ o.waiting)
    (hd : taken ∈ w.node.dependencies) : 0 < w.degree := by
  rw [h.waiting] at hw
  obtain ⟨n, -, rfl⟩ := List.mem_map.mp hw
  refine Nat.pos_of_ne_zero ?_
  intro hz
  exact h.notMem_sorted hq (missing_eq_zero.mp hz taken hd)

/-! ## 3. The end -/

/-- The loop makes steps as long as the queue is not empty, and as many as it may. -/
theorem exists_run_eq_after (declared : List PlanNode) (fuel k : Nat) :
    ∃ n, k ≤ n ∧ run fuel (after declared k) = after declared n ∧
      ∀ i, k ≤ i → i < n → (after declared i).queue ≠ [] := by
  induction fuel generalizing k with
  | zero => exact ⟨k, Nat.le_refl k, rfl, by omega⟩
  | succ fuel ih =>
    unfold run
    split
    · exact ⟨k, Nat.le_refl k, rfl, by omega⟩
    · next hne =>
      obtain ⟨n, hk, hr, hq⟩ := ih (k + 1)
      refine ⟨n, by omega, hr, ?_⟩
      intro i hi hin
      rcases Nat.eq_or_lt_of_le hi with rfl | hi
      · simpa using hne
      · exact hq i hi hin

/-- Each step takes a path as long as there is one. -/
theorem length_sorted_after (declared : List PlanNode) {k : Nat}
    (h : ∀ i < k, (after declared i).queue ≠ []) : (after declared k).sorted.length = k := by
  induction k with
  | zero => rfl
  | succ k ih =>
    obtain ⟨taken, queue, hq⟩ := List.exists_cons_of_ne_nil (h k (Nat.lt_succ_self k))
    rw [after, step_of_queue_eq_cons hq, List.length_append, List.length_singleton,
      ih fun i hi => h i (Nat.lt_succ_of_lt hi)]

/-- **Every step of sorting** the nodes of a search.

After any number of steps, a node's count is the number of its dependencies that were not taken,
and where the next path is taken no count of a node that depends on it is zero; what entered the
queue so far is what was taken, followed by what waits, and nothing entered it twice.  The loop
ends when it has taken, one in each step, exactly the paths from which no cycle can be reached. -/
theorem sorting_steps {selected : List TaskPath} {nodes : List PlanNode}
    (h : Closure.nodesOf r selected = .ok nodes) :
    let declared := Plan.declaredNodes r nodes
    (∀ k, (after declared k).waiting = declared.map fun n =>
        ⟨n, (n.dependencies.filter fun d => !(after declared k).sorted.contains d).length⟩) ∧
      (∀ k taken queue, (after declared k).queue = taken :: queue →
        ∀ w ∈ (after declared k).waiting, taken ∈ w.node.dependencies → 0 < w.degree) ∧
      (∀ k, entered declared k = (after declared k).sorted ++ (after declared k).queue ∧
        (entered declared k).Nodup) ∧
      ∃ n, run declared.length (start declared) = after declared n ∧
        (∀ k < n, (after declared k).queue ≠ []) ∧ (after declared n).queue = [] ∧
        (after declared n).sorted.length = n ∧
        ∀ path, path ∈ (after declared n).sorted ↔
          path ∈ nodes.map (·.path) ∧ ¬ r.LeadsToCycle path := by
  intro declared
  have hg := Closure.gathered_of_nodesOf h
  have hc : Covers r declared := Plan.covers_declaredNodes hg
  refine ⟨fun k => (ordering_after hc k).waiting,
    fun k taken queue hq w hw hd => (ordering_after hc k).degree_pos hq hw hd, ?_, ?_⟩
  · intro k
    refine ⟨entered_eq declared k, ?_⟩
    rw [entered_eq]
    exact (ordering_after hc k).nodup
  · obtain ⟨n, -, hr, hne⟩ := exists_run_eq_after declared declared.length 0
    obtain ⟨ho, hq⟩ := (ordering_start hc).run hc (Nat.le_add_right declared.length _)
    rw [after] at hr
    rw [hr] at ho hq
    have ht := ho.taken hq
    have hne' : ∀ k < n, (after declared k).queue ≠ [] := fun k hk => hne k (Nat.zero_le k) hk
    refine ⟨n, hr, hne', hq, length_sorted_after declared hne', ?_⟩
    intro path
    rw [← Plan.mem_paths_declaredNodes hg]
    constructor
    · intro hp
      have hd := ht.known path hp
      exact ⟨hd, fun hl => (ht.notMem_iff hc hd).mpr hl hp⟩
    · rintro ⟨hd, hl⟩
      by_contra hn
      exact hl ((ht.notMem_iff hc hd).mp hn)

/-! ### A knot -/

/-- A task that depends on itself, two that depend on each other, and one that depends on its base
twice. -/
def knot : Registry := .ofTasks
  [{ path := ":loop", dependsOn := [":loop"] }, { path := ":ping", dependsOn := [":pong", ":base"] },
    { path := ":pong", dependsOn := [":ping"] }, { path := ":top", dependsOn := [":base", ":base"] },
    { path := ":base" }] []

/-- The nodes in the order in which a search comes upon them. -/
def knotNodes : List PlanNode :=
  [{ path := ":ping", dependencies := [":pong", ":base"] }, { path := ":top", dependencies := [":base"] },
    { path := ":loop", dependencies := [":loop"] }, { path := ":pong", dependencies := [":ping"] },
    { path := ":base", dependencies := [] }]

/-- The base is taken, then what waits for nothing else, and that is the end. -/
theorem sorting_knot : Closure.nodesOf knot [":ping", ":top", ":loop"] = .ok knotNodes ∧
    (entered (Plan.declaredNodes knot knotNodes) 2).Nodup ∧
    (run 5 (start (Plan.declaredNodes knot knotNodes))).sorted = [":base", ":top"] ∧
    ¬ knot.LeadsToCycle ":top" ∧ knot.LeadsToCycle ":ping" := by
  have hn : Closure.nodesOf knot [":ping", ":top", ":loop"] = .ok knotNodes := rfl
  have hs : (run 5 (start (Plan.declaredNodes knot knotNodes))).sorted = [":base", ":top"] := rfl
  obtain ⟨-, -, hentered, n, hr, -, -, -, hsorted⟩ := sorting_steps hn
  have hlast : (after (Plan.declaredNodes knot knotNodes) n).sorted = [":base", ":top"] :=
    (congrArg TaskOrder.sorted hr).symm.trans hs
  rw [hlast] at hsorted
  refine ⟨hn, (hentered 2).2, hs, ((hsorted ":top").mp (by decide)).2, ?_⟩
  by_contra hl
  exact absurd ((hsorted ":ping").mpr ⟨by decide, hl⟩) (by decide)

end TaskOrder

end BuildStream
