/-
# The order of a plan

Nodes are taken from a queue, and taking one makes those ready that waited for it last.  The
invariant of the loop is `Ordering`: what was taken or waits in the queue is exactly what has all
its dependencies taken, and a node's count is the number of those that were not.

Two things follow when the queue is empty.

* **What is left over** are the nodes from which a cycle can be reached (`Ordering.notMem_iff`).  A
  node left over depends on another one, so a cycle comes sooner or later; a node that was taken
  depends on earlier ones only, so none can.
* **The order** is that of `Before`: by the place of the latest dependency, and among equals by
  declaration.  A node joins the queue when its latest dependency is taken, behind everything that
  joined for an earlier one, and the queue is first in, first out.
-/
import BuildStream.Proofs.Plan.Closure

namespace BuildStream

open Registry

/-! ## 1. Greatest values -/

/-- The greatest of some values is at most a bound if all of them are. -/
theorem foldl_max_le {α : Type} {f : α → Nat} {l : List α} {a k : Nat} :
    l.foldl (fun n x => max n (f x)) a ≤ k ↔ a ≤ k ∧ ∀ x ∈ l, f x ≤ k := by
  induction l generalizing a with
  | nil => simp
  | cons x l ih => simp [ih, and_assoc]

theorem le_foldl_max {α : Type} {f : α → Nat} {l : List α} {a : Nat} {x : α} (hx : x ∈ l) :
    f x ≤ l.foldl (fun n x => max n (f x)) a :=
  (foldl_max_le.mp (Nat.le_refl _)).2 x hx

/-- The greatest of some values is one of them. -/
theorem foldl_max_mem {α : Type} {f : α → Nat} {l : List α} {a : Nat} :
    l.foldl (fun n x => max n (f x)) a = a ∨ ∃ x ∈ l, l.foldl (fun n x => max n (f x)) a = f x := by
  induction l generalizing a with
  | nil => exact .inl rfl
  | cons x l ih =>
    rcases @ih (max a (f x)) with h | ⟨y, hy, h⟩
    · rcases Nat.le_total a (f x) with hle | hle
      · exact .inr ⟨x, by simp, by rw [List.foldl_cons, h, Nat.max_eq_right hle]⟩
      · exact .inl (by rw [List.foldl_cons, h, Nat.max_eq_left hle])
    · exact .inr ⟨y, by simp [hy], h⟩

/-! ## 2. Declared nodes -/

/-- Nodes whose dependencies are among them, as the registry has them. -/
structure Covers (r : Registry) (declared : List PlanNode) : Prop where
  nodup : (declared.map (·.path)).Nodup
  node : ∀ n ∈ declared, NodeOf r n
  closed : ∀ n ∈ declared, ∀ d, r.DependsOn n.path d → d ∈ declared.map (·.path)

namespace Covers

variable {r : Registry} {declared : List PlanNode}

theorem eq_of_path (h : Covers r declared) {m n : PlanNode} (hm : m ∈ declared) (hn : n ∈ declared)
    (hp : m.path = n.path) : m = n :=
  List.inj_on_of_nodup_map h.nodup hm hn hp

theorem dependenciesIn_eq (h : Covers r declared) {n : PlanNode} (hn : n ∈ declared) :
    Plan.dependenciesIn declared n.path = n.dependencies := by
  rw [Plan.dependenciesIn, find?_of_mem h.nodup hn]

theorem mem_dependenciesIn (h : Covers r declared) {path d : TaskPath}
    (hp : path ∈ declared.map (·.path)) :
    d ∈ Plan.dependenciesIn declared path ↔ r.DependsOn path d := by
  obtain ⟨n, hn, rfl⟩ := List.mem_map.mp hp
  rw [h.dependenciesIn_eq hn, (h.node n hn).mem_dependencies]

end Covers

/-! ## 3. The rank of a task -/

/-- One more than the place of the latest of some dependencies, or nothing without any. -/
def rankOf (sorted dependencies : List TaskPath) : Nat :=
  dependencies.foldl (fun n d => max n (sorted.idxOf d + 1)) 0

/-- The order in which tasks are taken. -/
def Before (declared : List PlanNode) (sorted : List TaskPath) (a b : TaskPath) : Prop :=
  let rank path := rankOf sorted (Plan.dependenciesIn declared path)
  rank a < rank b ∨ rank a = rank b ∧ [a, b].Sublist (declared.map (·.path))

theorem rankOf_le {sorted dependencies : List TaskPath} (h : ∀ d ∈ dependencies, d ∈ sorted) :
    rankOf sorted dependencies ≤ sorted.length :=
  foldl_max_le.mpr ⟨Nat.zero_le _, fun d hd => List.idxOf_lt_length_iff.mpr (h d hd)⟩

/-- What is taken later does not change a rank. -/
theorem rankOf_append {sorted dependencies : List TaskPath} (h : ∀ d ∈ dependencies, d ∈ sorted)
    (more : List TaskPath) : rankOf (sorted ++ more) dependencies = rankOf sorted dependencies := by
  refine List.foldl_ext _ _ 0 ?_
  intro n d hd
  rw [List.idxOf_append_of_mem (h d hd)]

/-- A task that becomes ready when one is taken has that one as its latest dependency. -/
theorem rankOf_of_latest {sorted dependencies : List TaskPath} {taken : TaskPath}
    (ht : taken ∉ sorted) (hm : taken ∈ dependencies)
    (h : ∀ d ∈ dependencies, d ∈ sorted ++ [taken]) :
    rankOf (sorted ++ [taken]) dependencies = sorted.length + 1 := by
  refine Nat.le_antisymm (by simpa using rankOf_le h) ?_
  have hle := le_foldl_max (f := fun d => (sorted ++ [taken]).idxOf d + 1) (a := 0) hm
  rwa [List.idxOf_append_of_notMem ht, List.idxOf_cons_self] at hle

/-! ## 4. The invariant -/

namespace TaskOrder

variable {r : Registry} {declared : List PlanNode}

/-- How many of some dependencies were not taken. -/
def missing (sorted dependencies : List TaskPath) : Nat :=
  (dependencies.filter fun d => !sorted.contains d).length

/-- An order in the middle of being made. -/
structure Ordering (r : Registry) (declared : List PlanNode) (o : TaskOrder) : Prop where
  waiting : o.waiting = declared.map fun n => ⟨n, missing o.sorted n.dependencies⟩
  nodup : (o.sorted ++ o.queue).Nodup
  known : ∀ path ∈ o.sorted ++ o.queue, path ∈ declared.map (·.path)
  ready : ∀ n ∈ declared, n.path ∈ o.sorted ++ o.queue ↔ ∀ d ∈ n.dependencies, d ∈ o.sorted
  first : ∀ before path after, o.sorted = before ++ path :: after →
    ∀ d, r.DependsOn path d → d ∈ before
  order : (o.sorted ++ o.queue).Pairwise (Before declared o.sorted)

theorem missing_eq_zero {sorted dependencies : List TaskPath} :
    missing sorted dependencies = 0 ↔ ∀ d ∈ dependencies, d ∈ sorted := by
  simp [missing, List.filter_eq_nil_iff]

/-- Taking a dependency lowers the count by one. -/
theorem missing_append {sorted dependencies : List TaskPath} {taken : TaskPath}
    (hd : dependencies.Nodup) (ht : taken ∉ sorted) :
    missing (sorted ++ [taken]) dependencies =
      if dependencies.contains taken then missing sorted dependencies - 1
      else missing sorted dependencies := by
  have hf : (dependencies.filter fun d => !(sorted ++ [taken]).contains d) =
      (dependencies.filter fun d => !sorted.contains d).erase taken := by
    rw [(hd.filter _).erase_eq_filter, List.filter_filter]
    refine List.filter_congr ?_
    intro d _
    rw [Bool.eq_iff_iff]
    simp [and_comm]
  unfold missing
  rw [hf, List.length_erase]
  have hc : (dependencies.filter fun d => !sorted.contains d).contains taken =
      dependencies.contains taken := by
    rw [Bool.eq_iff_iff]
    simp [ht]
  simp only [List.contains_iff_mem] at hc ⊢
  by_cases hm : taken ∈ dependencies
  · rw [if_pos hm, if_pos (by simpa [ht] using hm)]
  · rw [if_neg hm, if_neg (by simp [hm])]

/-- The nodes that are ready at the start are those without dependencies. -/
theorem ordering_start (h : Covers r declared) : Ordering r declared (start declared) := by
  have hsub : (start declared).queue.Sublist (declared.map (·.path)) :=
    List.filter_sublist.map _
  have hdep : ∀ path ∈ (start declared).queue, Plan.dependenciesIn declared path = [] := by
    intro path hp
    obtain ⟨n, hn, rfl⟩ := List.mem_map.mp hp
    obtain ⟨hn, he⟩ := List.mem_filter.mp hn
    rw [h.dependenciesIn_eq hn]
    exact List.isEmpty_iff.mp he
  refine ⟨?_, hsub.nodup h.nodup, fun path hp => hsub.subset hp, ?_, ?_, ?_⟩
  · simp [start, missing]
  · intro n hn
    simp only [start, List.nil_append, List.not_mem_nil, imp_false]
    rw [List.mem_map]
    constructor
    · rintro ⟨m, hm, hp⟩ d
      obtain ⟨hm, he⟩ := List.mem_filter.mp hm
      rw [← h.eq_of_path hm hn hp, List.isEmpty_iff.mp he]
      exact List.not_mem_nil
    · intro he
      refine ⟨n, List.mem_filter.mpr ⟨hn, ?_⟩, rfl⟩
      rw [List.eq_nil_iff_forall_not_mem.mpr he]
      rfl
  · intro before path after he
    simp [start] at he
  · refine List.pairwise_iff_forall_sublist.mpr ?_
    intro a b hab
    have ha := hdep a (hab.subset (by simp))
    have hb := hdep b (hab.subset (by simp))
    exact .inr ⟨by simp only [ha, hb], hab.trans hsub⟩

/-- The paths that become ready when one is taken. -/
def readyAfter (o : TaskOrder) (taken : TaskPath) : List TaskPath :=
  (o.waiting.filter (becomesReady taken)).map (·.node.path)

namespace Ordering

variable {o : TaskOrder} {taken : TaskPath} {queue : List TaskPath}

/-- The first of the queue was not taken before. -/
theorem notMem_sorted (h : Ordering r declared o) (hq : o.queue = taken :: queue) :
    taken ∉ o.sorted := fun hm =>
  (List.nodup_append.mp h.nodup).2.2 _ hm _ (by simp [hq]) rfl

/-- Whatever was taken or is ready has all that it depends on behind it. -/
theorem done (h : Ordering r declared o) (hc : Covers r declared) {path : TaskPath}
    (hp : path ∈ o.sorted ++ o.queue) : ∀ d ∈ Plan.dependenciesIn declared path, d ∈ o.sorted := by
  obtain ⟨n, hn, rfl⟩ := List.mem_map.mp (h.known path hp)
  rw [hc.dependenciesIn_eq hn]
  exact (h.ready n hn).mp hp

/-- What becomes ready waited for the one that is taken, and for nothing else. -/
theorem mem_readyAfter (h : Ordering r declared o) (hc : Covers r declared)
    (hq : o.queue = taken :: queue) {n : PlanNode} (hn : n ∈ declared) :
    n.path ∈ readyAfter o taken ↔
      taken ∈ n.dependencies ∧ ∀ d ∈ n.dependencies, d ∈ o.sorted ++ [taken] := by
  have ht := h.notMem_sorted hq
  have hd := (hc.node n hn).nodup_dependencies
  have hb : becomesReady taken ⟨n, missing o.sorted n.dependencies⟩ = true ↔
      taken ∈ n.dependencies ∧ ∀ d ∈ n.dependencies, d ∈ o.sorted ++ [taken] := by
    have hcm : n.dependencies.contains taken = true ↔ taken ∈ n.dependencies :=
      List.contains_iff_mem
    rw [← missing_eq_zero, missing_append hd ht, becomesReady, Bool.and_eq_true, beq_iff_eq]
    constructor
    · rintro ⟨hm, hz⟩
      exact ⟨hcm.mp hm, (if_pos hm).trans hz⟩
    · rintro ⟨hm, hz⟩
      rw [if_pos (hcm.mpr hm)] at hz
      exact ⟨hcm.mpr hm, hz⟩
  rw [← hb, readyAfter, h.waiting, List.mem_map]
  constructor
  · rintro ⟨w, hw, hp⟩
    obtain ⟨hw, hready⟩ := List.mem_filter.mp hw
    obtain ⟨m, hm, rfl⟩ := List.mem_map.mp hw
    rwa [hc.eq_of_path hm hn hp] at hready
  · intro hready
    exact ⟨_, List.mem_filter.mpr ⟨List.mem_map.mpr ⟨n, hn, rfl⟩, hready⟩, rfl⟩

theorem readyAfter_sublist (h : Ordering r declared o) (taken : TaskPath) :
    (readyAfter o taken).Sublist (declared.map (·.path)) := by
  have hw : o.waiting.map (·.node.path) = declared.map (·.path) := by
    rw [h.waiting, List.map_map]
    rfl
  rw [← hw]
  exact List.filter_sublist.map _

/-- What becomes ready has the one that is taken as its latest dependency. -/
theorem latest (h : Ordering r declared o) (hc : Covers r declared)
    (hq : o.queue = taken :: queue) {path : TaskPath} (hp : path ∈ readyAfter o taken) :
    taken ∈ Plan.dependenciesIn declared path ∧
      ∀ d ∈ Plan.dependenciesIn declared path, d ∈ o.sorted ++ [taken] := by
  obtain ⟨n, hn, rfl⟩ := List.mem_map.mp ((h.readyAfter_sublist taken).subset hp)
  rw [hc.dependenciesIn_eq hn]
  exact (h.mem_readyAfter hc hq hn).mp hp

theorem waiting_step (h : Ordering r declared o) (hc : Covers r declared)
    (hq : o.queue = taken :: queue) : o.waiting.map (lower taken) =
      declared.map fun n => ⟨n, missing (o.sorted ++ [taken]) n.dependencies⟩ := by
  rw [h.waiting, List.map_map]
  refine List.map_congr_left ?_
  intro n hn
  have hd := (hc.node n hn).nodup_dependencies
  simp only [Function.comp, lower, missing_append hd (h.notMem_sorted hq)]
  split <;> rfl

/-- Ready is then what was ready, and what waited for nothing but the one that is taken. -/
theorem ready_step (h : Ordering r declared o) (hc : Covers r declared)
    (hq : o.queue = taken :: queue) {n : PlanNode} (hn : n ∈ declared) :
    n.path ∈ o.sorted ++ o.queue ∨ n.path ∈ readyAfter o taken ↔
      ∀ d ∈ n.dependencies, d ∈ o.sorted ++ [taken] := by
  rw [h.ready n hn, h.mem_readyAfter hc hq hn]
  constructor
  · rintro (hd | ⟨-, hd⟩)
    · exact fun d hm => List.mem_append_left _ (hd d hm)
    · exact hd
  · intro hd
    by_cases hm : taken ∈ n.dependencies
    · exact .inr ⟨hm, hd⟩
    · refine .inl ?_
      intro d hx
      rcases List.mem_append.mp (hd d hx) with hs | hs
      · exact hs
      · exact absurd (List.mem_singleton.mp hs ▸ hx) hm

/-- Dependencies still come first. -/
theorem first_step (h : Ordering r declared o) (hc : Covers r declared)
    (hq : o.queue = taken :: queue) {before after : List TaskPath} {path : TaskPath}
    (he : o.sorted ++ [taken] = before ++ path :: after) {d : TaskPath}
    (hd : r.DependsOn path d) : d ∈ before := by
  rcases List.eq_nil_or_concat after with rfl | ⟨after, last, rfl⟩
  · obtain ⟨rfl, hp⟩ := List.append_inj' he rfl
    obtain rfl : taken = path := List.singleton_inj.mp hp
    have hm : taken ∈ o.sorted ++ o.queue := by simp [hq]
    exact h.done hc hm d ((hc.mem_dependenciesIn (h.known _ hm)).mpr hd)
  · have he' : o.sorted ++ [taken] = (before ++ path :: after) ++ [last] := by simpa using he
    exact h.first before path after (List.append_inj' he' rfl).1 d hd

/-- What becomes ready comes after everything that was ready, in the order of declaration. -/
theorem order_step (h : Ordering r declared o) (hc : Covers r declared)
    (hq : o.queue = taken :: queue) :
    (o.sorted ++ o.queue ++ readyAfter o taken).Pairwise
      (Before declared (o.sorted ++ [taken])) := by
  have ht := h.notMem_sorted hq
  rw [List.pairwise_append]
  refine ⟨h.order.imp_of_mem ?_, ?_, fun a ha b hb => .inl ?_⟩
  · intro a b ha hb hab
    unfold Before
    simp only [rankOf_append (h.done hc ha), rankOf_append (h.done hc hb)]
    exact hab
  · refine List.pairwise_iff_forall_sublist.mpr ?_
    intro a b hab
    have ha := h.latest hc hq (hab.subset (List.mem_cons_self (l := [b])))
    have hb := h.latest hc hq (hab.subset (by simp : b ∈ [a, b]))
    refine .inr ⟨?_, hab.trans (h.readyAfter_sublist taken)⟩
    simp only [rankOf_of_latest ht ha.1 ha.2, rankOf_of_latest ht hb.1 hb.2]
  · have hle := rankOf_le (h.done hc ha)
    have hb := h.latest hc hq hb
    simp only [rankOf_append (h.done hc ha), rankOf_of_latest ht hb.1 hb.2]
    omega

/-- **Taking the first of the queue** keeps the invariant. -/
theorem step (h : Ordering r declared o) (hc : Covers r declared) (hq : o.queue = taken :: queue) :
    Ordering r declared ⟨o.waiting.map (lower taken), queue ++ readyAfter o taken,
      o.sorted ++ [taken]⟩ := by
  have hsplit : o.sorted ++ [taken] ++ (queue ++ readyAfter o taken) =
      o.sorted ++ o.queue ++ readyAfter o taken := by rw [hq]; simp
  refine ⟨h.waiting_step hc hq, ?_, ?_, ?_, ?_, ?_⟩
  · rw [hsplit]
    refine h.nodup.append ((h.readyAfter_sublist taken).nodup hc.nodup) ?_
    intro path hp hr
    exact h.notMem_sorted hq (h.done hc hp _ (h.latest hc hq hr).1)
  · intro path hp
    rw [hsplit] at hp
    exact (List.mem_append.mp hp).elim (h.known path) ((h.readyAfter_sublist taken).subset ·)
  · intro n hn
    rw [hsplit, List.mem_append]
    exact h.ready_step hc hq hn
  · intro before path after he d hd
    exact h.first_step hc hq he hd
  · rw [hsplit]
    exact h.order_step hc hq

/-- No more paths are taken than there are nodes. -/
theorem length_le (h : Ordering r declared o) :
    o.sorted.length + o.queue.length ≤ declared.length := by
  have hle := (List.subperm_of_subset h.nodup h.known).length_le
  simpa using hle

/-- **The loop** takes paths until the queue is empty. -/
theorem run (hc : Covers r declared) {fuel : Nat} (h : Ordering r declared o)
    (hf : declared.length ≤ fuel + o.sorted.length) :
    Ordering r declared (TaskOrder.run fuel o) ∧ (TaskOrder.run fuel o).queue = [] := by
  induction fuel generalizing o with
  | zero =>
    have hle := h.length_le
    exact ⟨h, List.length_eq_zero_iff.mp (by simp only [TaskOrder.run]; omega)⟩
  | succ fuel ih =>
    unfold TaskOrder.run
    cases hq : o.queue with
    | nil => exact ⟨h, hq⟩
    | cons taken queue =>
      have hs : o.step = ⟨o.waiting.map (lower taken), queue ++ readyAfter o taken,
          o.sorted ++ [taken]⟩ := by
        rw [TaskOrder.step, hq]
        rfl
      simp only [List.isEmpty_cons, Bool.false_eq_true, if_false]
      refine ih (hs ▸ h.step hc hq) ?_
      rw [hs, List.length_append, List.length_singleton]
      omega

end Ordering

/-! ## 5. What is left over -/

/-- The paths that were taken when the queue is empty. -/
structure Taken (r : Registry) (declared : List PlanNode) (sorted : List TaskPath) : Prop where
  nodup : sorted.Nodup
  known : ∀ path ∈ sorted, path ∈ declared.map (·.path)
  ready : ∀ n ∈ declared, n.path ∈ sorted ↔ ∀ d ∈ n.dependencies, d ∈ sorted
  first : ∀ before path after, sorted = before ++ path :: after →
    ∀ d, r.DependsOn path d → d ∈ before
  order : sorted.Pairwise (Before declared sorted)

theorem Ordering.taken {o : TaskOrder} (h : Ordering r declared o) (hq : o.queue = []) :
    Taken r declared o.sorted := by
  obtain ⟨-, hn, hk, hr, hf, ho⟩ := h
  rw [hq, List.append_nil] at hn hk ho
  exact ⟨hn, hk, fun n hm => by simpa [hq] using hr n hm, hf, ho⟩

/-- Nothing leads from an accessible member around to itself. -/
theorem not_transGen_of_acc {α : Type} {R : α → α → Prop} {a : α}
    (h : Acc (fun b c => R c b) a) : ¬ Relation.TransGen R a a := by
  induction h with
  | intro a _ ih =>
    intro ha
    obtain ⟨b, hab, hba⟩ := Relation.TransGen.head'_iff.mp ha
    exact ih b hab (.tail' hba hab)

namespace Taken

variable {sorted : List TaskPath}

/-- What was taken leads to finitely many others only, all of them taken before. -/
theorem acc (h : Taken r declared sorted) {path : TaskPath} (hp : path ∈ sorted) :
    Acc (fun d path => r.DependsOn path d) path := by
  obtain ⟨before, after, he⟩ := List.append_of_mem hp
  clear hp
  induction hn : before.length using Nat.strongRecOn generalizing before path after with
  | _ n ih =>
    refine ⟨_, ?_⟩
    intro d hd
    obtain ⟨earlier, later, rfl⟩ := List.append_of_mem (h.first before path after he d hd)
    refine ih earlier.length ?_ earlier (later ++ path :: after) (by simpa using he) rfl
    rw [← hn, List.length_append, List.length_cons]
    omega

/-- **The nodes left over** are those from which a cycle can be reached. -/
theorem notMem_iff (h : Taken r declared sorted) (hc : Covers r declared) {path : TaskPath}
    (hp : path ∈ declared.map (·.path)) : path ∉ sorted ↔ r.LeadsToCycle path := by
  constructor
  · intro hn
    have hnext : ∀ a ∈ (declared.map (·.path)).filter fun a => !sorted.contains a,
        ∃ b ∈ (declared.map (·.path)).filter fun a => !sorted.contains a, r.DependsOn a b := by
      intro a ha
      simp only [List.mem_filter, Bool.not_eq_true', List.contains_eq_mem, decide_eq_false_iff_not]
        at ha ⊢
      obtain ⟨n, hm, rfl⟩ := List.mem_map.mp ha.1
      have hmiss : ∃ d ∈ n.dependencies, d ∉ sorted := by
        by_contra hall
        push Not at hall
        exact ha.2 ((h.ready n hm).mpr hall)
      obtain ⟨d, hd, hds⟩ := hmiss
      have hdep := (hc.node n hm).mem_dependencies.mp hd
      exact ⟨d, ⟨hc.closed n hm d hdep, hds⟩, hdep⟩
    obtain ⟨c, -, hl, hk⟩ := exists_cycle_of_forall_mem hnext (a := path) (by simp [hp, hn])
    exact ⟨c, hl, hk⟩
  · rintro ⟨knot, hl, hk⟩ hm
    have hacc : Acc (fun d path => r.DependsOn path d) knot := by
      clear hk
      induction hl with
      | refl => exact h.acc hm
      | tail _ hd ih => exact ih.inv hd
    exact not_transGen_of_acc hacc hk

theorem length_eq_iff (h : Taken r declared sorted) (hc : Covers r declared) :
    sorted.length = declared.length ↔ ∀ path ∈ declared.map (·.path), path ∈ sorted := by
  have hsub : sorted.Subperm (declared.map (·.path)) := List.subperm_of_subset h.nodup h.known
  constructor
  · intro hl path hp
    exact (hsub.perm_of_length_le (by simp [hl])).mem_iff.mpr hp
  · intro hall
    have hle := (List.subperm_of_subset hc.nodup hall).length_le
    have hge := hsub.length_le
    simp only [List.length_map] at hle hge
    omega

end Taken

/-- **Sorting** takes all nodes, or fails with those from which a cycle can be reached. -/
theorem sort_cases (hc : Covers r declared) : ∃ sorted, Taken r declared sorted ∧
    ((sort declared = .ok sorted ∧ ∀ path ∈ declared.map (·.path), path ∈ sorted) ∨
      (sort declared = .error (.cyclic ((declared.map (·.path)).filter
          fun path => !sorted.contains path)) ∧
        ∃ path ∈ declared.map (·.path), path ∉ sorted)) := by
  obtain ⟨ho, hq⟩ := (ordering_start hc).run hc (Nat.le_add_right declared.length _)
  have ht := ho.taken hq
  refine ⟨_, ht, ?_⟩
  unfold sort
  dsimp only
  split
  · next hl => exact .inl ⟨rfl, (ht.length_eq_iff hc).mp hl⟩
  · next hl =>
    refine .inr ⟨rfl, ?_⟩
    by_contra hall
    push Not at hall
    exact hl ((ht.length_eq_iff hc).mpr hall)

end TaskOrder

end BuildStream
