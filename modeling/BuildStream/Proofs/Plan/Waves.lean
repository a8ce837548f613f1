/-
# Waves

The wave of a task is computed from the waves of its dependencies, in the order of the plan.  Since
dependencies come first, it is the length of the longest chain of dependencies from the task
(`longest_of_mem_assignWaves`).

Waves and order come from two different algorithms, and agree: along the order the waves never fall
(`Taken.longest_mono`).  A task that is taken later has its latest dependency at the same place or
later, and the latest dependency of a task is in the last of the waves of its dependencies, so the
claim for two tasks follows from that for their latest dependencies.  Hence the waves, one after
the other, are the order again (`flatten_groupWaves`).
-/
import BuildStream.Proofs.Plan.Order

namespace BuildStream

open Registry

namespace Plan

variable {r : Registry} {nodes : List PlanNode}

/-! ## 1. Longest chains -/

/-- The wave after those of all dependencies is the length of the longest chain. -/
theorem longest_waveAfter {waves : List (TaskPath × Nat)} {path : TaskPath}
    {dependencies : List TaskPath} (hd : ∀ d, d ∈ dependencies ↔ r.DependsOn path d)
    (hw : ∀ d ∈ dependencies, ∃ w, waves.lookup d = some w ∧ r.LongestChain d w) :
    r.LongestChain path (waveAfter waves dependencies) := by
  constructor
  · rcases @foldl_max_mem _ (· + 1) (dependencies.filterMap fun d => waves.lookup d) 0 with
      h | ⟨w, hm, h⟩
    · rw [Set.mem_ofPred_eq, waveAfter, h]
      exact .nil path
    · obtain ⟨d, hmd, hl⟩ := List.mem_filterMap.mp hm
      obtain ⟨w', hl', hc⟩ := hw d hmd
      obtain rfl : w = w' := Option.some.inj (hl.symm.trans hl')
      rw [Set.mem_ofPred_eq, waveAfter, h]
      exact .cons ((hd d).mp hmd) hc.1
  · intro n hn
    cases hn with
    | nil => exact Nat.zero_le _
    | @cons _ d m hdep hc =>
      obtain ⟨w, hl, hlong⟩ := hw d ((hd d).mpr hdep)
      have hle : m ≤ w := hlong.2 hc
      have hmem : w ∈ dependencies.filterMap fun d => waves.lookup d :=
        List.mem_filterMap.mpr ⟨d, (hd d).mpr hdep, hl⟩
      have hmax := le_foldl_max (f := (· + 1)) (a := 0) hmem
      exact Nat.le_trans (Nat.succ_le_succ hle) hmax

/-- Every path gets a wave, in the order of the paths. -/
theorem map_fst_assignWaves (nodes : List PlanNode) (waves : List (TaskPath × Nat))
    (paths : List TaskPath) :
    (assignWaves nodes waves paths).map (·.1) = waves.map (·.1) ++ paths := by
  induction paths generalizing waves with
  | nil => simp [assignWaves]
  | cons path paths ih => rw [assignWaves, ih]; simp

/-- **The waves are the lengths of longest chains**, if dependencies come first. -/
theorem longest_of_mem_assignWaves {sorted : List TaskPath} (hc : Covers r nodes)
    (hk : ∀ path ∈ sorted, path ∈ nodes.map (·.path))
    (hf : ∀ before path after, sorted = before ++ path :: after →
      ∀ d, r.DependsOn path d → d ∈ before)
    {waves : List (TaskPath × Nat)} {paths : List TaskPath}
    (hs : sorted = waves.map (·.1) ++ paths) (hw : ∀ w ∈ waves, r.LongestChain w.1 w.2) :
    ∀ w ∈ assignWaves nodes waves paths, r.LongestChain w.1 w.2 := by
  induction paths generalizing waves with
  | nil => exact hw
  | cons path paths ih =>
    refine ih (by simpa using hs) ?_
    intro w hm
    rcases List.mem_append.mp hm with hm | hm
    · exact hw w hm
    · rw [List.mem_singleton.mp hm]
      have hd (d : TaskPath) := hc.mem_dependenciesIn (d := d) (hk path (by simp [hs]))
      refine longest_waveAfter hd ?_
      intro d hmd
      have hbefore := hf _ _ _ hs d ((hd d).mp hmd)
      cases hl : waves.lookup d with
      | none =>
        obtain ⟨w, hmw, rfl⟩ := List.mem_map.mp hbefore
        simpa using List.lookup_eq_none_iff.mp hl w hmw
      | some w =>
        obtain ⟨l1, l2, he, -⟩ := List.lookup_eq_some_iff.mp hl
        exact ⟨w, rfl, hw (d, w) (by simp [he])⟩

end Plan

/-! ## 2. Waves never fall -/

namespace TaskOrder.Taken

variable {r : Registry} {declared : List PlanNode} {sorted : List TaskPath}

/-- A dependency was taken before. -/
theorem idxOf_lt (h : Taken r declared sorted) {path d : TaskPath} {j : Nat}
    (hp : sorted[j]? = some path) (hd : r.DependsOn path d) : d ∈ sorted ∧ sorted.idxOf d < j := by
  obtain ⟨hj, hp⟩ := List.getElem?_eq_some_iff.mp hp
  have he : sorted = sorted.take j ++ path :: sorted.drop (j + 1) := by
    rw [← hp, List.getElem_cons_drop, List.take_append_drop]
  have hm := h.first _ _ _ he d hd
  refine ⟨List.mem_of_mem_take hm, ?_⟩
  have hi := List.idxOf_lt_length_iff.mpr hm
  rw [← List.take_append_drop j sorted, List.idxOf_append_of_mem hm]
  exact Nat.lt_of_lt_of_le hi (List.length_take_le _ _)

theorem rank_le (h : Taken r declared sorted) {i j : Nat} {a b : TaskPath} (hij : i ≤ j)
    (ha : sorted[i]? = some a) (hb : sorted[j]? = some b) :
    rankOf sorted (Plan.dependenciesIn declared a) ≤
      rankOf sorted (Plan.dependenciesIn declared b) := by
  rcases Nat.eq_or_lt_of_le hij with rfl | hlt
  · obtain rfl : a = b := Option.some.inj (ha.symm.trans hb)
    exact Nat.le_refl _
  · obtain ⟨hi, rfl⟩ := List.getElem?_eq_some_iff.mp ha
    obtain ⟨hj, rfl⟩ := List.getElem?_eq_some_iff.mp hb
    rcases List.pairwise_iff_getElem.mp h.order i j hi hj hlt with hr | ⟨hr, -⟩
    · exact Nat.le_of_lt hr
    · exact Nat.le_of_eq hr

/-- **Along the order, longest chains never get shorter.** -/
theorem longest_mono (h : Taken r declared sorted) (hc : Covers r declared)
    (hex : ∀ path ∈ sorted, ∃ n, r.LongestChain path n) {i j m n : Nat} {a b : TaskPath}
    (hij : i ≤ j) (ha : sorted[i]? = some a) (hb : sorted[j]? = some b)
    (hm : r.LongestChain a m) (hn : r.LongestChain b n) : m ≤ n := by
  induction j using Nat.strongRecOn generalizing i a b m n with
  | _ j ih =>
    cases m with
    | zero => exact Nat.zero_le _
    | succ m =>
      obtain ⟨d, hd, hdm⟩ := hm.next
      have hda := (hc.mem_dependenciesIn (h.known a (List.mem_of_getElem? ha))).mpr hd
      have hrank := Nat.le_trans (le_foldl_max (f := fun d => sorted.idxOf d + 1) (a := 0) hda)
        (h.rank_le hij ha hb)
      -- the latest dependency of `b` was not taken before `d`
      rcases @foldl_max_mem _ (fun d => sorted.idxOf d + 1)
        (Plan.dependenciesIn declared b) 0 with h0 | ⟨e, he, hr⟩
      · rw [rankOf, h0] at hrank
        omega
      · rw [rankOf, hr] at hrank
        have heb := (hc.mem_dependenciesIn (h.known b (List.mem_of_getElem? hb))).mp he
        obtain ⟨hds, -⟩ := h.idxOf_lt ha hd
        obtain ⟨hes, hej⟩ := h.idxOf_lt hb heb
        obtain ⟨k, hk⟩ := hex e hes
        have hle : m ≤ k := ih (sorted.idxOf e) hej (Nat.le_of_succ_le_succ hrank)
          (List.getElem?_idxOf hds) (List.getElem?_idxOf hes) hdm hk
        have hkn : k + 1 ≤ n := hn.2 (.cons heb hk.1)
        omega

end TaskOrder.Taken

/-! ## 3. The waves one after the other -/

/-- Members that come by rising values are put in the same order by collecting value by value. -/
theorem flatMap_filter_eq {α : Type} {f : α → Nat} {l : List α} {n : Nat}
    (hs : l.Pairwise fun a b => f a ≤ f b) :
    ((List.range n).flatMap fun i => l.filter fun a => f a == i) =
      l.filter fun a => decide (f a < n) := by
  induction n with
  | zero => simp
  | succ n ih =>
    rw [List.range_succ, List.flatMap_append, ih, List.flatMap_singleton]
    clear ih
    induction l with
    | nil => rfl
    | cons a l ih =>
      obtain ⟨ha, hl⟩ := List.pairwise_cons.mp hs
      rcases Nat.lt_trichotomy (f a) n with hlt | heq | hgt
      · rw [List.filter_cons_of_pos (by simpa using hlt), List.filter_cons_of_neg (by simp; omega),
          List.filter_cons_of_pos (by simp; omega), List.cons_append, ih hl]
      · have hnone : l.filter (fun a => decide (f a < n)) = [] :=
          List.filter_eq_nil_iff.mpr fun b hb => by
            have := ha b hb
            simp
            omega
        have ih := ih hl
        rw [hnone, List.nil_append] at ih
        rw [List.filter_cons_of_neg (by simp; omega), hnone, List.nil_append,
          List.filter_cons_of_pos (by simpa using heq), List.filter_cons_of_pos (by simp; omega), ih]
      · have hnone (p : Nat → Bool) (hp : ∀ k, n < k → p k = false) :
            (a :: l).filter (fun a => p (f a)) = [] :=
          List.filter_eq_nil_iff.mpr fun b hb => by
            rcases List.mem_cons.mp hb with rfl | hb
            · simp [hp _ hgt]
            · simp [hp _ (Nat.lt_of_lt_of_le hgt (ha b hb))]
        rw [hnone (fun k => decide (k < n)) (fun k hk => by simp; omega),
          hnone (fun k => k == n) (fun k hk => by simp; omega),
          hnone (fun k => decide (k < n + 1)) (fun k hk => by simp; omega)]
        rfl

namespace Plan

variable {waves : List (TaskPath × Nat)}

/-- There are enough waves for every path. -/
theorem lt_count {w : TaskPath × Nat} (hw : w ∈ waves) :
    w.2 < waves.foldl (fun n w => max n (w.2 + 1)) 0 :=
  le_foldl_max (f := fun w => w.2 + 1) (a := 0) hw

/-- **The waves, one after the other**, are the paths in their order, if waves never fall along
it. -/
theorem flatten_groupWaves (h : waves.Pairwise fun a b => a.2 ≤ b.2) :
    (groupWaves waves).flatten = waves.map (·.1) := by
  unfold groupWaves
  dsimp only
  rw [← List.flatMap_def, ← List.map_flatMap, flatMap_filter_eq h,
    List.filter_eq_self.mpr fun w hw => decide_eq_true (lt_count hw)]

/-- The wave of a number holds the paths with that number, in their order. -/
theorem getElem?_groupWaves {k : Nat} {wave : List TaskPath}
    (h : (groupWaves waves)[k]? = some wave) :
    wave = (waves.filter fun w => w.2 == k).map (·.1) := by
  simp only [groupWaves, List.getElem?_map, Option.map_eq_some_iff] at h
  obtain ⟨i, hi, rfl⟩ := h
  obtain ⟨-, rfl⟩ := List.getElem?_eq_some_iff.mp hi
  rw [List.getElem_range]

theorem mem_groupWaves {k : Nat} {path : TaskPath} :
    (∃ wave, (groupWaves waves)[k]? = some wave ∧ path ∈ wave) ↔ (path, k) ∈ waves := by
  constructor
  · rintro ⟨wave, hw, hp⟩
    rw [getElem?_groupWaves hw] at hp
    obtain ⟨w, hf, rfl⟩ := List.mem_map.mp hp
    obtain ⟨hm, he⟩ := List.mem_filter.mp hf
    obtain rfl : w.2 = k := by simpa using he
    exact hm
  · intro hm
    refine ⟨(waves.filter fun w => w.2 == k).map (·.1), ?_, ?_⟩
    · simp [groupWaves, List.getElem?_range (lt_count hm)]
    · exact List.mem_map.mpr ⟨(path, k), List.mem_filter.mpr ⟨hm, by simp⟩, rfl⟩

end Plan

end BuildStream
