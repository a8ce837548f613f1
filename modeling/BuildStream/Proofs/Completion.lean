/-
# The words that complete a target

A shell is offered words for the targets of a workspace, and a plan is made of targets.  What is a
target is found in two ways that have nothing to do with each other.

* The words are cut out of the declared paths: each path as it stands, and the part after its last
  colon unless that is empty.
* A plan looks a target up: one with a colon in front among the paths, and any other among the
  names of the registered tasks.

For a workspace that validation accepts, they are the same targets but for the empty one, which a
plan accepts where some path ends in a colon and which no shell can offer
(`Completion.targetsOf_accepted`).  Both halves need that every path is rooted: a path that is not
would be offered, and looked up as the name of a task.
-/
import BuildStream.Completion
import BuildStream.Proofs.Config.Planning

namespace BuildStream

theorem TaskPath.isRooted_empty : TaskPath.isRooted "" = false := rfl

namespace Completion

variable {w : Workspace}

/-- The words are the declared paths and the names in them that are not empty. -/
theorem mem_targetsOf {word : String} :
    word ∈ targetsOf w ↔ word ∈ Config.declaredPaths w ∨
      word ≠ "" ∧ ∃ path ∈ Config.declaredPaths w, TaskPath.name path = word := by
  rw [targetsOf, List.mem_mergeSort, mem_distinct, List.mem_append, List.mem_filter]
  refine or_congr Iff.rfl ?_
  rw [and_comm, List.mem_map]
  simp [Config.declaredPaths, TaskPath.lastSegment_eq_name]

theorem nodup_targetsOf (w : Workspace) : (targetsOf w).Nodup :=
  (List.mergeSort_perm _ _).nodup_iff.mpr (nodup_distinct _)

/-- **A word is offered exactly if it is not empty and selects a task.** -/
theorem mem_targetsOf_iff_resolves (h : w.WellFormed) {word : String} :
    word ∈ targetsOf w ↔ word ≠ "" ∧ w.registry.Resolves word := by
  rw [mem_targetsOf, Workspace.resolves_iff h, Config.isKnownTarget_iff]
  constructor
  · rintro (hpath | ⟨hne, path, hpath, hname⟩)
    · have hroot : TaskPath.isRooted word = true := h.rooted word hpath
      refine ⟨?_, word, hpath, by rw [if_pos hroot]⟩
      rintro rfl
      exact nomatch hroot.symm.trans TaskPath.isRooted_empty
    · have hroot : TaskPath.isRooted word = false := hname ▸ TaskPath.isRooted_name path
      exact ⟨hne, path, hpath, by simpa [hroot] using hname⟩
  · rintro ⟨hne, path, hpath, hselects⟩
    cases hroot : TaskPath.isRooted word with
    | true =>
      obtain rfl : path = word := by simpa [hroot] using hselects
      exact .inl hpath
    | false => exact .inr ⟨hne, path, hpath, by simpa [hroot] using hselects⟩

/-- **The words that are offered are the targets that a plan accepts.**

For an accepted configuration, a word is among them exactly if it is not empty and planning it
alone does not end with a task that is not found.  Each word is offered once, it selects a task,
and every plan of it has that task. -/
theorem targetsOf_accepted {fs : Files} {c : Config} (rt : Runtime)
    (h : Config.validate fs c = .ok ()) :
    let r := (Engine.ofConfig rt c).registry
    (∀ word, word ∈ targetsOf c.workspace ↔
      word ≠ "" ∧ ∀ target, Plan.ofTargets r [word] ≠ .error (.taskNotFound target)) ∧
    (∀ word ∈ targetsOf c.workspace, ∃ path, r.Selects word path ∧
      ∀ plan, Plan.ofTargets r [word] = .ok plan → path ∈ plan.sorted) ∧
    (targetsOf c.workspace).Nodup := by
  intro r
  have hw : c.workspace.WellFormed := (Config.validate_eq_ok.mp h).2.2
  have hmem (word : String) : word ∈ targetsOf c.workspace ↔ word ≠ "" ∧ r.Resolves word :=
    mem_targetsOf_iff_resolves hw
  have hfound (word : String) :
      (∀ target, Plan.ofTargets r [word] ≠ .error (.taskNotFound target)) ↔ r.Resolves word := by
    rw [← not_exists, Plan.exists_taskNotFound_iff]
    simp [Plan.SomeMissing]
  refine ⟨?_, ?_, nodup_targetsOf c.workspace⟩
  · intro word
    rw [hmem, hfound]
  · intro word hword
    obtain ⟨path, hpath⟩ := ((hmem word).mp hword).2
    refine ⟨path, hpath, ?_⟩
    intro plan hplan
    obtain ⟨nodes, hmade⟩ := Plan.exists_made hplan
    exact (hmade.all path).mpr ⟨word, List.mem_singleton_self word, path, hpath, .refl⟩

namespace Odd

/-- A workspace with doubled and trailing colons. -/
def config : Config where
  workspace := { tasks := [{ path := ":app::compile" }, { path := ":lib:" }] }

end Odd

/-- The word between the doubled colons is a target and the project is not; the path that ends in a
colon is a target, and its empty name is not offered. -/
theorem targetsOf_odd :
    Config.validate .empty Odd.config = .ok () ∧ "compile" ∈ targetsOf Odd.config.workspace ∧
      ":lib:" ∈ targetsOf Odd.config.workspace ∧ "lib" ∉ targetsOf Odd.config.workspace ∧
      "" ∉ targetsOf Odd.config.workspace ∧
      ∀ target, Plan.ofTargets (Engine.ofConfig Config.unknownMachine Odd.config).registry [":lib:"] ≠
        .error (.taskNotFound target) := by
  have hv : Config.validate .empty Odd.config = .ok () := rfl
  obtain ⟨haccepted, -, -⟩ := targetsOf_accepted Config.unknownMachine hv
  have hlib : ":lib:" ∈ targetsOf Odd.config.workspace := mem_targetsOf.mpr (.inl (by decide))
  refine ⟨hv, mem_targetsOf.mpr (.inr (by decide)), hlib, ?_, ?_, ((haccepted _).mp hlib).2⟩
  · rw [mem_targetsOf]
    decide
  · rw [mem_targetsOf]
    decide

end Completion

end BuildStream
