/-
# Projects inside projects

A selector takes the tasks of a name in a project and in the projects inside it.  Which projects
these are is decided on the texts: a project is inside another one if it is that one, or starts
with it and a colon.  Whether this is what it means for one project to enclose another is a
question about the segments of paths, and the answer is yes (`TaskPath.isUnder_iff`):

* The parts of one text are a prefix of those of another exactly if the texts are equal, or the
  first is followed by a colon (`TaskPath.segments_prefix_iff`).  The colon is what keeps `:library`
  out of `:lib`.
* A rooted path has an empty part in front, and cutting at the last colon takes off its last part.
  What is left is the project, except that no part at all is written `:`.

The root is the one project whose text is not its parts put together, which is why it is a case of
its own in the code and in the proofs.
-/
import BuildStream.Launchable
import BuildStream.Proofs.Distinct
import BuildStream.Proofs.Separated
import BuildStream.Proofs.TaskPath

namespace BuildStream

namespace TaskPath

/-! ## 1. Prefixes of parts -/

theorem segmentChars_eq_splitOn (cs : List Char) : segmentChars cs = cs.splitOn ':' := by
  induction cs with
  | nil => simp [segmentChars, List.splitOn_nil]
  | cons c cs ih =>
    rw [segmentChars, List.splitOn_cons_eq_if_modifyHead, ih]
    by_cases hc : c = ':'
    · simp [hc]
    · rw [if_neg hc, if_neg (by simpa using hc)]
      cases hs : cs.splitOn ':' with
      | nil => exact absurd hs (List.splitOn_ne_nil ':' cs)
      | cons s ss => rfl

/-- **A prefix of the parts of a path** belongs to the path itself, or to what stands before one of
its colons. -/
theorem segments_prefix_iff {above path : TaskPath} :
    segments above <+: segments path ↔ path = above ∨ above.toList ++ [':'] <+: path.toList := by
  have hinj : Function.Injective String.ofList := fun a b h => by simpa using congrArg String.toList h
  rw [segments, segments, List.prefix_map_iff_of_injective hinj, segmentChars_eq_splitOn,
    segmentChars_eq_splitOn, splitOn_prefix_iff, String.toList_inj]

/-! ## 2. Rooted paths -/

/-- The parts of a rooted path, without the empty one in front of its first colon. -/
def parts (path : TaskPath) : List String := (segments path).tail

/-- A rooted path without an empty part. -/
structure IsProper (path : TaskPath) : Prop where
  rooted : isRooted path = true
  named : "" ∉ parts path

instance (path : TaskPath) : Decidable (IsProper path) :=
  decidable_of_iff (isRooted path = true ∧ "" ∉ parts path)
    ⟨fun h => ⟨h.1, h.2⟩, fun h => ⟨h.rooted, h.named⟩⟩

/-- The parts of a project; the root has none. -/
def projectParts (project : String) : List String := if project = root then [] else parts project

/-- A project that is the root, or a rooted path without an empty part. -/
def IsProject (project : String) : Prop := project = root ∨ IsProper project

instance (project : String) : Decidable (IsProject project) := inferInstanceAs (Decidable (_ ∨ _))

variable {path : TaskPath}

theorem exists_toList_of_isRooted (h : isRooted path = true) : ∃ cs, path.toList = ':' :: cs := by
  unfold isRooted at h
  cases hp : path.toList with
  | nil => rw [hp] at h; exact nomatch h
  | cons c cs =>
    rw [hp] at h
    obtain rfl : c = ':' := by simpa using h
    exact ⟨cs, rfl⟩

theorem segments_of_isRooted (h : isRooted path = true) :
    segments path = "" :: parts path ∧ parts path ≠ [] := by
  obtain ⟨cs, hp⟩ := exists_toList_of_isRooted h
  have hs : segments path = "" :: (segmentChars cs).map String.ofList := by
    simp [segments, hp, segmentChars]
  have hparts : parts path = (segmentChars cs).map String.ofList := by rw [parts, hs, List.tail_cons]
  refine ⟨by rw [hparts, hs], ?_⟩
  rw [hparts]
  simpa using segmentChars_ne_nil cs

/-- **The two ends of a rooted path**: its last part is the name, and the others are the parts of
its project, which is the root if there are none. -/
theorem name_project_of_isRooted (h : isRooted path = true) :
    (parts path).getLast? = some (name path) ∧
      ((project path = root ∧ (parts path).dropLast = []) ∨
        (isRooted (project path) = true ∧ parts (project path) = (parts path).dropLast)) := by
  obtain ⟨cs, hp⟩ := exists_toList_of_isRooted h
  rcases lastColon_cases path.toList with ⟨-, hn⟩ | ⟨before, after, hl, hcut, ha⟩
  · rw [hp] at hn
    exact absurd List.mem_cons_self hn
  · have hs : segments path = (segmentChars before).map String.ofList ++ [String.ofList after] := by
      rw [segments, hcut, segmentChars_append, segmentChars_of_notMem ha, List.map_append]
      rfl
    cases before with
    | nil =>
      have hparts : parts path = [String.ofList after] := by rw [parts, hs]; rfl
      rw [hparts]
      refine ⟨by simp [name, split, hl], .inl ⟨by simp [project, split, hl], rfl⟩⟩
    | cons c before =>
      -- the first colon is not the last one, so it starts the project as well
      obtain rfl : c = ':' := by
        rw [hcut, List.cons_append] at hp
        exact (List.cons.inj hp).1
      have hproject : project path = String.ofList (':' :: before) := by simp [project, split, hl]
      have hparts : parts path = (segmentChars before).map String.ofList ++ [String.ofList after] := by
        rw [parts, hs]
        rfl
      rw [hparts, hproject]
      refine ⟨by simp [name, split, hl], .inr ⟨by simp [isRooted], ?_⟩⟩
      simp [parts, segments, segmentChars]

/-! ## 3. Being inside -/

/-- **One project is inside another** exactly if its parts start with those of the other. -/
theorem isUnder_iff {above : String} (hp : IsProper path) (ha : IsProject above) :
    TaskSelector.isUnder (project path) above = true ↔
      projectParts above <+: (parts path).dropLast := by
  unfold TaskSelector.isUnder projectParts
  rcases ha with rfl | ha
  · simp
  · have hne : above ≠ root := by
      rintro rfl
      exact ha.named (by decide)
    obtain ⟨hsa, hna⟩ := segments_of_isRooted ha.rooted
    rw [if_neg hne]
    simp only [Bool.or_eq_true, beq_iff_eq, List.isPrefixOf_iff_prefix, hne, false_or]
    rw [← segments_prefix_iff, hsa]
    rcases (name_project_of_isRooted hp.rooted).2 with ⟨hroot, hnone⟩ | ⟨hrooted, hparts⟩
    · -- the root is inside no other project: its one part is empty
      have hsegments : segments root = ["", ""] := rfl
      rw [hroot, hnone, hsegments, List.cons_prefix_cons]
      refine iff_of_false ?_ fun h => hna (List.prefix_nil.mp h)
      rintro ⟨-, h⟩
      obtain ⟨first, more, hfirst⟩ := List.exists_cons_of_ne_nil hna
      rw [hfirst, List.cons_prefix_cons] at h
      exact ha.named (by rw [hfirst, h.1]; exact List.mem_cons_self)
    · rw [(segments_of_isRooted hrooted).1, List.cons_prefix_cons, hparts]
      simp

end TaskPath

/-! ## 4. Selecting -/

namespace TaskSelector

open TaskPath

/-- A path ends in a name, and the parts before it start with those of a project. -/
def Selects (name project : String) (path : TaskPath) : Prop :=
  (parts path).getLast? = some name ∧ projectParts project <+: (parts path).dropLast

instance (name project : String) (path : TaskPath) : Decidable (Selects name project path) :=
  inferInstanceAs (Decidable (_ ∧ _))

/-- A path that is selected goes on with a colon after the project's path. -/
theorem Selects.colon_prefix_toList {name project : String} {path : TaskPath}
    (h : Selects name project path) (hproject : IsProper project) (hne : project ≠ root)
    (hpath : IsProper path) : project.toList ++ [':'] <+: path.toList := by
  obtain ⟨-, hparts⟩ := h
  rw [projectParts, if_neg hne] at hparts
  have hinside : segments project <+: segments path := by
    rw [(segments_of_isRooted hproject.rooted).1, (segments_of_isRooted hpath.rooted).1,
      List.cons_prefix_cons]
    exact ⟨rfl, hparts.trans (List.dropLast_prefix _)⟩
  rcases segments_prefix_iff.mp hinside with rfl | hcolon
  · -- a project is not inside itself without its last part
    have hle := hparts.length_le
    have hpos := List.length_pos_iff.mpr (segments_of_isRooted hpath.rooted).2
    rw [List.length_dropLast] at hle
    omega
  · exact hcolon

/-- So it does not go on with any other character. -/
theorem Selects.not_letter {name project : String} {path : TaskPath}
    (h : Selects name project path) (hproject : IsProper project) (hne : project ≠ root)
    (hpath : IsProper path) {letter : Char} (hletter : letter ≠ ':') :
    ¬ project.toList ++ [letter] <+: path.toList := by
  intro hsame
  have hcolon := h.colon_prefix_toList hproject hne hpath
  have heq : project.toList ++ [letter] = project.toList ++ [':'] :=
    (List.prefix_of_prefix_length_le hsame hcolon (by simp)).eq_of_length (by simp)
  exact hletter (List.singleton_inj.mp (List.append_cancel_left heq))

theorem taskPaths_ofProject (name project : String) (tasks : List TaskHandle) :
    (ofProject name project tasks).taskPaths =
      distinct ((tasks.filter fun t => TaskPath.name t.path == name &&
        isUnder (TaskPath.project t.path) project).map (·.path)) := by
  unfold ofProject
  dsimp only
  split <;> rfl

/-- **What the texts decide** is what the parts say. -/
theorem taskPaths_eq_distinct (name project : String) (tasks : List TaskHandle)
    (hproject : IsProject project) (htasks : ∀ t ∈ tasks, IsProper t.path) :
    (ofProject name project tasks).taskPaths =
      distinct ((tasks.map (·.path)).filter fun path => Selects name project path) := by
  have hselects : ∀ t ∈ tasks, (TaskPath.name t.path == name &&
      isUnder (TaskPath.project t.path) project) = decide (Selects name project t.path) := by
    intro t ht
    have hp := htasks t ht
    rw [Bool.eq_iff_iff, Bool.and_eq_true, beq_iff_eq, isUnder_iff hp hproject, decide_eq_true_iff,
      Selects, (name_project_of_isRooted hp.rooted).1, Option.some_inj]
  rw [taskPaths_ofProject, List.filter_congr hselects, List.filter_map]
  rfl

/-- **The tasks of a name inside a project.**

A selector has, each once and in the order of the list, the paths whose last part is the name and
whose other parts start with those of the project.  What it has of a project other than the root
goes on with a colon after the project's path, so a project that merely starts with the same
letters is left out. -/
theorem taskPaths_inside (name project : String) (tasks : List TaskHandle)
    (hproject : IsProject project) (htasks : ∀ t ∈ tasks, IsProper t.path) :
    let selected := (ofProject name project tasks).taskPaths
    selected = ((tasks.map (·.path)).filter fun path => Selects name project path).eraseDups ∧
      selected.Nodup ∧
      (∀ path, path ∈ selected ↔ path ∈ tasks.map (·.path) ∧ Selects name project path) ∧
      (project ≠ root → ∀ path ∈ selected, ∀ letter ≠ ':',
        ¬ project.toList ++ [letter] <+: path.toList) := by
  intro selected
  have hfilter : selected =
      distinct ((tasks.map (·.path)).filter fun path => Selects name project path) :=
    taskPaths_eq_distinct name project tasks hproject htasks
  have hmem (path : TaskPath) :
      path ∈ selected ↔ path ∈ tasks.map (·.path) ∧ Selects name project path := by
    rw [hfilter, mem_distinct, List.mem_filter, decide_eq_true_iff]
  refine ⟨hfilter.trans (distinct_eq_eraseDups _), hfilter ▸ nodup_distinct _, hmem, ?_⟩
  intro hne path hm letter hletter
  obtain ⟨hm, hs⟩ := (hmem path).mp hm
  obtain ⟨t, ht, rfl⟩ := List.mem_map.mp hm
  exact hs.not_letter (hproject.resolve_left hne) hne (htasks t ht) hletter

namespace Libraries

/-- Tasks in a project, inside it, beside it, and in one whose name starts with the same letters. -/
def tasks : List TaskHandle :=
  [⟨":library:test", none⟩, ⟨":lib:core:test", none⟩, ⟨":lib:compile", none⟩, ⟨":lib:test", none⟩,
    ⟨":test", none⟩, ⟨":lib:core:test", some "again"⟩]

end Libraries

/-- The two tests of the project are selected, in the order of the list. -/
theorem taskPaths_libraries :
    IsProject ":lib" ∧ (∀ t ∈ Libraries.tasks, IsProper t.path) ∧
      (ofProject "test" ":lib" Libraries.tasks).taskPaths = [":lib:core:test", ":lib:test"] ∧
      ":library:test" ∉ (ofProject "test" ":lib" Libraries.tasks).taskPaths := by
  have hproject : IsProject ":lib" := by decide
  have htasks : ∀ t ∈ Libraries.tasks, IsProper t.path := by decide
  obtain ⟨hselected, -, -, hletters⟩ := taskPaths_inside "test" ":lib" Libraries.tasks hproject htasks
  refine ⟨hproject, htasks, hselected.trans (by decide), ?_⟩
  intro hm
  exact hletters (by decide) _ hm 'r' (by decide) (by decide)

end TaskSelector

end BuildStream
