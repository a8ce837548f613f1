/-
# Dropping components of a path

A path is a text, and its components are what is left of its parts between slashes when the empty
ones and the dots are taken away (`Path.names`).  Dropping the last component works on the parts: it
takes off what is no component from the end, then one part, then what is no component again.  What
is left is a path of its own.

* Its components are those of the whole path without the last, it starts at the root if the whole
  path does, and its text is a prefix of the text of the path (`Path.parent?_eq_some`).
* There is nothing left to drop exactly if the path has no component (`Path.parent?_eq_none_iff`).

So a path with `n` components can be shortened `n` times and no more (`Path.dropped_of_le`,
`Path.dropped_of_lt`): an absolute one to the root, and a relative one to nothing.
-/
import BuildStream.Files.Path
import BuildStream.Proofs.Separated

namespace BuildStream

namespace Path

/-! ## 1. Components among parts -/

/-- The parts that are components. -/
def componentsAmong (isFirst : Bool) : List String → List String
  | [] => []
  | p :: ps =>
    if isComponent isFirst p then p :: componentsAmong false ps else componentsAmong false ps

/-- The components of a path. -/
def names (path : String) : List String := componentsAmong (!isAbsolute path) (parts path)

variable {isFirst : Bool} {ps : List String}

theorem length_componentsAmong_le : (componentsAmong isFirst ps).length ≤ ps.length := by
  induction ps generalizing isFirst with
  | nil => exact Nat.le_refl 0
  | cons p ps ih =>
    have hle : (componentsAmong false ps).length ≤ ps.length := ih
    unfold componentsAmong
    split
    · rw [List.length_cons, List.length_cons]
      omega
    · rw [List.length_cons]
      omega

/-- Parts at whose end there is a component are not shortened. -/
theorem trimmed_cons_of_ne_nil {p : String} (h : trimmed false ps ≠ []) :
    trimmed isFirst (p :: ps) = p :: trimmed false ps := by
  obtain ⟨kept, more, hk⟩ := List.exists_cons_of_ne_nil h
  rw [trimmed, hk]

theorem trimmed_cons_of_eq_nil {p : String} (h : trimmed false ps = []) :
    trimmed isFirst (p :: ps) = if isComponent isFirst p then [p] else [] := by
  rw [trimmed, h]

theorem trimmed_prefix_self : trimmed isFirst ps <+: ps := by
  induction ps generalizing isFirst with
  | nil => exact List.prefix_refl _
  | cons p ps ih =>
    by_cases h : trimmed false ps = []
    · rw [trimmed_cons_of_eq_nil h]
      split
      · exact List.cons_prefix_cons.mpr ⟨rfl, List.nil_prefix⟩
      · exact List.nil_prefix
    · rw [trimmed_cons_of_ne_nil h]
      exact List.cons_prefix_cons.mpr ⟨rfl, ih⟩

/-- Nothing but what is no component is taken off. -/
theorem trimmed_eq_nil_iff : trimmed isFirst ps = [] ↔ componentsAmong isFirst ps = [] := by
  induction ps generalizing isFirst with
  | nil => exact Iff.rfl
  | cons p ps ih =>
    unfold componentsAmong
    by_cases h : trimmed false ps = []
    · rw [trimmed_cons_of_eq_nil h, ih.mp h]
    · rw [trimmed_cons_of_ne_nil h]
      have hps : componentsAmong false ps ≠ [] := fun he => h (ih.mpr he)
      split <;> simp [hps]

theorem componentsAmong_trimmed :
    componentsAmong isFirst (trimmed isFirst ps) = componentsAmong isFirst ps := by
  induction ps generalizing isFirst with
  | nil => rfl
  | cons p ps ih =>
    by_cases h : trimmed false ps = []
    · have hps := trimmed_eq_nil_iff.mp h
      rw [trimmed_cons_of_eq_nil h]
      by_cases hp : isComponent isFirst p = true <;> simp [componentsAmong, hp, hps]
    · rw [trimmed_cons_of_ne_nil h, componentsAmong, componentsAmong, ih]

/-- **The last part that is kept** is the last component. -/
theorem componentsAmong_dropLast_trimmed :
    componentsAmong isFirst (trimmed isFirst ps).dropLast =
      (componentsAmong isFirst ps).dropLast := by
  induction ps generalizing isFirst with
  | nil => rfl
  | cons p ps ih =>
    by_cases h : trimmed false ps = []
    · have hps := trimmed_eq_nil_iff.mp h
      rw [trimmed_cons_of_eq_nil h]
      by_cases hp : isComponent isFirst p = true <;> simp [componentsAmong, hp, hps]
    · have hps : componentsAmong false ps ≠ [] := fun he => h (trimmed_eq_nil_iff.mpr he)
      rw [trimmed_cons_of_ne_nil h, List.dropLast_cons_of_ne_nil h, componentsAmong,
        componentsAmong, ih]
      split
      · rw [List.dropLast_cons_of_ne_nil hps]
      · rfl

/-! ## 2. Paths of parts -/

variable {path : String}

theorem isAbsolute_iff : isAbsolute path = true ↔ ∃ cs, path.toList = '/' :: cs := by
  unfold isAbsolute
  cases path.toList with
  | nil => simp
  | cons c cs => simp

/-- The characters behind the root of a path that starts there, and all of any other. -/
def body (path : String) : List Char := if isAbsolute path then path.toList.tail else path.toList

theorem parts_eq (path : String) : parts path = ((body path).splitOn '/').map String.ofList := by
  unfold parts body Files.components
  split
  · next h =>
    obtain ⟨cs, hp⟩ := isAbsolute_iff.mp h
    rw [hp, List.splitOn_cons_eq_if_modifyHead]
    simp
  · rfl

theorem toList_eq_append (path : String) :
    path.toList = (if isAbsolute path then ['/'] else []) ++ body path := by
  unfold body
  split
  · next h =>
    obtain ⟨cs, hp⟩ := isAbsolute_iff.mp h
    rw [hp, List.tail_cons, List.singleton_append]
  · rfl

theorem toList_ofParts (absolute : Bool) (ps : List String) :
    (ofParts absolute ps).toList =
      (if absolute then ['/'] else []) ++ ['/'].intercalate (ps.map String.toList) := by
  cases absolute <;> simp [ofParts]

/-- The first parts of a path, as they were cut out of it. -/
theorem map_toList_prefix_splitOn (h : ps <+: parts path) :
    ps.map String.toList <+: (body path).splitOn '/' := by
  have hmap := h.map String.toList
  rw [parts_eq, List.map_map] at hmap
  simpa using hmap

/-- What the first parts of a path make up is a prefix of its text. -/
theorem toList_ofParts_prefix_toList (h : ps <+: parts path) :
    (ofParts (isAbsolute path) ps).toList <+: path.toList := by
  have hbody : ['/'].intercalate (ps.map String.toList) <+: body path := by
    have hparts := intercalate_prefix_intercalate '/' (map_toList_prefix_splitOn h)
    rwa [List.intercalate_splitOn] at hparts
  rw [toList_ofParts, toList_eq_append path, List.prefix_append_right_inj]
  exact hbody

theorem isAbsolute_ofParts (h : ps <+: parts path) :
    isAbsolute (ofParts (isAbsolute path) ps) = isAbsolute path := by
  rw [Bool.eq_iff_iff]
  constructor
  · intro ha
    obtain ⟨cs, hcs⟩ := isAbsolute_iff.mp ha
    obtain ⟨more, hmore⟩ := toList_ofParts_prefix_toList h
    rw [hcs] at hmore
    exact isAbsolute_iff.mpr ⟨cs ++ more, hmore.symm⟩
  · intro ha
    rw [isAbsolute_iff, toList_ofParts, if_pos ha]
    exact ⟨_, rfl⟩

theorem body_ofParts (h : ps <+: parts path) :
    body (ofParts (isAbsolute path) ps) = ['/'].intercalate (ps.map String.toList) := by
  have htext := toList_eq_append (ofParts (isAbsolute path) ps)
  rw [isAbsolute_ofParts h, toList_ofParts] at htext
  exact (List.append_cancel_left htext).symm

/-- **The first parts of a path** make up a path with the components that are among them. -/
theorem names_ofParts (h : ps <+: parts path) :
    names (ofParts (isAbsolute path) ps) = componentsAmong (!isAbsolute path) ps := by
  rw [names, isAbsolute_ofParts h, parts_eq, body_ofParts h]
  by_cases hne : ps = []
  · -- nothing is cut into one empty part, which is no component
    subst hne
    simp [componentsAmong, isComponent, List.splitOn_nil]
  · have hmap : ps.map String.toList ≠ [] := by simpa using hne
    rw [splitOn_intercalate_of_prefix_splitOn (map_toList_prefix_splitOn h) hmap]
    simp

/-! ## 3. Dropping the last component -/

theorem trimmedParts_eq_nil_iff : trimmedParts path = [] ↔ names path = [] := trimmed_eq_nil_iff

/-- **A path has no parent** exactly if it has no component. -/
theorem parent?_eq_none_iff : parent? path = none ↔ names path = [] := by
  rw [← trimmedParts_eq_nil_iff, parent?]
  cases trimmedParts path <;> simp

/-- **The parent of a path** has its components without the last one, starts at the root if the path
does, and its text is a prefix of the path. -/
theorem parent?_eq_some {above : String} (h : parent? path = some above) :
    isAbsolute above = isAbsolute path ∧ names above = (names path).dropLast ∧
      above.toList <+: path.toList := by
  obtain rfl : ofParts (isAbsolute path)
      (trimmed (!isAbsolute path) (trimmedParts path).dropLast) = above := by
    rw [parent?] at h
    cases hk : trimmedParts path with
    | nil => rw [hk] at h; exact nomatch h
    | cons p ps => rw [hk] at h; exact Option.some.inj h
  have hkept : trimmed (!isAbsolute path) (trimmedParts path).dropLast <+: parts path :=
    (trimmed_prefix_self.trans (List.dropLast_prefix _)).trans trimmed_prefix_self
  refine ⟨isAbsolute_ofParts hkept, ?_, toList_ofParts_prefix_toList hkept⟩
  rw [names_ofParts hkept, componentsAmong_trimmed]
  exact componentsAmong_dropLast_trimmed

/-- The parent has one component less. -/
theorem length_names_parent {above : String} (h : parent? path = some above) :
    (names above).length + 1 = (names path).length := by
  obtain ⟨-, hnames, -⟩ := parent?_eq_some h
  have hne : names path ≠ [] := by
    intro hnone
    exact nomatch h.symm.trans (parent?_eq_none_iff.mpr hnone)
  have hpos := List.length_pos_iff.mpr hne
  rw [hnames, List.length_dropLast]
  omega

/-! ## 4. Dropping some components -/

/-- What is left of a path after so many components were dropped. -/
def dropped : Nat → String → Option String
  | 0, path => some path
  | k + 1, path => (parent? path).bind (dropped k)

/-- **As many components can be dropped as there are.** -/
theorem dropped_of_le {k : Nat} (h : k ≤ (names path).length) :
    ∃ directory, dropped k path = some directory ∧ isAbsolute directory = isAbsolute path ∧
      names directory = (names path).take ((names path).length - k) ∧
      directory.toList <+: path.toList := by
  induction k generalizing path with
  | zero => exact ⟨path, rfl, rfl, by simp, List.prefix_refl _⟩
  | succ k ih =>
    obtain ⟨above, ha⟩ : ∃ above, parent? path = some above := by
      rw [← Option.ne_none_iff_exists', ne_eq, parent?_eq_none_iff]
      intro hnone
      rw [hnone] at h
      exact nomatch h
    obtain ⟨habsolute, hnames, hprefix⟩ := parent?_eq_some ha
    have hlength := length_names_parent ha
    have hk : k ≤ (names above).length := by omega
    obtain ⟨directory, hd, hda, hdn, hdp⟩ := ih hk
    refine ⟨directory, ?_, hda.trans habsolute, ?_, hdp.trans hprefix⟩
    · rw [dropped, ha]
      exact hd
    · have hleft : (names above).length - k = (names path).length - (k + 1) := by omega
      rw [hdn, hleft, hnames, List.dropLast_eq_take, List.take_take]
      congr 1
      omega

/-- **No more components can be dropped than there are.** -/
theorem dropped_of_lt {k : Nat} (h : (names path).length < k) : dropped k path = none := by
  induction k generalizing path with
  | zero => exact nomatch h
  | succ k ih =>
    rw [dropped]
    cases ha : parent? path with
    | none => rfl
    | some above =>
      have hlength := length_names_parent ha
      exact ih (by omega)

end Path

end BuildStream
