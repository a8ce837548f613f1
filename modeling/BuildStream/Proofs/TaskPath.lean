/-
# Two ways to the name of a task

A path is cut in two ways: once at the last colon, and at every colon.  Both end with the same
part, so the name that a plan asks for is the one that validation looks at
(`TaskPath.lastSegment_eq_name`).

A name has no colon (`TaskPath.colon_notMem_name`).  So a name is never rooted, and a path that is
not rooted and has a colon is the name of no task.

A project and a name make up a path again (`TaskPath.ofSplit`).  Only the root is written in two
ways, as nothing and as a colon, so `::compile` is cut as `:compile` is (`TaskPath.IsDoubled`).
Every other rooted path is that of its name in its project, and the two tell such paths apart
(`TaskPath.split_agrees`).
-/
import BuildStream.TaskPath
import Mathlib.Data.List.Basic

namespace BuildStream

/-! ## 1. The last colon -/

/-- **The last colon** is where it says, with no colon after it; there is none only where there is
no colon at all. -/
theorem lastColon_cases (cs : List Char) :
    (lastColon cs = none ∧ ':' ∉ cs) ∨
    ∃ before after, lastColon cs = some (before, after) ∧ cs = before ++ ':' :: after ∧
      ':' ∉ after := by
  induction cs with
  | nil => exact .inl ⟨rfl, List.not_mem_nil⟩
  | cons c cs ih =>
    unfold lastColon
    rcases ih with ⟨hl, hn⟩ | ⟨before, after, hl, rfl, ha⟩
    · rw [hl]
      by_cases hc : c = ':'
      · exact .inr ⟨[], cs, by simp [hc], by simp [hc], hn⟩
      · exact .inl ⟨by simp [hc], by simp [hn, Ne.symm hc]⟩
    · rw [hl]
      exact .inr ⟨c :: before, after, rfl, rfl, ha⟩

/-- A colon with no colon after it is the last one. -/
theorem lastColon_append (before : List Char) {after : List Char} (h : ':' ∉ after) :
    lastColon (before ++ ':' :: after) = some (before, after) := by
  induction before with
  | nil =>
    rw [List.nil_append, lastColon]
    rcases lastColon_cases after with ⟨hl, -⟩ | ⟨_, _, -, ha, -⟩
    · rw [hl]
      rfl
    · exact absurd (by simp [ha]) h
  | cons c before ih => rw [List.cons_append, lastColon, ih]

namespace TaskPath

theorem toList_append_colon (before after : String) :
    (before ++ ":" ++ after).toList = before.toList ++ ':' :: after.toList := by
  simp

/-- **The cut** at a colon with no colon after it; what is before it is the project, or the root if
that is nothing. -/
theorem split_append (before : String) {after : String} (h : ':' ∉ after.toList) :
    split (before ++ ":" ++ after) = (if before = "" then root else before, after) := by
  rw [split, toList_append_colon, lastColon_append before.toList h]
  by_cases hb : before = ""
  · rw [if_pos hb, hb]
    simp
  · rw [if_neg hb]
    cases hc : before.toList with
    | nil => exact absurd (String.toList_eq_nil_iff.mp hc) hb
    | cons c cs => simp [← hc]

/-- Every path is cut in one of two ways. -/
theorem split_cases (path : TaskPath) :
    (':' ∉ path.toList ∧ split path = (root, path)) ∨
    ∃ before after : String, path = before ++ ":" ++ after ∧ ':' ∉ after.toList ∧
      split path = (if before = "" then root else before, after) := by
  rcases lastColon_cases path.toList with ⟨hl, hn⟩ | ⟨before, after, -, hp, ha⟩
  · exact .inl ⟨hn, by rw [split, hl]⟩
  · have hpath : path = String.ofList before ++ ":" ++ String.ofList after := by
      apply String.toList_inj.mp
      simp [hp]
    have hafter : ':' ∉ (String.ofList after).toList := by simpa using ha
    exact .inr ⟨String.ofList before, String.ofList after, hpath, hafter,
      hpath ▸ split_append _ hafter⟩
/-! ## 2. Every colon -/

theorem segmentChars_ne_nil (cs : List Char) : segmentChars cs ≠ [] := by
  cases cs with
  | nil => simp [segmentChars]
  | cons c cs =>
    unfold segmentChars
    split
    · simp
    · split <;> simp

theorem segmentChars_of_notMem {cs : List Char} (h : ':' ∉ cs) : segmentChars cs = [cs] := by
  induction cs with
  | nil => rfl
  | cons c cs ih =>
    rw [segmentChars, if_neg (Ne.symm (List.ne_of_not_mem_cons h)), ih (List.not_mem_of_not_mem_cons h)]

/-- A colon separates the parts before it from those after it. -/
theorem segmentChars_append (before after : List Char) :
    segmentChars (before ++ ':' :: after) = segmentChars before ++ segmentChars after := by
  induction before with
  | nil => simp [segmentChars]
  | cons c before ih =>
    rw [List.cons_append, segmentChars, segmentChars]
    split
    · rw [ih, List.cons_append]
    · rw [ih]
      cases hs : segmentChars before with
      | nil => exact absurd hs (segmentChars_ne_nil before)
      | cons s ss => rfl

/-! ## 3. The name -/

/-- **The two cuts agree** on the name. -/
theorem lastSegment_eq_name (path : TaskPath) : lastSegment path = name path := by
  rw [lastSegment, segments, name]
  rcases split_cases path with ⟨hn, hs⟩ | ⟨before, after, rfl, ha, hs⟩
  · rw [hs, segmentChars_of_notMem hn]
    simp
  · rw [hs, toList_append_colon, segmentChars_append, segmentChars_of_notMem ha]
    simp

theorem name_of_notMem {path : TaskPath} (h : ':' ∉ path.toList) : name path = path := by
  rcases split_cases path with ⟨-, hs⟩ | ⟨before, after, rfl, -, -⟩
  · rw [name, hs]
  · exact absurd (by simp) h

theorem colon_notMem_name (path : TaskPath) : ':' ∉ (name path).toList := by
  rw [name]
  rcases split_cases path with ⟨hn, hs⟩ | ⟨before, after, -, ha, hs⟩
  · rwa [hs]
  · rwa [hs]

/-- A path ends in its name, behind the last colon if there is one. -/
theorem name_cases (path : TaskPath) :
    (':' ∉ path.toList ∧ name path = path) ∨ ∃ before, path = before ++ ":" ++ name path := by
  rcases split_cases path with ⟨hn, -⟩ | ⟨before, after, hp, -, hs⟩
  · exact .inl ⟨hn, name_of_notMem hn⟩
  · exact .inr ⟨before, by rw [name, hs]; exact hp⟩

/-- What has no colon is not rooted. -/
theorem isRooted_of_notMem {path : TaskPath} (h : ':' ∉ path.toList) : isRooted path = false := by
  unfold isRooted
  cases hp : path.toList with
  | nil => rfl
  | cons c cs =>
    rw [hp] at h
    simpa using Ne.symm (List.ne_of_not_mem_cons h)

theorem isRooted_name (path : TaskPath) : isRooted (name path) = false :=
  isRooted_of_notMem (colon_notMem_name path)

/-! ## 4. Back from the project and the name -/

/-- The path of a name in a project. -/
def ofSplit (project name : String) : TaskPath :=
  if project = root then root ++ name else project ++ ":" ++ name

/-- A name after two colons. -/
def IsDoubled (path : TaskPath) : Prop := ∃ name : String, ':' ∉ name.toList ∧ path = "::" ++ name

instance (path : TaskPath) : Decidable (IsDoubled path) :=
  decidable_of_iff ([':', ':'] <+: path.toList ∧ ':' ∉ path.toList.drop 2) <| by
    constructor
    · rintro ⟨⟨cs, hc⟩, hn⟩
      rw [← hc] at hn
      refine ⟨String.ofList cs, by simpa using hn, String.toList_inj.mp ?_⟩
      rw [← hc]
      simp
    · rintro ⟨name, hn, rfl⟩
      simpa using hn

/-- A path is doubled exactly if a single colon stands before its last one. -/
theorem isDoubled_append {before after : String} (h : ':' ∉ after.toList) :
    IsDoubled (before ++ ":" ++ after) ↔ before = ":" := by
  constructor
  · rintro ⟨name, hn, hp⟩
    have hcut : lastColon (before ++ ":" ++ after).toList = some ([':'], name.toList) := by
      rw [hp]
      simpa using lastColon_append [':'] hn
    rw [toList_append_colon, lastColon_append before.toList h] at hcut
    have hbefore : before.toList = [':'] := (Prod.mk.inj (Option.some.inj hcut)).1
    exact String.toList_inj.mp hbefore
  · rintro rfl
    exact ⟨after, h, rfl⟩

/-- **A rooted path** is that of its name in its project, unless it is doubled. -/
theorem ofSplit_eq_iff {path : TaskPath} (h : isRooted path = true) :
    ofSplit (project path) (name path) = path ↔ ¬ IsDoubled path := by
  rcases split_cases path with ⟨hn, -⟩ | ⟨before, after, rfl, ha, hs⟩
  · exact nomatch h.symm.trans (isRooted_of_notMem hn)
  · rw [isDoubled_append ha, project, name, hs, ofSplit]
    by_cases hnone : before = ""
    · rw [hnone]
      simp [root]
    · rw [if_neg hnone]
      by_cases hroot : before = root
      · -- one of the two colons is lost
        refine iff_of_false ?_ fun hne => hne hroot
        rw [if_pos hroot, hroot]
        intro he
        have hlength := congrArg (·.toList.length) he
        simp [root] at hlength
      · rw [if_neg hroot]
        exact iff_of_true rfl hroot

/-- **What the two cuts say of a path.**

The name has no colon, is what the path ends in behind its last colon (the whole path if it has
none), and is the last of the parts between colons.  A rooted path is that of its name in its
project exactly if it is not a name after two colons, so two such paths with the same project and
the same name are equal. -/
theorem split_agrees :
    (∀ path : TaskPath, ':' ∉ (name path).toList ∧ lastSegment path = name path ∧
      ((':' ∉ path.toList ∧ name path = path) ∨ ∃ before, path = before ++ ":" ++ name path)) ∧
    (∀ path : TaskPath, isRooted path = true →
      (ofSplit (project path) (name path) = path ↔ ¬ IsDoubled path)) ∧
    ∀ path other : TaskPath, isRooted path = true → isRooted other = true →
      ¬ IsDoubled path → ¬ IsDoubled other →
      project path = project other → name path = name other → path = other := by
  refine ⟨fun path => ⟨colon_notMem_name path, lastSegment_eq_name path, name_cases path⟩,
    fun path h => ofSplit_eq_iff h, ?_⟩
  intro path other hp ho hdp hdo hproject hname
  calc path = ofSplit (project path) (name path) := ((ofSplit_eq_iff hp).mpr hdp).symm
    _ = ofSplit (project other) (name other) := by rw [hproject, hname]
    _ = other := (ofSplit_eq_iff ho).mpr hdo

/-- A project whose path ends in a colon, of letters of more than one byte. -/
theorem split_agrees_umlaut :
    isRooted ":größe::länge" = true ∧ ¬ IsDoubled ":größe::länge" ∧
      split ":größe::länge" = (":größe:", "länge") ∧ lastSegment ":größe::länge" = "länge" ∧
      ofSplit ":größe:" "länge" = ":größe::länge" := by
  have hrooted : isRooted ":größe::länge" = true := by decide
  have hdoubled : ¬ IsDoubled ":größe::länge" := by decide
  have hsplit : split ":größe::länge" = (":größe:", "länge") := by decide
  obtain ⟨hname, hback, htell⟩ := split_agrees
  have hother : ofSplit ":größe:" "länge" = ":größe::länge" :=
    htell _ _ (by decide) hrooted (by decide) hdoubled (by decide) (by decide)
  exact ⟨hrooted, hdoubled, hsplit, (hname _).2.1.trans (congrArg Prod.snd hsplit), hother⟩

example : IsDoubled "::compile" ∧ split "::compile" = split ":compile" := by decide

end TaskPath

end BuildStream
