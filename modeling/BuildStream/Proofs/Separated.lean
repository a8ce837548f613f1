/-
# Texts cut at a separator

Paths of tasks are cut at colons and paths of files at slashes.  Cutting a text and putting the
parts together again gives the same text, so a prefix of the parts is what stands before one of the
separators, or everything (`splitOn_prefix_iff`).  The other way round, parts are cut out again of
the text that they make up, if none of them has a separator in it, as parts of a text that was cut
never have (`splitOn_intercalate_of_prefix_splitOn`).
-/
import Mathlib.Data.List.Basic

namespace BuildStream

variable {α : Type} [BEq α] [LawfulBEq α] {sep : α}

omit [BEq α] [LawfulBEq α] in
/-- Parts put together are those before some place, a separator, and those after it. -/
theorem intercalate_append {before after : List (List α)} (hb : before ≠ []) (ha : after ≠ []) :
    [sep].intercalate (before ++ after) =
      [sep].intercalate before ++ sep :: [sep].intercalate after := by
  induction before with
  | nil => exact absurd rfl hb
  | cons part before ih =>
    rw [List.cons_append]
    cases before with
    | nil => simp [List.intercalate_cons_of_ne_nil ha]
    | cons other before =>
      rw [List.intercalate_cons_of_ne_nil (by simp), ih (by simp), List.intercalate_cons_cons]
      simp

omit [BEq α] [LawfulBEq α] in
theorem intercalate_prefix_intercalate (sep : α) {before parts : List (List α)}
    (h : before <+: parts) :
    [sep].intercalate before <+: [sep].intercalate parts := by
  obtain ⟨after, rfl⟩ := h
  by_cases hb : before = []
  · rw [hb]
    exact List.nil_prefix
  · by_cases ha : after = []
    · simp [ha]
    · rw [intercalate_append hb ha]
      exact List.prefix_append _ _

/-- **A prefix of the parts** belongs to the whole text, or to what stands before one of its
separators. -/
theorem splitOn_prefix_iff {above xs : List α} :
    above.splitOn sep <+: xs.splitOn sep ↔ xs = above ∨ above ++ [sep] <+: xs := by
  constructor
  · rintro ⟨more, hm⟩
    have hxs : [sep].intercalate (above.splitOn sep ++ more) = xs := by
      rw [hm, List.intercalate_splitOn]
    by_cases hmore : more = []
    · left
      rw [← hxs, hmore, List.append_nil, List.intercalate_splitOn]
    · right
      rw [intercalate_append (List.splitOn_ne_nil sep above) hmore, List.intercalate_splitOn] at hxs
      exact ⟨[sep].intercalate more, by rw [← hxs]; simp⟩
  · rintro (rfl | ⟨rest, rfl⟩)
    · exact List.prefix_refl _
    · rw [List.append_assoc, List.singleton_append, List.splitOn_append_cons_self]
      exact List.prefix_append _ _

theorem notMem_of_mem_splitOn {xs part : List α} (h : part ∈ xs.splitOn sep) : sep ∉ part := by
  induction xs generalizing part with
  | nil =>
    rw [List.splitOn_nil, List.mem_singleton] at h
    rw [h]
    exact List.not_mem_nil
  | cons x xs ih =>
    rw [List.splitOn_cons_eq_if_modifyHead] at h
    split at h
    · rcases List.mem_cons.mp h with rfl | h
      · exact List.not_mem_nil
      · exact ih h
    · next hx =>
      cases hs : xs.splitOn sep with
      | nil => exact absurd hs (List.splitOn_ne_nil sep xs)
      | cons first rest =>
        rw [hs, List.modifyHead_cons] at h
        rw [hs] at ih
        rcases List.mem_cons.mp h with rfl | h
        · rw [List.mem_cons]
          rintro (rfl | hm)
          · exact hx (beq_self_eq_true _)
          · exact ih List.mem_cons_self hm
        · exact ih (List.mem_cons_of_mem _ h)

/-- The first parts of a text are cut out again of what they make up. -/
theorem splitOn_intercalate_of_prefix_splitOn {parts : List (List α)} {xs : List α}
    (h : parts <+: xs.splitOn sep) (hne : parts ≠ []) :
    ([sep].intercalate parts).splitOn sep = parts :=
  List.splitOn_intercalate sep (fun _ hp => notMem_of_mem_splitOn (h.subset hp)) hne

end BuildStream
