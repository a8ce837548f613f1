/-
# Members of lists without repetition

`distinct` loses no member, adds none and repeats none, and keeps the order in which members are
first seen (`pairwise_idxOf_distinct`), which is to keep the first occurrence of each
(`distinct_eq_eraseDups`); neither does `addAllNew` add anything but the members of its
two lists.  Where members have different keys, each of them is found by its
own (`find?_of_mem`), in whatever order they come (`find?_eq_of_perm`), and no other has that key
(`filter_of_mem`).
-/
import BuildStream.Distinct
import Mathlib.Data.List.Induction
import Mathlib.Data.List.Nodup

namespace BuildStream

variable {α : Type} [BEq α] [LawfulBEq α]

theorem mem_addNew {seen : List α} {a b : α} : b ∈ addNew seen a ↔ b ∈ seen ∨ b = a := by
  unfold addNew
  split
  · next h =>
    refine ⟨.inl, fun hb => hb.elim id ?_⟩
    rintro rfl
    simpa using h
  · simp

theorem nodup_addNew {seen : List α} {a : α} (h : seen.Nodup) : (addNew seen a).Nodup := by
  unfold addNew
  split
  · exact h
  · next hn => exact h.append (List.nodup_singleton a) (by simpa using hn)

theorem mem_addAllNew {seen more : List α} {a : α} :
    a ∈ addAllNew seen more ↔ a ∈ seen ∨ a ∈ more := by
  induction more generalizing seen with
  | nil => simp [addAllNew]
  | cons b more ih =>
    have hc : addAllNew seen (b :: more) = addAllNew (addNew seen b) more := rfl
    rw [hc, ih, mem_addNew, List.mem_cons, or_assoc]

omit [LawfulBEq α] in
theorem addAllNew_append (seen more others : List α) :
    addAllNew seen (more ++ others) = addAllNew (addAllNew seen more) others :=
  List.foldl_append

/-- Nothing changes when only known members are added. -/
theorem addAllNew_of_subset {seen more : List α} (h : ∀ a ∈ more, a ∈ seen) :
    addAllNew seen more = seen := by
  induction more with
  | nil => rfl
  | cons b more ih =>
    have hb : addNew seen b = seen := if_pos (by simpa using h b (by simp))
    have hc : addAllNew seen (b :: more) = addAllNew (addNew seen b) more := rfl
    rw [hc, hb]
    exact ih fun a ha => h a (List.mem_cons_of_mem _ ha)

theorem nodup_addAllNew {seen more : List α} (h : seen.Nodup) : (addAllNew seen more).Nodup := by
  induction more generalizing seen with
  | nil => exact h
  | cons b more ih => exact ih (nodup_addNew h)

@[simp] theorem mem_distinct {xs : List α} {a : α} : a ∈ distinct xs ↔ a ∈ xs := by
  simp [distinct, mem_addAllNew]

theorem nodup_distinct (xs : List α) : (distinct xs).Nodup := nodup_addAllNew List.nodup_nil

omit [LawfulBEq α] in
theorem distinct_concat (xs : List α) (x : α) : distinct (xs ++ [x]) = addNew (distinct xs) x :=
  addAllNew_append [] xs [x]

/-- **Members come in first-seen order.** -/
theorem pairwise_idxOf_distinct (xs : List α) :
    (distinct xs).Pairwise fun a b => xs.idxOf a < xs.idxOf b := by
  induction xs using List.reverseRecOn with
  | nil => exact .nil
  | append_singleton xs x ih =>
    -- the place of a member does not change when something comes after it
    have hkept : (distinct xs).Pairwise fun a b => (xs ++ [x]).idxOf a < (xs ++ [x]).idxOf b := by
      refine ih.imp_of_mem ?_
      intro a b ha hb hab
      rw [List.idxOf_append_of_mem (mem_distinct.mp ha),
        List.idxOf_append_of_mem (mem_distinct.mp hb)]
      exact hab
    rw [distinct_concat, addNew]
    split
    · exact hkept
    · next hnew =>
      refine List.pairwise_append.mpr ⟨hkept, List.pairwise_singleton _ x, ?_⟩
      intro a ha b hb
      obtain rfl := List.mem_singleton.mp hb
      have hb : b ∉ xs := by simpa using hnew
      have ha := List.idxOf_lt_length_iff.mpr (mem_distinct.mp ha)
      rw [List.idxOf_append_of_mem (List.idxOf_lt_length_iff.mp ha),
        List.idxOf_append_of_notMem hb]
      omega

/-- **Of every member the first occurrence is kept.** -/
theorem distinct_eq_eraseDups (xs : List α) : distinct xs = xs.eraseDups := by
  induction xs using List.reverseRecOn with
  | nil => rfl
  | append_singleton xs x ih =>
    rw [distinct_concat, ih, List.eraseDups_append, addNew]
    by_cases hx : x ∈ xs <;> simp [hx, List.removeAll, List.eraseDups_cons]

/-- What is added are the members that are not there yet. -/
theorem addAllNew_eq_append (seen more : List α) :
    addAllNew seen more = seen ++ (distinct more).filter (!seen.contains ·) := by
  induction more using List.reverseRecOn with
  | nil => simp [addAllNew, distinct]
  | append_singleton more x ih =>
    have hstep : addAllNew seen (more ++ [x]) = addNew (addAllNew seen more) x :=
      addAllNew_append seen more [x]
    rw [hstep, ih, distinct_concat, addNew, addNew]
    by_cases hs : x ∈ seen <;> by_cases hm : x ∈ more <;> simp [hs, hm]

theorem distinct_append (xs ys : List α) :
    distinct (xs ++ ys) = distinct xs ++ (distinct ys).filter (!(distinct xs).contains ·) := by
  rw [distinct, addAllNew_append]
  exact addAllNew_eq_append (distinct xs) ys

/-- Where keys differ, a member is found by its key. -/
theorem find?_of_mem {β : Type} {key : β → α} {l : List β} (hn : (l.map key).Nodup) {b : β}
    (hb : b ∈ l) : l.find? (fun c => key c == key b) = some b := by
  cases hf : l.find? fun c => key c == key b with
  | none => exact absurd (List.find?_eq_none.mp hf b hb) (by simp)
  | some c =>
    have hk : key c = key b := by simpa using List.find?_some hf
    rw [List.inj_on_of_nodup_map hn (List.mem_of_find?_eq_some hf) hb hk]

/-- Where keys differ, a member is the only one with its key. -/
theorem filter_of_mem {β : Type} {key : β → α} {l : List β} (hn : (l.map key).Nodup) {b : β}
    (hb : b ∈ l) : l.filter (fun c => key c == key b) = [b] := by
  induction l with
  | nil => exact nomatch hb
  | cons c l ih =>
    obtain ⟨hc, hl⟩ := List.nodup_cons.mp hn
    rcases List.mem_cons.mp hb with rfl | hb
    · have hrest : l.filter (fun c => key c == key b) = [] := by
        refine List.filter_eq_nil_iff.mpr fun d hd hk => hc ?_
        exact List.mem_map.mpr ⟨d, hd, by simpa using hk⟩
      rw [List.filter_cons_of_pos (by simp), hrest]
    · have hne : key c ≠ key b := fun he => hc (he ▸ List.mem_map_of_mem hb)
      rw [List.filter_cons_of_neg (by simpa using hne), ih hl hb]

/-- Where keys differ, the same member is found in any order. -/
theorem find?_eq_of_perm {β : Type} {key : β → α} {l m : List β} (hn : (l.map key).Nodup)
    (h : l.Perm m) (a : α) : l.find? (fun b => key b == a) = m.find? fun b => key b == a := by
  have hm : (m.map key).Nodup := (h.map key).nodup_iff.mp hn
  cases hf : l.find? fun b => key b == a with
  | none =>
    refine (List.find?_eq_none.mpr ?_).symm
    intro b hb
    exact List.find?_eq_none.mp hf b (h.mem_iff.mpr hb)
  | some b =>
    obtain rfl : key b = a := by simpa using List.find?_some hf
    exact (find?_of_mem hm (h.mem_iff.mp (List.mem_of_find?_eq_some hf))).symm

end BuildStream
