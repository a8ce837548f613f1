/-
# What is running

Workers start and finish tasks and tests in any order, so the status lines of a build do not come
and go like a stack.  Still the line on top can be told from the changes so far: it is that of the
run that was started last among those that were not finished (`Hook.line`).

This needs of the changes that they come in brackets, a start and then a finish for every run, and
that no two runs have one id (`Bracketed`).  Then a finish takes out the line of its own run and
leaves all others where they are (`Bracketed.linesAfter_map`), in the end no line is left
(`Bracketed.running_eq_nil`), and there are two changes for every start (`Bracketed.length_eq`).
-/
import BuildStream.Proofs.Engine.Subjects
import BuildStream.Proofs.Stream.Status

namespace BuildStream

/-! ## 1. What is running -/

namespace Hook

/-- The change of the status lines that a hook stands for. -/
def change (hook : Hook) : StatusChange :=
  if hook.isBefore then
    .started hook.subject.descriptor.id hook.subject.descriptor.displayName
  else .finished hook.subject.descriptor.id

/-- Whether a hook is the start of an operation of a kind. -/
def starts (kind : OperationKind) (hook : Hook) : Bool :=
  hook.isBefore && decide (hook.subject.descriptor.kind = kind)

/-- The hooks of one run. -/
def about (s : Subject) (hooks : List Hook) : List Hook :=
  hooks.filter fun hook => decide (hook.subject = s)

/-- The runs that were started, in order. -/
def opened (hooks : List Hook) : List Subject := (hooks.filter isBefore).map subject

/-- The runs that were finished, in order. -/
def closed (hooks : List Hook) : List Subject := (hooks.filter fun hook => !hook.isBefore).map subject

/-- The runs that were started and not finished, in the order of their starts. -/
def running (hooks : List Hook) : List Subject :=
  (opened hooks).filter fun s => decide (s ∉ closed hooks)

/-- The name of the run that was started last of those that are running; it is empty if nothing
is. -/
def line (hooks : List Hook) : String :=
  ((running hooks).getLast?.map (·.descriptor.displayName)).getD ""

variable {hooks sofar rest : List Hook} {hook : Hook} {s : Subject}

theorem mem_opened : s ∈ opened hooks ↔ ∃ hook ∈ hooks, hook.isBefore = true ∧ hook.subject = s := by
  simp [opened, and_assoc]

theorem mem_closed :
    s ∈ closed hooks ↔ ∃ hook ∈ hooks, hook.isBefore = false ∧ hook.subject = s := by
  simp [closed, and_assoc]

theorem about_append (s : Subject) (sofar rest : List Hook) :
    about s (sofar ++ rest) = about s sofar ++ about s rest :=
  List.filter_append ..

theorem mem_about : hook ∈ about s hooks ↔ hook ∈ hooks ∧ hook.subject = s := by simp [about]

theorem count_opened (s : Subject) (hooks : List Hook) :
    (opened hooks).count s = (about s hooks).countP isBefore := by
  rw [List.count, opened, List.countP_map, List.countP_filter, about, List.countP_filter]
  exact List.countP_congr fun hook _ => by simp [and_comm]

/-- A start comes on top of what is running... -/
theorem running_of_before (hb : hook.isBefore = true) (hn : about hook.subject sofar = []) :
    running (sofar ++ [hook]) = running sofar ++ [hook.subject] := by
  have hopened : opened (sofar ++ [hook]) = opened sofar ++ [hook.subject] := by simp [opened, hb]
  have hclosed : closed (sofar ++ [hook]) = closed sofar := by simp [closed, hb]
  have hout : hook.subject ∉ closed sofar := by
    intro hm
    obtain ⟨other, ho, -, hsub⟩ := mem_closed.mp hm
    have hmem : other ∈ about hook.subject sofar := mem_about.mpr ⟨ho, hsub⟩
    rw [hn] at hmem
    exact nomatch hmem
  rw [running, hopened, hclosed, List.filter_append]
  simp [running, hout]

/-- ...and a finish is taken out wherever it is. -/
theorem running_of_after (hb : hook.isBefore = false) :
    running (sofar ++ [hook]) = (running sofar).filter fun s => decide (s ≠ hook.subject) := by
  have hopened : opened (sofar ++ [hook]) = opened sofar := by simp [opened, hb]
  have hclosed : closed (sofar ++ [hook]) = closed sofar ++ [hook.subject] := by simp [closed, hb]
  rw [running, hopened, hclosed, running, List.filter_filter]
  refine List.filter_congr fun s _ => ?_
  simp [Bool.and_comm]

/-- Every start is that of a build, of a task or of a test. -/
theorem countP_isBefore (hooks : List Hook) : hooks.countP isBefore =
    hooks.countP (starts .build) + hooks.countP (starts .task) + hooks.countP (starts .test) := by
  induction hooks with
  | nil => rfl
  | cons hook hooks ih =>
    have hone : (if hook.isBefore = true then 1 else 0) =
        (if hook.starts .build = true then 1 else 0) + (if hook.starts .task = true then 1 else 0) +
          if hook.starts .test = true then 1 else 0 := by cases hook <;> rfl
    simp only [List.countP_cons]
    omega

end Hook

/-! ## 2. Hooks in brackets -/

/-- Of every run there are the hook before it and then one after it, and no two runs have one id. -/
structure Bracketed (hooks : List Hook) : Prop where
  pair : ∀ hook ∈ hooks, ∃ last : Hook, last.isBefore = false ∧
    Hook.about hook.subject hooks = [hook.subject.before, last]
  ids : ∀ hook ∈ hooks, ∀ other ∈ hooks,
    hook.subject.descriptor.id = other.subject.descriptor.id → hook.subject = other.subject

/-- The status line of a run. -/
def Subject.entry (s : Subject) : OperationId × String :=
  (s.descriptor.id, s.descriptor.displayName)

/-- Where the runs have ids of their own, the line of a run is taken out and no other. -/
theorem Stream.popStatus_map {s : Subject} {runs : List Subject} (hn : runs.Nodup)
    (hid : ∀ t ∈ runs, t.descriptor.id = s.descriptor.id → t = s) :
    popStatus s.descriptor.id (runs.map Subject.entry) =
      (runs.filter fun t => decide (t ≠ s)).map Subject.entry := by
  induction runs with
  | nil => rfl
  | cons t runs ih =>
    obtain ⟨ht, hn⟩ := List.nodup_cons.mp hn
    rw [List.map_cons, Subject.entry, popStatus]
    by_cases hts : t = s
    · subst hts
      have hrest : (runs.filter fun u => decide (u ≠ t)) = runs :=
        List.filter_eq_self.mpr fun u hu => decide_eq_true fun he => ht (he ▸ hu)
      rw [if_pos rfl, List.filter_cons_of_neg (by simp), hrest]
    · rw [if_neg fun h => hts (hid t List.mem_cons_self h),
        ih hn fun u hu => hid u (List.mem_cons_of_mem _ hu),
        List.filter_cons_of_pos (by simpa using hts)]
      rfl

namespace Bracketed

variable {hooks sofar rest : List Hook} {hook : Hook}

/-- What came before a hook of its run: nothing before the first, and the first before the last. -/
theorem about_of_split (h : Bracketed hooks) (hcut : hooks = sofar ++ hook :: rest) :
    Hook.about hook.subject sofar = if hook.isBefore then [] else [hook.subject.before] := by
  obtain ⟨last, hl, hpair⟩ := h.pair hook (by simp [hcut])
  have hself : Hook.about hook.subject (hook :: rest) = hook :: Hook.about hook.subject rest :=
    List.filter_cons_of_pos (by simp)
  rw [hcut, Hook.about_append, hself] at hpair
  match hsofar : Hook.about hook.subject sofar, hpair with
  | [], hpair =>
    have hb : hook.isBefore = true := by
      rw [(List.cons.inj hpair).1]
      exact hook.subject.isBefore_before
    rw [if_pos hb]
  | [first], hpair =>
    obtain ⟨rfl, hrest⟩ := List.cons.inj hpair
    have hb : hook.isBefore = false := by
      rw [(List.cons.inj hrest).1]
      exact hl
    rw [hb]
    rfl
  | _ :: _ :: _, hpair => simp at hpair

/-- **The status lines after some of the changes** are those of what is running then, the latest
first. -/
theorem linesAfter_map (h : Bracketed hooks) (hcut : hooks = sofar ++ rest) :
    Stream.linesAfter (sofar.map Hook.change) = (Hook.running sofar).reverse.map Subject.entry ∧
      (Hook.running sofar).Nodup := by
  induction sofar using List.reverseRecOn generalizing rest with
  | nil => exact ⟨rfl, List.nodup_nil⟩
  | append_singleton sofar hook ih =>
    have hsplit : hooks = sofar ++ hook :: rest := by simpa using hcut
    obtain ⟨hlines, hn⟩ := ih hsplit
    have hsofar := h.about_of_split hsplit
    rw [List.map_append, List.map_singleton, Stream.linesAfter_concat, hlines]
    cases hb : hook.isBefore with
    | true =>
      rw [hb, if_pos rfl] at hsofar
      rw [Hook.running_of_before hb hsofar, Hook.change, if_pos hb, List.reverse_append,
        List.nodup_append]
      refine ⟨rfl, hn, List.nodup_singleton _, ?_⟩
      rintro s hs t ht rfl
      rw [List.mem_singleton.mp ht] at hs
      obtain ⟨other, ho, -, hsub⟩ := Hook.mem_opened.mp (List.mem_of_mem_filter hs)
      have hmem : other ∈ Hook.about hook.subject sofar := Hook.mem_about.mpr ⟨ho, hsub⟩
      rw [hsofar] at hmem
      exact nomatch hmem
    | false =>
      rw [Hook.running_of_after hb, Hook.change, if_neg (by simp [hb]), ← List.filter_reverse]
      refine ⟨Stream.popStatus_map (List.nodup_reverse.mpr hn) ?_, hn.filter _⟩
      intro t ht hid
      obtain ⟨other, ho, -, rfl⟩ :=
        Hook.mem_opened.mp (List.mem_of_mem_filter (List.mem_reverse.mp ht))
      exact h.ids other (by simp [hsplit, ho]) hook (by simp [hsplit]) hid

/-- **The line on top** after every change. -/
theorem linesOf_map (h : Bracketed hooks) :
    Stream.linesOf (hooks.map Hook.change) = hooks.inits.tail.map Hook.line := by
  rw [Stream.linesOf, List.map_inits, List.map_tail, List.map_tail, List.map_map]
  congr 1
  refine List.map_congr_left fun sofar hs => ?_
  obtain ⟨rest, hcut⟩ := (List.mem_inits _ _).mp hs
  rw [Function.comp_apply, (h.linesAfter_map hcut.symm).1, Stream.topLine, Hook.line,
    List.head?_map, List.head?_reverse, Option.map_map]
  rfl

/-- In the end nothing is running. -/
theorem running_eq_nil (h : Bracketed hooks) : Hook.running hooks = [] := by
  refine List.filter_eq_nil_iff.mpr fun s hs => ?_
  obtain ⟨hook, hm, -, rfl⟩ := Hook.mem_opened.mp hs
  obtain ⟨last, hl, hpair⟩ := h.pair hook hm
  have hlast : last ∈ Hook.about hook.subject hooks := by simp [hpair]
  obtain ⟨hmem, hsub⟩ := Hook.mem_about.mp hlast
  simpa using Hook.mem_closed.mpr ⟨last, hmem, hl, hsub⟩

/-- So the last line is empty. -/
theorem getLast?_line (h : Bracketed hooks) (hne : hooks ≠ []) :
    (hooks.inits.tail.map Hook.line).getLast? = some "" := by
  have hend : Hook.line hooks = "" := by
    rw [Hook.line, h.running_eq_nil]
    rfl
  obtain ⟨others, last, hlast⟩ := List.eq_nil_or_concat hooks |>.resolve_left hne
  rw [hlast, List.concat_eq_append] at hend ⊢
  rw [Stream.tail_inits_concat, List.map_append, List.map_singleton, List.getLast?_concat, hend]

/-- There are two hooks for every run that was started. -/
theorem length_eq (h : Bracketed hooks) : hooks.length = 2 * hooks.countP Hook.isBefore := by
  have hperm : (hooks.map Hook.subject).Perm (Hook.opened hooks ++ Hook.opened hooks) := by
    refine List.perm_iff_count.mpr fun s => ?_
    have hall : (hooks.map Hook.subject).count s = (Hook.about s hooks).length := by
      rw [List.count, List.countP_map, Hook.about, ← List.countP_eq_length_filter]
      exact List.countP_congr fun hook _ => by simp
    rw [List.count_append, hall, Hook.count_opened]
    by_cases hs : ∃ hook ∈ hooks, hook.subject = s
    · obtain ⟨hook, hm, rfl⟩ := hs
      obtain ⟨last, hl, hpair⟩ := h.pair hook hm
      simp [hpair, hl]
    · have hnone : Hook.about s hooks = [] :=
        List.filter_eq_nil_iff.mpr fun hook hm => by simpa using fun he => hs ⟨hook, hm, he⟩
      rw [hnone]
      rfl
  have hlen := hperm.length_eq
  rw [List.length_map, List.length_append, Hook.opened, List.length_map,
    ← List.countP_eq_length_filter] at hlen
  omega

end Bracketed

end BuildStream
