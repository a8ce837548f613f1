/-
# Which status lines are left

What runs in parallel finishes in any order, and the same id may have been started more than once.
So a finish takes its line from among the others.  Which one it takes can be told from the changes
alone: the latest start of its id that no finish before it took (`IsMatching`).  A finish that
finds none takes nothing.

Such a matching always exists (`exists_isMatching`), and the lines of a stream are those of the
starts that are left by it, in their order (`linesAfter_eq`).  The step that carries the induction
is `free_concat_iff`: what a last finish can take are the lines that are left of its id.
-/
import BuildStream.Proofs.Stream.Status
import Mathlib.Order.Lattice.Nat

namespace BuildStream

/-! ## 1. Matchings -/

/-- The line that a change starts. -/
def StatusChange.line? : StatusChange → Option (OperationId × String)
  | started id description => some (id, description)
  | finished _ => none

/-- The change of the status lines that a call tells of. -/
def Turn.change? : Turn → Option StatusChange
  | event e _ => e.change?
  | close => none

/-- The changes of the status lines that were accepted. -/
def Record.changes (log : Record) : List StatusChange := log.filterMap Turn.change?

namespace Stream

/-- A finish may take a start that is before it and has its id, if no finish before it took that
start. -/
structure Free (changes : List StatusChange) (start? : Nat → Option Nat)
    (finish start : Nat) : Prop where
  before : start < finish
  sameId : ∃ id description, changes[finish]? = some (.finished id) ∧
    changes[start]? = some (.started id description)
  untaken : ∀ earlier < finish, start? earlier ≠ some start

/-- Every finish takes the latest start that it may take, and nothing if there is none. -/
def IsMatching (changes : List StatusChange) (start? : Nat → Option Nat) : Prop :=
  ∀ finish < changes.length, ∀ start,
    start? finish = some start ↔ IsGreatest {i | Free changes start? finish i} start

/-- The line of the start at a place, if no finish takes it. -/
def left? (changes : List StatusChange) (start? : Nat → Option Nat) (place : Nat) :
    Option (OperationId × String) :=
  if ∃ finish < changes.length, start? finish = some place then none
  else changes[place]?.bind StatusChange.line?

/-- The lines of the starts that no finish takes, in their order. -/
def unmatched (changes : List StatusChange) (start? : Nat → Option Nat) :
    List (OperationId × String) :=
  (List.range changes.length).filterMap (left? changes start?)

variable {s t : Stream} {changes rest : List StatusChange}
  {change : StatusChange} {start? other? : Nat → Option Nat} {finish start place : Nat}
  {id : OperationId}

/-- What a finish may take depends on nothing that comes after it. -/
theorem free_append_iff (hfinish : finish < changes.length) :
    Free (changes ++ rest) start? finish start ↔ Free changes start? finish start := by
  have hget {place : Nat} (hplace : place ≤ finish) : (changes ++ rest)[place]? = changes[place]? :=
    List.getElem?_append_left (hplace.trans_lt hfinish)
  constructor
  · rintro ⟨hb, hid, hu⟩
    exact ⟨hb, by rwa [hget le_rfl, hget hb.le] at hid, hu⟩
  · rintro ⟨hb, hid, hu⟩
    exact ⟨hb, by rwa [hget le_rfl, hget hb.le], hu⟩

/-- What a finish may take depends on what the finishes before it take, and on no other. -/
theorem free_congr (hsame : ∀ earlier < finish, start? earlier = other? earlier) :
    Free changes start? finish start ↔ Free changes other? finish start :=
  ⟨fun ⟨hb, hid, hu⟩ => ⟨hb, hid, fun e he => hsame e he ▸ hu e he⟩,
    fun ⟨hb, hid, hu⟩ => ⟨hb, hid, fun e he => (hsame e he).symm ▸ hu e he⟩⟩

/-- A matching of some changes is one of their beginning. -/
theorem IsMatching.of_append (h : IsMatching (changes ++ rest) start?) :
    IsMatching changes start? := by
  intro finish hfinish start
  rw [h finish (by rw [List.length_append]; omega) start]
  simp only [free_append_iff hfinish]

/-- Among what a finish may take there is a latest. -/
theorem Free.exists_isGreatest (h : Free changes start? finish start) :
    ∃ latest, IsGreatest {i | Free changes start? finish i} latest := by
  have hbdd : BddAbove {i | Free changes start? finish i} := ⟨finish, fun i hi => hi.before.le⟩
  exact ⟨_, Nat.sSup_mem ⟨start, h⟩ hbdd, fun i hi => le_csSup hbdd hi⟩

/-- What a finish takes can always be said. -/
theorem exists_taken (changes : List StatusChange) (start? : Nat → Option Nat) (finish : Nat) :
    ∃ taken : Option Nat, ∀ start,
      taken = some start ↔ IsGreatest {i | Free changes start? finish i} start := by
  by_cases hlatest : ∃ latest, IsGreatest {i | Free changes start? finish i} latest
  · obtain ⟨latest, hlatest⟩ := hlatest
    refine ⟨some latest, fun start => ?_⟩
    rw [Option.some.injEq]
    exact ⟨fun he => he ▸ hlatest, hlatest.unique⟩
  · exact ⟨none, fun start => ⟨nofun, fun hs => absurd ⟨start, hs⟩ hlatest⟩⟩

/-- **There is a matching** of any changes. -/
theorem exists_isMatching (changes : List StatusChange) : ∃ start?, IsMatching changes start? := by
  induction changes using List.reverseRecOn with
  | nil => exact ⟨fun _ => none, fun _ h => nomatch h⟩
  | append_singleton changes change ih =>
    obtain ⟨start?, h⟩ := ih
    obtain ⟨taken, htaken⟩ := exists_taken (changes ++ [change]) start? changes.length
    have hold : ∀ place < changes.length,
        Function.update start? changes.length taken place = start? place :=
      fun place hp => Function.update_of_ne hp.ne _ _
    refine ⟨Function.update start? changes.length taken, fun finish hfinish start => ?_⟩
    rw [List.length_append, List.length_singleton] at hfinish
    rcases Nat.lt_succ_iff_lt_or_eq.mp hfinish with hlt | rfl
    · rw [hold finish hlt, h finish hlt start]
      simp only [free_append_iff hlt, free_congr fun e he => hold e (he.trans hlt)]
    · rw [Function.update_self, htaken start]
      simp only [free_congr hold]

/-! ## 2. What is left -/

theorem getElem?_bind_line? {description : String} :
    changes[place]?.bind StatusChange.line? = some (id, description) ↔
      changes[place]? = some (.started id description) := by
  cases changes[place]? with
  | none => simp
  | some change => cases change <;> simp [StatusChange.line?]

theorem left?_eq_some_iff {description : String} :
    left? changes start? place = some (id, description) ↔
      (∀ finish < changes.length, start? finish ≠ some place) ∧
        changes[place]? = some (.started id description) := by
  unfold left?
  split
  · next htaken =>
    obtain ⟨finish, hf, hs⟩ := htaken
    exact ⟨nofun, fun h => absurd hs (h.1 finish hf)⟩
  · next hfree =>
    rw [getElem?_bind_line?, and_iff_right]
    exact fun finish hf hs => hfree ⟨finish, hf, hs⟩

/-- **What a last finish may take** are the lines that are left of its id. -/
theorem free_concat_iff :
    Free (changes ++ [.finished id]) start? changes.length place ↔
      ∃ description, left? changes start? place = some (id, description) := by
  have hlast : (changes ++ [StatusChange.finished id])[changes.length]? = some (.finished id) := by
    simp
  constructor
  · rintro ⟨hb, ⟨i, d, hf, hs⟩, hu⟩
    obtain rfl : id = i := StatusChange.finished.inj (Option.some.inj (hlast.symm.trans hf))
    rw [List.getElem?_append_left hb] at hs
    exact ⟨d, left?_eq_some_iff.mpr ⟨hu, hs⟩⟩
  · rintro ⟨d, hd⟩
    obtain ⟨hu, hs⟩ := left?_eq_some_iff.mp hd
    have hb : place < changes.length := (List.getElem?_eq_some_iff.mp hs).1
    exact ⟨hb, ⟨id, d, hlast, by rwa [List.getElem?_append_left hb]⟩, hu⟩

/-- What is left of the lines before a last change: those that it does not take. -/
theorem left?_concat_of_lt (hplace : place < changes.length) :
    left? (changes ++ [change]) start? place =
      if start? changes.length = some place then none else left? changes start? place := by
  have htaken : (∃ finish < (changes ++ [change]).length, start? finish = some place) ↔
      (∃ finish < changes.length, start? finish = some place) ∨
        start? changes.length = some place := by
    rw [List.length_append, List.length_singleton, Nat.exists_lt_succ_right]
  rw [left?, List.getElem?_append_left hplace, left?]
  by_cases hnow : start? changes.length = some place
  · rw [if_pos hnow, if_pos (htaken.mpr (.inr hnow))]
  · simp only [htaken, hnow, or_false, if_false]

/-- A last change leaves the line that it starts. -/
theorem left?_concat_length (h : IsMatching (changes ++ [change]) start?) :
    left? (changes ++ [change]) start? changes.length = change.line? := by
  have hfree : ¬ ∃ finish < (changes ++ [change]).length,
      start? finish = some changes.length := by
    rintro ⟨finish, hf, hs⟩
    have hb := ((h finish hf _).mp hs).1.before
    rw [List.length_append, List.length_singleton] at hf
    omega
  rw [left?, if_neg hfree, List.getElem?_concat_length]
  rfl

/-- Taking the line of an id takes the first that has it. -/
theorem popStatus_append {before after : List (OperationId × String)} {description : String}
    (hbefore : ∀ line ∈ before, line.1 ≠ id) :
    popStatus id (before ++ (id, description) :: after) = before ++ after := by
  induction before with
  | nil => exact if_pos rfl
  | cons line before ih =>
    rw [List.cons_append, popStatus, if_neg (hbefore line List.mem_cons_self),
      ih fun line hl => hbefore line (List.mem_cons_of_mem _ hl)]
    rfl

theorem popStatus_of_forall_ne {lines : List (OperationId × String)}
    (hlines : ∀ line ∈ lines, line.1 ≠ id) : popStatus id lines = lines := by
  induction lines with
  | nil => rfl
  | cons line lines ih =>
    rw [popStatus, if_neg (hlines line List.mem_cons_self),
      ih fun line hl => hlines line (List.mem_cons_of_mem _ hl)]

/-- Places in falling order are cut by one of them into those that are after it and those that are
before it. -/
theorem exists_cut_of_lt {n : Nat} (hplace : place < n) :
    ∃ later earlier, (List.range n).reverse = later ++ place :: earlier ∧
      (∀ i ∈ later, place < i ∧ i < n) ∧ ∀ i ∈ earlier, i < place := by
  obtain ⟨later, earlier, hcut⟩ := List.append_of_mem
    (List.mem_reverse.mpr (List.mem_range.mpr hplace))
  have hfalling : (later ++ place :: earlier).Pairwise (· > ·) :=
    hcut ▸ List.pairwise_reverse.mpr List.pairwise_lt_range
  obtain ⟨-, hearlier, hlater⟩ := List.pairwise_append.mp hfalling
  refine ⟨later, earlier, hcut, fun i hi => ⟨hlater i hi place List.mem_cons_self, ?_⟩,
    (List.pairwise_cons.mp hearlier).1⟩
  have hi : i ∈ (List.range n).reverse := hcut ▸ List.mem_append_left _ hi
  simpa using hi

/-- **A last finish** removes the line that it takes, and no other. -/
theorem popStatus_left? (h : IsMatching (changes ++ [.finished id]) start?) :
    popStatus id ((List.range changes.length).reverse.filterMap (left? changes start?)) =
      (List.range changes.length).reverse.filterMap
        (left? (changes ++ [.finished id]) start?) := by
  have hlast := h changes.length (by simp)
  have hkeep {places : List Nat}
      (hplaces : ∀ i ∈ places, i < changes.length ∧ start? changes.length ≠ some i) :
      places.filterMap (left? (changes ++ [.finished id]) start?) =
        places.filterMap (left? changes start?) :=
    List.filterMap_congr fun i hi => by
      rw [left?_concat_of_lt (hplaces i hi).1, if_neg (hplaces i hi).2]
  cases htaken : start? changes.length with
  | none =>
    have hnone : ∀ line ∈ (List.range changes.length).reverse.filterMap (left? changes start?),
        line.1 ≠ id := by
      rintro ⟨i, d⟩ hline rfl
      obtain ⟨place, -, hleft⟩ := List.mem_filterMap.mp hline
      obtain ⟨latest, hlatest⟩ := (free_concat_iff.mpr ⟨d, hleft⟩).exists_isGreatest
      exact nomatch htaken.symm.trans ((hlast latest).mpr hlatest)
    rw [popStatus_of_forall_ne hnone, hkeep fun i hi => ⟨by simpa using hi, by simp [htaken]⟩]
  | some start =>
    have hlatest := (hlast start).mp htaken
    obtain ⟨d, hleft⟩ := free_concat_iff.mp hlatest.1
    obtain ⟨later, earlier, hcut, hlater, hearlier⟩ := exists_cut_of_lt hlatest.1.before
    have hnone : ∀ line ∈ later.filterMap (left? changes start?), line.1 ≠ id := by
      rintro ⟨i, d⟩ hline rfl
      obtain ⟨place, hp, hleft⟩ := List.mem_filterMap.mp hline
      have hle : place ≤ start := hlatest.2 (free_concat_iff.mpr ⟨d, hleft⟩)
      exact absurd (hlater place hp).1 hle.not_gt
    have hgone : left? (changes ++ [.finished id]) start? start = none := by
      rw [left?_concat_of_lt hlatest.1.before, if_pos htaken]
    rw [hcut, List.filterMap_append, List.filterMap_cons, hleft, popStatus_append hnone,
      List.filterMap_append, List.filterMap_cons, hgone]
    refine (congrArg₂ _ (hkeep fun i hi => ?_) (hkeep fun i hi => ?_)).symm
    · obtain ⟨hafter, hlt⟩ := hlater i hi
      exact ⟨hlt, fun hs => hafter.ne (Option.some.inj (htaken.symm.trans hs))⟩
    · have hbefore := hearlier i hi
      exact ⟨hbefore.trans hlatest.1.before,
        fun hs => hbefore.ne' (Option.some.inj (htaken.symm.trans hs))⟩

/-- **The lines after some changes** are those that are left by their matching, the latest
first. -/
theorem linesAfter_eq (h : IsMatching changes start?) :
    linesAfter changes = (List.range changes.length).reverse.filterMap (left? changes start?) := by
  induction changes using List.reverseRecOn with
  | nil => rfl
  | append_singleton changes change ih =>
    rw [linesAfter_concat, ih h.of_append, List.length_append, List.length_singleton,
      List.range_succ, List.reverse_concat, List.filterMap_cons, left?_concat_length h]
    cases change with
    | started id description =>
      refine congrArg _ (List.filterMap_congr fun place hplace => ?_)
      have hlt : place < changes.length := by simpa using hplace
      have hnone : start? changes.length ≠ some place := fun hs => by
        obtain ⟨-, ⟨_, _, hf, -⟩, -⟩ := ((h _ (by simp) place).mp hs).1
        simp at hf
      rw [left?_concat_of_lt hlt, if_neg hnone]
    | finished id => exact popStatus_left? h

theorem reverse_linesAfter (h : IsMatching changes start?) :
    (linesAfter changes).reverse = unmatched changes start? := by
  rw [linesAfter_eq h, List.filterMap_reverse, List.reverse_reverse]
  rfl

/-- Nothing is left if every start is taken. -/
theorem unmatched_eq_nil (h : ∀ start id description,
    changes[start]? = some (.started id description) →
      ∃ finish < changes.length, start? finish = some start) :
    unmatched changes start? = [] := by
  refine List.filterMap_eq_nil_iff.mpr fun place _ => ?_
  rw [Option.eq_none_iff_forall_ne_some]
  rintro ⟨id, d⟩ hleft
  obtain ⟨huntaken, hs⟩ := left?_eq_some_iff.mp hleft
  obtain ⟨finish, hf, htaken⟩ := h place id d hs
  exact huntaken finish hf htaken

/-- Two lines can be taken in either order. -/
theorem popStatus_comm (id other : OperationId) (lines : List (OperationId × String)) :
    popStatus id (popStatus other lines) = popStatus other (popStatus id lines) := by
  induction lines with
  | nil => rfl
  | cons line lines ih =>
    obtain ⟨i, d⟩ := line
    by_cases hid : i = id <;> by_cases hother : i = other <;> simp_all [popStatus]

theorem linesAfter_swap (before after : List StatusChange) (id other : OperationId) :
    linesAfter (before ++ .finished id :: .finished other :: after) =
      linesAfter (before ++ .finished other :: .finished id :: after) := by
  simp only [linesAfter, List.foldl_append, List.foldl_cons, StatusChange.apply]
  rw [popStatus_comm]

/-! ## 3. Streams -/

/-- The status lines are what the accepted changes have left, unless the stream is closed. -/
def Lined (log : Record) (s : Stream) : Prop :=
  s.phase ≠ .closed → s.statuses = linesAfter log.changes

theorem Lined.accept {log : Record} {e : Event} {notice : Notice} (h : Lined log s)
    (ha : s.accept e = .ok (t, notice)) : Lined (log ++ [.event e]) t := by
  intro hopen
  have hs : s.phase ≠ .closed := fun hs => by simp [Stream.accept, hs] at ha
  have hb : e.isBuildFinish = false := by
    have hphase := (accepts_of_accept ha).phase
    cases hb : e.isBuildFinish with
    | false => rfl
    | true => exact absurd (by rwa [hb] at hphase) hopen
  rw [statuses_of_accept ha hb, h hs, Record.changes, Record.changes, List.filterMap_append]
  cases e with
  | progress e => exact congrArg linesAfter (List.append_nil _).symm
  | status e => exact (linesAfter_concat _ _).symm

theorem lined_nil : Lined [] {} := fun _ => rfl

theorem kept_lined : Kept Lined where
  close _ := fun h => absurd rfl h
  accept h ha := h.accept ha

/-- An active stream accepts every change of the status lines. -/
theorem accept_status (hs : s.phase = .active) (e : StatusEvent) :
    s.accept (.status e) = .ok ({ s with statuses := e.change.apply s.statuses },
      .status (topLine (e.change.apply s.statuses))) := by
  have ha : s.accept (.status e) = s.process (.status e) := by simp [accept, hs]
  rw [ha]
  exact congrArg Except.ok (changeStatus_eq s e.change)

namespace Twice

/-- The build. -/
def build : OperationId := ⟨.build, 1, 1⟩

/-- A task. -/
def task : OperationId := ⟨.task, 1, 2⟩

/-- A listener for status lines. -/
def registered : Listeners where
  status := [⟨"of lines", fun _ _ => {}⟩]

/-- The start of the build, and some changes after it. -/
def turns (changes : List StatusChange) : List Turn :=
  .event (.progress ⟨.epoch, .ofBuild build, .started⟩) ::
    changes.map fun change => .event (.status ⟨.epoch, change⟩)

/-- The task, the build and the task again are started, and the task is finished once. -/
def sofar : List StatusChange :=
  [.started task "first", .started build "build", .started task "second", .finished task]

end Twice

end Stream

end BuildStream
