/-
# What handles stand for

Handles are resolved one after the other, and each adds to one of two lists: a native launchable to
the launchables, repeated or not, and a task or a selector to the paths, where a path that is there
already is not added again.  A handle that is not recognized ends it, and nothing is left of what
was gathered before.

So there are two cases, and they are told apart before anything is resolved.

* All handles are recognized.  Then the paths are those that the handles name, the first occurrence
  of each, and the launchables are the native handles (`Targets.addAll_of_recognized`).
* There is a first handle that is not recognized.  Then its kind is all that is told
  (`Targets.addAll_of_unrecognized`).

A builder takes over both lists or neither (`Targets.resolve_allOrNothing`).
-/
import BuildStream.Proofs.Distinct
import BuildStream.Session

namespace BuildStream

/-! ## 1. One handle -/

namespace Launchable

/-- The paths of the tasks that a handle names. -/
def paths : Launchable → List TaskPath
  | native _ => []
  | selector s => s.taskPaths
  | task t => [t.path]
  | unrecognized _ => []

/-- The native launchable that a handle is. -/
def native? : Launchable → Option NativeLaunchable
  | native l => some l
  | _ => none

/-- A handle is of a kind that can be resolved. -/
def Recognized (l : Launchable) : Prop := ∀ kind, l ≠ .unrecognized kind

theorem recognized_or (l : Launchable) : l.Recognized ∨ ∃ kind, l = .unrecognized kind := by
  cases l with
  | unrecognized kind => exact .inr ⟨kind, rfl⟩
  | _ => exact .inl fun _ h => nomatch h

/-- Either all handles are recognized, or there is a first that is not. -/
theorem all_recognized_or_first (ls : List Launchable) :
    (∀ l ∈ ls, l.Recognized) ∨ ∃ before kind after,
      ls = before ++ .unrecognized kind :: after ∧ ∀ l ∈ before, l.Recognized := by
  induction ls with
  | nil => exact .inl fun _ h => nomatch h
  | cons l ls ih =>
    rcases l.recognized_or with hl | ⟨kind, rfl⟩
    · rcases ih with hall | ⟨before, kind, after, rfl, hb⟩
      · exact .inl (List.forall_mem_cons.mpr ⟨hl, hall⟩)
      · exact .inr ⟨l :: before, kind, after, rfl, List.forall_mem_cons.mpr ⟨hl, hb⟩⟩
    · exact .inr ⟨[], kind, ls, rfl, fun _ h => nomatch h⟩

end Launchable

/-! ## 2. Handles one after the other -/

namespace Targets

variable {t : Targets}

/-- A handle that is recognized adds to both lists what it brings. -/
theorem add_of_recognized {l : Launchable} (h : l.Recognized) :
    t.add l = .ok ⟨addAllNew t.taskPaths l.paths, t.natives ++ l.native?.toList⟩ := by
  cases l with
  | native l => rfl
  | selector s => simp [add, Launchable.paths, Launchable.native?]
  | task handle => simp [add, Launchable.paths, Launchable.native?, addAllNew]
  | unrecognized kind => exact absurd rfl (h kind)

/-- **Recognized handles** add their paths, as far as they are new, and the native launchables. -/
theorem addAll_of_recognized {ls : List Launchable} (h : ∀ l ∈ ls, l.Recognized) :
    t.addAll ls =
      .ok ⟨addAllNew t.taskPaths (ls.flatMap (·.paths)), t.natives ++ ls.filterMap (·.native?)⟩ := by
  induction ls generalizing t with
  | nil => simp [addAll, addAllNew]
  | cons l ls ih =>
    obtain ⟨hl, hls⟩ := List.forall_mem_cons.mp h
    rw [addAll, add_of_recognized hl]
    refine (ih hls).trans ?_
    rw [List.flatMap_cons, addAllNew_append, List.append_assoc, List.filterMap_cons]
    cases l.native? <;> rfl

theorem addAll_append (ls more : List Launchable) :
    t.addAll (ls ++ more) = (t.addAll ls).bind (·.addAll more) := by
  induction ls generalizing t with
  | nil => rfl
  | cons l ls ih =>
    rw [List.cons_append, addAll, addAll]
    cases t.add l with
    | ok t => exact ih
    | error kind => rfl

/-- **A handle that is not recognized** ends it, whatever was gathered and whatever comes after. -/
theorem addAll_of_unrecognized {before : List Launchable} (h : ∀ l ∈ before, l.Recognized)
    (kind : String) (after : List Launchable) :
    t.addAll (before ++ .unrecognized kind :: after) = .error kind := by
  rw [addAll_append, addAll_of_recognized h]
  rfl

theorem resolve_of_recognized {ls : List Launchable} (h : ∀ l ∈ ls, l.Recognized) :
    resolve ls = .ok ⟨distinct (ls.flatMap (·.paths)), ls.filterMap (·.native?)⟩ := by
  rw [resolve, addAll_of_recognized h]
  rfl

theorem resolve_eq_error_iff {ls : List Launchable} {kind : String} :
    resolve ls = .error kind ↔ ∃ before after,
      ls = before ++ .unrecognized kind :: after ∧ ∀ l ∈ before, l.Recognized := by
  constructor
  · intro h
    rcases Launchable.all_recognized_or_first ls with hall | ⟨before, first, after, rfl, hb⟩
    · exact nomatch (resolve_of_recognized hall).symm.trans h
    · obtain rfl : first = kind :=
        Except.error.inj ((addAll_of_unrecognized hb first after).symm.trans h)
      exact ⟨before, after, rfl, hb⟩
  · rintro ⟨before, after, rfl, hb⟩
    exact addAll_of_unrecognized hb kind after

theorem resolve_eq_ok_iff {ls : List Launchable} :
    resolve ls = .ok t ↔ (∀ l ∈ ls, l.Recognized) ∧
      t.taskPaths = distinct (ls.flatMap (·.paths)) ∧ t.natives = ls.filterMap (·.native?) := by
  constructor
  · intro h
    rcases Launchable.all_recognized_or_first ls with hall | ⟨before, kind, after, rfl, hb⟩
    · obtain rfl := Except.ok.inj ((resolve_of_recognized hall).symm.trans h)
      exact ⟨hall, rfl, rfl⟩
    · exact nomatch (addAll_of_unrecognized hb kind after).symm.trans h
  · rintro ⟨hall, hp, hn⟩
    rw [resolve_of_recognized hall, ← hp, ← hn]

/-- Resolving fails if some handle is not recognized, wherever it stands. -/
theorem exists_resolve_eq_error_iff {ls : List Launchable} :
    (∃ kind, resolve ls = .error kind) ↔ ∃ kind, .unrecognized kind ∈ ls := by
  constructor
  · rintro ⟨kind, h⟩
    obtain ⟨before, after, rfl, -⟩ := resolve_eq_error_iff.mp h
    exact ⟨kind, by simp⟩
  · rintro ⟨kind, hm⟩
    rcases Launchable.all_recognized_or_first ls with hall | ⟨before, first, after, rfl, hb⟩
    · exact absurd rfl (hall _ hm kind)
    · exact ⟨first, addAll_of_unrecognized hb first after⟩

/-- **Lists of handles one after the other** stand for the paths of the first, followed by those of
the second that are new, and for all native launchables. -/
theorem resolve_append {xs ys : List Launchable} {t u : Targets} (hx : resolve xs = .ok t)
    (hy : resolve ys = .ok u) :
    resolve (xs ++ ys) =
      .ok ⟨t.taskPaths ++ u.taskPaths.filter (!t.taskPaths.contains ·), t.natives ++ u.natives⟩ := by
  obtain ⟨hxs, htp, htn⟩ := resolve_eq_ok_iff.mp hx
  obtain ⟨hys, hup, hun⟩ := resolve_eq_ok_iff.mp hy
  refine resolve_eq_ok_iff.mpr ⟨List.forall_mem_append.mpr ⟨hxs, hys⟩, ?_, ?_⟩
  · rw [List.flatMap_append, distinct_append, ← htp, ← hup]
  · rw [List.filterMap_append, ← htn, ← hun]

end Targets

/-! ## 3. The builder -/

namespace Request

variable {r : Request} {ls : List Launchable}

theorem setLaunchables_of_resolve {t : Targets} (h : Targets.resolve ls = .ok t) :
    r.setLaunchables ls = .ok { r with tasks := nonEmpty t.taskPaths, launchables := t.natives } := by
  rw [setLaunchables, h]

theorem setLaunchables_of_error {kind : String} (h : Targets.resolve ls = .error kind) :
    r.setLaunchables ls = .error (.unsupportedLaunchable kind) := by
  rw [setLaunchables, h]

/-- A list of handles is kept as what it stands for. -/
theorem setLaunchables_eq_ok {r' : Request} :
    r.setLaunchables ls = .ok r' ↔ ∃ t, Targets.resolve ls = .ok t ∧
      r' = { r with tasks := nonEmpty t.taskPaths, launchables := t.natives } := by
  cases h : Targets.resolve ls with
  | ok t => simp [setLaunchables_of_resolve h, eq_comm]
  | error kind => simp [setLaunchables_of_error h]

end Request

namespace Targets

/-- **Handles are resolved all or not at all.**

Resolving fails exactly if some handle is not recognized, and names the kind of the first.
Otherwise the paths are those of the selectors and tasks in the order of the list, the first
occurrence of each, and the launchables are the native handles in order, with repetitions.  Where
two lists resolve, so do both one after the other, to the paths of the first followed by the new
ones of the second.  A builder whose launchables are set takes over both lists, and a list of no
paths as none; or it refuses and is as it was. -/
theorem resolve_allOrNothing (xs : List Launchable) :
    ((∃ kind, resolve xs = .error kind) ↔ ∃ kind, .unrecognized kind ∈ xs) ∧
      (∀ kind, resolve xs = .error kind ↔ ∃ before after,
        xs = before ++ .unrecognized kind :: after ∧ ∀ l ∈ before, l.Recognized) ∧
      (∀ t, resolve xs = .ok t ↔ (∀ l ∈ xs, l.Recognized) ∧
        t.taskPaths = (xs.flatMap (·.paths)).eraseDups ∧ t.natives = xs.filterMap (·.native?)) ∧
      (∀ ys t u, resolve xs = .ok t → resolve ys = .ok u → resolve (xs ++ ys) =
        .ok ⟨t.taskPaths ++ u.taskPaths.filter (!t.taskPaths.contains ·), t.natives ++ u.natives⟩) ∧
      ∀ (fs : Files) (s : Session),
        (∀ t, resolve xs = .ok t → s.step fs (.set (.launchables xs)) =
          ({ s with builder := { s.builder with
              tasks := if t.taskPaths = [] then none else some t.taskPaths
              launchables := t.natives } }, .done)) ∧
        ∀ kind, resolve xs = .error kind →
          s.step fs (.set (.launchables xs)) = (s, .refused (.unsupportedLaunchable kind)) := by
  refine ⟨exists_resolve_eq_error_iff, fun _ => resolve_eq_error_iff, fun t => ?_,
    fun ys t u => resolve_append, fun fs s => ⟨fun t h => ?_, fun kind h => ?_⟩⟩
  · rw [resolve_eq_ok_iff, distinct_eq_eraseDups]
  · rw [Session.step, Request.set, Request.setLaunchables_of_resolve h]
    simp only [nonEmpty, List.isEmpty_iff]
  · rw [Session.step, Request.set, Request.setLaunchables_of_error h]

namespace Mixed

/-- A launchable of an engine. -/
def assemble : NativeLaunchable := ⟨"assemble", none, .null⟩

/-- A selector made of a path twice, a native launchable, and a task of the selector again. -/
def handles : List Launchable :=
  [.selector (.ofPaths "compile" [":a", ":b", ":a"]), .native assemble, .task ⟨":b", none⟩]

/-- A new task, a task that is known, and the native launchable again. -/
def more : List Launchable := [.task ⟨":c", none⟩, .task ⟨":a", none⟩, .native assemble]

end Mixed

/-- The handles resolve, by themselves and together, and a builder takes them over. -/
theorem resolve_mixed :
    resolve Mixed.handles = .ok ⟨[":a", ":b"], [Mixed.assemble]⟩ ∧
      resolve Mixed.more = .ok ⟨[":c", ":a"], [Mixed.assemble]⟩ ∧
      resolve (Mixed.handles ++ Mixed.more) =
        .ok ⟨[":a", ":b", ":c"], [Mixed.assemble, Mixed.assemble]⟩ ∧
      ({} : Session).step .empty (.set (.launchables Mixed.handles)) =
        ({ builder := { tasks := some [":a", ":b"], launchables := [Mixed.assemble] } }, .done) ∧
      resolve (Mixed.handles ++ [.unrecognized "ProjectModel"]) = .error "ProjectModel" := by
  have hx : resolve Mixed.handles = .ok ⟨[":a", ":b"], [Mixed.assemble]⟩ := rfl
  have hy : resolve Mixed.more = .ok ⟨[":c", ":a"], [Mixed.assemble]⟩ := rfl
  obtain ⟨-, -, hok, happend, hbuilder⟩ := resolve_allOrNothing Mixed.handles
  have hboth := happend Mixed.more _ _ hx hy
  have hset := (hbuilder .empty {}).1 _ hx
  have hall := ((hok _).mp hx).1
  have hfails := (resolve_allOrNothing (Mixed.handles ++ [.unrecognized "ProjectModel"])).2.1
  exact ⟨hx, hy, hboth, hset, (hfails "ProjectModel").mpr ⟨Mixed.handles, [], rfl, hall⟩⟩

end Targets

end BuildStream
