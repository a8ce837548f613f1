/-
# Which violation is told

A configuration that is not valid is refused with one violation, whatever else is wrong with it.
Validation looks at one place after another, and places have an order that does not depend on the
configuration (`Config.Place.rank`): the Java home and the concurrency, then the path of each task,
then each dependency of each task, then each default task.  At a path it looks for the colon in
front before it looks for a repetition.

What is wrong at a place is said of that place alone (`Config.Wrong`).  The violation that is told
is the one at the first place where something is wrong (`Config.validate_firstViolation`).

The proof follows the lists of violations.  Each covers some places (`Config.Covers`): it is empty
if nothing is wrong there, and otherwise it begins with what is wrong at the first of them.  Two
lists one after the other cover the places of both, if those of the first come first
(`Config.Covers.append`), and in this way the whole list covers all places.

One list leaves something out: a path without a colon in front is not looked up among the paths
before it.  Nothing is lost, since the missing colon comes first.
-/
import BuildStream.Proofs.Config.Validation
import Mathlib.Data.Prod.Lex
import Mathlib.Order.Bounds.Basic

namespace BuildStream

namespace Config

/-! ## 1. Places -/

/-- Where validation looks for something wrong; tasks, their dependencies and the default tasks are
named by their indices. -/
inductive Place where
  | javaHome
  | concurrency
  /-- The colon in front of the path of a task. -/
  | colon (task : Nat)
  /-- The path of a task, among those before it. -/
  | repetition (task : Nat)
  | dependency (task position : Nat)
  | defaultTask (position : Nat)
deriving DecidableEq

namespace Place

/-- The field that a violation at the place names. -/
def field : Place → String
  | javaHome => "build.java_home"
  | concurrency => "build.concurrency"
  | colon task => taskField task "path"
  | repetition task => taskField task "path"
  | dependency task _ => taskField task "depends_on"
  | defaultTask _ => "workspace.default_tasks"

/-- What decides the order of places: the kind of field, then the index of the task, then what is
looked at first of that task. -/
def rank : Place → Nat ×ₗ Nat ×ₗ Nat
  | javaHome => toLex (0, toLex (0, 0))
  | concurrency => toLex (1, toLex (0, 0))
  | colon task => toLex (2, toLex (task, 0))
  | repetition task => toLex (2, toLex (task, 1))
  | dependency task position => toLex (3, toLex (task, position))
  | defaultTask position => toLex (4, toLex (position, 0))

theorem rank_injective : Function.Injective rank := by
  intro p q h
  cases p <;> cases q <;> simp_all [rank]

instance : LinearOrder Place := LinearOrder.lift' rank rank_injective

theorem le_iff {p q : Place} : p ≤ q ↔ p.rank ≤ q.rank := Iff.rfl

/-- The places of the path of a task. -/
def ofPath (task : Nat) : Set Place := {colon task, repetition task}

/-- The places of the dependencies of a task. -/
def ofDependencies (task : Nat) : Set Place := Set.range (dependency task)

/-- The places of the tasks from an index on. -/
def fromTask (places : Nat → Set Place) (n : Nat) : Set Place := {p | ∃ i, n ≤ i ∧ p ∈ places i}

theorem fromTask_eq (places : Nat → Set Place) (n : Nat) :
    fromTask places n = places n ∪ fromTask places (n + 1) := by
  ext p
  constructor
  · rintro ⟨i, hi, hp⟩
    rcases Nat.eq_or_lt_of_le hi with rfl | hlt
    · exact .inl hp
    · exact .inr ⟨i, hlt, hp⟩
  · rintro (hp | ⟨i, hi, hp⟩)
    · exact ⟨n, le_refl n, hp⟩
    · exact ⟨i, by omega, hp⟩

end Place

/-- What is wrong at a place of a configuration, in the words that tell it. -/
def Wrong (fs : Files) (c : Config) : Place → String → Prop
  | .javaHome, message => ∃ home, c.build.javaHome = some home ∧ fs.isDirectory home = false ∧
      message = home ++ " is not a directory"
  | .concurrency, message => c.build.concurrency = some 0 ∧ message = "must be at least 1"
  | .colon i, message => ∃ task, c.workspace.tasks[i]? = some task ∧
      TaskPath.isRooted task.path = false ∧
      message = "task path '" ++ task.path ++ "' must start with ':'"
  | .repetition i, message => ∃ task, c.workspace.tasks[i]? = some task ∧
      task.path ∈ (declaredPaths c.workspace).take i ∧
      message = "task '" ++ task.path ++ "' is declared twice"
  | .dependency i j, message => ∃ task dep, c.workspace.tasks[i]? = some task ∧
      task.dependsOn[j]? = some dep ∧ dep ∉ declaredPaths c.workspace ∧
      message = "unknown task '" ++ dep ++ "'"
  | .defaultTask i, message => ∃ target, c.workspace.defaultTasks[i]? = some target ∧
      (∀ path ∈ declaredPaths c.workspace,
        if TaskPath.isRooted target then path ≠ target else TaskPath.lastSegment path ≠ target) ∧
      message = "unknown task '" ++ target ++ "'"

/-- There is one way to tell what is wrong at a place. -/
theorem Wrong.unique {fs : Files} {c : Config} {p : Place} {message other : String}
    (h : c.Wrong fs p message) (h' : c.Wrong fs p other) : message = other := by
  cases p <;> simp only [Wrong] at h h' <;> grind

/-! ## 2. Lists that cover places -/

/-- A list of violations covers places: it begins with the violation at the first of them where
something is wrong, and it is empty if there is none. -/
def Covers (fs : Files) (c : Config) (places : Set Place) : List Violation → Prop
  | [] => ∀ p ∈ places, ∀ message, ¬ c.Wrong fs p message
  | v :: _ => ∃ p ∈ places, (∃ message, c.Wrong fs p message ∧ v = ⟨p.field, message⟩) ∧
      ∀ q ∈ places, ∀ message, c.Wrong fs q message → p ≤ q

variable {fs : Files} {c : Config}

theorem Covers.append {places others : Set Place} {vs ws : List Violation}
    (h : c.Covers fs places vs) (h' : c.Covers fs others ws)
    (hle : ∀ p ∈ places, ∀ q ∈ others, p ≤ q) : c.Covers fs (places ∪ others) (vs ++ ws) := by
  cases vs with
  | cons v vs =>
    obtain ⟨p, hp, hv, hfirst⟩ := h
    refine ⟨p, .inl hp, hv, ?_⟩
    rintro q (hq | hq) message hwrong
    · exact hfirst q hq message hwrong
    · exact hle p hp q hq
  | nil =>
    cases ws with
    | nil =>
      rintro p (hp | hp) message
      · exact h p hp message
      · exact h' p hp message
    | cons w ws =>
      obtain ⟨p, hp, hw, hfirst⟩ := h'
      refine ⟨p, .inr hp, hw, ?_⟩
      rintro q (hq | hq) message hwrong
      · exact absurd hwrong (h q hq message)
      · exact hfirst q hq message hwrong

/-- A list that covers one place. -/
theorem covers_singleton {p : Place} {vs : List Violation}
    (h : (vs = [] ∧ ∀ message, ¬ c.Wrong fs p message) ∨
      ∃ message, vs = [⟨p.field, message⟩] ∧ c.Wrong fs p message) : c.Covers fs {p} vs := by
  rcases h with ⟨rfl, hn⟩ | ⟨message, rfl, hwrong⟩
  · rintro _ rfl
    exact hn
  · refine ⟨p, rfl, ⟨message, hwrong, rfl⟩, ?_⟩
    rintro _ rfl _ _
    exact le_refl _

theorem covers_javaHome : c.Covers fs {.javaHome} (javaHomeViolations fs c.build) := by
  refine covers_singleton ?_
  unfold javaHomeViolations
  cases hh : c.build.javaHome with
  | none => exact .inl ⟨rfl, fun message ⟨home, h, _⟩ => nomatch hh.symm.trans h⟩
  | some home =>
    cases hd : fs.isDirectory home with
    | true => exact .inl ⟨by simp [hd], by simp [Wrong, hh, hd]⟩
    | false => exact .inr ⟨_, by simp [hd, Place.field], home, hh, hd, rfl⟩

theorem covers_concurrency : c.Covers fs {.concurrency} (concurrencyViolations c.build) := by
  refine covers_singleton ?_
  unfold concurrencyViolations
  split
  · next hz => exact .inr ⟨_, rfl, hz, rfl⟩
  · next hz => exact .inl ⟨rfl, fun message h => hz h.1⟩

/-! ## 3. The paths of the tasks -/

theorem covers_path {before rest : List TaskConfig} {task : TaskConfig}
    (h : c.workspace.tasks = before ++ task :: rest) :
    c.Covers fs (Place.ofPath before.length)
      (pathViolations (before.map (·.path)) before.length task.path) := by
  have hcolon (message : String) : c.Wrong fs (.colon before.length) message ↔
      TaskPath.isRooted task.path = false ∧
        message = "task path '" ++ task.path ++ "' must start with ':'" := by
    simp [Wrong, h]
  have hrepetition (message : String) : c.Wrong fs (.repetition before.length) message ↔
      task.path ∈ before.map (·.path) ∧
        message = "task '" ++ task.path ++ "' is declared twice" := by
    simp [Wrong, h, declaredPaths]
  unfold pathViolations
  cases hroot : TaskPath.isRooted task.path with
  | false =>
    -- whether the path is repeated is not looked at, and would come second
    refine ⟨.colon before.length, .inl rfl, ⟨_, (hcolon _).mpr ⟨hroot, rfl⟩, rfl⟩, ?_⟩
    rintro q (rfl | rfl) _ _
    · exact le_refl _
    · simp [Place.le_iff, Place.rank, Prod.Lex.toLex_le_toLex]
  | true =>
    have hnone (message : String) : ¬ c.Wrong fs (.colon before.length) message := by
      simp [hcolon, hroot]
    by_cases hm : task.path ∈ before.map (·.path)
    · have hlist : (before.map (·.path)).contains task.path = true := by simpa using hm
      rw [hlist]
      refine ⟨.repetition before.length, .inr rfl, ⟨_, (hrepetition _).mpr ⟨hm, rfl⟩, rfl⟩, ?_⟩
      rintro q (rfl | rfl) message hwrong
      · exact absurd hwrong (hnone message)
      · exact le_refl _
    · have hlist : (before.map (·.path)).contains task.path = false := by simpa using hm
      rw [hlist]
      rintro q (rfl | rfl) message
      · exact hnone message
      · simp [hrepetition, hm]

/-- The violations of the paths from an index on cover their places. -/
theorem covers_paths {before rest : List TaskConfig} (h : c.workspace.tasks = before ++ rest) :
    c.Covers fs (Place.fromTask Place.ofPath before.length)
      (allPathViolations (before.map (·.path)) before.length (rest.map (·.path))) := by
  induction rest generalizing before with
  | nil =>
    have hnone (i : Nat) (hi : before.length ≤ i) : c.workspace.tasks[i]? = none := by
      rw [h, List.append_nil]
      exact List.getElem?_eq_none hi
    rintro _ ⟨i, hi, rfl | rfl⟩ message ⟨task, ht, -⟩
    · exact nomatch (hnone i hi).symm.trans ht
    · exact nomatch (hnone i hi).symm.trans ht
  | cons task rest ih =>
    have hrest := @ih (before ++ [task]) (by simpa using h)
    rw [List.map_append, List.length_append] at hrest
    rw [Place.fromTask_eq]
    refine (covers_path h).append hrest ?_
    rintro p (rfl | rfl) q ⟨i, hi, rfl | rfl⟩ <;>
      · have hlt : before.length < i := hi
        simp [Place.le_iff, Place.rank, Prod.Lex.toLex_le_toLex, hlt]

/-! ## 4. References -/

/-- Where a list is looked through for bad members, those that are found cover its places. -/
theorem covers_filter {α : Type} {xs : List α} {bad : α → Bool} {tell : α → String}
    {place : Nat → Place} {field : String}
    (hwrong : ∀ i message, c.Wrong fs (place i) message ↔
      ∃ x, xs[i]? = some x ∧ bad x = true ∧ message = tell x)
    (hfield : ∀ i, (place i).field = field) (hle : ∀ i j, i ≤ j → place i ≤ place j) :
    c.Covers fs (Set.range place) ((xs.filter bad).map fun x => ⟨field, tell x⟩) := by
  induction xs generalizing place with
  | nil =>
    rintro _ ⟨i, rfl⟩ message h
    obtain ⟨x, hx, -⟩ := (hwrong i message).mp h
    exact nomatch hx
  | cons x xs ih =>
    have hplaces : Set.range place = {place 0} ∪ Set.range fun i => place (i + 1) := by
      ext p
      constructor
      · rintro ⟨_ | i, rfl⟩
        · exact .inl rfl
        · exact .inr ⟨i, rfl⟩
      · rintro (rfl | ⟨i, rfl⟩)
        · exact ⟨0, rfl⟩
        · exact ⟨i + 1, rfl⟩
    have hfirst : c.Covers fs {place 0} (([x].filter bad).map fun x => ⟨field, tell x⟩) := by
      refine covers_singleton ?_
      cases hb : bad x with
      | false => exact .inl ⟨by simp [hb], by simp [hwrong, hb]⟩
      | true => exact .inr ⟨tell x, by simp [hb, hfield], (hwrong 0 _).mpr ⟨x, rfl, hb, rfl⟩⟩
    have hrest : c.Covers fs (Set.range fun i => place (i + 1))
        ((xs.filter bad).map fun x => ⟨field, tell x⟩) :=
      ih (fun i message => hwrong (i + 1) message) (fun i => hfield (i + 1))
        fun i j hij => hle _ _ (by omega)
    rw [hplaces, ← List.singleton_append, List.filter_append, List.map_append]
    refine hfirst.append hrest ?_
    rintro _ rfl _ ⟨i, rfl⟩
    exact hle _ _ (by omega)

/-- The violations of the dependencies of the tasks from an index on cover their places. -/
theorem covers_dependencies {before rest : List TaskConfig}
    (h : c.workspace.tasks = before ++ rest) :
    c.Covers fs (Place.fromTask Place.ofDependencies before.length)
      (dependencyViolations (declaredPaths c.workspace) before.length rest) := by
  induction rest generalizing before with
  | nil =>
    rintro _ ⟨i, hi, j, rfl⟩ message ⟨task, dep, ht, -⟩
    rw [h, List.append_nil, List.getElem?_eq_none hi] at ht
    exact nomatch ht
  | cons task rest ih =>
    have hrest := @ih (before ++ [task]) (by simpa using h)
    rw [List.length_append] at hrest
    rw [Place.fromTask_eq]
    refine Covers.append (covers_filter ?_ (fun _ => rfl) ?_) hrest ?_
    · intro j message
      simp [Wrong, h]
    · intro i j hij
      simp [Place.le_iff, Place.rank, Prod.Lex.toLex_le_toLex, hij]
    · rintro _ ⟨k, rfl⟩ _ ⟨i, hi, j, rfl⟩
      have hlt : before.length < i := hi
      simp [Place.le_iff, Place.rank, Prod.Lex.toLex_le_toLex, hlt]

theorem covers_defaultTasks : c.Covers fs (Set.range .defaultTask)
    (defaultTaskViolations (declaredPaths c.workspace) c.workspace.defaultTasks) := by
  refine covers_filter ?_ (fun _ => rfl) ?_
  · intro i message
    refine exists_congr fun target => and_congr_right fun _ => and_congr_left fun _ => ?_
    unfold isKnownTarget
    split
    · simpa using List.forall_mem_ne'
    · simp
  · intro i j hij
    simpa [Place.le_iff, Place.rank, Prod.Lex.toLex_le_toLex] using hij.lt_or_eq

/-! ## 5. The whole -/

/-- **All violations** cover all places. -/
theorem covers_violations (fs : Files) (c : Config) : c.Covers fs Set.univ (violations fs c) := by
  have hbuild := (covers_javaHome : c.Covers fs _ _).append covers_concurrency (by
    rintro _ rfl _ rfl
    simp [Place.le_iff, Place.rank, Prod.Lex.toLex_le_toLex])
  have hpaths := hbuild.append (covers_paths (List.nil_append _).symm) (by
    rintro _ (rfl | rfl) _ ⟨i, -, rfl | rfl⟩ <;>
      simp [Place.le_iff, Place.rank, Prod.Lex.toLex_le_toLex])
  have hdependencies := hpaths.append (covers_dependencies (List.nil_append _).symm) (by
    rintro _ ((rfl | rfl) | ⟨i, -, rfl | rfl⟩) _ ⟨k, -, j, rfl⟩ <;>
      simp [Place.le_iff, Place.rank, Prod.Lex.toLex_le_toLex])
  have hall := hdependencies.append covers_defaultTasks (by
    rintro _ (((rfl | rfl) | ⟨i, -, rfl | rfl⟩) | ⟨i, -, j, rfl⟩) _ ⟨k, rfl⟩ <;>
      simp [Place.le_iff, Place.rank, Prod.Lex.toLex_le_toLex])
  refine Eq.mp (congrArg (c.Covers fs · _) (Set.eq_univ_of_forall ?_)) hall
  intro p
  cases p with
  | javaHome => exact .inl (.inl (.inl (.inl rfl)))
  | concurrency => exact .inl (.inl (.inl (.inr rfl)))
  | colon i => exact .inl (.inl (.inr ⟨i, i.zero_le, .inl rfl⟩))
  | repetition i => exact .inl (.inl (.inr ⟨i, i.zero_le, .inr rfl⟩))
  | dependency i j => exact .inl (.inr ⟨i, i.zero_le, j, rfl⟩)
  | defaultTask i => exact .inr ⟨i, rfl⟩

/-- **The first violation is told**, and nothing else is a reason to refuse a configuration. -/
theorem validate_eq_error_iff {v : Violation} :
    validate fs c = .error v ↔ ∃ p message, IsLeast {q | ∃ m, c.Wrong fs q m} p ∧
      c.Wrong fs p message ∧ v = ⟨p.field, message⟩ := by
  have hcovers := covers_violations fs c
  unfold validate
  cases hvs : violations fs c with
  | nil =>
    rw [hvs] at hcovers
    constructor
    · intro h
      exact nomatch h
    · rintro ⟨p, message, -, hwrong, -⟩
      exact absurd hwrong (hcovers p trivial message)
  | cons w ws =>
    rw [hvs] at hcovers
    obtain ⟨p, -, ⟨message, hwrong, rfl⟩, hfirst⟩ := hcovers
    have hleast : IsLeast {q | ∃ m, c.Wrong fs q m} p :=
      ⟨⟨message, hwrong⟩, fun q ⟨m, hm⟩ => hfirst q trivial m hm⟩
    constructor
    · intro h
      exact ⟨p, message, hleast, hwrong, (Except.error.inj h).symm⟩
    · rintro ⟨q, other, hq, hother, rfl⟩
      obtain rfl : p = q := hleast.unique hq
      rw [hwrong.unique hother]

/-- A well-formed workspace, told by its tasks. -/
theorem wellFormed_iff {w : Workspace} : w.WellFormed ↔
    (∀ task ∈ w.tasks, TaskPath.isRooted task.path = true) ∧ (w.tasks.map (·.path)).Nodup ∧
    (∀ task ∈ w.tasks, ∀ dep ∈ task.dependsOn, ∃ t ∈ w.tasks, t.path = dep) ∧
    ∀ target ∈ w.defaultTasks, ∃ task ∈ w.tasks,
      if TaskPath.isRooted target then task.path = target
      else TaskPath.lastSegment task.path = target := by
  have hmem (path : TaskPath) : path ∈ declaredPaths w ↔ ∃ t ∈ w.tasks, t.path = path :=
    List.mem_map
  have hknown (target : String) : isKnownTarget (declaredPaths w) target = true ↔
      ∃ task ∈ w.tasks, if TaskPath.isRooted target then task.path = target
        else TaskPath.lastSegment task.path = target := by
    simp [isKnownTarget_iff, declaredPaths, TaskPath.lastSegment_eq_name]
  constructor
  · intro h
    refine ⟨fun task ht => h.rooted _ ((hmem _).mpr ⟨task, ht, rfl⟩), h.nodup, ?_, ?_⟩
    · intro task ht dep hd
      exact (hmem dep).mp (h.dependencies task ht dep hd)
    · intro target ht
      exact (hknown target).mp (h.defaults target ht)
  · rintro ⟨hrooted, hnodup, hdeps, hdefaults⟩
    refine ⟨?_, hnodup, ?_, ?_⟩
    · intro path hp
      obtain ⟨task, ht, rfl⟩ := (hmem path).mp hp
      exact hrooted task ht
    · intro task ht dep hd
      exact (hmem dep).mpr (hdeps task ht dep hd)
    · intro target ht
      exact (hknown target).mpr (hdefaults target ht)

/-- **What validation accepts, and what it tells of the rest.**

A configuration is accepted exactly if its Java home is a directory or not set, its concurrency is
not zero, the paths of its tasks have a colon in front and are different, every dependency is one
of them, and every default task is one of them or, without a colon in front, the last part of one.
Otherwise the violation that is told is that of the first place where something is wrong. -/
theorem validate_firstViolation (fs : Files) (c : Config) :
    (validate fs c = .ok () ↔
      (∀ home, c.build.javaHome = some home → fs.isDirectory home = true) ∧
      c.build.concurrency ≠ some 0 ∧
      (∀ task ∈ c.workspace.tasks, TaskPath.isRooted task.path = true) ∧
      (c.workspace.tasks.map (·.path)).Nodup ∧
      (∀ task ∈ c.workspace.tasks, ∀ dep ∈ task.dependsOn, ∃ t ∈ c.workspace.tasks, t.path = dep) ∧
      ∀ target ∈ c.workspace.defaultTasks, ∃ task ∈ c.workspace.tasks,
        if TaskPath.isRooted target then task.path = target
        else TaskPath.lastSegment task.path = target) ∧
    ∀ v, validate fs c = .error v ↔ ∃ p message, IsLeast {q | ∃ m, c.Wrong fs q m} p ∧
      c.Wrong fs p message ∧ v = ⟨p.field, message⟩ := by
  refine ⟨?_, fun v => validate_eq_error_iff⟩
  rw [validate_eq_ok, wellFormed_iff]
  exact Iff.rfl

namespace Several

/-- A default task and a dependency that lead nowhere, and between them a path without a colon in
front and a path that is there twice. -/
def config : Config where
  workspace :=
    { defaultTasks := ["deploy"]
      tasks := [{ path := ":app", dependsOn := [":lib"] }, { path := "lib" }, { path := ":app" }] }

end Several

/-- The missing colon is told: it comes before the repetition, and that before the references. -/
theorem firstViolation_several :
    validate .empty Several.config =
        .error ⟨"workspace.tasks[1].path", "task path 'lib' must start with ':'"⟩ ∧
      Several.config.Wrong .empty (.dependency 0 0) "unknown task ':lib'" ∧
      ∃ p, IsLeast {q | ∃ m, Several.config.Wrong .empty q m} p ∧
        p.field = "workspace.tasks[1].path" ∧ p ≤ .dependency 0 0 := by
  have hv : validate .empty Several.config =
      .error ⟨"workspace.tasks[1].path", "task path 'lib' must start with ':'"⟩ := rfl
  have hdep : Several.config.Wrong .empty (.dependency 0 0) "unknown task ':lib'" :=
    ⟨_, _, rfl, rfl, by decide, rfl⟩
  obtain ⟨p, message, hleast, -, heq⟩ := ((validate_firstViolation .empty Several.config).2 _).mp hv
  exact ⟨hv, hdep, p, hleast, (congrArg Violation.field heq).symm, hleast.2 ⟨_, hdep⟩⟩

end Config

end BuildStream
