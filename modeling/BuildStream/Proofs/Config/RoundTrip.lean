/-
# A configuration comes back from what is left of its full form

The full form of a configuration has every field, and a file written by hand has the few that
matter.  `Config.form` says what else the two may differ in: it names the records of a
configuration, their fields, and what a field is when it is left out.  From everything that is the
full form of a configuration up to that, the configuration is read back (`Config.decode_abridged`).

The proof follows the records from the inside out, with one `Recovers` lemma for each of them.
Where defaults come from makes no difference to it: a record all of whose fields have one, and a
record with a field that has to be there, are read by the same two lemmas.  The outcome of a task is
no record, so nothing is left out of it and nothing added.
-/
import BuildStream.Config.Decode
import BuildStream.Config.Encode
import BuildStream.Proofs.Json.Abridged

namespace BuildStream

open Json

/-! ## 1. Leaves -/

namespace Json

theorem recovers_text (s : String) : Recovers .plain (dialect false).text (.string s) s :=
  recovers_plain rfl

theorem recovers_bool (b : Bool) : Recovers .plain (dialect false).bool (.bool b) b :=
  recovers_plain rfl

/-- A natural number is read if it is no greater than the greatest one. -/
theorem recovers_natural {greatest n : Nat} (h : n ≤ greatest) :
    Recovers .plain ((dialect false).natural greatest) (.nat n) n := by
  have hn : (n : Int) ≤ greatest := Int.ofNat_le.mpr h
  refine recovers_plain ?_
  simp only [dialect, nat, asNatural, hn, Int.natCast_nonneg, and_self, if_true, Int.toNat_natCast]

theorem recovers_text? (o : Option String) :
    Recovers .plain ((dialect false).option (dialect false).text) (ofOption .string o) o :=
  .ofOption recovers_text nofun false o

theorem recovers_bool? (o : Option Bool) :
    Recovers .plain ((dialect false).option (dialect false).bool) (ofOption .bool o) o :=
  .ofOption recovers_bool nofun false o

theorem recovers_texts (xs : List String) :
    Recovers (.list .plain) ((dialect false).listOf (dialect false).text) (strings xs) xs :=
  .listOf recovers_text false xs

end Json

/-! ## 2. Connections -/

namespace IdleTimeout

/-- A timeout has to be written with both of its fields. -/
def form : Form := .record [("value", .plain, none), ("unit", .plain, none)]

theorem recovers_unit (u : TimeUnit) :
    Recovers .plain ((dialect false).nameOf TimeUnit.byName) (.string u.text) u :=
  recovers_plain (by cases u <;> rfl)

theorem recovers (t : IdleTimeout) : Recovers form (decode (dialect false)) t.encode t := by
  intro w h
  obtain ⟨f, hf, kept⟩ := h.asFields ["value", "unit"] rfl rfl (by decide)
  have bound : t.value.toNat ≤ UInt32.size - 1 := Nat.le_sub_one_of_lt t.value.toNat_lt
  have value := kept.required "value" (recovers_natural bound) (by simp)
  have unit := kept.required "unit" (recovers_unit t.unit) (by simp)
  have fields : (dialect false).fields ["value", "unit"] w = .ok f := hf
  simp only [decode, fields, value, unit, bind, Except.bind, pure, Except.pure, UInt32.ofNat_toNat]

end IdleTimeout

namespace ConnectionParameters

/-- Every parameter may be left out. -/
def form : Form :=
  .record [("verbose_logging", .plain, some (.bool false)), ("user_home_dir", .plain, some .null),
    ("project_dir", .plain, some .null), ("search_upwards", .plain, some .null),
    ("embedded", .plain, some .null), ("daemon_max_idle", IdleTimeout.form, some .null),
    ("daemon_base_dir", .plain, some .null)]

theorem recovers (p : ConnectionParameters) :
    Recovers form (decode (dialect false)) p.encode p := by
  intro w h
  obtain ⟨f, hf, kept⟩ := h.asFields fieldNames rfl rfl (by decide)
  have verboseLogging := kept.withDefault "verbose_logging" (recovers_bool p.verboseLogging)
    (recovers_bool false) (by simp)
  have userHomeDir := kept.withDefault "user_home_dir" (recovers_text? p.userHomeDir)
    (recovers_text? none) (by simp [ofOption])
  have projectDir := kept.withDefault "project_dir" (recovers_text? p.projectDir)
    (recovers_text? none) (by simp [ofOption])
  have searchUpwards := kept.withDefault "search_upwards" (recovers_bool? p.searchUpwards)
    (recovers_bool? none) (by simp [ofOption])
  have embedded := kept.withDefault "embedded" (recovers_bool? p.embedded)
    (recovers_bool? none) (by simp [ofOption])
  have idle (o : Option IdleTimeout) := Recovers.ofOption IdleTimeout.recovers nofun false o
  have daemonMaxIdle := kept.withDefault "daemon_max_idle" (idle p.daemonMaxIdle)
    (idle none) (by simp [ofOption])
  have daemonBaseDir := kept.withDefault "daemon_base_dir" (recovers_text? p.daemonBaseDir)
    (recovers_text? none) (by simp [ofOption])
  have fields : (dialect false).fields fieldNames w = .ok f := hf
  simp only [decode, fields, verboseLogging, userHomeDir, projectDir, searchUpwards, embedded,
    daemonMaxIdle, daemonBaseDir, bind, Except.bind, pure, Except.pure]

end ConnectionParameters

/-! ## 3. Builds -/

namespace BuildDefaults

/-- Every setting may be left out. -/
def form : Form :=
  .record [("java_home", .plain, some .null), ("jvm_arguments", .list .plain, some (.array [])),
    ("arguments", .list .plain, some (.array [])), ("color_output", .plain, some .null),
    ("concurrency", .plain, some .null), ("continue_on_error", .plain, some (.bool false))]

/-- A word of 64 bits is in the range that is read, whichever word it is. -/
theorem recovers_word (n : UInt64) :
    Recovers .plain ((dialect false).natural (UInt64.size - 1)) (.nat n.toNat) n.toNat :=
  recovers_natural (Nat.le_sub_one_of_lt n.toNat_lt)

/-- A concurrency is read as a natural number, and made a word of it afterwards. -/
theorem recovers_concurrency (o : Option UInt64) :
    Recovers .plain ((dialect false).option ((dialect false).natural (UInt64.size - 1)))
      (ofOption (fun n => .nat n.toNat) o) (o.map UInt64.toNat) := by
  cases o with
  | none => exact recovers_plain rfl
  | some n =>
    refine recovers_plain ?_
    have hn := (recovers_word n).decode_eq
    exact congrArg (Except.map some) hn

theorem recovers (b : BuildDefaults) : Recovers form (decode (dialect false)) b.encode b := by
  intro w h
  obtain ⟨f, hf, kept⟩ := h.asFields fieldNames rfl rfl (by decide)
  have javaHome := kept.withDefault "java_home" (recovers_text? b.javaHome)
    (recovers_text? none) (by simp [ofOption])
  have jvmArguments := kept.withDefault "jvm_arguments" (recovers_texts b.jvmArguments)
    (recovers_texts []) (by simp [strings])
  have arguments := kept.withDefault "arguments" (recovers_texts b.arguments)
    (recovers_texts []) (by simp [strings])
  have colorOutput := kept.withDefault "color_output" (recovers_bool? b.colorOutput)
    (recovers_bool? none) (by simp [ofOption])
  have concurrency := kept.withDefault "concurrency" (recovers_concurrency b.concurrency)
    (recovers_concurrency none) (by simp [ofOption])
  have continueOnError := kept.withDefault "continue_on_error" (recovers_bool b.continueOnError)
    (recovers_bool false) (by simp)
  -- the numbers that are read become words again
  have words : (b.concurrency.map UInt64.toNat).map UInt64.ofNat = b.concurrency := by
    cases b.concurrency <;> simp
  have fields : (dialect false).fields fieldNames w = .ok f := hf
  simp only [Option.map_none] at concurrency
  simp only [decode, fields, javaHome, jvmArguments, arguments, colorOutput, concurrency,
    continueOnError, words, bind, Except.bind, pure, Except.pure]

end BuildDefaults

/-! ## 4. Tasks -/

namespace TaskOutcome

/-- An outcome is a name, or a name with a text, and is written as it stands. -/
theorem recovers (o : TaskOutcome) : Recovers .plain (decode (dialect false)) o.encode o :=
  recovers_plain (by cases o <;> rfl)

end TaskOutcome

namespace TestConfig

/-- A test has to have a name. -/
def form : Form :=
  .record [("name", .plain, none), ("class_name", .plain, some .null), ("fail", .plain, some .null)]

theorem recovers (t : TestConfig) : Recovers form (decode (dialect false)) t.encode t := by
  intro w h
  obtain ⟨f, hf, kept⟩ := h.asFields ["name", "class_name", "fail"] rfl rfl (by decide)
  have name := kept.required "name" (recovers_text t.name) (by simp)
  have className := kept.withDefault "class_name" (recovers_text? t.className)
    (recovers_text? none) (by simp [ofOption])
  have fail := kept.withDefault "fail" (recovers_text? t.fail)
    (recovers_text? none) (by simp [ofOption])
  have fields : (dialect false).fields ["name", "class_name", "fail"] w = .ok f := hf
  simp only [decode, fields, name, className, fail, bind, Except.bind, pure, Except.pure]

end TestConfig

namespace TaskConfig

/-- A task has to have a path. -/
def form : Form :=
  .record [("path", .plain, none), ("description", .plain, some .null),
    ("depends_on", .list .plain, some (.array [])), ("outcome", .plain, some (.string "executed")),
    ("duration_ms", .plain, some (.nat 0)), ("tests", .list TestConfig.form, some (.array []))]

theorem recovers (t : TaskConfig) : Recovers form (decode (dialect false)) t.encode t := by
  intro w h
  obtain ⟨f, hf, kept⟩ := h.asFields fieldNames rfl rfl (by decide)
  have path := kept.required "path" (recovers_text t.path) (by simp)
  have description := kept.withDefault "description" (recovers_text? t.description)
    (recovers_text? none) (by simp [ofOption])
  have dependsOn := kept.withDefault "depends_on" (recovers_texts t.dependsOn)
    (recovers_texts []) (by simp [strings])
  have outcome := kept.withDefault "outcome" t.outcome.recovers
    (TaskOutcome.recovers .executed) (by simp [TaskOutcome.encode])
  have duration := kept.withDefault "duration_ms" (BuildDefaults.recovers_word t.durationMs)
    (recovers_natural (Nat.zero_le _)) (by simp)
  have each (ts : List TestConfig) := Recovers.listOf TestConfig.recovers false ts
  have tests := kept.withDefault "tests" (each t.tests) (each []) (by simp)
  have fields : (dialect false).fields fieldNames w = .ok f := hf
  simp only [decode, fields, path, description, dependsOn, outcome, duration, tests, bind,
    Except.bind, pure, Except.pure, UInt64.ofNat_toNat]

end TaskConfig

namespace Workspace

/-- A workspace may be empty. -/
def form : Form :=
  .record [("default_tasks", .list .plain, some (.array [])),
    ("tasks", .list TaskConfig.form, some (.array []))]

theorem recovers (s : Workspace) : Recovers form (decode (dialect false)) s.encode s := by
  intro w h
  obtain ⟨f, hf, kept⟩ := h.asFields ["default_tasks", "tasks"] rfl rfl (by decide)
  have defaultTasks := kept.withDefault "default_tasks" (recovers_texts s.defaultTasks)
    (recovers_texts []) (by simp [strings])
  have each (ts : List TaskConfig) := Recovers.listOf TaskConfig.recovers false ts
  have tasks := kept.withDefault "tasks" (each s.tasks) (each []) (by simp)
  have fields : (dialect false).fields ["default_tasks", "tasks"] w = .ok f := hf
  simp only [decode, fields, defaultTasks, tasks, bind, Except.bind, pure, Except.pure]

end Workspace

/-! ## 5. Configurations -/

namespace Config

/-- The parts of a configuration may be left out if they are the default as a whole. -/
def form : Form :=
  .record [("connection", ConnectionParameters.form, some (ConnectionParameters.encode {})),
    ("build", BuildDefaults.form, some (BuildDefaults.encode {})),
    ("workspace", Workspace.form, some (Workspace.encode {}))]

theorem recovers (c : Config) : Recovers form (decode (dialect false)) c.encode c := by
  intro w h
  obtain ⟨f, hf, kept⟩ := h.asFields ["connection", "build", "workspace"] rfl rfl (by decide)
  have connection := kept.withDefault "connection" c.connection.recovers
    (ConnectionParameters.recovers {}) (by simp)
  have build := kept.withDefault "build" c.build.recovers (BuildDefaults.recovers {}) (by simp)
  have workspace := kept.withDefault "workspace" c.workspace.recovers (Workspace.recovers {})
    (by simp)
  have fields : (dialect false).fields ["connection", "build", "workspace"] w = .ok f := hf
  simp only [decode, fields, connection, build, workspace, bind, Except.bind, pure, Except.pure]

/-- **A configuration comes back** from its full form, and from everything that is left of this form
when defaults are left out of any of its records and unknown members are added to any of them. -/
theorem decode_abridged (c : Config) : decode (dialect false) c.encode = .ok c ∧
    ∀ w, Abridged form c.encode w → decode (dialect false) w = .ok c :=
  ⟨(recovers c).decode_eq, recovers c⟩

namespace Short

/-- A task that has nothing to do. -/
def javadoc : TaskConfig := { path := ":lib:javadoc", outcome := .skipped "no sources" }

/-- A configuration with few settings. -/
def config : Config where
  connection := { searchUpwards := some false, daemonMaxIdle := some ⟨10, .minutes⟩ }
  workspace := { tasks := [javadoc] }

/-- The timeout, its unit first, with a remark. -/
def timeout : Json := .object [("unit", .string "minutes"), ("value", .nat 10), ("remark", .null)]

/-- The connection, with one of the parameters that are not set written as null. -/
def connection : Json :=
  .object [("search_upwards", .bool false), ("embedded", .null), ("daemon_max_idle", timeout)]

/-- The task, its outcome first. -/
def task : Json :=
  .object [("outcome", .object [("skipped", .string "no sources")]), ("path", .string ":lib:javadoc")]

/-- The configuration as it is written by hand: no build, no default tasks, and a version. -/
def written : Json :=
  .object [("version", .nat 2), ("connection", connection),
    ("workspace", .object [("tasks", .array [task])])]

theorem abridged_connection :
    Abridged ConnectionParameters.form config.connection.encode connection := by
  have ht : Abridged IdleTimeout.form (IdleTimeout.encode ⟨10, .minutes⟩) timeout :=
    .record [("value", .nat 10), ("unit", .string "minutes")] [("remark", .null)]
      (.keep (.same _ _) (.keep (.same _ _) .nil)) (by decide) (.swap _ _ _)
  refine .record [("search_upwards", .bool false), ("embedded", .null), ("daemon_max_idle", timeout)]
    [] ?_ nofun (.refl _)
  exact .leaveOut (.leaveOut (.leaveOut (.keep (.same _ _) (.keep (.same _ _) (.keep ht
    (.leaveOut .nil))))))

theorem abridged_task : Abridged TaskConfig.form javadoc.encode task := by
  refine .record [("path", .string ":lib:javadoc"),
    ("outcome", .object [("skipped", .string "no sources")])] [] ?_ nofun (.swap _ _ _)
  exact .keep (.same _ _) (.leaveOut (.leaveOut (.keep (.same _ _) (.leaveOut (.leaveOut .nil)))))

theorem abridged_written : Abridged form config.encode written := by
  have hw : Abridged Workspace.form config.workspace.encode (.object [("tasks", .array [task])]) := by
    refine .record [("tasks", .array [task])] [] (.leaveOut (.keep ?_ .nil)) nofun (.refl _)
    exact .list (.cons abridged_task .nil)
  refine .record [("connection", connection), ("workspace", .object [("tasks", .array [task])])]
    [("version", .nat 2)] ?_ (by decide) (List.perm_append_singleton _ _).symm
  exact .keep abridged_connection (.leaveOut (.keep hw .nil))

theorem decode_written : Abridged form config.encode written ∧
    decode (dialect false) written = .ok config :=
  ⟨abridged_written, (decode_abridged config).2 written abridged_written⟩

end Short

end Config

end BuildStream
