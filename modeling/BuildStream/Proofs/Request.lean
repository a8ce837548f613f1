/-
# What a request asks for

A builder gathers three lists: the paths of the tasks to run, the arguments of the build and those
of the machine that runs it.  Each of them is what was set last, and an empty list counts as none
(`Gathered`); a setting that was refused leaves no trace.

The tasks have two settings, by their paths and by handles.  Both keep the paths that they name,
each once and in the order in which they are first named, so the two are one function of these paths
(`Request.tasks_of_set`).  They differ in what they look at.

* A list of paths is refused if one of them is blank.
* A list of handles is refused if one of them is of an unknown kind.  What a handle names is not
  looked at, and a blank path that it names is kept.

So no path is kept twice and no list is kept that is empty, but a blank path comes into a request
exactly if handles bring it (`Session.lists_of_mem_requests`).
-/
import BuildStream.Proofs.Launchable
import BuildStream.Proofs.Session

namespace BuildStream

theorem nonEmpty_eq_some {α : Type} {xs ys : List α} :
    nonEmpty xs = some ys ↔ xs = ys ∧ ys ≠ [] := by
  unfold nonEmpty
  split
  · next he =>
    obtain rfl := List.isEmpty_iff.mp he
    refine ⟨nofun, ?_⟩
    rintro ⟨rfl, hne⟩
    exact absurd rfl hne
  · next he =>
    refine ⟨fun h => ?_, fun h => congrArg some h.1⟩
    obtain rfl := Option.some.inj h
    exact ⟨rfl, fun hn => he (List.isEmpty_iff.mpr hn)⟩

namespace Request

/-! ## 1. The lists of one setting -/

namespace Setting

/-- The paths that a setting of the tasks names, by themselves or through handles. -/
def named? : Setting → Option (List TaskPath)
  | tasks paths => some paths
  | launchables handles => some (handles.flatMap (·.paths))
  | _ => none

/-- The arguments of the machine that a setting holds. -/
def jvmArguments? : Setting → Option (List String)
  | jvmArguments values => some values
  | _ => none

/-- The arguments of the build that a setting holds. -/
def arguments? : Setting → Option (List String)
  | arguments values => some values
  | _ => none

end Setting

section Set

variable {fs : Files} {r r' : Request} {setting : Setting}

/-- A list of paths is kept if none of them is blank. -/
theorem setTasks_eq_ok {paths : List TaskPath} :
    r.setTasks paths = .ok r' ↔
      paths.any isBlank = false ∧ r' = { r with tasks := nonEmpty (distinct paths) } := by
  unfold setTasks
  split
  · next hblank => simp [hblank]
  · next hblank => simp [hblank, eq_comm]

/-- **Both settings of the tasks** keep what they name, and no other setting changes it. -/
theorem tasks_of_set (h : r.set fs setting = .ok r') :
    r'.tasks = setting.named?.elim r.tasks fun paths => nonEmpty (distinct paths) := by
  cases setting with
  | tasks paths =>
    obtain ⟨-, rfl⟩ := setTasks_eq_ok.mp h
    rfl
  | launchables handles =>
    obtain ⟨targets, hr, rfl⟩ := setLaunchables_eq_ok.mp h
    exact congrArg nonEmpty (Targets.resolve_eq_ok_iff.mp hr).2.1
  | javaHome path =>
    simp only [set, setJavaHome] at h
    split at h
    · cases h
      rfl
    · split at h <;> cases h
      rfl
  | _ =>
    cases h
    rfl

/-- The arguments are what is set, and no other setting changes them. -/
theorem arguments_of_set (h : r.set fs setting = .ok r') :
    r'.jvmArguments = setting.jvmArguments?.elim r.jvmArguments nonEmpty ∧
      r'.arguments = setting.arguments?.elim r.arguments nonEmpty := by
  cases setting with
  | tasks paths =>
    obtain ⟨-, rfl⟩ := setTasks_eq_ok.mp h
    exact ⟨rfl, rfl⟩
  | launchables handles =>
    obtain ⟨targets, -, rfl⟩ := setLaunchables_eq_ok.mp h
    exact ⟨rfl, rfl⟩
  | javaHome path =>
    simp only [set, setJavaHome] at h
    split at h
    · cases h
      exact ⟨rfl, rfl⟩
    · split at h <;> cases h
      exact ⟨rfl, rfl⟩
  | _ =>
    cases h
    exact ⟨rfl, rfl⟩

end Set

/-! ## 2. What settings gather -/

/-- The last of some settings that holds a list. -/
def last? (read : Setting → Option (List String)) (settings : List Setting) : Option Setting :=
  settings.reverse.find? fun setting => (read setting).isSome

/-- The list that was set last, an empty one if none was. -/
def lastSet (read : Setting → Option (List String)) (settings : List Setting) : List String :=
  ((last? read settings).bind read).getD []

variable {read : Setting → Option (List String)} {settings : List Setting}

theorem lastSet_concat (settings : List Setting) (setting : Setting) :
    lastSet read (settings ++ [setting]) = (read setting).getD (lastSet read settings) := by
  unfold lastSet last?
  rw [List.reverse_append]
  cases h : read setting <;> simp [h]

theorem exists_last?_of_mem_lastSet {value : String} (h : value ∈ lastSet read settings) :
    ∃ setting values, last? read settings = some setting ∧ setting ∈ settings ∧
      read setting = some values ∧ lastSet read settings = values := by
  unfold lastSet at h ⊢
  cases hl : last? read settings with
  | none =>
    rw [hl] at h
    exact nomatch h
  | some setting =>
    cases hr : read setting with
    | none =>
      rw [hl, Option.bind_some, hr] at h
      exact nomatch h
    | some values =>
      refine ⟨setting, values, rfl, ?_, hr, by simp [hr]⟩
      exact List.mem_reverse.mp (List.mem_of_find?_eq_some hl)

/-- The lists of a request are those that were set last, and paths that were set are not blank. -/
structure Gathered (settings : List Setting) (r : Request) : Prop where
  tasks : r.tasks = nonEmpty (distinct (lastSet Setting.named? settings))
  jvmArguments : r.jvmArguments = nonEmpty (lastSet Setting.jvmArguments? settings)
  arguments : r.arguments = nonEmpty (lastSet Setting.arguments? settings)
  notBlank : ∀ paths, .tasks paths ∈ settings → paths.any isBlank = false

theorem gathered_nil : Gathered [] {} where
  tasks := rfl
  jvmArguments := rfl
  arguments := rfl
  notBlank := fun _ h => nomatch h

theorem Gathered.set {fs : Files} {r r' : Request} {setting : Setting} (h : Gathered settings r)
    (hs : r.set fs setting = .ok r') : Gathered (settings ++ [setting]) r' := by
  obtain ⟨hjvm, hbuild⟩ := arguments_of_set hs
  refine ⟨?_, ?_, ?_, fun paths hm => ?_⟩
  · rw [tasks_of_set hs, lastSet_concat, h.tasks]
    cases setting.named? <;> rfl
  · rw [hjvm, lastSet_concat, h.jvmArguments]
    cases setting.jvmArguments? <;> rfl
  · rw [hbuild, lastSet_concat, h.arguments]
    cases setting.arguments? <;> rfl
  · rcases List.mem_append.mp hm with hm | hm
    · exact h.notBlank paths hm
    · obtain rfl : Setting.tasks paths = setting := List.mem_singleton.mp hm
      exact (setTasks_eq_ok.mp hs).1

/-- **Blank paths come from handles**: a request has one exactly if the last setting of its tasks
was by handles that name one. -/
theorem Gathered.exists_blank_iff {r : Request} (h : Gathered settings r) :
    (∃ paths, r.tasks = some paths ∧ ∃ path ∈ paths, isBlank path = true) ↔
      ∃ handles, last? Setting.named? settings = some (.launchables handles) ∧
        ∃ handle ∈ handles, ∃ path ∈ handle.paths, isBlank path = true := by
  rw [h.tasks]
  constructor
  · rintro ⟨paths, hp, path, hm, hblank⟩
    obtain ⟨rfl, -⟩ := nonEmpty_eq_some.mp hp
    have hm : path ∈ lastSet Setting.named? settings := mem_distinct.mp hm
    obtain ⟨setting, values, hlast, hin, hread, hset⟩ := exists_last?_of_mem_lastSet hm
    rw [hset] at hm
    cases setting with
    | launchables handles =>
      obtain rfl := Option.some.inj hread
      obtain ⟨handle, hh, hpath⟩ := List.mem_flatMap.mp hm
      exact ⟨handles, hlast, handle, hh, path, hpath, hblank⟩
    | tasks paths =>
      obtain rfl := Option.some.inj hread
      have hnot := List.any_eq_false.mp (h.notBlank paths hin) path hm
      exact absurd hblank hnot
    | _ => exact nomatch hread
  · rintro ⟨handles, hlast, handle, hh, path, hpath, hblank⟩
    have hset : lastSet Setting.named? settings = handles.flatMap (·.paths) := by
      rw [lastSet, hlast]
      rfl
    have hm : path ∈ distinct (lastSet Setting.named? settings) := by
      rw [hset, mem_distinct]
      exact List.mem_flatMap.mpr ⟨handle, hh, hpath⟩
    exact ⟨_, nonEmpty_eq_some.mpr ⟨rfl, List.ne_nil_of_mem hm⟩, path, hm, hblank⟩

end Request

/-! ## 3. The requests of a session -/

/-- The setting that a command made and that was not refused. -/
def LogEntry.accepted? (entry : LogEntry) : Option Request.Setting :=
  match entry.command, entry.reply with
  | .set _, .refused _ => none
  | .set setting, _ => some setting
  | _, _ => none

namespace Session

/-- The settings that commands made and that were not refused, in order. -/
def accepted (s : Session) (gs : List Given) : List Request.Setting :=
  (s.log gs).filterMap (·.accepted?)

/-- A command changes what a builder has gathered if it is a setting that is accepted. -/
theorem gathered_step {s : Session} {settings : List Request.Setting}
    (h : Request.Gathered settings s.builder) (g : Given) :
    Request.Gathered (settings ++ (s.accepted [g])) (s.step g.files g.command).1.builder := by
  obtain ⟨fs, c⟩ := g
  cases c with
  | set setting =>
    cases hs : s.builder.set fs setting with
    | ok builder =>
      have ha : s.accepted [⟨fs, .set setting⟩] = [setting] := by
        simp [accepted, log, step, hs, LogEntry.accepted?]
      have hb : (s.step fs (.set setting)).1.builder = builder := by simp [step, hs]
      rw [ha, hb]
      exact h.set hs
    | error e =>
      have ha : s.accepted [⟨fs, .set setting⟩] = [] := by
        simp [accepted, log, step, hs, LogEntry.accepted?]
      have hb : (s.step fs (.set setting)).1.builder = s.builder := by simp [step, hs]
      rw [ha, hb, List.append_nil]
      exact h
  | build | cancel => simpa [accepted, log, LogEntry.accepted?, step] using h
  | event i _ | deliver i _ | close i =>
    cases hr : s.requests[i]? <;>
      simpa [accepted, log, LogEntry.accepted?, step, hr, setStream] using h

theorem accepted_cons (s : Session) (g : Given) (gs : List Given) :
    s.accepted (g :: gs) = s.accepted [g] ++ (s.step g.files g.command).1.accepted gs := by
  rw [accepted, log, List.filterMap_cons]
  cases h : LogEntry.accepted? ⟨g, (s.step g.files g.command).2⟩ <;>
    simp [accepted, log, h]

/-- **What a builder has gathered** are the settings that it accepted. -/
theorem gathered_after {s : Session} {settings : List Request.Setting}
    (h : Request.Gathered settings s.builder) (gs : List Given) :
    Request.Gathered (settings ++ s.accepted gs) (s.after gs).builder := by
  induction gs generalizing s settings with
  | nil => simpa [accepted, log, after] using h
  | cons g gs ih =>
    rw [accepted_cons, ← List.append_assoc]
    exact ih (gathered_step h g)

/-- Only a build adds a request, and no command changes what one asks for. -/
theorem map_request_step (s : Session) (fs : Files) (c : Command) :
    (s.step fs c).1.requests.map (·.request) = s.requests.map (·.request) ∨
      c = .build ∧
        (s.step fs c).1.requests.map (·.request) = s.requests.map (·.request) ++ [s.builder] := by
  have hkeep (i : Nat) (stream : Stream) :
      (s.setStream i stream).requests.map (·.request) = s.requests.map (·.request) := by
    refine List.ext_getElem? fun j => ?_
    by_cases hj : i = j
    · subst hj
      cases hr : s.requests[i]? <;> simp [setStream, hr]
    · simp [setStream, hj]
  cases c with
  | build => exact .inr ⟨rfl, by simp [step]⟩
  | set setting => cases hs : s.builder.set fs setting <;> simp [step, hs]
  | cancel => exact .inl rfl
  | event i _ | deliver i _ | close i =>
    refine .inl ?_
    cases hr : s.requests[i]? with
    | none => simp [step, hr]
    | some r => simpa [step, hr] using hkeep i _

/-- **Every request was built**: it is what the builder had gathered at some build. -/
theorem exists_build_of_mem {s : Session} {gs : List Given} {r : OpenRequest}
    (h : r ∈ (s.after gs).requests) :
    r.request ∈ s.requests.map (·.request) ∨
      ∃ before fs rest, gs = before ++ ⟨fs, .build⟩ :: rest ∧
        r.request = (s.after before).builder := by
  induction gs generalizing s with
  | nil => exact .inl (List.mem_map_of_mem h)
  | cons g gs ih =>
    rcases ih h with hm | ⟨before, fs, rest, rfl, hr⟩
    · rcases map_request_step s g.files g.command with he | ⟨hc, he⟩
      · exact .inl (he ▸ hm)
      · rw [he] at hm
        rcases List.mem_append.mp hm with hm | hm
        · exact .inl hm
        · refine .inr ⟨[], g.files, gs, ?_, List.mem_singleton.mp hm⟩
          rw [← hc, List.nil_append]
    · exact .inr ⟨g :: before, fs, rest, rfl, hr⟩

/-- **What requests ask for.**

Whatever commands are given, refused or not, and whatever files there are meanwhile: a request that
was built has no tasks or a list of them that is not empty and has no path twice, and it has no
arguments of either kind or a list that is not empty.  A path of it is blank exactly if, of the
settings of the tasks that were accepted before it was built, the last was by handles of which one
names a blank path. -/
theorem lists_of_mem_requests (gs : List Given) :
    ∀ r ∈ (({} : Session).after gs).requests,
      (∀ paths, r.request.tasks = some paths → paths ≠ [] ∧ paths.Nodup) ∧
        r.request.jvmArguments ≠ some [] ∧ r.request.arguments ≠ some [] ∧
        ∃ before fs rest, gs = before ++ ⟨fs, .build⟩ :: rest ∧
          ((∃ paths, r.request.tasks = some paths ∧ ∃ path ∈ paths, isBlank path = true) ↔
            ∃ handles,
              Request.last? Request.Setting.named? (({} : Session).accepted before) =
                some (.launchables handles) ∧
              ∃ handle ∈ handles, ∃ path ∈ handle.paths, isBlank path = true) := by
  intro r hr
  rcases exists_build_of_mem hr with hm | ⟨before, fs, rest, hgs, hbuilt⟩
  · exact nomatch hm
  have h : Request.Gathered (({} : Session).accepted before) r.request := by
    rw [hbuilt]
    exact gathered_after (s := {}) Request.gathered_nil before
  refine ⟨fun paths hp => ?_, ?_, ?_, before, fs, rest, hgs, h.exists_blank_iff⟩
  · obtain ⟨rfl, hne⟩ := nonEmpty_eq_some.mp (h.tasks.symm.trans hp)
    exact ⟨hne, nodup_distinct _⟩
  · rw [h.jvmArguments]
    exact fun he => (nonEmpty_eq_some.mp he).2 rfl
  · rw [h.arguments]
    exact fun he => (nonEmpty_eq_some.mp he).2 rfl

/-! ### A handle for a blank path -/

namespace Blank

/-- Handles, one of which names a blank path; then a list of paths that is refused; then a build. -/
def commands : List Given :=
  [⟨.empty, .set (.launchables [.task ⟨":app", none⟩, .task ⟨" ", none⟩])⟩,
    ⟨.empty, .set (.tasks [" "])⟩, ⟨.empty, .build⟩]

/-- What is built. -/
def request : OpenRequest := { request := { tasks := some [":app", " "] } }

theorem mem_requests : request ∈ (({} : Session).after commands).requests :=
  List.mem_singleton_self _

end Blank

/-- **A blank path that a handle names** is in the request that is built, where the same path by
itself is refused. -/
theorem blankHandle_kept :
    (({} : Session).after Blank.commands).requests.map (·.request.tasks) = [some [":app", " "]] ∧
      isBlank " " = true ∧
      Request.set .empty {} (.tasks [" "]) = .error .blankTask :=
  ⟨rfl, by decide, rfl⟩

/-- The blank path came from handles. -/
theorem lists_blank :
    Blank.request ∈ (({} : Session).after Blank.commands).requests ∧
      ([":app", " "] : List TaskPath).Nodup ∧
      ∃ before fs rest, Blank.commands = before ++ ⟨fs, .build⟩ :: rest ∧
        ∃ handles,
          Request.last? Request.Setting.named? (({} : Session).accepted before) =
            some (.launchables handles) ∧
          ∃ handle ∈ handles, ∃ path ∈ handle.paths, isBlank path = true := by
  obtain ⟨htasks, -, -, before, fs, rest, hgs, hblank⟩ :=
    lists_of_mem_requests Blank.commands Blank.request Blank.mem_requests
  have hhas : ∃ paths, Blank.request.request.tasks = some paths ∧
      ∃ path ∈ paths, isBlank path = true := ⟨_, rfl, " ", by decide, by decide⟩
  exact ⟨Blank.mem_requests, (htasks _ rfl).2, before, fs, rest, hgs, hblank.mp hhas⟩

end Session

end BuildStream
