/-
# Reading the command line

The levels of this program and what their options mean.  The options of the program may also stand
on the level of the command; what stands there counts first.  A configuration file may be named by
the environment too, which counts last, but has to be a path all the same on every level that does
not name one itself.
-/
import BuildStream.CommandLine.Level

namespace BuildStream

namespace CommandLine

/-! ## 1. Values -/

/-- Whether a text is a path. -/
def isPath (text : String) : Bool := !text.isEmpty

/-- A natural number of 64 bits; a plus sign may stand before it. -/
def natural? (text : String) : Option UInt64 :=
  let digits :=
    match text.toList with
    | '+' :: cs => cs
    | cs => cs
  if digits.isEmpty || !digits.all Char.isDigit then none
  else
    let n := digits.foldl (fun n c => n * 10 + (c.toNat - '0'.toNat)) 0
    if n < UInt64.size then some n.toUInt64 else none

/-! ## 2. Levels -/

/-- The options on every level. -/
def commonOptions : List OptionRule :=
  [⟨"verbose", some 'v', .flag⟩, ⟨"quiet", some 'q', .flag⟩,
    ⟨"format", none, .value fun s => (OutputFormat.ofName? s).isSome⟩,
    ⟨"directory", some 'C', .value isPath⟩, ⟨"config", none, .value isPath⟩,
    ⟨"help", some 'h', .stops .help⟩, ⟨"version", some 'V', .stops .version⟩]

/-- The level of running tasks. -/
def runLevel : Level where
  options := commonOptions ++
    [⟨"java-home", none, .value isPath⟩, ⟨"jvm-arg", none, .texts⟩, ⟨"arg", none, .texts⟩,
      ⟨"cancel-after", none, .value fun s => (natural? s).isSome⟩, ⟨"continue", none, .flag⟩,
      ⟨"concurrency", none, .value fun s => (natural? s).isSome⟩,
      ⟨"no-task-events", none, .flag⟩]
  words := .many

/-- The level of listing tasks. -/
def tasksLevel : Level where
  options := commonOptions ++ [⟨"all", none, .flag⟩]

/-- The level of completions. -/
def completionsLevel : Level where
  options := commonOptions ++ [⟨"output", some 'o', .value isPath⟩]
  words := .one fun s => (Shell.ofName? s).isSome

/-! ## 3. Commands -/

/-- A command: its name, its level, and what is asked for by what was read there. -/
structure CommandRule where
  name : String
  level : Level
  order? : Reading → Option Order

/-- What a run is asked for. -/
def runArguments (r : Reading) : RunArguments where
  tasks := r.words
  javaHome := r.value? "java-home"
  jvmArguments := r.values "jvm-arg"
  arguments := r.values "arg"
  cancelAfter := ((r.value? "cancel-after").bind natural?).map UInt64.toNat
  continueOnError := r.has "continue"
  concurrency := (r.value? "concurrency").bind natural?
  noTaskEvents := r.has "no-task-events"

/-- The commands of the program.  Completions need the name of a shell. -/
def commands : List CommandRule :=
  [⟨"run", runLevel, fun r => some (.run (runArguments r))⟩,
    ⟨"tasks", tasksLevel, fun r => some (.tasks (r.has "all"))⟩,
    ⟨"completions", completionsLevel, fun r =>
      (r.words.head?.bind Shell.ofName?).map fun shell =>
        .completions shell (r.value? "output")⟩]

/-- The command that shows help on others. -/
def helpCommand : String := "help"

/-- The level of the program. -/
def topLevel : Level where
  options := commonOptions
  commands := commands.map (·.name) ++ [helpCommand]

/-- Whether there is help on what the names lead to. -/
def hasHelp : List String → Bool
  | [] => true
  | [name] => topLevel.commands.contains name
  | _ => false

/-! ## 4. Invocations -/

/-- The end of a level: its last value is looked at, and so is a path of the environment. -/
def close (environment : Option String) (r : Reading) : Except Stop Reading :=
  match r.settle with
  | .error stop => .error stop
  | .ok r =>
    if !r.has "config" && environment.any (!isPath ·) then .error .usage else .ok r

/-- What is asked for, given what was read on the level of the program and below it. -/
def invocation (environment : Option String) (top below : Reading) (order : Order) :
    Invocation :=
  let value? (name : String) : Option String := (below.value? name).or (top.value? name)
  { verbose := below.has "verbose" || top.has "verbose"
    quiet := below.has "quiet" || top.has "quiet"
    format := ((value? "format").bind OutputFormat.ofName?).getD .text
    directory := value? "directory"
    config := (value? "config").or environment
    order }

/-- Reads the arguments of a command, given what was read before its name. -/
def readCommand (environment : Option String) (top : Reading) (command : CommandRule)
    (arguments : List String) : Except Stop Invocation := do
  let (below, _) ← command.level.read arguments
  let below ← close environment below
  match command.order? below with
  | none => .error .usage
  | some order =>
    let top ← close environment top
    return invocation environment top below order

/-- Reads the arguments of the program, given the configuration file that the environment
names. -/
def read (environment : Option String) (arguments : List String) : Except Stop Invocation :=
  match topLevel.read arguments with
  | .error stop => .error stop
  | .ok (_, none) => .error .usage
  | .ok (top, some (name, rest)) =>
    if name = helpCommand then .error (if hasHelp rest then .help else .usage)
    else
      match commands.find? (·.name == name) with
      | some command => readCommand environment top command rest
      | none => .error .usage

end CommandLine

end BuildStream
