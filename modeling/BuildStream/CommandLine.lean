/-
# The command line

What the arguments of the program ask for: one of its commands, and a few options that every
command has.  The arguments may also ask for help or for the version instead, or be wrong; then
there is nothing to carry out.
-/
import BuildStream.TaskPath

namespace BuildStream

/-- Why there is nothing to carry out. -/
inductive Stop where
  | help
  | version
  /-- The arguments are wrong. -/
  | usage
deriving DecidableEq, Repr

/-- How results are printed. -/
inductive OutputFormat where
  | text
  | json
deriving DecidableEq, Repr

namespace OutputFormat

/-- The formats by their names. -/
def byName : List (String × OutputFormat) := [("text", text), ("json", json)]

/-- The format of a name. -/
def ofName? (name : String) : Option OutputFormat := byName.lookup name

end OutputFormat

/-- A shell that can complete command lines. -/
inductive Shell where
  | bash
  | elvish
  | fish
  | powershell
  | zsh
deriving DecidableEq, Repr

namespace Shell

/-- The shells by their names. -/
def byName : List (String × Shell) :=
  [("bash", bash), ("elvish", elvish), ("fish", fish), ("powershell", powershell), ("zsh", zsh)]

/-- The shell of a name. -/
def ofName? (name : String) : Option Shell := byName.lookup name

end Shell

/-- What to run, and how. -/
structure RunArguments where
  /-- The targets; none stands for the default tasks. -/
  tasks : List String := []
  javaHome : Option String := none
  jvmArguments : List String := []
  arguments : List String := []
  /-- The milliseconds after which cancellation is requested. -/
  cancelAfter : Option Nat := none
  continueOnError : Bool := false
  concurrency : Option UInt64 := none
  /-- Whether tasks and tests are left out of the output. -/
  noTaskEvents : Bool := false
deriving DecidableEq, Repr

/-- A command of the program. -/
inductive Order where
  | run (arguments : RunArguments)
  /-- Lists the tasks, with all launchables if asked. -/
  | tasks (all : Bool)
  /-- Writes what a shell needs to complete command lines, to a file if one is named. -/
  | completions (shell : Shell) (output : Option String)
deriving DecidableEq, Repr

/-- What the arguments ask for. -/
structure Invocation where
  verbose : Bool := false
  quiet : Bool := false
  format : OutputFormat := .text
  /-- The directory to work in. -/
  directory : Option String := none
  /-- The configuration file to use. -/
  config : Option String := none
  order : Order
deriving DecidableEq, Repr

end BuildStream
