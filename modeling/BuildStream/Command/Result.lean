/-
# Results of commands

What a command is given, and what comes of it.  A command that could be carried out has an exit
code, lines to print and perhaps a file to write; one that could not has an error with an exit
code of its own.
-/
import BuildStream.Completion
import BuildStream.Config.Load
import BuildStream.Console
import BuildStream.Request
import BuildStream.Schedule

namespace BuildStream

/-- What a command is given beside its arguments. -/
structure Surroundings where
  files : Files
  /-- The name of the program. -/
  program : String
  /-- When it starts. -/
  start : Timestamp
  /-- The machine that it runs on. -/
  runtime : Runtime
  /-- Whether lines may be coloured. -/
  hasColors : Bool := false

/-- How the program ended. -/
inductive ExitCode where
  | success
  | failure
  | wrongConfig
  | refusedRequest
  | failedBuild
  | brokenDown
  | cancelledBuild
deriving DecidableEq, Repr

namespace ExitCode

/-- The number of an exit code. -/
def number : ExitCode → Nat
  | success => 0
  | failure => 1
  | wrongConfig => 2
  | refusedRequest => 3
  | failedBuild => 4
  | brokenDown => 101
  | cancelledBuild => 130

end ExitCode

namespace Stop

/-- The exit code when there is nothing to carry out. -/
def exitNumber : Stop → Nat
  | help => 0
  | version => 0
  | usage => 2

end Stop

/-- Why a command could not be carried out. -/
inductive CommandError where
  | request (error : RequestError)
  | config (error : ConfigError)
  | file (error : FileError)
deriving DecidableEq, Repr

namespace CommandError

/-- The error with its causes. -/
def chain : CommandError → ErrorChain
  | request e => .single e.message
  | config e => e.chain
  | file e => .single e.message

/-- The exit code of an error. -/
def exitCode : CommandError → ExitCode
  | request _ => .refusedRequest
  | config _ => .wrongConfig
  | file _ => .failure

/-- The lines that tell of an error. -/
def lines (e : CommandError) : List Line := [Console.error e.chain.line]

end CommandError

/-- What came of a command. -/
structure CommandResult where
  code : ExitCode := .success
  lines : List Line := []
  /-- A file that was written, with its address. -/
  written : Option (List String × String) := none
  /-- The completions that were made, if that was the command. -/
  completion : Option Completion := none

namespace Invocation

/-- The configuration that is named, or else the nearest one that can be used, with its path. -/
def loadConfig (inv : Invocation) (fs : Files) : Except CommandError (Config × Option String) :=
  match inv.config with
  | none => .ok (Config.loadOrDefault fs fs.workingPath)
  | some path =>
    match Config.load fs path with
    | .ok c => .ok (c, some path)
    | .error e => .error (.config e)

end Invocation

end BuildStream
