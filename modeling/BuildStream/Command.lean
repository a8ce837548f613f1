/-
# Commands

Carrying out what the command line asks for: the working directory is entered, the configuration is
loaded, and then the command does its work.
-/
import BuildStream.Command.Completions
import BuildStream.Command.Run
import BuildStream.Command.Tasks

namespace BuildStream

namespace Invocation

/-- The files as seen from the directory to work in. -/
def enter (inv : Invocation) (fs : Files) : Except CommandError Files :=
  match inv.directory with
  | none => .ok fs
  | some path =>
    match fs.enter path with
    | .ok fs => .ok fs
    | .error e => .error (.file e)

/-- Carries out what is asked for. -/
def perform (s : Surroundings) (inv : Invocation) : Except CommandError CommandResult := do
  let fs ← inv.enter s.files
  let (config, path) ← inv.loadConfig fs
  match inv.order with
  | .run a => a.run s fs inv config
  | .tasks all => return Tasks.list s inv all config path
  | .completions shell output => Completion.write s fs inv shell output config

end Invocation

end BuildStream
