/-
# Writing completions

The completions of the workspace, printed or written to a file.
-/
import BuildStream.Command.Result

namespace BuildStream

namespace Completion

/-- Prints completions, or writes them to a file. -/
def write (s : Surroundings) (fs : Files) (inv : Invocation) (shell : Shell)
    (output : Option String) (config : Config) : Except CommandError CommandResult :=
  let completion := ofWorkspace shell config.workspace
  let lines := (completion.script s.program).map Console.line
  match output with
  | none => .ok { lines, completion := some completion }
  | some path =>
    match fs.createAt path with
    | .error e => .error (.file e)
    | .ok address =>
      let told := if inv.quiet then [] else [Console.success ("Completions written to " ++ path)]
      .ok { lines := told, written := some (address, Line.textOf .out lines)
            completion := some completion }

end Completion

end BuildStream
