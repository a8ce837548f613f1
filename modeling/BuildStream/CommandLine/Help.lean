/-
# Help on the command line

What is printed when the arguments ask for help or are wrong: the commands and the options, taken
from the same rules that read them.
-/
import BuildStream.CommandLine.Reader
import BuildStream.Console

namespace BuildStream

namespace CommandLine

/-- The version of the program. -/
def version : String := "0.1.0"

/-- An option as it is written. -/
def OptionRule.usage (o : OptionRule) : String :=
  let letter :=
    match o.letter with
    | some c => "-" ++ String.singleton c ++ ", "
    | none => "    "
  letter ++ "--" ++ o.name ++ (if o.hasValue then " <value>" else "")

/-- The lines on a level. -/
def levelLines (l : Level) : List String := l.options.map fun o => "  " ++ o.usage

/-- The lines on the whole program. -/
def helpLines (program : String) : List String :=
  ["Usage: " ++ program ++ " [options] <command>", "", "Options:"] ++ levelLines topLevel ++
    commands.flatMap fun c => ["", c.name ++ ":"] ++ levelLines c.level

/-- What is printed when there is nothing to carry out. -/
def stopLines (program : String) : Stop → List Line
  | .help => (helpLines program).map Console.line
  | .version => [Console.line (program ++ " " ++ version)]
  | .usage => (helpLines program).map fun text => { channel := .err, text }

end CommandLine

end BuildStream
