/-
# What a command asks the file system

The addresses that a command looks at, as far as they follow from what is known of the files.  The
directory to work in comes first, then the configuration, then what the configuration names: when
all addresses of one round are known, the next round may ask for more, and after three rounds there
is nothing left to ask.
-/
import BuildStream.Command

namespace BuildStream

namespace Files

/-- The addresses that a walk comes by, whatever stands there. -/
def passed (at_ : List String) : List String → List (List String)
  | [] => [at_]
  | c :: cs =>
    if c = "" ∨ c = "." then passed at_ cs
    else if c = ".." then at_ :: passed at_.dropLast cs
    else at_ :: passed (at_ ++ [c]) cs

/-- The addresses that are looked at to resolve a path. -/
def asked (fs : Files) (path : String) : List (List String) :=
  passed (fs.startOf path) (components path)

end Files

namespace Invocation

/-- How many rounds of questions there are. -/
def rounds : Nat := 3

/-- The paths at which the configuration is looked for. -/
def configPaths (inv : Invocation) (fs : Files) : List String :=
  match inv.config with
  | some path => [path]
  | none => (Config.ancestors fs.workingPath).flatMap Config.candidates

/-- The Java home of the configuration that will be used. -/
def configuredHome (inv : Invocation) (fs : Files) : Option String :=
  match (inv.configPaths fs).find? fs.pathExists with
  | none => none
  | some path =>
    match Config.read fs path with
    | .ok c => c.build.javaHome
    | .error _ => none

/-- The paths that the command itself names. -/
def orderPaths (inv : Invocation) : List String :=
  match inv.order with
  | .run a => a.javaHome.toList
  | .tasks _ => []
  | .completions _ output => output.toList

/-- The addresses that are asked for, given what is known. -/
def asked (inv : Invocation) (fs : Files) : List (List String) :=
  let first := (inv.directory.toList.flatMap fs.asked) ++ fs.asked "."
  match inv.enter fs with
  | .error _ => first
  | .ok entered =>
    first ++ (inv.configPaths entered ++ inv.orderPaths ++
      (inv.configuredHome entered).toList).flatMap entered.asked

end Invocation

end BuildStream
