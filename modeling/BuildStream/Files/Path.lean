/-
# Paths as text

Joining a path with a name, dropping the last component of a path, and the extension of the name
it ends in.  Repeated slashes, a slash at the end and single dots are no components, except a dot
at the very start of a relative path; what is left of a path after dropping its last component
keeps its spelling.
-/
import BuildStream.Files

namespace BuildStream

namespace Path

/-- A path with a name after it. -/
def join (base name : String) : String :=
  if base.isEmpty ∨ base.endsWith "/" then base ++ name else base ++ "/" ++ name

/-- Whether a part of a path is a component: parts that are empty or a dot are not, a dot at the
start of a relative path excepted. -/
def isComponent (isFirst : Bool) (part : String) : Bool :=
  part ≠ "" && (isFirst || part ≠ ".")

/-- The parts without those at the end that are no components.  Whether they start with the first
part of a relative path has to be said. -/
def trimmed (isFirst : Bool) : List String → List String
  | [] => []
  | p :: ps =>
    match trimmed false ps with
    | [] => if isComponent isFirst p then [p] else []
    | kept => p :: kept

/-- Whether a path starts at the root. -/
def isAbsolute (path : String) : Bool := path.toList.head? == some '/'

/-- The parts of a path, behind the root if it starts there. -/
def parts (path : String) : List String :=
  if isAbsolute path then (Files.components path).drop 1 else Files.components path

/-- The path of some parts, from the root or not. -/
def ofParts (isAbsolute : Bool) (parts : List String) : String :=
  (if isAbsolute then "/" else "") ++ "/".intercalate parts

/-- The parts of a path up to its last component. -/
def trimmedParts (path : String) : List String := trimmed (!isAbsolute path) (parts path)

/-- The path without its last component; none if it has no component to drop. -/
def parent? (path : String) : Option String :=
  match trimmedParts path with
  | [] => none
  | kept => some (ofParts (isAbsolute path) (trimmed (!isAbsolute path) kept.dropLast))

/-- The last component, if it is a name. -/
def fileName? (path : String) : Option String :=
  match (trimmedParts path).getLast? with
  | some name => if name = "." ∨ name = ".." then none else some name
  | none => none

/-- What follows the last dot of the name, unless that dot is its first character. -/
def extension? (path : String) : Option String :=
  match fileName? path with
  | none => none
  | some name =>
    match (name.splitOn ".").reverse with
    | ext :: before =>
      if before.isEmpty ∨ before = [""] then none else some ext
    | [] => none

end Path

end BuildStream
