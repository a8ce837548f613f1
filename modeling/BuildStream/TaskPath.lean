/-
# Task paths

A task is addressed by the projects that enclose it and its own name, each after a colon:
`:app:compile` is the task `compile` of the project `:app`, and `:compile` a task of the root
project `:`.  Two views of such a text are kept side by side.

* `TaskPath.split` cuts at the LAST colon, once: what is before it is the project, what is after
  it the name.
* `TaskPath.segments` cuts at EVERY colon; its last member is again the name.

Nothing is assumed of the text.  One without a colon is a name in the root project, and an empty
project stands for the root.
-/
namespace BuildStream

/-- The address of a task, such as `:app:compile`. -/
abbrev TaskPath := String

/-! ## 1. The last colon -/

/-- What stands before and after the last colon, if there is one. -/
def lastColon : List Char → Option (List Char × List Char)
  | [] => none
  | c :: cs =>
    match lastColon cs with
    | some (before, after) => some (c :: before, after)
    | none => if c = ':' then some ([], cs) else none

namespace TaskPath

/-- The path of the root project. -/
def root : String := ":"

/-- The owning project and the task's own name. -/
def split (path : TaskPath) : String × String :=
  match lastColon path.toList with
  | some ([], name) => (root, String.ofList name)
  | some (project, name) => (String.ofList project, String.ofList name)
  | none => (root, path)

/-- The path of the owning project. -/
def project (path : TaskPath) : String := (split path).1

/-- The task's own name, the last part of its path. -/
def name (path : TaskPath) : String := (split path).2

/-- Whether the text is rooted, that is, addresses one task and not every task of a name. -/
def isRooted (path : TaskPath) : Bool := path.toList.head? == some ':'

/-! ## 2. Every colon -/

/-- The characters between the colons, from left to right. -/
def segmentChars : List Char → List (List Char)
  | [] => [[]]
  | c :: cs =>
    if c = ':' then [] :: segmentChars cs
    else
      match segmentChars cs with
      | [] => [[c]]
      | s :: ss => (c :: s) :: ss

/-- The parts of a path between its colons; a rooted path starts with an empty one. -/
def segments (path : TaskPath) : List String :=
  (segmentChars path.toList).map String.ofList

/-- The part after the last colon, or the whole text if it has none. -/
def lastSegment (path : TaskPath) : String := (segments path).getLastD ""

end TaskPath

end BuildStream
