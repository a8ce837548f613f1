/-
# Descriptors of operations

What an event tells about the operation it belongs to: its id, its names, the id of the operation
around it, and details that depend on its kind.  A descriptor refers to its parent by id alone.
-/
import BuildStream.Identity
import BuildStream.TaskPath

namespace BuildStream

/-- What a descriptor tells about its kind of operation. -/
inductive Details where
  | build
  | task (path : TaskPath) (project : String) (description : Option String)
  | test (suite : Option String) (className : Option String) (method : Option String)
deriving DecidableEq, Repr

/-- The description of one occurrence of an operation. -/
structure Descriptor where
  id : OperationId
  name : String
  displayName : String
  parent : Option OperationId
  details : Details
deriving DecidableEq, Repr

namespace Descriptor

/-- The kind of operation described.  It is that of the details; the id may claim another. -/
def kind (d : Descriptor) : OperationKind :=
  match d.details with
  | .build => .build
  | .task .. => .task
  | .test .. => .test

/-- The path of a described task. -/
def taskPath? (d : Descriptor) : Option TaskPath :=
  match d.details with
  | .task path _ _ => some path
  | _ => none

/-- The name every build is shown under. -/
def buildName : String := "Run build"

/-- The name a task is shown under. -/
def taskName (path : TaskPath) : String := "Task " ++ path

/-- The name a test is shown under. -/
def testName (name : String) : Option String → String
  | some className => "Test " ++ name ++ "(" ++ className ++ ")"
  | none => "Test " ++ name

/-- A whole build. -/
def ofBuild (id : OperationId) : Descriptor where
  id := id
  name := buildName
  displayName := buildName
  parent := none
  details := .build

/-- One run of a task. -/
def ofTask (id : OperationId) (path : TaskPath) (description : Option String)
    (parent : Option OperationId) : Descriptor where
  id := id
  name := path.name
  displayName := taskName path
  parent := parent
  details := .task path path.project description

/-- One run of a test. -/
def ofTest (id : OperationId) (name : String) (className : Option String)
    (parent : Option OperationId) : Descriptor where
  id := id
  name := name
  displayName := testName name className
  parent := parent
  details := .test none className (some name)

end Descriptor

end BuildStream
