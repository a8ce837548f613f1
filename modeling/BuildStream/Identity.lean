/-
# Identity of operations

Every run of a build, a task or a test is an occurrence of its own.  A generator stamps the
occurrences of one build: the stamp holds the generator's scope and a sequence number, and a
run's id is its kind with its stamp.  Scopes are handed out one after the other, so two
generators never give the same stamp, and the ids of two runs differ even if the runs are of the
same task.
-/
import BuildStream.Decode

namespace BuildStream

/-- What kind of operation an event is about. -/
inductive OperationKind where
  | build
  | task
  | test
deriving DecidableEq, Repr

namespace OperationKind

/-- The kind's name. -/
def text : OperationKind → String
  | build => "build"
  | task => "task"
  | test => "test"

/-- The kinds by name. -/
def byName : List (String × OperationKind) := [("build", build), ("task", task), ("test", test)]

end OperationKind

/-- The stamp of one occurrence. -/
structure Stamp where
  scope : UInt64
  sequence : UInt64
deriving DecidableEq, Repr

/-- What a run shows of itself: its kind and its stamp.  What is inside a run holds a copy of it. -/
structure Handle where
  kind : OperationKind
  stamp : Stamp
deriving DecidableEq, Repr

/-- The id shared by the events of one occurrence. -/
structure OperationId where
  kind : OperationKind
  scope : UInt64
  sequence : UInt64
deriving DecidableEq, Repr

namespace OperationId

/-- The id of a run of a kind that carries a stamp, whoever asks for it. -/
def ofStamp (kind : OperationKind) (stamp : Stamp) : OperationId :=
  ⟨kind, stamp.scope, stamp.sequence⟩

/-- The id as a text, such as `task:1.2`. -/
def text (id : OperationId) : String :=
  id.kind.text ++ ":" ++ Nat.repr id.scope.toNat ++ "." ++ Nat.repr id.sequence.toNat

end OperationId

/-- A source of stamps with a scope of its own. -/
structure Generator where
  scope : UInt64
  next : UInt64
deriving DecidableEq, Repr

namespace Generator

/-- The next stamp, and the generator after it. -/
def allocate (g : Generator) : Stamp × Generator :=
  (⟨g.scope, g.next⟩, { g with next := g.next + 1 })

/-- The id of a run.  It is made of the run's own stamp, so the generator that is asked does not
matter. -/
def idFor (_ : Generator) (run : Handle) : OperationId := .ofStamp run.kind run.stamp

end Generator

/-- The scopes handed out so far. -/
structure Scopes where
  next : UInt64 := 1
deriving DecidableEq, Repr

namespace Scopes

/-- A generator with a fresh scope. -/
def generator (s : Scopes) : Generator × Scopes :=
  (⟨s.next, 1⟩, ⟨s.next + 1⟩)

end Scopes

/-- The counters of a process: that of the scopes, and those of all generators that were created. -/
structure Counters where
  scopes : Scopes := {}
  generators : List Generator := []
deriving DecidableEq, Repr

namespace Counters

/-- What may be asked of the counters, by anybody and at any time. -/
inductive Call where
  | create
  /-- A stamp from the generator that was created after so many others. -/
  | allocate (i : Nat)
deriving DecidableEq, Repr

/-- The counters after a call, and the stamp that it hands out.  Every counter is read and increased
at once, so calls that are made at the same time come one after the other. -/
def call (c : Counters) : Call → Counters × Option Stamp
  | .create =>
    let (g, scopes) := c.scopes.generator
    ({ scopes, generators := c.generators ++ [g] }, none)
  | .allocate i =>
    match c.generators[i]? with
    | none => (c, none)
    | some g =>
      let (stamp, g) := g.allocate
      ({ c with generators := c.generators.set i g }, some stamp)

/-- The counters after some calls. -/
def after (c : Counters) (calls : List Call) : Counters := calls.foldl (fun c k => (c.call k).1) c

/-- The stamps that some calls hand out, in order. -/
def stamps (c : Counters) : List Call → List Stamp
  | [] => []
  | k :: calls => (c.call k).2.toList ++ (c.call k).1.stamps calls

end Counters

end BuildStream
