/-
# Orders of execution

Nodes are put in an order in which every task comes after its dependencies.  Each node counts the
dependencies that are still ahead of it; a node with none is ready and waits in a queue.  Taking
the first of the queue lowers the count of the nodes that depend on it, and those that become ready
join the queue in the order of their declaration.

Every step takes one node that was never taken before, so there are no more steps than nodes.  The
nodes left over are those from which a cycle can be reached.
-/
import BuildStream.Plan.Closure

namespace BuildStream

/-- A node that waits for some of its dependencies. -/
structure Waiting where
  node : PlanNode
  /-- How many dependencies were not taken yet. -/
  degree : Nat
deriving DecidableEq, Repr

/-- An order that is being made. -/
structure TaskOrder where
  /-- All nodes in the order of declaration, with what they still wait for. -/
  waiting : List Waiting
  queue : List TaskPath
  sorted : List TaskPath := []
deriving DecidableEq, Repr

namespace TaskOrder

/-- The start: nodes without dependencies are ready. -/
def start (declared : List PlanNode) : TaskOrder where
  waiting := declared.map fun n => ⟨n, n.dependencies.length⟩
  queue := (declared.filter fun n => n.dependencies.isEmpty).map (·.path)

/-- A node after a path was taken. -/
def lower (taken : TaskPath) (w : Waiting) : Waiting :=
  if w.node.dependencies.contains taken then { w with degree := w.degree - 1 } else w

/-- Whether taking a path makes a node ready. -/
def becomesReady (taken : TaskPath) (w : Waiting) : Bool :=
  w.node.dependencies.contains taken && w.degree - 1 == 0

/-- Takes the first path of the queue. -/
def step (o : TaskOrder) : TaskOrder :=
  match o.queue with
  | [] => o
  | taken :: queue =>
    { waiting := o.waiting.map (lower taken)
      queue := queue ++ (o.waiting.filter (becomesReady taken)).map (·.node.path)
      sorted := o.sorted ++ [taken] }

/-- Takes paths until the queue is empty, at most so many. -/
def run : Nat → TaskOrder → TaskOrder
  | 0, o => o
  | fuel + 1, o => if o.queue.isEmpty then o else run fuel o.step

/-- The paths of nodes, given in the order of declaration, with dependencies first. -/
def sort (declared : List PlanNode) : Except PlanError (List TaskPath) :=
  let final := run declared.length (start declared)
  if final.sorted.length = declared.length then .ok final.sorted
  else
    .error (.cyclic ((declared.map (·.path)).filter fun path => !final.sorted.contains path))

end TaskOrder

end BuildStream
