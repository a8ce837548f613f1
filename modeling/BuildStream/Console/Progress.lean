/-
# Progress on a console

The line that a console listener prints when it is told of an operation.  Tasks and tests are
indented by the operations in flight around them; the start of a test is shown on demand only, and
the end of the build is left to the report.
-/
import BuildStream.Console
import BuildStream.Stream.Delivery

namespace BuildStream

namespace Console

/-- The blanks before a line of an operation with so many around it. -/
def indent (depth : Nat) : String := String.join (List.replicate depth "  ")

/-- The line of an operation that starts. -/
def startLine (verbose : Bool) (kind : OperationKind) (indent text : String) : Option String :=
  match kind with
  | .build => some (info (header text)).text
  | .task => some (indent ++ "▸ " ++ text)
  | .test => if verbose then some (indent ++ "▸ " ++ text) else none

/-- The line of an operation that ended. -/
def endLine (indent text : String) (r : OperationResult) : String :=
  let elapsed := elapsedText r.millis.toNat
  match r.ending with
  | .success true => indent ++ "✓ " ++ text ++ " (up-to-date)"
  | .success false => indent ++ "✓ " ++ text ++ " " ++ elapsed
  | .skipped reason => indent ++ "○ " ++ text ++ " (" ++ reason ++ ")"
  | .failed causes =>
    let reason := (causes.head?.map (·.message)).getD ""
    indent ++ "✗ " ++ text ++ " " ++ elapsed ++ " " ++ reason
  | .cancelled => indent ++ "! " ++ text ++ " " ++ elapsed

/-- The line that a listener prints when it is called. -/
def progressLine (verbose : Bool) (c : Call) : Option String :=
  match c.notice with
  | .status _ => none
  | .operation text op progress =>
    let indent := indent c.ancestors.length
    let kind := op.descriptor.kind
    match progress.result? with
    | none => startLine verbose kind indent text
    | some r => if kind = .build then none else some (endLine indent text r)

end Console

end BuildStream
