/-
# Traces of events

The line that is logged for an event before it is passed on: its level, its message and, for a
change of the status line, the operation it belongs to.
-/
import BuildStream.Event
import BuildStream.Seconds

namespace BuildStream

/-- How much attention a line asks for. -/
inductive TraceLevel where
  | error
  | warn
  | info
  | debug
deriving DecidableEq, Repr

namespace TraceLevel

/-- The level's name. -/
def text : TraceLevel → String
  | error => "ERROR"
  | warn => "WARN"
  | info => "INFO"
  | debug => "DEBUG"

end TraceLevel

/-- A line of a trace. -/
structure TraceLine where
  level : TraceLevel
  message : String
  /-- The operation that the line belongs to, if it is given apart. -/
  operation : Option OperationId := none
deriving DecidableEq, Repr

namespace TraceLine

/-- The line as text. -/
def text (l : TraceLine) : String :=
  l.level.text ++ " " ++ l.message ++
    match l.operation with
    | some id => " operation=" ++ id.text
    | none => ""

/-- The seconds of a result. -/
def elapsed (r : OperationResult) : String := signedSeconds r.millis ++ "s"

/-- The line of a finished operation. -/
def ofResult (d : Descriptor) (r : OperationResult) : TraceLine :=
  match r.ending with
  | .failed causes =>
    let reason := (causes.head?.map (·.message)).getD "unknown failure"
    ⟨.error, d.displayName ++ " failed after " ++ elapsed r ++ ": " ++ reason, none⟩
  | .skipped reason => ⟨.info, d.displayName ++ " skipped: " ++ reason, none⟩
  | .cancelled => ⟨.warn, d.displayName ++ " cancelled after " ++ elapsed r, none⟩
  | .success _ =>
    ⟨.info, d.displayName ++ " " ++ r.ending.word ++ " in " ++ elapsed r, none⟩

/-- The line of an event. -/
def ofEvent : Event → TraceLine
  | .progress ⟨_, d, .started⟩ => ⟨.info, "Starting " ++ d.displayName, none⟩
  | .progress ⟨_, d, .finished r⟩ => ofResult d r
  | .status ⟨_, .started id description⟩ => ⟨.debug, "> " ++ description, some id⟩
  | .status ⟨_, .finished id⟩ => ⟨.debug, "<", some id⟩

end TraceLine

end BuildStream
