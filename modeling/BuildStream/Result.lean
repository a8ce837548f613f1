/-
# Results of operations

How a finished operation ended, and when it began and ended.  An operation that was skipped counts
as a success; only builds are cancelled.
-/
import BuildStream.Failure
import BuildStream.Timestamp

namespace BuildStream

/-- How an operation ended. -/
inductive Ending where
  | success (upToDate : Bool)
  | skipped (reason : String)
  | failed (causes : List Failure)
  | cancelled
deriving Repr, BEq

/-- The result of a finished operation. -/
structure OperationResult where
  startTime : Timestamp
  endTime : Timestamp
  ending : Ending
deriving Repr, BEq

namespace Ending

/-- The word for an ending. -/
def word : Ending → String
  | success true => "up-to-date"
  | success false => "succeeded"
  | skipped _ => "skipped"
  | failed _ => "failed"
  | cancelled => "cancelled"

/-- Whether an ending counts as a success. -/
def isSuccess : Ending → Bool
  | success _ => true
  | skipped _ => true
  | failed _ => false
  | cancelled => false

/-- The causes of a failed operation. -/
def failures : Ending → List Failure
  | failed causes => causes
  | _ => []

end Ending

namespace OperationResult

/-- The milliseconds between start and end, toward zero. -/
def millis (r : OperationResult) : Int := Timestamp.millisBetween r.startTime r.endTime

end OperationResult

end BuildStream
