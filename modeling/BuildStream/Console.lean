/-
# Output on a console

The lines that are printed for people.  A line goes to one of two channels, problems to the error
channel and all else to the other, and a line about a build in progress is printed at its time.
-/
import BuildStream.Seconds

namespace BuildStream

/-- Where a line is printed. -/
inductive Channel where
  | out
  | err
deriving DecidableEq, Repr

/-- A printed line. -/
structure Line where
  channel : Channel := .out
  text : String
  /-- When it is printed, in milliseconds from the start. -/
  millis : Nat := 0
deriving DecidableEq, Repr

namespace Line

/-- The text of the lines of a channel. -/
def textOf (channel : Channel) (lines : List Line) : String :=
  String.join ((lines.filter (·.channel = channel)).map (·.text ++ "\n"))

/-- The lines, none of them before a time. -/
def notBefore (millis : Nat) (lines : List Line) : List Line :=
  lines.map fun l => { l with millis := max millis l.millis }

end Line

namespace Console

/-! ## 1. Lines -/

/-- A line of the usual channel. -/
def line (text : String) : Line := { text }

/-- A line of nothing. -/
def blank : Line := line ""

/-- A message of success. -/
def success (message : String) : Line := line ("✓ " ++ message)

/-- A message of failure. -/
def error (message : String) : Line := { channel := .err, text := "✗ " ++ message }

/-- A failure listed below another. -/
def subordinateError (message : String) : Line := { channel := .err, text := "  ✗ " ++ message }

/-- A warning. -/
def warning (message : String) : Line := line ("! " ++ message)

/-- A remark. -/
def info (message : String) : Line := line ("→ " ++ message)

/-! ## 2. Parts of lines -/

/-- A headline. -/
def header (text : String) : String := text

/-- A name and a value. -/
def keyValue (key value : String) : String := "  " ++ key ++ ": " ++ value

/-- A count of something. -/
def plural (count : Nat) (noun : String) : String :=
  if count = 1 then Nat.repr count ++ " " ++ noun else Nat.repr count ++ " " ++ noun ++ "s"

end Console

end BuildStream
