/-
# The program

Looks at the files that a command asks for, carries the command out, and then prints its lines,
each at its time, and writes its file.
-/
import BuildStream.Command.Asked
import BuildStream.CommandLine.Help

namespace BuildStream

namespace Program

/-- The name of the program. -/
def name : String := "buildlink"

/-- The variable of the environment that names a configuration file. -/
def configVariable : String := "BUILDLINK_CONFIG"

/-- An address as a path. -/
def pathOf (address : List String) : String := "/" ++ "/".intercalate address

/-- The system's number for an attempt to read a directory. -/
def isDirectoryNumber : UInt32 := 21

/-- What stands at an address. -/
def entryAt (address : List String) : IO (Option FileEntry) := do
  match ← (IO.FS.readBinFile (pathOf address)).toBaseIO with
  | .ok content => return some (.file content)
  | .error (.inappropriateType _ number _) =>
    return if number = isDirectoryNumber then some .directory else none
  | .error _ => return none

/-- The files with what stands at an address, unless that is known. -/
def look (fs : Files) (address : List String) : IO Files := do
  if (fs.entry? address).isSome then return fs
  match ← entryAt address with
  | some entry => return { fs with entries := (address, entry) :: fs.entries }
  | none => return fs

/-- The files that a command asks for. -/
def filesFor (inv : Invocation) : IO Files := do
  let place := (Files.components (← IO.currentDir).toString).filter (!·.isEmpty)
  let start : Files := { Files.empty with workingDirectory := place }
  let above := (List.range place.length).map fun n => place.take (n + 1)
  (List.range Invocation.rounds).foldlM (fun fs _ => (above ++ inv.asked fs).foldlM look fs) start

/-- How many bits are set in a digit of base sixteen. -/
def bitsOf (digit : Char) : Nat :=
  let value := if digit.isDigit then digit.toNat - '0'.toNat else digit.toNat - 'a'.toNat + 10
  value % 2 + value / 2 % 2 + value / 4 % 2 + value / 8

/-- How many processors the system lets the program use, if it tells: they are the bits that are set
in a line of the program's status. -/
def parallelism : IO (Option Nat) := do
  match ← (IO.FS.lines "/proc/self/status").toBaseIO with
  | .error _ => return none
  | .ok lines =>
    match lines.toList.find? (·.startsWith "Cpus_allowed:") with
    | none => return none
    | some line =>
      let digits := (line.drop "Cpus_allowed:".length).toString.toList.filter Char.isAlphanum
      match digits.foldl (fun n digit => n + bitsOf digit) 0 with
      | 0 => return none
      | processors + 1 => return some (processors + 1)

/-- The machine that the program runs on.  A configured task never makes its worker panic, so there
are no words for that. -/
def runtime : IO Runtime := return { parallelism := ← parallelism, lost := fun _ => "" }

/-- Prints lines, each at its time. -/
def play (lines : List Line) : IO Unit := do
  let start ← IO.monoMsNow
  for l in lines do
    let elapsed := (← IO.monoMsNow) - start
    if elapsed < l.millis then IO.sleep (l.millis - elapsed).toUInt32
    match l.channel with
    | .out => (← IO.getStdout).putStrLn l.text
    | .err => (← IO.getStderr).putStrLn l.text

/-- Carries out what is asked for. -/
def carryOut (inv : Invocation) : IO UInt32 := do
  let files ← filesFor inv
  match inv.perform { files, program := name, start := .epoch, runtime := ← runtime } with
  | .error e =>
    play e.lines
    return e.exitCode.number.toUInt32
  | .ok result =>
    if let some (address, content) := result.written then
      IO.FS.writeFile (pathOf address) content
    play result.lines
    return result.code.number.toUInt32

end Program

end BuildStream

open BuildStream

/-- Runs the program with its arguments. -/
def main (args : List String) : IO UInt32 := do
  match CommandLine.read (← IO.getEnv Program.configVariable) args with
  | .ok inv => Program.carryOut inv
  | .error stop =>
    Program.play (CommandLine.stopLines Program.name stop)
    return stop.exitNumber.toUInt32
