/-
# Levels of a command line

The arguments of a command line stand on levels: those of the program, and behind the name of a
command those of the command.  A level knows its options, how many words it takes, and the
commands below it.  Its arguments are read from left to right, and the first that is wrong, or
asks for help or the version, ends everything.

* `--name`, `--name=value`, `-n`, `-nvalue` and `-n=value` give options; letters of flags may stand
  together.  An option that lacks its value takes the next argument, unless that looks like an
  option itself and the option does not take such values.
* `--` ends the options; only words follow.

A value that was read is looked at when the next option or word is read, or when the level ends.
So a level with a command below it looks at its last value after the whole of that command.
-/
import BuildStream.CommandLine

namespace BuildStream

namespace CommandLine

/-! ## 1. Rules -/

/-- What an option is followed by. -/
inductive OptionKind where
  /-- Nothing; it may be given once. -/
  | flag
  /-- A value; it may be given once. -/
  | value (accepts : String → Bool)
  /-- Any text, also one that looks like an option; it may be given again. -/
  | texts
  /-- Nothing; it ends everything. -/
  | stops (stop : Stop)

/-- An option. -/
structure OptionRule where
  name : String
  letter : Option Char := none
  kind : OptionKind := .flag

namespace OptionRule

/-- Whether a value follows. -/
def hasValue (o : OptionRule) : Bool :=
  match o.kind with
  | .value _ => true
  | .texts => true
  | .flag => false
  | .stops _ => false

/-- Whether the option takes an argument that looks like an option. -/
def takesAnything (o : OptionRule) : Bool :=
  match o.kind with
  | .texts => true
  | _ => false

end OptionRule

/-- The words of a level. -/
inductive WordRule where
  | none
  | one (accepts : String → Bool)
  | many

/-- A level. -/
structure Level where
  options : List OptionRule
  words : WordRule := .none
  /-- The commands below it. -/
  commands : List String := []

namespace Level

/-- The option of a name. -/
def named? (l : Level) (name : String) : Option OptionRule := l.options.find? (·.name == name)

/-- The option of a letter. -/
def lettered? (l : Level) (letter : Char) : Option OptionRule :=
  l.options.find? (·.letter == some letter)

end Level

/-! ## 2. What was read -/

/-- What was read of a level. -/
structure Reading where
  /-- The options and their values; those of flags are empty. -/
  given : List (String × String) := []
  words : List String := []
  /-- The value that was read last, if nobody has looked at it yet. -/
  unchecked : Option (OptionRule × String) := none

namespace Reading

/-- Whether an option was given. -/
def has (r : Reading) (name : String) : Bool := (r.given.lookup name).isSome

/-- The value of an option. -/
def value? (r : Reading) (name : String) : Option String := r.given.lookup name

/-- The values of an option that may be given again. -/
def values (r : Reading) (name : String) : List String :=
  (r.given.filter (·.1 == name)).map (·.2)

/-- Looks at the value of an option. -/
def accept (r : Reading) (o : OptionRule) (value : String) : Except Stop Reading :=
  let taken : Reading := { r with given := r.given ++ [(o.name, value)] }
  match o.kind with
  | .stops stop => .error stop
  | .texts => .ok taken
  | .flag => if r.has o.name then .error .usage else .ok taken
  | .value accepts => if r.has o.name || !accepts value then .error .usage else .ok taken

/-- Looks at the value that was read last. -/
def settle (r : Reading) : Except Stop Reading :=
  match r.unchecked with
  | none => .ok r
  | some (o, value) => { r with unchecked := none }.accept o value

/-- An option with its value. -/
def give (r : Reading) (o : OptionRule) (value : String) : Except Stop Reading :=
  r.settle.bind fun r => r.accept o value

/-- A word. -/
def word (l : Level) (r : Reading) (text : String) : Except Stop Reading :=
  match r.settle with
  | .error stop => .error stop
  | .ok r =>
    let taken : Reading := { r with words := r.words ++ [text] }
    match l.words with
    | .none => .error .usage
    | .one accepts => if r.words.isEmpty && accepts text then .ok taken else .error .usage
    | .many => .ok taken

/-- Words alone. -/
def onlyWords (l : Level) : Reading → List String → Except Stop Reading
  | r, [] => .ok r
  | r, a :: as =>
    match r.word l a with
    | .error stop => .error stop
    | .ok r => onlyWords l r as

/-! ## 3. One argument -/

/-- What an argument leaves: a reading, and the option that still lacks its value. -/
abbrev Step := Reading × Option OptionRule

/-- An option that still lacks its value. -/
def await (r : Reading) (o : OptionRule) : Except Stop Step := r.settle.map (·, some o)

/-- A value behind a letter; an equals sign between them is no part of it. -/
def attached : List Char → String
  | '=' :: cs => String.ofList cs
  | cs => String.ofList cs

/-- The letters behind a dash. -/
def letters (l : Level) : Reading → List Char → Except Stop Step
  | r, [] => .ok (r, none)
  | r, c :: cs =>
    match l.lettered? c with
    | none => .error .usage
    | some o =>
      if o.hasValue then
        if cs.isEmpty then r.await o else (r.give o (attached cs)).map (·, none)
      else
        match r.give o "" with
        | .error stop => .error stop
        | .ok r => letters l r cs

/-- What stands behind two dashes. -/
def long (l : Level) (r : Reading) (text : String) : Except Stop Step :=
  let name := text.toList.takeWhile (· ≠ '=')
  let value? :=
    match text.toList.drop name.length with
    | [] => none
    | _ :: cs => some (String.ofList cs)
  match l.named? (String.ofList name) with
  | none => .error .usage
  | some o =>
    match value?, o.hasValue with
    | some value, true => (r.give o value).map (·, none)
    | none, true => r.await o
    | none, false => (r.give o "").map (·, none)
    | some _, false => .error .usage

/-- Whether an argument looks like an option. -/
def looksLikeOption (text : String) : Bool := text.startsWith "-" && text ≠ "-"

/-- An argument that is neither a command nor the end of the options. -/
def argument (l : Level) (r : Reading) (text : String) : Except Stop Step :=
  match text.toList with
  | '-' :: '-' :: cs => r.long l (String.ofList cs)
  | '-' :: c :: cs => r.letters l (c :: cs)
  | _ => (r.word l text).map (·, none)

/-! ## 4. All arguments -/

/-- Reads arguments until they end or a command is named; it comes with the arguments behind it.
`waiting` is an option that lacks its value. -/
def read (l : Level) : Reading → Option OptionRule → List String →
    Except Stop (Reading × Option (String × List String))
  | r, none, [] => .ok (r, none)
  | _, some _, [] => .error .usage
  | r, some o, a :: as =>
    if o.takesAnything || !looksLikeOption a then
      read l { r with unchecked := some (o, a) } none as
    else .error .usage
  | r, none, a :: as =>
    if l.commands.contains a then .ok (r, some (a, as))
    else if a = "--" then (r.onlyWords l as).map (·, none)
    else
      match r.argument l a with
      | .error stop => .error stop
      | .ok (r, waiting) => read l r waiting as

end Reading

namespace Level

/-- Reads the arguments of a level. -/
def read (l : Level) (arguments : List String) :
    Except Stop (Reading × Option (String × List String)) :=
  Reading.read l {} none arguments

end Level

end CommandLine

end BuildStream
