/-
# Finding and loading a configuration

A configuration file is looked for in a directory and in the directories above it, the nearest one
first and in each of them by the preferred name first.  Directories are left by dropping the last
component of the path as it was given, so a relative path ends at the working directory.

Files named `.yaml` or `.yml` are read as YAML, all others as TOML.
-/
import BuildStream.Config.Decode
import BuildStream.Config.Template
import BuildStream.Config.Validation
import BuildStream.Failure
import BuildStream.Files.Path
import BuildStream.Toml.Reader
import BuildStream.Yaml.Reader

namespace BuildStream

/-- Why no configuration could be loaded. -/
inductive ConfigError where
  | notFound (directory : String)
  | invalid (violation : Violation)
  | notYaml
  | notToml
  | unreadable (e : FileError)
deriving DecidableEq, Repr

namespace ConfigError

/-- The words of an error. -/
def message : ConfigError → String
  | notFound directory => "Configuration file not found at " ++ directory
  | invalid v => "Invalid configuration: " ++ v.field ++ " - " ++ v.message
  | notYaml => "YAML parsing error"
  | notToml => "TOML parsing error"
  | unreadable e => "IO error reading config: " ++ e.message

/-- The error with its causes, for a report on one line. -/
def chain (e : ConfigError) : ErrorChain :=
  match e with
  | unreadable cause => ⟨e.message, [cause.message]⟩
  | _ => .single e.message

end ConfigError

namespace Config

/-! ## 1. Finding -/

/-- A path and the paths left after dropping its components one by one, at most so many. -/
def ancestorsTo : Nat → String → List String
  | 0, path => [path]
  | fuel + 1, path =>
    match Path.parent? path with
    | some above => path :: ancestorsTo fuel above
    | none => [path]

/-- A path and the paths left after dropping its components one by one.  It has no more components
than parts. -/
def ancestors (path : String) : List String := ancestorsTo (Path.parts path).length path

/-- The paths at which a configuration file of a directory may be, the preferred one first. -/
def candidates (directory : String) : List String := fileNames.map (Path.join directory)

/-- The nearest of the paths that exist, given which do. -/
def findAmong (pathExists : String → Bool) (start : String) : Option String :=
  (ancestors start).findSome? fun directory => (candidates directory).find? pathExists

/-- The nearest configuration file. -/
def find (fs : Files) (start : String) : Option String := findAmong fs.pathExists start

/-! ## 2. Loading -/

/-- Whether a file is read as YAML. -/
def isYaml (path : String) : Bool :=
  match Path.extension? path with
  | some ext => ext == "yaml" || ext == "yml"
  | none => false

/-- The configuration that a YAML text writes. -/
def ofYaml (text : String) : Except ConfigError Config :=
  match Yaml.parse text with
  | none => .error .notYaml
  | some v =>
    match decode Yaml.dialect v with
    | .ok c => .ok c
    | .error _ => .error .notYaml

/-- The configuration that a TOML text writes. -/
def ofToml (text : String) : Except ConfigError Config :=
  match Toml.parse text with
  | none => .error .notToml
  | some v =>
    match decode Toml.dialect v with
    | .ok c => .ok c
    | .error _ => .error .notToml

/-- Reads a configuration file, whatever it says. -/
def read (fs : Files) (path : String) : Except ConfigError Config :=
  match fs.readText path with
  | .error e => .error (.unreadable e)
  | .ok text => if isYaml path then ofYaml text else ofToml text

/-- Loads and validates a configuration file. -/
def load (fs : Files) (path : String) : Except ConfigError Config :=
  match read fs path with
  | .error e => .error e
  | .ok c =>
    match validate fs c with
    | .ok () => .ok c
    | .error v => .error (.invalid v)

/-- Loads the nearest configuration file, and says which it is. -/
def loadFrom (fs : Files) (directory : String) : Except ConfigError (Config × String) :=
  match find fs directory with
  | none => .error (.notFound directory)
  | some path => (load fs path).map (·, path)

/-- The nearest configuration, or the defaults if there is none that can be used. -/
def loadOrDefault (fs : Files) (directory : String) : Config × Option String :=
  match loadFrom fs directory with
  | .ok (c, path) => (c, some path)
  | .error _ => ({}, none)

end Config

end BuildStream
