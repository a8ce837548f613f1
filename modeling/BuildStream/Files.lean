/-
# Files

The part of a file system that a build reads: which directories and files there are, what the
files hold, and the working directory.  A path is resolved one component at a time from its
start; every component that has another one after it, an empty one included, has to name a
directory.
-/
namespace BuildStream

/-- What a name in a directory stands for. -/
inductive FileEntry where
  | file (content : ByteArray)
  | directory

/-- Why a path could not be used. -/
inductive FileError where
  | notFound
  | notDirectory
  | isDirectory
  | invalidText
  | invalidName
  | nameTooLong
deriving DecidableEq, Repr

namespace FileError

/-- The words of an error. -/
def message : FileError → String
  | notFound => "No such file or directory (os error 2)"
  | notDirectory => "Not a directory (os error 20)"
  | isDirectory => "Is a directory (os error 21)"
  | invalidText => "stream did not contain valid UTF-8"
  | invalidName => "file name contained an unexpected NUL byte"
  | nameTooLong => "File name too long (os error 36)"

end FileError

/-- Directories and files by their names from the root, and the working directory. -/
structure Files where
  entries : List (List String × FileEntry)
  workingDirectory : List String

namespace Files

/-- Nothing but the root. -/
def empty : Files := ⟨[], []⟩

/-- What stands at an address; the root is a directory. -/
def entry? (fs : Files) (address : List String) : Option FileEntry :=
  if address = [] then some .directory else fs.entries.lookup address

/-! ## 1. Resolving a path -/

/-- The parts of a path between its slashes. -/
def components (path : String) : List String := (path.toList.splitOn '/').map String.ofList

/-- The greatest length of a name, in bytes. -/
def maxNameBytes : Nat := 255

/-- Goes on from an address, component by component. -/
def walk (fs : Files) (at_ : List String) : List String → Except FileError (List String)
  | [] => .ok at_
  | c :: cs =>
    match fs.entry? at_ with
    | none => .error .notFound
    | some (.file _) => .error .notDirectory
    | some .directory =>
      if c = "" ∨ c = "." then fs.walk at_ cs
      else if c = ".." then fs.walk at_.dropLast cs
      else if c.utf8ByteSize > maxNameBytes then .error .nameTooLong
      else if (fs.entry? (at_ ++ [c])).isSome then fs.walk (at_ ++ [c]) cs
      else .error .notFound

/-- The address at which the components of a path start to count. -/
def startOf (fs : Files) (path : String) : List String :=
  if path.startsWith "/" then [] else fs.workingDirectory

/-- Whether a text is no path at all. -/
def refusal? (path : String) : Option FileError :=
  if path.toList.contains (Char.ofNat 0) then some .invalidName
  else if path.isEmpty then some .notFound
  else none

/-- The address a path leads to. -/
def resolve (fs : Files) (path : String) : Except FileError (List String) :=
  match refusal? path with
  | some e => .error e
  | none => fs.walk (fs.startOf path) (components path)

/-! ## 2. Questions and changes -/

/-- Whether a path leads anywhere. -/
def pathExists (fs : Files) (path : String) : Bool :=
  match fs.resolve path with
  | .ok _ => true
  | .error _ => false

/-- Whether a path leads to a directory. -/
def isDirectory (fs : Files) (path : String) : Bool :=
  match fs.resolve path with
  | .ok address =>
    match fs.entry? address with
    | some .directory => true
    | _ => false
  | .error _ => false

/-- The text of a file. -/
def readText (fs : Files) (path : String) : Except FileError String :=
  match fs.resolve path with
  | .error e => .error e
  | .ok address =>
    match fs.entry? address with
    | some (.file content) =>
      match String.fromUTF8? content with
      | some text => .ok text
      | none => .error .invalidText
    | some .directory => .error .isDirectory
    | none => .error .notFound

/-- The same files seen from another working directory. -/
def enter (fs : Files) (path : String) : Except FileError Files :=
  match fs.resolve path with
  | .error e => .error e
  | .ok address =>
    match fs.entry? address with
    | some .directory => .ok { fs with workingDirectory := address }
    | some (.file _) => .error .notDirectory
    | none => .error .notFound

/-- The path of the working directory. -/
def workingPath (fs : Files) : String := "/" ++ "/".intercalate fs.workingDirectory

/-- Puts an entry at an address, together with the directories above it. -/
def put (fs : Files) (address : List String) (entry : FileEntry) : Files :=
  let above := (List.range address.length).map fun n => address.take n
  let missing := above.filter fun a => a ≠ [] ∧ (fs.entries.lookup a).isNone
  { fs with
    entries := (address, entry) :: missing.map (fun a => (a, .directory)) ++
      fs.entries.filter (·.1 != address) }

/-- The address of a name in a directory, where a file may be made. -/
def createIn (fs : Files) (directory : List String) (name : String) :
    Except FileError (List String) :=
  match fs.entry? directory with
  | none => .error .notFound
  | some (.file _) => .error .notDirectory
  | some .directory =>
    if name = "." ∨ name = ".." then .error .isDirectory
    else if name.utf8ByteSize > maxNameBytes then .error .nameTooLong
    else
      match fs.entry? (directory ++ [name]) with
      | some .directory => .error .isDirectory
      | _ => .ok (directory ++ [name])

/-- Where the file of a path stands once it is made.  Its directory has to exist; a path that
ends in a slash or a dot only leads to directories. -/
def createAt (fs : Files) (path : String) : Except FileError (List String) :=
  match refusal? path with
  | some e => .error e
  | none =>
    let parts := (components path).reverse
    match parts.dropWhile (· = "") with
    | [] => .error .isDirectory
    | name :: above =>
      match fs.walk (fs.startOf path) above.reverse with
      | .error e => .error e
      | .ok directory =>
        match fs.createIn directory name with
        | .ok address => if parts.head? = some "" then .error .isDirectory else .ok address
        | .error e => .error e

end Files

end BuildStream
