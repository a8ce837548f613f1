/-
# Tables of a TOML document

A table may be mentioned in several places, and the rules say which mentions may meet.  A node of
the tree remembers how it came about: a table that was only mentioned on the way to another one is
implicit, and a table made by the dots of a key is dotted as well.  A header may open an implicit
table that is not dotted, once; a dotted key may add to dotted tables alone; nothing adds to a
value that was written out.

`descend` is the one walk behind headers, keys and the members of inline tables.
-/
import BuildStream.Toml

namespace BuildStream

namespace Toml

/-- A part of a document. -/
inductive Node where
  | value (v : Toml)
  | table (isImplicit isDotted : Bool) (members : List (String × Node))
  /-- Tables under one header, of which the last may still grow. -/
  | tables (earlier : List Toml) (last : List (String × Node))

namespace Node

mutual
/-- The value that a node stands for. -/
def toValue : Node → Toml
  | value v => v
  | table _ _ members => .table (membersToValue members)
  | tables earlier last => .list (earlier ++ [.table (membersToValue last)])

/-- The values of members. -/
def membersToValue : List (String × Node) → List (String × Toml)
  | [] => []
  | (n, node) :: rest => (n, node.toValue) :: membersToValue rest
end

end Node

/-- The members of a table. -/
abbrev Members := List (String × Node)

/-- Replaces the member of a name, or adds it at the end. -/
def Members.set (name : String) (node : Node) : Members → Members
  | [] => [(name, node)]
  | (n, old) :: rest =>
    if n = name then (n, node) :: rest else (n, old) :: Members.set name node rest

/-- Changes the members of the table that a path leads to, making the tables on the way that are
not there yet.  The change is told whether the table it gets is dotted. -/
def descend (dotted : Bool) (change : Bool → Members → Option Members) :
    Bool → List String → Members → Option Members
  | isDotted, [], members => change isDotted members
  | _, key :: path, members =>
    match members.lookup key with
    | none =>
      (descend dotted change dotted path []).map fun inner =>
        Members.set key (.table true dotted inner) members
    | some (.value _) => none
    | some (.tables earlier last) =>
      (descend dotted change false path last).map fun last =>
        Members.set key (.tables earlier last) members
    | some (.table isImplicit isDotted inner) =>
      if dotted && !isImplicit then none
      else
        (descend dotted change isDotted path inner).map fun inner =>
          Members.set key (.table isImplicit isDotted inner) members

/-- Adds a member under a key that may have dots. -/
def assign (path : List String) (name : String) (value : Toml) (isDotted : Bool)
    (members : Members) : Option Members :=
  let add (isDotted : Bool) (members : Members) : Option Members :=
    if isDotted == path.isEmpty || (members.lookup name).isSome then none
    else some (members ++ [(name, .value value)])
  descend true add isDotted path members

/-- Opens the table of a header in the table above it. -/
def openTable (name : String) (_ : Bool) (members : Members) : Option Members :=
  match members.lookup name with
  | none => some (Members.set name (.table false false []) members)
  | some (.table true false inner) => some (Members.set name (.table false false inner) members)
  | some _ => none

/-- Opens another table of a list of tables in the table above it. -/
def openListed (name : String) (_ : Bool) (members : Members) : Option Members :=
  match members.lookup name with
  | none => some (Members.set name (.tables [] []) members)
  | some (.tables earlier last) =>
    let finished := Node.toValue (.table false false last)
    some (Members.set name (.tables (earlier ++ [finished]) []) members)
  | some _ => none

/-- The table written by the members of an inline table, each with the parts of its key. -/
def inlineTable (pairs : List (List String × Toml)) : Option Toml :=
  let add (members : Members) (pair : List String × Toml) : Option Members :=
    match pair.1.getLast? with
    | none => none
    | some name => assign pair.1.dropLast name pair.2 false members
  (pairs.foldlM add []).map fun members => .table (Node.membersToValue members)

/-! ## Documents -/

/-- A line of a document that says something. -/
inductive Statement where
  | header (path : List String)
  | listHeader (path : List String)
  | member (key : List String) (value : Toml)

/-- A document so far: its tables, and the path of the open one. -/
structure Document where
  root : Members
  current : List String

namespace Document

/-- Nothing yet, with the root open. -/
def empty : Document := ⟨[], []⟩

/-- Opens a table by a change of the one above it. -/
def opening (doc : Document) (path : List String)
    (change : String → Bool → Members → Option Members) : Option Document :=
  match path.getLast? with
  | none => none
  | some name =>
    (descend false (change name) false path.dropLast doc.root).map fun root => ⟨root, path⟩

/-- Adds one statement. -/
def add (doc : Document) : Statement → Option Document
  | .header path => doc.opening path openTable
  | .listHeader path => doc.opening path openListed
  | .member key value =>
    match key.getLast? with
    | none => none
    | some name =>
      let change (_ : Bool) := assign key.dropLast name value false
      (descend false change false doc.current doc.root).map fun root => { doc with root }

/-- The value of a list of statements. -/
def ofStatements (statements : List Statement) : Option Toml :=
  (statements.foldlM add empty).map fun doc => .table (Node.membersToValue doc.root)

end Document

end Toml

end BuildStream
