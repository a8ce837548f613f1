/-
# Reading YAML

A text holds one document, and a document one node.  The parts of a node are read one after the
other by functions that each take the tokens they need and leave the rest; an alias stands for the
last node that was given its name.

Fuel bounds the depth of the recursion.  Every part takes a token or leaves its work to another
part, so four times the number of tokens is enough.
-/
import BuildStream.Yaml
import BuildStream.Yaml.Token

namespace BuildStream

namespace Yaml

/-- Nodes by their names, and the tokens still to be read. -/
structure Reading where
  anchors : List (String × Yaml)
  tokens : List YamlToken

namespace Reading

/-- The reading without its first token. -/
def tail (r : Reading) : Reading := { r with tokens := r.tokens.drop 1 }

/-- Whether the first token is one of some. -/
def isAt (r : Reading) (ts : List YamlToken) : Bool :=
  match r.tokens with
  | [] => true
  | t :: _ => ts.contains t

/-- The names that come before a node: an anchor and a tag, in any order. -/
def properties (r : Reading) : Option String × Option String × Reading :=
  match r.tokens with
  | .anchor a :: .tag t :: rest => (some a, some t, { r with tokens := rest })
  | .tag t :: .anchor a :: rest => (some a, some t, { r with tokens := rest })
  | .anchor a :: rest => (some a, none, { r with tokens := rest })
  | .tag t :: rest => (none, some t, { r with tokens := rest })
  | _ => (none, none, r)

/-- Remembers a node by its name. -/
def remember (anchor : Option String) (v : Yaml) (r : Reading) : Yaml × Reading :=
  match anchor with
  | some a => (v, { r with anchors := (a, v) :: r.anchors })
  | none => (v, r)

end Reading

/-- The tokens that may follow a key or a value that is left out. -/
def afterEmpty : List YamlToken := [.key, .value, .closeBlock]

mutual
/-- A node.  `isBlock` says whether it may be a collection of lines, and `isValue` whether its
entries may stand in the column of the mapping around it. -/
def readNode : Nat → Bool → Bool → Reading → Option (Yaml × Reading)
  | 0, _, _, _ => none
  | fuel + 1, isBlock, isValue, r =>
    match r.tokens with
    | .alias name :: _ => (r.anchors.lookup name).map fun v => (v, r.tail)
    | _ =>
      let (anchor, tag, r) := r.properties
      match r.tokens with
      | .scalar isPlain text :: _ =>
        some (Reading.remember anchor (.scalar tag isPlain text) r.tail)
      | .openBracket :: _ =>
        (readFlowItems fuel true [] r.tail).map fun (items, r) =>
          Reading.remember anchor (.sequence tag items) r
      | .openBrace :: _ =>
        (readFlowPairs fuel true [] r.tail).map fun (pairs, r) =>
          Reading.remember anchor (.mapping tag pairs) r
      | .entry :: _ =>
        if isValue then
          (readEntries fuel false [] r).map fun (items, r) =>
            Reading.remember anchor (.sequence tag items) r
        else if anchor.isSome || tag.isSome then
          some (Reading.remember anchor (.scalar tag true "") r)
        else none
      | .openSequence :: _ =>
        if isBlock then
          (readEntries fuel true [] r.tail).map fun (items, r) =>
            Reading.remember anchor (.sequence tag items) r
        else none
      | .openMapping :: _ =>
        if isBlock then
          (readPairs fuel [] r.tail).map fun (pairs, r) =>
            Reading.remember anchor (.mapping tag pairs) r
        else none
      | _ =>
        if anchor.isSome || tag.isSome then
          some (Reading.remember anchor (.scalar tag true "") r)
        else none

/-- The entries of a sequence of lines, those read so far in reverse.  A sequence with a column of
its own ends with a closing token. -/
def readEntries : Nat → Bool → List Yaml → Reading → Option (List Yaml × Reading)
  | 0, _, _, _ => none
  | fuel + 1, isClosed, seen, r =>
    match r.tokens with
    | .entry :: _ =>
      let r := r.tail
      let isEmpty :=
        if isClosed then r.isAt [.entry, .closeBlock]
        else r.isAt [.entry, .key, .value, .closeBlock]
      if isEmpty then readEntries fuel isClosed (empty :: seen) r
      else
        match readNode fuel true false r with
        | none => none
        | some (v, r) => readEntries fuel isClosed (v :: seen) r
    | .closeBlock :: _ => some (seen.reverse, if isClosed then r.tail else r)
    | _ => if isClosed then none else some (seen.reverse, r)

/-- The pairs of a mapping of lines, those read so far in reverse. -/
def readPairs : Nat → List (Yaml × Yaml) → Reading → Option (List (Yaml × Yaml) × Reading)
  | 0, _, _ => none
  | fuel + 1, seen, r =>
    match r.tokens with
    | .key :: _ =>
      match readPart fuel true r.tail with
      | none => none
      | some (key, r) =>
        match r.tokens with
        | .value :: _ =>
          match readPart fuel true r.tail with
          | none => none
          | some (v, r) => readPairs fuel ((key, v) :: seen) r
        | _ => readPairs fuel ((key, empty) :: seen) r
    | .closeBlock :: _ => some (seen.reverse, r.tail)
    | _ => none

/-- A key or a value of a mapping of lines, which may be left out. -/
def readPart : Nat → Bool → Reading → Option (Yaml × Reading)
  | 0, _, _ => none
  | fuel + 1, isBlock, r =>
    if r.isAt afterEmpty then some (empty, r) else readNode fuel isBlock true r

/-- The items of a sequence in brackets, those read so far in reverse; an item may be a single
pair. -/
def readFlowItems : Nat → Bool → List Yaml → Reading → Option (List Yaml × Reading)
  | 0, _, _, _ => none
  | fuel + 1, isFirst, seen, r =>
    match r.tokens with
    | .closeBracket :: _ => some (seen.reverse, r.tail)
    | _ =>
      match isFirst, r.tokens with
      | false, .comma :: _ =>
        if r.tail.tokens.head? = some .closeBracket then some (seen.reverse, r.tail.tail)
        else readFlowItem fuel seen r.tail
      | false, _ => none
      | true, _ => readFlowItem fuel seen r

/-- One item of a sequence in brackets, and the ones after it. -/
def readFlowItem : Nat → List Yaml → Reading → Option (List Yaml × Reading)
  | 0, _, _ => none
  | fuel + 1, seen, r =>
    match r.tokens with
    | .key :: _ =>
      match readFlowKey fuel [.value, .comma, .closeBracket] r.tail with
      | none => none
      | some (key, r) =>
        match readFlowValue fuel [.comma, .closeBracket] r with
        | none => none
        | some (v, r) => readFlowItems fuel false (.mapping none [(key, v)] :: seen) r
    | _ =>
      match readNode fuel false false r with
      | none => none
      | some (v, r) => readFlowItems fuel false (v :: seen) r

/-- The pairs of a mapping in braces, those read so far in reverse; a value may be left out. -/
def readFlowPairs : Nat → Bool → List (Yaml × Yaml) → Reading →
    Option (List (Yaml × Yaml) × Reading)
  | 0, _, _, _ => none
  | fuel + 1, isFirst, seen, r =>
    match r.tokens with
    | .closeBrace :: _ => some (seen.reverse, r.tail)
    | _ =>
      match isFirst, r.tokens with
      | false, .comma :: _ =>
        if r.tail.tokens.head? = some .closeBrace then some (seen.reverse, r.tail.tail)
        else readFlowPair fuel seen r.tail
      | false, _ => none
      | true, _ => readFlowPair fuel seen r

/-- One pair of a mapping in braces, and the ones after it. -/
def readFlowPair : Nat → List (Yaml × Yaml) → Reading → Option (List (Yaml × Yaml) × Reading)
  | 0, _, _ => none
  | fuel + 1, seen, r =>
    match r.tokens with
    | .key :: _ =>
      match readFlowKey fuel [.value, .comma, .closeBrace] r.tail with
      | none => none
      | some (key, r) =>
        match readFlowValue fuel [.comma, .closeBrace] r with
        | none => none
        | some (v, r) => readFlowPairs fuel false ((key, v) :: seen) r
    | _ =>
      match readNode fuel false false r with
      | none => none
      | some (key, r) => readFlowPairs fuel false ((key, empty) :: seen) r

/-- A key in brackets, which may be left out before some tokens. -/
def readFlowKey : Nat → List YamlToken → Reading → Option (Yaml × Reading)
  | 0, _, _ => none
  | fuel + 1, ends, r => if r.isAt ends then some (empty, r) else readNode fuel false false r

/-- A value in brackets after its colon, which may be left out before some tokens. -/
def readFlowValue : Nat → List YamlToken → Reading → Option (Yaml × Reading)
  | 0, _, _ => none
  | fuel + 1, ends, r =>
    match r.tokens with
    | .value :: _ =>
      if r.tail.isAt ends then some (empty, r.tail) else readNode fuel false false r.tail
    | _ => some (empty, r)
end

/-- What follows the directives and the mark before a document; directives need the mark. -/
def dropStart (ts : List YamlToken) : Option (List YamlToken) :=
  match ts with
  | .directive :: _ =>
    match ts.dropWhile (· == .directive) with
    | .documentStart :: rest => some rest
    | _ => none
  | .documentStart :: rest => some rest
  | ts => some ts

/-- The only document of some tokens. -/
def documentOf (ts : List YamlToken) : Option Yaml :=
  match dropStart ts with
  | none => none
  | some rest =>
    let isMarked := rest.length < ts.length
    let isEmpty :=
      match rest with
      | [] => true
      | .documentEnd :: _ => isMarked
      | _ => false
    let node :=
      if isEmpty then some (empty, ⟨[], rest⟩)
      else readNode (4 * rest.length + 4) true false ⟨[], rest⟩
    match node with
    | none => none
    | some (v, r) =>
      if (r.tokens.dropWhile (· == .documentEnd)).isEmpty then some v else none

/-- The value that a text writes. -/
def parse (text : String) : Option Yaml := (tokensOf text).bind documentOf

end Yaml

end BuildStream
