/-
# The tokens of a YAML document

Collections of lines are opened and closed by their columns.  A key is only known as one when the
colon after it is seen, so each scan keeps, for every level of brackets, the place where a key may
have started; the colon then puts the tokens that open a mapping and a key at that place.

A key lies on one line and is at most 1024 characters long.
-/
import BuildStream.Yaml.Text

namespace BuildStream

/-- A token of a YAML document. -/
inductive YamlToken where
  | openSequence
  | openMapping
  | closeBlock
  | openBracket
  | closeBracket
  | openBrace
  | closeBrace
  | entry
  | comma
  | key
  | value
  | anchor (name : String)
  | alias (name : String)
  | tag (name : String)
  | scalar (isPlain : Bool) (text : String)
  | documentStart
  | documentEnd
  | directive
deriving DecidableEq, Repr

namespace Yaml

/-! ## 1. The state of a scan -/

/-- A place where a key may have started. -/
structure PossibleKey where
  /-- Whether anything but a key is an error there. -/
  isRequired : Bool
  /-- The number of tokens before it. -/
  position : Nat
  place : Cursor

/-- A scan in the middle of a document. -/
structure Scan where
  place : Cursor
  /-- The tokens so far, in reverse. -/
  tokens : List YamlToken := []
  /-- The column of the innermost collection of lines, `-1` outside all. -/
  indent : Int := -1
  /-- The columns around it. -/
  outer : List Int := []
  /-- Where a key may have started, for each level of brackets, the innermost first. -/
  keys : List (Option PossibleKey) := [none]
  /-- Whether a key may start here. -/
  allowsKey : Bool := true

namespace Scan

/-- Whether the place lies in brackets. -/
def inFlow (s : Scan) : Bool := s.keys.length > 1

/-- Adds a token. -/
def emit (s : Scan) (t : YamlToken) : Scan := { s with tokens := t :: s.tokens }

/-- Goes on by so many characters. -/
def skip (s : Scan) (n : Nat) : Scan := { s with place := s.place.advance n }

/-- Puts a token behind the first so many. -/
def insert (s : Scan) (position : Nat) (t : YamlToken) : Scan :=
  let later := s.tokens.length - position
  { s with tokens := s.tokens.take later ++ t :: s.tokens.drop later }

/-! ## 2. Columns and keys -/

/-- The greatest length of a key. -/
def maxKeyLength : Nat := 1024

/-- Whether a place is too far for the colon of a key. -/
def PossibleKey.isStale (k : PossibleKey) (place : Cursor) : Bool :=
  k.place.line < place.line || k.place.index + maxKeyLength < place.index

/-- Forgets a key whose colon can no longer come. -/
def checkKey (place : Cursor) : Option PossibleKey → Option (Option PossibleKey)
  | none => some none
  | some k =>
    if PossibleKey.isStale k place then if k.isRequired then none else some none
    else some (some k)

/-- Forgets the keys whose colon can no longer come. -/
def dropStaleKeys (s : Scan) : Option Scan :=
  (s.keys.mapM (checkKey s.place)).map fun keys => { s with keys }

/-- Opens a collection of lines at a column that lies further right, its token at a position. -/
def roll (s : Scan) (column : Nat) (position : Nat) (t : YamlToken) : Scan :=
  if s.inFlow || (column : Int) ≤ s.indent then s
  else { s.insert position t with indent := column, outer := s.indent :: s.outer }

/-- Closes the collections of lines right of a column. -/
def closeTo (column : Int) : Int → List Int → List YamlToken → Int × List Int × List YamlToken
  | indent, [], tokens => (indent, [], tokens)
  | indent, above :: outer, tokens =>
    if column < indent then closeTo column above outer (.closeBlock :: tokens)
    else (indent, above :: outer, tokens)

/-- Closes the collections of lines right of a column, outside brackets. -/
def unroll (s : Scan) (column : Int) : Scan :=
  if s.inFlow then s
  else
    let (indent, outer, tokens) := closeTo column s.indent s.outer s.tokens
    { s with indent, outer, tokens }

/-- Forgets the key of the innermost level. -/
def removeKey (s : Scan) : Option Scan :=
  match s.keys with
  | some k :: keys => if k.isRequired then none else some { s with keys := none :: keys }
  | _ => some s

/-- Remembers that a key may start here. -/
def saveKey (s : Scan) : Option Scan :=
  if s.allowsKey then
    s.removeKey.map fun s =>
      let isRequired := !s.inFlow && s.indent == (s.place.column : Int)
      { s with keys := some ⟨isRequired, s.tokens.length, s.place⟩ :: s.keys.drop 1 }
  else some s

/-! ## 3. Tokens -/

/-- A mark between documents. -/
def mark (s : Scan) (t : YamlToken) : Option Scan :=
  (s.unroll (-1)).removeKey.map fun s => ({ s with allowsKey := false }.emit t).skip 3

/-- An opening bracket. -/
def openFlow (s : Scan) (t : YamlToken) : Option Scan :=
  s.saveKey.map fun s => ({ s with keys := none :: s.keys, allowsKey := true }.emit t).skip 1

/-- A closing bracket. -/
def closeFlow (s : Scan) (t : YamlToken) : Option Scan :=
  s.removeKey.map fun s =>
    let keys := if s.inFlow then s.keys.drop 1 else s.keys
    ({ s with keys, allowsKey := false }.emit t).skip 1

/-- A comma. -/
def comma (s : Scan) : Option Scan :=
  s.removeKey.map fun s => ({ s with allowsKey := true }.emit .comma).skip 1

/-- The dash of an entry. -/
def entry (s : Scan) : Option Scan :=
  if !s.inFlow && !s.allowsKey then none
  else
    (s.roll s.place.column s.tokens.length .openSequence).removeKey.map fun s =>
      ({ s with allowsKey := true }.emit .entry).skip 1

/-- The question mark of a key. -/
def explicitKey (s : Scan) : Option Scan :=
  if !s.inFlow && !s.allowsKey then none
  else
    (s.roll s.place.column s.tokens.length .openMapping).removeKey.map fun s =>
      ({ s with allowsKey := !s.inFlow }.emit .key).skip 1

/-- The colon of a value. -/
def value (s : Scan) : Option Scan :=
  match s.keys with
  | some k :: keys =>
    let s := { s with keys := none :: keys }.insert k.position .key
    let s := s.roll k.place.column k.position .openMapping
    some (({ s with allowsKey := false }.emit .value).skip 1)
  | _ =>
    if !s.inFlow && !s.allowsKey then none
    else
      let s := s.roll s.place.column s.tokens.length .openMapping
      some (({ s with allowsKey := !s.inFlow }.emit .value).skip 1)

/-- Whether a character may stand in the name of an anchor. -/
def isNameChar (c : Char) : Bool := c.isAlphanum || c == '_' || c == '-'

/-- The name of an anchor or alias after its mark. -/
def name (s : Scan) (make : String → YamlToken) : Option Scan :=
  s.saveKey.bind fun s =>
    let name := (s.place.rest.drop 1).takeWhile isNameChar
    let after := s.place.rest.drop (name.length + 1)
    let ends := atSpace after || (after.head?.map "?:,]\x7d%@`".toList.contains).getD false
    if name.isEmpty || !ends then none
    else
      some (({ s with allowsKey := false }.emit (make (String.ofList name))).skip
        (name.length + 1))

/-- Whether a character may stand in a tag. -/
def isTagChar (c : Char) : Bool :=
  isNameChar c || ";/?:@&=+$.!~*'()%".toList.contains c

/-- The full name of a tag after its mark, and how many characters it takes. -/
def tagName (cs : List Char) : Option (String × Nat) :=
  match cs with
  | '<' :: rest =>
    let name := rest.takeWhile fun c => isTagChar c || [',', '[', ']'].contains c
    if name.isEmpty ∨ (rest.drop name.length).head? ≠ some '>' then none
    else some (String.ofList name, name.length + 2)
  | '!' :: rest =>
    let name := rest.takeWhile isTagChar
    if name.isEmpty then none
    else some ("tag:yaml.org,2002:" ++ String.ofList name, name.length + 1)
  | rest =>
    let name := rest.takeWhile isTagChar
    let handle := name.takeWhile isNameChar
    if (name.drop handle.length).head? = some '!' then none
    else some ("!" ++ String.ofList name, name.length)

/-- A tag. -/
def tag (s : Scan) : Option Scan :=
  s.saveKey.bind fun s =>
    match tagName (s.place.rest.drop 1) with
    | none => none
    | some (name, n) =>
      let after := s.place.rest.drop (n + 1)
      if atSpace after || (s.inFlow && after.head? == some ',') then
        some (({ s with allowsKey := false }.emit (.tag name)).skip (n + 1))
      else none

/-- A block of lines. -/
def block (s : Scan) (isFolded : Bool) : Option Scan := do
  let s ← s.removeKey
  let (text, place) ← scanBlock isFolded s.indent s.place.next
  return { s with allowsKey := true, place }.emit (.scalar false (String.ofList text))

/-- A scalar in quotes. -/
def quotedScalar (s : Scan) (isSingle : Bool) : Option Scan := do
  let s ← s.saveKey
  let (text, place) ← scanQuoted isSingle (s.place.rest.length + 1) [] s.place.next
  return { s with allowsKey := false, place }.emit (.scalar false (String.ofList text))

/-- A plain scalar. -/
def plainScalar (s : Scan) : Option Scan := do
  let s ← s.saveKey
  let (text, place, brokeLine) ←
    scanPlain s.inFlow (s.indent + 1) (s.place.rest.length + 1) [] [] s.place false
  return { s with allowsKey := brokeLine, place }.emit (.scalar true (String.ofList text))

/-- Whether a plain scalar may start here. -/
def startsPlain (inFlow : Bool) (cs : List Char) : Bool :=
  match cs with
  | [] => false
  | c :: rest =>
    let isIndicator := "-?:,[]\x7b\x7d#&*!|>'\"%@`".toList.contains c
    (!isSpace c && !isIndicator) || (c == '-' && !(rest.head?.map isBlank).getD false) ||
      (!inFlow && (c == '?' || c == ':') && !atSpace rest)

/-- A directive up to the end of its line. -/
def directive (s : Scan) : Option Scan :=
  let line := s.place.rest.takeWhile (· != '\n')
  let word := line.takeWhile fun c => !isBlank c
  if String.ofList word = "%YAML" ∨ String.ofList word = "%TAG" then
    (s.unroll (-1)).removeKey.map fun s =>
      ({ s with allowsKey := false }.emit .directive).skip line.length
  else none

/-- The token at a place where one starts. -/
def token (s : Scan) : Option Scan :=
  let cs := s.place.rest
  match cs with
  | [] => none
  | c :: rest =>
    if s.place.column = 0 ∧ c = '%' then s.directive
    else if s.place.atMark then s.mark (if c = '-' then .documentStart else .documentEnd)
    else if c = '[' then s.openFlow .openBracket
    else if c = '\x7b' then s.openFlow .openBrace
    else if c = ']' then s.closeFlow .closeBracket
    else if c = '\x7d' then s.closeFlow .closeBrace
    else if c = ',' then s.comma
    else if c = '-' ∧ atSpace rest then s.entry
    else if c = '?' ∧ (s.inFlow ∨ atSpace rest) then s.explicitKey
    else if c = ':' ∧ (s.inFlow ∨ atSpace rest) then s.value
    else if c = '*' then s.name .alias
    else if c = '&' then s.name .anchor
    else if c = '!' then s.tag
    else if c = '|' ∧ !s.inFlow then s.block false
    else if c = '>' ∧ !s.inFlow then s.block true
    else if c = '\'' then s.quotedScalar true
    else if c = '"' then s.quotedScalar false
    else if startsPlain s.inFlow cs then s.plainScalar
    else none

/-! ## 4. The whole document -/

/-- Skips blanks, comments and line breaks.  A tab is no blank where a key may start on a line of
its own. -/
def dropFiller : Nat → Scan → Scan
  | 0, s => s
  | fuel + 1, s =>
    match s.place.rest with
    | ' ' :: _ => dropFiller fuel (s.skip 1)
    | '\t' :: _ => if s.inFlow || !s.allowsKey then dropFiller fuel (s.skip 1) else s
    | '#' :: rest => dropFiller fuel (s.skip ((rest.takeWhile (· != '\n')).length + 1))
    | '\n' :: _ =>
      dropFiller fuel { s.skip 1 with allowsKey := if s.inFlow then s.allowsKey else true }
    | _ => s

/-- All tokens from a place on, in reverse. -/
def run : Nat → Scan → Option (List YamlToken)
  | 0, _ => none
  | fuel + 1, s =>
    match (dropFiller (s.place.rest.length + 1) s).dropStaleKeys with
    | none => none
    | some s =>
      if s.place.rest.isEmpty then ((s.unroll (-1)).removeKey).map (·.tokens)
      else
        match (s.unroll s.place.column).token with
        | none => none
        | some s => run fuel s

end Scan

/-- Whether a character may stand in a document. -/
def isAllowed (c : Char) : Bool :=
  let n := c.toNat
  c == '\t' || c == '\n' || c == '\r' || (0x20 ≤ n && n ≤ 0x7E) || n == 0x85 ||
    (0xA0 ≤ n && n ≤ 0xFFFD && n ≠ 0xFEFF) || 0x10000 ≤ n

/-- A text with every line break as a line feed. -/
def normalizeBreaks : List Char → List Char
  | '\r' :: '\n' :: cs => '\n' :: normalizeBreaks cs
  | c :: cs => (if c = '\r' ∨ c.toNat = 0x85 then '\n' else c) :: normalizeBreaks cs
  | [] => []

/-- The tokens of a document. -/
def tokensOf (text : String) : Option (List YamlToken) :=
  let cs :=
    match text.toList with
    | c :: cs => if c.toNat = 0xFEFF then cs else c :: cs
    | [] => []
  if cs.all isAllowed then
    let cs := normalizeBreaks cs
    (Scan.run (cs.length + 1) { place := ⟨cs, 0, 0, 0⟩ }).map List.reverse
  else none

end Yaml

end BuildStream
