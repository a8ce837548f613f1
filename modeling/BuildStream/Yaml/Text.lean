/-
# Scalars of YAML

How the text of a scalar is found in a document: plain, in single or double quotes, or as a block
of lines.  Line breaks inside the first three are folded: one becomes a space, of several all but
the first are kept.  A block keeps its breaks, or folds them between lines that do not start with
a blank, and its header says what happens to the breaks at its end.

A `Cursor` is a place in the document; columns decide where plain and block scalars end.
-/
import BuildStream.Json.Token

namespace BuildStream

namespace Yaml

/-! ## 1. Places -/

/-- A place in a document: the text that follows, and the line, the column and the number of
characters before it. -/
structure Cursor where
  rest : List Char
  line : Nat
  column : Nat
  index : Nat

namespace Cursor

/-- The place after one character. -/
def next (c : Cursor) : Cursor :=
  match c.rest with
  | [] => c
  | x :: rest =>
    if x = '\n' then ⟨rest, c.line + 1, 0, c.index + 1⟩
    else ⟨rest, c.line, c.column + 1, c.index + 1⟩

/-- The place after so many characters. -/
def advance (c : Cursor) : Nat → Cursor
  | 0 => c
  | n + 1 => c.next.advance n

end Cursor

/-- Whether a character is a blank. -/
def isBlank (c : Char) : Bool := c == ' ' || c == '\t'

/-- Whether a character is a blank or a line break. -/
def isSpace (c : Char) : Bool := isBlank c || c == '\n'

/-- Whether nothing, a blank or a line break follows. -/
def atSpace (cs : List Char) : Bool :=
  match cs with
  | [] => true
  | c :: _ => isSpace c

/-- Whether a text starts with a mark that stands between documents. -/
def startsWithMark (cs : List Char) : Bool :=
  (cs.take 3 == ['-', '-', '-'] || cs.take 3 == ['.', '.', '.']) && atSpace (cs.drop 3)

/-- Whether a mark between documents starts at a place. -/
def Cursor.atMark (c : Cursor) : Bool := c.column == 0 && startsWithMark c.rest

/-- The meaning of blanks and line breaks between two words. -/
def folded (space : List Char) : List Char :=
  match (space.filter (· == '\n')).length with
  | 0 => space
  | 1 => [' ']
  | n + 1 => List.replicate n '\n'

/-! ## 2. Plain scalars -/

/-- The characters that structure collections in brackets. -/
def flowMarks : List Char := [',', '[', ']', '\x7b', '\x7d']

/-- A word of a plain scalar, up to a blank, a colon before one or, in brackets, a mark. -/
def plainWord (inFlow : Bool) : List Char → Option (List Char)
  | [] => some []
  | c :: cs =>
    if isSpace c then some []
    else if c = ':' ∧ atSpace cs then some []
    else if c = ':' ∧ inFlow ∧ ((cs.head?.map fun d => flowMarks.contains d || d == '?') == some true)
      then none
    else if inFlow && flowMarks.contains c then some []
    else (plainWord inFlow cs).map (c :: ·)

/-- Whether a tab stands for indentation in blanks after a line break. -/
def tabIndents (indent : Int) : Cursor → Nat → Bool
  | _, 0 => false
  | c, n + 1 =>
    (c.rest.head? == some '\t' && (c.column : Int) < indent) || tabIndents indent c.next n

/-- Blanks and line breaks of a plain scalar: the place after them, and whether a line ended. -/
def plainSpace (indent : Int) (c : Cursor) : Option (List Char × Cursor × Bool) :=
  let space := c.rest.takeWhile isSpace
  let before := (space.takeWhile isBlank).length
  let brokeLine := before < space.length
  let lines := c.advance before
  if brokeLine && tabIndents indent lines (space.length - before) then none
  else some (space, c.advance space.length, brokeLine)

/-- A plain scalar from a place, given fuel for its words: its text, the place after it and the
blanks that follow, and whether a line ended there. -/
def scanPlain (inFlow : Bool) (indent : Int) :
    Nat → List Char → List Char → Cursor → Bool → Option (List Char × Cursor × Bool)
  | 0, _, _, _, _ => none
  | fuel + 1, seen, space, c, brokeLine =>
    if c.atMark || c.rest.head? == some '#' then some (seen, c, brokeLine)
    else
      match plainWord inFlow c.rest with
      | none => none
      | some [] => some (seen, c, brokeLine)
      | some word =>
        let seen := seen ++ folded space ++ word
        let c := c.advance word.length
        if c.rest.isEmpty || !atSpace c.rest then some (seen, c, false)
        else
          match plainSpace indent c with
          | none => none
          | some (space, c, brokeLine) =>
            if !inFlow && (c.column : Int) < indent then some (seen, c, brokeLine)
            else scanPlain inFlow indent fuel seen space c brokeLine

/-! ## 3. Quoted scalars -/

/-- The character that a letter after a backslash stands for. -/
def escapedChar (c : Char) : Option Char :=
  match c with
  | '0' => some (Char.ofNat 0)
  | 'a' => some (Char.ofNat 0x07)
  | 'b' => some (Char.ofNat 0x08)
  | 't' => some '\t'
  | '\t' => some '\t'
  | 'n' => some '\n'
  | 'v' => some (Char.ofNat 0x0B)
  | 'f' => some (Char.ofNat 0x0C)
  | 'r' => some '\r'
  | 'e' => some (Char.ofNat 0x1B)
  | ' ' => some ' '
  | '"' => some '"'
  | '/' => some '/'
  | '\\' => some '\\'
  | 'N' => some (Char.ofNat 0x85)
  | '_' => some (Char.ofNat 0xA0)
  | 'L' => some (Char.ofNat 0x2028)
  | 'P' => some (Char.ofNat 0x2029)
  | _ => none

/-- The character of a code point given by so many hexadecimal digits. -/
def codePoint (count : Nat) (cs : List Char) : Option Char := do
  let n ← (cs.take count).foldlM (fun n c => (JsonToken.hexValue c).map (n * 16 + ·)) 0
  if count ≤ cs.length ∧ n.isValidChar then some (Char.ofNat n) else none

/-- An escape after its backslash, and how many characters it takes. -/
def escape : List Char → Option (Char × Nat)
  | 'x' :: cs => (codePoint 2 cs).map (·, 3)
  | 'u' :: cs => (codePoint 4 cs).map (·, 5)
  | 'U' :: cs => (codePoint 8 cs).map (·, 9)
  | c :: _ => (escapedChar c).map (·, 1)
  | [] => none

/-- Line breaks after a backslash at the end of a line: all but the first are kept. -/
def keptBreaks (space : List Char) : List Char :=
  List.replicate ((space.filter (· == '\n')).length - 1) '\n'

/-- The rest of a quoted scalar after its opening quote: its text, and the place after the closing
quote. -/
def scanQuoted (isSingle : Bool) : Nat → List Char → Cursor → Option (List Char × Cursor)
  | 0, _, _ => none
  | fuel + 1, seen, c =>
    if c.atMark then none
    else
      match c.rest with
      | [] => none
      | '\'' :: rest =>
        if !isSingle then scanQuoted isSingle fuel ('\'' :: seen) c.next
        else if rest.head? == some '\'' then scanQuoted isSingle fuel ('\'' :: seen) (c.advance 2)
        else some (seen.reverse, c.next)
      | '"' :: _ =>
        if isSingle then scanQuoted isSingle fuel ('"' :: seen) c.next
        else some (seen.reverse, c.next)
      | '\\' :: rest =>
        if isSingle then scanQuoted isSingle fuel ('\\' :: seen) c.next
        else if rest.head? == some '\n' then
          let space := rest.takeWhile isSpace
          scanQuoted isSingle fuel ((keptBreaks space).reverse ++ seen)
            (c.advance (space.length + 1))
        else
          match escape rest with
          | some (e, n) => scanQuoted isSingle fuel (e :: seen) (c.advance (n + 1))
          | none => none
      | x :: _ =>
        if isSpace x then
          let space := c.rest.takeWhile isSpace
          scanQuoted isSingle fuel ((folded space).reverse ++ seen) (c.advance space.length)
        else scanQuoted isSingle fuel (x :: seen) c.next

/-! ## 4. Blocks of lines -/

/-- What happens to the line breaks at the end of a block. -/
inductive Chomping where
  | strip
  | clip
  | keep
deriving DecidableEq

/-- The header of a block after its mark: the chomping, the indentation it gives, and the place
after them. -/
def blockHeader (c : Cursor) : Option (Chomping × Option Nat × Cursor) :=
  let chomping? (x : Char) : Option Chomping :=
    if x = '+' then some .keep else if x = '-' then some .strip else none
  let digit? (x : Char) : Option Nat :=
    if '1' ≤ x ∧ x ≤ '9' then some (x.toNat - '0'.toNat) else none
  match c.rest with
  | x :: y :: _ =>
    match chomping? x, digit? x with
    | some chomping, _ =>
      if y = '0' then none
      else
        match digit? y with
        | some n => some (chomping, some n, c.advance 2)
        | none => some (chomping, none, c.advance 1)
    | none, some n =>
      match chomping? y with
      | some chomping => some (chomping, some n, c.advance 2)
      | none => some (.clip, some n, c.advance 1)
    | none, none => if x = '0' then none else some (.clip, none, c)
  | [x] =>
    match chomping? x, digit? x with
    | some chomping, _ => some (chomping, none, c.advance 1)
    | none, some n => some (.clip, some n, c.advance 1)
    | none, none => if x = '0' then none else some (.clip, none, c)
  | [] => some (.clip, none, c)

/-- The place at the start of the line after a header, past blanks and a comment. -/
def blockStart (c : Cursor) : Option Cursor :=
  let c := c.advance (c.rest.takeWhile isBlank).length
  let c :=
    if c.rest.head? == some '#' then c.advance (c.rest.takeWhile (· != '\n')).length else c
  match c.rest with
  | [] => some c
  | '\n' :: _ => some c.next
  | _ => none

/-- Empty lines of a block: their number, the place after them and the widest indentation.  Without
a known indentation all spaces count as such. -/
def emptyLines (indent : Option Nat) : Nat → Nat → Nat → Cursor → Option (Nat × Cursor × Nat)
  | 0, _, _, _ => none
  | fuel + 1, breaks, widest, c =>
    let spaces := (c.rest.takeWhile (· == ' ')).length
    let taken :=
      match indent with
      | some n => min spaces (n - c.column)
      | none => spaces
    let c := c.advance taken
    let widest := max widest c.column
    let isShort :=
      match indent with
      | some n => decide (c.column < n)
      | none => true
    match c.rest with
    | '\t' :: _ => if isShort then none else some (breaks, c, widest)
    | '\n' :: _ => emptyLines indent fuel (breaks + 1) widest c.next
    | _ => some (breaks, c, widest)

/-- What has been read of a block. -/
structure BlockText where
  text : List Char
  /-- Whether a line break after the last line is pending. -/
  isBroken : Bool
  /-- The empty lines after it. -/
  breaks : Nat
  /-- Whether the last line starts with a blank. -/
  startsBlank : Bool

/-- The line breaks before the next line of a block. -/
def BlockText.joint (b : BlockText) (isFolded : Bool) (nextStartsBlank : Bool) : List Char :=
  let breaks := List.replicate b.breaks '\n'
  if isFolded && b.isBroken && !b.startsBlank && !nextStartsBlank then
    if b.breaks = 0 then [' '] else breaks
  else (if b.isBroken then ['\n'] else []) ++ breaks

/-- The lines of a block. -/
def blockLines (isFolded : Bool) (indent : Nat) :
    Nat → BlockText → Cursor → Option (BlockText × Cursor)
  | 0, _, _ => none
  | fuel + 1, b, c =>
    if c.column ≠ indent ∨ c.rest.isEmpty then some (b, c)
    else
      let startsBlank := (c.rest.head?.map isBlank).getD false
      let line := c.rest.takeWhile (· != '\n')
      let text := b.text ++ b.joint isFolded startsBlank ++ line
      let c := c.advance line.length
      let isBroken := !c.rest.isEmpty
      match emptyLines (some indent) (c.rest.length + 1) 0 0 c.next with
      | none => none
      | some (breaks, c, _) => blockLines isFolded indent fuel ⟨text, isBroken, breaks, startsBlank⟩ c

/-- A block after its mark, in a collection of an indentation: its text, and the place after it. -/
def scanBlock (isFolded : Bool) (parentIndent : Int) (c : Cursor) :
    Option (List Char × Cursor) := do
  let (chomping, increment, c) ← blockHeader c
  let c ← blockStart c
  let given := increment.map fun n => (max parentIndent 0).toNat + n
  let (breaks, c, widest) ← emptyLines given (c.rest.length + 1) 0 0 c
  let indent := given.getD (max (max widest (parentIndent + 1).toNat) 1)
  let (b, c) ← blockLines isFolded indent (c.rest.length + 1) ⟨[], false, breaks, false⟩ c
  let ending :=
    match chomping with
    | .strip => []
    | .clip => if b.isBroken then ['\n'] else []
    | .keep => (if b.isBroken then ['\n'] else []) ++ List.replicate b.breaks '\n'
  return (b.text ++ ending, c)

end Yaml

end BuildStream
