import ReaderGen.Text

/-!
# ReaderGen.Yaml.Text -- the characters of a YAML stream

A stream is text of printable characters, tabs and line breaks. CR LF, CR, LF and NEL
each end a line and stand for one newline; the line and paragraph separators end a line
too, but stand for themselves. **After `prepare` a line break is a newline, U+2028 or
U+2029, and nothing else.**
-/

namespace ReaderGen.Yaml

/-- Whether a character may stand in a stream. -/
def isStreamChar (c : Char) : Bool :=
  let n := c.toNat
  n = 0x9 || n = 0xa || n = 0xd || (0x20 ≤ n && n ≤ 0x7e) || n = 0x85 ||
    (0xa0 ≤ n && n ≤ 0xd7ff) || (0xe000 ≤ n && n ≤ 0xfffd) ||
    (0x10000 ≤ n && n ≤ 0x10ffff)

/-- Each line end written as one newline. -/
def unifyBreaks : List Char → List Char
  | [] => []
  | '\r' :: '\n' :: rest => '\n' :: unifyBreaks rest
  | c :: rest => (if c = '\r' ∨ c = '\u0085' then '\n' else c) :: unifyBreaks rest

/-- The characters to scan, if every one is allowed. -/
def prepare (source : String) : Option (List Char) :=
  if source.toList.all isStreamChar then some (unifyBreaks source.toList) else none

/-- A line break. -/
def isBreak (c : Char) : Bool := c = '\n' || c = '\u2028' || c = '\u2029'

/-- A space or a tab. -/
def isBlank (c : Char) : Bool := c = ' ' || c = '\t'

/-- A space, a tab or a line break. -/
def isSpace (c : Char) : Bool := isBlank c || isBreak c

/-- A character of an anchor, of a directive's name and of a tag handle. -/
def isWord (c : Char) : Bool := c.isAlphanum || c = '_' || c = '-'

/-! ## Places -/

/-- How far the scanner has come: octets before, lines before, and characters before
on the line. -/
structure Mark where
  offset : Nat
  line : Nat
  column : Nat
  deriving DecidableEq, Repr

/-- The mark behind characters of one line. -/
def Mark.along (mark : Mark) (cs : List Char) : Mark :=
  ⟨mark.offset + Text.width cs, mark.line, mark.column + cs.length⟩

/-- The mark behind a line break. -/
def Mark.below (mark : Mark) (c : Char) : Mark := ⟨mark.offset + c.utf8Size, mark.line + 1, 0⟩

/-- A place in the stream and the characters from there on. -/
structure Place where
  rest : List Char
  mark : Mark
  deriving DecidableEq, Repr

namespace Place

/-- The character `ahead` characters further on. -/
def peek? (p : Place) (ahead : Nat) : Option Char := p.rest[ahead]?

/-- Whether the character `ahead` characters further on is the given one. -/
def isAt (p : Place) (ahead : Nat) (c : Char) : Bool := p.peek? ahead = some c

/-- Whether a space, a tab, a line break or the end stands there. -/
def isGapAt (p : Place) (ahead : Nat) : Bool :=
  match p.peek? ahead with
  | none => true
  | some c => isSpace c

/-- Whether a line break or the end stands here. -/
def isLineEnd (p : Place) : Bool :=
  match p.rest with
  | [] => true
  | c :: _ => isBreak c

/-- Passes `count` characters of one line. -/
def skip (count : Nat) (p : Place) : Place :=
  ⟨p.rest.drop count, p.mark.along (p.rest.take count)⟩

/-- Passes the characters in front that satisfy a test, within one line. -/
def span (test : Char → Bool) (p : Place) : List Char × Place :=
  let cs := p.rest.takeWhile test
  (cs, p.skip cs.length)

/-- Passes one line break, if it is in front, and returns it. -/
def breakLine (p : Place) : List Char × Place :=
  match p.rest with
  | c :: rest =>
    if isBreak c then ([c], ⟨rest, p.mark.below c⟩) else ([], p)
  | [] => ([], p)

/-- The place behind a byte order mark, if one starts the line. It takes a column like
any other character. -/
def passMark (p : Place) : Place :=
  if p.mark.column = 0 && p.isAt 0 '\ufeff' then p.skip 1 else p

/-- Whether a line with three of `c` alone, or followed by a gap, starts here. -/
def isTripleAt (p : Place) (c : Char) : Bool :=
  p.mark.column = 0 && p.isAt 0 c && p.isAt 1 c && p.isAt 2 c && p.isGapAt 3

/-- Whether a document marker starts here. -/
def isDocumentMarker (p : Place) : Bool := p.isTripleAt '-' || p.isTripleAt '.'

end Place

end ReaderGen.Yaml
