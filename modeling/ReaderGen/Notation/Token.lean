/-!
# ReaderGen.Notation.Token -- tokens of the schema notation

The notation has identifiers, nine punctuation marks and an end. A token is one of
these with the position of its first character. Positions count **lines and
characters from one, and only a newline ends a line**: a carriage return, a tab and
a character of several bytes each advance the column by one.
-/

namespace ReaderGen.Notation

/-! ## Positions -/

/-- A place in the source: line and column, both from one. -/
structure Position where
  line : Nat
  column : Nat
  deriving DecidableEq, Repr, Inhabited

namespace Position

/-- The place of the first character. -/
def start : Position := ⟨1, 1⟩

/-- The place after one more character. -/
def advance (p : Position) (c : Char) : Position :=
  if c = '\n' then ⟨p.line + 1, 1⟩ else ⟨p.line, p.column + 1⟩

/-- The place after a run of characters. -/
def advanceAll (p : Position) (cs : List Char) : Position :=
  cs.foldl advance p

/-- Line, colon, column. -/
def text (p : Position) : String :=
  toString p.line ++ ":" ++ toString p.column

@[simp] theorem advanceAll_nil (p : Position) : p.advanceAll [] = p := rfl

@[simp] theorem advanceAll_cons (p : Position) (c : Char) (cs : List Char) :
    p.advanceAll (c :: cs) = (p.advance c).advanceAll cs := rfl

@[simp] theorem advanceAll_append (p : Position) (cs ds : List Char) :
    p.advanceAll (cs ++ ds) = (p.advanceAll cs).advanceAll ds :=
  List.foldl_append

end Position

/-! ## Tokens -/

/-- What a token is. -/
inductive TokenKind where
  | ident (name : String)
  | equals
  | pipe
  | openParen
  | closeParen
  | openBrace
  | closeBrace
  | comma
  | star
  | question
  | eof
  deriving DecidableEq, Repr, Inhabited

namespace TokenKind

/-- The mark that a punctuation character stands for. -/
def ofMark? : Char → Option TokenKind
  | '=' => some equals
  | '|' => some pipe
  | '(' => some openParen
  | ')' => some closeParen
  | '{' => some openBrace
  | '}' => some closeBrace
  | ',' => some comma
  | '*' => some star
  | '?' => some question
  | _ => none

/-- The characters that a token of this kind is written with; the end has none. -/
def spelling : TokenKind → List Char
  | ident name => name.toList
  | equals => ['=']
  | pipe => ['|']
  | openParen => ['(']
  | closeParen => [')']
  | openBrace => ['{']
  | closeBrace => ['}']
  | comma => [',']
  | star => ['*']
  | question => ['?']
  | eof => []

/-- How a diagnostic names the token. -/
def describe : TokenKind → String
  | ident name => "identifier '" ++ name ++ "'"
  | eof => "end of input"
  | mark => "'" ++ String.ofList mark.spelling ++ "'"

/-- A mark is read from exactly the character it is written with. -/
theorem ofMark?_eq_some_iff {c : Char} {kind : TokenKind} :
    ofMark? c = some kind ↔
      kind.spelling = [c] ∧ (∀ name, kind ≠ ident name) := by
  constructor
  · intro h
    unfold ofMark? at h
    split at h <;> simp_all <;> subst h <;> simp [spelling]
  · rintro ⟨h, hname⟩
    cases kind with
    | ident name => exact absurd rfl (hname name)
    | eof => simp [spelling] at h
    | _ => simp [spelling] at h; subst h; rfl

end TokenKind

/-- A token with the place of its first character. -/
structure Token where
  kind : TokenKind
  position : Position
  deriving DecidableEq, Repr, Inhabited

/-! ## Identifiers -/

/-- An identifier starts with an ASCII letter or an underscore. -/
def isIdentStart (c : Char) : Bool := c.isAlpha || c = '_'

/-- An identifier goes on with ASCII letters, digits and underscores. -/
def isIdentRest (c : Char) : Bool := c.isAlphanum || c = '_'

theorem isIdentRest_of_isIdentStart {c : Char} (h : isIdentStart c = true) :
    isIdentRest c = true := by
  simp only [isIdentStart, isIdentRest, Char.isAlphanum, Bool.or_eq_true] at *
  exact h.imp_left Or.inl

end ReaderGen.Notation
