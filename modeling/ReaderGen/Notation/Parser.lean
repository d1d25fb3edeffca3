import ReaderGen.Notation.Lexer
import ReaderGen.Schema

/-!
# ReaderGen.Notation.Parser -- from tokens to a schema

The notation has this grammar.

    module      := "module" ident "{" definition* "}"
    definition  := ident "=" ( product | sum )
    product     := fields [ "attributes" fields ]
    sum         := constructor ( "|" constructor )* [ "attributes" fields ]
    constructor := ident [ fields ]
    fields      := "(" field ( "," field )* ")"
    field       := ident [ "*" | "?" ] ident

**There are no reserved words.** `module` is only looked for at the start, and
`attributes` is a keyword only when a field list follows it, so both may name types,
constructors, fields and modules.

Each reader takes the tokens that are left and returns what it read with the tokens
that are left after it, which are always fewer; that is what its loops end by. Names
must differ within one field list and between the definitions of the module; a
repetition is reported once the repeated item has been read.
-/

namespace ReaderGen.Notation

/-! ## Errors -/

/-- What the grammar allows at a place where something else stands. -/
inductive Expected where
  | moduleKeyword
  | moduleName
  | openBrace
  | typeName
  | equals
  | constructorName
  | openParen
  | fieldType
  | fieldName
  | fieldSeparator
  | closeBrace
  | endOfInput
  deriving DecidableEq, Repr

/-- How a diagnostic names what was expected. -/
def Expected.describe : Expected → String
  | moduleKeyword => "'module'"
  | moduleName => "module name"
  | openBrace => "'\x7b'"
  | typeName => "type name or '\x7d'"
  | equals => "'='"
  | constructorName => "constructor name"
  | openParen => "'('"
  | fieldType => "field type"
  | fieldName => "field name"
  | fieldSeparator => "',' or ')'"
  | closeBrace => "'\x7d'"
  | endOfInput => "end of input"

/-- Why a source is not a schema. -/
inductive ParseError where
  | lex (error : LexError)
  | unexpected (expected : Expected) (found : TokenKind) (position : Position)
  | duplicateType (name : String) (position : Position)
  | duplicateField (owner field : String) (position : Position)
  deriving DecidableEq, Repr

/-- The diagnostic for a source that is not a schema. -/
def ParseError.message : ParseError → String
  | lex error => error.message
  | unexpected expected found position =>
    "expected " ++ expected.describe ++ ", found " ++ found.describe ++ " at " ++ position.text
  | duplicateType name position =>
    "type '" ++ name ++ "' is defined more than once (second definition at " ++
      position.text ++ ")"
  | duplicateField owner field position =>
    "field '" ++ field ++ "' is declared more than once in '" ++ owner ++ "' (at " ++
      position.text ++ ")"

/-! ## Single tokens -/

/-- The token in front. A lexed source ends with its end token and no reader goes past
that, so the list is empty for no source. -/
def current : List Token → Token
  | [] => ⟨.eof, Position.start⟩
  | token :: _ => token

/-- The error that the token in front is not what was expected. -/
def unexpected (expected : Expected) (tokens : List Token) : ParseError :=
  .unexpected expected (current tokens).kind (current tokens).position

/-- Reads one token of the given kind. -/
def expect (kind : TokenKind) (expected : Expected) (tokens : List Token) :
    Except ParseError (List Token) :=
  match tokens with
  | token :: rest =>
    if token.kind = kind then .ok rest else .error (unexpected expected tokens)
  | [] => .error (unexpected expected tokens)

/-- Reads one identifier, with its position. -/
def expectIdent (expected : Expected) (tokens : List Token) :
    Except ParseError (String × Position × List Token) :=
  match tokens with
  | ⟨.ident name, position⟩ :: rest => .ok (name, position, rest)
  | _ => .error (unexpected expected tokens)

theorem expect_eq_ok {kind : TokenKind} {expected : Expected} {tokens rest : List Token}
    (h : expect kind expected tokens = .ok rest) :
    ∃ position, tokens = ⟨kind, position⟩ :: rest := by
  unfold expect at h
  split at h
  · next token tail =>
    split at h
    · next hkind => cases h; exact ⟨token.position, by rw [← hkind]⟩
    · cases h
  · cases h

theorem expectIdent_eq_ok {expected : Expected} {tokens rest : List Token} {name : String}
    {position : Position} (h : expectIdent expected tokens = .ok (name, position, rest)) :
    tokens = ⟨.ident name, position⟩ :: rest := by
  unfold expectIdent at h
  split at h
  · cases h; rfl
  · cases h

/-! ## Fields -/

/-- Reads the mark between a field's type and its name, if there is one: a star for
a sequence, a question mark for an optional field. -/
def fieldMark (tokens : List Token) : Bool × Bool × List Token :=
  match tokens with
  | ⟨.star, _⟩ :: rest => (true, false, rest)
  | ⟨.question, _⟩ :: rest => (false, true, rest)
  | _ => (false, false, tokens)

/-- Reads one field, with the position of its name. -/
def parseField (tokens : List Token) : Except ParseError (Field × Position × List Token) :=
  match expectIdent .fieldType tokens with
  | .error e => .error e
  | .ok (typeName, _, afterType) =>
    let (isSequence, isOptional, afterMark) := fieldMark afterType
    match expectIdent .fieldName afterMark with
    | .error e => .error e
    | .ok (name, position, rest) => .ok (⟨name, typeName, isSequence, isOptional⟩, position, rest)

theorem fieldMark_length_le (tokens : List Token) :
    (fieldMark tokens).2.2.length ≤ tokens.length := by
  unfold fieldMark
  split <;> simp

theorem parseField_length_lt {tokens rest : List Token} {field : Field} {position : Position}
    (h : parseField tokens = .ok (field, position, rest)) : rest.length < tokens.length := by
  unfold parseField at h
  split at h
  · cases h
  · next typeName _ afterType htype =>
    have hmark := fieldMark_length_le afterType
    revert hmark h
    rcases fieldMark afterType with ⟨isSequence, isOptional, afterMark⟩
    intro h hmark
    simp only at h hmark
    split at h
    · cases h
    · next name place left hname =>
      cases h
      rw [expectIdent_eq_ok htype]
      rw [expectIdent_eq_ok hname] at hmark
      simp only [List.length_cons] at *
      omega

/-- Reads the fields of a list whose opening parenthesis has been read, up to and
including its closing one. `seen` holds the names read so far. -/
def parseFieldItems (owner : String) (seen : List String) (tokens : List Token) :
    Except ParseError (List Field × List Token) :=
  match _h : parseField tokens with
  | .error e => .error e
  | .ok (field, position, afterField) =>
    if field.name ∈ seen then .error (.duplicateField owner field.name position)
    else
      match afterField with
      | ⟨.comma, _⟩ :: rest =>
        match parseFieldItems owner (field.name :: seen) rest with
        | .error e => .error e
        | .ok (fields, left) => .ok (field :: fields, left)
      | ⟨.closeParen, _⟩ :: rest => .ok ([field], rest)
      | _ => .error (unexpected .fieldSeparator afterField)
termination_by tokens.length
decreasing_by
  have := parseField_length_lt _h
  simp only [List.length_cons] at this
  omega

/-- Reads a field list in parentheses. -/
def parseFields (owner : String) (tokens : List Token) :
    Except ParseError (List Field × List Token) :=
  match expect .openParen .openParen tokens with
  | .error e => .error e
  | .ok rest => parseFieldItems owner [] rest

theorem parseFieldItems_length_lt {owner : String} {seen : List String}
    {tokens rest : List Token} {fields : List Field}
    (h : parseFieldItems owner seen tokens = .ok (fields, rest)) :
    rest.length < tokens.length := by
  fun_induction parseFieldItems owner seen tokens generalizing fields rest with
  | case1 => cases h
  | case2 => cases h
  | case3 => cases h
  | case4 seen tokens field position hseen place tail hfield fields' left hitems _ ih =>
    have hlt := parseField_length_lt hfield
    have hih := ih hitems
    cases h
    simp only [List.length_cons] at hlt
    omega
  | case5 seen tokens field position hseen place tail hfield =>
    have hlt := parseField_length_lt hfield
    cases h
    simp only [List.length_cons] at hlt
    omega
  | case6 => cases h

theorem parseFields_length_lt {owner : String} {tokens rest : List Token} {fields : List Field}
    (h : parseFields owner tokens = .ok (fields, rest)) : rest.length < tokens.length := by
  unfold parseFields at h
  split at h
  · cases h
  · next tail hopen =>
    obtain ⟨position, rfl⟩ := expect_eq_ok hopen
    have := parseFieldItems_length_lt h
    simp only [List.length_cons]
    omega

/-- Reads the attributes of a definition, if a list of them follows: the word
`attributes` is one only before an opening parenthesis. -/
def parseAttributes (owner : String) (tokens : List Token) :
    Except ParseError (List Field × List Token) :=
  match tokens with
  | ⟨.ident "attributes", _⟩ :: ⟨.openParen, position⟩ :: rest =>
    parseFields owner (⟨.openParen, position⟩ :: rest)
  | _ => .ok ([], tokens)

theorem parseAttributes_length_le {owner : String} {tokens rest : List Token}
    {fields : List Field} (h : parseAttributes owner tokens = .ok (fields, rest)) :
    rest.length ≤ tokens.length := by
  unfold parseAttributes at h
  split at h
  · have := parseFields_length_lt h
    simp only [List.length_cons] at *
    omega
  · cases h
    exact Nat.le_refl _

/-! ## Definitions -/

/-- Reads one constructor. -/
def parseConstructor (tokens : List Token) : Except ParseError (Constructor × List Token) :=
  match expectIdent .constructorName tokens with
  | .error e => .error e
  | .ok (name, _, afterName) =>
    match (current afterName).kind with
    | .openParen =>
      match parseFields name afterName with
      | .error e => .error e
      | .ok (fields, rest) => .ok (⟨name, fields⟩, rest)
    | _ => .ok (⟨name, []⟩, afterName)

theorem parseConstructor_length_lt {tokens rest : List Token} {variant : Constructor}
    (h : parseConstructor tokens = .ok (variant, rest)) : rest.length < tokens.length := by
  unfold parseConstructor at h
  split at h
  · cases h
  · next name _ afterName hname =>
    have hlen : tokens.length = afterName.length + 1 := by
      rw [expectIdent_eq_ok hname, List.length_cons]
    split at h
    · split at h
      · cases h
      · next hfields =>
        cases h
        have := parseFields_length_lt hfields
        omega
    · cases h
      omega

/-- Reads constructors separated by pipes, at least one. -/
def parseConstructors (tokens : List Token) :
    Except ParseError (List Constructor × List Token) :=
  match _h : parseConstructor tokens with
  | .error e => .error e
  | .ok (variant, afterVariant) =>
    match afterVariant with
    | ⟨.pipe, _⟩ :: rest =>
      match parseConstructors rest with
      | .error e => .error e
      | .ok (variants, left) => .ok (variant :: variants, left)
    | _ => .ok ([variant], afterVariant)
termination_by tokens.length
decreasing_by
  have := parseConstructor_length_lt _h
  simp only [List.length_cons] at this
  omega

theorem parseConstructors_length_lt {tokens rest : List Token} {variants : List Constructor}
    (h : parseConstructors tokens = .ok (variants, rest)) : rest.length < tokens.length := by
  fun_induction parseConstructors tokens generalizing variants rest with
  | case1 => cases h
  | case2 => cases h
  | case3 tokens variant place tail hvariant variants' left htail _ ih =>
    have hlt := parseConstructor_length_lt hvariant
    have hih := ih htail
    cases h
    simp only [List.length_cons] at hlt
    omega
  | case4 tokens variant afterVariant hvariant =>
    have hlt := parseConstructor_length_lt hvariant
    cases h
    exact hlt

/-- Reads the right-hand side of a definition: a product if it starts with a
parenthesis, else a sum. -/
def parseBody (name : String) (tokens : List Token) : Except ParseError (Body × List Token) :=
  match (current tokens).kind with
  | .openParen =>
    match parseFields name tokens with
    | .error e => .error e
    | .ok (fields, afterFields) =>
      match parseAttributes name afterFields with
      | .error e => .error e
      | .ok (attributes, rest) => .ok (.product ⟨fields, attributes⟩, rest)
  | _ =>
    match parseConstructors tokens with
    | .error e => .error e
    | .ok (variants, afterVariants) =>
      match parseAttributes name afterVariants with
      | .error e => .error e
      | .ok (attributes, rest) => .ok (.sum ⟨variants, attributes⟩, rest)

theorem parseBody_length_lt {name : String} {tokens rest : List Token} {body : Body}
    (h : parseBody name tokens = .ok (body, rest)) : rest.length < tokens.length := by
  unfold parseBody at h
  split at h
  · split at h
    · cases h
    · next hfields =>
      split at h
      · cases h
      · next hattributes =>
        cases h
        exact Nat.lt_of_le_of_lt (parseAttributes_length_le hattributes)
          (parseFields_length_lt hfields)
  · split at h
    · cases h
    · next hvariants =>
      split at h
      · cases h
      · next hattributes =>
        cases h
        exact Nat.lt_of_le_of_lt (parseAttributes_length_le hattributes)
          (parseConstructors_length_lt hvariants)

/-- Reads one definition. -/
def parseDefinition (tokens : List Token) : Except ParseError (Definition × List Token) :=
  match expectIdent .typeName tokens with
  | .error e => .error e
  | .ok (name, _, afterName) =>
    match expect .equals .equals afterName with
    | .error e => .error e
    | .ok afterEquals =>
      match parseBody name afterEquals with
      | .error e => .error e
      | .ok (body, rest) => .ok (⟨name, body⟩, rest)

theorem parseDefinition_length_lt {tokens rest : List Token} {definition : Definition}
    (h : parseDefinition tokens = .ok (definition, rest)) : rest.length < tokens.length := by
  unfold parseDefinition at h
  split at h
  · cases h
  · next name _ afterName hname =>
    split at h
    · cases h
    · next afterEquals hequals =>
      split at h
      · cases h
      · next body left hbody =>
        cases h
        have hlt := parseBody_length_lt hbody
        obtain ⟨position, heq⟩ := expect_eq_ok hequals
        rw [expectIdent_eq_ok hname, heq]
        simp only [List.length_cons]
        omega

/-! ## Modules -/

/-- Reads definitions up to the closing brace, which is left in front. `seen` holds the
names defined so far. -/
def parseDefinitions (seen : List String) (tokens : List Token) :
    Except ParseError (List Definition × List Token) :=
  if (current tokens).kind = .closeBrace then .ok ([], tokens)
  else
    match _h : parseDefinition tokens with
    | .error e => .error e
    | .ok (definition, afterDefinition) =>
      if definition.name ∈ seen then
        .error (.duplicateType definition.name (current tokens).position)
      else
        match parseDefinitions (definition.name :: seen) afterDefinition with
        | .error e => .error e
        | .ok (definitions, rest) => .ok (definition :: definitions, rest)
termination_by tokens.length
decreasing_by exact parseDefinition_length_lt _h

/-- Reads a whole module. -/
def parseModule (tokens : List Token) : Except ParseError Schema :=
  match expect (.ident "module") .moduleKeyword tokens with
  | .error e => .error e
  | .ok afterKeyword =>
    match expectIdent .moduleName afterKeyword with
    | .error e => .error e
    | .ok (name, _, afterName) =>
      match expect .openBrace .openBrace afterName with
      | .error e => .error e
      | .ok afterBrace =>
        match parseDefinitions [] afterBrace with
        | .error e => .error e
        | .ok (types, afterTypes) =>
          match expect .closeBrace .closeBrace afterTypes with
          | .error e => .error e
          | .ok afterClose =>
            match expect .eof .endOfInput afterClose with
            | .error e => .error e
            | .ok _ => .ok ⟨name, types⟩

/-- Reads a schema from its notation. -/
def parse (source : String) : Except ParseError Schema :=
  match tokenize source with
  | .error e => .error (.lex e)
  | .ok tokens => parseModule tokens

end ReaderGen.Notation
