import ReaderGen.Yaml.Tag

/-!
# ReaderGen.Yaml.Token -- the tokens of a YAML stream

Scanning turns characters into tokens: scalars, properties, the marks of flow
collections, and the starts and ends of block collections, which indentation decides.

**A key can be recognised only at the colon behind it.** So wherever a token could be
a key on one line, its position among the tokens is remembered, and a colon that
follows in time puts the key mark there, with the start of a block mapping if one
starts. A remembered key is forgotten when its line ends or 1024 octets later; in
a block collection, a key that indentation requires must not be forgotten.
-/

namespace ReaderGen.Yaml

/-- A token of a stream. -/
inductive Token where
  | versionDirective (major minor : Nat)
  | tagDirective (handle : String) (uri : Octets)
  | documentStart
  | documentEnd
  | blockSequenceStart
  | blockMappingStart
  | blockEnd
  | flowSequenceStart
  | flowSequenceEnd
  | flowMappingStart
  | flowMappingEnd
  | blockEntry
  | flowEntry
  | key
  | value
  | alias (name : String)
  | anchor (name : String)
  | tag (handle : String) (tail : Octets)
  | scalar (text : String) (style : Style)
  | streamEnd
  deriving DecidableEq, Repr

/-! ## Directives and anchors -/

/-- Reads the digits of a version number, at most nine. -/
def readVersionNumber (p : Place) : Option (Nat × Place) :=
  let (digits, next) := p.span Char.isDigit
  if digits.isEmpty || 9 < digits.length then none
  else some (digits.foldl (fun value c => value * 10 + (c.toNat - '0'.toNat)) 0, next)

/-- Reads a directive whose percent sign is in front, up to the end of its line. -/
def readDirective (p : Place) : Option (Token × Place) := do
  let (name, behind) := (p.skip 1).span isWord
  if name.isEmpty || !behind.isGapAt 0 then none
  let start := (behind.span isBlank).2
  let (token, last) ← (
    if name = "YAML".toList then do
      let (major, afterMajor) ← readVersionNumber start
      if !afterMajor.isAt 0 '.' then none
      let (minor, afterMinor) ← readVersionNumber (afterMajor.skip 1)
      some (Token.versionDirective major minor, afterMinor)
    else if name = "TAG".toList then do
      let (handle, afterHandle) ← readHandle start
      if handle ≠ ['!'] && handle.getLast? ≠ some '!' then none
      if !afterHandle.rest.head?.any isBlank then none
      let (uri, afterUri) ← readTagPart true [] (afterHandle.span isBlank).2
      if !afterUri.isGapAt 0 then none
      some (Token.tagDirective (String.ofList handle) uri, afterUri)
    else none)
  let lineEnd ← skipLineRest last
  some (token, lineEnd.breakLine.2)

/-- Reads the name of an anchor or an alias, whose indicator is in front. -/
def readAnchorName (p : Place) : Option (String × Place) :=
  let (name, behind) := (p.skip 1).span isWord
  let ended := behind.isGapAt 0 || behind.rest.head?.any fun c => "?:,]\x7d%@`".contains c
  if name.isEmpty || !ended then none else some (String.ofList name, behind)

/-! ## The scanner's state -/

/-- A place that may turn out to be a key: the position that its token has among the
tokens, where it stands, and whether indentation requires it to be a key. -/
structure KeyMark where
  position : Nat
  mark : Mark
  isRequired : Bool
  deriving DecidableEq, Repr

/-- What has been scanned. `keys` holds one possible key for each open flow collection
and one for the block around them, innermost first. `level` is one more than the column
of the innermost block collection, and zero outside any; `levels` are those around it. -/
structure Scan where
  place : Place
  tokens : Array Token
  keys : List (Option KeyMark)
  level : Nat
  levels : List Nat
  keyAllowed : Bool

namespace Scan

/-- Nothing scanned yet. -/
def start (text : List Char) : Scan := ⟨⟨text, ⟨0, 0, 0⟩⟩, #[], [none], 0, [], true⟩

/-- Whether a flow collection is open. -/
def inFlow (s : Scan) : Bool := 1 < s.keys.length

/-- The column that the scanner has come to. -/
def column (s : Scan) : Nat := s.place.mark.column

/-- The state with one more token. -/
def push (s : Scan) (token : Token) : Scan := { s with tokens := s.tokens.push token }

/-- The state with one more token, at a later place. -/
def pushAt (s : Scan) (token : Token) (place : Place) : Scan :=
  { s with tokens := s.tokens.push token, place }

/-! ### Possible keys -/

/-- Forgets the innermost possible key, unless it is required. -/
def dropKey (s : Scan) : Option Scan :=
  match s.keys with
  | some key :: outer => if key.isRequired then none else some { s with keys := none :: outer }
  | _ => some s

/-- Remembers that a key may start here, if one is allowed here. -/
def saveKey (s : Scan) : Option Scan :=
  if s.keyAllowed then do
    let s ← s.dropKey
    let key : KeyMark := ⟨s.tokens.size, s.place.mark, !s.inFlow && s.level = s.column + 1⟩
    some { s with keys := some key :: s.keys.tail }
  else some s

/-- Whether a possible key is too far behind. -/
def isStale (mark : Mark) (key : KeyMark) : Bool :=
  key.mark.line < mark.line || key.mark.offset + 1024 < mark.offset

/-- Forgets the possible keys that are too far behind; none of them may be required. -/
def dropStaleKeys (s : Scan) : Option Scan := do
  let keys ← s.keys.mapM fun
    | some key =>
      if isStale s.place.mark key then (if key.isRequired then none else some none)
      else some (some key)
    | none => some none
  some { s with keys }

/-! ### Block collections -/

/-- Opens a block collection at a column, if that is further in. Its start is put at
`position` among the tokens. -/
def openBlock (s : Scan) (column position : Nat) (token : Token) : Scan :=
  if !s.inFlow && s.level < column + 1 then
    { s with
      level := column + 1
      levels := s.level :: s.levels
      tokens := s.tokens.insertIdxIfInBounds position token }
  else s

/-- Closes the block collections that stand further in than `level`. -/
def closeBlocks (level : Nat) : List Nat → Scan → Scan
  | [], s => s
  | outer :: levels, s =>
    if level < s.level then
      closeBlocks level levels { s with level := outer, levels, tokens := s.tokens.push .blockEnd }
    else s

/-- Closes the block collections that stand further in than `level`, outside flow. -/
def closeTo (level : Nat) (s : Scan) : Scan :=
  if s.inFlow then s else closeBlocks level s.levels s

/-! ### Between tokens -/

/-- Passes blanks, comments and line breaks, and a byte order mark at the start of a
line. A tab is not passed where it would be the indentation of a block collection. -/
def skipGaps : Nat → Scan → Scan
  | 0, s => s
  | fuel + 1, s =>
    let tabsCount := s.inFlow || !s.keyAllowed
    let behind := (s.place.passMark.span fun c => c = ' ' || (tabsCount && c = '\t')).2
    let lineEnd := if behind.isAt 0 '#' then (behind.span fun c => !isBreak c).2 else behind
    match lineEnd.breakLine with
    | ([], _) => { s with place := lineEnd }
    | (_, below) => skipGaps fuel { s with place := below, keyAllowed := s.keyAllowed || !s.inFlow }

/-! ### One token -/

/-- The end of the stream. -/
def scanEnd (s : Scan) : Option Scan := do
  let s ← (s.closeTo 0).dropKey
  some ((s.push .streamEnd))

/-- A directive. -/
def scanDirective (s : Scan) : Option Scan := do
  let s ← (s.closeTo 0).dropKey
  let (token, place) ← readDirective s.place
  some ({ s with keyAllowed := false }.pushAt token place)

/-- A document marker. -/
def scanDocumentMarker (s : Scan) : Option Scan := do
  let token := if s.place.isTripleAt '-' then Token.documentStart else .documentEnd
  let s ← (s.closeTo 0).dropKey
  some ({ s with keyAllowed := false }.pushAt token (s.place.skip 3))

/-- The opening bracket of a flow collection. -/
def scanFlowStart (token : Token) (s : Scan) : Option Scan := do
  let s ← s.saveKey
  some ({ s with keys := none :: s.keys, keyAllowed := true }.pushAt token (s.place.skip 1))

/-- The closing bracket of a flow collection. -/
def scanFlowEnd (token : Token) (s : Scan) : Option Scan := do
  let s ← s.dropKey
  let keys := if s.inFlow then s.keys.tail else s.keys
  some ({ s with keys, keyAllowed := false }.pushAt token (s.place.skip 1))

/-- A comma between the entries of a flow collection. -/
def scanFlowEntry (s : Scan) : Option Scan := do
  let s ← s.dropKey
  some ({ s with keyAllowed := true }.pushAt .flowEntry (s.place.skip 1))

/-- The dash before an entry of a block sequence. -/
def scanBlockEntry (s : Scan) : Option Scan := do
  if !s.inFlow && !s.keyAllowed then none
  let s ← (s.openBlock s.column s.tokens.size .blockSequenceStart).dropKey
  some ({ s with keyAllowed := true }.pushAt .blockEntry (s.place.skip 1))

/-- The question mark before a key. -/
def scanKey (s : Scan) : Option Scan := do
  if !s.inFlow && !s.keyAllowed then none
  let s ← (s.openBlock s.column s.tokens.size .blockMappingStart).dropKey
  some ({ s with keyAllowed := !s.inFlow }.pushAt .key (s.place.skip 1))

/-- The colon before a value. -/
def scanValue (s : Scan) : Option Scan :=
  match s.keys with
  | some key :: outer =>
    let marked := { s with
      tokens := s.tokens.insertIdxIfInBounds key.position .key
      keys := none :: outer
      keyAllowed := false }
    let opened := marked.openBlock key.mark.column key.position .blockMappingStart
    some (opened.pushAt .value (s.place.skip 1))
  | _ =>
    if !s.inFlow && !s.keyAllowed then none
    else
      let opened := s.openBlock s.column s.tokens.size .blockMappingStart
      some ({ opened with keyAllowed := !s.inFlow }.pushAt .value (s.place.skip 1))

/-- An anchor or an alias. -/
def scanAnchor (token : String → Token) (s : Scan) : Option Scan := do
  let s ← s.saveKey
  let (name, place) ← readAnchorName s.place
  some ({ s with keyAllowed := false }.pushAt (token name) place)

/-- A tag. -/
def scanTag (s : Scan) : Option Scan := do
  let s ← s.saveKey
  let ((handle, tail), place) ← readTag s.inFlow s.place
  some ({ s with keyAllowed := false }.pushAt (.tag handle tail) place)

/-- A block scalar. -/
def scanBlockScalar (style : Style) (s : Scan) : Option Scan := do
  let s ← s.dropKey
  let (text, place) ← readBlock (style = .folded) s.level s.place
  some ({ s with keyAllowed := true }.pushAt (.scalar text style) place)

/-- A quoted scalar. -/
def scanQuoted (quote : Char) (style : Style) (s : Scan) : Option Scan := do
  let s ← s.saveKey
  let (text, place) ← readQuoted quote s.place
  some ({ s with keyAllowed := false }.pushAt (.scalar text style) place)

/-- A plain scalar. -/
def scanPlain (s : Scan) : Option Scan := do
  let s ← s.saveKey
  let (text, broken, place) ← readPlain s.inFlow s.level s.place
  some ({ s with keyAllowed := broken }.pushAt (.scalar text .plain) place)

/-- Whether a plain scalar can start here. -/
def startsPlain (s : Scan) (c : Char) : Bool :=
  (!isSpace c && !"-?:,[]\x7b\x7d#&*!|>'\"%@`".contains c) ||
    (c = '-' && !s.place.rest.tail.head?.any isBlank) ||
    (!s.inFlow && (c = '?' || c = ':') && !s.place.isGapAt 1)

/-- The token that starts at a character. -/
def scanAt (c : Char) (s : Scan) : Option Scan :=
  if c = '%' && s.column = 0 then s.scanDirective
  else if s.place.isDocumentMarker then s.scanDocumentMarker
  else if c = '[' then s.scanFlowStart .flowSequenceStart
  else if c = '{' then s.scanFlowStart .flowMappingStart
  else if c = ']' then s.scanFlowEnd .flowSequenceEnd
  else if c = '}' then s.scanFlowEnd .flowMappingEnd
  else if c = ',' then s.scanFlowEntry
  else if c = '-' && s.place.isGapAt 1 then s.scanBlockEntry
  else if c = '?' && (s.inFlow || s.place.isGapAt 1) then s.scanKey
  else if c = ':' && (s.inFlow || s.place.isGapAt 1) then s.scanValue
  else if c = '*' then s.scanAnchor .alias
  else if c = '&' then s.scanAnchor .anchor
  else if c = '!' then s.scanTag
  else if c = '|' && !s.inFlow then s.scanBlockScalar .literal
  else if c = '>' && !s.inFlow then s.scanBlockScalar .folded
  else if c = '\'' then s.scanQuoted '\'' .singleQuoted
  else if c = '"' then s.scanQuoted '"' .doubleQuoted
  else if s.startsPlain c then s.scanPlain
  else none

/-- Scans to the end of the stream. -/
def scanFrom : Nat → Scan → Option Scan
  | 0, _ => none
  | fuel + 1, s => do
    let s ← (s.skipGaps (s.place.rest.length + 1)).dropStaleKeys
    let s := s.closeTo (s.column + 1)
    match s.place.rest with
    | [] => s.scanEnd
    | c :: _ => scanFrom fuel (← s.scanAt c)

end Scan

/-- The tokens of a stream, the end of the stream included. -/
def tokenize (source : String) : Option (List Token) := do
  let text ← prepare source
  let scanned ← (Scan.start text).scanFrom (text.length + 1)
  some scanned.tokens.toList

end ReaderGen.Yaml
