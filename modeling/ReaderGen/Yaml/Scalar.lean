import ReaderGen.Yaml.Text

/-!
# ReaderGen.Yaml.Scalar -- the five ways to write a scalar

Plain, single-quoted, double-quoted, literal and folded scalars. Within the first three
a gap with a line break is folded: **one newline becomes a space, and of several the
first is dropped.** A literal scalar keeps its line breaks; a folded one folds those
between two lines of text that are not indented further.

Every reader takes the place behind the indicator or at the first character, and
returns the text with the place behind the scalar, or nothing if it is malformed.
-/

namespace ReaderGen.Yaml

/-- How a scalar was written. -/
inductive Style where
  | plain
  | singleQuoted
  | doubleQuoted
  | literal
  | folded
  deriving DecidableEq, Repr

/-! ## Gaps inside a scalar -/

/-- Blanks and line breaks between two runs of text. `first` is the first line break
and `more` the others; blanks count only while there is no line break. -/
structure Gap where
  blanks : List Char
  broken : Bool
  first : List Char
  more : List Char
  deriving DecidableEq, Repr

namespace Gap

/-- No gap. -/
def none : Gap := ⟨[], false, [], []⟩

/-- The gap behind an escaped line break. -/
def escaped : Gap := ⟨[], true, [], []⟩

/-- What a gap stands for. -/
def text (gap : Gap) : List Char :=
  if gap.broken then
    if gap.first = ['\n'] then (if gap.more.isEmpty then [' '] else gap.more)
    else gap.first ++ gap.more
  else gap.blanks

end Gap

/-- Reads on through a gap. A tab before column `floor` is no indentation. -/
def readGap (floor : Nat) (gap : Gap) (mark : Mark) : List Char → Option (Gap × Place)
  | [] => some (gap, ⟨[], mark⟩)
  | c :: rest =>
    if isBlank c then
      if gap.broken then
        if c = '\t' && mark.column < floor then Option.none
        else readGap floor gap (mark.along [c]) rest
      else readGap floor { gap with blanks := gap.blanks ++ [c] } (mark.along [c]) rest
    else if isBreak c then
      if gap.broken then readGap floor { gap with more := gap.more ++ [c] } (mark.below c) rest
      else readGap floor ⟨[], true, [c], []⟩ (mark.below c) rest
    else some (gap, ⟨c :: rest, mark⟩)

/-! ## Plain scalars -/

/-- A character that ends a plain scalar inside a flow collection. -/
def isFlowMark (c : Char) : Bool :=
  c = ',' || c = '[' || c = ']' || c = '{' || c = '}'

/-- Reads the text in front up to a gap or to what ends a plain scalar. -/
def plainRun (inFlow : Bool) : List Char → Option (List Char)
  | [] => some []
  | c :: rest =>
    if isSpace c then some []
    else if inFlow && c = ':' && rest.head?.any (fun d => isFlowMark d || d = '?') then none
    else if c = ':' && !rest.head?.any (fun d => !isSpace d) then some []
    else if inFlow && isFlowMark c then some []
    else (plainRun inFlow rest).map (c :: ·)

/-- Reads a plain scalar on, line by line. `floor` is the least column of its
continuation lines outside flow collections. The gap behind the last text is returned
with it. -/
def plainFrom (inFlow : Bool) (floor : Nat) :
    Nat → List Char → Gap → Place → Option (List Char × Gap × Place)
  | 0, _, _, _ => none
  | fuel + 1, text, gap, p =>
    if p.isDocumentMarker || p.isAt 0 '#' then some (text, gap, p)
    else do
      let run ← plainRun inFlow p.rest
      let behind := p.skip run.length
      let text := if run.isEmpty then text else text ++ gap.text ++ run
      let gap := if run.isEmpty then gap else Gap.none
      match behind.rest with
      | [] => some (text, gap, behind)
      | c :: _ =>
        if !isSpace c then some (text, gap, behind)
        else do
          let (gap, next) ← readGap floor gap behind.mark behind.rest
          if !inFlow && next.mark.column < floor then some (text, gap, next)
          else plainFrom inFlow floor fuel text gap next

/-- Reads a plain scalar; also whether a line break follows it. -/
def readPlain (inFlow : Bool) (floor : Nat) (p : Place) : Option (String × Bool × Place) := do
  let (text, gap, next) ← plainFrom inFlow floor (p.rest.length + 1) [] Gap.none p
  some (String.ofList text, gap.broken, next)

/-! ## Quoted scalars -/

/-- What a backslash and one character stand for. -/
def shortEscape? : Char → Option Char
  | '0' => some '\x00'
  | 'a' => some '\x07'
  | 'b' => some '\x08'
  | 't' => some '\t'
  | '\t' => some '\t'
  | 'n' => some '\n'
  | 'v' => some '\x0b'
  | 'f' => some '\x0c'
  | 'r' => some '\r'
  | 'e' => some '\x1b'
  | ' ' => some ' '
  | '"' => some '"'
  | '/' => some '/'
  | '\\' => some '\\'
  | 'N' => some '\u0085'
  | '_' => some '\u00a0'
  | 'L' => some '\u2028'
  | 'P' => some '\u2029'
  | _ => none

/-- How many hexadecimal digits follow a backslash and this character. -/
def escapeDigits? : Char → Option Nat
  | 'x' => some 2
  | 'u' => some 4
  | 'U' => some 8
  | _ => none

/-- The value of a hexadecimal digit. -/
def hexValue? (c : Char) : Option Nat :=
  if c.isDigit then some (c.toNat - '0'.toNat)
  else if 'a' ≤ c ∧ c ≤ 'f' then some (c.toNat - 'a'.toNat + 10)
  else if 'A' ≤ c ∧ c ≤ 'F' then some (c.toNat - 'A'.toNat + 10)
  else none

/-- The number that hexadecimal digits write. -/
def hexNumber? (digits : List Char) : Option Nat :=
  digits.foldlM (fun value c => (hexValue? c).map (value * 16 + ·)) 0

/-- The character with this code point, unless it is a surrogate or out of range. -/
def charOf? (code : Nat) : Option Char :=
  if h : code.isValidChar then some (Char.ofNatAux code h) else none

/-- What a backslash and the characters `rest` start with, and how many of them. -/
def escape? (rest : List Char) : Option (Char × Nat) :=
  match rest with
  | [] => none
  | c :: digits =>
    match shortEscape? c with
    | some meaning => some (meaning, 1)
    | none => do
      let count ← escapeDigits? c
      if digits.length < count then none
      else do
        let code ← hexNumber? (digits.take count)
        let meaning ← charOf? code
        some (meaning, count + 1)

/-- Reads the text in front up to a gap, the closing quote or an escaped line break,
and says whether it was that break. -/
def quotedRun (quote : Char) : Nat → Place → Option (List Char × Bool × Place)
  | 0, _ => none
  | fuel + 1, p =>
    match p.rest with
    | [] => some ([], false, p)
    | c :: rest =>
      if isSpace c then some ([], false, p)
      else if quote = '\'' && c = '\'' && rest.head? = some '\'' then do
        let (run, broken, next) ← quotedRun quote fuel (p.skip 2)
        some ('\'' :: run, broken, next)
      else if c = quote then some ([], false, p)
      else if quote = '"' && c = '\\' then
        if rest.head?.any isBreak then some ([], true, (p.skip 1).breakLine.2)
        else do
          let (meaning, length) ← escape? rest
          let (run, broken, next) ← quotedRun quote fuel (p.skip (length + 1))
          some (meaning :: run, broken, next)
      else do
        let (run, broken, next) ← quotedRun quote fuel (p.skip 1)
        some (c :: run, broken, next)

/-- Reads a quoted scalar on, up to and including its closing quote. -/
def quotedFrom (quote : Char) : Nat → List Char → Place → Option (List Char × Place)
  | 0, _, _ => none
  | fuel + 1, text, p =>
    if p.isDocumentMarker || p.rest.isEmpty then none
    else do
      let (run, broken, behind) ← quotedRun quote (p.rest.length + 1) p
      let text := text ++ run
      if behind.isAt 0 quote then some (text, behind.skip 1)
      else do
        let start := if broken then Gap.escaped else Gap.none
        let (gap, next) ← readGap 0 start behind.mark behind.rest
        quotedFrom quote fuel (text ++ gap.text) next

/-- Reads a quoted scalar whose opening quote is in front. -/
def readQuoted (quote : Char) (p : Place) : Option (String × Place) := do
  let (text, next) ← quotedFrom quote (p.rest.length + 1) [] (p.skip 1)
  some (String.ofList text, next)

/-! ## Block scalars -/

/-- What happens to the line breaks at the end of a block scalar. -/
inductive Chomping where
  | strip
  | clip
  | keep
  deriving DecidableEq, Repr

/-- The chomping that an indicator asks for. -/
def chompingOf? : Option Char → Option Chomping
  | some '+' => some .keep
  | some '-' => some .strip
  | _ => none

/-- The indentation that a digit asks for: none for another character; zero is
malformed. -/
def incrementOf? : Option Char → Option (Option Nat)
  | some c =>
    if c.isDigit then (if c = '0' then none else some (some (c.toNat - '0'.toNat)))
    else some none
  | none => some none

/-- Reads the indicators of a block scalar, in either order. -/
def blockIndicators (p : Place) : Option (Chomping × Option Nat × Place) := do
  match chompingOf? (p.peek? 0) with
  | some chomping =>
    match ← incrementOf? (p.peek? 1) with
    | some increment => some (chomping, some increment, p.skip 2)
    | none => some (chomping, none, p.skip 1)
  | none =>
    match ← incrementOf? (p.peek? 0) with
    | some increment =>
      match chompingOf? (p.peek? 1) with
      | some chomping => some (chomping, some increment, p.skip 2)
      | none => some (.clip, some increment, p.skip 1)
    | none => some (.clip, none, p)

/-- Passes blanks and a comment up to the end of the line. -/
def skipLineRest (p : Place) : Option Place :=
  let (_, q) := p.span isBlank
  let r := if q.isAt 0 '#' then (q.span fun c => !isBreak c).2 else q
  if r.isLineEnd then some r else none

/-- Passes indentation and empty lines. With no `indent` yet, every space is
indentation. Returns the greatest column met and the line breaks. -/
def blockBreaks (indent : Option Nat) :
    Nat → Nat → List Char → Place → Option (Nat × List Char × Place)
  | 0, _, _, _ => none
  | fuel + 1, widest, breaks, p =>
    let spaces := p.rest.takeWhile (· = ' ')
    let width :=
      match indent with
      | none => spaces.length
      | some column => min spaces.length (column - p.mark.column)
    let q := p.skip width
    let widest := max widest q.mark.column
    let inside :=
      match indent with
      | none => true
      | some column => q.mark.column < column
    if inside && q.isAt 0 '\t' then none
    else
      match q.breakLine with
      | ([], _) => some (widest, breaks, q)
      | (ended, next) => blockBreaks indent fuel widest (breaks ++ ended) next

/-- What has been read of a block scalar: its text, the last line break, whether the
last line started with a blank, and the line breaks behind it. -/
structure BlockText where
  text : List Char
  ended : List Char
  leadingBlank : Bool
  breaks : List Char
  deriving DecidableEq, Repr

/-- The text with one more line. -/
def BlockText.addLine (block : BlockText) (isFolded : Bool) (line : List Char)
    (ended breaks : List Char) : BlockText :=
  let blank := line.head?.any isBlank
  let joint :=
    if isFolded && block.ended = ['\n'] && !block.leadingBlank && !blank then
      if block.breaks.isEmpty then [' '] else []
    else block.ended
  ⟨block.text ++ joint ++ block.breaks ++ line, ended, blank, breaks⟩

/-- Reads the lines of a block scalar that stand at column `indent`. -/
def blockLines (isFolded : Bool) (indent : Nat) :
    Nat → BlockText → Place → Option (BlockText × Place)
  | 0, _, _ => none
  | fuel + 1, block, p =>
    if p.mark.column ≠ indent || p.rest.isEmpty then some (block, p)
    else do
      let (line, behind) := p.span fun c => !isBreak c
      let (ended, below) := behind.breakLine
      let (_, breaks, next) ← blockBreaks (some indent) (below.rest.length + 1) 0 [] below
      blockLines isFolded indent fuel (block.addLine isFolded line ended breaks) next

/-- Reads a block scalar whose indicator is in front. `level` is one more than the
indentation of the collection around it, and zero outside any. -/
def readBlock (isFolded : Bool) (level : Nat) (p : Place) : Option (String × Place) := do
  let (chomping, increment, header) ← blockIndicators (p.skip 1)
  let lineEnd ← skipLineRest header
  let first := lineEnd.breakLine.2
  let given := increment.map (level - 1 + ·)
  let (widest, breaks, start) ← blockBreaks given (first.rest.length + 1) 0 [] first
  let indent := given.getD (max (max widest level) 1)
  let (block, next) ←
    blockLines isFolded indent (start.rest.length + 1) ⟨[], [], false, breaks⟩ start
  let tail :=
    match chomping with
    | .strip => []
    | .clip => block.ended
    | .keep => block.ended ++ block.breaks
  some (String.ofList (block.text ++ tail), next)

end ReaderGen.Yaml
