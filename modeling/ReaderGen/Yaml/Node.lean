import ReaderGen.Yaml.Token

/-!
# ReaderGen.Yaml.Node -- the document that tokens write

A stream holds exactly one document, and a document is a tree of scalars, sequences
and mappings. A node may carry a tag; an anchor names a node, and an alias stands for
the node that its name referred to when the alias was read. **A node with an anchor or
a tag alone, a missing value and a missing key are empty plain scalars.**

Anchors are numbered by how many different names have been used before. A name that is
used again takes a new number, which the next new name may take over; an alias means
the node that took its number last.
-/

namespace ReaderGen.Yaml

/-- A node of a document. -/
inductive Node where
  | scalar (tag : Option Octets) (style : Style) (text : String)
  | sequence (tag : Option Octets) (items : List Node)
  | mapping (tag : Option Octets) (entries : List (Node × Node))
  | alias (number : Nat)
  deriving Repr, Inhabited

namespace Node

/-- The node of what is missing. -/
def empty : Node := .scalar none .plain ""

mutual

/-- The marks that a node is written with: one for a scalar or an alias, and a start and
an end for a collection. -/
def markCount : Node → Nat
  | .scalar _ _ _ => 1
  | .alias _ => 1
  | .sequence _ items => 2 + markCountItems items
  | .mapping _ entries => 2 + markCountEntries entries

/-- The marks of the items of a sequence. -/
def markCountItems : List Node → Nat
  | [] => 0
  | item :: items => item.markCount + markCountItems items

/-- The marks of the entries of a mapping. -/
def markCountEntries : List (Node × Node) → Nat
  | [] => 0
  | (key, value) :: entries => key.markCount + value.markCount + markCountEntries entries

end

end Node

/-! ## Anchors -/

/-- The anchors met so far: the number of each name, the last node that took each
number, by the order in which nodes with anchors start, and those nodes. -/
structure Anchors where
  numbers : List (String × Nat)
  owners : List (Nat × Nat)
  nodes : List (Nat × Node)
  started : Nat
  deriving Repr

namespace Anchors

/-- No anchors. -/
def none : Anchors := ⟨[], [], [], 0⟩

/-- A node with this anchor starts; also its place in the order of such nodes. -/
def start (anchors : Anchors) (name : String) : Nat × Anchors :=
  let number := anchors.numbers.length
  let others := anchors.numbers.filter fun entry => entry.1 ≠ name
  (anchors.started,
    { anchors with
      numbers := (name, number) :: others
      owners := (number, anchors.started) :: anchors.owners
      started := anchors.started + 1 })

/-- The node that started there is complete. -/
def complete (anchors : Anchors) (order : Nat) (node : Node) : Anchors :=
  { anchors with nodes := (order, node) :: anchors.nodes }

/-- The node that a number stands for. -/
def node? (anchors : Anchors) (number : Nat) : Option Node := do
  anchors.nodes.lookup (← anchors.owners.lookup number)

end Anchors

/-! ## Reading nodes -/

/-- The tokens that are left, the tag handles in force and the anchors met. -/
structure NodeReader where
  tokens : List Token
  handles : List (String × Octets)
  anchors : Anchors

/-- The reader past its first token. -/
def NodeReader.advance (r : NodeReader) : NodeReader := { r with tokens := r.tokens.tail }

/-- The token in front, if it is one of these. -/
def NodeReader.isAtAny (r : NodeReader) (tokens : List Token) : Bool :=
  r.tokens.head?.any fun token => tokens.contains token

/-- The anchor and the tag in front of a node, in either order. -/
def readProperties (r : NodeReader) :
    Option String × Option (String × Octets) × NodeReader :=
  match r.tokens with
  | .anchor name :: .tag handle tail :: rest =>
    (some name, some (handle, tail), { r with tokens := rest })
  | .anchor name :: rest => (some name, none, { r with tokens := rest })
  | .tag handle tail :: .anchor name :: rest =>
    (some name, some (handle, tail), { r with tokens := rest })
  | .tag handle tail :: rest => (none, some (handle, tail), { r with tokens := rest })
  | _ => (none, none, r)

/-- What a node without content is: nothing, unless it has a property. -/
def emptyOr (hasProperty : Bool) (tag : Option Octets) : Option Node :=
  if hasProperty then some (.scalar tag .plain "") else none

/-- The tokens that end an entry of a block mapping. -/
def blockKeyEnds : List Token := [.key, .value, .blockEnd]

mutual

/-- Reads a node. Block collections are read only where they are allowed, and dashes
at the column of the mapping around them only where that is. -/
def readNode (fuel : Nat) (inBlock isValue : Bool) (r : NodeReader) : Option (Node × NodeReader) :=
  match fuel with
  | 0 => none
  | fuel + 1 =>
    match r.tokens with
    | .alias name :: rest => do
      let number ← r.anchors.numbers.lookup name
      some (.alias number, { r with tokens := rest })
    | _ => do
      let (anchor, property, r) := readProperties r
      let tag ← match property with
        | some (handle, tail) => (expandTag r.handles handle tail).map some
        | none => some none
      match anchor with
      | none => readContent fuel inBlock isValue (property.isSome) tag r
      | some name => do
        let (order, anchors) := r.anchors.start name
        let (node, r) ← readContent fuel inBlock isValue true tag { r with anchors }
        some (node, { r with anchors := r.anchors.complete order node })

/-- Reads what follows the properties of a node. -/
def readContent (fuel : Nat) (inBlock isValue hasProperty : Bool) (tag : Option Octets)
    (r : NodeReader) : Option (Node × NodeReader) :=
  match fuel with
  | 0 => none
  | fuel + 1 =>
    match r.tokens with
    | .scalar text style :: rest => some (.scalar tag style text, { r with tokens := rest })
    | .flowSequenceStart :: _ => do
      let (items, r) ← readFlowItems fuel true r.advance
      some (.sequence tag items, r)
    | .flowMappingStart :: _ => do
      let (entries, r) ← readFlowEntries fuel true r.advance
      some (.mapping tag entries, r)
    | token :: _ =>
      if isValue && token = .blockEntry then do
        let (items, r) ← readDashes fuel r
        some (.sequence tag items, r)
      else if inBlock && token = .blockSequenceStart then do
        let (items, r) ← readBlockItems fuel r.advance
        some (.sequence tag items, r)
      else if inBlock && token = .blockMappingStart then do
        let (entries, r) ← readBlockEntries fuel r.advance
        some (.mapping tag entries, r)
      else (emptyOr hasProperty tag).map (·, r)
    | [] => none

/-- Reads the items of a block sequence, up to and including its end. -/
def readBlockItems (fuel : Nat) (r : NodeReader) : Option (List Node × NodeReader) :=
  match fuel with
  | 0 => none
  | fuel + 1 =>
    match r.tokens with
    | .blockEntry :: _ => do
      let r := r.advance
      let (item, r) ←
        if r.isAtAny [.blockEntry, .blockEnd] then some (Node.empty, r)
        else readNode fuel true false r
      let (items, r) ← readBlockItems fuel r
      some (item :: items, r)
    | .blockEnd :: _ => some ([], r.advance)
    | _ => none

/-- Reads the items of a sequence whose dashes stand at the column of the mapping
around it. -/
def readDashes (fuel : Nat) (r : NodeReader) : Option (List Node × NodeReader) :=
  match fuel with
  | 0 => none
  | fuel + 1 =>
    match r.tokens with
    | .blockEntry :: _ => do
      let r := r.advance
      let (item, r) ←
        if r.isAtAny (.blockEntry :: blockKeyEnds) then some (Node.empty, r)
        else readNode fuel true false r
      let (items, r) ← readDashes fuel r
      some (item :: items, r)
    | _ => some ([], r)

/-- Reads the entries of a block mapping, up to and including its end. -/
def readBlockEntries (fuel : Nat) (r : NodeReader) : Option (List (Node × Node) × NodeReader) :=
  match fuel with
  | 0 => none
  | fuel + 1 =>
    match r.tokens with
    | .key :: _ => do
      let r := r.advance
      let (key, r) ←
        if r.isAtAny blockKeyEnds then some (Node.empty, r) else readNode fuel true true r
      let (value, r) ← readBlockValue fuel r
      let (entries, r) ← readBlockEntries fuel r
      some ((key, value) :: entries, r)
    | .blockEnd :: _ => some ([], r.advance)
    | _ => none

/-- Reads the value of an entry of a block mapping, which may be missing. -/
def readBlockValue (fuel : Nat) (r : NodeReader) : Option (Node × NodeReader) :=
  match fuel with
  | 0 => none
  | fuel + 1 =>
    match r.tokens with
    | .value :: _ =>
      let r := r.advance
      if r.isAtAny blockKeyEnds then some (Node.empty, r) else readNode fuel true true r
    | _ => some (Node.empty, r)

/-- Reads the items of a flow sequence, up to and including its end. -/
def readFlowItems (fuel : Nat) (isFirst : Bool) (r : NodeReader) :
    Option (List Node × NodeReader) :=
  match fuel with
  | 0 => none
  | fuel + 1 =>
    if r.isAtAny [.flowSequenceEnd] then some ([], r.advance)
    else do
      let r ←
        if isFirst then some r else if r.isAtAny [.flowEntry] then some r.advance else none
      match r.tokens with
      | .flowSequenceEnd :: _ => some ([], r.advance)
      | .key :: _ => do
        let (item, r) ← readFlowPair fuel r.advance
        let (items, r) ← readFlowItems fuel false r
        some (item :: items, r)
      | _ => do
        let (item, r) ← readNode fuel false false r
        let (items, r) ← readFlowItems fuel false r
        some (item :: items, r)

/-- Reads a mapping of one entry that stands as an item of a flow sequence. A missing
key takes the token behind it along. -/
def readFlowPair (fuel : Nat) (r : NodeReader) : Option (Node × NodeReader) :=
  match fuel with
  | 0 => none
  | fuel + 1 => do
    let (key, r) ←
      if r.isAtAny [.value, .flowEntry, .flowSequenceEnd] then some (Node.empty, r.advance)
      else readNode fuel false false r
    let (value, r) ←
      if r.isAtAny [.value] then
        let r := r.advance
        if r.isAtAny [.flowEntry, .flowSequenceEnd] then some (Node.empty, r)
        else readNode fuel false false r
      else some (Node.empty, r)
    some (.mapping none [(key, value)], r)

/-- Reads the entries of a flow mapping, up to and including its end. -/
def readFlowEntries (fuel : Nat) (isFirst : Bool) (r : NodeReader) :
    Option (List (Node × Node) × NodeReader) :=
  match fuel with
  | 0 => none
  | fuel + 1 =>
    if r.isAtAny [.flowMappingEnd] then some ([], r.advance)
    else do
      let r ←
        if isFirst then some r else if r.isAtAny [.flowEntry] then some r.advance else none
      match r.tokens with
      | .flowMappingEnd :: _ => some ([], r.advance)
      | .key :: _ => do
        let r := r.advance
        let (key, r) ←
          if r.isAtAny [.value, .flowEntry, .flowMappingEnd] then some (Node.empty, r)
          else readNode fuel false false r
        let (value, r) ←
          if r.isAtAny [.value] then
            let r := r.advance
            if r.isAtAny [.flowEntry, .flowMappingEnd] then some (Node.empty, r)
            else readNode fuel false false r
          else some (Node.empty, r)
        let (entries, r) ← readFlowEntries fuel false r
        some ((key, value) :: entries, r)
      | _ => do
        let (key, r) ← readNode fuel false false r
        let (entries, r) ← readFlowEntries fuel false r
        some ((key, Node.empty) :: entries, r)

end

/-! ## The document -/

/-- Reads the directives in front of a document. The version may be given once and
must be 1.1 or 1.2; a handle may be given once. -/
def readDirectives (hasVersion : Bool) (handles : List (String × Octets)) :
    List Token → Option (List (String × Octets) × List Token)
  | .versionDirective major minor :: rest =>
    if hasVersion || major ≠ 1 || (minor ≠ 1 && minor ≠ 2) then none
    else readDirectives true handles rest
  | .tagDirective handle uri :: rest =>
    if (handles.lookup handle).isSome then none
    else readDirectives hasVersion (handles ++ [(handle, uri)]) rest
  | rest => some (handles, rest)

/-- A document: its root, and its anchors. -/
structure Document where
  root : Node
  anchors : Anchors
  deriving Repr

namespace Document

/-- What is read from a document, where the state is how many aliases may still be
followed. -/
abbrev Reading := StateT Nat Option

/-- How often aliases may be followed in all. The bound keeps the reading of a document
linear in its length, whatever its aliases repeat. -/
def maxFollowed (document : Document) : Nat := 100 * document.root.markCount

/-- What an alias stands for; another node stands for itself. -/
def resolve (document : Document) : Node → Reading Node
  | .alias number => fun left =>
    if left = 0 then none
    else (document.anchors.node? number).map (·, left - 1)
  | node => pure node

end Document

/-- The steps that reading a node from so many tokens takes at most. -/
def readFuel (tokens : List Token) : Nat := 4 * tokens.length + 8

/-- Reads the root of a document. -/
def readRoot (handles : List (String × Octets)) (tokens : List Token) :
    Option (Node × NodeReader) :=
  readNode (readFuel tokens) true false ⟨tokens, handles, Anchors.none⟩

/-- Reads the root of the document in front. A document without directives needs no
marker; behind a marker the root may be missing. -/
def readFirst (tokens : List Token) : Option (Node × NodeReader) :=
  let directive : Token → Bool
    | .versionDirective _ _ | .tagDirective _ _ | .documentStart => true
    | _ => false
  if tokens.head?.any directive then do
    let (handles, rest) ← readDirectives false [] tokens
    let handles := handles ++ standardHandles
    match rest with
    | .documentStart :: rest =>
      let ended := rest.head?.any fun token =>
        directive token || token = .documentEnd || token = .streamEnd
      if ended then some (Node.empty, ⟨rest, handles, Anchors.none⟩)
      else readRoot handles rest
    | _ => none
  else readRoot standardHandles tokens

/-- The document of a stream that holds exactly one. -/
def Document.ofTokens? (tokens : List Token) : Option Document := do
  let (root, r) ← readFirst tokens
  match r.tokens.dropWhile (· = .documentEnd) with
  | [.streamEnd] => some ⟨root, r.anchors⟩
  | _ => none

/-- The document that a text writes. -/
def Document.ofText? (source : String) : Option Document := do
  Document.ofTokens? (← tokenize source)

end ReaderGen.Yaml
