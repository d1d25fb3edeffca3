import ReaderGen.Yaml.Scalar

/-!
# ReaderGen.Yaml.Tag -- the tags of nodes

A tag is a string of octets. It is written in characters of its own, and other octets
are written as escapes, those of one character together. **Escapes are held to the
lengths of UTF-8 and to nothing else, so a tag need not be text.** An escaped zero
ends the part of the tag that it stands in; what follows it there is read and dropped.

A tag is written with a handle, which a directive or a standard expands, or in full
between angle brackets. A tag that begins with an exclamation mark is local. The rest
of it is the name of a choice, if it is text.
-/

namespace ReaderGen.Yaml

/-- A string of octets. -/
abbrev Octets := List UInt8

/-- The octets of a text. -/
def octetsOf (text : String) : Octets := text.toList.flatMap String.utf8EncodeChar

/-- Whether octets are a text. -/
def isText (octets : Octets) : Bool := (String.fromUTF8? ⟨octets.toArray⟩).isSome

/-- Whether a tag is local and names a choice. -/
def isChoiceTag : Option Octets → Bool
  | some (mark :: name) => octetsOf "!" = [mark] && isText name
  | _ => false

/-- The tag of truth values. -/
def truthTag : Octets := octetsOf "tag:yaml.org,2002:bool"

/-- The handles that need no directive. -/
def standardHandles : List (String × Octets) :=
  [("!", octetsOf "!"), ("!!", octetsOf "tag:yaml.org,2002:")]

/-- The full tag. A tag without a handle is full already; a handle must be known. -/
def expandTag (handles : List (String × Octets)) (handle : String) (tail : Octets) :
    Option Octets :=
  if handle.isEmpty then some tail else (handles.lookup handle).map (· ++ tail)

/-! ## Escapes -/

/-- A character of a tag. Commas and brackets count only in a full identifier. -/
def isTagChar (isFull : Bool) (c : Char) : Bool :=
  isWord c || ";/?:@&=+$.%!~*'()".contains c || (isFull && (c = ',' || c = '[' || c = ']'))

/-- The octet that an escape in front writes. -/
def escapedOctet? (cs : List Char) : Option UInt8 :=
  match cs with
  | '%' :: high :: low :: _ => (hexNumber? [high, low]).map UInt8.ofNat
  | _ => none

/-- How many octets the character takes that an octet starts. -/
def sequenceLength? (octet : UInt8) : Option Nat :=
  let n := octet.toNat
  if n < 0x80 then some 1
  else if n / 0x20 = 6 then some 2
  else if n / 0x10 = 14 then some 3
  else if n / 8 = 30 then some 4
  else none

/-- Reads `count` more escaped octets of one character. -/
def escapedTail (count : Nat) (p : Place) : Option (Octets × Place) :=
  match count with
  | 0 => some ([], p)
  | count + 1 => do
    let octet ← escapedOctet? p.rest
    if octet.toNat / 0x40 ≠ 2 then none
    let (octets, next) ← escapedTail count (p.skip 3)
    some (octet :: octets, next)

/-- Reads one character that is written as escaped octets. -/
def escapedChar (p : Place) : Option (Octets × Place) := do
  let lead ← escapedOctet? p.rest
  let length ← sequenceLength? lead
  let (octets, next) ← escapedTail (length - 1) (p.skip 3)
  some (lead :: octets, next)

/-! ## Reading tags -/

/-- Reads the octets of a tag. -/
def tagOctets (isFull : Bool) : Nat → Octets → Place → Option (Octets × Place)
  | 0, _, _ => none
  | fuel + 1, octets, p =>
    match p.rest with
    | [] => some (octets, p)
    | c :: _ =>
      if !isTagChar isFull c then some (octets, p)
      else if c = '%' then do
        let (more, next) ← escapedChar p
        tagOctets isFull fuel (octets ++ more) next
      else tagOctets isFull fuel (octets ++ String.utf8EncodeChar c) (p.skip 1)

/-- Reads a part of a tag behind `start`, what of it was read already, and cuts it at
its first zero. The part must not be empty altogether. -/
def readTagPart (isFull : Bool) (start : List Char) (p : Place) : Option (Octets × Place) := do
  let (octets, next) ← tagOctets isFull (p.rest.length + 1) [] p
  if start.isEmpty && octets.isEmpty then none
  let whole := octetsOf (String.ofList (start.drop 1)) ++ octets
  some (whole.takeWhile (· ≠ 0), next)

/-- Reads an exclamation mark, a word, and another exclamation mark if it is there. -/
def readHandle (p : Place) : Option (List Char × Place) :=
  if p.isAt 0 '!' then
    let (word, behind) := (p.skip 1).span isWord
    if behind.isAt 0 '!' then some ('!' :: (word ++ ['!']), behind.skip 1)
    else some ('!' :: word, behind)
  else none

/-- Reads a tag whose exclamation mark is in front: its handle and the rest. A tag
without a handle of its own has the handle `!`, and the mark alone stands for itself. -/
def readTag (inFlow : Bool) (p : Place) : Option ((String × Octets) × Place) := do
  let (tag, behind) ← (
    if p.isAt 1 '<' then do
      let (uri, last) ← readTagPart true [] (p.skip 2)
      if !last.isAt 0 '>' then none
      some (("", uri), last.skip 1)
    else do
      let (handle, afterHandle) ← readHandle p
      if handle ≠ ['!'] && handle.getLast? = some '!' then do
        let (tail, last) ← readTagPart false [] afterHandle
        some ((String.ofList handle, tail), last)
      else do
        let (tail, last) ← readTagPart false handle afterHandle
        if tail.isEmpty then some (("", octetsOf "!"), last) else some (("!", tail), last))
  if behind.isGapAt 0 || (inFlow && behind.isAt 0 ',') then some (tag, behind) else none

end ReaderGen.Yaml
