import ReaderGen.Json
import ReaderGen.Text.Quoted

/-!
# ReaderGen.Json.Pretty -- JSON text for people

One member or item a line, two blanks more for each level, `[]` and `{}` for what is
empty. In a string only the quote, the backslash and the characters below the space
are escaped, the five common ones by their short names.
-/

namespace ReaderGen.Json

/-- How one character of a string is written. -/
def escapeChar (c : Char) : List Char :=
  if c = '"' then ['\\', '"']
  else if c = '\\' then ['\\', '\\']
  else if c = '\x08' then ['\\', 'b']
  else if c = '\t' then ['\\', 't']
  else if c = '\n' then ['\\', 'n']
  else if c = '\x0c' then ['\\', 'f']
  else if c = '\r' then ['\\', 'r']
  else if c.toNat < 0x10 then ['\\', 'u', '0', '0', '0'] ++ Text.hexDigits c.toNat
  else if c.toNat < 0x20 then ['\\', 'u', '0', '0'] ++ Text.hexDigits c.toNat
  else [c]

/-- A string in quotes. -/
def quoted (text : String) : String :=
  String.ofList ('"' :: (text.toList.flatMap escapeChar ++ ['"']))

/-- A fresh line, indented by two blanks for each level. -/
def freshLine (level : Nat) : String :=
  String.ofList ('\n' :: List.replicate (2 * level) ' ')

/-- A number with `places` digits after the point. -/
def decimalText (mantissa : Int) (places : Nat) : String :=
  let digits := (Nat.toDigits 10 mantissa.natAbs)
  let padded := List.replicate (places + 1 - digits.length) '0' ++ digits
  let whole := padded.take (padded.length - places)
  let fraction := padded.drop (padded.length - places)
  (if mantissa < 0 then "-" else "") ++ String.ofList whole ++ "." ++ String.ofList fraction

mutual

/-- The text of a document whose first line stands at `level`. -/
def prettyAt (level : Nat) : Json → String
  | .null => "null"
  | .bool value => if value then "true" else "false"
  | .int value => toString value
  | .decimal mantissa places => decimalText mantissa places
  | .str value => quoted value
  | .arr [] => "[]"
  | .arr (item :: items) =>
    "[" ++ prettyItems (level + 1) (item :: items) ++ freshLine level ++ "]"
  | .obj [] => "\x7b\x7d"
  | .obj (member :: members) =>
    "\x7b" ++ prettyMembers (level + 1) (member :: members) ++ freshLine level ++ "\x7d"

/-- The items of a list, one a line. -/
def prettyItems (level : Nat) : List Json → String
  | [] => ""
  | [item] => freshLine level ++ prettyAt level item
  | item :: items => freshLine level ++ prettyAt level item ++ "," ++ prettyItems level items

/-- The members of an object, one a line. -/
def prettyMembers (level : Nat) : List (String × Json) → String
  | [] => ""
  | [(key, value)] => freshLine level ++ quoted key ++ ": " ++ prettyAt level value
  | (key, value) :: members =>
    freshLine level ++ quoted key ++ ": " ++ prettyAt level value ++ "," ++
      prettyMembers level members

end

/-- The text of a document. -/
def pretty (json : Json) : String := json.prettyAt 0

end ReaderGen.Json
