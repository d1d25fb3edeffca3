/-!
# ReaderGen.Json -- JSON values and records

`Json` is a JSON document as a tree. Numbers with a fraction are kept apart from
integers, because no record of this library holds one. Members of an object keep
their order.

A *record* is a JSON object read by its keys. **Unknown keys are ignored, a missing
key takes its default or fails the record, and no key accepts `null`.** A list is read
as a record too: its items are the values of the record's keys in their own order,
and a list longer than the record has keys is refused.

A *choice* is one of several alternatives with names. A choice with members is a record
whose tag holds the name; a choice without members is the name alone, or an object
with the name as its only key and no value. **Strictly read, a choice is named.
Loosely read, a tag may also number it**, from zero in the order of the alternatives,
and the missing value may be an empty object.
-/

namespace ReaderGen

/-- A JSON document. -/
inductive Json where
  | null
  | bool (value : Bool)
  | int (value : Int)
  | decimal (mantissa : Int) (places : Nat)
  | str (value : String)
  | arr (items : List Json)
  | obj (members : List (String × Json))
  deriving Repr, Inhabited

/-- The members of a record, by key. -/
abbrev Members := List (String × Json)

namespace Json

/-! ## Scalars -/

/-- A string. -/
def str? : Json → Option String
  | .str value => some value
  | _ => none

/-- A truth value. -/
def bool? : Json → Option Bool
  | .bool value => some value
  | _ => none

/-- A natural number below `bound`. -/
def natBelow? (bound : Nat) : Json → Option Nat
  | .int value => if 0 ≤ value ∧ value < bound then some value.toNat else none
  | _ => none

/-- A number of 32 bits. -/
def uint32? (json : Json) : Option UInt32 :=
  (json.natBelow? UInt32.size).map UInt32.ofNat

/-- A number of 8 bits. -/
def uint8? (json : Json) : Option UInt8 :=
  (json.natBelow? UInt8.size).map UInt8.ofNat

/-- A list of what `read` reads. -/
def list? {α : Type} (read : Json → Option α) : Json → Option (List α)
  | .arr items => items.mapM read
  | _ => none

/-! ## Records -/

/-- The members of a record with these keys. -/
def members? (keys : List String) : Json → Option Members
  | .obj members => some members
  | .arr items => if items.length ≤ keys.length then some (keys.zip items) else none
  | _ => none

/-! ## Choices -/

/-- How a choice is read. -/
inductive Rigour where
  | strict
  | loose
  deriving DecidableEq, Repr

/-- The name of a choice without members. -/
def plainChoice? (rigour : Rigour) : Json → Option String
  | .str name => some name
  | .obj [(name, .null)] => some name
  | .obj [(name, .obj [])] => if rigour = .loose then some name else none
  | _ => none

/-- The name of the choice that a tag holds, where `names` are the alternatives. -/
def choice? (rigour : Rigour) (names : List String) : Json → Option String
  | .str name => if names.contains name then some name else none
  | .int number => if rigour = .loose ∧ 0 ≤ number then names[number.toNat]? else none
  | _ => none

/-- A choice with members: its name, and the record without the tag. In a list the tag
comes first. -/
def tagged? (rigour : Rigour) (tag : String) (names : List String) : Json → Option (String × Json)
  | .obj members => do
    let name ← (← members.lookup tag).choice? rigour names
    some (name, .obj members)
  | .arr (head :: items) => do
    let name ← head.choice? rigour names
    some (name, .arr items)
  | _ => none

end Json

namespace Members

/-- The value of a key that must be there. -/
def required {α : Type} (key : String) (read : Json → Option α) (members : Members) : Option α :=
  (members.lookup key).bind read

/-- The value of a key, or the default where it is missing. -/
def orElse {α : Type} (key : String) (default : α) (read : Json → Option α)
    (members : Members) : Option α :=
  match members.lookup key with
  | none => some default
  | some json => read json

end Members

end ReaderGen
