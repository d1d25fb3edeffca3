/-!
# ReaderGen.Schema -- schemas of tagged and plain records

A schema is a named list of type definitions. A definition is a *sum*, a choice
between named constructors, or a *product*, one plain list of fields. Both may carry
attributes: fields that are stored directly in the object and not in a slot.

**The order of definitions, constructors and fields is part of the schema**: it
decides the tag values and the slot layout. Nothing here forbids repeated or unknown
names; that is the business of the notation and of the type table.
-/

namespace ReaderGen

/-! ## Builtin types -/

/-- The scalar types that every schema can use without declaring them. An `id` is a
token of the application and is read like an enumeration. -/
inductive Builtin where
  | string
  | int
  | bool
  | id
  deriving DecidableEq, Repr, Inhabited

namespace Builtin

/-- The name of the type in a schema. -/
def name : Builtin → String
  | string => "string"
  | int => "int"
  | bool => "bool"
  | id => "id"

/-- Every builtin type. -/
def all : List Builtin := [string, int, bool, id]

/-- The builtin type of that name. -/
def ofName? (name : String) : Option Builtin :=
  all.find? fun builtin => builtin.name = name

theorem ofName?_eq_some_iff {text : String} {builtin : Builtin} :
    ofName? text = some builtin ↔ builtin.name = text := by
  constructor
  · intro h
    simpa using List.find?_some h
  · rintro rfl
    cases builtin <;> decide

end Builtin

/-! ## Fields, sums and products -/

/-- A field with the name of its type. -/
structure Field where
  name : String
  typeName : String
  isSequence : Bool := false
  isOptional : Bool := false
  deriving DecidableEq, Repr, Inhabited

/-- The builtin type that the field names, if it names one. -/
def Field.builtin? (field : Field) : Option Builtin :=
  Builtin.ofName? field.typeName

/-- The same field, repeated. -/
def Field.repeated (field : Field) : Field := { field with isSequence := true }

/-- The same field, optional. -/
def Field.optional (field : Field) : Field := { field with isOptional := true }

/-- One alternative of a sum. -/
structure Constructor where
  name : String
  fields : List Field := []
  deriving DecidableEq, Repr, Inhabited

/-- A choice between constructors. -/
structure Sum where
  variants : List Constructor
  attributes : List Field := []
  deriving DecidableEq, Repr, Inhabited

/-- A sum is simple when no constructor has a field; its values are bare names. -/
def Sum.isSimple (sum : Sum) : Bool :=
  sum.variants.all fun variant => variant.fields.isEmpty

/-- One plain list of fields. -/
structure Product where
  fields : List Field
  attributes : List Field := []
  deriving DecidableEq, Repr, Inhabited

/-- What a definition defines. -/
inductive Body where
  | sum (sum : Sum)
  | product (product : Product)
  deriving DecidableEq, Repr, Inhabited

/-- A named type. -/
structure Definition where
  name : String
  body : Body
  deriving DecidableEq, Repr, Inhabited

/-- The same definition with these attributes in place of its own. -/
def Definition.withAttributes (definition : Definition) (attributes : List Field) : Definition :=
  match definition.body with
  | .sum sum => { definition with body := .sum { sum with attributes } }
  | .product product => { definition with body := .product { product with attributes } }

/-! ## Shapes -/

/-- How a definition is represented: a simple sum by its enumeration alone, a
compound sum by tagged classes, a product by one class. -/
inductive Shape where
  | simpleSum (sum : Sum)
  | compoundSum (sum : Sum)
  | product (product : Product)
  deriving DecidableEq, Repr

/-- The shape of a definition. -/
def Definition.shape (definition : Definition) : Shape :=
  match definition.body with
  | .sum sum => if sum.isSimple then .simpleSum sum else .compoundSum sum
  | .product product => .product product

/-- Compound sums and products are represented by classes. -/
def Shape.isClass : Shape → Bool
  | .simpleSum _ => false
  | .compoundSum _ => true
  | .product _ => true

/-! ## Schemas -/

/-- A named list of definitions. -/
structure Schema where
  name : String
  types : List Definition := []
  deriving DecidableEq, Repr, Inhabited

/-- The first definition of that name. -/
def Schema.get? (schema : Schema) (name : String) : Option Definition :=
  schema.types.find? fun definition => definition.name = name

end ReaderGen
