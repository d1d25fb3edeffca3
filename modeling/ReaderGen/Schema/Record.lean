import ReaderGen.Json
import ReaderGen.Schema

/-!
# ReaderGen.Schema.Record -- schemas as JSON records

Every part of a schema is a record. When written, every key is there; when read, the
two flags of a field default to false, and the lists `types`, `attributes` and the
`fields` of a constructor to the empty list. The `fields` of a product and the
`variants` of a sum are required. **The body of a definition is an object with exactly
one key, which says whether it is a sum or a product.**
-/

namespace ReaderGen

/-! ## Writing -/

/-- A field as a record. -/
def Field.toJson (field : Field) : Json :=
  .obj [("name", .str field.name), ("type", .str field.typeName),
    ("is-sequence", .bool field.isSequence), ("is-optional", .bool field.isOptional)]

/-- A list of fields. -/
def Field.listToJson (fields : List Field) : Json := .arr (fields.map Field.toJson)

/-- A constructor as a record. -/
def Constructor.toJson (variant : Constructor) : Json :=
  .obj [("name", .str variant.name), ("fields", Field.listToJson variant.fields)]

/-- A sum as a record. -/
def Sum.toJson (sum : Sum) : Json :=
  .obj [("variants", .arr (sum.variants.map Constructor.toJson)),
    ("attributes", Field.listToJson sum.attributes)]

/-- A product as a record. -/
def Product.toJson (product : Product) : Json :=
  .obj [("fields", Field.listToJson product.fields),
    ("attributes", Field.listToJson product.attributes)]

/-- A body as an object with one key. -/
def Body.toJson : Body → Json
  | .sum body => .obj [("sum", body.toJson)]
  | .product body => .obj [("product", body.toJson)]

/-- A definition as a record. -/
def Definition.toJson (definition : Definition) : Json :=
  .obj [("name", .str definition.name), ("body", definition.body.toJson)]

/-- A schema as a record. -/
def Schema.toJson (schema : Schema) : Json :=
  .obj [("name", .str schema.name), ("types", .arr (schema.types.map Definition.toJson))]

/-! ## Reading -/

/-- The field that a record holds. -/
def Field.ofJson? (json : Json) : Option Field := do
  let members ← json.members? ["name", "type", "is-sequence", "is-optional"]
  let name ← members.required "name" Json.str?
  let typeName ← members.required "type" Json.str?
  let isSequence ← members.orElse "is-sequence" false Json.bool?
  let isOptional ← members.orElse "is-optional" false Json.bool?
  some ⟨name, typeName, isSequence, isOptional⟩

/-- The fields that a list holds. -/
def Field.listOfJson? : Json → Option (List Field) := Json.list? Field.ofJson?

/-- The constructor that a record holds. -/
def Constructor.ofJson? (json : Json) : Option Constructor := do
  let members ← json.members? ["name", "fields"]
  let name ← members.required "name" Json.str?
  let fields ← members.orElse "fields" [] Field.listOfJson?
  some ⟨name, fields⟩

/-- The sum that a record holds. -/
def Sum.ofJson? (json : Json) : Option Sum := do
  let members ← json.members? ["variants", "attributes"]
  let variants ← members.required "variants" (Json.list? Constructor.ofJson?)
  let attributes ← members.orElse "attributes" [] Field.listOfJson?
  some ⟨variants, attributes⟩

/-- The product that a record holds. -/
def Product.ofJson? (json : Json) : Option Product := do
  let members ← json.members? ["fields", "attributes"]
  let fields ← members.required "fields" Field.listOfJson?
  let attributes ← members.orElse "attributes" [] Field.listOfJson?
  some ⟨fields, attributes⟩

/-- The body that an object with one key holds. -/
def Body.ofJson? : Json → Option Body
  | .obj [("sum", json)] => (Sum.ofJson? json).map .sum
  | .obj [("product", json)] => (Product.ofJson? json).map .product
  | _ => none

/-- The definition that a record holds. -/
def Definition.ofJson? (json : Json) : Option Definition := do
  let members ← json.members? ["name", "body"]
  let name ← members.required "name" Json.str?
  let body ← members.required "body" Body.ofJson?
  some ⟨name, body⟩

/-- The schema that a record holds. -/
def Schema.ofJson? (json : Json) : Option Schema := do
  let members ← json.members? ["name", "types"]
  let name ← members.required "name" Json.str?
  let types ← members.orElse "types" [] (Json.list? Definition.ofJson?)
  some ⟨name, types⟩

end ReaderGen
