import ReaderGen.Layout

/-!
# ReaderGen.Layout.Record -- layouts as JSON records

The record of a layout can be printed for inspection and read back. Choices with
members are tagged: a declaration by `decl`, a class, a value and a cardinality by
`kind`. When written, every key is there and stands in a fixed order, the tag first, and
every choice is named. When read, only the two `attributes` lists may be missing, and
**the choices inside a declaration are read loosely**, all others strictly.
-/

namespace ReaderGen

/-! ## Writing -/

/-- A constructor with its tag value. -/
def EnumVariant.toJson (variant : EnumVariant) : Json :=
  .obj [("name", .str variant.name), ("value", .int variant.value.toNat)]

/-- An attribute. -/
def Attribute.toJson (member : Attribute) : Json :=
  .obj [("name", .str member.name), ("builtin", .str member.builtin.name)]

/-- The name of a class. -/
def ClassRef.toJson : ClassRef → Json
  | product typeName => .obj [("kind", .str "product"), ("type_name", .str typeName)]
  | variant sumName constructor =>
    .obj [("kind", .str "variant"), ("sum_name", .str sumName), ("constructor", .str constructor)]

/-- What an accessor returns. -/
def ValueKind.toJson : ValueKind → Json
  | int => .obj [("kind", .str "int")]
  | bool => .obj [("kind", .str "bool")]
  | str => .obj [("kind", .str "str")]
  | id => .obj [("kind", .str "id")]
  | enumeration typeName => .obj [("kind", .str "enum"), ("type_name", .str typeName)]
  | object typeName isOptional =>
    .obj [("kind", .str "object"), ("type_name", .str typeName), ("optional", .bool isOptional)]

/-- How many values an accessor reads. -/
def Cardinality.toJson : Cardinality → Json
  | single => .obj [("kind", .str "single")]
  | repeated stride => .obj [("kind", .str "repeated"), ("stride", .int stride.toNat)]

/-- An accessor. -/
def Accessor.toJson (accessor : Accessor) : Json :=
  .obj [("field", .str accessor.field), ("offset", .int accessor.offset.toNat),
    ("value", accessor.value.toJson), ("cardinality", accessor.cardinality.toJson)]

/-- The members of the record of an enumeration. -/
def Enumeration.members (enumeration : Enumeration) : Members :=
  [("type_name", .str enumeration.typeName),
    ("variants", .arr (enumeration.variants.map EnumVariant.toJson))]

/-- The members of the record of a tagged base. -/
def TaggedBase.members (base : TaggedBase) : Members :=
  [("type_name", .str base.typeName), ("attributes", .arr (base.attributes.map Attribute.toJson))]

/-- The members of the record of a class. -/
def AccessorClass.members (cls : AccessorClass) : Members :=
  [("class", cls.ref.toJson), ("accessors", .arr (cls.accessors.map Accessor.toJson)),
    ("attributes", .arr (cls.attributes.map Attribute.toJson))]

/-- A declaration: its tag, then the members of its body. -/
def Declaration.toJson : Declaration → Json
  | enumeration body => .obj (("decl", .str "enum") :: body.members)
  | taggedBase body => .obj (("decl", .str "tagged-base") :: body.members)
  | accessorClass body => .obj (("decl", .str "class") :: body.members)

/-- A deferred accessor. -/
def Deferred.toJson (deferred : Deferred) : Json :=
  .obj [("owner", deferred.owner.toJson), ("accessor", deferred.accessor.toJson)]

/-- A layout. -/
def Layout.toJson (layout : Layout) : Json :=
  .obj [("version", .int layout.version.toNat), ("module_name", .str layout.moduleName),
    ("encoding", layout.encoding.toJson), ("forward_decls", .arr (layout.forwards.map .str)),
    ("declarations", .arr (layout.declarations.map Declaration.toJson)),
    ("deferred", .arr (layout.deferred.map Deferred.toJson))]

/-! ## Reading -/

/-- The constructor that a record holds. -/
def EnumVariant.ofJson? (json : Json) : Option EnumVariant := do
  let members ← json.members? ["name", "value"]
  let name ← members.required "name" Json.str?
  let value ← members.required "value" Json.uint8?
  some ⟨name, value⟩

/-- The attribute that a record holds. -/
def Attribute.ofJson? (rigour : Json.Rigour) (json : Json) : Option Attribute := do
  let members ← json.members? ["name", "builtin"]
  let name ← members.required "name" Json.str?
  let builtin ← members.required "builtin" (Json.plainChoice? rigour)
  some ⟨name, ← Builtin.ofName? builtin⟩

/-- The class that a record names. -/
def ClassRef.ofJson? (rigour : Json.Rigour) (json : Json) : Option ClassRef := do
  let (kind, record) ← json.tagged? rigour "kind" ["product", "variant"]
  match kind with
  | "product" =>
    let members ← record.members? ["type_name"]
    some (.product (← members.required "type_name" Json.str?))
  | "variant" =>
    let members ← record.members? ["sum_name", "constructor"]
    let sumName ← members.required "sum_name" Json.str?
    some (.variant sumName (← members.required "constructor" Json.str?))
  | _ => none

/-- The kind of value that a record describes. -/
def ValueKind.ofJson? (rigour : Json.Rigour) (json : Json) : Option ValueKind := do
  let (kind, record) ←
    json.tagged? rigour "kind" ["int", "bool", "str", "id", "enum", "object"]
  match kind with
  | "int" => (record.members? []).map fun _ => .int
  | "bool" => (record.members? []).map fun _ => .bool
  | "str" => (record.members? []).map fun _ => .str
  | "id" => (record.members? []).map fun _ => .id
  | "enum" =>
    let members ← record.members? ["type_name"]
    some (.enumeration (← members.required "type_name" Json.str?))
  | "object" =>
    let members ← record.members? ["type_name", "optional"]
    let typeName ← members.required "type_name" Json.str?
    some (.object typeName (← members.required "optional" Json.bool?))
  | _ => none

/-- The cardinality that a record describes. -/
def Cardinality.ofJson? (rigour : Json.Rigour) (json : Json) : Option Cardinality := do
  let (kind, record) ← json.tagged? rigour "kind" ["single", "repeated"]
  match kind with
  | "single" => (record.members? []).map fun _ => .single
  | "repeated" =>
    let members ← record.members? ["stride"]
    some (.repeated (← members.required "stride" Json.uint32?))
  | _ => none

/-- The accessor that a record holds. -/
def Accessor.ofJson? (rigour : Json.Rigour) (json : Json) : Option Accessor := do
  let members ← json.members? ["field", "offset", "value", "cardinality"]
  let field ← members.required "field" Json.str?
  let offset ← members.required "offset" Json.uint32?
  let value ← members.required "value" (ValueKind.ofJson? rigour)
  let cardinality ← members.required "cardinality" (Cardinality.ofJson? rigour)
  some ⟨field, offset, value, cardinality⟩

/-- The enumeration that a record holds. -/
def Enumeration.ofJson? (json : Json) : Option Enumeration := do
  let members ← json.members? ["type_name", "variants"]
  let typeName ← members.required "type_name" Json.str?
  let variants ← members.required "variants" (Json.list? EnumVariant.ofJson?)
  some ⟨typeName, variants⟩

/-- The tagged base that a record holds. -/
def TaggedBase.ofJson? (rigour : Json.Rigour) (json : Json) : Option TaggedBase := do
  let members ← json.members? ["type_name", "attributes"]
  let typeName ← members.required "type_name" Json.str?
  let attributes ← members.orElse "attributes" [] (Json.list? (Attribute.ofJson? rigour))
  some ⟨typeName, attributes⟩

/-- The class that a record holds. -/
def AccessorClass.ofJson? (rigour : Json.Rigour) (json : Json) : Option AccessorClass := do
  let members ← json.members? ["class", "accessors", "attributes"]
  let ref ← members.required "class" (ClassRef.ofJson? rigour)
  let accessors ← members.required "accessors" (Json.list? (Accessor.ofJson? rigour))
  let attributes ← members.orElse "attributes" [] (Json.list? (Attribute.ofJson? rigour))
  some ⟨ref, accessors, attributes⟩

/-- The declaration that a record holds. -/
def Declaration.ofJson? (json : Json) : Option Declaration := do
  let (decl, record) ← json.tagged? .strict "decl" ["enum", "tagged-base", "class"]
  match decl with
  | "enum" => (Enumeration.ofJson? record).map .enumeration
  | "tagged-base" => (TaggedBase.ofJson? .loose record).map .taggedBase
  | "class" => (AccessorClass.ofJson? .loose record).map .accessorClass
  | _ => none

/-- The deferred accessor that a record holds. -/
def Deferred.ofJson? (json : Json) : Option Deferred := do
  let members ← json.members? ["owner", "accessor"]
  let owner ← members.required "owner" (ClassRef.ofJson? .strict)
  let accessor ← members.required "accessor" (Accessor.ofJson? .strict)
  some ⟨owner, accessor⟩

/-- The layout that a record holds. -/
def Layout.ofJson? (json : Json) : Option Layout := do
  let members ← json.members?
    ["version", "module_name", "encoding", "forward_decls", "declarations", "deferred"]
  let version ← members.required "version" Json.uint32?
  let moduleName ← members.required "module_name" Json.str?
  let encoding ← members.required "encoding" Encoding.ofJson?
  let forwards ← members.required "forward_decls" (Json.list? Json.str?)
  let declarations ← members.required "declarations" (Json.list? Declaration.ofJson?)
  let deferred ← members.required "deferred" (Json.list? Deferred.ofJson?)
  some ⟨version, moduleName, encoding, forwards, declarations, deferred⟩

end ReaderGen
