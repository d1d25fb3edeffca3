import ReaderGen.Layout
import ReaderGen.TypeTable

/-!
# ReaderGen.Layout.Build -- from a schema to its layout

Two visitors walk the type table. The first collects the names that must be declared
ahead: compound sums and products. The second builds the declarations, definition by
definition:

* a simple sum becomes its enumeration;
* a compound sum becomes its enumeration, its tagged base with the attributes, and one
  class for each constructor that has fields;
* a product becomes one class with the attributes.

**Slots stand one width apart, from byte one in a constructor's class, whose byte zero
is the tag, and from byte zero in a product's class.** Tag values count from one, and a
tag is a byte, so a sum has at most 255 constructors.

A visitor only ever appends. When it fails it keeps what it had completed: the
declarations before the fault, and the deferred accessors before the faulty field.
-/

namespace ReaderGen

/-! ## Faults -/

/-- Why a schema has no layout. -/
inductive BuildError where
  | resolve (error : ResolveError)
  | nonBuiltinAttribute (owner name typeName : String)
  | tooManyConstructors (typeName : String) (count : Nat)
  | optionalSequence (owner field : String)
  deriving DecidableEq, Repr

/-- The diagnostic for a schema without a layout. -/
def BuildError.message : BuildError → String
  | resolve error => error.message
  | nonBuiltinAttribute owner name typeName =>
    "attribute '" ++ name ++ "' of '" ++ owner ++ "' has type '" ++ typeName ++
      "', but attributes must be builtin scalars"
  | tooManyConstructors typeName count =>
    "sum '" ++ typeName ++ "' has " ++ toString count ++
      " constructors; at most 255 fit in a tag byte"
  | optionalSequence owner field =>
    "field '" ++ field ++ "' of '" ++ owner ++ "' cannot be both optional and repeated"

namespace Layout

/-! ## Parts of a declaration -/

/-- The greatest number of constructors. -/
def maxConstructors : Nat := 255

/-- Constructors with the tag values from `value` on. -/
def numberFrom (value : Nat) : List Constructor → List EnumVariant
  | [] => []
  | variant :: rest => ⟨variant.name, UInt8.ofNat value⟩ :: numberFrom (value + 1) rest

/-- The enumeration of a sum. -/
def enumerationOf (typeName : String) (sum : Sum) : Except BuildError Enumeration :=
  if maxConstructors < sum.variants.length then
    .error (.tooManyConstructors typeName sum.variants.length)
  else .ok ⟨typeName, numberFrom 1 sum.variants⟩

/-- The attributes of a definition, all of which must be builtin. -/
def attributesOf (owner : String) : List Field → Except BuildError (List Attribute)
  | [] => .ok []
  | field :: rest =>
    match field.builtin? with
    | none => .error (.nonBuiltinAttribute owner field.name field.typeName)
    | some builtin =>
      match attributesOf owner rest with
      | .error fault => .error fault
      | .ok attributes => .ok (⟨field.name, builtin⟩ :: attributes)

/-- What an accessor returns for a reference. -/
def valueKind (reference : Reference) (isOptional : Bool) : ValueKind :=
  match reference with
  | .builtin .int => .int
  | .builtin .bool => .bool
  | .builtin .string => .str
  | .builtin .id => .id
  | .enumeration definition => .enumeration definition.name
  | .object definition => .object definition.name isOptional

/-- How many values an accessor reads for a field. -/
def cardinality (encoding : Encoding) (field : Field) : Cardinality :=
  if field.isSequence then .repeated encoding.arrayStride else .single

/-- The accessor of a field with its slot at `offset`. -/
def accessorOf (table : TypeTable) (encoding : Encoding) (owner : String) (field : Field)
    (offset : UInt32) : Except BuildError Accessor :=
  if field.isSequence && field.isOptional then .error (.optionalSequence owner field.name)
  else
    match table.resolve owner field with
    | .error fault => .error (.resolve fault)
    | .ok reference =>
      .ok ⟨field.name, offset, valueKind reference field.isOptional, cardinality encoding field⟩

/-! ## Collected parts -/

/-- What has been built so far. -/
structure Parts where
  declarations : List Declaration
  deferred : List Deferred
  deriving DecidableEq, Repr

namespace Parts

/-- Nothing. -/
def empty : Parts := ⟨[], []⟩

/-- The parts with more behind them. -/
def append (parts more : Parts) : Parts :=
  ⟨parts.declarations ++ more.declarations, parts.deferred ++ more.deferred⟩

/-- The parts with an accessor queued, if its body follows every class. -/
def enqueue (parts : Parts) (owner : ClassRef) (accessor : Accessor) : Parts :=
  if accessor.isDeferred then parts.append ⟨[], [⟨owner, accessor⟩]⟩ else parts

end Parts

/-- The accessors of fields laid out one slot apart from `offset` on, up to the first faulty
field. Each accessor is queued as soon as it is built. -/
def addAccessors (table : TypeTable) (encoding : Encoding) (ref : ClassRef) (owner : String) :
    UInt32 → List Field → Parts → Parts × Except BuildError (List Accessor)
  | _, [], parts => (parts, .ok [])
  | offset, field :: rest, parts =>
    match accessorOf table encoding owner field offset with
    | .error fault => (parts, .error fault)
    | .ok accessor =>
      match addAccessors table encoding ref owner (offset + encoding.refWidth) rest
          (parts.enqueue ref accessor) with
      | (after, .ok accessors) => (after, .ok (accessor :: accessors))
      | (after, .error fault) => (after, .error fault)

/-- Adds a class. Its accessors are queued before it is declared, so the accessors
in front of a faulty field stay queued for a class that is never declared. -/
def addClass (table : TypeTable) (encoding : Encoding) (ref : ClassRef) (owner : String)
    (fields : List Field) (offset : UInt32) (attributes : List Attribute) :
    VisitStep Parts BuildError :=
  fun parts =>
    match addAccessors table encoding ref owner offset fields parts with
    | (queued, .ok accessors) =>
      (queued.append ⟨[.accessorClass ⟨ref, accessors, attributes⟩], []⟩, .ok ())
    | (queued, .error fault) => (queued, .error fault)

/-- Adds the classes of the constructors that have fields. -/
def addVariants (table : TypeTable) (encoding : Encoding) (sumName : String) :
    List Constructor → VisitStep Parts BuildError
  | [], parts => (parts, .ok ())
  | variant :: rest, parts =>
    if variant.fields.isEmpty then addVariants table encoding sumName rest parts
    else
      match addClass table encoding (.variant sumName variant.name) variant.name variant.fields
          1 [] parts with
      | (after, .ok ()) => addVariants table encoding sumName rest after
      | (after, .error fault) => (after, .error fault)

/-- Adds the declarations of a simple sum. Its attributes have no place to be stored,
but must be builtin all the same. -/
def addSimpleSum (typeName : String) (sum : Sum) : VisitStep Parts BuildError :=
  fun parts =>
    match enumerationOf typeName sum with
    | .error fault => (parts, .error fault)
    | .ok enumeration =>
      match attributesOf typeName sum.attributes with
      | .error fault => (parts, .error fault)
      | .ok _ => (parts.append ⟨[.enumeration enumeration], []⟩, .ok ())

/-- Adds the declarations of a compound sum. -/
def addCompoundSum (table : TypeTable) (encoding : Encoding) (typeName : String) (sum : Sum) :
    VisitStep Parts BuildError :=
  fun parts =>
    match enumerationOf typeName sum with
    | .error fault => (parts, .error fault)
    | .ok enumeration =>
      match attributesOf typeName sum.attributes with
      | .error fault => (parts, .error fault)
      | .ok attributes =>
        addVariants table encoding typeName sum.variants
          (parts.append ⟨[.enumeration enumeration, .taggedBase ⟨typeName, attributes⟩], []⟩)

/-- Adds the declaration of a product. -/
def addProduct (table : TypeTable) (encoding : Encoding) (typeName : String) (product : Product) :
    VisitStep Parts BuildError :=
  fun parts =>
    match attributesOf typeName product.attributes with
    | .error fault => (parts, .error fault)
    | .ok attributes =>
      addClass table encoding (.product typeName) typeName product.fields 0 attributes parts

/-! ## The two visitors -/

/-- Collects the names of compound sums and products. -/
def forwardCollector : Visitor (List String) BuildError where
  compoundSum _ name _ names := (names ++ [name], .ok ())
  product _ name _ names := (names ++ [name], .ok ())

/-- Builds declarations and the queue of deferred accessors. -/
def declarationBuilder (encoding : Encoding) : Visitor Parts BuildError where
  simpleSum _ name sum := addSimpleSum name sum
  compoundSum table name sum := addCompoundSum table encoding name sum
  product table name product := addProduct table encoding name product

/-! ## The layout of a schema -/

/-- The layout of the schema of a table. -/
def ofTable (table : TypeTable) (encoding : Encoding) : Except BuildError Layout :=
  match forwardCollector.walk table [] with
  | (_, .error fault) => .error fault
  | (forwards, .ok ()) =>
    match (declarationBuilder encoding).walk table Parts.empty with
    | (_, .error fault) => .error fault
    | (parts, .ok ()) =>
      .ok ⟨currentVersion, table.schema.name, encoding, forwards, parts.declarations,
        parts.deferred⟩

/-- The layout of a schema, or the first fault that it has. -/
def build (schema : Schema) (encoding : Encoding) : Except BuildError Layout :=
  match TypeTable.ofSchema schema with
  | .error fault => .error (.resolve fault)
  | .ok table => ofTable table encoding

end Layout

end ReaderGen
