import ReaderGen.Encoding
import ReaderGen.Schema

/-!
# ReaderGen.Layout -- the reader classes of a schema, before they become text

A layout says what a reader declares and where it finds its data: enumerations,
tagged bases, and accessor classes whose accessors read slots at fixed byte offsets.
It names no syntax of the generated code.

An object accessor returns a reference to another class. Its body needs every class
to be complete, so it is **deferred**: the layout lists it again, with its owner, in
the queue of bodies that follow the last class.
-/

namespace ReaderGen

/-! ## Enumerations and attributes -/

/-- A constructor with its tag value. -/
structure EnumVariant where
  name : String
  value : UInt8
  deriving DecidableEq, Repr

/-- The enumeration of the constructors of a sum. -/
structure Enumeration where
  typeName : String
  variants : List EnumVariant
  deriving DecidableEq, Repr

/-- A member stored in the object itself. -/
structure Attribute where
  name : String
  builtin : Builtin
  deriving DecidableEq, Repr

/-- The common base of the classes of a compound sum; its first byte is the tag. -/
structure TaggedBase where
  typeName : String
  attributes : List Attribute
  deriving DecidableEq, Repr

/-! ## Accessors and classes -/

/-- Which class: the one of a product, or the one of a constructor. -/
inductive ClassRef where
  | product (typeName : String)
  | variant (sumName constructor : String)
  deriving DecidableEq, Repr

/-- What an accessor returns. -/
inductive ValueKind where
  | int
  | bool
  | str
  | id
  | enumeration (typeName : String)
  | object (typeName : String) (isOptional : Bool)
  deriving DecidableEq, Repr

/-- How many values an accessor reads. The array of a repeated field starts with its
count; element `i` stands at `(i + 1) * stride`. -/
inductive Cardinality where
  | single
  | repeated (stride : UInt32)
  deriving DecidableEq, Repr

/-- Access to one field through its slot. -/
structure Accessor where
  field : String
  offset : UInt32
  value : ValueKind
  cardinality : Cardinality
  deriving DecidableEq, Repr

/-- An accessor that returns an object has its body after every class. -/
def Accessor.isDeferred (accessor : Accessor) : Bool :=
  match accessor.value with
  | .object _ _ => true
  | _ => false

/-- A class of accessors. -/
structure AccessorClass where
  ref : ClassRef
  accessors : List Accessor
  attributes : List Attribute
  deriving DecidableEq, Repr

/-- An accessor whose body follows every class, with the class it belongs to. -/
structure Deferred where
  owner : ClassRef
  accessor : Accessor
  deriving DecidableEq, Repr

/-! ## Layouts -/

/-- One declaration of the reader. -/
inductive Declaration where
  | enumeration (body : Enumeration)
  | taggedBase (body : TaggedBase)
  | accessorClass (body : AccessorClass)
  deriving DecidableEq, Repr

/-- Everything that a reader declares, in order. -/
structure Layout where
  version : UInt32
  moduleName : String
  encoding : Encoding
  forwards : List String
  declarations : List Declaration
  deferred : List Deferred
  deriving DecidableEq, Repr

/-- The version that layouts are built with. -/
def Layout.currentVersion : UInt32 := 1

end ReaderGen
