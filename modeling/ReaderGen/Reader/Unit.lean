import ReaderGen.Reader.Accessor
import ReaderGen.Reader.Support

/-!
# ReaderGen.Reader.Unit -- the generated unit

A unit is, in this order: the base class, the names declared ahead, the declarations,
the deferred bodies, and the bodies of the base class. A cast to a class is valid only
once that class is complete, so **every deferred body stands behind every class**.

Each emitter writes line by line and stops at the first line that cannot be wrapped, and
so does every emitter that calls it.
-/

namespace ReaderGen.Reader

/-- The values of an enumeration, on one logical line. -/
def enumerationValues (variants : List EnumVariant) : String :=
  ", ".intercalate (variants.map fun variant =>
    variant.name ++ " = " ++ toString variant.value.toNat)

namespace Writer

/-! ## Declarations -/

/-- Writes the names declared ahead, and a blank line behind them. -/
def emitForwards (names : List String) : Writer Unit := do
  for name in names do
    emit ("class " ++ className name ++ ";") 0
  emit "" 0

/-- Writes an enumeration, and a blank line behind it. -/
def emitEnumeration (enumeration : Enumeration) (depth : Nat) : Writer Unit := do
  emit (opened ("enum class " ++ enumName enumeration.typeName ++ " : uint8_t")) depth
  emit (enumerationValues enumeration.variants) (depth + 1)
  emit (closing ++ ";") depth
  emit "" depth

/-- Writes attributes, one line for each. -/
def emitAttributes (attributes : List Attribute) (depth : Nat) : Writer Unit := do
  for member in attributes do
    emit (builtinType member.builtin ++ " " ++ member.name ++ ";") depth

/-- Writes the base of the classes of a sum, and a blank line behind it. -/
def emitTaggedBase (base : TaggedBase) (depth : Nat) : Writer Unit := do
  let type := enumName base.typeName
  emit (opened ("class " ++ className base.typeName ++ " : public Obj")) depth
  emit " public:" depth
  emit (opened (type ++ " tag() const")) (depth + 1)
  emit ("return static_cast<" ++ type ++ ">(bytes_[0]);") (depth + 2)
  emit closing (depth + 1)
  emitAttributes base.attributes (depth + 1)
  emit (closing ++ ";") depth
  emit "" depth

/-- Writes a class, and a blank line behind it. -/
def emitAccessorClass (cls : AccessorClass) (pointer : String) (depth : Nat) : Writer Unit := do
  emit (opened ("class " ++ refName cls.ref ++ " : public " ++ parentName cls.ref)) depth
  emit " public:" depth
  for accessor in cls.accessors do
    emitAccessor accessor pointer (depth + 1)
  emitAttributes cls.attributes (depth + 1)
  emit (closing ++ ";") depth
  emit "" depth

/-- Writes a declaration. -/
def emitDeclaration (declaration : Declaration) (pointer : String) : Writer Unit :=
  match declaration with
  | .enumeration body => emitEnumeration body 0
  | .taggedBase body => emitTaggedBase body 0
  | .accessorClass body => emitAccessorClass body pointer 0

/-! ## The unit -/

/-- Writes a unit. -/
def emitUnit (layout : Layout) : Writer Unit := do
  let pointer := layout.encoding.indexElement.typeName
  pushRaw (prologue layout.encoding)
  emitForwards layout.forwards
  for declaration in layout.declarations do
    emitDeclaration declaration pointer
  for deferred in layout.deferred do
    emitDeferred deferred pointer
  pushRaw (epilogue layout.encoding)

end Writer

/-- The text of a unit. -/
def unitText (formatter : Formatter) (layout : Layout) : Except Reflow.Unbreakable String :=
  (Writer.emitUnit layout).text formatter

end ReaderGen.Reader
