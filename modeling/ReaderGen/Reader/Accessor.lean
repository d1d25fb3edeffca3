import ReaderGen.Layout
import ReaderGen.Reader.Sheet

/-!
# ReaderGen.Reader.Accessor -- names, types and accessors in the generated code

A schema type `t` becomes the enumeration `t_e` and the class `t_t`; a constructor
becomes a class under its own name. An object that may be absent is a pointer, and
any other object a reference.

An accessor is written in its class: with its body, or, if it returns an object, as a
prototype whose body follows all classes. An accessor that goes through a reference
takes the base of the buffer; one of a repeated field also takes an index, and has a
companion that returns the count. **The prototype and the body outside the class are
made from one signature, so they cannot disagree.**
-/

namespace ReaderGen.Reader

/-! ## Names and types -/

/-- The type of a builtin. -/
def builtinType : Builtin → String
  | .string => "char*"
  | .int => "int"
  | .bool => "bool"
  | .id => "Id"

/-- The class of a schema type. -/
def className (typeName : String) : String := typeName ++ "_t"

/-- The enumeration of a schema type. -/
def enumName (typeName : String) : String := typeName ++ "_e"

/-- The type that an accessor returns. -/
def valueType : ValueKind → String
  | .int => builtinType .int
  | .bool => builtinType .bool
  | .str => builtinType .string
  | .id => builtinType .id
  | .enumeration typeName => enumName typeName
  | .object typeName isOptional => className typeName ++ (if isOptional then "*" else "&")

/-- The name of a class, which also qualifies the bodies outside it. -/
def refName : ClassRef → String
  | .product typeName => className typeName
  | .variant _ constructor => constructor

/-- The base of a class. -/
def parentName : ClassRef → String
  | .product _ => "Obj"
  | .variant sumName _ => className sumName

/-! ## Pieces of lines -/

/-- A number in decimal. -/
def number (n : UInt32) : String := toString n.toNat

/-- The signature of an accessor that reads one value through the base. -/
def pointerSignature (type name pointer : String) : String :=
  "inline const " ++ type ++ " " ++ name ++ "(const " ++ pointer ++ "* base) const"

/-- The signature of an accessor that reads one element of an array. -/
def elementSignature (type name pointer : String) : String :=
  "inline const " ++ type ++ " " ++ name ++ "(const " ++ pointer ++ "* base, int index) const"

/-- The line that computes where an element stands; the count stands before the first. -/
def elementPlace (stride : UInt32) : String :=
  "int a = (index+1) * " ++ number stride ++ ";"

/-- A header with an opening brace. -/
def opened (header : String) : String := header ++ " \x7b"

/-- A closing brace. -/
def closing : String := "\x7d"

/-- A cast to a constant of a type. -/
def castTo (type operand : String) : String :=
  "static_cast<const " ++ type ++ ">(" ++ operand ++ ")"

/-- The line that returns an object: an object that may be absent is followed as such,
any other as a reference. -/
def downcast (accessor : Accessor) : String :=
  let type := valueType accessor.value
  let slot := number accessor.offset
  match accessor.value, accessor.cardinality with
  | .object _ true, .single => "return " ++ castTo type ("Optional(base, " ++ slot ++ ")") ++ ";"
  | _, .single => "return " ++ castTo type ("Ref(base, " ++ slot ++ ")") ++ ";"
  | _, .repeated _ => "return " ++ castTo type ("Ref(base, " ++ slot ++ ").Ref(base, a)") ++ ";"

namespace Writer

/-! ## In the class -/

/-- Writes an accessor in its class. The accessor of an object ends behind its prototype. -/
def emitAccessor (accessor : Accessor) (pointer : String) (depth : Nat) : Writer Unit := do
  let type := valueType accessor.value
  let slot := number accessor.offset
  match accessor.cardinality with
  | .single =>
    let bare := "inline " ++ type ++ " " ++ accessor.field ++ "() const"
    let based := pointerSignature type accessor.field pointer
    let (header, body) ←
      match accessor.value with
      | .int | .bool => pure (bare, "return Int(" ++ slot ++ ");")
      | .id | .enumeration _ =>
        pure (bare, "return " ++ castTo type ("Int(" ++ slot ++ ")") ++ ";")
      | .str => pure (based, "return Str(base, " ++ slot ++ ");")
      | .object _ _ => return ← emit (based ++ ";") depth
    emit (opened header) depth
    emit body (depth + 1)
    emit closing depth
  | .repeated stride =>
    emit (opened ("inline int " ++ accessor.field ++ "_size(const " ++ pointer ++
      "* base) const")) depth
    emit ("return Ref(base, " ++ slot ++ ").Int(0);") (depth + 1)
    emit closing depth
    let array := "Ref(base, " ++ slot ++ ")"
    let signature := elementSignature type accessor.field pointer
    let body ←
      match accessor.value with
      | .int | .bool => pure ("return " ++ array ++ ".Int(a);")
      | .id | .enumeration _ => pure ("return " ++ castTo type (array ++ ".Int(a)") ++ ";")
      | .str => pure ("return " ++ array ++ ".Str(base, a);")
      | .object _ _ => return ← emit (signature ++ ";") depth
    emit (opened signature) depth
    emit (elementPlace stride) (depth + 1)
    emit body (depth + 1)
    emit closing depth

/-! ## Behind all classes -/

/-- Writes the body of a deferred accessor, and a blank line behind it. -/
def emitDeferred (deferred : Deferred) (pointer : String) : Writer Unit := do
  let type := valueType deferred.accessor.value
  let qualified := refName deferred.owner ++ "::" ++ deferred.accessor.field
  match deferred.accessor.cardinality with
  | .single => emit (opened (pointerSignature type qualified pointer)) 0
  | .repeated stride =>
    emit (opened (elementSignature type qualified pointer)) 0
    emit (elementPlace stride) 1
  emit (downcast deferred.accessor) 1
  pushRaw (closing ++ "\n\n")

end Writer

end ReaderGen.Reader
