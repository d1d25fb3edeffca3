import ReaderGen.Proofs.Reader.Sheet
import ReaderGen.Reader.Unit

/-!
# ReaderGen.Proofs.Reader.Lines -- the lines of a unit, part by part

What each emitter sends, as a list of entries that depends on its part of the layout, the pointer
type and the depth alone. That the emitters write these lists, and stop where a line of them
cannot be wrapped, is shown in ReaderGen.Proofs.Reader.Emitters.

What is said of every line of a unit is said kind by kind: **for each part of a unit there is
one equivalence between "every line of the part" and the few lines that the part is made of**.
An argument about all lines then has one case for each kind of line, and none of them opens
a list.

The accessors come in two forms, the one inside and the one behind their class. Both have
one signature (`signatureOf`), which differs in the name alone.
-/

namespace ReaderGen.Reader

/-! ## The lines of an accessor -/

/-- A function with a body of the given lines. -/
def function (header : String) (body : List String) (depth : Nat) : List Entry :=
  .line (opened header) depth ::
    (body.map fun text => Entry.line text (depth + 1)) ++ [.line closing depth]

/-- The lines of an accessor that reads one value. -/
def singleLines (accessor : Accessor) (pointer : String) (depth : Nat) : List Entry :=
  let type := valueType accessor.value
  let slot := number accessor.offset
  let bare := "inline " ++ type ++ " " ++ accessor.field ++ "() const"
  let based := pointerSignature type accessor.field pointer
  match accessor.value with
  | .int | .bool => function bare ["return Int(" ++ slot ++ ");"] depth
  | .id | .enumeration _ =>
    function bare ["return " ++ castTo type ("Int(" ++ slot ++ ")") ++ ";"] depth
  | .str => function based ["return Str(base, " ++ slot ++ ");"] depth
  | .object _ _ => [.line (based ++ ";") depth]

/-- The lines of the count of a repeated field. -/
def sizeLines (accessor : Accessor) (pointer : String) (depth : Nat) : List Entry :=
  function ("inline int " ++ accessor.field ++ "_size(const " ++ pointer ++ "* base) const")
    ["return Ref(base, " ++ number accessor.offset ++ ").Int(0);"] depth

/-- The lines of an accessor that reads an element of a repeated field. -/
def elementLines (accessor : Accessor) (stride : UInt32) (pointer : String) (depth : Nat) :
    List Entry :=
  let type := valueType accessor.value
  let array := "Ref(base, " ++ number accessor.offset ++ ")"
  let signature := elementSignature type accessor.field pointer
  let bodied (result : String) := function signature [elementPlace stride, result] depth
  match accessor.value with
  | .int | .bool => bodied ("return " ++ array ++ ".Int(a);")
  | .id | .enumeration _ => bodied ("return " ++ castTo type (array ++ ".Int(a)") ++ ";")
  | .str => bodied ("return " ++ array ++ ".Str(base, a);")
  | .object _ _ => [.line (signature ++ ";") depth]

/-- The lines of an accessor in its class. -/
def accessorLines (accessor : Accessor) (pointer : String) (depth : Nat) : List Entry :=
  match accessor.cardinality with
  | .single => singleLines accessor pointer depth
  | .repeated stride =>
    sizeLines accessor pointer depth ++ elementLines accessor stride pointer depth

/-- The signature of a deferred accessor and the lines before its last. -/
def deferredHead (deferred : Deferred) (pointer : String) : List Entry :=
  let type := valueType deferred.accessor.value
  let qualified := refName deferred.owner ++ "::" ++ deferred.accessor.field
  match deferred.accessor.cardinality with
  | .single => [.line (opened (pointerSignature type qualified pointer)) 0]
  | .repeated stride =>
    [.line (opened (elementSignature type qualified pointer)) 0, .line (elementPlace stride) 1]

/-- The body of a deferred accessor, and a blank line behind it. -/
def deferredLines (deferred : Deferred) (pointer : String) : List Entry :=
  deferredHead deferred pointer ++
    [.line (downcast deferred.accessor) 1, .raw (closing ++ "\n\n")]

/-! ## The lines of a declaration -/

/-- The names declared ahead, and a blank line behind them. -/
def forwardLines (names : List String) : List Entry :=
  (names.map fun name => Entry.line ("class " ++ className name ++ ";") 0) ++ [.line "" 0]

/-- The lines of an enumeration. -/
def enumerationLines (enumeration : Enumeration) (depth : Nat) : List Entry :=
  [.line (opened ("enum class " ++ enumName enumeration.typeName ++ " : uint8_t")) depth,
    .line (enumerationValues enumeration.variants) (depth + 1),
    .line (closing ++ ";") depth,
    .line "" depth]

/-- The lines of attributes. -/
def attributeLines (attributes : List Attribute) (depth : Nat) : List Entry :=
  attributes.map fun member => .line (builtinType member.builtin ++ " " ++ member.name ++ ";") depth

/-- The lines around the members of a class, and a blank line behind them. -/
def classLines (name parent : String) (members : List Entry) (depth : Nat) : List Entry :=
  [.line (opened ("class " ++ name ++ " : public " ++ parent)) depth, .line " public:" depth] ++
    members ++ [.line (closing ++ ";") depth, .line "" depth]

/-- The lines of a tagged base. -/
def taggedBaseLines (base : TaggedBase) (depth : Nat) : List Entry :=
  let type := enumName base.typeName
  classLines (className base.typeName) "Obj"
    (function (type ++ " tag() const") ["return static_cast<" ++ type ++ ">(bytes_[0]);"]
        (depth + 1) ++
      attributeLines base.attributes (depth + 1)) depth

/-- The lines of a class. -/
def accessorClassLines (cls : AccessorClass) (pointer : String) (depth : Nat) : List Entry :=
  classLines (refName cls.ref) (parentName cls.ref)
    ((cls.accessors.flatMap fun accessor => accessorLines accessor pointer (depth + 1)) ++
      attributeLines cls.attributes (depth + 1)) depth

/-- The lines of a declaration. -/
def declarationLines (declaration : Declaration) (pointer : String) : List Entry :=
  match declaration with
  | .enumeration body => enumerationLines body 0
  | .taggedBase body => taggedBaseLines body 0
  | .accessorClass body => accessorClassLines body pointer 0

/-! ## The entries of a unit -/

/-- The entries of a unit. -/
def unitEntries (layout : Layout) : List Entry :=
  let pointer := layout.encoding.indexElement.typeName
  [.raw (prologue layout.encoding)] ++ forwardLines layout.forwards ++
    (layout.declarations.flatMap fun declaration => declarationLines declaration pointer) ++
    (layout.deferred.flatMap fun deferred => deferredLines deferred pointer) ++
    [.raw (epilogue layout.encoding)]

/-! ## Texts

The four texts are rewritten with these equations, which hold by computation. -/

theorem castTo_eq (type operand : String) :
    castTo type operand = "static_cast<const " ++ type ++ ">(" ++ operand ++ ")" := rfl

theorem elementPlace_eq (stride : UInt32) :
    elementPlace stride = "int a = (index+1) * " ++ number stride ++ ";" := rfl

theorem pointerSignature_eq (type name pointer : String) :
    pointerSignature type name pointer =
      "inline const " ++ type ++ " " ++ name ++ "(const " ++ pointer ++ "* base) const" := rfl

theorem elementSignature_eq (type name pointer : String) :
    elementSignature type name pointer =
      "inline const " ++ type ++ " " ++ name ++ "(const " ++ pointer ++
        "* base, int index) const" := rfl

/-! ## The two forms of an accessor -/

/-- The signature of an accessor that reads through the base, under a name of choice. -/
def signatureOf (accessor : Accessor) (name pointer : String) : String :=
  match accessor.cardinality with
  | .single => pointerSignature (valueType accessor.value) name pointer
  | .repeated _ => elementSignature (valueType accessor.value) name pointer

/-- The count of a repeated field; any other field has none. -/
def countLines (accessor : Accessor) (pointer : String) (depth : Nat) : List Entry :=
  match accessor.cardinality with
  | .single => []
  | .repeated _ => sizeLines accessor pointer depth

/-- A deferred accessor is its prototype in its class, behind the count if there is one. -/
theorem accessorLines_of_deferred {accessor : Accessor} (h : accessor.isDeferred = true)
    (pointer : String) (depth : Nat) :
    accessorLines accessor pointer depth = countLines accessor pointer depth ++
      [.line (signatureOf accessor accessor.field pointer ++ ";") depth] := by
  obtain ⟨field, offset, value, cardinality⟩ := accessor
  cases value with
  | object typeName isOptional => cases cardinality <;> rfl
  | _ => cases h

/-- The expression that a deferred body casts. -/
def operandOf (accessor : Accessor) : String :=
  match accessor.value, accessor.cardinality with
  | .object _ true, .single => "Optional(base, " ++ number accessor.offset ++ ")"
  | _, .single => "Ref(base, " ++ number accessor.offset ++ ")"
  | _, .repeated _ => "Ref(base, " ++ number accessor.offset ++ ").Ref(base, a)"

theorem downcast_eq (accessor : Accessor) :
    downcast accessor =
      "return " ++ castTo (valueType accessor.value) (operandOf accessor) ++ ";" := by
  obtain ⟨field, offset, value, cardinality⟩ := accessor
  unfold downcast operandOf
  rcases value with _ | _ | _ | _ | _ | ⟨typeName, _ | _⟩ <;> cases cardinality <;> rfl

/-- The head of a deferred body, under the name of its class. -/
def outlinedHead (deferred : Deferred) (pointer : String) : String :=
  opened (signatureOf deferred.accessor
    (refName deferred.owner ++ "::" ++ deferred.accessor.field) pointer)

/-- The line in front of the cast: the place of an element. -/
def placeLines (accessor : Accessor) : List String :=
  match accessor.cardinality with
  | .single => []
  | .repeated stride => [elementPlace stride]

/-- The lines of a deferred body. -/
def outlinedBody (accessor : Accessor) : List String :=
  placeLines accessor ++ [downcast accessor]

/-- A deferred accessor is its head, its lines, and a brace that ends them. -/
theorem deferredLines_eq (deferred : Deferred) (pointer : String) :
    deferredLines deferred pointer =
      .line (outlinedHead deferred pointer) 0 ::
        ((outlinedBody deferred.accessor).map (Entry.line · 1) ++ [.raw (closing ++ "\n\n")]) := by
  unfold deferredLines deferredHead outlinedHead outlinedBody signatureOf placeLines
  cases deferred.accessor.cardinality <;> rfl

/-! ## Every line of a part -/

section Parts

variable {P : Entry → Prop} {depth : Nat}

theorem forall_function {header : String} {body : List String} :
    (∀ entry ∈ function header body depth, P entry) ↔
      P (.line (opened header) depth) ∧ (∀ text ∈ body, P (.line text (depth + 1))) ∧
        P (.line closing depth) := by
  simp only [function, List.forall_mem_append, List.forall_mem_cons, List.forall_mem_map,
    List.not_mem_nil, false_imp_iff, implies_true, and_true, and_assoc]

theorem forall_forwardLines {names : List String} :
    (∀ entry ∈ forwardLines names, P entry) ↔
      (∀ name ∈ names, P (.line ("class " ++ className name ++ ";") 0)) ∧ P (.line "" 0) := by
  simp only [forwardLines, List.forall_mem_append, List.forall_mem_map, List.forall_mem_singleton]

theorem forall_attributeLines {attributes : List Attribute} :
    (∀ entry ∈ attributeLines attributes depth, P entry) ↔
      ∀ member ∈ attributes,
        P (.line (builtinType member.builtin ++ " " ++ member.name ++ ";") depth) := by
  rw [attributeLines, List.forall_mem_map]

theorem forall_classLines {name parent : String} {members : List Entry} :
    (∀ entry ∈ classLines name parent members depth, P entry) ↔
      P (.line (opened ("class " ++ name ++ " : public " ++ parent)) depth) ∧
        P (.line " public:" depth) ∧ (∀ entry ∈ members, P entry) ∧
          P (.line (closing ++ ";") depth) ∧ P (.line "" depth) := by
  simp only [classLines, List.forall_mem_append, List.forall_mem_cons, List.not_mem_nil,
    false_imp_iff, implies_true, and_true, and_assoc]

theorem forall_enumerationLines {enumeration : Enumeration} :
    (∀ entry ∈ enumerationLines enumeration depth, P entry) ↔
      P (.line (opened ("enum class " ++ enumName enumeration.typeName ++ " : uint8_t")) depth) ∧
        P (.line (enumerationValues enumeration.variants) (depth + 1)) ∧
          P (.line (closing ++ ";") depth) ∧ P (.line "" depth) := by
  simp only [enumerationLines, List.forall_mem_cons, List.not_mem_nil, false_imp_iff,
    implies_true, and_true]

theorem forall_deferredLines {deferred : Deferred} {pointer : String} :
    (∀ entry ∈ deferredLines deferred pointer, P entry) ↔
      P (.line (outlinedHead deferred pointer) 0) ∧
        (∀ text ∈ outlinedBody deferred.accessor, P (.line text 1)) ∧
          P (.raw (closing ++ "\n\n")) := by
  simp only [deferredLines_eq, List.forall_mem_append, List.forall_mem_cons, List.forall_mem_map,
    List.not_mem_nil, false_imp_iff, implies_true, and_true]

end Parts

end ReaderGen.Reader
