import ReaderGen.Json

/-!
# ReaderGen.Encoding -- parameters of the encoded buffer

A reader and the writer of its buffers must be built with the same parameters: the
alignment, which fixes the element type that offsets count in, and the width of a
slot in bytes. **An element of a repeated field takes one slot, so the stride of an
array is the width of a slot.** The two checked constructions keep that; a record
that was decoded is used as it stands.
-/

namespace ReaderGen

/-! ## Element types -/

/-- The type that a buffer is an array of. -/
inductive IndexElement where
  | u8
  | u16
  | u32
  | u64
  deriving DecidableEq, Repr, Inhabited

namespace IndexElement

/-- The name of the type in a record. -/
def name : IndexElement → String
  | u8 => "u8"
  | u16 => "u16"
  | u32 => "u32"
  | u64 => "u64"

/-- The name of the type in generated code. -/
def typeName : IndexElement → String
  | u8 => "uint8_t"
  | u16 => "uint16_t"
  | u32 => "uint32_t"
  | u64 => "uint64_t"

/-- The element type of that name. -/
def ofName? (name : String) : Option IndexElement :=
  [u8, u16, u32, u64].find? fun element => element.name = name

theorem ofName?_name (element : IndexElement) : ofName? element.name = some element := by
  cases element <;> decide

end IndexElement

/-! ## Parameters -/

/-- The parameters that a reader is generated for. -/
structure Encoding where
  alignment : UInt32
  refWidth : UInt32
  indexElement : IndexElement
  arrayStride : UInt32
  deriving DecidableEq, Repr

/-- Why parameters are refused. -/
inductive EncodingError where
  | unsupportedAlignment (alignment : UInt32)
  | unsupportedRefWidth (refWidth : UInt32)
  deriving DecidableEq, Repr

/-- The diagnostic for refused parameters. -/
def EncodingError.message : EncodingError → String
  | unsupportedAlignment alignment =>
    "unsupported alignment " ++ toString alignment.toNat ++ " (expected 1, 2, 4 or 8)"
  | unsupportedRefWidth refWidth =>
    "unsupported reference width " ++ toString refWidth.toNat ++ " (expected 1 to 4 bytes)"

namespace Encoding

/-- Elements of four bytes, slots of three. -/
def standard : Encoding := ⟨4, 3, .u32, 3⟩

instance : Inhabited Encoding := ⟨standard⟩

/-- The parameters for an alignment, with slots of three bytes. -/
def ofAlignment (alignment : UInt32) : Except EncodingError Encoding :=
  match alignment.toNat with
  | 1 => .ok ⟨alignment, 3, .u8, 3⟩
  | 2 => .ok ⟨alignment, 3, .u16, 3⟩
  | 4 => .ok ⟨alignment, 3, .u32, 3⟩
  | 8 => .ok ⟨alignment, 3, .u64, 3⟩
  | _ => .error (.unsupportedAlignment alignment)

/-- The same parameters with another slot width. A decoded slot must fit in an
integer of four bytes. -/
def withRefWidth (encoding : Encoding) (refWidth : UInt32) : Except EncodingError Encoding :=
  if refWidth = 0 ∨ 4 < refWidth then .error (.unsupportedRefWidth refWidth)
  else .ok { encoding with refWidth, arrayStride := refWidth }

/-! ## The record of parameters -/

/-- The parameters as a record. -/
def toJson (encoding : Encoding) : Json :=
  .obj [("alignment", .int encoding.alignment.toNat),
    ("ref-width", .int encoding.refWidth.toNat),
    ("index-element-type", .str encoding.indexElement.name),
    ("array-stride", .int encoding.arrayStride.toNat)]

/-- The parameters that a record holds, unchecked. -/
def ofJson? (json : Json) : Option Encoding := do
  let members ← json.members? ["alignment", "ref-width", "index-element-type", "array-stride"]
  let alignment ← members.required "alignment" Json.uint32?
  let refWidth ← members.required "ref-width" Json.uint32?
  let element ← members.required "index-element-type" (Json.plainChoice? .strict)
  let indexElement ← IndexElement.ofName? element
  let arrayStride ← members.required "array-stride" Json.uint32?
  some ⟨alignment, refWidth, indexElement, arrayStride⟩

end Encoding

end ReaderGen
