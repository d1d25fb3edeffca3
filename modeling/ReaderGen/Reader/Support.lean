import ReaderGen.Encoding
import ReaderGen.Reader.Slot

/-!
# ReaderGen.Reader.Support -- the class that every reader is based on

Every generated class is an `Obj`: it can decode a slot, follow a reference, follow
one that may be absent, and read a string that ends with a zero byte. The class is
declared before the generated classes and its bodies follow them.

Both texts are fixed but for the slot width and the type that offsets count in. They
are written as they stand and never wrapped.
-/

namespace ReaderGen.Reader

/-- Lines, each ended. -/
def unwrapped (lines : List String) : String :=
  String.join (lines.map (· ++ "\n"))

/-- The declaration of the base class. -/
def prologue (encoding : Encoding) : String :=
  let base := encoding.indexElement.typeName ++ "* base"
  unwrapped [
    "#include <cstdint>",
    "",
    "class Obj \x7b",
    " public:",
    "  // Decode a " ++ toString encoding.refWidth.toNat ++ " byte integer from little endian",
    "  inline int Int(int n) const;",
    "",
    "  inline const Obj& Ref(const " ++ base ++ ", int n) const;",
    "",
    "  inline const Obj* Optional(const " ++ base ++ ", int n) const;",
    "",
    "  // NUL-terminated",
    "  inline const char* Str(const " ++ base ++ ", int n) const;",
    "",
    " protected:",
    "  uint8_t bytes_[1];  // first is ID; rest are a payload",
    "\x7d;",
    ""]

/-- The text of the slot decoder. -/
def decoderText (encoding : Encoding) : String :=
  match SlotExpr.decoder? encoding.refWidth.toNat with
  | none => ""
  | some decoder => decoder.text

/-- The bodies of the base class. -/
def epilogue (encoding : Encoding) : String :=
  let base := encoding.indexElement.typeName ++ "* base"
  unwrapped [
    "inline int Obj::Int(int n) const \x7b",
    "  return " ++ decoderText encoding ++ ";",
    "\x7d",
    "",
    "inline const Obj& Obj::Ref(const " ++ base ++ ", int n) const \x7b",
    "  int offset = Int(n);",
    "  return reinterpret_cast<const Obj&>(base[offset]);",
    "\x7d",
    "",
    "inline const Obj* Obj::Optional(const " ++ base ++ ", int n) const \x7b",
    "  int offset = Int(n);",
    "  if (offset) \x7b",
    "    return reinterpret_cast<const Obj*>(base + offset);",
    "  \x7d else \x7b",
    "    return nullptr;",
    "  \x7d",
    "\x7d",
    "",
    "inline const char* Obj::Str(const " ++ base ++ ", int n) const \x7b",
    "  int offset = Int(n);",
    "  return reinterpret_cast<const char*>(base + offset);",
    "\x7d"]

end ReaderGen.Reader
