/-!
# ReaderGen.Reader.Slot -- the expression that decodes a slot

A slot is a little-endian number. Its decoder is the sum of its bytes, each shifted to
its place. **A byte is promoted to a signed integer of 32 bits, so the fourth byte is
widened to an unsigned one before it is shifted into the sign bit.**

The decoder is an expression tree with one text, so that it can be read both as what
is written into the generated code and as arithmetic.
-/

namespace ReaderGen.Reader

/-- An expression over the bytes of an object, relative to the slot at `n`. -/
inductive SlotExpr where
  | byte (index : Nat)
  | widen (operand : SlotExpr)
  | shiftLeft (operand : SlotExpr) (bits : Nat)
  | add (left right : SlotExpr)
  deriving DecidableEq, Repr

namespace SlotExpr

/-- The text of an expression. Sums associate to the left. -/
def text : SlotExpr → String
  | byte 0 => "bytes_[n]"
  | byte index => "bytes_[n+" ++ toString index ++ "]"
  | widen operand => "static_cast<uint32_t>(" ++ operand.text ++ ")"
  | shiftLeft operand bits => "(" ++ operand.text ++ " << " ++ toString bits ++ ")"
  | add left right => left.text ++ " + " ++ right.text

theorem text_byte_zero : (byte 0).text = "bytes_[n]" := rfl

theorem text_byte_succ (index : Nat) :
    (byte (index + 1)).text = "bytes_[n+" ++ toString (index + 1) ++ "]" := rfl

theorem text_widen (operand : SlotExpr) :
    (widen operand).text = "static_cast<uint32_t>(" ++ operand.text ++ ")" := rfl

theorem text_shiftLeft (operand : SlotExpr) (bits : Nat) :
    (shiftLeft operand bits).text = "(" ++ operand.text ++ " << " ++ toString bits ++ ")" := rfl

theorem text_add (left right : SlotExpr) :
    (add left right).text = left.text ++ " + " ++ right.text := rfl

/-- The byte at `index`, shifted to its place. -/
def place (index : Nat) : SlotExpr :=
  if index = 0 then byte 0
  else if index = 3 then shiftLeft (widen (byte 3)) 24
  else shiftLeft (byte index) (8 * index)

/-- The sum of the bytes up to `last`. -/
def upTo : Nat → SlotExpr
  | 0 => place 0
  | last + 1 => add (upTo last) (place (last + 1))

/-- The decoder of a slot of `width` bytes; a slot without bytes has none. -/
def decoder? : Nat → Option SlotExpr
  | 0 => none
  | last + 1 => some (upTo last)

end SlotExpr

end ReaderGen.Reader
