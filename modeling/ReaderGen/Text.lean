/-!
# ReaderGen.Text -- widths, blanks, and text without terminal controls

What the library asks about plain text. The width of a text is the number of octets that
write it in UTF-8, and **widths add up along a concatenation**, so a budget of octets can be
spent character by character. A blank is a character with the Unicode property `White_Space`;
any run of blanks may stand between two tokens.

A diagnostic about an argument quotes it, but must not act on the terminal that shows it.
`plain` drops control sequences, which an escape character starts, and the controls that are
no blanks. **A tab or a line end is kept, and ends any sequence but one that carries a
string.** Other text is kept as it is.
-/

namespace ReaderGen.Text

/-! ## Width -/

/-- The width of a text: its octets in UTF-8. -/
def width : List Char → Nat
  | [] => 0
  | c :: cs => c.utf8Size + width cs

@[simp] theorem width_nil : width [] = 0 := rfl

@[simp] theorem width_cons (c : Char) (cs : List Char) :
    width (c :: cs) = c.utf8Size + width cs := rfl

@[simp] theorem width_append (cs ds : List Char) : width (cs ++ ds) = width cs + width ds := by
  induction cs with
  | nil => simp
  | cons c cs ih => simp [ih, Nat.add_assoc]

/-! ## Blanks -/

/-- The Unicode property `White_Space`. -/
def isBlank (c : Char) : Bool :=
  let n := c.toNat
  (0x9 ≤ n && n ≤ 0xd) || n = 0x20 || n = 0x85 || n = 0xa0 || n = 0x1680 ||
    (0x2000 ≤ n && n ≤ 0x200a) || n = 0x2028 || n = 0x2029 || n = 0x202f || n = 0x205f ||
    n = 0x3000

/-- A line break is a blank. -/
theorem isBlank_newline : isBlank '\n' = true := by decide

/-- A comment starts with no blank. -/
theorem isBlank_hyphen : isBlank '-' = false := by decide

/-! ## Terminal controls -/

/-- Where a text stands: outside control sequences, or how far inside one. A command
ends with a bell; a device string ends with the next escape character alone. -/
inductive ControlState where
  | outside
  | escape
  | intermediate
  | parameters
  | command
  | deviceString
  deriving DecidableEq, Repr

namespace ControlState

/-- Whether a character is kept. -/
def keeps (state : ControlState) (c : Char) : Bool :=
  let isLayout := c = '\t' || c = '\n' || c = '\x0c' || c = '\r'
  match state with
  | outside => isLayout || (' ' ≤ c && c ≠ '\x7f')
  | escape | intermediate | parameters => isLayout
  | command | deviceString => false

/-- Where a text stands after a character that is not kept. -/
def after (state : ControlState) (c : Char) : ControlState :=
  if c = '\x1b' then escape
  else if c = '\x18' ∨ c = '\x1a' then outside
  else
    match state with
    | outside => outside
    | escape =>
      if c < ' ' ∨ '\x7f' ≤ c then escape
      else if c < '0' then intermediate
      else if c = '[' then parameters
      else if c = ']' then command
      else if c = 'P' ∨ c = 'X' ∨ c = '^' ∨ c = '_' then deviceString
      else outside
    | intermediate => if '0' ≤ c ∧ c < '\x7f' then outside else intermediate
    | parameters => if '@' ≤ c ∧ c < '\x7f' then outside else parameters
    | command => if c = '\x07' then outside else command
    | deviceString => deviceString

end ControlState

/-- The characters that are kept from a state on. -/
def plainFrom (state : ControlState) : List Char → List Char
  | [] => []
  | c :: rest =>
    if state.keeps c then c :: plainFrom .outside rest else plainFrom (state.after c) rest

/-- The text without terminal controls. -/
def plain (text : String) : String :=
  String.ofList (plainFrom .outside text.toList)

end ReaderGen.Text
