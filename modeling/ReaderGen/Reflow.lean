import ReaderGen.Text
import ReaderGen.Text.Quoted

/-!
# ReaderGen.Reflow -- wrapping long lines at spaces

A line that is wider than its budget is broken at the last space that still fits, and
again, until the rest fits. **A break replaces exactly one space; nothing else is
added but padding, and nothing is lost.** Continuation lines are padded to a column
that the first piece decides: two behind its first opening brace, or else one behind
its first opening parenthesis, or else none. The padding counts against the budget.

Width is counted in octets of UTF-8, and a line that has no space to break at is an
error that names the whole line and the budget in force.
-/

namespace ReaderGen

namespace Reflow

open Text

/-! ## Widths -/

/-- Whether a text is at most `budget` wide. -/
def fits : Nat → List Char → Bool
  | _, [] => true
  | budget, c :: cs => decide (c.utf8Size ≤ budget) && fits (budget - c.utf8Size) cs

theorem fits_iff {budget : Nat} {cs : List Char} : fits budget cs = true ↔ width cs ≤ budget := by
  induction cs generalizing budget with
  | nil => simp [fits]
  | cons c cs ih =>
    simp only [fits, Bool.and_eq_true, decide_eq_true_eq, ih, width_cons]
    omega

/-! ## One break -/

/-- Splits a text at the last space among its first `budget` bytes, and drops that
space. -/
def breakAt? (budget : Nat) : List Char → Option (List Char × List Char)
  | [] => none
  | c :: cs =>
    if c.utf8Size ≤ budget then
      match breakAt? (budget - c.utf8Size) cs with
      | some (piece, rest) => some (c :: piece, rest)
      | none => if c = ' ' then some ([], cs) else none
    else none

/-- A break replaces one space, and the piece with that space fits the budget. -/
theorem breakAt?_eq_some {budget : Nat} {cs piece rest : List Char}
    (h : breakAt? budget cs = some (piece, rest)) :
    cs = piece ++ ' ' :: rest ∧ width piece < budget := by
  induction cs generalizing budget piece rest with
  | nil => simp [breakAt?] at h
  | cons c cs ih =>
    unfold breakAt? at h
    split at h
    · next hfit =>
      split at h
      · next tail left hlater =>
        cases h
        obtain ⟨hcs, hwidth⟩ := ih hlater
        refine ⟨by rw [hcs]; rfl, ?_⟩
        rw [width_cons]
        omega
      · split at h
        · next hspace =>
          cases h
          subst hspace
          refine ⟨rfl, ?_⟩
          have : (' ' : Char).utf8Size = 1 := by decide
          rw [width_nil]
          omega
        · cases h
    · cases h

/-! ## Continuation lines -/

/-- The column that continuation lines start at, after the first piece. -/
def continuation (piece : List Char) : Nat :=
  if '{' ∈ piece then width (piece.takeWhile (· ≠ '{')) + 2
  else if '(' ∈ piece then width (piece.takeWhile (· ≠ '(')) + 1
  else 0

/-- A line that cannot be broken within its budget. -/
structure Unbreakable where
  budget : Nat
  line : String
  deriving DecidableEq, Repr

/-- The diagnostic for a line that cannot be broken. -/
def Unbreakable.message (e : Unbreakable) : String :=
  "impossible line to reflow within " ++ toString e.budget ++ " columns: " ++
    Text.quoteLine e.line

/-- The padding of `column` spaces. -/
def padding (column : Nat) : List Char := List.replicate column ' '

/-- The continuation lines of `line` for what is left of it. -/
def continued (line : String) (budget column : Nat) (cs : List Char) :
    Except Unbreakable (List String) :=
  if fits budget cs then .ok [String.ofList (padding column ++ cs)]
  else
    match _h : breakAt? budget cs with
    | none => .error ⟨budget, line⟩
    | some (piece, rest) =>
      match continued line budget column rest with
      | .error fault => .error fault
      | .ok pieces => .ok (String.ofList (padding column ++ piece) :: pieces)
termination_by cs.length
decreasing_by
  rw [(breakAt?_eq_some _h).1]
  simp only [List.length_append, List.length_cons]
  omega

end Reflow

/-! ## Formatting a line -/

/-- How generated text is laid out: columns of one indentation level, and the column
that no line should pass. -/
structure Formatter where
  tabSize : Nat := 2
  maxCol : Nat := 80
  deriving DecidableEq, Repr

instance : Inhabited Formatter := ⟨{}⟩

namespace Formatter

open Reflow

/-- The columns of the indentation of a depth. They are counted in 64 bits, as a product that
wraps. -/
def columns (formatter : Formatter) (depth : Nat) : Nat :=
  depth * formatter.tabSize % UInt64.size

/-- The columns left of a line at a depth. -/
def budget (formatter : Formatter) (depth : Nat) : Nat :=
  formatter.maxCol - formatter.columns depth

theorem columns_eq {formatter : Formatter} {depth : Nat}
    (h : depth * formatter.tabSize < UInt64.size) :
    formatter.columns depth = depth * formatter.tabSize :=
  Nat.mod_eq_of_lt h

theorem budget_eq {formatter : Formatter} {depth : Nat}
    (h : depth * formatter.tabSize < UInt64.size) :
    formatter.budget depth = formatter.maxCol - depth * formatter.tabSize := by
  rw [budget, columns_eq h]

/-- Breaks a line into pieces that fit at a depth. The pieces carry the padding of
continuation lines, but not the indentation. -/
def reflow (formatter : Formatter) (line : String) (depth : Nat) :
    Except Unbreakable (List String) :=
  let budget := formatter.budget depth
  if fits budget line.toList then .ok [line]
  else
    match breakAt? budget line.toList with
    | none => .error ⟨budget, line⟩
    | some (piece, rest) =>
      let column := continuation piece
      match continued line (budget - column) column rest with
      | .error fault => .error fault
      | .ok pieces => .ok (String.ofList piece :: pieces)

/-- The indentation of a depth. -/
def indentation (formatter : Formatter) (depth : Nat) : String :=
  String.ofList (List.replicate (formatter.columns depth) ' ')

/-- The physical lines of a line at a depth, each indented and ended. -/
def format (formatter : Formatter) (line : String) (depth : Nat) :
    Except Unbreakable (List String) :=
  match formatter.reflow line depth with
  | .error fault => .error fault
  | .ok pieces => .ok (pieces.map fun piece => formatter.indentation depth ++ piece ++ "\n")

end Formatter

end ReaderGen
