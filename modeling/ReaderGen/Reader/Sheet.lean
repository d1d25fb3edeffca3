import ReaderGen.Reflow

/-!
# ReaderGen.Reader.Sheet -- the text being written

Generated text is written step by step onto a sheet, which holds the text so far and says how
lines are wrapped. A step ends or it fails, and **what was written before a failure stays**: a
writer cannot take text back, so the sheet that a failed step leaves is used as it is.

A line is wrapped as a whole before any piece of it is written. Raw text is not wrapped, and
writing it cannot fail.
-/

namespace ReaderGen.Reader

/-- The text written so far, and how lines are wrapped. -/
structure Sheet where
  formatter : Formatter
  text : String
  deriving DecidableEq, Repr

/-- A sheet without text. -/
def Sheet.blank (formatter : Formatter) : Sheet := ⟨formatter, ""⟩

/-- A step that writes on a sheet. A line that cannot be wrapped ends it early. -/
abbrev Writer := EStateM Reflow.Unbreakable Sheet

namespace Writer

/-- Writes text as it stands. -/
def pushRaw (text : String) : Writer Unit :=
  modify fun sheet => { sheet with text := sheet.text ++ text }

/-- Writes an empty line. -/
def pushBlank : Writer Unit := pushRaw "\n"

/-- Wraps a line at a depth and writes its pieces, each indented and ended. -/
def emit (line : String) (depth : Nat) : Writer Unit := do
  match (← get).formatter.format line depth with
  | .error fault => throw fault
  | .ok pieces =>
    for physical in pieces do
      pushRaw physical

/-- The text that a step leaves on a blank sheet, if it ends. -/
def text (formatter : Formatter) (step : Writer Unit) : Except Reflow.Unbreakable String :=
  match step.run (Sheet.blank formatter) with
  | .ok () sheet => .ok sheet.text
  | .error fault _ => .error fault

end Writer

end ReaderGen.Reader
