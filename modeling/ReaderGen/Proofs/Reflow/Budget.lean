import ReaderGen.Proofs.Reflow.Greedy

/-!
# ReaderGen.Proofs.Reflow.Budget -- wrapped lines are within the budget

The budget of the continuation lines shrinks by their column, and the same column is put in
front of them as padding. **The two cancel because the column never exceeds the budget**
(`ColumnOf.le_of_lastBreak`): it is at most two behind a delimiter that the first piece holds,
and the first piece with its space fits. So every piece of a line, its padding included, fits
at the depth of the line.

A line that fits is left alone, and only such a line (`reflow_eq_self_iff`). The pieces of a
line are therefore fixed points, and a second pass over a text that has been laid out at the
same depth changes nothing.
-/

namespace ReaderGen

namespace Reflow

open Text

/-! ## The column against the budget -/

theorem ColumnOf.le_width_succ {piece : List Char} {column : Nat} (h : ColumnOf piece column) :
    column ≤ width piece + 1 := by
  cases h with
  | brace _ =>
    have hbrace : ('{' : Char).utf8Size = 1 := by decide
    rw [width_append, width_cons]
    omega
  | paren _ _ =>
    rw [width_append]
    omega
  | start _ _ => exact Nat.zero_le _

/-- **The column of the continuation lines is within the budget it is taken from.** -/
theorem ColumnOf.le_of_lastBreak {budget column : Nat} {first rest : List Char}
    (h : ColumnOf first column) (hbreak : LastBreak budget first rest) : column ≤ budget :=
  Nat.le_trans h.le_width_succ hbreak.within

/-! ## The pieces against the budget -/

theorem Greedy.width_le {budget : Nat} {text : List Char} {pieces : List (List Char)}
    (h : Greedy budget text pieces) : ∀ piece ∈ pieces, width piece ≤ budget := by
  induction h with
  | fits hwidth => exact List.forall_mem_singleton.mpr hwidth
  | cut _ hbreak _ ih => exact List.forall_mem_cons.mpr ⟨Nat.le_of_lt hbreak.within, ih⟩

@[simp] theorem width_padding (column : Nat) : width (padding column) = column := by
  induction column with
  | zero => rfl
  | succ column ih =>
    rw [padding] at ih
    rw [padding, List.replicate_succ, width_cons, ih, width_space, Nat.add_comm]

end Reflow

/-! ## Whole lines -/

namespace Formatter

open Reflow Text

variable {formatter : Formatter} {line : String} {depth : Nat}

/-- **The lines that are left alone are those that fit.** A line that is broken has at least
two pieces. -/
theorem reflow_eq_self_iff :
    formatter.reflow line depth = .ok [line] ↔ width line.toList ≤ formatter.budget depth := by
  constructor
  · intro h
    obtain ⟨hfits, -⟩ | ⟨-, first, column, texts, hpieces, hwrapped⟩ :=
      reflow_eq_ok_iff_wrapped.mp h
    · exact hfits
    · have hnone := List.map_eq_nil_iff.mp (List.cons.inj hpieces).2.symm
      exact absurd hnone hwrapped.continues
  · intro hfits
    exact reflow_eq_ok_iff_wrapped.mpr (Or.inl ⟨hfits, rfl⟩)

/-- The padding of a continuation line takes the columns that its budget has been cut by. -/
theorem width_le_of_reflow {pieces : List String} (h : formatter.reflow line depth = .ok pieces) :
    ∀ piece ∈ pieces, width piece.toList ≤ formatter.budget depth := by
  obtain ⟨hfits, rfl⟩ | ⟨-, first, column, texts, rfl, hwrapped⟩ := reflow_eq_ok_iff_wrapped.mp h
  · exact List.forall_mem_singleton.mpr hfits
  · have hcolumn := hwrapped.column_of.le_of_lastBreak hwrapped.first_break
    have hgreedy : Greedy (formatter.budget depth - column) ([' '].intercalate texts) texts :=
      greedy_iff.mpr ⟨hwrapped.continues, rfl, hwrapped.later_breaks, hwrapped.end_fits⟩
    rw [List.forall_mem_cons, List.forall_mem_map]
    constructor
    · rw [String.toList_ofList]
      exact Nat.le_of_lt hwrapped.first_break.within
    · intro text htext
      have hwidth := hgreedy.width_le text htext
      -- the column is taken off the budget and put back as padding, and it is within the budget
      rw [String.toList_ofList, width_append, width_padding]
      omega

theorem width_indentation (formatter : Formatter) (depth : Nat) :
    width (formatter.indentation depth).toList = formatter.columns depth := by
  rw [indentation, String.toList_ofList]
  exact width_padding _

theorem format_eq_ok {pieces : List String} (h : formatter.reflow line depth = .ok pieces) :
    formatter.format line depth =
      .ok (pieces.map fun piece => formatter.indentation depth ++ piece ++ "\n") := by
  rw [format, h]

/-- **Wrapped text respects its budget and is a fixed point.** Each piece of a line, with its
padding, is at most as wide as the columns at that depth, and is left alone when it is laid out
there again. The column of the continuation lines is within the budget it is taken from. A
physical line ends within the last column, unless its indentation alone is wider. -/
theorem reflow_keeps_budget {pieces : List String}
    (hcolumns : depth * formatter.tabSize < UInt64.size)
    (h : formatter.reflow line depth = .ok pieces) :
    (∀ piece ∈ pieces, width piece.toList ≤ formatter.maxCol - depth * formatter.tabSize ∧
      formatter.reflow piece depth = .ok [piece]) ∧
    (∀ first rest column, line.toList = first ++ ' ' :: rest →
      LastBreak (formatter.maxCol - depth * formatter.tabSize) first rest →
      ColumnOf first column → column ≤ formatter.maxCol - depth * formatter.tabSize) ∧
    (depth * formatter.tabSize ≤ formatter.maxCol →
      ∃ physical, formatter.format line depth = .ok physical ∧
        ∀ printed ∈ physical, ∃ text, printed = text ++ "\n" ∧
          width text.toList ≤ formatter.maxCol) := by
  have hwidth := width_le_of_reflow h
  rw [← budget_eq hcolumns]
  refine ⟨?_, ?_, ?_⟩
  · intro piece hpiece
    exact ⟨hwidth piece hpiece, reflow_eq_self_iff.mpr (hwidth piece hpiece)⟩
  · intro first rest column _ hbreak hcolumn
    exact hcolumn.le_of_lastBreak hbreak
  · intro hindent
    refine ⟨_, format_eq_ok h, List.forall_mem_map.mpr ?_⟩
    intro piece hpiece
    have hfits := hwidth piece hpiece
    refine ⟨formatter.indentation depth ++ piece, rfl, ?_⟩
    rw [budget_eq hcolumns] at hfits
    rw [String.toList_append, width_append, width_indentation, columns_eq hcolumns]
    omega

/-- A signature at depth one, whose parameters are aligned behind the parenthesis. -/
theorem reflow_keeps_budget_of_signature :
    (⟨2, 12⟩ : Formatter).reflow "int f(int a, int b)" 1 =
        .ok ["int f(int", "      a,", "      int", "      b)"] ∧
      1 * 2 < UInt64.size ∧ 1 * 2 ≤ 12 ∧
      (∀ piece ∈ ["int f(int", "      a,", "      int", "      b)"],
        width piece.toList ≤ 10 ∧ (⟨2, 12⟩ : Formatter).reflow piece 1 = .ok [piece]) ∧
      LastBreak 10 "int f(int".toList "a, int b)".toList ∧ ColumnOf "int f(int".toList 6 ∧ 6 ≤ 10 ∧
      ∃ physical, (⟨2, 12⟩ : Formatter).format "int f(int a, int b)" 1 = .ok physical ∧
        ∀ printed ∈ physical, ∃ text, printed = text ++ "\n" ∧ width text.toList ≤ 12 := by
  have hcolumns : 1 * (⟨2, 12⟩ : Formatter).tabSize < UInt64.size := by decide
  have hindent : 1 * 2 ≤ 12 := by decide
  obtain ⟨hline, hbreak⟩ := breakAt?_eq_some_iff.mp
    (show breakAt? 10 "int f(int a, int b)".toList =
      some ("int f(int".toList, "a, int b)".toList) by decide)
  have hcolumn : ColumnOf "int f(int".toList 6 := continuation_eq_iff.mp (by decide)
  obtain ⟨hpieces, hlater, hphysical⟩ := reflow_keeps_budget hcolumns reflow_signature
  exact ⟨reflow_signature, hcolumns, hindent, hpieces, hbreak, hcolumn,
    hlater _ _ _ hline hbreak hcolumn, hphysical hindent⟩

end Formatter

end ReaderGen
