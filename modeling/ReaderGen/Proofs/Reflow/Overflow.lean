import ReaderGen.Proofs.Reflow.Greedy

/-!
# ReaderGen.Proofs.Reflow.Overflow -- which lines cannot be wrapped

A text can be cut into pieces that fit exactly if its words do, the words being what stands
between two spaces, and empty where spaces are repeated. **Every word but the last keeps a
column for the space behind it** (`Overflows`), so the bound is one less for the inner words.

A line that is too wide has its first break decided by the whole budget, and the words behind
that break by the columns that are left. With this a fault is said exactly
(`reflow_eq_error_iff`): when there is one, and which budget it names.
-/

namespace ReaderGen

namespace Reflow

open Text

/-! ## Words that do not fit -/

/-- Some word in front of the last leaves no column for its space, or the last is too wide. -/
def Overflows (limit : Nat) (words : List (List Char)) : Prop :=
  (∃ word ∈ words.dropLast, limit ≤ width word) ∨ ∃ word ∈ words.getLast?, limit < width word

theorem overflows_singleton_iff {limit : Nat} {word : List Char} :
    Overflows limit [word] ↔ limit < width word := by
  simp [Overflows]

theorem overflows_cons_iff {limit : Nat} {word : List Char} {words : List (List Char)}
    (h : words ≠ []) :
    Overflows limit (word :: words) ↔ limit ≤ width word ∨ Overflows limit words := by
  simp only [Overflows, List.dropLast_cons_of_ne_nil h, List.getLast?_cons_of_ne_nil h,
    List.mem_cons, exists_eq_or_imp, or_assoc]

/-- A space separates the texts in front of it and behind it, which are cut apart from each
other. -/
theorem breakable_append_space_iff {limit : Nat} {word rest : List Char} (h : ' ' ∉ word) :
    Breakable limit (word ++ ' ' :: rest) ↔ width word < limit ∧ Breakable limit rest := by
  constructor
  · intro hbreakable
    refine ⟨?_, hbreakable.behind rfl⟩
    generalize hcs : word ++ ' ' :: rest = cs at hbreakable
    cases hbreakable with
    | last hwidth =>
      rw [← hcs, width_append, width_cons, width_space] at hwidth
      omega
    | @cut piece left hwidth _ =>
      -- the word has no space, so the first piece holds all of it
      rcases List.append_eq_append_iff.mp hcs with ⟨middle, rfl, -⟩ | ⟨middle, rfl, htail⟩
      · rw [width_append] at hwidth
        omega
      · cases middle with
        | nil =>
          rw [List.append_nil]
          exact hwidth
        | cons c middle =>
          obtain ⟨rfl, -⟩ := List.cons.inj htail
          exact absurd (by simp) h
  · rintro ⟨hwidth, hrest⟩
    exact .cut hwidth hrest

theorem breakable_iff_of_not_mem {limit : Nat} {word : List Char} (h : ' ' ∉ word) :
    Breakable limit word ↔ width word ≤ limit := by
  constructor
  · intro hbreakable
    cases hbreakable with
    | last hwidth => exact hwidth
    | cut => exact absurd (by simp) h
  · exact .last

/-- **A text can be cut into pieces that fit exactly if its words do.** -/
theorem breakable_iff {limit : Nat} {cs : List Char} :
    Breakable limit cs ↔ ¬ Overflows limit (cs.splitOn ' ') := by
  by_cases hspace : ' ' ∈ cs
  · obtain ⟨word, rest, rfl, hword⟩ := List.eq_append_cons_of_mem hspace
    rw [List.splitOn_append_cons_self, List.splitOn_eq_singleton hword, List.singleton_append,
      overflows_cons_iff (List.splitOn_ne_nil ' ' rest), not_or, Nat.not_le,
      breakable_append_space_iff hword, breakable_iff]
  · rw [List.splitOn_eq_singleton hspace, overflows_singleton_iff, Nat.not_lt,
      breakable_iff_of_not_mem hspace]
termination_by cs.length

/-! ## Faults -/

/-- The only fault of the continuation lines is the whole line with their budget. -/
theorem continued_eq_error_iff {line : String} {budget column : Nat} {cs : List Char}
    {fault : Unbreakable} :
    continued line budget column cs = .error fault ↔
      ¬ Breakable budget cs ∧ fault = ⟨budget, line⟩ := by
  have hfault : ∀ {fault}, continued line budget column cs = .error fault →
      fault = ⟨budget, line⟩ := by
    intro fault h
    fun_induction continued line budget column cs generalizing fault with
    | case1 => cases h
    | case2 =>
      cases h
      rfl
    | case3 cs _ piece rest _ cause hcause ih =>
      cases h
      exact ih hcause
    | case4 => cases h
  have hpieces : (∃ pieces, continued line budget column cs = .ok pieces) ↔ Breakable budget cs :=
    exists_continued_iff
  rw [← hpieces]
  constructor
  · intro h
    refine ⟨?_, hfault h⟩
    rintro ⟨pieces, hpieces⟩
    rw [hpieces] at h
    cases h
  · rintro ⟨hnone, rfl⟩
    cases hresult : continued line budget column cs with
    | ok pieces => exact absurd ⟨pieces, hresult⟩ hnone
    | error fault => rw [hfault hresult]

end Reflow

/-! ## Whole lines -/

namespace Formatter

open Reflow Text

variable {formatter : Formatter} {line : String} {depth : Nat}

/-- A line that is too wide fails where its continuation lines fail, or for want of a first
break. -/
theorem reflow_eq_error_iff_continued {fault : Unbreakable}
    (hwide : formatter.budget depth < width line.toList) :
    formatter.reflow line depth = .error fault ↔
      (breakAt? (formatter.budget depth) line.toList = none ∧
        fault = ⟨formatter.budget depth, line⟩) ∨
      ∃ first rest, breakAt? (formatter.budget depth) line.toList = some (first, rest) ∧
        continued line (formatter.budget depth - continuation first) (continuation first) rest =
          .error fault := by
  rw [reflow, if_neg fun hfits => Nat.not_le.mpr hwide (fits_iff.mp hfits)]
  cases hbreak : breakAt? (formatter.budget depth) line.toList with
  | none => simp [eq_comm]
  | some cut =>
    obtain ⟨first, rest⟩ := cut
    cases hmore : continued line (formatter.budget depth - continuation first)
        (continuation first) rest with
    | error cause => simp [and_assoc, hmore]
    | ok pieces => simp [and_assoc, hmore]

/-- The fault of a line against the budget in force, however it was counted. -/
theorem reflow_eq_error_iff_overflows {fault : Unbreakable} :
    formatter.reflow line depth = .error fault ↔
      formatter.budget depth < width line.toList ∧ fault.line = line ∧
      (((∀ front back, line.toList = front ++ ' ' :: back →
          formatter.budget depth ≤ width front) ∧ fault.budget = formatter.budget depth) ∨
        ∃ first rest column, line.toList = first ++ ' ' :: rest ∧
          LastBreak (formatter.budget depth) first rest ∧ ColumnOf first column ∧
          Overflows (formatter.budget depth - column) (rest.splitOn ' ') ∧
          fault.budget = formatter.budget depth - column) := by
  have hcause : ∀ {budget}, fault = ⟨budget, line⟩ ↔ fault.line = line ∧ fault.budget = budget := by
    intro budget
    constructor
    · rintro rfl
      exact ⟨rfl, rfl⟩
    · rintro ⟨rfl, rfl⟩
      rfl
  rcases Nat.lt_or_ge (formatter.budget depth) (width line.toList) with hwide | hfits
  · rw [reflow_eq_error_iff_continued hwide, breakAt?_eq_none_iff, hcause]
    constructor
    · rintro (⟨hnone, hline, hbudget⟩ | ⟨first, rest, hbreak, hmore⟩)
      · exact ⟨hwide, hline, Or.inl ⟨hnone, hbudget⟩⟩
      · obtain ⟨hsplit, hlast⟩ := breakAt?_eq_some_iff.mp hbreak
        rw [continued_eq_error_iff, breakable_iff, not_not, hcause] at hmore
        exact ⟨hwide, hmore.2.1, Or.inr ⟨first, rest, continuation first, hsplit, hlast,
          continuation_eq_iff.mp rfl, hmore.1, hmore.2.2⟩⟩
    · rintro ⟨-, hline, ⟨hnone, hbudget⟩ | ⟨first, rest, column, hsplit, hlast, hcolumn, hwords,
        hbudget⟩⟩
      · exact Or.inl ⟨hnone, hline, hbudget⟩
      · obtain rfl := continuation_eq_iff.mpr hcolumn
        refine Or.inr ⟨first, rest, breakAt?_eq_some_iff.mpr ⟨hsplit, hlast⟩, ?_⟩
        rw [continued_eq_error_iff, breakable_iff, not_not, hcause]
        exact ⟨hwords, hline, hbudget⟩
  · rw [reflow, if_pos (fits_iff.mpr hfits)]
    simp [Nat.not_lt.mpr hfits]

/-- **A line fails exactly if it is too wide and its words do not fit**: no space is within the
budget, or a word behind the first break is too wide for the columns behind the continuation
column. The fault holds the whole line, and the budget that the words did not fit. -/
theorem reflow_eq_error_iff {fault : Unbreakable}
    (hcolumns : depth * formatter.tabSize < UInt64.size) :
    formatter.reflow line depth = .error fault ↔
      formatter.maxCol - depth * formatter.tabSize < width line.toList ∧ fault.line = line ∧
      (((∀ front back, line.toList = front ++ ' ' :: back →
          formatter.maxCol - depth * formatter.tabSize ≤ width front) ∧
          fault.budget = formatter.maxCol - depth * formatter.tabSize) ∨
        ∃ first rest column, line.toList = first ++ ' ' :: rest ∧
          LastBreak (formatter.maxCol - depth * formatter.tabSize) first rest ∧
          ColumnOf first column ∧
          Overflows (formatter.maxCol - depth * formatter.tabSize - column)
            (rest.splitOn ' ') ∧
          fault.budget = formatter.maxCol - depth * formatter.tabSize - column) := by
  rw [← budget_eq hcolumns]
  exact reflow_eq_error_iff_overflows

/-- The parameter behind the break is wider than the columns behind the parenthesis. -/
theorem reflow_fails_of_parameter :
    1 * 2 < UInt64.size ∧ (⟨2, 12⟩ : Formatter).reflow "int f(x, parameter)" 1 =
      .error ⟨4, "int f(x, parameter)"⟩ := by
  have hcolumns : 1 * (⟨2, 12⟩ : Formatter).tabSize < UInt64.size := by decide
  obtain ⟨hline, hbreak⟩ := breakAt?_eq_some_iff.mp
    (show breakAt? 10 "int f(x, parameter)".toList =
      some ("int f(x,".toList, "parameter)".toList) by decide)
  have hcolumn : ColumnOf "int f(x,".toList 6 := continuation_eq_iff.mp (by decide)
  have hwide : Overflows 4 ("parameter)".toList.splitOn ' ') := by
    rw [List.splitOn_eq_singleton (by decide), overflows_singleton_iff]
    decide
  exact ⟨hcolumns, (reflow_eq_error_iff hcolumns).mpr ⟨by decide, rfl,
    Or.inr ⟨_, _, 6, hline, hbreak, hcolumn, hwide, rfl⟩⟩⟩

end Formatter

end ReaderGen
