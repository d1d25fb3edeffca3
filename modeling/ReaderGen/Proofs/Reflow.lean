import ReaderGen.Reflow
import Mathlib.Tactic.ByContra

/-!
# ReaderGen.Proofs.Reflow -- which lines can be wrapped

A line is wrapped greedily, each time at the last space that still fits. Here it is said
without the loop what can be wrapped at all: a text that can be cut at spaces into pieces
that fit (`Breakable`). **The greedy loop succeeds on exactly these texts**
(`exists_continued_iff`), since whatever stands behind a space of such a text can be cut
again.

The first piece of a line decides the column of the others, which makes the budget of the
whole line depend on its first break. For the two shapes of lines that are ever wrapped,
this leaves one condition each: a line without brackets needs to be breakable, and in a line
with an opening parenthesis the text behind it must be breakable in the columns that are left
of it.
-/

namespace ReaderGen

namespace Reflow

open Text

/-! ## Texts that can be cut -/

/-- The text can be cut at spaces into pieces at most `limit` wide. A piece with a cut
behind it keeps a column for the space. -/
inductive Breakable (limit : Nat) : List Char → Prop
  | last {cs : List Char} : width cs ≤ limit → Breakable limit cs
  | cut {piece rest : List Char} : width piece < limit → Breakable limit rest →
      Breakable limit (piece ++ ' ' :: rest)

theorem width_space : (' ' : Char).utf8Size = 1 := by decide

theorem Breakable.mono {limit more : Nat} {cs : List Char} (h : Breakable limit cs)
    (hle : limit ≤ more) : Breakable more cs := by
  induction h with
  | last hwidth => exact .last (Nat.le_trans hwidth hle)
  | cut hwidth _ ih => exact .cut (Nat.lt_of_lt_of_le hwidth hle) ih

/-- Columns for the text in front keep a text breakable. -/
theorem Breakable.append {limit : Nat} {back : List Char} (h : Breakable limit back)
    (front : List Char) : Breakable (width front + limit) (front ++ back) := by
  cases h with
  | last hwidth =>
    apply Breakable.last
    rw [width_append]
    omega
  | @cut piece rest hwidth hrest =>
    rw [← List.append_assoc]
    apply Breakable.cut
    · rw [width_append]
      omega
    · exact hrest.mono (Nat.le_add_left limit (width front))

/-- What stands behind a space of a breakable text is breakable. -/
theorem Breakable.behind {limit : Nat} {cs front rest : List Char} (h : Breakable limit cs)
    (hcs : cs = front ++ ' ' :: rest) : Breakable limit rest := by
  induction h generalizing front with
  | last hwidth =>
    apply Breakable.last
    rw [hcs, width_append, width_cons] at hwidth
    omega
  | @cut piece left hwidth hleft ih =>
    -- the space is inside the piece, is the cut behind it, or comes later
    rcases List.append_eq_append_iff.mp hcs with ⟨middle, rfl, htail⟩ | ⟨middle, rfl, htail⟩
    · cases middle with
      | nil =>
        obtain ⟨-, rfl⟩ := List.cons.inj htail
        exact hleft
      | cons c middle =>
        obtain ⟨-, hlater⟩ := List.cons.inj htail
        exact ih hlater
    · cases middle with
      | nil =>
        obtain ⟨-, rfl⟩ := List.cons.inj htail
        exact hleft
      | cons c middle =>
        obtain ⟨-, rfl⟩ := List.cons.inj htail
        rw [width_append, width_cons] at hwidth
        exact .cut (by omega) hleft

/-! ## The greedy loop -/

/-- There is a break wherever a space leaves a fitting piece. -/
theorem breakAt?_ne_none {budget : Nat} {piece rest : List Char} (h : width piece < budget) :
    breakAt? budget (piece ++ ' ' :: rest) ≠ none := by
  induction piece generalizing budget with
  | nil =>
    have hspace : (' ' : Char).utf8Size ≤ budget := by
      rw [width_space]
      exact h
    rw [List.nil_append, breakAt?, if_pos hspace]
    cases breakAt? (budget - (' ' : Char).utf8Size) rest with
    | none => exact Option.some_ne_none ([], rest)
    | some cut => exact Option.some_ne_none (' ' :: cut.1, cut.2)
  | cons c piece ih =>
    rw [width_cons] at h
    have hlater : breakAt? (budget - c.utf8Size) (piece ++ ' ' :: rest) ≠ none := ih (by omega)
    rw [List.cons_append, breakAt?, if_pos (by omega)]
    cases hcut : breakAt? (budget - c.utf8Size) (piece ++ ' ' :: rest) with
    | none => exact absurd hcut hlater
    | some cut => exact Option.some_ne_none (c :: cut.1, cut.2)

/-- **The greedy loop succeeds on exactly the breakable texts.** -/
theorem exists_continued_iff {line : String} {budget column : Nat} {cs : List Char} :
    (∃ pieces, continued line budget column cs = .ok pieces) ↔ Breakable budget cs := by
  constructor
  · rintro ⟨pieces, h⟩
    fun_induction continued line budget column cs generalizing pieces with
    | case1 cs hfits => exact .last (fits_iff.mp hfits)
    | case2 => cases h
    | case3 => cases h
    | case4 cs _ piece rest hbreak found hfound ih =>
      obtain ⟨rfl, hwidth⟩ := breakAt?_eq_some hbreak
      exact .cut hwidth (ih found hfound)
  · intro h
    fun_induction continued line budget column cs with
    | case1 cs hfits => exact ⟨_, rfl⟩
    | case2 cs hfits hbreak =>
      cases h with
      | last hwidth => exact absurd (fits_iff.mpr hwidth) hfits
      | cut hwidth _ => exact absurd hbreak (breakAt?_ne_none hwidth)
    | case3 cs _ piece rest hbreak fault hfault ih =>
      obtain ⟨pieces, hpieces⟩ := ih (h.behind (breakAt?_eq_some hbreak).1)
      rw [hpieces] at hfault
      cases hfault
    | case4 => exact ⟨_, rfl⟩

end Reflow

/-! ## Whole lines -/

namespace Formatter

open Reflow Text

variable {formatter : Formatter} {line : String} {depth : Nat}

/-- The line can be laid out at that depth. -/
def Wraps (formatter : Formatter) (line : String) (depth : Nat) : Prop :=
  ∃ lines, formatter.format line depth = .ok lines

theorem wraps_iff_reflow :
    formatter.Wraps line depth ↔ ∃ pieces, formatter.reflow line depth = .ok pieces := by
  rw [Wraps, format]
  cases formatter.reflow line depth with
  | error fault => simp
  | ok pieces => simp

/-- **A line wraps exactly if it fits, or its first piece leaves room for the rest.** -/
theorem wraps_iff :
    formatter.Wraps line depth ↔
      width line.toList ≤ formatter.budget depth ∨
      ∃ piece rest, breakAt? (formatter.budget depth) line.toList = some (piece, rest) ∧
        Breakable (formatter.budget depth - continuation piece) rest := by
  rw [wraps_iff_reflow, reflow]
  by_cases hfits : fits (formatter.budget depth) line.toList = true
  · have hwidth := fits_iff.mp hfits
    simp [hfits, hwidth]
  · have hwide : ¬ width line.toList ≤ formatter.budget depth := fun h => hfits (fits_iff.mpr h)
    simp only [hfits, hwide, false_or]
    cases hbreak : breakAt? (formatter.budget depth) line.toList with
    | none => simp
    | some cut =>
      obtain ⟨piece, rest⟩ := cut
      have hloop : Breakable (formatter.budget depth - continuation piece) rest ↔
          ∃ pieces, continued line (formatter.budget depth - continuation piece)
            (continuation piece) rest = .ok pieces := exists_continued_iff.symm
      have honly : (∃ front left, some (piece, rest) = some (front, left) ∧
          Breakable (formatter.budget depth - continuation front) left) ↔
          Breakable (formatter.budget depth - continuation piece) rest := by
        constructor
        · rintro ⟨front, left, hsame, h⟩
          cases hsame
          exact h
        · intro h
          exact ⟨piece, rest, rfl, h⟩
      rw [honly, hloop]
      cases hcontinued : continued line (formatter.budget depth - continuation piece)
          (continuation piece) rest with
      | error fault => simp [hcontinued]
      | ok pieces => simp [hcontinued]

/-- The pieces of a line: the line alone if it fits, else a first piece and the continuation
lines behind its column. -/
theorem reflow_eq_ok {pieces : List String} (h : formatter.reflow line depth = .ok pieces) :
    (width line.toList ≤ formatter.budget depth ∧ pieces = [line]) ∨
      ∃ piece rest more, breakAt? (formatter.budget depth) line.toList = some (piece, rest) ∧
        continued line (formatter.budget depth - continuation piece) (continuation piece) rest =
          .ok more ∧
        pieces = String.ofList piece :: more := by
  rw [reflow] at h
  by_cases hfits : fits (formatter.budget depth) line.toList = true
  · simp only [hfits, if_true, Except.ok.injEq] at h
    exact Or.inl ⟨fits_iff.mp hfits, h.symm⟩
  · simp only [hfits] at h
    cases hbreak : breakAt? (formatter.budget depth) line.toList with
    | none => simp [hbreak] at h
    | some cut =>
      obtain ⟨piece, rest⟩ := cut
      cases hmore : continued line (formatter.budget depth - continuation piece)
          (continuation piece) rest with
      | error fault => simp [hbreak, hmore] at h
      | ok more =>
        simp only [hbreak, hmore, Bool.false_eq_true, if_false, Except.ok.injEq] at h
        exact Or.inr ⟨piece, rest, more, rfl, hmore, h.symm⟩

/-- A line has at least one piece. -/
theorem ne_nil_of_reflow {pieces : List String} (h : formatter.reflow line depth = .ok pieces) :
    pieces ≠ [] := by
  obtain ⟨-, rfl⟩ | ⟨piece, rest, more, -, -, rfl⟩ := reflow_eq_ok h
  · exact List.cons_ne_nil _ _
  · exact List.cons_ne_nil _ _

theorem wraps_of_fits (h : width line.toList ≤ formatter.budget depth) :
    formatter.Wraps line depth :=
  wraps_iff.mpr (Or.inl h)

/-- A breakable line wraps if what stands behind each of its spaces is breakable in the
columns that the text before the space leaves. -/
theorem wraps_of_breakable (h : Breakable (formatter.budget depth) line.toList)
    (hrest : ∀ piece rest, line.toList = piece ++ ' ' :: rest →
      Breakable (formatter.budget depth - continuation piece) rest) :
    formatter.Wraps line depth := by
  rw [wraps_iff]
  cases hbreak : breakAt? (formatter.budget depth) line.toList with
  | some cut =>
    obtain ⟨piece, rest⟩ := cut
    exact Or.inr ⟨piece, rest, rfl, hrest piece rest (breakAt?_eq_some hbreak).1⟩
  | none =>
    left
    generalize line.toList = cs at h hbreak
    cases h with
    | last hwidth => exact hwidth
    | cut hwidth _ => exact absurd hbreak (breakAt?_ne_none hwidth)

/-- A line does not wrap if what its first piece leaves is too wide and has no space in front
of the budget. -/
theorem not_wraps {piece rest : List Char} (hwide : formatter.budget depth < width line.toList)
    (hbreak : breakAt? (formatter.budget depth) line.toList = some (piece, rest))
    (hrest : formatter.budget depth - continuation piece < width rest)
    (hstuck : breakAt? (formatter.budget depth - continuation piece) rest = none) :
    ¬ formatter.Wraps line depth := by
  rw [wraps_iff]
  rintro (hfits | ⟨front, left, hcut, h⟩)
  · exact absurd hwide (Nat.not_lt.mpr hfits)
  · rw [hbreak] at hcut
    cases hcut
    cases h with
    | last hwidth => exact absurd hrest (Nat.not_lt.mpr hwidth)
    | cut hwidth _ => exact breakAt?_ne_none hwidth hstuck

theorem continuation_eq_zero {piece : List Char} (hbrace : '{' ∉ piece) (hparen : '(' ∉ piece) :
    continuation piece = 0 := by
  rw [continuation, if_neg hbrace, if_neg hparen]

/-- A line without brackets wraps if it is breakable. -/
theorem wraps_of_plain (hbrace : '{' ∉ line.toList) (hparen : '(' ∉ line.toList)
    (h : Breakable (formatter.budget depth) line.toList) : formatter.Wraps line depth := by
  refine wraps_of_breakable h ?_
  intro piece rest hline
  have hfront : ∀ c ∈ piece, c ∈ line.toList := by
    intro c hc
    rw [hline]
    exact List.mem_append_left _ hc
  rw [continuation_eq_zero (fun hc => hbrace (hfront _ hc)) (fun hc => hparen (hfront _ hc)),
    Nat.sub_zero]
  exact h.behind hline

/-- **A line with an opening parenthesis wraps if what stands behind the parenthesis is
breakable in the columns behind it.** A brace may only be the last character, which is never
in front of a break. -/
theorem wraps_of_call {front back : List Char} {limit : Nat}
    (hline : line.toList = front ++ '(' :: back) (hparen : '(' ∉ front) (hfront : '{' ∉ front)
    (hback : '{' ∉ back.dropLast) (h : Breakable limit back)
    (hbudget : width front + 1 + limit ≤ formatter.budget depth) :
    formatter.Wraps line depth := by
  have hwidth : width (front ++ ['(']) = width front + 1 := by
    rw [width_append, width_cons, width_nil]
    rfl
  have hwhole : Breakable (formatter.budget depth) line.toList := by
    have hjoined := h.append (front ++ ['('])
    rw [hwidth, List.append_assoc, List.singleton_append, ← hline] at hjoined
    exact hjoined.mono hbudget
  refine wraps_of_breakable hwhole ?_
  intro piece rest hpiece
  rcases List.append_eq_append_iff.mp (hpiece.symm.trans hline) with
    ⟨middle, hsplit, htail⟩ | ⟨middle, hsplit, htail⟩
  · -- the break stands in front of the parenthesis
    have hcolumn : continuation piece = 0 := by
      apply continuation_eq_zero
      · intro hc
        exact hfront (hsplit ▸ List.mem_append_left _ hc)
      · intro hc
        exact hparen (hsplit ▸ List.mem_append_left _ hc)
    rw [hcolumn, Nat.sub_zero]
    exact hwhole.behind hpiece
  · cases middle with
    | nil =>
      -- a space is no parenthesis
      rw [List.nil_append] at htail
      exact absurd (List.cons.inj htail).1 (by decide)
    | cons c middle =>
      -- the break stands behind the parenthesis, and the last character behind the break
      rw [List.cons_append] at htail
      obtain ⟨rfl, hrest⟩ := List.cons.inj htail
      have hbrace : '{' ∉ middle := by
        intro hc
        rw [hrest, List.dropLast_append_of_ne_nil (List.cons_ne_nil ' ' rest)] at hback
        exact hback (List.mem_append_left _ hc)
      have hnone : '{' ∉ piece := by
        rw [hsplit]
        simp [hfront, hbrace]
      have hsome : '(' ∈ piece := by
        rw [hsplit]
        simp
      have htaken : piece.takeWhile (· ≠ '(') = front := by
        have hall : ∀ c ∈ front, decide (c ≠ '(') = true := by
          intro c hc
          rw [decide_eq_true_eq]
          rintro rfl
          exact hparen hc
        rw [hsplit, List.takeWhile_append_of_pos hall, List.takeWhile_cons_of_neg (by decide),
          List.append_nil]
      rw [continuation, if_neg hnone, if_pos hsome, htaken]
      exact (h.behind hrest).mono (by omega)

end Formatter

end ReaderGen
