import ReaderGen.Proofs.Reflow

/-!
# ReaderGen.Proofs.Reflow.Greedy -- where a wrapped line is broken

What a line is broken into, said without the loop. A break is the last one that the budget
allows (`LastBreak`): its space is among the first octets of the text that is still to be
written, and none of the later spaces is. A text is broken so until the rest fits (`Greedy`),
in the columns that the first piece leaves (`ColumnOf`).

**A line is written exactly in this way** (`reflow_eq_ok_iff`): joined by single spaces, the
pieces without their padding are the line again, so nothing is lost and no character is cut.
-/

namespace ReaderGen

namespace Reflow

open Text

/-! ## One break -/

/-- The space between `piece` and `rest` is within the budget, and no later one is. -/
structure LastBreak (budget : Nat) (piece rest : List Char) : Prop where
  within : width piece < budget
  last : ∀ front back, piece ++ ' ' :: rest = front ++ ' ' :: back → width front < budget →
    width front ≤ width piece

theorem width_eq_zero_iff {cs : List Char} : width cs = 0 ↔ cs = [] := by
  cases cs with
  | nil => simp
  | cons c cs =>
    have := c.utf8Size_pos
    simp only [width_cons, reduceCtorEq, iff_false]
    omega

/-- Two beginnings of one text that are equally wide are the same. -/
theorem eq_of_width_eq {front piece rest back : List Char}
    (h : piece ++ rest = front ++ back) (hwidth : width piece = width front) : piece = front := by
  rcases List.append_eq_append_iff.mp h with ⟨middle, rfl, -⟩ | ⟨middle, rfl, -⟩
  · rw [width_append] at hwidth
    rw [width_eq_zero_iff.mp (by omega : width middle = 0), List.append_nil]
  · rw [width_append] at hwidth
    rw [width_eq_zero_iff.mp (by omega : width middle = 0), List.append_nil]

/-- There is no break exactly if every space is behind the budget. -/
theorem breakAt?_eq_none_iff {budget : Nat} {cs : List Char} :
    breakAt? budget cs = none ↔
      ∀ front back, cs = front ++ ' ' :: back → budget ≤ width front := by
  constructor
  · rintro h front back rfl
    by_contra hfits
    exact breakAt?_ne_none (Nat.lt_of_not_le hfits) h
  · intro h
    cases hbreak : breakAt? budget cs with
    | none => rfl
    | some cut =>
      obtain ⟨hcs, hwidth⟩ := breakAt?_eq_some hbreak
      exact absurd hwidth (Nat.not_lt.mpr (h _ _ hcs))

/-- Behind a break, the columns that are left of the budget have no other. -/
theorem breakAt?_behind {budget : Nat} {cs piece rest : List Char}
    (h : breakAt? budget cs = some (piece, rest)) :
    breakAt? (budget - (width piece + 1)) rest = none := by
  induction cs generalizing budget piece rest with
  | nil => simp [breakAt?] at h
  | cons c cs ih =>
    unfold breakAt? at h
    split at h
    · split at h
      · next tail left hlater =>
        cases h
        have hnone := ih hlater
        rw [width_cons, show budget - (c.utf8Size + width tail + 1) =
          budget - c.utf8Size - (width tail + 1) by omega]
        exact hnone
      · next hnone =>
        split at h
        · next hspace =>
          cases h
          subst hspace
          exact hnone
        · cases h
    · cases h

/-- **A text is broken at the last space that the budget allows, and nowhere else.** -/
theorem breakAt?_eq_some_iff {budget : Nat} {cs piece rest : List Char} :
    breakAt? budget cs = some (piece, rest) ↔
      cs = piece ++ ' ' :: rest ∧ LastBreak budget piece rest := by
  have hsound : ∀ {piece rest}, breakAt? budget cs = some (piece, rest) →
      cs = piece ++ ' ' :: rest ∧ LastBreak budget piece rest := by
    intro piece rest h
    obtain ⟨hcs, hwidth⟩ := breakAt?_eq_some h
    refine ⟨hcs, hwidth, ?_⟩
    intro front back hother hfront
    by_contra hlater
    -- a space behind the break would be one more in the columns that are left
    rcases List.append_eq_append_iff.mp hother with ⟨middle, rfl, htail⟩ | ⟨middle, rfl, -⟩
    · cases middle with
      | nil => exact hlater (by simp)
      | cons c middle =>
        obtain ⟨rfl, hrest⟩ := List.cons.inj htail
        have hspace := breakAt?_eq_none_iff.mp (breakAt?_behind h) middle back hrest
        rw [width_append, width_cons, width_space] at hfront
        omega
    · exact hlater (by rw [width_append]; omega)
  constructor
  · exact hsound
  · rintro ⟨hcs, hlast⟩
    cases hbreak : breakAt? budget cs with
    | none => exact absurd (hcs ▸ hbreak) (breakAt?_ne_none hlast.within)
    | some cut =>
      obtain ⟨front, back⟩ := cut
      obtain ⟨hother, hfront⟩ := hsound hbreak
      have hsame : piece ++ ' ' :: rest = front ++ ' ' :: back := hcs.symm.trans hother
      -- each of the two is the last
      have hwidth : width piece = width front :=
        Nat.le_antisymm (hfront.last _ _ hsame.symm hlast.within)
          (hlast.last _ _ hsame hfront.within)
      obtain rfl := eq_of_width_eq hsame hwidth
      rw [(List.cons.inj (List.append_cancel_left hsame)).2]

/-! ## The column of the continuation lines -/

/-- The first piece of a line gives the column of the others: two behind its first opening
brace, or else one behind its first opening parenthesis, or else none. -/
inductive ColumnOf : List Char → Nat → Prop
  | brace {before after : List Char} : '{' ∉ before →
      ColumnOf (before ++ '{' :: after) (width before + 2)
  | paren {before after : List Char} : '(' ∉ before → '{' ∉ before ++ '(' :: after →
      ColumnOf (before ++ '(' :: after) (width before + 1)
  | start {piece : List Char} : '{' ∉ piece → '(' ∉ piece → ColumnOf piece 0

theorem takeWhile_ne {c : Char} {before : List Char} (h : c ∉ before) (after : List Char) :
    (before ++ c :: after).takeWhile (· ≠ c) = before := by
  have hall : ∀ d ∈ before, decide (d ≠ c) = true := by
    intro d hd
    rw [decide_eq_true_eq]
    rintro rfl
    exact h hd
  rw [List.takeWhile_append_of_pos hall, List.takeWhile_cons_of_neg (by simp), List.append_nil]

theorem continuation_eq_iff {piece : List Char} {column : Nat} :
    continuation piece = column ↔ ColumnOf piece column := by
  constructor
  · rintro rfl
    rw [continuation]
    by_cases hbrace : '{' ∈ piece
    · obtain ⟨before, after, rfl, hfirst⟩ := List.eq_append_cons_of_mem hbrace
      rw [if_pos hbrace, takeWhile_ne hfirst]
      exact .brace hfirst
    · rw [if_neg hbrace]
      by_cases hparen : '(' ∈ piece
      · obtain ⟨before, after, rfl, hfirst⟩ := List.eq_append_cons_of_mem hparen
        rw [if_pos hparen, takeWhile_ne hfirst]
        exact .paren hfirst hbrace
      · rw [if_neg hparen]
        exact .start hbrace hparen
  · intro h
    cases h with
    | brace hfirst => rw [continuation, if_pos (by simp), takeWhile_ne hfirst]
    | paren hfirst hbrace => rw [continuation, if_neg hbrace, if_pos (by simp), takeWhile_ne hfirst]
    | start hbrace hparen => exact Formatter.continuation_eq_zero hbrace hparen

/-! ## All breaks -/

/-- The text is cut at the last space that the budget allows, and again, until the rest fits. -/
inductive Greedy (budget : Nat) : List Char → List (List Char) → Prop
  | fits {text : List Char} : width text ≤ budget → Greedy budget text [text]
  | cut {piece rest : List Char} {pieces : List (List Char)} :
      budget < width (piece ++ ' ' :: rest) → LastBreak budget piece rest →
      Greedy budget rest pieces → Greedy budget (piece ++ ' ' :: rest) (piece :: pieces)

theorem continued_eq_ok_iff {line : String} {budget column : Nat} {cs : List Char}
    {pieces : List String} :
    continued line budget column cs = .ok pieces ↔
      ∃ texts, Greedy budget cs texts ∧
        pieces = texts.map fun text => String.ofList (padding column ++ text) := by
  constructor
  · intro h
    fun_induction continued line budget column cs generalizing pieces with
    | case1 cs hfits =>
      cases h
      exact ⟨[cs], .fits (fits_iff.mp hfits), rfl⟩
    | case2 => cases h
    | case3 => cases h
    | case4 cs hfits piece rest hbreak more hmore ih =>
      cases h
      obtain ⟨texts, hgreedy, rfl⟩ := ih hmore
      obtain ⟨rfl, hlast⟩ := breakAt?_eq_some_iff.mp hbreak
      have hwide := Nat.lt_of_not_le fun hle => hfits (fits_iff.mpr hle)
      exact ⟨piece :: texts, .cut hwide hlast hgreedy, rfl⟩
  · rintro ⟨texts, hgreedy, rfl⟩
    induction hgreedy with
    | fits hwidth =>
      rw [continued, if_pos (fits_iff.mpr hwidth)]
      rfl
    | cut hwide hlast _ ih =>
      have hbreak := breakAt?_eq_some_iff.mpr ⟨rfl, hlast⟩
      rw [continued, if_neg fun hfits => Nat.not_le.mpr hwide (fits_iff.mp hfits)]
      split
      · next hnone =>
        rw [hbreak] at hnone
        cases hnone
      · next piece rest hsame =>
        rw [hbreak] at hsame
        cases hsame
        rw [ih]
        rfl

/-- Texts joined by single spaces, the first taken apart. -/
theorem intercalate_space_cons {text : List Char} {texts : List (List Char)} (h : texts ≠ []) :
    [' '].intercalate (text :: texts) = text ++ ' ' :: [' '].intercalate texts := by
  rw [List.intercalate_cons_of_ne_nil h, List.append_assoc, List.singleton_append]

theorem Greedy.ne_nil {budget : Nat} {text : List Char} {pieces : List (List Char)}
    (h : Greedy budget text pieces) : pieces ≠ [] := by
  cases h <;> exact List.cons_ne_nil _ _

theorem Greedy.eq_intercalate {budget : Nat} {text : List Char} {pieces : List (List Char)}
    (h : Greedy budget text pieces) : text = [' '].intercalate pieces := by
  induction h with
  | fits => rw [List.intercalate_singleton]
  | cut _ _ hrest ih =>
    rw [intercalate_space_cons hrest.ne_nil, ← ih]

/-- The breaks of a text one by one: at each, the text still to be written is too wide, and the
break is the last one that the budget allows. -/
theorem greedy_iff {budget : Nat} {text : List Char} {pieces : List (List Char)} :
    Greedy budget text pieces ↔ pieces ≠ [] ∧ text = [' '].intercalate pieces ∧
      (∀ before piece after, pieces = before ++ piece :: after → after ≠ [] →
        budget < width ([' '].intercalate (piece :: after)) ∧
          LastBreak budget piece ([' '].intercalate after)) ∧
      ∀ piece ∈ pieces.getLast?, width piece ≤ budget := by
  constructor
  · intro h
    refine ⟨h.ne_nil, h.eq_intercalate, ?_⟩
    induction h with
    | fits hwidth =>
      constructor
      · intro before piece after hsplit hafter
        cases before with
        | nil => exact absurd (List.cons.inj hsplit).2.symm hafter
        | cons first before => simp at hsplit
      · intro piece hpiece
        cases hpiece
        exact hwidth
    | @cut piece rest pieces hwide hlast hrest ih =>
      constructor
      · intro before piece' after hsplit hafter
        cases before with
        | nil =>
          obtain ⟨rfl, rfl⟩ := List.cons.inj hsplit
          rw [intercalate_space_cons hafter, ← hrest.eq_intercalate]
          exact ⟨hwide, hlast⟩
        | cons first before =>
          exact ih.1 before piece' after (List.cons.inj hsplit).2 hafter
      · rw [List.getLast?_cons_of_ne_nil hrest.ne_nil]
        exact ih.2
  · rintro ⟨hne, rfl, hbreaks, hend⟩
    induction pieces with
    | nil => exact absurd rfl hne
    | cons piece pieces ih =>
      by_cases hlast : pieces = []
      · subst hlast
        rw [List.intercalate_singleton]
        exact .fits (hend piece rfl)
      · obtain ⟨hwide, hbreak⟩ := hbreaks [] piece pieces rfl hlast
        rw [intercalate_space_cons hlast] at hwide ⊢
        rw [List.getLast?_cons_of_ne_nil hlast] at hend
        refine .cut hwide hbreak (ih hlast ?_ hend)
        intro before other after hsplit hafter
        exact hbreaks (piece :: before) other after (by rw [hsplit, List.cons_append]) hafter

end Reflow

/-! ## Whole lines -/

namespace Formatter

open Reflow Text

/-- How a line that is too wide is written: a first piece, and continuation lines that hold
`texts` behind their padding. -/
structure Wrapped (budget : Nat) (line first : List Char) (column : Nat)
    (texts : List (List Char)) : Prop where
  column_of : ColumnOf first column
  continues : texts ≠ []
  whole : line = [' '].intercalate (first :: texts)
  first_break : LastBreak budget first ([' '].intercalate texts)
  later_breaks : ∀ before text after, texts = before ++ text :: after → after ≠ [] →
    budget - column < width ([' '].intercalate (text :: after)) ∧
      LastBreak (budget - column) text ([' '].intercalate after)
  end_fits : ∀ text ∈ texts.getLast?, width text ≤ budget - column

variable {formatter : Formatter} {line : String} {depth : Nat}

/-- The pieces of a line against the budget in force, however it was counted. -/
theorem reflow_eq_ok_iff_wrapped {pieces : List String} :
    formatter.reflow line depth = .ok pieces ↔
      (width line.toList ≤ formatter.budget depth ∧ pieces = [line]) ∨
      (formatter.budget depth < width line.toList ∧ ∃ first column texts,
        pieces = String.ofList first ::
          texts.map (fun text => String.ofList (padding column ++ text)) ∧
        Wrapped (formatter.budget depth) line.toList first column texts) := by
  constructor
  · intro h
    rcases Nat.lt_or_ge (formatter.budget depth) (width line.toList) with hwide | hfits
    · refine Or.inr ⟨hwide, ?_⟩
      obtain ⟨hfits, -⟩ | ⟨first, rest, more, hbreak, hmore, rfl⟩ := reflow_eq_ok h
      · exact absurd hwide (Nat.not_lt.mpr hfits)
      · obtain ⟨hline, hlast⟩ := breakAt?_eq_some_iff.mp hbreak
        obtain ⟨texts, hgreedy, rfl⟩ := continued_eq_ok_iff.mp hmore
        obtain ⟨hne, rfl, hbreaks, hend⟩ := greedy_iff.mp hgreedy
        exact ⟨first, continuation first, texts, rfl, continuation_eq_iff.mp rfl, hne,
          hline.trans (intercalate_space_cons hne).symm, hlast, hbreaks, hend⟩
    · refine Or.inl ⟨hfits, ?_⟩
      rw [reflow, if_pos (fits_iff.mpr hfits)] at h
      exact (Except.ok.inj h).symm
  · rintro (⟨hfits, rfl⟩ | ⟨hwide, first, column, texts, rfl, hwrapped⟩)
    · rw [reflow, if_pos (fits_iff.mpr hfits)]
    · have hgreedy : Greedy (formatter.budget depth - column) ([' '].intercalate texts) texts :=
        greedy_iff.mpr ⟨hwrapped.continues, rfl, hwrapped.later_breaks, hwrapped.end_fits⟩
      have hline : line.toList = first ++ ' ' :: [' '].intercalate texts :=
        hwrapped.whole.trans (intercalate_space_cons hwrapped.continues)
      have hbreak := breakAt?_eq_some_iff.mpr ⟨hline, hwrapped.first_break⟩
      obtain rfl := continuation_eq_iff.mpr hwrapped.column_of
      have hmore : continued line (formatter.budget depth - continuation first)
          (continuation first) ([' '].intercalate texts) = .ok (texts.map fun text =>
            String.ofList (padding (continuation first) ++ text)) :=
        continued_eq_ok_iff.mpr ⟨texts, hgreedy, rfl⟩
      rw [reflow, if_neg fun hfits => Nat.not_le.mpr hwide (fits_iff.mp hfits)]
      simp only [hbreak, hmore]

/-- **A line that fits is left alone, and any other is broken greedily.** Its pieces, without
the padding of the later ones, are the line cut at single spaces, each of them the last space
that the budget allows: of the whole budget for the first piece, and of the columns behind the
continuation column for the others. No other list of pieces is such. -/
theorem reflow_eq_ok_iff {pieces : List String}
    (hcolumns : depth * formatter.tabSize < UInt64.size) :
    formatter.reflow line depth = .ok pieces ↔
      (width line.toList ≤ formatter.maxCol - depth * formatter.tabSize ∧ pieces = [line]) ∨
      (formatter.maxCol - depth * formatter.tabSize < width line.toList ∧ ∃ first column texts,
        pieces = String.ofList first ::
          texts.map (fun text => String.ofList (padding column ++ text)) ∧
        Wrapped (formatter.maxCol - depth * formatter.tabSize) line.toList first column texts) := by
  rw [← budget_eq hcolumns]
  exact reflow_eq_ok_iff_wrapped

/-- The pieces of a signature at depth one, whose parameters are aligned behind the
parenthesis. -/
theorem reflow_signature :
    (⟨2, 12⟩ : Formatter).reflow "int f(int a, int b)" 1 =
      .ok ["int f(int", "      a,", "      int", "      b)"] := by
  have hsome : ((⟨2, 12⟩ : Formatter).reflow "int f(int a, int b)" 1).toOption =
      some ["int f(int", "      a,", "      int", "      b)"] := by decide +kernel
  cases hresult : (⟨2, 12⟩ : Formatter).reflow "int f(int a, int b)" 1 with
  | error fault =>
    rw [hresult] at hsome
    cases hsome
  | ok pieces =>
    rw [hresult] at hsome
    cases hsome
    rfl

/-- The signature is too wide, so its pieces are those of a greedy cut. -/
theorem wrapped_of_signature :
    1 * 2 < UInt64.size ∧ ∃ first column texts,
      ["int f(int", "      a,", "      int", "      b)"] = String.ofList first ::
        texts.map (fun text => String.ofList (padding column ++ text)) ∧
      Wrapped (12 - 1 * 2) "int f(int a, int b)".toList first column texts := by
  have hcolumns : 1 * (⟨2, 12⟩ : Formatter).tabSize < UInt64.size := by decide
  refine ⟨hcolumns, ?_⟩
  obtain ⟨hfits, -⟩ | ⟨-, hwrapped⟩ := (reflow_eq_ok_iff hcolumns).mp reflow_signature
  · exact absurd hfits (by decide)
  · exact hwrapped

end Formatter

end ReaderGen
