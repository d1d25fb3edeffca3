import ReaderGen.Proofs.Notation.Tokens
import Mathlib.Data.List.DropRight

/-!
# ReaderGen.Proofs.Notation.Positions -- the positions of tokens and stray characters

The lexer carries a line and a column along and changes them character by character. Here the
position behind a text is said without the lexer: a line for each of its newlines, and a column
for each character behind the last one (`Position.behind`).

A source answers with its tokens one after the other, each behind a gap, and then with its end
or a stray character (`Answers`). **In this reading every answer has the position behind the
text in front of it**, and the lexer gives exactly these answers, one by one as well as all at
once (`positions_true`). Between two answers stands at least one character, so their positions
increase.
-/

namespace ReaderGen.Notation

open Text

/-! ## Positions in a text -/

namespace Position

/-- The position behind a text: one line more than it has newlines, and one column more than
there are characters behind its last newline. -/
def behind (front : List Char) : Position :=
  ⟨1 + front.count '\n', 1 + (front.rtakeWhile (· ≠ '\n')).length⟩

/-- Further up, or further left on the same line. -/
def Before (p q : Position) : Prop :=
  p.line < q.line ∨ p.line = q.line ∧ p.column < q.column

theorem behind_concat (front : List Char) (c : Char) :
    behind (front ++ [c]) = (behind front).advance c := by
  by_cases hnewline : c = '\n'
  · have hlast : (front ++ [c]).rtakeWhile (· ≠ '\n') = [] :=
      List.rtakeWhile_concat_neg _ front c (by simp [hnewline])
    rw [advance, if_pos hnewline, behind, hlast, List.count_append, hnewline]
    rfl
  · have hlast : (front ++ [c]).rtakeWhile (· ≠ '\n') = front.rtakeWhile (· ≠ '\n') ++ [c] :=
      List.rtakeWhile_concat_pos _ front c (by simp [hnewline])
    have hcount : [c].count '\n' = 0 := by simp [hnewline]
    rw [advance, if_neg hnewline, behind, hlast, List.count_append, hcount, List.length_append]
    rfl

/-- **The line and the column that are carried along are those behind the text.** -/
theorem advanceAll_start (front : List Char) : start.advanceAll front = behind front := by
  induction front using List.reverseRecOn with
  | nil => rfl
  | append_singleton front c ih =>
    rw [advanceAll_append, ih, behind_concat, advanceAll_cons, advanceAll_nil]

/-- Every character moves the position on. -/
theorem behind_before {front more : List Char} (h : more ≠ []) :
    (behind front).Before (behind (front ++ more)) := by
  obtain ⟨hline, hcolumn⟩ := (behind front).advanceAll_moves more
  have hmore : 0 < more.length := List.length_pos_iff.mpr h
  rw [← advanceAll_start (front ++ more), advanceAll_append, advanceAll_start]
  rcases Nat.lt_or_eq_of_le hline with hdown | hsame
  · exact Or.inl hdown
  · refine Or.inr ⟨hsame, ?_⟩
    rw [hcolumn hsame.symm]
    omega

end Position

/-! ## The answers of a source -/

/-- The position that an answer carries. -/
def placeOf : Except LexError Token → Position
  | .ok token => token.position
  | .error fault => fault.position

/-- The answers on a text behind `front`. A token stands behind a gap, is written with its own
characters, and what follows is no part of it; its position is the one behind everything in
front of its first character. The last answer is the end, behind the whole source, or a
character that starts nothing. -/
inductive Answers : List Char → List Char → List (Except LexError Token) → Prop
  | token {front gap rest : List Char} {kind : TokenKind}
      {answers : List (Except LexError Token)} : Gap gap → kind.Writable →
      (kind.isIdent = true → ¬ ContinuesIdent rest) →
      Answers (front ++ gap ++ kind.spelling) rest answers →
      Answers front (gap ++ (kind.spelling ++ rest))
        (.ok ⟨kind, .behind (front ++ gap)⟩ :: answers)
  | finish {front gap : List Char} : FinalGap gap →
      Answers front gap [.ok ⟨.eof, .behind (front ++ gap)⟩]
  | stray {front gap rest : List Char} {ch : Char} : Gap gap → StartsNothing ch rest →
      Answers front (gap ++ ch :: rest) [.error ⟨ch, .behind (front ++ gap)⟩]

theorem TokenKind.Writable.spelling_ne_nil {kind : TokenKind} (h : kind.Writable) :
    kind.spelling ≠ [] := by
  cases kind with
  | ident name => exact Identifier.ne_nil h
  | eof => exact h.elim
  | _ => exact List.cons_ne_nil _ _

theorem TokenKind.Writable.ne_eof {kind : TokenKind} (h : kind.Writable) : kind ≠ .eof := by
  rintro rfl
  exact h.elim

theorem Answers.exists_place {front cs : List Char} {answers : List (Except LexError Token)}
    (h : Answers front cs answers) :
    ∀ answer ∈ answers, ∃ more, placeOf answer = .behind (front ++ more) := by
  induction h with
  | @token front gap rest kind answers _ _ _ _ ih =>
    refine List.forall_mem_cons.mpr ⟨⟨gap, rfl⟩, ?_⟩
    intro answer hanswer
    obtain ⟨more, hplace⟩ := ih answer hanswer
    refine ⟨gap ++ kind.spelling ++ more, ?_⟩
    rw [hplace]
    simp only [List.append_assoc]
  | finish _ => exact List.forall_mem_singleton.mpr ⟨_, rfl⟩
  | stray _ _ => exact List.forall_mem_singleton.mpr ⟨_, rfl⟩

/-- **Positions increase from answer to answer**, since no token is empty. -/
theorem Answers.pairwise_before {front cs : List Char} {answers : List (Except LexError Token)}
    (h : Answers front cs answers) : (answers.map placeOf).Pairwise Position.Before := by
  induction h with
  | @token front gap rest kind answers _ hkind _ hrest ih =>
    rw [List.map_cons, List.pairwise_cons, List.forall_mem_map]
    refine ⟨?_, ih⟩
    intro answer hanswer
    obtain ⟨more, hplace⟩ := hrest.exists_place answer hanswer
    -- the characters of the token stand between its own position and every later one
    rw [hplace, List.append_assoc (front ++ gap)]
    exact Position.behind_before (List.append_ne_nil_of_left_ne_nil hkind.spelling_ne_nil more)
  | finish _ => exact List.pairwise_singleton _ _
  | stray _ _ => exact List.pairwise_singleton _ _

/-- A writing is answered token by token, and then as its tail is. -/
theorem exists_answers_of_words {tail : Bool → List Char → Prop} {after : List Char}
    (hsplit : ∀ cs, tail true cs → ¬ ContinuesIdent (cs ++ after))
    (htail : ∀ front glued cs, tail glued cs → ∃ answers, Answers front (cs ++ after) answers)
    {glued : Bool} {kinds : List TokenKind} {cs : List Char} (h : Words tail glued kinds cs)
    (front : List Char) : ∃ answers, Answers front (cs ++ after) answers := by
  induction h generalizing front with
  | tail h => exact htail front _ _ h
  | @word glued gap rest kind kinds hgap hkind _ hrest ih =>
    obtain ⟨answers, hanswers⟩ := ih (front ++ gap ++ kind.spelling)
    refine ⟨.ok ⟨kind, .behind (front ++ gap)⟩ :: answers, ?_⟩
    rw [List.append_assoc, List.append_assoc]
    exact .token hgap hkind (hrest.not_continuesIdent hsplit) hanswers

/-- Every text has answers: it is written to its end or up to a stray character. -/
theorem exists_answers (cs : List Char) : ∃ answers, Answers [] cs answers := by
  rcases writtenOrStuck cs false (fun h => absurd h Bool.false_ne_true) with
    ⟨kinds, hwords⟩ | ⟨front, ch, rest, kinds, rfl, hwords, hstray⟩
  · have hsplit : ∀ cs, FinalGap cs → ¬ ContinuesIdent (cs ++ []) := by
      intro cs hfinal
      rw [List.append_nil]
      exact hfinal.not_continuesIdent
    have hfinish : ∀ front (_ : Bool) cs, FinalGap cs →
        ∃ answers, Answers front (cs ++ []) answers := by
      intro front _ cs hfinal
      rw [List.append_nil]
      exact ⟨_, .finish hfinal⟩
    have hanswers := exists_answers_of_words hsplit hfinish hwords []
    rwa [List.append_nil] at hanswers
  · refine exists_answers_of_words ?_ (fun _ _ gap hgap => ⟨_, .stray hgap.1 hstray⟩) hwords []
    rintro gap ⟨hgap, hsep⟩
    by_cases hne : gap = []
    · rw [hne, List.nil_append, continuesIdent_cons_iff, hsep rfl hne]
      exact Bool.false_ne_true
    · exact hgap.not_continuesIdent hne _

/-! ## The lexer gives these answers -/

/-- The cursor behind `front`, with `rest` to read. -/
def Cursor.behind (front rest : List Char) : Cursor := ⟨.behind front, rest⟩

theorem Position.advanceAll_behind (front more : List Char) :
    (behind front).advanceAll more = behind (front ++ more) := by
  rw [← advanceAll_start, ← advanceAll_append, advanceAll_start]

/-- **A step gives the next answer.** -/
theorem Cursor.next_token {front gap rest : List Char} {kind : TokenKind} (hgap : Gap gap)
    (hkind : kind.Writable) (hend : kind.isIdent = true → ¬ ContinuesIdent rest) :
    (Cursor.behind front (gap ++ (kind.spelling ++ rest))).next =
      .ok (⟨kind, .behind (front ++ gap)⟩,
        Cursor.behind (front ++ gap ++ kind.spelling) rest) := by
  rw [Cursor.behind, next_word hgap hkind hend, Position.advanceAll_behind,
    Position.advanceAll_behind, Cursor.behind, List.append_assoc]

theorem Cursor.next_finish {front gap : List Char} (h : FinalGap gap) :
    (Cursor.behind front gap).next =
      .ok (⟨.eof, .behind (front ++ gap)⟩, Cursor.behind (front ++ gap) []) := by
  rw [Cursor.behind, next_finalGap h, Position.advanceAll_behind, Cursor.behind]

theorem Cursor.next_strayed {front gap rest : List Char} {ch : Char} (hgap : Gap gap)
    (hstray : StartsNothing ch rest) :
    (Cursor.behind front (gap ++ ch :: rest)).next = .error ⟨ch, .behind (front ++ gap)⟩ := by
  rw [Cursor.behind, next_stray hgap hstray, Position.advanceAll_behind]

/-- All at once, the answers are collected up to the first fault. -/
theorem Answers.tokens_eq {front cs : List Char} {answers : List (Except LexError Token)}
    (h : Answers front cs answers) : (Cursor.behind front cs).tokens = answers.mapM id := by
  induction h with
  | token hgap hkind hend _ ih =>
    rw [Cursor.tokens_of_token (Cursor.next_token hgap hkind hend) hkind.ne_eof, ih,
      List.mapM_cons]
    rfl
  | finish hfinal => exact Cursor.tokens_of_end (Cursor.next_finish hfinal)
  | stray hgap hstray => exact Cursor.tokens_of_error (Cursor.next_strayed hgap hstray)

theorem TokenStream.take_finished (cursor : Cursor) (count : Nat) :
    (⟨cursor, true⟩ : TokenStream).take count = List.replicate count none := by
  induction count with
  | zero => rfl
  | succ count ih =>
    rw [take, List.replicate_succ]
    exact congrArg (none :: ·) ih

/-- One by one, each answer is given once, and then nothing any more. -/
theorem Answers.take_eq {front cs : List Char} {answers : List (Except LexError Token)}
    (h : Answers front cs answers) (count : Nat) :
    (⟨Cursor.behind front cs, false⟩ : TokenStream).take (answers.length + count) =
      answers.map some ++ List.replicate count none := by
  induction h with
  | @token front gap rest kind answers hgap hkind hend _ ih =>
    have hopen : decide (kind = .eof) = false := decide_eq_false hkind.ne_eof
    rw [List.length_cons, Nat.add_right_comm, TokenStream.take, TokenStream.next, if_neg (by simp)]
    simp only [Cursor.next_token hgap hkind hend, hopen, ih]
    rfl
  | finish hfinal =>
    rw [List.length_singleton, Nat.add_comm, TokenStream.take, TokenStream.next, if_neg (by simp)]
    simp only [Cursor.next_finish hfinal]
    exact congrArg (_ :: ·) (TokenStream.take_finished _ count)
  | stray hgap hstray =>
    rw [List.length_singleton, Nat.add_comm, TokenStream.take, TokenStream.next, if_neg (by simp)]
    simp only [Cursor.next_strayed hgap hstray]
    exact congrArg (_ :: ·) (TokenStream.take_finished _ count)

/-- **Positions are true.** The answers of a source cover it with gaps and tokens from its first
character on, each with the position behind everything in front of it, and their positions
strictly increase. They are the answers of the lexer: one by one, with silence after the last,
and all at once, up to the first fault. -/
theorem positions_true (source : String) :
    ∃ answers, Answers [] source.toList answers ∧
      (answers.map placeOf).Pairwise Position.Before ∧
      (∀ count, (TokenStream.ofSource source).take (answers.length + count) =
        answers.map some ++ List.replicate count none) ∧
      tokenize source = answers.mapM id := by
  obtain ⟨answers, hanswers⟩ := exists_answers source.toList
  exact ⟨answers, hanswers, hanswers.pairwise_before, hanswers.take_eq, hanswers.tokens_eq⟩

end ReaderGen.Notation
