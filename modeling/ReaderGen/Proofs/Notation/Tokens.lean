import ReaderGen.Notation.Lexer
import ReaderGen.Proofs.Notation.Rendering

/-!
# ReaderGen.Proofs.Notation.Tokens -- the lexer against the writing of tokens

The lexer reads one token at a time. **One step takes one gap and one token off the front
of a writing** (`Cursor.next_word`), so a run over a writing gives its kinds and then
whatever its tail gives (`Cursor.tokens_words`). A final gap gives the end, and a stray
character gives the error at its position.

Since every text is written to its end or gets stuck, these two runs are all there is
(`tokenize_exact`).
-/

namespace ReaderGen.Notation

open Text

/-! ## Gaps -/

namespace Cursor

theorem dropGap_comment {text : List Char} (h : '\n' ∉ text) (p : Position) (rest : List Char) :
    dropGap true p (text ++ rest) = dropGap true (p.advanceAll text) rest := by
  induction text generalizing p with
  | nil => rfl
  | cons c text ih =>
    have hc : c ≠ '\n' := by
      rintro rfl
      exact h (List.mem_cons_self ..)
    have htext : '\n' ∉ text := fun hmem => h (List.mem_cons_of_mem _ hmem)
    rw [List.cons_append, dropGap, Position.advanceAll_cons]
    simp only [Bool.true_and, decide_eq_true_eq, ne_eq, hc, not_false_eq_true, if_true]
    exact ih htext _

theorem dropGap_hyphens (p : Position) (rest : List Char) :
    dropGap false p ('-' :: '-' :: rest) = dropGap true (p.advanceAll ['-', '-']) rest := by
  have hfirst : dropGap false p ('-' :: '-' :: rest) =
      dropGap true (p.advance '-') ('-' :: rest) := by
    rw [dropGap]
    simp [isBlank_hyphen]
  rw [hfirst, dropGap]
  simp

/-- A gap is dropped as a whole. -/
theorem dropGap_gap {gap : List Char} (h : Gap gap) (p : Position) (rest : List Char) :
    dropGap false p (gap ++ rest) = dropGap false (p.advanceAll gap) rest := by
  induction h generalizing p with
  | nil => rfl
  | blank hblank _ ih =>
    rw [List.cons_append, dropGap, Position.advanceAll_cons]
    simp only [Bool.false_and, Bool.false_eq_true, if_false, hblank, if_true]
    exact ih _
  | @comment text below htext _ ih =>
    rw [List.cons_append, List.cons_append, dropGap_hyphens, List.append_assoc,
      dropGap_comment htext, List.cons_append, dropGap]
    simp only [ne_eq, not_true_eq_false, decide_false, Bool.and_false, Bool.false_eq_true, if_false,
      isBlank_newline, if_true, ih]
    rw [show '-' :: '-' :: (text ++ '\n' :: below) = ['-', '-'] ++ (text ++ '\n' :: below) from rfl]
    simp only [Position.advanceAll_append, Position.advanceAll_cons]

theorem dropGap_finalGap {gap : List Char} (h : FinalGap gap) (p : Position) :
    dropGap false p gap = ⟨p.advanceAll gap, []⟩ := by
  cases h with
  | closed hgap =>
    have hdrop := dropGap_gap hgap p []
    rw [List.append_nil] at hdrop
    rw [hdrop, dropGap]
  | @comment front text hgap htext =>
    have hdrop := dropGap_comment htext ((p.advanceAll front).advanceAll ['-', '-']) []
    rw [List.append_nil] at hdrop
    rw [dropGap_gap hgap, dropGap_hyphens, hdrop, dropGap]
    rw [show '-' :: '-' :: text = ['-', '-'] ++ text from rfl]
    simp only [Position.advanceAll_append]

/-- Nothing is dropped in front of a character that starts no gap. -/
theorem dropGap_stop {ch : Char} {rest : List Char} (hblank : isBlank ch = false)
    (hcomment : ¬ (ch = '-' ∧ ∃ after, rest = '-' :: after)) (p : Position) :
    dropGap false p (ch :: rest) = ⟨p, ch :: rest⟩ := by
  have hhyphens : (decide (ch = '-') && decide (rest.head? = some '-')) = false := by
    rw [Bool.eq_false_iff]
    intro h
    rw [Bool.and_eq_true, decide_eq_true_eq, decide_eq_true_eq, List.head?_eq_some_iff] at h
    exact hcomment h
  rw [dropGap]
  simp [hblank, hhyphens]

/-! ## One step -/

theorem spelling_of_identifier {name : String} (h : Identifier name.toList) :
    ∃ c tail, name.toList = c :: tail ∧ isIdentStart c = true ∧
      ∀ d ∈ c :: tail, isIdentRest d = true := by
  generalize name.toList = cs at h
  cases h with
  | @intro c tail hstart htail =>
    have hc : isIdentStart c = true := isIdentStart_iff.mpr hstart
    refine ⟨c, tail, rfl, hc, List.forall_mem_cons.mpr ⟨isIdentRest_of_isIdentStart hc, ?_⟩⟩
    intro d hd
    exact isIdentRest_iff.mpr (htail d hd)

/-- No token starts with a gap. -/
theorem dropGap_spelling {kind : TokenKind} (hkind : kind.Writable) (p : Position)
    (rest : List Char) :
    dropGap false p (kind.spelling ++ rest) = ⟨p, kind.spelling ++ rest⟩ := by
  cases kind with
  | eof => exact hkind.elim
  | ident name =>
    obtain ⟨c, tail, hcs, hstart, -⟩ := spelling_of_identifier hkind
    have hrest : isIdentRest c = true := isIdentRest_of_isIdentStart hstart
    rw [TokenKind.spelling, hcs, List.cons_append]
    apply dropGap_stop
    · rw [Bool.eq_false_iff]
      intro hblank
      rw [isIdentRest_of_isBlank hblank] at hrest
      cases hrest
    · rintro ⟨rfl, -⟩
      exact absurd hstart (by decide)
  | _ =>
    apply dropGap_stop
    · decide
    · rintro ⟨hmark, -⟩
      exact absurd hmark (by decide)

/-- The longest run of identifier characters is the identifier. -/
theorem takeWhile_identifier {name : String} (h : Identifier name.toList) {rest : List Char}
    (hend : ¬ ContinuesIdent rest) :
    (name.toList ++ rest).takeWhile isIdentRest = name.toList := by
  obtain ⟨c, tail, hcs, -, hall⟩ := spelling_of_identifier h
  have hstop : rest.takeWhile isIdentRest = [] := by
    cases rest with
    | nil => rfl
    | cons d more =>
      rw [continuesIdent_cons_iff, Bool.not_eq_true] at hend
      rw [List.takeWhile_cons, hend]
      rfl
  rw [hcs, List.takeWhile_append_of_pos hall, hstop, List.append_nil]

/-- **A step takes a gap and the token behind it**, if what follows is no part of that
token. -/
theorem next_word {gap rest : List Char} {kind : TokenKind} (hgap : Gap gap)
    (hkind : kind.Writable) (hend : kind.isIdent = true → ¬ ContinuesIdent rest) (p : Position) :
    (⟨p, gap ++ (kind.spelling ++ rest)⟩ : Cursor).next =
      .ok (⟨kind, p.advanceAll gap⟩, ⟨p.advanceAll (gap ++ kind.spelling), rest⟩) := by
  have hskip : (⟨p, gap ++ (kind.spelling ++ rest)⟩ : Cursor).skipGap =
      ⟨p.advanceAll gap, kind.spelling ++ rest⟩ := by
    rw [skipGap, dropGap_gap hgap, dropGap_spelling hkind]
  rw [next, hskip, Position.advanceAll_append]
  cases kind with
  | eof => exact hkind.elim
  | ident name =>
    have hrun := takeWhile_identifier hkind (hend rfl)
    obtain ⟨c, tail, hcs, hstart, -⟩ := spelling_of_identifier hkind
    simp only [TokenKind.spelling, hrun, drop, List.take_left, List.drop_left,
      String.ofList_toList]
    simp only [hcs, List.cons_append, hstart, if_true]
  | _ => rfl

theorem next_finalGap {gap : List Char} (h : FinalGap gap) (p : Position) :
    (⟨p, gap⟩ : Cursor).next = .ok (⟨.eof, p.advanceAll gap⟩, ⟨p.advanceAll gap, []⟩) := by
  rw [next, skipGap, dropGap_finalGap h]

theorem next_stray {gap rest : List Char} {ch : Char} (hgap : Gap gap)
    (hstray : StartsNothing ch rest) (p : Position) :
    (⟨p, gap ++ ch :: rest⟩ : Cursor).next = .error ⟨ch, p.advanceAll gap⟩ := by
  have hident : ¬ isIdentStart ch = true := fun h => hstray.not_ident (isIdentStart_iff.mp h)
  have hmark : TokenKind.ofMark? ch = none := ofMark?_eq_none_iff.mpr hstray.not_mark
  rw [next, skipGap, dropGap_gap hgap, dropGap_stop hstray.not_blank hstray.not_comment]
  simp only [hident, hmark]
  rfl

/-! ## Runs -/

theorem tokens_of_error {c : Cursor} {fault : LexError} (h : c.next = .error fault) :
    c.tokens = .error fault := by
  rw [tokens]
  split
  · next e he =>
    rw [h] at he
    cases he
    rfl
  · next token after hok =>
    rw [h] at hok
    cases hok

theorem tokens_of_end {c after : Cursor} {position : Position}
    (h : c.next = .ok (⟨.eof, position⟩, after)) : c.tokens = .ok [⟨.eof, position⟩] := by
  rw [tokens]
  split
  · next e he =>
    rw [h] at he
    cases he
  · next token after' hok =>
    rw [h] at hok
    cases hok
    rfl

theorem tokens_of_token {c after : Cursor} {token : Token} (h : c.next = .ok (token, after))
    (hkind : token.kind ≠ .eof) : c.tokens = after.tokens.map (token :: ·) := by
  rw [tokens]
  split
  · next e he =>
    rw [h] at he
    cases he
  · next token' after' hok =>
    rw [h] at hok
    cases hok
    rw [dif_neg hkind]
    cases after.tokens <;> rfl

/-- **A run over a writing gives its kinds, and goes on at its tail.** Nothing that stands
behind an identifier may continue it. -/
theorem tokens_words {tail : Bool → List Char → Prop} {after : List Char}
    (htail : ∀ cs, tail true cs → ¬ ContinuesIdent (cs ++ after)) {glued : Bool}
    {kinds : List TokenKind} {cs : List Char} (h : Words tail glued kinds cs) (p : Position) :
    ∃ front left ends found, cs = front ++ left ∧ tail ends left ∧ found.map Token.kind = kinds ∧
      (⟨p, cs ++ after⟩ : Cursor).tokens =
        (⟨p.advanceAll front, left ++ after⟩ : Cursor).tokens.map (found ++ ·) := by
  induction h generalizing p with
  | @tail glued cs h =>
    refine ⟨[], cs, glued, [], rfl, h, rfl, ?_⟩
    rw [Position.advanceAll_nil]
    cases (⟨p, cs ++ after⟩ : Cursor).tokens <;> rfl
  | @word glued gap rest kind kinds hgap hkind hsep hrest ih =>
    obtain ⟨front, left, ends, found, rfl, hends, hfound, hrun⟩ :=
      ih (p.advanceAll (gap ++ kind.spelling))
    -- one step takes the gap and the word, and the induction takes the rest
    have hend : kind.isIdent = true → ¬ ContinuesIdent (front ++ left ++ after) :=
      hrest.not_continuesIdent htail
    have hnext := next_word hgap hkind hend p
    have hkind' : kind ≠ .eof := by
      rintro rfl
      exact hkind.elim
    refine ⟨gap ++ (kind.spelling ++ front), left, ends, ⟨kind, p.advanceAll gap⟩ :: found,
      by simp only [List.append_assoc], hends, by rw [List.map_cons, hfound], ?_⟩
    rw [List.append_assoc, List.append_assoc, tokens_of_token hnext hkind', hrun]
    simp only [Position.advanceAll_append]
    cases (Cursor.tokens _) <;> rfl

/-- A writing to the end gives its kinds and the end. -/
theorem tokens_of_words {glued : Bool} {kinds : List TokenKind} {cs : List Char}
    (h : Words (fun _ => FinalGap) glued kinds cs) (p : Position) :
    ∃ found, (⟨p, cs⟩ : Cursor).tokens = .ok found ∧ found.map Token.kind = kinds ++ [.eof] := by
  have htail : ∀ cs, FinalGap cs → ¬ ContinuesIdent (cs ++ []) := by
    intro cs hfinal
    rw [List.append_nil]
    exact hfinal.not_continuesIdent
  obtain ⟨front, left, _, found, -, hfinal, hkinds, hrun⟩ := tokens_words htail h p
  rw [List.append_nil, List.append_nil,
    tokens_of_end (next_finalGap hfinal (p.advanceAll front))] at hrun
  refine ⟨_, hrun, ?_⟩
  rw [List.map_append, hkinds]
  rfl

/-- A stray character gives the error at its position. -/
theorem tokens_of_stuck {front rest : List Char} {ch : Char} (h : StuckAt front ch rest)
    (p : Position) :
    (⟨p, front ++ ch :: rest⟩ : Cursor).tokens = .error ⟨ch, p.advanceAll front⟩ := by
  obtain ⟨⟨kinds, hwords⟩, hstray⟩ := h
  have htail : ∀ cs, GapBefore ch true cs → ¬ ContinuesIdent (cs ++ ch :: rest) := by
    rintro cs ⟨hgap, hsep⟩
    by_cases hne : cs = []
    · rw [hne, List.nil_append, continuesIdent_cons_iff, hsep rfl hne]
      exact Bool.false_ne_true
    · exact hgap.not_continuesIdent hne _
  obtain ⟨written, left, _, found, rfl, hleft, -, hrun⟩ := tokens_words htail hwords p
  rw [tokens_of_error (next_stray hleft.1 hstray (p.advanceAll written))] at hrun
  rw [hrun, Position.advanceAll_append]
  rfl

end Cursor

/-! ## The exact lexer -/

/-- Positions only move on: down, or to the right on the same line. -/
theorem Position.advanceAll_moves (p : Position) (cs : List Char) :
    p.line ≤ (p.advanceAll cs).line ∧
      ((p.advanceAll cs).line = p.line → (p.advanceAll cs).column = p.column + cs.length) := by
  induction cs generalizing p with
  | nil => exact ⟨Nat.le_refl _, fun _ => rfl⟩
  | cons c cs ih =>
    obtain ⟨hline, hcolumn⟩ := ih (p.advance c)
    rw [Position.advanceAll_cons, List.length_cons]
    by_cases hnewline : c = '\n'
    · have hadvance : p.advance c = ⟨p.line + 1, 1⟩ := if_pos hnewline
      rw [hadvance] at hline hcolumn ⊢
      have hdown : p.line + 1 ≤ ((⟨p.line + 1, 1⟩ : Position).advanceAll cs).line := hline
      constructor
      · omega
      · intro hsame
        omega
    · have hadvance : p.advance c = ⟨p.line, p.column + 1⟩ := if_neg hnewline
      rw [hadvance] at hline hcolumn ⊢
      refine ⟨hline, ?_⟩
      intro hsame
      have hright := hcolumn hsame
      simp only at hright
      omega

theorem Position.eq_nil_of_advanceAll_eq {p : Position} {cs : List Char}
    (h : p.advanceAll cs = p) : cs = [] := by
  have hcolumn := (p.advanceAll_moves cs).2 (by rw [h])
  rw [h] at hcolumn
  exact List.eq_nil_of_length_eq_zero (by omega)

/-- **A source gets stuck at one place at most**, which is therefore the first. -/
theorem stuckAt_unique {front rest front' rest' : List Char} {ch ch' : Char}
    (hsame : front ++ ch :: rest = front' ++ ch' :: rest') (h : StuckAt front ch rest)
    (h' : StuckAt front' ch' rest') : front = front' := by
  -- the lexer reports one position, and positions tell the places of a text apart
  have hrun := Cursor.tokens_of_stuck h Position.start
  rw [hsame, Cursor.tokens_of_stuck h' Position.start] at hrun
  simp only [Except.error.injEq, LexError.mk.injEq] at hrun
  rcases List.append_eq_append_iff.mp hsame with ⟨more, rfl, -⟩ | ⟨more, rfl, -⟩
  · rw [Position.advanceAll_append] at hrun
    rw [Position.eq_nil_of_advanceAll_eq hrun.2, List.append_nil]
  · rw [Position.advanceAll_append] at hrun
    rw [Position.eq_nil_of_advanceAll_eq hrun.2.symm, List.append_nil]

/-- **The lexer is exact.** It returns a list of kinds, and the end behind them, exactly when
the source writes these kinds. It reports a character at a position exactly when the source
is written up to there and the writing cannot go on with that character. A source is stuck
at one place at most, and it is stuck exactly when it writes no list of kinds. -/
theorem tokenize_exact (source : String) :
    (∀ kinds, (∃ tokens, tokenize source = .ok tokens ∧
        tokens.map Token.kind = kinds ++ [.eof]) ↔ Renders kinds source.toList) ∧
    (∀ ch position, tokenize source = .error ⟨ch, position⟩ ↔
      ∃ front rest, source.toList = front ++ ch :: rest ∧ StuckAt front ch rest ∧
        position = Position.start.advanceAll front ∧
        ∀ front' ch' rest', source.toList = front' ++ ch' :: rest' → StuckAt front' ch' rest' →
          front.length ≤ front'.length) ∧
    ((∃ fault, tokenize source = .error fault) ↔ ¬ ∃ kinds, Renders kinds source.toList) := by
  have hok : ∀ kinds, Renders kinds source.toList → ∃ tokens, tokenize source = .ok tokens ∧
      tokens.map Token.kind = kinds ++ [.eof] :=
    fun kinds h => Cursor.tokens_of_words h Position.start
  have herror : ∀ front ch rest, source.toList = front ++ ch :: rest → StuckAt front ch rest →
      tokenize source = .error ⟨ch, Position.start.advanceAll front⟩ := by
    intro front ch rest hsource hstuck
    rw [tokenize, Cursor.ofSource, hsource]
    exact Cursor.tokens_of_stuck hstuck Position.start
  -- one of the two always holds, so each answer of the lexer belongs to its own case
  have hcases : (∃ kinds, Renders kinds source.toList) ∨
      ∃ front ch rest, source.toList = front ++ ch :: rest ∧ StuckAt front ch rest := by
    rcases writtenOrStuck source.toList false (fun h => absurd h Bool.false_ne_true) with
      hwritten | ⟨front, ch, rest, kinds, hsource, hwords, hstray⟩
    · exact Or.inl hwritten
    · exact Or.inr ⟨front, ch, rest, hsource, ⟨kinds, hwords⟩, hstray⟩
  refine ⟨?_, ?_, ?_⟩
  · intro kinds
    refine ⟨?_, hok kinds⟩
    rintro ⟨tokens, htokens, hkinds⟩
    rcases hcases with ⟨found, hfound⟩ | ⟨front, ch, rest, hsource, hstuck⟩
    · obtain ⟨tokens', htokens', hkinds'⟩ := hok found hfound
      rw [htokens] at htokens'
      cases htokens'
      rw [hkinds] at hkinds'
      rwa [List.append_cancel_right hkinds']
    · rw [herror front ch rest hsource hstuck] at htokens
      cases htokens
  · intro ch position
    constructor
    · intro hfault
      rcases hcases with ⟨kinds, hkinds⟩ | ⟨front, ch', rest, hsource, hstuck⟩
      · obtain ⟨tokens, htokens, -⟩ := hok kinds hkinds
        rw [hfault] at htokens
        cases htokens
      · rw [herror front ch' rest hsource hstuck] at hfault
        cases hfault
        refine ⟨front, rest, hsource, hstuck, rfl, ?_⟩
        intro front' ch' rest' hsource' hstuck'
        have hplace := stuckAt_unique (hsource.symm.trans hsource') hstuck hstuck'
        exact Nat.le_of_eq (congrArg List.length hplace)
    · rintro ⟨front, rest, hsource, hstuck, rfl, -⟩
      exact herror front ch rest hsource hstuck
  · constructor
    · rintro ⟨fault, hfault⟩ ⟨kinds, hkinds⟩
      obtain ⟨tokens, htokens, -⟩ := hok kinds hkinds
      rw [hfault] at htokens
      cases htokens
    · intro hnone
      rcases hcases with hsome | ⟨front, ch, rest, hsource, hstuck⟩
      · exact absurd hsome hnone
      · exact ⟨_, herror front ch rest hsource hstuck⟩

end ReaderGen.Notation
