import ReaderGen.Notation.Token
import ReaderGen.Text

/-!
# ReaderGen.Proofs.Notation.Rendering -- the sources that write a list of tokens

A source is a gap, a token, a gap, a token and so on, with a gap at the end. This module
says so without a lexer:

* a gap is a run of blanks and comments, and a comment takes the newline that ends it
  (`Gap`); only the last gap may end inside a comment (`FinalGap`);
* a token is written with its own characters, and **between two identifiers stands at
  least one character of gap** (`Words`).

A source that writes no list of tokens has a place where the writing cannot go on
(`StuckAt`). **Every text is one or the other** (`renders_or_stuck`); that it is never both
is the business of `ReaderGen.Proofs.Notation.Tokens`.
-/

namespace ReaderGen.Notation

open Text

/-! ## Identifiers and marks -/

/-- An ASCII letter. -/
def IsLetter (c : Char) : Prop := ('A' ≤ c ∧ c ≤ 'Z') ∨ ('a' ≤ c ∧ c ≤ 'z')

/-- An ASCII digit. -/
def IsDigit (c : Char) : Prop := '0' ≤ c ∧ c ≤ '9'

/-- A letter or an underscore, and then letters, digits and underscores. -/
inductive Identifier : List Char → Prop
  | intro {c : Char} {rest : List Char} : IsLetter c ∨ c = '_' →
      (∀ d ∈ rest, IsLetter d ∨ IsDigit d ∨ d = '_') → Identifier (c :: rest)

theorem Identifier.ne_nil {cs : List Char} (h : Identifier cs) : cs ≠ [] := by
  cases h
  exact List.cons_ne_nil _ _

/-- The characters that are tokens by themselves. -/
def markCharacters : List Char := ['=', '|', '(', ')', '{', '}', ',', '*', '?']

/-- The kinds that a source can write; the end is not one of them. -/
def TokenKind.Writable : TokenKind → Prop
  | .ident name => Identifier name.toList
  | .eof => False
  | _ => True

/-- Whether the kind is an identifier. -/
def TokenKind.isIdent : TokenKind → Bool
  | .ident _ => true
  | _ => false

theorem isAlpha_iff {c : Char} : c.isAlpha = true ↔ IsLetter c := by
  have hranges : c.isAlpha = (decide (c.val ≥ 'A'.val ∧ c.val ≤ 'Z'.val) ||
      (decide (c.val ≥ 'a'.val) && decide (c.val ≤ 'z'.val))) := rfl
  simp only [hranges, IsLetter, Bool.or_eq_true, Bool.and_eq_true, decide_eq_true_eq,
    Char.le_def, ge_iff_le]

theorem isIdentStart_iff {c : Char} : isIdentStart c = true ↔ IsLetter c ∨ c = '_' := by
  simp only [isIdentStart, isAlpha_iff, Bool.or_eq_true, decide_eq_true_eq]

theorem isIdentRest_iff {c : Char} :
    isIdentRest c = true ↔ IsLetter c ∨ IsDigit c ∨ c = '_' := by
  simp only [isIdentRest, Char.isAlphanum, isAlpha_iff, Char.isDigit, IsDigit, Bool.or_eq_true,
    Bool.and_eq_true, decide_eq_true_eq, Char.le_def, ge_iff_le, or_assoc]

theorem ofMark?_eq_none_iff {c : Char} :
    TokenKind.ofMark? c = none ↔ c ∉ markCharacters := by
  unfold TokenKind.ofMark? markCharacters
  split <;> simp_all

/-! ## Gaps -/

/-- Blanks and comments, each comment with the newline that ends it. -/
inductive Gap : List Char → Prop
  | nil : Gap []
  | blank {c : Char} {rest : List Char} : isBlank c = true → Gap rest → Gap (c :: rest)
  | comment {text rest : List Char} : '\n' ∉ text → Gap rest →
      Gap ('-' :: '-' :: (text ++ '\n' :: rest))

/-- The gap at the end of a source, where the last comment may lack its newline. -/
inductive FinalGap : List Char → Prop
  | closed {gap : List Char} : Gap gap → FinalGap gap
  | comment {gap text : List Char} : Gap gap → '\n' ∉ text → FinalGap (gap ++ '-' :: '-' :: text)

/-- The character in front would continue an identifier that ends before it. -/
def ContinuesIdent (cs : List Char) : Prop := ∃ c rest, cs = c :: rest ∧ isIdentRest c = true

theorem not_continuesIdent_nil : ¬ ContinuesIdent [] := by
  rintro ⟨c, rest, h, -⟩
  cases h

theorem continuesIdent_cons_iff {c : Char} {rest : List Char} :
    ContinuesIdent (c :: rest) ↔ isIdentRest c = true := by
  constructor
  · rintro ⟨_, _, h, hc⟩
    cases h
    exact hc
  · intro hc
    exact ⟨c, rest, rfl, hc⟩

/-- No blank belongs to an identifier. -/
theorem isIdentRest_of_isBlank {c : Char} (h : isBlank c = true) : isIdentRest c = false := by
  rw [Bool.eq_false_iff, ne_eq, isIdentRest_iff]
  intro hrest
  simp only [isBlank, Bool.or_eq_true, Bool.and_eq_true, decide_eq_true_eq] at h
  -- a blank stands below the digits or above the letters
  have hvalue : c.toNat = c.val.toNat := rfl
  rcases hrest with (⟨hlo, hhi⟩ | ⟨hlo, hhi⟩) | ⟨hlo, hhi⟩ | rfl
  · have hA : 65 ≤ c.val.toNat := hlo
    have hZ : c.val.toNat ≤ 90 := hhi
    omega
  · have ha : 97 ≤ c.val.toNat := hlo
    have hz : c.val.toNat ≤ 122 := hhi
    omega
  · have hzero : 48 ≤ c.val.toNat := hlo
    have hnine : c.val.toNat ≤ 57 := hhi
    omega
  · exact absurd h (by decide)

/-- Behind an identifier a gap shows that the identifier has ended. -/
theorem Gap.not_continuesIdent {gap : List Char} (h : Gap gap) (hne : gap ≠ [])
    (rest : List Char) : ¬ ContinuesIdent (gap ++ rest) := by
  cases h with
  | nil => exact absurd rfl hne
  | blank hblank _ =>
    rw [List.cons_append, continuesIdent_cons_iff, isIdentRest_of_isBlank hblank]
    exact Bool.false_ne_true
  | comment _ _ =>
    rw [List.cons_append, continuesIdent_cons_iff]
    decide

theorem FinalGap.not_continuesIdent {cs : List Char} (h : FinalGap cs) : ¬ ContinuesIdent cs := by
  cases h with
  | closed hgap =>
    by_cases hne : cs = []
    · rw [hne]
      exact not_continuesIdent_nil
    · have hnot := hgap.not_continuesIdent hne []
      rwa [List.append_nil] at hnot
  | @comment gap text hgap _ =>
    by_cases hne : gap = []
    · rw [hne, List.nil_append, continuesIdent_cons_iff]
      decide
    · exact hgap.not_continuesIdent hne _

/-! ## Writings -/

/-- These kinds are written one after the other, each behind a gap, and a `tail` follows.
Whether an identifier stands right before a part is carried along: there the next
identifier needs a gap of its own. -/
inductive Words (tail : Bool → List Char → Prop) : Bool → List TokenKind → List Char → Prop
  | tail {glued : Bool} {cs : List Char} : tail glued cs → Words tail glued [] cs
  | word {glued : Bool} {gap rest : List Char} {kind : TokenKind} {kinds : List TokenKind} :
      Gap gap → kind.Writable → (glued = true → kind.isIdent = true → gap ≠ []) →
      Words tail kind.isIdent kinds rest →
      Words tail glued (kind :: kinds) (gap ++ (kind.spelling ++ rest))

/-- The source writes exactly these kinds. -/
def Renders (kinds : List TokenKind) (source : List Char) : Prop :=
  Words (fun _ => FinalGap) false kinds source

/-- Neither a token nor a gap starts with `ch` when `rest` stands behind it. -/
structure StartsNothing (ch : Char) (rest : List Char) : Prop where
  not_blank : isBlank ch = false
  not_ident : ¬ (IsLetter ch ∨ ch = '_')
  not_mark : ch ∉ markCharacters
  not_comment : ¬ (ch = '-' ∧ ∃ after, rest = '-' :: after)

/-- The gap that a writing reaches `ch` with: `ch` does not belong to an identifier before. -/
def GapBefore (ch : Char) (glued : Bool) (gap : List Char) : Prop :=
  Gap gap ∧ (glued = true → gap = [] → isIdentRest ch = false)

/-- `front` writes some kinds, and the writing cannot go on with `ch`. -/
def StuckAt (front : List Char) (ch : Char) (rest : List Char) : Prop :=
  (∃ kinds, Words (GapBefore ch) false kinds front) ∧ StartsNothing ch rest

/-- What a tail does not continue, no part of a writing continues. -/
theorem Words.not_continuesIdent {tail : Bool → List Char → Prop} {after : List Char}
    (htail : ∀ cs, tail true cs → ¬ ContinuesIdent (cs ++ after)) {glued : Bool}
    {kinds : List TokenKind} {cs : List Char} (h : Words tail glued kinds cs)
    (hglued : glued = true) : ¬ ContinuesIdent (cs ++ after) := by
  cases h with
  | tail h =>
    rw [hglued] at h
    exact htail _ h
  | @word _ gap rest kind kinds hgap hkind hsep _ =>
    rw [List.append_assoc]
    by_cases hne : gap = []
    · -- without a gap the next token is a mark
      subst hne
      cases kind with
      | ident name => exact absurd rfl (hsep hglued rfl)
      | eof => exact hkind.elim
      | _ =>
        simp only [TokenKind.spelling, List.nil_append, List.cons_append, continuesIdent_cons_iff]
        decide
    · exact hgap.not_continuesIdent hne _

/-! ## Every text is written to its end or to a stray character -/

theorem Gap.append {gap more : List Char} (h : Gap gap) (hmore : Gap more) :
    Gap (gap ++ more) := by
  induction h with
  | nil => exact hmore
  | blank hblank _ ih => exact .blank hblank ih
  | comment htext _ ih =>
    simp only [List.cons_append, List.append_assoc]
    exact .comment htext ih

theorem Gap.append_final {gap more : List Char} (h : Gap gap) (hmore : FinalGap more) :
    FinalGap (gap ++ more) := by
  cases hmore with
  | closed hclosed => exact .closed (h.append hclosed)
  | comment hclosed htext =>
    rw [← List.append_assoc]
    exact .comment (h.append hclosed) htext

/-- A gap leads to the end or to a character that starts no gap. -/
def GapEnds (cs : List Char) : Prop :=
  FinalGap cs ∨ ∃ gap ch rest, cs = gap ++ ch :: rest ∧ Gap gap ∧ isBlank ch = false ∧
    ¬ (ch = '-' ∧ ∃ after, rest = '-' :: after)

theorem Gap.append_ends {gap more : List Char} (h : Gap gap) (hmore : GapEnds more) :
    GapEnds (gap ++ more) := by
  rcases hmore with hfinal | ⟨gap', ch, rest, rfl, hgap', hch⟩
  · exact Or.inl (h.append_final hfinal)
  · exact Or.inr ⟨gap ++ gap', ch, rest, (List.append_assoc ..).symm, h.append hgap', hch⟩

theorem gapEnds (cs : List Char) : GapEnds cs := by
  -- a comment is taken off as a whole, so the induction is on the length
  induction hlength : cs.length using Nat.strongRecOn generalizing cs with
  | ind n ih =>
    cases cs with
    | nil => exact Or.inl (.closed .nil)
    | cons c rest =>
      by_cases hblank : isBlank c = true
      · have hrest := ih rest.length (by rw [← hlength]; exact Nat.lt_succ_self _) rest rfl
        have hgap : Gap [c] := .blank hblank .nil
        exact hgap.append_ends hrest
      by_cases hcomment : c = '-' ∧ ∃ after, rest = '-' :: after
      · obtain ⟨rfl, after, rfl⟩ := hcomment
        by_cases hnewline : '\n' ∈ after
        · obtain ⟨text, below, rfl, htext⟩ := List.eq_append_cons_of_mem hnewline
          have hbelow := ih below.length (by
            rw [← hlength]
            simp only [List.length_cons, List.length_append]
            omega) below rfl
          have hgap : Gap ('-' :: '-' :: (text ++ ['\n'])) := .comment htext .nil
          simpa using hgap.append_ends hbelow
        · exact Or.inl (.comment .nil hnewline)
      · rw [Bool.not_eq_true] at hblank
        exact Or.inr ⟨[], c, rest, rfl, .nil, hblank, hcomment⟩

theorem exists_kind_of_mark {ch : Char} (h : ch ∈ markCharacters) :
    ∃ kind : TokenKind, kind.Writable ∧ kind.isIdent = false ∧ kind.spelling = [ch] := by
  cases hkind : TokenKind.ofMark? ch with
  | none => exact absurd h (ofMark?_eq_none_iff.mp hkind)
  | some kind =>
    obtain ⟨hspelling, hident⟩ := TokenKind.ofMark?_eq_some_iff.mp hkind
    refine ⟨kind, ?_, ?_, hspelling⟩
    · cases kind with
      | ident name => exact absurd rfl (hident name)
      | eof => cases hspelling
      | _ => exact trivial
    · cases kind with
      | ident name => exact absurd rfl (hident name)
      | _ => rfl

/-- The longest identifier in front of a text that starts with one. -/
theorem exists_identifier {ch : Char} (h : IsLetter ch ∨ ch = '_') (rest : List Char) :
    ∃ (name : String) (after : List Char), ch :: rest = name.toList ++ after ∧
      Identifier name.toList ∧ ¬ ContinuesIdent after := by
  refine ⟨String.ofList (ch :: rest.takeWhile isIdentRest), rest.dropWhile isIdentRest, ?_, ?_, ?_⟩
  · rw [String.toList_ofList, List.cons_append, List.takeWhile_append_dropWhile]
  · rw [String.toList_ofList]
    refine .intro h ?_
    intro d hd
    exact isIdentRest_iff.mp (List.all_eq_true.mp List.all_takeWhile d hd)
  · rintro ⟨c, more, hdrop, hc⟩
    have hhead := List.head?_dropWhile_not isIdentRest rest
    rw [hdrop] at hhead
    simp [hc] at hhead

/-- A text is written to its end, or up to a character that the writing cannot go on with. -/
def WrittenOrStuck (glued : Bool) (cs : List Char) : Prop :=
  (∃ kinds, Words (fun _ => FinalGap) glued kinds cs) ∨
    ∃ front ch rest kinds, cs = front ++ ch :: rest ∧ Words (GapBefore ch) glued kinds front ∧
      StartsNothing ch rest

theorem WrittenOrStuck.word {glued : Bool} {gap after : List Char} {kind : TokenKind}
    (hgap : Gap gap) (hkind : kind.Writable)
    (hsep : glued = true → kind.isIdent = true → gap ≠ [])
    (h : WrittenOrStuck kind.isIdent after) :
    WrittenOrStuck glued (gap ++ (kind.spelling ++ after)) := by
  rcases h with ⟨kinds, hkinds⟩ | ⟨front, ch, rest, kinds, rfl, hkinds, hstray⟩
  · exact Or.inl ⟨kind :: kinds, .word hgap hkind hsep hkinds⟩
  · refine Or.inr ⟨gap ++ (kind.spelling ++ front), ch, rest, kind :: kinds, ?_,
      .word hgap hkind hsep hkinds, hstray⟩
    simp only [List.append_assoc]

/-- **Every text is written to its end or gets stuck.** -/
theorem writtenOrStuck (cs : List Char) (glued : Bool)
    (hglued : glued = true → ¬ ContinuesIdent cs) : WrittenOrStuck glued cs := by
  induction hlength : cs.length using Nat.strongRecOn generalizing cs glued with
  | ind n ih =>
    rcases gapEnds cs with hfinal | ⟨gap, ch, rest, rfl, hgap, hblank, hcomment⟩
    · exact Or.inl ⟨[], .tail hfinal⟩
    have hseparate : glued = true → isIdentRest ch = true → gap ≠ [] := by
      rintro hg hrest rfl
      exact hglued hg (continuesIdent_cons_iff.mpr hrest)
    rw [List.length_append, List.length_cons] at hlength
    by_cases hident : IsLetter ch ∨ ch = '_'
    · obtain ⟨name, after, hsplit, hname, hend⟩ := exists_identifier hident rest
      have hstart : isIdentRest ch = true :=
        isIdentRest_of_isIdentStart (isIdentStart_iff.mpr hident)
      have hpositive : 0 < name.toList.length := List.length_pos_iff.mpr hname.ne_nil
      have hshorter : after.length < n := by
        have hlen := congrArg List.length hsplit
        rw [List.length_append, List.length_cons] at hlen
        omega
      rw [hsplit]
      -- the longest identifier is taken, so the text behind it cannot continue it
      have hname' : (TokenKind.ident name).Writable := hname
      have hafter := ih after.length hshorter after true (fun _ => hend) rfl
      show WrittenOrStuck glued (gap ++ ((TokenKind.ident name).spelling ++ after))
      exact .word hgap hname' (fun hg _ => hseparate hg hstart) hafter
    by_cases hmark : ch ∈ markCharacters
    · obtain ⟨kind, hkind, hnot, hspelling⟩ := exists_kind_of_mark hmark
      rw [show ch :: rest = kind.spelling ++ rest from by rw [hspelling]; rfl]
      refine .word hgap hkind ?_ ?_
      · rw [hnot]
        intro _ hfalse
        exact absurd hfalse Bool.false_ne_true
      · rw [hnot]
        exact ih rest.length (by omega) rest false (fun hfalse => absurd hfalse Bool.false_ne_true)
          rfl
    · -- no token and no gap starts here
      refine Or.inr ⟨gap, ch, rest, [], rfl, .tail ⟨hgap, ?_⟩, hblank, hident, hmark, hcomment⟩
      intro hg hnil
      exact Bool.eq_false_iff.mpr (fun hrest => hseparate hg hrest hnil)

end ReaderGen.Notation
