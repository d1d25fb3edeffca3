import ReaderGen.Proofs.Notation.Tokens
import ReaderGen.Text

/-!
# ReaderGen.Proofs.Notation.GapLoops -- the loops over a gap are left

`Cursor.skipGap` drops a gap by recursion on its characters. Here the gap is skipped by two loops,
one inside the other: the outer loop takes blanks, and the inner one takes a comment up to the
newline behind it. **The rounds that enter and leave a comment take no character**, so it is not
plain that the loops end. To see whether a comment starts, the outer loop cuts the source at an
offset in octets, which is carried along with the cursor and must not fall inside a character.

`Turn` says what a round can do. Each turn lowers a weight and keeps the offset in step with the
cursor, so the loops are left, at the cursor of `skipGap`, within three rounds for each character
of the gap (`leaves_skipGap`).
-/

namespace ReaderGen.Notation

open Text

/-! ## Where a gap ends -/

/-- From one cursor to another over a gap: to the end of the source, or up to a character that
starts neither a blank nor a comment. -/
inductive Cursor.Skips : Cursor → Cursor → Prop
  | finish {p : Position} {gap : List Char} : FinalGap gap →
      Cursor.Skips ⟨p, gap⟩ ⟨p.advanceAll gap, []⟩
  | stop {p : Position} {gap rest : List Char} {ch : Char} : Gap gap → isBlank ch = false →
      ¬ (ch = '-' ∧ ∃ after, rest = '-' :: after) →
      Cursor.Skips ⟨p, gap ++ ch :: rest⟩ ⟨p.advanceAll gap, ch :: rest⟩

/-- **The gap in front of a cursor is skipped as a whole.** -/
theorem Cursor.skips_skipGap (c : Cursor) : c.Skips c.skipGap := by
  obtain ⟨p, cs⟩ := c
  rcases gapEnds cs with hfinal | ⟨gap, ch, rest, rfl, hgap, hblank, hcomment⟩
  · rw [skipGap, dropGap_finalGap hfinal]
    exact .finish hfinal
  · rw [skipGap, dropGap_gap hgap, dropGap_stop hblank hcomment]
    exact .stop hgap hblank hcomment

/-! ## The loops -/

/-- The characters from an octet on; nothing if it lies inside a character or behind the end. -/
def textFrom? : Nat → List Char → Option (List Char)
  | 0, cs => some cs
  | _ + 1, [] => none
  | octets + 1, c :: cs =>
    if c.utf8Size ≤ octets + 1 then textFrom? (octets + 1 - c.utf8Size) cs else none

/-- Behind whole characters the source can be cut. -/
theorem textFrom?_width (front rest : List Char) :
    textFrom? (width front) (front ++ rest) = some rest := by
  induction front with
  | nil => rw [width_nil, List.nil_append, textFrom?]
  | cons c front ih =>
    obtain ⟨octets, hoctets⟩ := Nat.exists_eq_add_one.mpr c.utf8Size_pos
    have hwidth : width (c :: front) = octets + width front + 1 := by
      rw [width_cons, hoctets]
      omega
    have hfits : c.utf8Size ≤ octets + width front + 1 := by omega
    have hleft : octets + width front + 1 - c.utf8Size = width front := by omega
    rw [hwidth, List.cons_append, textFrom?, if_pos hfits, hleft, ih]

/-- A gap being skipped: whether the inner loop is running, the octets in front of the cursor, and
the cursor. -/
structure GapLoop where
  inComment : Bool
  offset : Nat
  cursor : Cursor
  deriving DecidableEq, Repr

namespace GapLoop

/-- How a round of the loops ends. `torn` is a cut inside a character. -/
inductive Outcome where
  | onward (next : GapLoop)
  | left
  | torn
  deriving DecidableEq, Repr

/-- A comment ends before a newline and at the end of the source. -/
def endsComment : List Char → Bool
  | [] => true
  | c :: _ => c = '\n'

/-- Takes the next character. -/
def bump (s : GapLoop) : GapLoop :=
  match s.cursor.rest with
  | [] => s
  | c :: rest =>
    { s with offset := s.offset + c.utf8Size, cursor := ⟨s.cursor.position.advance c, rest⟩ }

/-- One round: of the inner loop while it is running, else of the outer loop. -/
def round (source : List Char) (s : GapLoop) : Outcome :=
  if s.inComment then
    if endsComment s.cursor.rest then .onward { s with inComment := false } else .onward s.bump
  else
    match s.cursor.rest.head? with
    | none => .left
    | some c =>
      if isBlank c then .onward s.bump
      else if c = '-' then
        match textFrom? s.offset source with
        | none => .torn
        | some text =>
          if ['-', '-'].isPrefixOf text then .onward { s with inComment := true } else .left
      else .left

/-- The loops are left after some rounds, none of them torn. -/
inductive Leaves (source : List Char) : GapLoop → Nat → GapLoop → Prop
  | left {s : GapLoop} : s.round source = .left → Leaves source s 0 s
  | onward {s next last : GapLoop} {rounds : Nat} : s.round source = .onward next →
      Leaves source next rounds last → Leaves source s (rounds + 1) last

/-! ## One round -/

/-- What a round does: it takes a blank, enters a comment, takes a character of the comment, or
leaves the comment. -/
inductive Turn : GapLoop → GapLoop → Prop
  | blank {offset : Nat} {p : Position} {c : Char} {rest : List Char} : isBlank c = true →
      Turn ⟨false, offset, p, c :: rest⟩ ⟨false, offset + c.utf8Size, p.advance c, rest⟩
  | enter {offset : Nat} {p : Position} {rest : List Char} :
      Turn ⟨false, offset, p, '-' :: '-' :: rest⟩ ⟨true, offset, p, '-' :: '-' :: rest⟩
  | text {offset : Nat} {p : Position} {c : Char} {rest : List Char} : c ≠ '\n' →
      Turn ⟨true, offset, p, c :: rest⟩ ⟨true, offset + c.utf8Size, p.advance c, rest⟩
  | leave {offset : Nat} {p : Position} {cs : List Char} : endsComment cs = true →
      Turn ⟨true, offset, p, cs⟩ ⟨false, offset, p, cs⟩

/-- The offset counts the octets in front of the cursor. -/
def InStep (source : List Char) (s : GapLoop) : Prop :=
  ∃ front, source = front ++ s.cursor.rest ∧ s.offset = width front

/-- The cursor behind the gap, or behind the rest of it inside a comment. -/
def target (s : GapLoop) : Cursor :=
  Cursor.dropGap s.inComment s.cursor.position s.cursor.rest

/-- A character weighs more than the two turns that take none: a comment is entered in front of a
hyphen, which it takes, and left in front of a newline or the end, where none starts. -/
def weight (s : GapLoop) : Nat :=
  3 * s.cursor.rest.length +
    if s.inComment then (if endsComment s.cursor.rest then 2 else 0) else 1

section

variable {source : List Char} {s next : GapLoop}

/-- A character that is taken stands in front of the cursor from then on. -/
theorem InStep.take {inComment : Bool} {offset : Nat} {p : Position} {c : Char} {rest : List Char}
    (h : InStep source ⟨inComment, offset, p, c :: rest⟩) :
    InStep source ⟨inComment, offset + c.utf8Size, p.advance c, rest⟩ := by
  obtain ⟨front, hsource, hoffset⟩ := h
  refine ⟨front ++ [c], ?_, ?_⟩
  · rw [List.append_assoc]
    exact hsource
  · rw [width_append, width_cons, width_nil, Nat.add_zero, ← hoffset]

theorem Turn.inStep (h : Turn s next) (hstep : s.InStep source) : next.InStep source := by
  cases h with
  | blank _ => exact hstep.take
  | enter => exact hstep
  | text _ => exact hstep.take
  | leave _ => exact hstep

theorem Turn.weight_lt (h : Turn s next) : next.weight < s.weight := by
  cases h with
  | blank _ =>
    simp only [weight, List.length_cons, Bool.false_eq_true, if_false]
    omega
  | enter => simp [weight, endsComment]
  | @text offset p c rest hc =>
    have hopen : endsComment (c :: rest) = false := decide_eq_false hc
    simp only [weight, List.length_cons, hopen, Bool.false_eq_true, if_true, if_false]
    split <;> omega
  | leave hends => simp [weight, hends]

theorem Turn.target_eq (h : Turn s next) : next.target = s.target := by
  cases h with
  | blank hblank => simp [target, Cursor.dropGap, hblank]
  | enter => simp [target, Cursor.dropGap, isBlank_hyphen]
  | text hc => simp [target, Cursor.dropGap, hc]
  | @leave offset p cs hends =>
    cases cs with
    | nil => rfl
    | cons c rest =>
      have hc : c = '\n' := of_decide_eq_true hends
      simp [target, Cursor.dropGap, hc, isBlank_newline]

/-- The inner loop goes on until it leaves the comment. -/
theorem round_inComment (source : List Char) (offset : Nat) (p : Position) (cs : List Char) :
    ∃ next, round source ⟨true, offset, p, cs⟩ = .onward next ∧
      Turn ⟨true, offset, p, cs⟩ next := by
  by_cases hends : endsComment cs = true
  · refine ⟨⟨false, offset, p, cs⟩, ?_, .leave hends⟩
    simp [round, hends]
  · cases cs with
    | nil => exact absurd rfl hends
    | cons c rest =>
      have hc : c ≠ '\n' := of_decide_eq_false (Bool.eq_false_iff.mpr hends)
      refine ⟨⟨true, offset + c.utf8Size, p.advance c, rest⟩, ?_, .text hc⟩
      simp [round, hends, bump]

/-- The cut in front of a hyphen shows whether a second one follows. -/
theorem round_hyphen (front rest : List Char) (p : Position) :
    round (front ++ '-' :: rest) ⟨false, width front, p, '-' :: rest⟩ =
      if rest.head? = some '-' then .onward ⟨true, width front, p, '-' :: rest⟩ else .left := by
  cases rest with
  | nil => simp [round, isBlank_hyphen, textFrom?_width]
  | cons d after =>
    have hprefix : ['-', '-'].isPrefixOf ('-' :: d :: after) = ('-' == d) := by
      simp [List.isPrefixOf]
    simp only [round, isBlank_hyphen, textFrom?_width, hprefix, List.head?_cons, Option.some.injEq,
      Bool.false_eq_true, if_false, if_true, beq_iff_eq, @eq_comm _ d]

/-- The outer loop takes a turn, or it is left where no gap starts. -/
theorem round_outside (front cs : List Char) (p : Position) :
    (∃ next, round (front ++ cs) ⟨false, width front, p, cs⟩ = .onward next ∧
        Turn ⟨false, width front, p, cs⟩ next) ∨
      round (front ++ cs) ⟨false, width front, p, cs⟩ = .left ∧
        Cursor.dropGap false p cs = ⟨p, cs⟩ := by
  cases cs with
  | nil => exact Or.inr ⟨rfl, rfl⟩
  | cons c rest =>
    by_cases hblank : isBlank c = true
    · refine Or.inl ⟨⟨false, width front + c.utf8Size, p.advance c, rest⟩, ?_, .blank hblank⟩
      simp [round, hblank, bump]
    by_cases hcomment : c = '-' ∧ ∃ after, rest = '-' :: after
    · obtain ⟨rfl, after, rfl⟩ := hcomment
      exact Or.inl ⟨_, round_hyphen front ('-' :: after) p, .enter⟩
    rw [Bool.not_eq_true] at hblank
    refine Or.inr ⟨?_, Cursor.dropGap_stop hblank hcomment p⟩
    by_cases hhyphen : c = '-'
    · subst hhyphen
      rw [round_hyphen, if_neg]
      exact fun hnext => hcomment ⟨rfl, List.head?_eq_some_iff.mp hnext⟩
    · simp [round, hblank, hhyphen]

/-- **A round takes a turn, or the loops are left behind the gap.** -/
theorem round_cases (h : s.InStep source) :
    (∃ next, s.round source = .onward next ∧ Turn s next) ∨
      s.round source = .left ∧ s.inComment = false ∧ s.target = s.cursor := by
  obtain ⟨inComment, offset, p, cs⟩ := s
  obtain ⟨front, rfl, rfl⟩ := h
  cases inComment with
  | true => exact Or.inl (round_inComment ..)
  | false => exact (round_outside front cs p).imp_right fun ⟨hround, hdrop⟩ => ⟨hround, rfl, hdrop⟩

/-! ## A whole run -/

/-- The loops are left behind the gap, and every round has lowered the weight. -/
theorem exists_leaves (h : s.InStep source) :
    ∃ rounds last, Leaves source s rounds last ∧ last.inComment = false ∧
      last.cursor = s.target ∧ last.InStep source ∧ rounds + last.weight ≤ s.weight := by
  induction hweight : s.weight using Nat.strongRecOn generalizing s with
  | ind n ih =>
    rcases round_cases h with ⟨next, hround, hturn⟩ | ⟨hround, hleft, htarget⟩
    · have hlower : next.weight < n := hweight ▸ hturn.weight_lt
      obtain ⟨rounds, last, hleaves, hleft, hlast, hstep, hbound⟩ :=
        ih next.weight hlower (hturn.inStep h) rfl
      refine ⟨rounds + 1, last, .onward hround hleaves, hleft, ?_, hstep, ?_⟩
      · rw [hlast, hturn.target_eq]
      · omega
    · exact ⟨0, s, .left hround, hleft, htarget.symm, h, by omega⟩

end

/-- **The loops over a gap are left at the cursor of `skipGap`**, within three rounds for each
character of the gap, and the offset is still the one of the cursor. -/
theorem leaves_skipGap (front : List Char) (c : Cursor) :
    ∃ rounds offset, Leaves (front ++ c.rest) ⟨false, width front, c⟩ rounds
        ⟨false, offset, c.skipGap⟩ ∧
      InStep (front ++ c.rest) ⟨false, offset, c.skipGap⟩ ∧
      rounds + 3 * c.skipGap.rest.length ≤ 3 * c.rest.length := by
  have hstart : InStep (front ++ c.rest) ⟨false, width front, c⟩ := ⟨front, rfl, rfl⟩
  obtain ⟨rounds, ⟨inComment, offset, cursor⟩, hleaves, rfl, rfl, hstep, hbound⟩ :=
    exists_leaves hstart
  refine ⟨rounds, offset, hleaves, hstep, ?_⟩
  simp only [weight, Bool.false_eq_true, if_false] at hbound
  have hrest : rounds + 3 * c.skipGap.rest.length + 1 ≤ 3 * c.rest.length + 1 := hbound
  omega

end GapLoop

end ReaderGen.Notation
