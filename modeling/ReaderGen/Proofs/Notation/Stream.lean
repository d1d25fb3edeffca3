import ReaderGen.Proofs.Notation.GapLoops
import ReaderGen.Proofs.Notation.Positions

/-!
# ReaderGen.Proofs.Notation.Stream -- one by one and all at once

A source can be lexed token by token (`TokenStream`) and as a whole (`tokenize`). Both are said here
by one `Reading` of the source: a run of tokens without the end, and one last item, which is the
end or a stray character. **The stream gives the run, then the last item once, and then nothing for
ever. The whole source gives the run with the end behind it, or the stray character alone**
(`stream_agrees_with_batch`).

The run is finite because each of its tokens takes a character, and each call comes back because
the loops over the gap in front of it are left.
-/

namespace ReaderGen.Notation

/-! ## Readings -/

/-- What a source is read as: tokens that are not the end, and a last item, which is the end or a
stray character. -/
structure Reading where
  run : List Token
  last : Except LexError Token
  run_ne_eof : ∀ token ∈ run, token.kind ≠ .eof
  last_eq_eof : ∀ token, last = .ok token → token.kind = .eof

namespace Reading

/-- The tokens of the run and the last item, in their order. -/
def items (r : Reading) : List (Except LexError Token) := r.run.map .ok ++ [r.last]

/-- The answers to the first `count` calls: the items, and nothing behind them. -/
def answers (r : Reading) (count : Nat) : List (Option (Except LexError Token)) :=
  (r.items.map some ++ List.replicate count none).take count

/-- The run with the end behind it, or the stray character alone. -/
def collected (r : Reading) : Except LexError (List Token) :=
  r.last.map fun token => r.run ++ [token]

/-- One token more in front. -/
def cons (token : Token) (h : token.kind ≠ .eof) (r : Reading) : Reading where
  run := token :: r.run
  last := r.last
  run_ne_eof := List.forall_mem_cons.mpr ⟨h, r.run_ne_eof⟩
  last_eq_eof := r.last_eq_eof

/-- No token but the end. -/
def finish (position : Position) : Reading where
  run := []
  last := .ok ⟨.eof, position⟩
  run_ne_eof := nofun
  last_eq_eof := by
    rintro _ ⟨⟩
    rfl

/-- No token in front of a stray character. -/
def stray (fault : LexError) : Reading where
  run := []
  last := .error fault
  run_ne_eof := nofun
  last_eq_eof := nofun

theorem mapM_run (run : List Token) (last : Except LexError Token) :
    (run.map Except.ok ++ [last]).mapM id = last.map fun token => run ++ [token] := by
  induction run with
  | nil => cases last <;> rfl
  | cons token run ih =>
    rw [List.map_cons, List.cons_append, List.mapM_cons, ih]
    cases last <;> rfl

/-- The items up to the first fault are what is collected. -/
theorem mapM_items (r : Reading) : r.items.mapM id = r.collected :=
  mapM_run r.run r.last

end Reading

/-! ## The reading of a source -/

/-- Fewer calls have the first of the answers. -/
theorem TokenStream.take_take (s : TokenStream) (count more : Nat) :
    (s.take (count + more)).take count = s.take count := by
  induction count generalizing s with
  | zero => rfl
  | succ count ih => rw [Nat.add_right_comm, take, take, List.take_succ_cons, ih]

/-- The answers of a text are the items of a reading, and its run has at most as many tokens as the
text has characters. -/
theorem Answers.exists_reading {front cs : List Char} {answers : List (Except LexError Token)}
    (h : Answers front cs answers) :
    ∃ r : Reading, r.items = answers ∧ r.run.length ≤ cs.length := by
  induction h with
  | @token front gap rest kind answers _ hkind _ _ ih =>
    obtain ⟨r, rfl, hlength⟩ := ih
    refine ⟨r.cons ⟨kind, .behind (front ++ gap)⟩ hkind.ne_eof, rfl, ?_⟩
    -- the token takes a character of its own, and the rest of the run what stands behind it
    have hspelling : 0 < kind.spelling.length := List.length_pos_iff.mpr hkind.spelling_ne_nil
    simp only [Reading.cons, List.length_cons, List.length_append]
    omega
  | finish _ => exact ⟨.finish _, rfl, Nat.zero_le _⟩
  | stray _ _ => exact ⟨.stray _, rfl, Nat.zero_le _⟩

/-- However often the stream is called, it answers as the reading does. -/
theorem Answers.take_eq_answers {front cs : List Char} {r : Reading}
    (h : Answers front cs r.items) (count : Nat) :
    (⟨Cursor.behind front cs, false⟩ : TokenStream).take count = r.answers count := by
  have hlong := h.take_eq count
  rw [Nat.add_comm] at hlong
  rw [Reading.answers, ← hlong, TokenStream.take_take]

/-- **The stream and the whole source agree, and the stream is fused.** Both follow one reading of
the source, which has at most as many tokens in its run as the source has characters. However often
the stream is called, it gives the run, then the last item, and then nothing; as a whole the source
gives the run with the end behind it, or the fault. In every text and from every place, the loops
over the gap are left, at the end or at a character that starts neither a blank nor a comment. -/
theorem stream_agrees_with_batch (source : String) :
    (∃ r : Reading, r.run.length ≤ source.length ∧
      (∀ count, (TokenStream.ofSource source).take count = r.answers count) ∧
      tokenize source = r.collected) ∧
    ∀ (front : List Char) (c : Cursor), c.Skips c.skipGap ∧
      ∃ rounds offset, GapLoop.Leaves (front ++ c.rest) ⟨false, Text.width front, c⟩ rounds
          ⟨false, offset, c.skipGap⟩ ∧
        GapLoop.InStep (front ++ c.rest) ⟨false, offset, c.skipGap⟩ ∧
        rounds + 3 * c.skipGap.rest.length ≤ 3 * c.rest.length := by
  constructor
  · obtain ⟨answers, hanswers⟩ := exists_answers source.toList
    obtain ⟨r, rfl, hlength⟩ := hanswers.exists_reading
    rw [String.length_toList] at hlength
    exact ⟨r, hlength, hanswers.take_eq_answers, hanswers.tokens_eq.trans r.mapM_items⟩
  · intro front c
    exact ⟨c.skips_skipGap, GapLoop.leaves_skipGap front c⟩

/-- A lone hyphen is given once as a fault. -/
example : (TokenStream.ofSource "a -").take 4 =
    [some (.ok ⟨.ident "a", ⟨1, 1⟩⟩), some (.error ⟨'-', ⟨1, 3⟩⟩), none, none] := by
  decide

end ReaderGen.Notation
