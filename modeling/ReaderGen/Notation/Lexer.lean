import ReaderGen.Notation.Token
import ReaderGen.Text
import ReaderGen.Text.Quoted

/-!
# ReaderGen.Notation.Lexer -- from characters to tokens

A source is a run of tokens with gaps between them. A gap is any mixture of blanks
and comments; a comment starts with two hyphens and ends before the next newline.
**A single hyphen starts nothing**, and the first character that starts no token and
no gap is an error at its own position.

The lexer reads the source one token at a time (`Cursor.next`). `tokenize` collects
the tokens up to and including the end; `TokenStream` hands them out one by one and
stays silent after the end or an error.
-/

namespace ReaderGen.Notation

open ReaderGen.Text

/-- A character that starts neither a token nor a gap. -/
structure LexError where
  ch : Char
  position : Position
  deriving DecidableEq, Repr

/-- The diagnostic for a stray character. -/
def LexError.message (e : LexError) : String :=
  "unexpected character " ++ quoteChar e.ch ++ " at " ++ e.position.text

/-- A place in the source together with the characters from there on. -/
structure Cursor where
  position : Position
  rest : List Char
  deriving DecidableEq, Repr

namespace Cursor

/-- The start of a source. -/
def ofSource (source : String) : Cursor := ⟨Position.start, source.toList⟩

/-- The cursor after its first `n` characters. -/
def drop (n : Nat) (c : Cursor) : Cursor :=
  ⟨c.position.advanceAll (c.rest.take n), c.rest.drop n⟩

/-! ## Gaps -/

/-- Drops the gap at the front of `cs`, or the rest of it when already inside a
comment. The newline that ends a comment is itself a blank. -/
def dropGap (inComment : Bool) (p : Position) : List Char → Cursor
  | [] => ⟨p, []⟩
  | c :: rest =>
    if inComment && c ≠ '\n' then dropGap true (p.advance c) rest
    else if isBlank c then dropGap false (p.advance c) rest
    else if c = '-' && rest.head? = some '-' then dropGap true (p.advance c) rest
    else ⟨p, c :: rest⟩

/-- The cursor behind the gap in front of it. -/
def skipGap (c : Cursor) : Cursor := dropGap false c.position c.rest

theorem dropGap_length_le (inComment : Bool) (p : Position) (cs : List Char) :
    (dropGap inComment p cs).rest.length ≤ cs.length := by
  fun_induction dropGap inComment p cs <;> simp_all <;> omega

theorem skipGap_length_le (c : Cursor) : c.skipGap.rest.length ≤ c.rest.length :=
  dropGap_length_le false c.position c.rest

/-! ## One token -/

/-- The next token and the cursor behind it. At the end of the source the token is
the end, and the cursor stays. -/
def next (c : Cursor) : Except LexError (Token × Cursor) :=
  let here := c.skipGap
  match here.rest with
  | [] => .ok (⟨.eof, here.position⟩, here)
  | ch :: _ =>
    if isIdentStart ch then
      let name := here.rest.takeWhile isIdentRest
      .ok (⟨.ident (String.ofList name), here.position⟩, here.drop name.length)
    else
      match TokenKind.ofMark? ch with
      | some kind => .ok (⟨kind, here.position⟩, here.drop 1)
      | none => .error ⟨ch, here.position⟩

/-- Every token but the end takes at least one character. -/
theorem next_length_lt {c after : Cursor} {token : Token}
    (h : c.next = .ok (token, after)) (hkind : token.kind ≠ .eof) :
    after.rest.length < c.rest.length := by
  have hgap := c.skipGap_length_le
  unfold next at h
  simp only at h
  split at h
  · simp_all
    exact absurd (h.1 ▸ rfl) hkind
  · next ch tail hrest =>
    split at h
    · next hstart =>
      have hlen : 0 < (c.skipGap.rest.takeWhile isIdentRest).length := by
        simp [hrest, isIdentRest_of_isIdentStart hstart]
      simp only [Except.ok.injEq, Prod.mk.injEq] at h
      rw [← h.2]
      simp only [drop, List.length_drop]
      simp only [hrest, List.length_cons] at *
      omega
    · split at h
      · simp only [Except.ok.injEq, Prod.mk.injEq] at h
        rw [← h.2]
        simp only [drop, List.length_drop]
        simp only [hrest, List.length_cons] at *
        omega
      · simp at h

/-! ## The whole source -/

/-- Every token from a cursor on, up to and including the end. -/
def tokens (c : Cursor) : Except LexError (List Token) :=
  match _h : c.next with
  | .error e => .error e
  | .ok (token, after) =>
    if _hkind : token.kind = .eof then .ok [token]
    else
      match tokens after with
      | .error e => .error e
      | .ok rest => .ok (token :: rest)
termination_by c.rest.length
decreasing_by exact next_length_lt _h _hkind

end Cursor

/-- The tokens of a source, the end included, or its first stray character. -/
def tokenize (source : String) : Except LexError (List Token) :=
  (Cursor.ofSource source).tokens

/-! ## One token at a time -/

/-- A source being read token by token; finished after the end or an error. -/
structure TokenStream where
  cursor : Cursor
  finished : Bool
  deriving DecidableEq, Repr

namespace TokenStream

/-- A fresh stream. -/
def ofSource (source : String) : TokenStream := ⟨Cursor.ofSource source, false⟩

/-- The next answer, which is nothing once the stream has finished, and the stream
after it. -/
def next (s : TokenStream) : Option (Except LexError Token) × TokenStream :=
  if s.finished then (none, s)
  else
    match s.cursor.next with
    | .error e => (some (.error e), { s with finished := true })
    | .ok (token, after) => (some (.ok token), ⟨after, token.kind = .eof⟩)

/-- The first `count` answers. -/
def take (s : TokenStream) : Nat → List (Option (Except LexError Token))
  | 0 => []
  | count + 1 => s.next.1 :: s.next.2.take count

end TokenStream

end ReaderGen.Notation
