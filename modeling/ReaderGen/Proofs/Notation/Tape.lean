import ReaderGen.Notation.Parser

/-!
# ReaderGen.Proofs.Notation.Tape -- the parser as a cursor on a tape

The readers of the parser take the tokens that are left. Here the same grammar is read from one
list of tokens that stays as it is, with a cursor that moves over it. Three accesses touch the
tokens: `current` looks under the cursor, `advance` steps to the next token, and `ahead` looks one
token further. **A step from the last token stays there**, so a loop that went on stepping would
never end. For this reason each loop counts its rounds, and an access is put down with the place
where it happened (`Run`).

`Proofs.Notation.Progress` shows that no loop runs out of rounds, and that these readers answer as
those of the parser do.
-/

namespace ReaderGen.Notation

/-! ## Tapes -/

/-- A list of tokens that is not empty. -/
structure Tape where
  tokens : List Token
  ne_nil : tokens ≠ []

namespace Tape

variable {tape : Tape} {place : Nat} {kind : TokenKind}

/-- The index of the last token. -/
def last (tape : Tape) : Nat := tape.tokens.length - 1

theorem length_eq (tape : Tape) : tape.tokens.length = tape.last + 1 := by
  have hpos := List.length_pos_iff.mpr tape.ne_nil
  rw [last]
  omega

/-- The token under a cursor; behind the last one it is still the last. -/
def tokenAt (tape : Tape) (place : Nat) : Token :=
  tape.tokens.get ⟨min place tape.last, by
    rw [tape.length_eq]
    exact Nat.lt_succ_of_le (Nat.min_le_right place tape.last)⟩

/-- The place behind one step. -/
def after (tape : Tape) (place : Nat) : Nat := if place < tape.last then place + 1 else place

/-- The tokens from a place on. -/
def rest (tape : Tape) (place : Nat) : List Token := tape.tokens.drop place

/-- The end stands last and nowhere else. -/
def Closed (tape : Tape) : Prop :=
  ∀ place (h : place < tape.tokens.length),
    (tape.tokens.get ⟨place, h⟩).kind = .eof ↔ place = tape.last

theorem after_le (h : place ≤ tape.last) : tape.after place ≤ tape.last := by
  unfold after
  split <;> omega

theorem le_after : place ≤ tape.after place := by
  unfold after
  split <;> omega

theorem rest_eq_cons (h : place ≤ tape.last) :
    tape.rest place = tape.tokenAt place :: tape.rest (place + 1) := by
  have hlt : place < tape.tokens.length := by
    rw [tape.length_eq]
    omega
  have htoken : tape.tokenAt place = tape.tokens.get ⟨place, hlt⟩ := by
    simp only [tokenAt, Nat.min_eq_left h]
  rw [rest, rest, htoken]
  exact List.drop_eq_getElem_cons hlt

theorem current_rest (h : place ≤ tape.last) :
    Notation.current (tape.rest place) = tape.tokenAt place := by
  rw [rest_eq_cons h]
  rfl

theorem length_rest (tape : Tape) (place : Nat) :
    (tape.rest place).length = tape.last + 1 - place := by
  rw [rest, List.length_drop, tape.length_eq]

theorem Closed.lt_last (h : tape.Closed) (hplace : place ≤ tape.last)
    (hkind : (tape.tokenAt place).kind ≠ .eof) : place < tape.last := by
  refine Nat.lt_of_le_of_ne hplace ?_
  rintro rfl
  refine hkind ((h _ ?_).mpr (Nat.min_self _))
  rw [tape.length_eq, Nat.min_self]
  omega

theorem Closed.after_eq (h : tape.Closed) (hplace : place ≤ tape.last)
    (hkind : (tape.tokenAt place).kind ≠ .eof) : tape.after place = place + 1 :=
  if_pos (h.lt_last hplace hkind)

/-- On a closed tape a step from a token that is not the end leaves the tokens behind it. -/
theorem Closed.rest_eq (h : tape.Closed) (hplace : place ≤ tape.last)
    (hkind : (tape.tokenAt place).kind ≠ .eof) :
    tape.rest place = tape.tokenAt place :: tape.rest (tape.after place) := by
  rw [h.after_eq hplace hkind]
  exact rest_eq_cons hplace

end Tape

/-! ## Runs -/

/-- How the tokens are touched. -/
inductive Access where
  | current
  | advance
  | ahead
  deriving DecidableEq, Repr

/-- An access with the place of the cursor at that moment. -/
structure Call where
  access : Access
  place : Nat
  deriving DecidableEq, Repr

/-- Why a run stops without a result. -/
inductive Halt where
  | fault (error : ParseError)
  | rounds
  deriving DecidableEq, Repr

/-- What a run answers, where it leaves the cursor, and its accesses in their order. -/
structure Run (α : Type) where
  answer : Except Halt α
  place : Nat
  calls : List Call

/-- Readers with a cursor: from a place to a run. -/
structure CursorM (α : Type) where
  run : Nat → Run α

namespace CursorM

variable {α β : Type}

/-- Two readers in sequence; nothing is read behind a halt. -/
def andThen (first : CursorM α) (next : α → CursorM β) : CursorM β where
  run place :=
    match (first.run place).answer with
    | .error halt => ⟨.error halt, (first.run place).place, (first.run place).calls⟩
    | .ok value =>
      let behind := (next value).run (first.run place).place
      ⟨behind.answer, behind.place, (first.run place).calls ++ behind.calls⟩

instance : Monad CursorM where
  pure value := ⟨fun place => ⟨.ok value, place, []⟩⟩
  bind := andThen

/-- Stops with an error. -/
def fail (error : ParseError) : CursorM α := ⟨fun place => ⟨.error (.fault error), place, []⟩⟩

/-- Stops because a loop has no round left. -/
def outOfRounds : CursorM α := ⟨fun place => ⟨.error .rounds, place, []⟩⟩

section Sequence

variable {first : CursorM α} {next : α → CursorM β} {place : Nat}

theorem run_bind_of_ok {value : α} (h : (first.run place).answer = .ok value) :
    (first >>= next).run place =
      ⟨((next value).run (first.run place).place).answer,
        ((next value).run (first.run place).place).place,
        (first.run place).calls ++ ((next value).run (first.run place).place).calls⟩ := by
  show (andThen first next).run place = _
  simp only [andThen, h]

theorem run_bind_of_error {halt : Halt} (h : (first.run place).answer = .error halt) :
    (first >>= next).run place =
      ⟨.error halt, (first.run place).place, (first.run place).calls⟩ := by
  show (andThen first next).run place = _
  simp only [andThen, h]

/-- A sequence answers only when both of its readers do. -/
theorem exists_of_run_bind {result : β} {final : Nat} {calls : List Call}
    (h : (first >>= next).run place = ⟨.ok result, final, calls⟩) :
    ∃ value middle before behind, first.run place = ⟨.ok value, middle, before⟩ ∧
      (next value).run middle = ⟨.ok result, final, behind⟩ := by
  rcases hfirst : first.run place with ⟨answer, middle, before⟩
  cases answer with
  | error halt =>
    rw [run_bind_of_error (by rw [hfirst])] at h
    cases h
  | ok value =>
    rw [run_bind_of_ok (by rw [hfirst]), hfirst] at h
    simp only [Run.mk.injEq] at h
    refine ⟨value, middle, before, ((next value).run middle).calls, rfl, ?_⟩
    rw [← h.1, ← h.2.1]

end Sequence

end CursorM

/-! ## Readers -/

namespace Tape

open CursorM

variable (tape : Tape)

/-- The token under the cursor. -/
def current : CursorM Token where
  run place := ⟨.ok (tape.tokenAt place), place, [⟨.current, place⟩]⟩

/-- The token under the cursor, with a step to the next. -/
def advance : CursorM Token where
  run place :=
    ⟨.ok (tape.tokenAt place), tape.after place, [⟨.advance, place⟩, ⟨.current, place⟩]⟩

/-- The token behind the one under the cursor, if there is one. -/
def ahead : CursorM (Option Token) where
  run place := ⟨.ok tape.tokens[place + 1]?, place, [⟨.ahead, place⟩]⟩

/-- Stops because the token under the cursor is not what was expected. -/
def unexpected {α : Type} (expected : Expected) : CursorM α := do
  let token ← tape.current
  fail (.unexpected expected token.kind token.position)

/-- Reads one token of the given kind. -/
def expect (kind : TokenKind) (expected : Expected) : CursorM Position := do
  let token ← tape.current
  if token.kind = kind then
    let token ← tape.advance
    return token.position
  else tape.unexpected expected

/-- Reads one identifier, with its position. -/
def expectIdent (expected : Expected) : CursorM (String × Position) := do
  let token ← tape.current
  match token.kind with
  | .ident name =>
    let token ← tape.advance
    return (name, token.position)
  | _ => tape.unexpected expected

/-- Reads the mark between a field's type and its name, if there is one. -/
def fieldMark : CursorM (Bool × Bool) := do
  let token ← tape.current
  match token.kind with
  | .star =>
    let _ ← tape.advance
    return (true, false)
  | .question =>
    let _ ← tape.advance
    return (false, true)
  | _ => return (false, false)

/-- Reads one field, with the position of its name. -/
def field : CursorM (Field × Position) := do
  let typeName ← tape.expectIdent .fieldType
  let mark ← tape.fieldMark
  let name ← tape.expectIdent .fieldName
  return (⟨name.1, typeName.1, mark.1, mark.2⟩, name.2)

/-- Reads the fields of a list behind its opening parenthesis, one in each round. -/
def fieldItems (owner : String) : Nat → List String → CursorM (List Field)
  | 0, _ => outOfRounds
  | rounds + 1, seen => do
    let read ← tape.field
    if read.1.name ∈ seen then fail (.duplicateField owner read.1.name read.2)
    else
      let token ← tape.current
      match token.kind with
      | .comma =>
        let _ ← tape.advance
        let fields ← fieldItems owner rounds (read.1.name :: seen)
        return read.1 :: fields
      | .closeParen =>
        let _ ← tape.advance
        return [read.1]
      | _ => tape.unexpected .fieldSeparator

/-! From here on `budget` is the number of rounds that an inner loop may take. -/

variable (budget : Nat)

/-- Reads a field list in parentheses. -/
def fields (owner : String) : CursorM (List Field) := do
  let _ ← tape.expect .openParen .openParen
  tape.fieldItems owner budget []

/-- Reads the attributes of a definition, if a list of them follows. The token behind the word is
looked at first. -/
def attributes (owner : String) : CursorM (List Field) := do
  let following ← tape.ahead
  let token ← tape.current
  if token.kind = .ident "attributes" ∧ following.map Token.kind = some .openParen then
    let _ ← tape.advance
    tape.fields budget owner
  else return []

/-- Reads one constructor. -/
def variant : CursorM Constructor := do
  let name ← tape.expectIdent .constructorName
  let token ← tape.current
  if token.kind = .openParen then
    let fields ← tape.fields budget name.1
    return ⟨name.1, fields⟩
  else return ⟨name.1, []⟩

/-- Reads constructors separated by pipes, one in each round. -/
def variants : Nat → CursorM (List Constructor)
  | 0 => outOfRounds
  | rounds + 1 => do
    let first ← tape.variant budget
    let token ← tape.current
    if token.kind = .pipe then
      let _ ← tape.advance
      let more ← variants rounds
      return first :: more
    else return [first]

/-- Reads the right-hand side of a definition. -/
def body (name : String) : CursorM Body := do
  let token ← tape.current
  if token.kind = .openParen then
    let fields ← tape.fields budget name
    let attributes ← tape.attributes budget name
    return .product ⟨fields, attributes⟩
  else
    let variants ← tape.variants budget budget
    let attributes ← tape.attributes budget name
    return .sum ⟨variants, attributes⟩

/-- Reads one definition. -/
def definition : CursorM Definition := do
  let name ← tape.expectIdent .typeName
  let _ ← tape.expect .equals .equals
  let body ← tape.body budget name.1
  return ⟨name.1, body⟩

/-- Reads definitions up to the closing brace, one in each round. -/
def definitions : Nat → List String → CursorM (List Definition)
  | 0, _ => outOfRounds
  | rounds + 1, seen => do
    let token ← tape.current
    if token.kind = .closeBrace then return []
    else
      let start ← tape.current
      let definition ← tape.definition budget
      if definition.name ∈ seen then fail (.duplicateType definition.name start.position)
      else
        let more ← definitions rounds (definition.name :: seen)
        return definition :: more

/-- Reads a module up to its closing brace. -/
def moduleText : CursorM Schema := do
  let _ ← tape.expect (.ident "module") .moduleKeyword
  let name ← tape.expectIdent .moduleName
  let _ ← tape.expect .openBrace .openBrace
  let types ← tape.definitions budget budget []
  let _ ← tape.expect .closeBrace .closeBrace
  return ⟨name.1, types⟩

/-- Answers a schema when only the end of the source is left. -/
def finish (schema : Schema) : CursorM Schema := do
  let _ ← tape.expect .eof .endOfInput
  return schema

/-- Reads a whole module. -/
def schema : CursorM Schema := do
  let schema ← tape.moduleText budget
  tape.finish schema

end Tape

end ReaderGen.Notation
