import ReaderGen.Proofs.Notation.Contract
import ReaderGen.Proofs.Notation.Exact

/-!
# ReaderGen.Proofs.Notation.Progress -- the cursor of the parser is valid and moves on

The tokens of a source are a closed tape: they are not empty, and the end stands last and nowhere
else. **At every access the cursor is at most at the end, and the readers of fields, constructors
and definitions move on and leave the end** (`parser_cursor_moves_on`). The loops of these readers
end on every list of tokens that is not empty, also where no end stands at its end.
-/

namespace ReaderGen.Notation

open CursorM

/-! ## Modules -/

section Modules

variable {tape : Tape} {place budget : Nat}

/-- Up to its closing brace a module keeps the contract; the answer of the parser then hangs on
whether only the end is left. -/
theorem keeps_moduleText (hplace : place ≤ tape.last) (hbudget : tape.last < budget) :
    Keeps tape place ((tape.moduleText budget).run place)
      (fun error => parseModule (tape.rest place) = .error error)
      (fun schema left => parseModule (tape.rest place) =
        (expect .eof .endOfInput left).map fun _ => schema) := by
  unfold Tape.moduleText
  refine .bind (keeps_expect hplace (by decide)) ?_ ?_
  · intro _ error herror
    simp only [parseModule, herror]
  · intro _ afterKeyword _ _ _ hafterKeyword hkeyword
    refine .bind (keeps_expectIdent hafterKeyword) ?_ ?_
    · intro hclosed error herror
      simp only [parseModule, hkeyword hclosed, herror]
    · intro name afterName _ _ _ hafterName hname
      refine .bind (keeps_expect hafterName (by decide)) ?_ ?_
      · intro hclosed error herror
        simp only [parseModule, hkeyword hclosed, hname hclosed, herror]
      · intro _ afterBrace _ _ _ hafterBrace hbrace
        refine .bind (follows_definitions hafterBrace hbudget (by omega)) ?_ ?_
        · intro hclosed error herror
          simp only [parseModule, hkeyword hclosed, hname hclosed, hbrace hclosed, herror]
        · intro types afterTypes _ _ _ hafterTypes htypes
          refine .bind (keeps_expect hafterTypes (by decide)) ?_ ?_
          · intro hclosed error herror
            simp only [parseModule, hkeyword hclosed, hname hclosed, hbrace hclosed,
              htypes hclosed, herror]
          · intro _ afterClose _ _ _ hafterClose hclose
            refine keeps_pure hafterClose ?_
            intro hclosed
            simp only [parseModule, hkeyword hclosed, hname hclosed, hbrace hclosed,
              htypes hclosed, hclose hclosed]
            cases expect .eof .endOfInput (tape.rest afterClose) <;> rfl

theorem run_expect (tape : Tape) (place : Nat) (kind : TokenKind) (expected : Expected) :
    (tape.expect kind expected).run place =
      if (tape.tokenAt place).kind = kind then
        ⟨.ok (tape.tokenAt place).position, tape.after place,
          [⟨.current, place⟩, ⟨.advance, place⟩, ⟨.current, place⟩]⟩
      else
        ⟨.error (.fault (.unexpected expected (tape.tokenAt place).kind
          (tape.tokenAt place).position)), place, [⟨.current, place⟩, ⟨.current, place⟩]⟩ := by
  unfold Tape.expect
  rw [run_bind_of_ok (show (tape.current.run place).answer = .ok (tape.tokenAt place) from rfl)]
  split <;> rfl

/-- The step behind the last definition is the only one from a last token, and it stays there. -/
theorem run_finish (schema : Schema) (hplace : place ≤ tape.last) :
    (∀ call ∈ ((tape.finish schema).run place).calls, call.place ≤ tape.last) ∧
      ((tape.finish schema).run place).answer =
        ((expect .eof .endOfInput (tape.rest place)).map fun _ => schema).mapError .fault := by
  have hrun := run_expect tape place .eof .endOfInput
  unfold Tape.finish
  rw [Tape.rest_eq_cons hplace, expect_cons]
  by_cases hkind : (tape.tokenAt place).kind = .eof
  · rw [if_pos hkind] at hrun
    rw [run_bind_of_ok (by rw [hrun]), hrun, if_pos hkind]
    refine ⟨?_, rfl⟩
    exact List.forall_mem_cons.mpr ⟨hplace, List.forall_mem_cons.mpr ⟨hplace,
      List.forall_mem_singleton.mpr hplace⟩⟩
  · rw [if_neg hkind] at hrun
    rw [run_bind_of_error (by rw [hrun]), hrun, if_neg hkind]
    refine ⟨?_, rfl⟩
    exact List.forall_mem_cons.mpr ⟨hplace, List.forall_mem_singleton.mpr hplace⟩

/-- A whole module is read with a valid cursor, within the rounds of its loops, and on a closed tape
with the answer of the parser. -/
theorem schema_run (hbudget : tape.last < budget) :
    (∀ call ∈ ((tape.schema budget).run 0).calls, call.place ≤ tape.last) ∧
      ((tape.schema budget).run 0).answer ≠ .error .rounds ∧
      (tape.Closed →
        ((tape.schema budget).run 0).answer = (parseModule tape.tokens).mapError .fault) := by
  have hkeeps := keeps_moduleText (Nat.zero_le tape.last) hbudget
  rw [show tape.rest 0 = tape.tokens from rfl] at hkeeps
  unfold Tape.schema
  cases hanswer : ((tape.moduleText budget).run 0).answer with
  | error halt =>
    rw [run_bind_of_error hanswer]
    refine ⟨hkeeps.within, ?_, ?_⟩
    · rintro hrounds
      cases hrounds
      exact hkeeps.ends hanswer
    · intro hclosed
      cases halt with
      | rounds => exact absurd hanswer hkeeps.ends
      | fault error =>
        rw [hkeeps.faults hclosed error hanswer]
        rfl
  | ok schema =>
    obtain ⟨-, hmiddle⟩ := hkeeps.onward schema hanswer
    obtain ⟨hcalls, hend⟩ := run_finish schema hmiddle
    rw [run_bind_of_ok hanswer]
    refine ⟨List.forall_mem_append.mpr ⟨hkeeps.within, hcalls⟩, ?_, ?_⟩
    · rw [hend]
      cases (expect .eof .endOfInput _).map fun _ => schema <;> nofun
    · intro hclosed
      rw [hend, hkeeps.answers hclosed schema hanswer]

end Modules

/-! ## Sources -/

/-- A run from a place of a closed tape that reads what a reader of the parser does, moves on when
it answers, and leaves the end. -/
structure Advances {α : Type} (tape : Tape) (place : Nat) (run : Run α)
    (read : Except ParseError (α × List Token)) : Prop where
  within : ∀ call ∈ run.calls, call.place ≤ tape.last
  spares : ∀ call ∈ run.calls, call.access = .advance → call.place < tape.last
  onward : ∀ value, run.answer = .ok value → place < run.place ∧ run.place ≤ tape.last
  answers : run.answer.map (fun value => (value, tape.rest run.place)) = read.mapError .fault

theorem Follows.advances {α : Type} {tape : Tape} {place : Nat} {run : Run α}
    {read : Except ParseError (α × List Token)} (h : Follows tape place run read)
    (hclosed : tape.Closed)
    (hlt : ∀ value left, read = .ok (value, left) → left.length < (tape.rest place).length) :
    Advances tape place run read where
  within := h.within
  spares := h.spares hclosed
  onward value hvalue := by
    obtain ⟨-, hlast⟩ := h.onward value hvalue
    have hshorter := hlt value _ (h.answers hclosed value hvalue)
    simp only [Tape.length_rest] at hshorter
    exact ⟨by omega, hlast⟩
  answers := by
    cases hanswer : run.answer with
    | ok value =>
      rw [h.answers hclosed value hanswer]
      rfl
    | error halt =>
      cases halt with
      | rounds => exact absurd hanswer h.ends
      | fault error =>
        rw [h.faults hclosed error hanswer]
        rfl

/-- A field with the position of its name, apart from the tokens that are left. -/
def fieldRead (tokens : List Token) : Except ParseError ((Field × Position) × List Token) :=
  (parseField tokens).map fun read => ((read.1, read.2.1), read.2.2)

theorem follows_field {tape : Tape} {place : Nat} (hplace : place ≤ tape.last) :
    Follows tape place (tape.field.run place) (fieldRead (tape.rest place)) := by
  refine (keeps_field hplace).imp ?_ ?_
  · intro _ error herror
    rw [fieldRead, herror]
    rfl
  · intro _ read left hread
    rw [fieldRead, hread]
    rfl

theorem fieldRead_length_lt {tokens left : List Token} {read : Field × Position}
    (h : fieldRead tokens = .ok (read, left)) : left.length < tokens.length := by
  unfold fieldRead at h
  cases hfield : parseField tokens with
  | error error =>
    rw [hfield] at h
    cases h
  | ok found =>
    rw [hfield] at h
    cases h
    exact parseField_length_lt hfield

/-- The tokens of a source are a closed tape. -/
theorem exists_closed_tape {source : String} {tokens : List Token}
    (h : tokenize source = .ok tokens) : ∃ tape : Tape, tape.tokens = tokens ∧ tape.Closed := by
  obtain ⟨front, last, rfl, hlast, hfront⟩ := Cursor.tokens_end h
  refine ⟨⟨front ++ [last], List.append_ne_nil_of_right_ne_nil _ (List.cons_ne_nil _ _)⟩, rfl, ?_⟩
  intro place hplace
  -- the tokens in front of the last one have the places below its index
  have hindex : (⟨front ++ [last], List.append_ne_nil_of_right_ne_nil _
      (List.cons_ne_nil _ _)⟩ : Tape).last = front.length := by
    simp [Tape.last]
  rw [hindex]
  simp only [List.get_eq_getElem]
  by_cases hin : place < front.length
  · rw [List.getElem_append_left hin]
    exact iff_of_false (hfront _ (List.getElem_mem hin)) (Nat.ne_of_lt hin)
  · have hend : place = front.length := by
      simp only [List.length_append, List.length_singleton] at hplace
      omega
    subst hend
    simpa using hlast

/-- From a place the readers of fields, constructors and definitions move on. -/
structure Tape.MovesOn (tape : Tape) (budget place : Nat) : Prop where
  field : Advances tape place (tape.field.run place) (fieldRead (tape.rest place))
  fields : ∀ owner, Advances tape place ((tape.fields budget owner).run place)
    (parseFields owner (tape.rest place))
  variant : Advances tape place ((tape.variant budget).run place)
    (parseConstructor (tape.rest place))
  definition : Advances tape place ((tape.definition budget).run place)
    (parseDefinition (tape.rest place))

/-- From a place each loop ends within more rounds than there are tokens behind the place. -/
structure Tape.LoopsEnd (tape : Tape) (budget place : Nat) : Prop where
  fields : ∀ rounds, tape.last - place < rounds → ∀ owner seen,
    ((tape.fieldItems owner rounds seen).run place).answer ≠ .error .rounds
  variants : ∀ rounds, tape.last - place < rounds →
    ((tape.variants budget rounds).run place).answer ≠ .error .rounds
  definitions : ∀ rounds, tape.last - place < rounds → ∀ seen,
    ((tape.definitions budget rounds seen).run place).answer ≠ .error .rounds

theorem movesOn {tape : Tape} {budget place : Nat} (hclosed : tape.Closed)
    (hplace : place ≤ tape.last) (hbudget : tape.last < budget) : tape.MovesOn budget place where
  field := (follows_field hplace).advances hclosed fun _ _ => fieldRead_length_lt
  fields owner :=
    (follows_fields owner hplace hbudget).advances hclosed fun _ _ => parseFields_length_lt
  variant := (follows_variant hplace hbudget).advances hclosed fun _ _ => parseConstructor_length_lt
  definition :=
    (follows_definition hplace hbudget).advances hclosed fun _ _ => parseDefinition_length_lt

theorem loopsEnd {tape : Tape} {budget place : Nat} (hplace : place ≤ tape.last)
    (hbudget : tape.last < budget) : tape.LoopsEnd budget place where
  fields _ hrounds owner _ := (follows_fieldItems owner hplace hrounds).ends
  variants _ hrounds := (follows_variants hplace hbudget hrounds).ends
  definitions _ hrounds _ := (follows_definitions hplace hbudget hrounds).ends

/-- **The cursor of the parser is valid and moves on.** The tokens of a source are a closed tape; at
every access the cursor is at most at its end, and the readers of fields, constructors and
definitions move on and leave the end. On every list of tokens that is not empty, closed or not,
the cursor stays in the list and all loops end. -/
theorem parser_cursor_moves_on {source : String} {tokens : List Token}
    (h : tokenize source = .ok tokens) :
    (∃ tape : Tape, tape.tokens = tokens ∧ tape.Closed ∧
      ∀ budget, tape.last < budget →
        (∀ call ∈ ((tape.schema budget).run 0).calls, call.place ≤ tape.last) ∧
        ((tape.schema budget).run 0).answer = (parse source).mapError .fault ∧
        ∀ place, place ≤ tape.last → tape.MovesOn budget place) ∧
    ∀ (tape : Tape) (budget : Nat), tape.last < budget →
      (∀ call ∈ ((tape.schema budget).run 0).calls, call.place ≤ tape.last) ∧
      ((tape.schema budget).run 0).answer ≠ .error .rounds ∧
      ∀ place, place ≤ tape.last → tape.LoopsEnd budget place := by
  constructor
  · obtain ⟨tape, rfl, hclosed⟩ := exists_closed_tape h
    refine ⟨tape, rfl, hclosed, ?_⟩
    intro budget hbudget
    obtain ⟨hwithin, -, hanswer⟩ := schema_run hbudget
    refine ⟨hwithin, ?_, fun place hplace => movesOn hclosed hplace hbudget⟩
    rw [hanswer hclosed, parse, h]
  · intro tape budget hbudget
    obtain ⟨hwithin, hends, -⟩ := schema_run hbudget
    exact ⟨hwithin, hends, fun place hplace => loopsEnd hplace hbudget⟩

/-- Cut off in a field list, a module is read up to its end token, where a name is missing. -/
theorem parser_cursor_moves_on_to_cut : ∃ tape : Tape,
    tokenize "module m \x7b t = (int x, int" = .ok tape.tokens ∧
      ∀ budget, tape.last < budget → ((tape.schema budget).run 0).answer =
        .error (.fault (.unexpected .fieldName .eof ⟨1, 27⟩)) := by
  have hparse : parse "module m \x7b t = (int x, int" =
      .error (.unexpected .fieldName .eof ⟨1, 27⟩) := by
    decide +kernel
  cases htokens : tokenize "module m \x7b t = (int x, int" with
  | error cause =>
    rw [parse, htokens] at hparse
    cases hparse
  | ok tokens =>
    obtain ⟨⟨tape, rfl, -, hruns⟩, -⟩ := parser_cursor_moves_on htokens
    refine ⟨tape, rfl, ?_⟩
    intro budget hbudget
    obtain ⟨-, hanswer, -⟩ := hruns budget hbudget
    rw [hanswer, hparse]
    rfl

end ReaderGen.Notation
