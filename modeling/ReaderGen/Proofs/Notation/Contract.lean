import ReaderGen.Proofs.Notation.Tape
import Mathlib.Logic.Basic

/-!
# ReaderGen.Proofs.Notation.Contract -- what the readers on a tape keep to

Each reader on a tape keeps one contract (`Keeps`), from every place of the list. Of any list of
tokens it says that the cursor stays in the list and does not go back, and that no loop runs out of
its rounds; of a closed tape also that no step is made from the end, and that the reader answers as
that of the parser does on the tokens from the place on (`Follows`).

A loop ends because a round that goes on has moved the cursor. A step from the last token does not,
but no round takes such a step and goes on: it starts at a name and ends at a comma or a pipe, and
one token is not both.
-/

namespace ReaderGen.Notation

open CursorM

/-! ## The parser by the token in front

The readers of the parser match on lists of tokens, and those on a tape ask for the kind of one
token at a time. These equations say what the first ones do in the words of the second. -/

section Front

variable {kind : TokenKind} {expected : Expected} {owner : String} {seen : List String}
  {token : Token} {tokens left rest : List Token} {error : ParseError}

theorem expect_cons :
    expect kind expected (token :: rest) =
      if token.kind = kind then .ok rest else .error (unexpected expected (token :: rest)) := rfl

theorem expectIdent_cons :
    expectIdent expected (token :: rest) =
      match token.kind with
      | .ident name => .ok (name, token.position, rest)
      | _ => .error (unexpected expected (token :: rest)) := by
  obtain ⟨kind, position⟩ := token
  cases kind <;> rfl

theorem fieldMark_cons :
    fieldMark (token :: rest) =
      match token.kind with
      | .star => (true, false, rest)
      | .question => (false, true, rest)
      | _ => (false, false, token :: rest) := by
  obtain ⟨kind, position⟩ := token
  cases kind <;> rfl

theorem parseFieldItems_of_error (h : parseField tokens = .error error) :
    parseFieldItems owner seen tokens = .error error := by
  rw [parseFieldItems]
  split
  · next herror =>
    rw [h] at herror
    cases herror
    rfl
  · next hread =>
    rw [h] at hread
    cases hread

theorem parseFieldItems_of_field {field : Field} {position : Position}
    (h : parseField tokens = .ok (field, position, left)) (hleft : left = token :: rest) :
    parseFieldItems owner seen tokens =
      if field.name ∈ seen then .error (.duplicateField owner field.name position)
      else
        match token.kind with
        | .comma =>
          match parseFieldItems owner (field.name :: seen) rest with
          | .error error => .error error
          | .ok (fields, left) => .ok (field :: fields, left)
        | .closeParen => .ok ([field], rest)
        | _ => .error (unexpected .fieldSeparator (token :: rest)) := by
  obtain ⟨kind, place⟩ := token
  subst hleft
  rw [parseFieldItems]
  split
  · next herror =>
    rw [h] at herror
    cases herror
  · next hfield =>
    rw [h] at hfield
    cases hfield
    cases kind <;> rfl

theorem parseAttributes_cons :
    parseAttributes owner (token :: rest) =
      if token.kind = .ident "attributes" ∧ rest.head?.map Token.kind = some .openParen then
        parseFields owner rest
      else .ok ([], token :: rest) := by
  unfold parseAttributes
  split
  · next heq =>
    cases heq
    exact (if_pos ⟨rfl, rfl⟩).symm
  · next hother =>
    rw [if_neg]
    rintro ⟨hword, hopen⟩
    obtain ⟨kind, position⟩ := token
    obtain ⟨⟨next, place⟩, hnext, hkind⟩ := Option.map_eq_some_iff.mp hopen
    obtain ⟨tail, rfl⟩ := List.head?_eq_some_iff.mp hnext
    cases hword
    cases hkind
    exact hother position place tail rfl

theorem parseConstructors_of_error (h : parseConstructor tokens = .error error) :
    parseConstructors tokens = .error error := by
  rw [parseConstructors]
  split
  · next herror =>
    rw [h] at herror
    cases herror
    rfl
  · next hread =>
    rw [h] at hread
    cases hread

theorem parseConstructors_of_variant {variant : Constructor}
    (h : parseConstructor tokens = .ok (variant, left)) (hleft : left = token :: rest) :
    parseConstructors tokens =
      if token.kind = .pipe then
        match parseConstructors rest with
        | .error error => .error error
        | .ok (variants, left) => .ok (variant :: variants, left)
      else .ok ([variant], token :: rest) := by
  obtain ⟨kind, place⟩ := token
  subst hleft
  rw [parseConstructors]
  split
  · next herror =>
    rw [h] at herror
    cases herror
  · next hvariant =>
    rw [h] at hvariant
    cases hvariant
    cases kind <;> rfl

theorem parseDefinitions_of_error (hbrace : (current tokens).kind ≠ .closeBrace)
    (h : parseDefinition tokens = .error error) :
    parseDefinitions seen tokens = .error error := by
  rw [parseDefinitions, if_neg hbrace]
  split
  · next herror =>
    rw [h] at herror
    cases herror
    rfl
  · next hread =>
    rw [h] at hread
    cases hread

theorem parseDefinitions_of_definition {definition : Definition}
    (hbrace : (current tokens).kind ≠ .closeBrace)
    (h : parseDefinition tokens = .ok (definition, left)) :
    parseDefinitions seen tokens =
      if definition.name ∈ seen then
        .error (.duplicateType definition.name (current tokens).position)
      else
        match parseDefinitions (definition.name :: seen) left with
        | .error error => .error error
        | .ok (definitions, rest) => .ok (definition :: definitions, rest) := by
  rw [parseDefinitions, if_neg hbrace]
  split
  · next herror =>
    rw [h] at herror
    cases herror
  · next hdefinition =>
    rw [h] at hdefinition
    cases hdefinition
    rfl

end Front

/-! ## The contract of a reader -/

/-- What holds of a run from a place. On a closed tape its faults and its answers are among those
named, an answer with the tokens that are left. -/
structure Keeps {α : Type} (tape : Tape) (place : Nat) (run : Run α) (fault : ParseError → Prop)
    (ok : α → List Token → Prop) : Prop where
  within : ∀ call ∈ run.calls, call.place ≤ tape.last
  spares : tape.Closed → ∀ call ∈ run.calls, call.access = .advance → call.place < tape.last
  ends : run.answer ≠ .error .rounds
  onward : ∀ value, run.answer = .ok value → place ≤ run.place ∧ run.place ≤ tape.last
  faults : tape.Closed → ∀ error, run.answer = .error (.fault error) → fault error
  answers : tape.Closed → ∀ value, run.answer = .ok value → ok value (tape.rest run.place)

/-- A run that answers as a reader does on the tokens from its place on. -/
abbrev Follows {α : Type} (tape : Tape) (place : Nat) (run : Run α)
    (read : Except ParseError (α × List Token)) : Prop :=
  Keeps tape place run (fun error => read = .error error)
    (fun value left => read = .ok (value, left))

section Contract

variable {α β : Type} {tape : Tape} {place : Nat} {fault : ParseError → Prop}
  {ok : α → List Token → Prop}

theorem keeps_pure {value : α} (hplace : place ≤ tape.last)
    (h : tape.Closed → ok value (tape.rest place)) :
    Keeps tape place ((pure value : CursorM α).run place) fault ok where
  within := nofun
  spares := nofun
  ends := nofun
  onward _ _ := ⟨Nat.le_refl _, hplace⟩
  faults := nofun
  answers hclosed _ hvalue := by
    cases hvalue
    exact h hclosed

theorem keeps_fail {error : ParseError} (h : tape.Closed → fault error) :
    Keeps tape place ((fail error : CursorM α).run place) fault ok where
  within := nofun
  spares := nofun
  ends := nofun
  onward := nofun
  faults hclosed _ herror := by
    cases herror
    exact h hclosed
  answers := nofun

/-- A contract is kept by two readers in sequence when the first keeps one whose faults the whole
has too, and the second keeps it from wherever the first may leave the cursor. -/
theorem Keeps.bind {first : CursorM α} {next : α → CursorM β} {inner : ParseError → Prop}
    {after : β → List Token → Prop} (h : Keeps tape place (first.run place) inner ok)
    (hfault : tape.Closed → ∀ error, inner error → fault error)
    (hnext : ∀ value middle calls, first.run place = ⟨.ok value, middle, calls⟩ →
      place ≤ middle → middle ≤ tape.last → (tape.Closed → ok value (tape.rest middle)) →
      Keeps tape middle ((next value).run middle) fault after) :
    Keeps tape place ((first >>= next).run place) fault after := by
  cases hanswer : (first.run place).answer with
  | error halt =>
    rw [run_bind_of_error hanswer]
    refine ⟨h.within, h.spares, ?_, nofun, ?_, nofun⟩
    · rintro hrounds
      cases hrounds
      exact h.ends hanswer
    · intro hclosed error herror
      cases herror
      exact hfault hclosed error (h.faults hclosed error hanswer)
  | ok value =>
    -- the second reader starts where the first one left the cursor
    obtain ⟨hle, hlast⟩ := h.onward value hanswer
    have hrun := hnext value (first.run place).place (first.run place).calls (by rw [← hanswer])
      hle hlast (fun hclosed => h.answers hclosed value hanswer)
    rw [run_bind_of_ok hanswer]
    refine ⟨?_, ?_, hrun.ends, ?_, hrun.faults, hrun.answers⟩
    · exact List.forall_mem_append.mpr ⟨h.within, hrun.within⟩
    · intro hclosed
      exact List.forall_mem_append.mpr ⟨h.spares hclosed, hrun.spares hclosed⟩
    · intro final hfinal
      obtain ⟨hmiddle, hend⟩ := hrun.onward final hfinal
      exact ⟨Nat.le_trans hle hmiddle, hend⟩

theorem Keeps.le {run : Run α} {value : α} {middle : Nat} {calls : List Call}
    (h : Keeps tape place run fault ok) (hrun : run = ⟨.ok value, middle, calls⟩) :
    place ≤ middle ∧ middle ≤ tape.last := by
  subst hrun
  exact h.onward value rfl

theorem Keeps.imp {run : Run α} {inner : ParseError → Prop} {before : α → List Token → Prop}
    (h : Keeps tape place run inner before)
    (hfault : tape.Closed → ∀ error, inner error → fault error)
    (hok : tape.Closed → ∀ value left, before value left → ok value left) :
    Keeps tape place run fault ok where
  within := h.within
  spares := h.spares
  ends := h.ends
  onward := h.onward
  faults hclosed error herror := hfault hclosed error (h.faults hclosed error herror)
  answers hclosed value hvalue := hok hclosed value _ (h.answers hclosed value hvalue)

/-! ### Accesses -/

theorem Keeps.current {next : Token → CursorM α} (hplace : place ≤ tape.last)
    (h : Keeps tape place ((next (tape.tokenAt place)).run place) fault ok) :
    Keeps tape place ((tape.current >>= next).run place) fault ok where
  within := List.forall_mem_cons.mpr ⟨hplace, h.within⟩
  spares hclosed := List.forall_mem_cons.mpr ⟨nofun, h.spares hclosed⟩
  ends := h.ends
  onward := h.onward
  faults := h.faults
  answers := h.answers

theorem Keeps.ahead {next : Option Token → CursorM α} (hplace : place ≤ tape.last)
    (h : Keeps tape place ((next tape.tokens[place + 1]?).run place) fault ok) :
    Keeps tape place ((tape.ahead >>= next).run place) fault ok where
  within := List.forall_mem_cons.mpr ⟨hplace, h.within⟩
  spares hclosed := List.forall_mem_cons.mpr ⟨nofun, h.spares hclosed⟩
  ends := h.ends
  onward := h.onward
  faults := h.faults
  answers := h.answers

/-- A step keeps clear of the end when the token under the cursor is known to be another one. -/
theorem Keeps.advance {next : Token → CursorM α} (hplace : place ≤ tape.last)
    (hkind : (tape.tokenAt place).kind ≠ .eof)
    (h : Keeps tape (tape.after place) ((next (tape.tokenAt place)).run (tape.after place))
      fault ok) :
    Keeps tape place ((tape.advance >>= next).run place) fault ok where
  within := List.forall_mem_cons.mpr ⟨hplace, List.forall_mem_cons.mpr ⟨hplace, h.within⟩⟩
  spares hclosed := by
    refine List.forall_mem_cons.mpr ⟨?_, List.forall_mem_cons.mpr ⟨nofun, h.spares hclosed⟩⟩
    intro _
    exact hclosed.lt_last hplace hkind
  ends := h.ends
  onward value hvalue := by
    obtain ⟨hle, hlast⟩ := h.onward value hvalue
    exact ⟨Nat.le_trans Tape.le_after hle, hlast⟩
  faults := h.faults
  answers := h.answers

theorem keeps_unexpected {expected : Expected} (hplace : place ≤ tape.last)
    (h : tape.Closed → fault (unexpected expected (tape.rest place))) :
    Keeps tape place ((tape.unexpected expected : CursorM α).run place) fault ok := by
  unfold Tape.unexpected
  refine .current hplace (keeps_fail ?_)
  intro hclosed
  have herror := h hclosed
  rwa [unexpected, Tape.current_rest hplace] at herror

end Contract

/-! ## Single tokens -/

section Readers

variable {tape : Tape} {place budget : Nat} {kind : TokenKind} {expected : Expected}

theorem keeps_expect (hplace : place ≤ tape.last) (hkind : kind ≠ .eof) :
    Keeps tape place ((tape.expect kind expected).run place)
      (fun error => expect kind expected (tape.rest place) = .error error)
      (fun _ left => expect kind expected (tape.rest place) = .ok left) := by
  unfold Tape.expect
  refine .current hplace ?_
  by_cases hfound : (tape.tokenAt place).kind = kind
  · rw [if_pos hfound]
    have hne : (tape.tokenAt place).kind ≠ .eof := hfound ▸ hkind
    refine .advance hplace hne (keeps_pure (Tape.after_le hplace) ?_)
    intro hclosed
    rw [hclosed.rest_eq hplace hne, expect_cons, if_pos hfound]
  · rw [if_neg hfound]
    refine keeps_unexpected hplace ?_
    intro _
    rw [Tape.rest_eq_cons hplace, expect_cons, if_neg hfound]

theorem keeps_expectIdent (hplace : place ≤ tape.last) :
    Keeps tape place ((tape.expectIdent expected).run place)
      (fun error => expectIdent expected (tape.rest place) = .error error)
      (fun read left => expectIdent expected (tape.rest place) = .ok (read.1, read.2, left)) := by
  unfold Tape.expectIdent
  refine .current hplace ?_
  split
  · next name hname =>
    have hne : (tape.tokenAt place).kind ≠ .eof := ne_of_eq_of_ne hname nofun
    refine .advance hplace hne (keeps_pure (Tape.after_le hplace) ?_)
    intro hclosed
    simp only [hclosed.rest_eq hplace hne, expectIdent_cons, hname]
  · next hother =>
    refine keeps_unexpected hplace ?_
    intro _
    rw [Tape.rest_eq_cons hplace, expectIdent_cons]
    split
    · next name hname => exact absurd hname (hother name)
    · rfl

theorem keeps_fieldMark (hplace : place ≤ tape.last) {fault : ParseError → Prop} :
    Keeps tape place (tape.fieldMark.run place) fault
      (fun mark left => fieldMark (tape.rest place) = (mark.1, mark.2, left)) := by
  unfold Tape.fieldMark
  refine .current hplace ?_
  split
  · next hstar =>
    have hne : (tape.tokenAt place).kind ≠ .eof := ne_of_eq_of_ne hstar nofun
    refine .advance hplace hne (keeps_pure (Tape.after_le hplace) ?_)
    intro hclosed
    simp only [hclosed.rest_eq hplace hne, fieldMark_cons, hstar]
  · next hquestion =>
    have hne : (tape.tokenAt place).kind ≠ .eof := ne_of_eq_of_ne hquestion nofun
    refine .advance hplace hne (keeps_pure (Tape.after_le hplace) ?_)
    intro hclosed
    simp only [hclosed.rest_eq hplace hne, fieldMark_cons, hquestion]
  · next hstar hquestion =>
    refine keeps_pure hplace ?_
    intro _
    rw [Tape.rest_eq_cons hplace, fieldMark_cons]
    split
    · next hkind => exact absurd hkind hstar
    · next hkind => exact absurd hkind hquestion
    · rfl

/-! ## Fields -/

theorem keeps_field (hplace : place ≤ tape.last) :
    Keeps tape place (tape.field.run place)
      (fun error => parseField (tape.rest place) = .error error)
      (fun read left => parseField (tape.rest place) = .ok (read.1, read.2, left)) := by
  unfold Tape.field
  refine .bind (keeps_expectIdent hplace) ?_ ?_
  · intro _ error herror
    simp only [parseField, herror]
  · intro typeName afterType _ _ _ htype htypeName
    refine .bind (keeps_fieldMark htype) (fun _ _ herror => herror) ?_
    intro mark afterMark _ _ _ hmark hmarkRead
    refine .bind (keeps_expectIdent hmark) ?_ ?_
    · intro hclosed error herror
      simp only [parseField, htypeName hclosed, hmarkRead hclosed, herror]
    · intro name afterName _ _ _ hname hnameRead
      refine keeps_pure hname ?_
      intro hclosed
      simp only [parseField, htypeName hclosed, hmarkRead hclosed, hnameRead hclosed]

/-- A step from a token that differs from an earlier one leaves the place of the earlier behind. -/
theorem lt_after {middle : Nat} (hle : place ≤ middle)
    (hkind : (tape.tokenAt place).kind ≠ (tape.tokenAt middle).kind) :
    place < tape.after middle := by
  have hne : place ≠ middle := by
    rintro rfl
    exact hkind rfl
  exact Nat.lt_of_lt_of_le (Nat.lt_of_le_of_ne hle hne) Tape.le_after

theorem ident_of_expectIdent {value : String × Position} {middle : Nat} {calls : List Call}
    (h : (tape.expectIdent expected).run place = ⟨.ok value, middle, calls⟩) :
    ∃ name, (tape.tokenAt place).kind = .ident name := by
  obtain ⟨token, _, _, _, hcurrent, hnext⟩ := exists_of_run_bind h
  cases hcurrent
  revert hnext
  split
  · next name hname => exact fun _ => ⟨name, hname⟩
  · intro hnext
    cases hnext

theorem kind_of_expect {value : Position} {middle : Nat} {calls : List Call}
    (h : (tape.expect kind expected).run place = ⟨.ok value, middle, calls⟩) :
    (tape.tokenAt place).kind = kind := by
  obtain ⟨token, _, _, _, hcurrent, hnext⟩ := exists_of_run_bind h
  cases hcurrent
  revert hnext
  split
  · next hkind => exact fun _ => hkind
  · intro hnext
    cases hnext

theorem ident_of_field {read : Field × Position} {middle : Nat} {calls : List Call}
    (h : tape.field.run place = ⟨.ok read, middle, calls⟩) :
    ∃ name, (tape.tokenAt place).kind = .ident name := by
  obtain ⟨_, _, _, _, hname, -⟩ := exists_of_run_bind h
  exact ident_of_expectIdent hname

theorem follows_fieldItems (owner : String) {rounds : Nat} {seen : List String}
    (hplace : place ≤ tape.last) (hrounds : tape.last - place < rounds) :
    Follows tape place ((tape.fieldItems owner rounds seen).run place)
      (parseFieldItems owner seen (tape.rest place)) := by
  induction rounds generalizing place seen with
  | zero => exact absurd hrounds (Nat.not_lt_zero _)
  | succ rounds ih =>
    rw [Tape.fieldItems]
    refine .bind (keeps_field hplace) ?_ ?_
    · intro _ error herror
      exact parseFieldItems_of_error herror
    · intro read middle _ hrun hle hmiddle hread
      obtain ⟨name, hname⟩ := ident_of_field hrun
      split
      · next hseen =>
        refine keeps_fail ?_
        intro hclosed
        rw [parseFieldItems_of_field (hread hclosed) (Tape.rest_eq_cons hmiddle), if_pos hseen]
      · next hseen =>
        refine .current hmiddle ?_
        split
        · next hcomma =>
          have hne : (tape.tokenAt middle).kind ≠ .eof := ne_of_eq_of_ne hcomma nofun
          -- the round started at a name and goes on at a comma, so the cursor has moved
          have hlt : place < tape.after middle := by
            refine lt_after hle ?_
            rw [hname, hcomma]
            nofun
          have hend : tape.after middle ≤ tape.last := Tape.after_le hmiddle
          refine .advance hmiddle hne (.bind (ih hend (by omega)) ?_ ?_)
          · intro hclosed error herror
            rw [parseFieldItems_of_field (hread hclosed) (hclosed.rest_eq hmiddle hne),
              if_neg hseen]
            simp only [hcomma, herror]
          · intro fields final _ _ _ hfinal hfields
            refine keeps_pure hfinal ?_
            intro hclosed
            rw [parseFieldItems_of_field (hread hclosed) (hclosed.rest_eq hmiddle hne),
              if_neg hseen]
            simp only [hcomma, hfields hclosed]
        · next hclose =>
          have hne : (tape.tokenAt middle).kind ≠ .eof := ne_of_eq_of_ne hclose nofun
          refine .advance hmiddle hne (keeps_pure (Tape.after_le hmiddle) ?_)
          intro hclosed
          rw [parseFieldItems_of_field (hread hclosed) (hclosed.rest_eq hmiddle hne), if_neg hseen]
          simp only [hclose]
        · next hcomma hclose =>
          refine keeps_unexpected hmiddle ?_
          intro hclosed
          rw [parseFieldItems_of_field (hread hclosed) (Tape.rest_eq_cons hmiddle), if_neg hseen]
          split
          · next hkind => exact absurd hkind hcomma
          · next hkind => exact absurd hkind hclose
          · rw [Tape.rest_eq_cons hmiddle]

theorem follows_fields (owner : String) (hplace : place ≤ tape.last)
    (hbudget : tape.last < budget) :
    Follows tape place ((tape.fields budget owner).run place)
      (parseFields owner (tape.rest place)) := by
  unfold Tape.fields
  refine .bind (keeps_expect hplace nofun) ?_ ?_
  · intro _ error herror
    simp only [parseFields, herror]
  · intro _ middle _ _ _ hmiddle hopen
    refine (follows_fieldItems owner hmiddle (by omega)).imp ?_ ?_
    · intro hclosed error herror
      simp only [parseFields, hopen hclosed, herror]
    · intro hclosed fields left hfields
      simp only [parseFields, hopen hclosed, hfields]

theorem follows_attributes (owner : String) (hplace : place ≤ tape.last)
    (hbudget : tape.last < budget) :
    Follows tape place ((tape.attributes budget owner).run place)
      (parseAttributes owner (tape.rest place)) := by
  unfold Tape.attributes
  refine .ahead hplace (.current hplace ?_)
  have hahead : (tape.rest (place + 1)).head? = tape.tokens[place + 1]? := List.head?_drop
  rw [← hahead]
  split
  · next hword =>
    have hne : (tape.tokenAt place).kind ≠ .eof := ne_of_eq_of_ne hword.1 nofun
    refine .advance hplace hne ?_
    refine (follows_fields owner (Tape.after_le hplace) hbudget).imp ?_ ?_
    · intro hclosed error herror
      rwa [Tape.rest_eq_cons hplace, parseAttributes_cons, if_pos hword,
        ← hclosed.after_eq hplace hne]
    · intro hclosed fields left hfields
      rwa [Tape.rest_eq_cons hplace, parseAttributes_cons, if_pos hword,
        ← hclosed.after_eq hplace hne]
  · next hother =>
    refine keeps_pure hplace ?_
    intro _
    rw [Tape.rest_eq_cons hplace, parseAttributes_cons, if_neg hother]

/-! ## Definitions -/

theorem follows_variant (hplace : place ≤ tape.last) (hbudget : tape.last < budget) :
    Follows tape place ((tape.variant budget).run place)
      (parseConstructor (tape.rest place)) := by
  unfold Tape.variant
  refine .bind (keeps_expectIdent hplace) ?_ ?_
  · intro _ error herror
    simp only [parseConstructor, herror]
  · intro name middle _ _ _ hmiddle hname
    have hcurrent := Tape.current_rest hmiddle
    refine .current hmiddle ?_
    split
    · next hopen =>
      refine .bind (follows_fields name.1 hmiddle hbudget) ?_ ?_
      · intro hclosed error herror
        simp only [parseConstructor, hname hclosed, hcurrent, hopen, herror]
      · intro fields final _ _ _ hfinal hfields
        refine keeps_pure hfinal ?_
        intro hclosed
        simp only [parseConstructor, hname hclosed, hcurrent, hopen, hfields hclosed]
    · next hother =>
      refine keeps_pure hmiddle ?_
      intro hclosed
      simp only [parseConstructor, hname hclosed, hcurrent]

theorem ident_of_variant {variant : Constructor} {middle : Nat} {calls : List Call}
    (h : (tape.variant budget).run place = ⟨.ok variant, middle, calls⟩) :
    ∃ name, (tape.tokenAt place).kind = .ident name := by
  obtain ⟨_, _, _, _, hname, -⟩ := exists_of_run_bind h
  exact ident_of_expectIdent hname

theorem follows_variants {rounds : Nat} (hplace : place ≤ tape.last)
    (hbudget : tape.last < budget) (hrounds : tape.last - place < rounds) :
    Follows tape place ((tape.variants budget rounds).run place)
      (parseConstructors (tape.rest place)) := by
  induction rounds generalizing place with
  | zero => exact absurd hrounds (Nat.not_lt_zero _)
  | succ rounds ih =>
    rw [Tape.variants]
    refine .bind (follows_variant hplace hbudget) ?_ ?_
    · intro _ error herror
      exact parseConstructors_of_error herror
    · intro variant middle _ hrun hle hmiddle hvariant
      obtain ⟨name, hname⟩ := ident_of_variant hrun
      refine .current hmiddle ?_
      split
      · next hpipe =>
        have hne : (tape.tokenAt middle).kind ≠ .eof := ne_of_eq_of_ne hpipe nofun
        -- as in a field list, with a pipe for the comma
        have hlt : place < tape.after middle := by
          refine lt_after hle ?_
          rw [hname, hpipe]
          nofun
        have hend : tape.after middle ≤ tape.last := Tape.after_le hmiddle
        refine .advance hmiddle hne (.bind (ih hend (by omega)) ?_ ?_)
        · intro hclosed error herror
          rw [parseConstructors_of_variant (hvariant hclosed) (hclosed.rest_eq hmiddle hne),
            if_pos hpipe, herror]
        · intro more final _ _ _ hfinal hmore
          refine keeps_pure hfinal ?_
          intro hclosed
          rw [parseConstructors_of_variant (hvariant hclosed) (hclosed.rest_eq hmiddle hne),
            if_pos hpipe, hmore hclosed]
      · next hother =>
        refine keeps_pure hmiddle ?_
        intro hclosed
        have hfront := Tape.rest_eq_cons hmiddle
        rw [parseConstructors_of_variant (hvariant hclosed) hfront, if_neg hother, hfront]

theorem follows_body (name : String) (hplace : place ≤ tape.last)
    (hbudget : tape.last < budget) :
    Follows tape place ((tape.body budget name).run place)
      (parseBody name (tape.rest place)) := by
  unfold Tape.body
  refine .current hplace ?_
  have hcurrent := Tape.current_rest hplace
  split
  · next hopen =>
    refine .bind (follows_fields name hplace hbudget) ?_ ?_
    · intro _ error herror
      simp only [parseBody, hcurrent, hopen, herror]
    · intro fields middle _ _ _ hmiddle hfields
      refine .bind (follows_attributes name hmiddle hbudget) ?_ ?_
      · intro hclosed error herror
        simp only [parseBody, hcurrent, hopen, hfields hclosed, herror]
      · intro attributes final _ _ _ hfinal hattributes
        refine keeps_pure hfinal ?_
        intro hclosed
        simp only [parseBody, hcurrent, hopen, hfields hclosed, hattributes hclosed]
  · next hother =>
    refine .bind (follows_variants hplace hbudget (by omega)) ?_ ?_
    · intro _ error herror
      simp only [parseBody, hcurrent, herror]
    · intro variants middle _ _ _ hmiddle hvariants
      refine .bind (follows_attributes name hmiddle hbudget) ?_ ?_
      · intro hclosed error herror
        simp only [parseBody, hcurrent, hvariants hclosed, herror]
      · intro attributes final _ _ _ hfinal hattributes
        refine keeps_pure hfinal ?_
        intro hclosed
        simp only [parseBody, hcurrent, hvariants hclosed, hattributes hclosed]

theorem follows_definition (hplace : place ≤ tape.last)
    (hbudget : tape.last < budget) :
    Follows tape place ((tape.definition budget).run place)
      (parseDefinition (tape.rest place)) := by
  unfold Tape.definition
  refine .bind (keeps_expectIdent hplace) ?_ ?_
  · intro _ error herror
    simp only [parseDefinition, herror]
  · intro name afterName _ _ _ hafterName hname
    refine .bind (keeps_expect hafterName nofun) ?_ ?_
    · intro hclosed error herror
      simp only [parseDefinition, hname hclosed, herror]
    · intro _ middle _ _ _ hmiddle hequals
      refine .bind (follows_body name.1 hmiddle hbudget) ?_ ?_
      · intro hclosed error herror
        simp only [parseDefinition, hname hclosed, hequals hclosed, herror]
      · intro body final _ _ _ hfinal hbody
        refine keeps_pure hfinal ?_
        intro hclosed
        simp only [parseDefinition, hname hclosed, hequals hclosed, hbody hclosed]

/-- A definition takes a name and an equals sign, which are two places also where no step is made
from the last token. -/
theorem lt_of_definition {middle : Nat} {definition : Definition} {calls : List Call}
    (hplace : place ≤ tape.last) (hbudget : tape.last < budget)
    (h : (tape.definition budget).run place = ⟨.ok definition, middle, calls⟩) :
    place < middle := by
  obtain ⟨name, afterName, _, _, hname, htail⟩ := exists_of_run_bind h
  obtain ⟨_, afterEquals, _, _, hequals, htail⟩ := exists_of_run_bind htail
  obtain ⟨body, afterBody, _, _, hbody, hpure⟩ := exists_of_run_bind htail
  cases hpure
  obtain ⟨word, hword⟩ := ident_of_expectIdent hname
  obtain ⟨hle, hafterName⟩ := (keeps_expectIdent hplace).le hname
  have hsign : TokenKind.equals ≠ .eof := nofun
  obtain ⟨hstep, hafterEquals⟩ := (keeps_expect hafterName hsign).le hequals
  obtain ⟨hend, -⟩ := (follows_body name.1 hafterEquals hbudget).le hbody
  have hne : place ≠ afterName := by
    rintro rfl
    have hkind := kind_of_expect hequals
    rw [hword] at hkind
    cases hkind
  omega

theorem follows_definitions {rounds : Nat} {seen : List String} (hplace : place ≤ tape.last)
    (hbudget : tape.last < budget) (hrounds : tape.last - place < rounds) :
    Follows tape place ((tape.definitions budget rounds seen).run place)
      (parseDefinitions seen (tape.rest place)) := by
  induction rounds generalizing place seen with
  | zero => exact absurd hrounds (Nat.not_lt_zero _)
  | succ rounds ih =>
    have hcurrent := Tape.current_rest hplace
    rw [Tape.definitions]
    refine .current hplace ?_
    split
    · next hclose =>
      refine keeps_pure hplace ?_
      intro _
      rw [parseDefinitions, hcurrent, if_pos hclose]
    · next hother =>
      have hbrace : (current (tape.rest place)).kind ≠ .closeBrace := by rwa [hcurrent]
      refine .current hplace (.bind (follows_definition hplace hbudget) ?_ ?_)
      · intro _ error herror
        exact parseDefinitions_of_error hbrace herror
      · intro definition middle _ hrun _ hmiddle hdefinition
        have hlt := lt_of_definition hplace hbudget hrun
        split
        · next hseen =>
          refine keeps_fail ?_
          intro hclosed
          rw [parseDefinitions_of_definition hbrace (hdefinition hclosed), if_pos hseen, hcurrent]
        · next hseen =>
          refine .bind (ih hmiddle (by omega)) ?_ ?_
          · intro hclosed error herror
            rw [parseDefinitions_of_definition hbrace (hdefinition hclosed), if_neg hseen, herror]
          · intro more final _ _ _ hfinal hmore
            refine keeps_pure hfinal ?_
            intro hclosed
            rw [parseDefinitions_of_definition hbrace (hdefinition hclosed), if_neg hseen,
              hmore hclosed]

end Readers

end ReaderGen.Notation
