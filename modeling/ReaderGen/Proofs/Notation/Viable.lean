import ReaderGen.Proofs.Notation.Grammar

/-!
# ReaderGen.Proofs.Notation.Viable -- what a module can begin with

A list of kinds is viable if some module begins with it (`Viable`). Only the grammar counts
here: a right-hand side has a part at least, and **names may repeat**.

Whether kinds are viable is told one kind after the other, without a look ahead, by an automaton
with a state for each place of the grammar (`State.step`). The word `attributes` behind a
right-hand side needs a state of its own, because it may be a keyword or the name of the next
definition. **The automaton ends on exactly the modules** (`sentence_iff`), and from each of its
states there is a way to the end, so **it goes on exactly as long as the kinds are viable**
(`viable_iff`).
-/

namespace ReaderGen

open Notation

/-- A right-hand side with at least one constructor or one field. -/
def Body.HasParts : Body → Prop
  | .sum choice => choice.variants ≠ []
  | .product record => record.fields ≠ []

theorem Body.WellFormed.hasParts {body : Body} (h : body.WellFormed) : body.HasParts := by
  cases h with
  | sum hvariants => exact hvariants
  | product hfields => exact hfields

namespace Notation

/-! ## Sentences and their beginnings -/

/-- The kinds of a whole module, the end of the source included. -/
def Sentence (kinds : List TokenKind) : Prop :=
  ∃ schema : Schema, (∀ definition ∈ schema.types, definition.body.HasParts) ∧
    kinds = schema.kinds ++ [.eof]

/-- Some module begins with these kinds. -/
def Viable (kinds : List TokenKind) : Prop := ∃ more, Sentence (kinds ++ more)

/-! ## The automaton -/

/-- The part of a definition that was read last; it decides what may follow. Behind all of a
definition only the next one may, as at the start of a module. -/
inductive Part where
  | variantName
  | variant
  | fields
  | whole
  deriving DecidableEq, Repr

/-- The places of the grammar. In a field list, `list` is the part that the list completes. -/
inductive State where
  | start
  | moduleName
  | openBrace
  | behind (part : Part)
  | equals
  | body
  | variant
  | attributesOrEquals
  | fieldType (list : Part)
  | mark (list : Part)
  | fieldName (list : Part)
  | separator (list : Part)
  | ending
  | done
  deriving DecidableEq, Repr

namespace State

/-- The place behind one more kind, if the kind may stand there. -/
def step : State → TokenKind → Option State
  | start, .ident name => if name = "module" then some moduleName else none
  | moduleName, .ident _ => some openBrace
  | openBrace, .openBrace => some (behind .whole)
  | behind part, .ident name =>
    if name = "attributes" ∧ part ≠ .whole then some attributesOrEquals else some equals
  | behind .variantName, .openParen => some (fieldType .variant)
  | behind .variantName, .pipe => some variant
  | behind .variant, .pipe => some variant
  | behind _, .closeBrace => some ending
  | equals, .equals => some body
  | attributesOrEquals, .equals => some body
  | attributesOrEquals, .openParen => some (fieldType .whole)
  | body, .openParen => some (fieldType .fields)
  | body, .ident _ => some (behind .variantName)
  | variant, .ident _ => some (behind .variantName)
  | fieldType list, .ident _ => some (mark list)
  | mark list, .star => some (fieldName list)
  | mark list, .question => some (fieldName list)
  | mark list, .ident _ => some (separator list)
  | fieldName list, .ident _ => some (separator list)
  | separator list, .comma => some (fieldType list)
  | separator list, .closeParen => some (behind list)
  | ending, .eof => some done
  | _, _ => none

/-- The place behind a list of kinds, if each of them may stand where it does. -/
def run : State → List TokenKind → Option State
  | state, [] => some state
  | state, kind :: kinds => (state.step kind).bind fun next => next.run kinds

variable {state next last : State} {kind : TokenKind} {kinds more : List TokenKind}

theorem run_cons_of_step (h : state.step kind = some next) :
    state.run (kind :: kinds) = next.run kinds := by
  rw [run, h, Option.bind_some]

theorem run_append :
    state.run (kinds ++ more) = (state.run kinds).bind fun next => next.run more := by
  induction kinds generalizing state with
  | nil => rfl
  | cons kind kinds ih =>
    rw [List.cons_append, run, run]
    cases state.step kind with
    | none => rfl
    | some next => exact ih

theorem run_append_of_run (h : state.run kinds = some next) :
    state.run (kinds ++ more) = next.run more := by
  rw [run_append, h, Option.bind_some]

theorem run_cons_eq_some_iff :
    state.run (kind :: kinds) = some last ↔
      ∃ next, state.step kind = some next ∧ next.run kinds = some last := by
  rw [run, Option.bind_eq_some_iff]

/-- The places where only a name may stand. -/
inductive TakesName : State → Prop
  | moduleName : TakesName moduleName
  | variant : TakesName variant
  | fieldType (list : Part) : TakesName (fieldType list)
  | fieldName (list : Part) : TakesName (fieldName list)

theorem TakesName.ne_done (h : state.TakesName) : state ≠ done := by
  rintro rfl
  cases h

theorem TakesName.step_eq_none (h : state.TakesName) (hident : ∀ name, kind ≠ .ident name) :
    state.step kind = none := by
  cases kind with
  | ident name => exact absurd rfl (hident name)
  | _ => cases h <;> rfl

theorem start_step_eq_none (h : kind ≠ .ident "module") : start.step kind = none := by
  cases kind with
  | ident name => exact if_neg fun hname => h (by rw [hname])
  | _ => rfl

theorem openBrace_step_eq_none (h : kind ≠ .openBrace) : openBrace.step kind = none := by
  cases kind with
  | openBrace => exact absurd rfl h
  | _ => rfl

theorem equals_step_eq_none (h : kind ≠ .equals) : equals.step kind = none := by
  cases kind with
  | equals => exact absurd rfl h
  | _ => rfl

theorem ending_step_eq_none (h : kind ≠ .eof) : ending.step kind = none := by
  cases kind with
  | eof => exact absurd rfl h
  | _ => rfl

end State

/-! ## The automaton follows the grammar -/

/-- What stands behind a field: the end of its list or the other fields. -/
def fieldTailKinds (fields : List Field) : List TokenKind :=
  if fields = [] then [.closeParen] else .comma :: fieldItemKinds fields

theorem fieldTailKinds_cons {field : Field} {fields : List Field} :
    fieldTailKinds (field :: fields) = .comma :: fieldItemKinds (field :: fields) :=
  if_neg (List.cons_ne_nil _ _)

theorem fieldItemKinds_eq {field : Field} {fields : List Field} :
    fieldItemKinds (field :: fields) = field.kinds ++ fieldTailKinds fields := by
  by_cases hlast : fields = []
  · subst hlast
    exact fieldItemKinds_singleton
  · rw [fieldTailKinds, if_neg hlast]
    exact fieldItemKinds_cons hlast

theorem variantKinds_eq {variant : Constructor} {variants : List Constructor} :
    variantKinds (variant :: variants) =
      variant.kinds ++ variants.flatMap fun other => .pipe :: other.kinds := by
  induction variants generalizing variant with
  | nil =>
    rw [List.flatMap_nil, List.append_nil]
    exact variantKinds_singleton
  | cons second others ih =>
    rw [variantKinds_cons (List.cons_ne_nil _ _), ih]
    rfl

namespace State

section Grammar

variable {state : State} {list part : Part}

theorem run_field (field : Field) : (fieldType list).run field.kinds = some (separator list) := by
  rcases field with ⟨name, typeName, isSequence, isOptional⟩
  cases isSequence <;> cases isOptional <;> rfl

theorem run_fieldTail (fields : List Field) :
    (separator list).run (fieldTailKinds fields) = some (behind list) := by
  induction fields with
  | nil => rfl
  | cons field fields ih =>
    rw [fieldTailKinds_cons, fieldItemKinds_eq]
    exact (run_append_of_run (run_field field)).trans ih

theorem run_fieldList {fields : List Field} (h : state.step .openParen = some (fieldType list))
    (hne : fields ≠ []) : state.run (fieldListKinds fields) = some (behind list) := by
  cases fields with
  | nil => exact absurd rfl hne
  | cons field fields =>
    rw [fieldListKinds, run_cons_of_step h, fieldItemKinds_eq,
      run_append_of_run (run_field field), run_fieldTail]

/-- A constructor is read from each place where its name may stand. -/
theorem run_variant (h : ∀ name, state.step (.ident name) = some (behind .variantName))
    (variant : Constructor) : state.run variant.kinds =
      some (behind (if variant.fields = [] then .variantName else .variant)) := by
  rw [Constructor.kinds, run_cons_of_step (h _)]
  split
  · rfl
  · next hfields => exact run_fieldList rfl hfields

/-- The parts behind which a pipe or attributes may stand. -/
theorem run_variants (h : ∀ name, state.step (.ident name) = some (behind .variantName))
    (variant : Constructor) (variants : List Constructor) :
    ∃ part, (part = .variantName ∨ part = .variant) ∧
      state.run (variantKinds (variant :: variants)) = some (behind part) := by
  induction variants generalizing variant state with
  | nil =>
    rw [variantKinds_singleton, run_variant h]
    refine ⟨_, ?_, rfl⟩
    split <;> simp
  | cons second others ih =>
    have hnext : ∀ name, State.variant.step (.ident name) = some (behind .variantName) :=
      fun _ => rfl
    obtain ⟨part, hpart, hrun⟩ := ih hnext second
    refine ⟨part, hpart, ?_⟩
    rw [variantKinds_cons (List.cons_ne_nil _ _), run_append_of_run (run_variant h variant)]
    -- a pipe may stand behind a constructor with or without fields
    split <;> exact hrun

theorem run_attributes {attributes : List Field} (hpart : part ≠ .whole) :
    (behind part).run (attributeKinds attributes) =
      some (behind (if attributes = [] then part else .whole)) := by
  rw [attributeKinds]
  split
  · rfl
  · next hattributes =>
    have hstep : (behind part).step (.ident "attributes") = some attributesOrEquals :=
      if_pos ⟨rfl, hpart⟩
    rw [run_cons_of_step hstep]
    exact run_fieldList rfl hattributes

theorem run_body {content : Body} (h : content.HasParts) :
    ∃ part, body.run content.kinds = some (behind part) := by
  cases content with
  | sum choice =>
    rcases choice with ⟨_ | ⟨variant, variants⟩, attributes⟩
    · exact absurd rfl h
    · have hfirst : ∀ name, body.step (.ident name) = some (behind .variantName) := fun _ => rfl
      obtain ⟨part, hpart, hrun⟩ := run_variants hfirst variant variants
      refine ⟨_, (run_append_of_run hrun).trans (run_attributes ?_)⟩
      rcases hpart with rfl | rfl <;> exact nofun
  | product record =>
    exact ⟨_, (run_append_of_run (run_fieldList rfl h)).trans (run_attributes nofun)⟩

/-- The name of the next definition may be the word `attributes`. -/
theorem run_definition (part : Part) {definition : Definition} (h : definition.body.HasParts) :
    ∃ next, (behind part).run definition.kinds = some (behind next) := by
  obtain ⟨next, hrun⟩ := run_body h
  refine ⟨next, ?_⟩
  rw [Definition.kinds, run, step]
  split <;> exact hrun

theorem run_definitions (part : Part) {definitions : List Definition}
    (h : ∀ definition ∈ definitions, definition.body.HasParts) :
    ∃ next, (behind part).run (definitions.flatMap Definition.kinds) = some (behind next) := by
  induction definitions generalizing part with
  | nil => exact ⟨part, rfl⟩
  | cons definition definitions ih =>
    rw [List.forall_mem_cons] at h
    obtain ⟨middle, hfirst⟩ := run_definition part h.1
    obtain ⟨next, hmore⟩ := ih middle h.2
    refine ⟨next, ?_⟩
    rw [List.flatMap_cons, run_append_of_run hfirst, hmore]

theorem run_schema {schema : Schema} (h : ∀ definition ∈ schema.types, definition.body.HasParts) :
    start.run schema.kinds = some ending := by
  obtain ⟨next, hrun⟩ := run_definitions .whole h
  have hfront : start.run schema.kinds =
      (behind .whole).run (schema.types.flatMap Definition.kinds ++ [.closeBrace]) := rfl
  rw [hfront, run_append_of_run hrun]
  cases next <;> rfl

end Grammar

end State

/-! ## What the automaton still accepts -/

/-- Definitions up to the end of the module. -/
def Definitions (kinds : List TokenKind) : Prop :=
  ∃ definitions : List Definition, (∀ definition ∈ definitions, definition.body.HasParts) ∧
    kinds = definitions.flatMap Definition.kinds ++ [.closeBrace, .eof]

/-- Attributes or none, and the definitions behind them. -/
def Attributes (kinds : List TokenKind) : Prop :=
  ∃ attributes rest, kinds = attributeKinds attributes ++ rest ∧ Definitions rest

/-- Other constructors or none, and what is left of the module. -/
def Variants (kinds : List TokenKind) : Prop :=
  ∃ variants : List Constructor, ∃ rest,
    kinds = (variants.flatMap fun variant => .pipe :: variant.kinds) ++ rest ∧ Attributes rest

/-- Fields or none, and what is left of the module. -/
def Fields (kinds : List TokenKind) : Prop :=
  ∃ fields rest, kinds = (if fields = [] then [] else fieldListKinds fields) ++ rest ∧
    Variants rest

/-- What may stand behind a part, up to the end of the module. -/
def Part.Rest : Part → List TokenKind → Prop
  | variantName => Fields
  | variant => Variants
  | fields => Attributes
  | whole => Definitions

/-- What may stand behind a field, up to the end of the module. -/
def FieldTail (list : Part) (kinds : List TokenKind) : Prop :=
  ∃ fields rest, kinds = fieldTailKinds fields ++ rest ∧ list.Rest rest

/-- An equals sign and a right-hand side, up to the end of the module. -/
def Assigned (kinds : List TokenKind) : Prop :=
  ∃ content : Body, ∃ rest, content.HasParts ∧ kinds = .equals :: (content.kinds ++ rest) ∧
    Definitions rest

/-- What may stand at a place, up to the end of the module. -/
def State.Rest : State → List TokenKind → Prop
  | start, kinds => Sentence kinds
  | moduleName, kinds => ∃ name rest, kinds = .ident name :: .openBrace :: rest ∧ Definitions rest
  | openBrace, kinds => ∃ rest, kinds = .openBrace :: rest ∧ Definitions rest
  | behind part, kinds => part.Rest kinds
  | equals, kinds => Assigned kinds
  | body, kinds => Assigned (.equals :: kinds)
  | variant, kinds => ∃ other : Constructor, ∃ rest, kinds = other.kinds ++ rest ∧
      Variants rest
  | attributesOrEquals, kinds => Assigned kinds ∨
      ∃ attributes rest, attributes ≠ [] ∧ kinds = fieldListKinds attributes ++ rest ∧
        Definitions rest
  | fieldType list, kinds => ∃ field : Field, ∃ rest, kinds = field.kinds ++ rest ∧
      FieldTail list rest
  | mark list, kinds => ∃ field : Field, ∃ rest,
      kinds = field.markKinds ++ (.ident field.name :: rest) ∧ FieldTail list rest
  | fieldName list, kinds => ∃ name rest, kinds = .ident name :: rest ∧ FieldTail list rest
  | separator list, kinds => FieldTail list kinds
  | ending, kinds => kinds = [.eof]
  | done, kinds => kinds = []

/-! ### Parts that are absent -/

section Absent

variable {kinds : List TokenKind}

theorem Definitions.attributes (h : Definitions kinds) : Attributes kinds :=
  ⟨[], kinds, rfl, h⟩

theorem Attributes.variants (h : Attributes kinds) : Variants kinds :=
  ⟨[], kinds, rfl, h⟩

theorem Variants.fields (h : Variants kinds) : Fields kinds :=
  ⟨[], kinds, rfl, h⟩

/-- Behind each part the rest of its definition may be absent. -/
theorem Definitions.rest (h : Definitions kinds) (part : Part) : part.Rest kinds := by
  cases part with
  | variantName => exact h.attributes.variants.fields
  | variant => exact h.attributes.variants
  | fields => exact h.attributes
  | whole => exact h

/-- Attributes may stand behind each part of a definition that can miss them. -/
theorem rest_of_attributes (h : Attributes kinds) {part : Part} (hpart : part ≠ .whole) :
    part.Rest kinds := by
  cases part with
  | variantName => exact h.variants.fields
  | variant => exact h.variants
  | fields => exact h
  | whole => exact absurd rfl hpart

end Absent

/-! ### One kind more in front -/

namespace State

variable {state next : State} {kind : TokenKind} {kinds : List TokenKind}

theorem Rest.definition {name : String} (h : Assigned kinds) (part : Part) :
    (behind part).Rest (.ident name :: kinds) := by
  obtain ⟨content, rest, hparts, rfl, definitions, hall, rfl⟩ := h
  refine Definitions.rest ⟨⟨name, content⟩ :: definitions, ?_, ?_⟩ part
  · exact List.forall_mem_cons.mpr ⟨hparts, hall⟩
  · rw [List.flatMap_cons, List.append_assoc]
    rfl

/-- The word `attributes` behind a part may be the keyword or the name of a definition. -/
theorem Rest.attributes_word {part : Part} (hpart : part ≠ .whole)
    (h : attributesOrEquals.Rest kinds) : (behind part).Rest (.ident "attributes" :: kinds) := by
  rcases h with hassigned | ⟨attributes, rest, hne, rfl, hdefinitions⟩
  · exact Rest.definition hassigned part
  · refine rest_of_attributes ⟨attributes, rest, ?_, hdefinitions⟩ hpart
    rw [attributeKinds, if_neg hne]
    rfl

theorem Rest.behind_openParen (h : (fieldType .variant).Rest kinds) :
    (behind .variantName).Rest (.openParen :: kinds) := by
  obtain ⟨field, _, rfl, fields, rest, rfl, hrest⟩ := h
  refine ⟨field :: fields, rest, ?_, hrest⟩
  rw [if_neg (List.cons_ne_nil _ _), fieldListKinds, fieldItemKinds_eq, List.cons_append,
    List.append_assoc]

theorem Rest.behind_pipe (h : variant.Rest kinds) :
    (behind .variant).Rest (.pipe :: kinds) := by
  obtain ⟨other, _, rfl, variants, rest, rfl, hrest⟩ := h
  refine ⟨other :: variants, rest, ?_, hrest⟩
  rw [List.flatMap_cons, List.append_assoc]
  rfl

theorem Rest.body_ident {name : String} (h : (behind .variantName).Rest kinds) :
    body.Rest (.ident name :: kinds) := by
  obtain ⟨fields, _, rfl, variants, _, rfl, attributes, rest, rfl, hrest⟩ := h
  refine ⟨.sum ⟨⟨name, fields⟩ :: variants, attributes⟩, rest, List.cons_ne_nil _ _, ?_, hrest⟩
  simp only [Body.kinds, variantKinds_eq, Constructor.kinds, List.cons_append, List.append_assoc]

theorem Rest.body_openParen (h : (fieldType .fields).Rest kinds) :
    body.Rest (.openParen :: kinds) := by
  obtain ⟨field, _, rfl, fields, _, rfl, attributes, rest, rfl, hrest⟩ := h
  refine ⟨.product ⟨field :: fields, attributes⟩, rest, List.cons_ne_nil _ _, ?_, hrest⟩
  simp only [Body.kinds, fieldListKinds, fieldItemKinds_eq, List.cons_append, List.append_assoc]

theorem Rest.variant_ident {name : String} (h : (behind .variantName).Rest kinds) :
    variant.Rest (.ident name :: kinds) := by
  obtain ⟨fields, rest, rfl, hrest⟩ := h
  exact ⟨⟨name, fields⟩, rest, rfl, hrest⟩

theorem Rest.attributes_openParen (h : (fieldType .whole).Rest kinds) :
    attributesOrEquals.Rest (.openParen :: kinds) := by
  obtain ⟨field, _, rfl, fields, rest, rfl, hrest⟩ := h
  refine Or.inr ⟨field :: fields, rest, List.cons_ne_nil _ _, ?_, hrest⟩
  rw [fieldListKinds, fieldItemKinds_eq, List.cons_append, List.append_assoc]

/-- A field is a type, a star, a question mark or nothing, and a name. -/
theorem Rest.fieldType_ident {list : Part} {typeName : String} (h : (mark list).Rest kinds) :
    (fieldType list).Rest (.ident typeName :: kinds) := by
  obtain ⟨field, rest, rfl, htail⟩ := h
  refine ⟨{ field with typeName }, rest, ?_, htail⟩
  rw [Field.kinds, List.cons_append, List.append_assoc]
  rfl

theorem Rest.mark_mark {list : Part} (hkind : kind = .star ∨ kind = .question)
    (h : (fieldName list).Rest kinds) : (mark list).Rest (kind :: kinds) := by
  obtain ⟨name, rest, rfl, htail⟩ := h
  rcases hkind with rfl | rfl
  · exact ⟨⟨name, "", true, false⟩, rest, rfl, htail⟩
  · exact ⟨⟨name, "", false, true⟩, rest, rfl, htail⟩

theorem Rest.separator_comma {list : Part} (h : (fieldType list).Rest kinds) :
    (separator list).Rest (.comma :: kinds) := by
  obtain ⟨field, _, rfl, fields, rest, rfl, hrest⟩ := h
  refine ⟨field :: fields, rest, ?_, hrest⟩
  rw [fieldTailKinds_cons, fieldItemKinds_eq, List.cons_append, List.append_assoc]

/-- A kind that may stand at a place makes one more of what may stand behind it. -/
theorem Rest.of_step (h : state.step kind = some next) (hrest : next.Rest kinds) :
    state.Rest (kind :: kinds) := by
  revert h
  -- one case for each line of the automaton, in its order
  fun_cases step state kind with
  | case1 =>
    rintro ⟨⟩
    obtain ⟨name, _, rfl, definitions, hall, rfl⟩ := hrest
    refine ⟨⟨name, definitions⟩, hall, ?_⟩
    simp only [Schema.kinds, List.cons_append, List.append_assoc, List.nil_append]
  | case2 => exact nofun
  | case3 name =>
    rintro ⟨⟩
    obtain ⟨rest, rfl, hdefinitions⟩ := hrest
    exact ⟨name, rest, rfl, hdefinitions⟩
  | case4 => rintro ⟨⟩; exact ⟨kinds, rfl, hrest⟩
  | case5 part name hword =>
    obtain ⟨rfl, hpart⟩ := hword
    rintro ⟨⟩
    exact Rest.attributes_word hpart hrest
  | case6 part name hword => rintro ⟨⟩; exact Rest.definition hrest part
  | case7 => rintro ⟨⟩; exact Rest.behind_openParen hrest
  | case8 => rintro ⟨⟩; exact Variants.fields (Rest.behind_pipe hrest)
  | case9 => rintro ⟨⟩; exact Rest.behind_pipe hrest
  | case10 part =>
    rintro ⟨⟩
    rw [show kinds = [.eof] from hrest]
    exact Definitions.rest ⟨[], nofun, rfl⟩ part
  | case11 => rintro ⟨⟩; exact hrest
  | case12 => rintro ⟨⟩; exact Or.inl hrest
  | case13 => rintro ⟨⟩; exact Rest.attributes_openParen hrest
  | case14 => rintro ⟨⟩; exact Rest.body_openParen hrest
  | case15 => rintro ⟨⟩; exact Rest.body_ident hrest
  | case16 => rintro ⟨⟩; exact Rest.variant_ident hrest
  | case17 => rintro ⟨⟩; exact Rest.fieldType_ident hrest
  | case18 => rintro ⟨⟩; exact Rest.mark_mark (Or.inl rfl) hrest
  | case19 => rintro ⟨⟩; exact Rest.mark_mark (Or.inr rfl) hrest
  | case20 list name => rintro ⟨⟩; exact ⟨⟨name, "", false, false⟩, kinds, rfl, hrest⟩
  | case21 list name => rintro ⟨⟩; exact ⟨name, kinds, rfl, hrest⟩
  | case22 => rintro ⟨⟩; exact Rest.separator_comma hrest
  | case23 => rintro ⟨⟩; exact ⟨[], kinds, rfl, hrest⟩
  | case24 => rintro ⟨⟩; rw [show kinds = [] from hrest]; rfl
  | case25 => exact nofun

theorem Rest.of_run (h : state.run kinds = some done) : state.Rest kinds := by
  induction kinds generalizing state with
  | nil => cases h; rfl
  | cons kind kinds ih =>
    obtain ⟨next, hstep, hrun⟩ := run_cons_eq_some_iff.mp h
    exact Rest.of_step hstep (ih hrun)

/-- From each place there is a way to the end. -/
theorem exists_run_done (state : State) : ∃ kinds, state.run kinds = some done := by
  cases state with
  | start => exact ⟨[.ident "module", .ident "x", .openBrace, .closeBrace, .eof], rfl⟩
  | moduleName => exact ⟨[.ident "x", .openBrace, .closeBrace, .eof], rfl⟩
  | openBrace => exact ⟨[.openBrace, .closeBrace, .eof], rfl⟩
  | behind part => exact ⟨[.closeBrace, .eof], by cases part <;> rfl⟩
  | equals => exact ⟨[.equals, .ident "x", .closeBrace, .eof], rfl⟩
  | body => exact ⟨[.ident "x", .closeBrace, .eof], rfl⟩
  | variant => exact ⟨[.ident "x", .closeBrace, .eof], rfl⟩
  | attributesOrEquals => exact ⟨[.equals, .ident "x", .closeBrace, .eof], rfl⟩
  | fieldType list =>
    exact ⟨[.ident "x", .ident "x", .closeParen, .closeBrace, .eof], by cases list <;> rfl⟩
  | mark list => exact ⟨[.ident "x", .closeParen, .closeBrace, .eof], by cases list <;> rfl⟩
  | fieldName list => exact ⟨[.ident "x", .closeParen, .closeBrace, .eof], by cases list <;> rfl⟩
  | separator list => exact ⟨[.closeParen, .closeBrace, .eof], by cases list <;> rfl⟩
  | ending => exact ⟨[.eof], rfl⟩
  | done => exact ⟨[], rfl⟩

end State

/-! ## The automaton is the grammar -/

section Viability

open State

variable {kinds : List TokenKind}

/-- **The automaton ends on exactly the modules.** -/
theorem sentence_iff : Sentence kinds ↔ start.run kinds = some done := by
  constructor
  · rintro ⟨schema, hall, rfl⟩
    exact run_append_of_run (run_schema hall)
  · exact fun h => Rest.of_run h

/-- **The automaton goes on for as long as a module can begin so.** -/
theorem viable_iff : Viable kinds ↔ ∃ state, start.run kinds = some state := by
  constructor
  · rintro ⟨more, hsentence⟩
    rw [sentence_iff, run_append, Option.bind_eq_some_iff] at hsentence
    obtain ⟨state, hrun, -⟩ := hsentence
    exact ⟨state, hrun⟩
  · rintro ⟨state, hrun⟩
    obtain ⟨more, hmore⟩ := exists_run_done state
    exact ⟨more, sentence_iff.mpr ((run_append_of_run hrun).trans hmore)⟩

instance : Decidable (Viable kinds) :=
  decidable_of_iff ((start.run kinds).isSome = true)
    (Option.isSome_iff_exists.trans viable_iff.symm)

theorem viable_of_run {state : State} (h : start.run kinds = some state) : Viable kinds :=
  viable_iff.mpr ⟨state, h⟩

/-- A kind that may not stand at a place leaves no module to go on with. -/
theorem not_viable_of_step {state : State} {kind : TokenKind} (h : start.run kinds = some state)
    (hstep : state.step kind = none) : ¬ Viable (kinds ++ [kind]) := by
  rintro hviable
  obtain ⟨next, hrun⟩ := viable_iff.mp hviable
  rw [run_append_of_run h, run, hstep] at hrun
  cases hrun

/-- Behind a right-hand side the word `attributes` may begin a definition or a list. -/
example : Viable [.ident "module", .ident "m", .openBrace, .ident "t", .equals, .ident "A",
    .ident "attributes", .equals] := by
  decide

end Viability

end Notation

end ReaderGen
