import ReaderGen.Proofs.Notation.Exact
import ReaderGen.Proofs.Notation.Tokens
import ReaderGen.Text

/-!
# ReaderGen.Proofs.Notation.Names -- the names of a schema that was read

The notation writes every name of a schema as a token of its own. A source that can be read
is a writing, and a writing holds identifiers only, so **the names of a schema that was read
are identifiers**: they hold no blank and no bracket.
-/

namespace ReaderGen

open Notation

/-! ## Names -/

/-- The names that a right-hand side gives: constructors, fields and attributes. -/
def Body.names : Body → List String
  | .sum choice =>
    (choice.variants.flatMap fun variant => variant.name :: variant.fields.map Field.name) ++
      choice.attributes.map Field.name
  | .product record => record.fields.map Field.name ++ record.attributes.map Field.name

/-- The names that a definition gives. -/
def Definition.names (definition : Definition) : List String :=
  definition.name :: definition.body.names

/-- The names that a schema gives: types, constructors, fields and attributes. -/
def Schema.names (schema : Schema) : List String := schema.types.flatMap Definition.names

/-- No name is more than `limit` bytes wide. -/
def Schema.NamesWithin (schema : Schema) (limit : Nat) : Prop :=
  ∀ name ∈ schema.names, Text.width name.toList ≤ limit

instance (schema : Schema) (limit : Nat) : Decidable (schema.NamesWithin limit) :=
  inferInstanceAs (Decidable (∀ name ∈ schema.names, _))

/-! ## Every name is a token -/

theorem mem_intercalate {α : Type} {separator part : List α} {parts : List (List α)} {x : α}
    (hpart : part ∈ parts) (hx : x ∈ part) : x ∈ separator.intercalate parts := by
  induction parts with
  | nil => cases hpart
  | cons first rest ih =>
    cases rest with
    | nil =>
      rw [List.mem_singleton] at hpart
      rw [List.intercalate_singleton, ← hpart]
      exact hx
    | cons next others =>
      rw [List.intercalate_cons_cons, List.mem_append, List.mem_append]
      rcases List.mem_cons.mp hpart with rfl | hlater
      · exact Or.inl (Or.inl hx)
      · exact Or.inr (ih hlater)

theorem Field.kinds_subset {fields : List Field} {field : Field} (h : field ∈ fields) :
    field.kinds ⊆ fieldListKinds fields := by
  intro kind hkind
  exact List.mem_cons_of_mem _
    (List.mem_append_left _ (mem_intercalate (List.mem_map_of_mem h) hkind))

theorem Field.kinds_subset_attributes {attributes : List Field} {field : Field}
    (h : field ∈ attributes) : field.kinds ⊆ attributeKinds attributes := by
  rw [attributeKinds, if_neg (List.ne_nil_of_mem h)]
  exact List.subset_cons_of_subset _ (Field.kinds_subset h)

theorem Constructor.kinds_subset {variants : List Constructor} {variant : Constructor}
    (h : variant ∈ variants) : variant.kinds ⊆ variantKinds variants :=
  fun _ hkind => mem_intercalate (List.mem_map_of_mem h) hkind

theorem Field.kinds_subset_variant {variant : Constructor} {field : Field}
    (h : field ∈ variant.fields) : field.kinds ⊆ variant.kinds := by
  rw [Constructor.kinds, if_neg (List.ne_nil_of_mem h)]
  exact List.subset_cons_of_subset _ (Field.kinds_subset h)

theorem Definition.kinds_subset {schema : Schema} {definition : Definition}
    (h : definition ∈ schema.types) : definition.kinds ⊆ schema.kinds := by
  intro kind hkind
  have hflat : kind ∈ schema.types.flatMap Definition.kinds :=
    List.mem_flatMap.mpr ⟨definition, h, hkind⟩
  exact List.mem_cons_of_mem _ (List.mem_cons_of_mem _ (List.mem_cons_of_mem _
    (List.mem_append_left _ hflat)))

theorem Definition.body_kinds_subset (definition : Definition) :
    definition.body.kinds ⊆ definition.kinds :=
  List.subset_cons_of_subset _ (List.subset_cons_self ..)

theorem ident_name_mem_kinds (field : Field) : .ident field.name ∈ field.kinds := by
  simp [Field.kinds]

theorem ident_mem_bodyKinds {body : Body} {name : String} (h : name ∈ body.names) :
    .ident name ∈ body.kinds := by
  have hattribute : ∀ {attributes : List Field}, name ∈ attributes.map Field.name →
      .ident name ∈ attributeKinds attributes := by
    intro attributes hname
    obtain ⟨field, hfield, rfl⟩ := List.mem_map.mp hname
    exact Field.kinds_subset_attributes hfield (ident_name_mem_kinds field)
  cases body with
  | sum choice =>
    rcases List.mem_append.mp h with hvariant | hname
    · obtain ⟨variant, hmem, hname⟩ := List.mem_flatMap.mp hvariant
      refine List.mem_append_left _ (Constructor.kinds_subset hmem ?_)
      rcases List.mem_cons.mp hname with rfl | hin
      · exact List.mem_cons_self ..
      · obtain ⟨field, hfield, rfl⟩ := List.mem_map.mp hin
        exact Field.kinds_subset_variant hfield (ident_name_mem_kinds field)
    · exact List.mem_append_right _ (hattribute hname)
  | product record =>
    rcases List.mem_append.mp h with hin | hname
    · obtain ⟨field, hfield, rfl⟩ := List.mem_map.mp hin
      exact List.mem_append_left _ (Field.kinds_subset hfield (ident_name_mem_kinds field))
    · exact List.mem_append_right _ (hattribute hname)

theorem ident_mem_kinds {schema : Schema} {name : String} (h : name ∈ schema.names) :
    .ident name ∈ schema.kinds := by
  obtain ⟨definition, hdefinition, hname⟩ := List.mem_flatMap.mp h
  refine definition.kinds_subset hdefinition ?_
  rcases List.mem_cons.mp hname with rfl | hbody
  · exact List.mem_cons_self ..
  · exact definition.body_kinds_subset (ident_mem_bodyKinds hbody)

/-! ## Every token can be written -/

namespace Notation

theorem Words.writable {tail : Bool → List Char → Prop} {glued : Bool} {kinds : List TokenKind}
    {cs : List Char} (h : Words tail glued kinds cs) : ∀ kind ∈ kinds, kind.Writable := by
  induction h with
  | tail _ => exact fun _ hmem => absurd hmem List.not_mem_nil
  | word _ hkind _ _ ih => exact List.forall_mem_cons.mpr ⟨hkind, ih⟩

/-- The kinds of a source that has tokens can be written, as the source writes them. -/
theorem writable_of_tokenize {source : String} {tokens : List Token} {kinds : List TokenKind}
    (h : tokenize source = .ok tokens) (hkinds : tokens.map Token.kind = kinds ++ [.eof]) :
    ∀ kind ∈ kinds, kind.Writable := by
  rcases writtenOrStuck source.toList false (fun h => absurd h Bool.false_ne_true) with
    ⟨written, hwords⟩ | ⟨front, ch, rest, written, hsource, hwords, hstray⟩
  · obtain ⟨found, hfound, hsame⟩ := Cursor.tokens_of_words hwords Position.start
    have hok : tokenize source = .ok found := hfound
    rw [h] at hok
    cases hok
    rw [hkinds] at hsame
    rw [List.append_cancel_right hsame]
    exact hwords.writable
  · have hstuck := Cursor.tokens_of_stuck ⟨⟨written, hwords⟩, hstray⟩ Position.start
    rw [tokenize, Cursor.ofSource, hsource, hstuck] at h
    cases h

/-- What is read from a source is read from its tokens. -/
theorem parseModule_of_parse {source : String} {schema : Schema}
    (h : parse source = .ok schema) :
    ∃ tokens, tokenize source = .ok tokens ∧ parseModule tokens = .ok schema := by
  rw [parse] at h
  cases htokens : tokenize source with
  | error fault =>
    rw [htokens] at h
    cases h
  | ok tokens =>
    rw [htokens] at h
    exact ⟨tokens, rfl, h⟩

/-- **A schema that was read is well formed.** -/
theorem wellFormed_of_parse {source : String} {schema : Schema}
    (h : parse source = .ok schema) : schema.WellFormed := by
  obtain ⟨tokens, -, hmodule⟩ := parseModule_of_parse h
  exact (parseModule_eq_ok_iff.mp hmodule).2

/-- What the notation of a schema that was read writes as an identifier is one. -/
theorem identifier_of_kinds {source : String} {schema : Schema}
    (h : parse source = .ok schema) {name : String} (hname : .ident name ∈ schema.kinds) :
    Identifier name.toList := by
  obtain ⟨tokens, htokens, hmodule⟩ := parseModule_of_parse h
  have hkinds := (reads_tokenize_iff htokens).mp (parseModule_eq_ok_iff.mp hmodule).1
  exact writable_of_tokenize htokens hkinds _ hname

/-- **The names of a schema that was read are identifiers.** -/
theorem identifier_of_parse {source : String} {schema : Schema}
    (h : parse source = .ok schema) {name : String} (hname : name ∈ schema.names) :
    Identifier name.toList :=
  identifier_of_kinds h (ident_mem_kinds hname)

/-- A source with the kinds of a well-formed schema is read as that schema. -/
theorem parse_of_kinds {source : String} {schema : Schema}
    (hkinds : (tokenize source).map (List.map Token.kind) = .ok (schema.kinds ++ [.eof]))
    (hwf : schema.WellFormed) : parse source = .ok schema := by
  rw [parse]
  cases htokens : tokenize source with
  | error fault =>
    rw [htokens] at hkinds
    cases hkinds
  | ok tokens =>
    rw [htokens] at hkinds
    have hsame : tokens.map Token.kind = schema.kinds ++ [.eof] := Except.ok.inj hkinds
    exact parseModule_eq_ok_iff.mpr ⟨(reads_tokenize_iff htokens).mpr hsame, hwf⟩

/-- An identifier holds no other character than the rest of an identifier may. -/
theorem Identifier.not_mem {cs : List Char} (h : Identifier cs) {c : Char}
    (hc : isIdentRest c = false) : c ∉ cs := by
  intro hmem
  have hrest : isIdentRest c = true := by
    obtain ⟨hfirst, htail⟩ := h
    rw [isIdentRest_iff]
    rcases List.mem_cons.mp hmem with rfl | hin
    · rcases hfirst with hletter | hunder
      · exact Or.inl hletter
      · exact Or.inr (Or.inr hunder)
    · exact htail c hin
  rw [hc] at hrest
  cases hrest

end Notation

end ReaderGen
