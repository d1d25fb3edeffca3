import ReaderGen.Notation.Parser
import Mathlib.Data.List.Nodup

/-!
# ReaderGen.Proofs.Notation.Grammar -- the tokens that a schema is written with

Every schema has one list of token kinds that the grammar writes it with
(`Schema.kinds`). Optional parts that are absent write nothing: a constructor without
fields has no parentheses, and an empty attribute list has no keyword. **Only some
schemas can be read back** (`Schema.WellFormed`): an empty product, an empty sum, a
field with both marks and a repeated name have no notation.

The second half is about runs of tokens: `Reads kinds tokens rest` cuts a run of the
given kinds off the front, and `Closed rest` says that what stands next can not belong
to the definition before it.
-/

namespace ReaderGen

open Notation

/-! ## The kinds of the parts -/

/-- The mark of a field, a star before a question mark. -/
def Field.markKinds (field : Field) : List TokenKind :=
  if field.isSequence then [.star]
  else if field.isOptional then [.question]
  else []

/-- A field: type, mark, name. -/
def Field.kinds (field : Field) : List TokenKind :=
  .ident field.typeName :: (field.markKinds ++ [.ident field.name])

/-- Fields with commas between them, up to the closing parenthesis. -/
def fieldItemKinds (fields : List Field) : List TokenKind :=
  [TokenKind.comma].intercalate (fields.map Field.kinds) ++ [.closeParen]

/-- A field list in its parentheses. -/
def fieldListKinds (fields : List Field) : List TokenKind :=
  .openParen :: fieldItemKinds fields

/-- An attribute list behind its keyword; an empty one writes nothing. -/
def attributeKinds (attributes : List Field) : List TokenKind :=
  if attributes = [] then [] else .ident "attributes" :: fieldListKinds attributes

/-- A constructor; without fields it is a bare name. -/
def Constructor.kinds (variant : Constructor) : List TokenKind :=
  .ident variant.name :: if variant.fields = [] then [] else fieldListKinds variant.fields

/-- Constructors with pipes between them. -/
def variantKinds (variants : List Constructor) : List TokenKind :=
  [TokenKind.pipe].intercalate (variants.map Constructor.kinds)

/-- The right-hand side of a definition. -/
def Body.kinds : Body → List TokenKind
  | .sum choice => variantKinds choice.variants ++ attributeKinds choice.attributes
  | .product record => fieldListKinds record.fields ++ attributeKinds record.attributes

/-- A definition. -/
def Definition.kinds (definition : Definition) : List TokenKind :=
  .ident definition.name :: .equals :: definition.body.kinds

/-- A whole module, without the end of the source. -/
def Schema.kinds (schema : Schema) : List TokenKind :=
  .ident "module" :: .ident schema.name :: .openBrace ::
    (schema.types.flatMap Definition.kinds ++ [.closeBrace])

/-- The word `attributes` as a type, as a constructor and as a keyword. -/
example : (⟨"attributes", .sum ⟨[⟨"attributes", []⟩], [⟨"x", "int", false, true⟩]⟩⟩ :
      Definition).kinds =
    [.ident "attributes", .equals, .ident "attributes", .ident "attributes", .openParen,
      .ident "int", .question, .ident "x", .closeParen] :=
  rfl

/-! ## Schemas that can be read back -/

/-- A field carries at most one mark. -/
def Field.OneMark (field : Field) : Prop :=
  ¬ (field.isSequence = true ∧ field.isOptional = true)

instance (field : Field) : Decidable field.OneMark := inferInstanceAs (Decidable (¬ _))

/-- Within one list the names differ. -/
structure FieldsWellFormed (fields : List Field) : Prop where
  distinct : (fields.map Field.name).Nodup
  one_mark : ∀ field ∈ fields, field.OneMark

instance (fields : List Field) : Decidable (FieldsWellFormed fields) :=
  decidable_of_iff ((fields.map Field.name).Nodup ∧ ∀ field ∈ fields, field.OneMark)
    ⟨fun h => ⟨h.1, h.2⟩, fun h => ⟨h.distinct, h.one_mark⟩⟩

/-- A right-hand side has at least one constructor or one field. -/
inductive Body.WellFormed : Body → Prop
  | sum {sum : Sum} : sum.variants ≠ [] →
      (∀ variant ∈ sum.variants, FieldsWellFormed variant.fields) →
      FieldsWellFormed sum.attributes → Body.WellFormed (.sum sum)
  | product {product : Product} : product.fields ≠ [] → FieldsWellFormed product.fields →
      FieldsWellFormed product.attributes → Body.WellFormed (.product product)

instance : (body : Body) → Decidable body.WellFormed
  | .sum sum =>
    decidable_of_iff (sum.variants ≠ [] ∧
        (∀ variant ∈ sum.variants, FieldsWellFormed variant.fields) ∧
        FieldsWellFormed sum.attributes)
      ⟨fun h => .sum h.1 h.2.1 h.2.2,
        fun | .sum hne hvariants hattributes => ⟨hne, hvariants, hattributes⟩⟩
  | .product product =>
    decidable_of_iff (product.fields ≠ [] ∧ FieldsWellFormed product.fields ∧
        FieldsWellFormed product.attributes)
      ⟨fun h => .product h.1 h.2.1 h.2.2,
        fun | .product hne hfields hattributes => ⟨hne, hfields, hattributes⟩⟩

/-- Definitions have different names, and each has a notation. -/
structure Schema.WellFormed (schema : Schema) : Prop where
  distinct : (schema.types.map Definition.name).Nodup
  bodies : ∀ definition ∈ schema.types, definition.body.WellFormed

instance (schema : Schema) : Decidable schema.WellFormed :=
  decidable_of_iff ((schema.types.map Definition.name).Nodup ∧
      ∀ definition ∈ schema.types, definition.body.WellFormed)
    ⟨fun h => ⟨h.1, h.2⟩, fun h => ⟨h.distinct, h.bodies⟩⟩

theorem fieldsWellFormed_nil : FieldsWellFormed [] where
  distinct := List.nodup_nil
  one_mark := fun _ hmem => absurd hmem List.not_mem_nil

/-! ## Separated lists -/

theorem intercalate_map_cons {α β : Type} {separator : List β} {f : α → List β} {x : α}
    {xs : List α} (h : xs ≠ []) :
    separator.intercalate ((x :: xs).map f) =
      f x ++ (separator ++ separator.intercalate (xs.map f)) := by
  rw [List.map_cons, List.intercalate_cons_of_ne_nil (by rwa [ne_eq, List.map_eq_nil_iff]),
    List.append_assoc]

theorem fieldItemKinds_singleton {field : Field} :
    fieldItemKinds [field] = field.kinds ++ [.closeParen] := by
  rw [fieldItemKinds, List.map_singleton, List.intercalate_singleton]

theorem fieldItemKinds_cons {field : Field} {fields : List Field} (h : fields ≠ []) :
    fieldItemKinds (field :: fields) = field.kinds ++ (.comma :: fieldItemKinds fields) := by
  rw [fieldItemKinds, intercalate_map_cons h, fieldItemKinds]
  simp only [List.append_assoc, List.cons_append, List.nil_append]

theorem variantKinds_singleton {variant : Constructor} :
    variantKinds [variant] = variant.kinds := by
  rw [variantKinds, List.map_singleton, List.intercalate_singleton]

theorem variantKinds_cons {variant : Constructor} {variants : List Constructor}
    (h : variants ≠ []) :
    variantKinds (variant :: variants) = variant.kinds ++ (.pipe :: variantKinds variants) := by
  rw [variantKinds, intercalate_map_cons h]
  rfl

namespace Notation

/-! ## Runs of tokens -/

/-- `tokens` starts with a run of these kinds, and `rest` stands behind it. -/
def Reads (kinds : List TokenKind) (tokens rest : List Token) : Prop :=
  ∃ run, tokens = run ++ rest ∧ run.map Token.kind = kinds

section Runs

variable {kind : TokenKind} {kinds more : List TokenKind} {tokens rest : List Token}

theorem reads_nil_iff : Reads [] tokens rest ↔ tokens = rest := by
  constructor
  · rintro ⟨run, rfl, hkinds⟩
    rw [List.map_eq_nil_iff.mp hkinds, List.nil_append]
  · rintro rfl
    exact ⟨[], rfl, rfl⟩

theorem reads_cons_iff :
    Reads (kind :: kinds) tokens rest ↔
      ∃ position after, tokens = ⟨kind, position⟩ :: after ∧ Reads kinds after rest := by
  constructor
  · rintro ⟨run, rfl, hkinds⟩
    obtain ⟨token, run, rfl, rfl, rfl⟩ := List.map_eq_cons_iff.mp hkinds
    exact ⟨token.position, run ++ rest, rfl, run, rfl, rfl⟩
  · rintro ⟨position, after, rfl, run, rfl, rfl⟩
    exact ⟨⟨kind, position⟩ :: run, rfl, rfl⟩

theorem reads_singleton_iff :
    Reads [kind] tokens rest ↔ ∃ position, tokens = ⟨kind, position⟩ :: rest := by
  rw [reads_cons_iff]
  constructor
  · rintro ⟨position, after, rfl, hnil⟩
    exact ⟨position, by rw [reads_nil_iff.mp hnil]⟩
  · rintro ⟨position, rfl⟩
    exact ⟨position, rest, rfl, reads_nil_iff.mpr rfl⟩

theorem reads_append_iff :
    Reads (kinds ++ more) tokens rest ↔
      ∃ middle, Reads kinds tokens middle ∧ Reads more middle rest := by
  constructor
  · rintro ⟨run, rfl, hkinds⟩
    obtain ⟨front, back, rfl, hfront, hback⟩ := List.map_eq_append_iff.mp hkinds
    exact ⟨back ++ rest, ⟨front, List.append_assoc .., hfront⟩, ⟨back, rfl, hback⟩⟩
  · rintro ⟨middle, ⟨front, rfl, rfl⟩, ⟨back, rfl, rfl⟩⟩
    exact ⟨front ++ back, (List.append_assoc ..).symm, List.map_append⟩

theorem Reads.append {middle : List Token} (hfront : Reads kinds tokens middle)
    (hback : Reads more middle rest) : Reads (kinds ++ more) tokens rest :=
  reads_append_iff.mpr ⟨middle, hfront, hback⟩

theorem Reads.cons {position : Position} (h : Reads kinds tokens rest) :
    Reads (kind :: kinds) (⟨kind, position⟩ :: tokens) rest :=
  reads_cons_iff.mpr ⟨position, tokens, rfl, h⟩

/-- The kind in front of a run is the first of its kinds. -/
theorem Reads.current_kind (h : Reads (kind :: kinds) tokens rest) :
    (current tokens).kind = kind := by
  obtain ⟨position, after, rfl, -⟩ := reads_cons_iff.mp h
  rfl

end Runs

/-! ## What may stand behind a definition -/

/-- The word `attributes` stands in front as a keyword. -/
def AttributesAhead (tokens : List Token) : Prop :=
  ∃ after, Reads [.ident "attributes", .openParen] tokens after

/-- What stands next belongs to no definition before it. -/
structure Closed (rest : List Token) : Prop where
  no_fields : (current rest).kind ≠ .openParen
  no_variant : (current rest).kind ≠ .pipe
  no_attributes : ¬ AttributesAhead rest

/-- A closing brace ends the last definition. -/
theorem closed_of_closeBrace {rest : List Token} (h : (current rest).kind = .closeBrace) :
    Closed rest where
  no_fields := by rw [h]; exact nofun
  no_variant := by rw [h]; exact nofun
  no_attributes := by
    rintro ⟨after, hahead⟩
    rw [hahead.current_kind] at h
    cases h

/-- The next definition ends the one before it: its name is followed by an equals sign,
so not even the name `attributes` is a keyword there. -/
theorem closed_of_definition {definition : Definition} {tokens rest : List Token}
    (h : Reads definition.kinds tokens rest) : Closed tokens where
  no_fields := by rw [h.current_kind]; exact nofun
  no_variant := by rw [h.current_kind]; exact nofun
  no_attributes := by
    rintro ⟨after, hahead⟩
    obtain ⟨_, next, rfl, hequals⟩ := reads_cons_iff.mp h
    obtain ⟨_, _, hsame, hparen⟩ := reads_cons_iff.mp hahead
    obtain ⟨-, rfl⟩ := List.cons.inj hsame
    have hkind := hequals.current_kind
    rw [hparen.current_kind] at hkind
    cases hkind

theorem closed_of_definitions {definitions : List Definition} {tokens rest : List Token}
    (h : Reads (definitions.flatMap Definition.kinds) tokens rest)
    (hbrace : (current rest).kind = .closeBrace) : Closed tokens := by
  cases definitions with
  | nil =>
    rw [reads_nil_iff.mp h]
    exact closed_of_closeBrace hbrace
  | cons definition definitions =>
    rw [List.flatMap_cons] at h
    obtain ⟨middle, hdefinition, -⟩ := reads_append_iff.mp h
    exact closed_of_definition hdefinition

end Notation

end ReaderGen
