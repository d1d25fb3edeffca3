import ReaderGen.Generate
import ReaderGen.Proofs.Layout.Exact

/-!
# ReaderGen.Proofs.Layout.Faults -- every fault of a schema, and the one that is reported

This module lists the faults of a schema without a builder (`faults`): the repeated names
of the whole schema in front, and then, definition by definition, too many constructors,
the attributes that are not builtin, and the faulty fields. A field with both marks comes
before its own unknown type. A field belongs to its constructor in a sum and to the type
in a product.

**The builder reports the first fault of the list, and succeeds exactly on a schema without
faults** (`layoutOf_exact`). Each of its functions has one lemma here, an equation between
its outcome and the verdict on its part of the list; an outcome never depends on what has
been built before, nor on the encoding.
-/

namespace ReaderGen

/-! ## What a definition owns -/

/-- The constructors of a sum; a product has none. -/
def Body.constructors : Body → List Constructor
  | .sum choice => choice.variants
  | .product _ => []

/-- The attributes of a sum or of a product. -/
def Body.attributes : Body → List Field
  | .sum choice => choice.attributes
  | .product record => record.attributes

/-- The fields of a definition in order, each with the name that a fault of it mentions. -/
def Definition.ownedFields (definition : Definition) : List (String × Field) :=
  match definition.body with
  | .sum choice => choice.variants.flatMap fun variant => variant.fields.map (variant.name, ·)
  | .product record => record.fields.map (definition.name, ·)

/-- The type of the field is one of the builtins. -/
def Field.HasBuiltin (field : Field) : Prop :=
  field.typeName ∈ Builtin.all.map Builtin.name

/-- The type of the field is a builtin or a definition of the schema. -/
def Field.HasType (schema : Schema) (field : Field) : Prop :=
  field.HasBuiltin ∨ field.typeName ∈ schema.types.map Definition.name

instance (field : Field) : Decidable field.HasBuiltin :=
  inferInstanceAs (Decidable (_ ∈ _))

instance (schema : Schema) (field : Field) : Decidable (field.HasType schema) :=
  inferInstanceAs (Decidable (_ ∨ _))

/-- A schema that has a layout: names differ, a sum has at most 255 constructors, attributes
are builtin, and every field has one mark at most and a type that is known. -/
structure Schema.Valid (schema : Schema) : Prop where
  distinct : (schema.types.map Definition.name).Nodup
  constructors : ∀ definition ∈ schema.types, definition.body.constructors.length ≤ 255
  attributes : ∀ definition ∈ schema.types, ∀ field ∈ definition.body.attributes, field.HasBuiltin
  one_mark : ∀ definition ∈ schema.types, ∀ owned ∈ definition.ownedFields,
    ¬ (owned.2.isSequence = true ∧ owned.2.isOptional = true)
  known : ∀ definition ∈ schema.types, ∀ owned ∈ definition.ownedFields, owned.2.HasType schema

theorem Field.hasBuiltin_iff (field : Field) :
    field.HasBuiltin ↔ field.builtin?.isSome = true := by
  rw [Option.isSome_iff_exists, HasBuiltin, List.mem_map]
  constructor
  · rintro ⟨builtin, -, hname⟩
    exact ⟨builtin, Builtin.ofName?_eq_some_iff.mpr hname⟩
  · rintro ⟨builtin, hsome⟩
    refine ⟨builtin, ?_, Builtin.ofName?_eq_some_iff.mp hsome⟩
    cases builtin <;> decide

namespace Layout

/-! ## All faults, in order -/

/-- The fault, unless the condition holds. -/
def faultUnless (condition : Prop) [Decidable condition] (fault : BuildError) : List BuildError :=
  if condition then [] else [fault]

/-- The definitions whose names have been used before. -/
def repeatedNames (used : List String) : List Definition → List BuildError
  | [] => []
  | definition :: rest =>
    faultUnless (definition.name ∉ used) (.resolve (.duplicateType definition.name)) ++
      repeatedNames (used ++ [definition.name]) rest

/-- The fault of an attribute. -/
def attributeFaults (owner : String) (field : Field) : List BuildError :=
  faultUnless field.HasBuiltin (.nonBuiltinAttribute owner field.name field.typeName)

/-- The faults of a field, the marks before the type. -/
def fieldFaults (schema : Schema) (owned : String × Field) : List BuildError :=
  faultUnless (¬ (owned.2.isSequence = true ∧ owned.2.isOptional = true))
      (.optionalSequence owned.1 owned.2.name) ++
    faultUnless (owned.2.HasType schema)
      (.resolve (.unknownType owned.1 owned.2.name owned.2.typeName))

/-- The faults of a definition: the number of constructors, the attributes, the fields. -/
def definitionFaults (schema : Schema) (definition : Definition) : List BuildError :=
  faultUnless (definition.body.constructors.length ≤ 255)
      (.tooManyConstructors definition.name definition.body.constructors.length) ++
    (definition.body.attributes.flatMap (attributeFaults definition.name) ++
      definition.ownedFields.flatMap (fieldFaults schema))

/-- **The faults of a schema**: the repeated names, and then the faults of each definition. -/
def faults (schema : Schema) : List BuildError :=
  repeatedNames [] schema.types ++ schema.types.flatMap (definitionFaults schema)

/-! ## No faults -/

theorem faultUnless_eq_nil_iff {condition : Prop} [Decidable condition] {fault : BuildError} :
    faultUnless condition fault = [] ↔ condition := by
  rw [faultUnless]
  by_cases h : condition
  · simp [h]
  · simp [h]

theorem repeatedNames_eq_nil_iff {used : List String} {definitions : List Definition} :
    repeatedNames used definitions = [] ↔
      (definitions.map Definition.name).Nodup ∧
        ∀ definition ∈ definitions, definition.name ∉ used := by
  induction definitions generalizing used with
  | nil => simp [repeatedNames]
  | cons definition rest ih =>
    rw [repeatedNames, List.append_eq_nil_iff, faultUnless_eq_nil_iff, ih, List.map_cons,
      List.nodup_cons, List.forall_mem_cons]
    -- below, the name of the definition counts as used
    have hfresh : (∀ other ∈ rest, other.name ∉ used ++ [definition.name]) ↔
        (∀ other ∈ rest, other.name ∉ used) ∧ definition.name ∉ rest.map Definition.name := by
      simp only [List.mem_append, List.mem_singleton, not_or, List.mem_map]
      grind
    rw [hfresh]
    tauto

theorem faults_eq_nil_iff {schema : Schema} : faults schema = [] ↔ schema.Valid := by
  simp only [faults, definitionFaults, attributeFaults, fieldFaults, List.append_eq_nil_iff,
    List.flatMap_eq_nil_iff, repeatedNames_eq_nil_iff, faultUnless_eq_nil_iff]
  constructor
  · rintro ⟨⟨hdistinct, -⟩, hdefinitions⟩
    exact ⟨hdistinct, fun definition hmem => (hdefinitions definition hmem).1,
      fun definition hmem => (hdefinitions definition hmem).2.1,
      fun definition hmem owned howned => ((hdefinitions definition hmem).2.2 owned howned).1,
      fun definition hmem owned howned => ((hdefinitions definition hmem).2.2 owned howned).2⟩
  · intro hvalid
    refine ⟨⟨hvalid.distinct, fun _ _ => List.not_mem_nil⟩, ?_⟩
    intro definition hmem
    exact ⟨hvalid.constructors definition hmem, hvalid.attributes definition hmem,
      fun owned howned => ⟨hvalid.one_mark definition hmem owned howned,
        hvalid.known definition hmem owned howned⟩⟩

/-! ## Outcomes -/

/-- The first fault of a list, if there is one. -/
def verdict : List BuildError → Except BuildError Unit
  | [] => .ok ()
  | fault :: _ => .error fault

theorem verdict_append (first second : List BuildError) :
    verdict (first ++ second) = (verdict first).bind fun _ => verdict second := by
  cases first <;> rfl

theorem verdict_faultUnless_append (condition : Prop) [Decidable condition] (fault : BuildError)
    (more : List BuildError) :
    verdict (faultUnless condition fault ++ more) =
      if condition then verdict more else .error fault := by
  rw [faultUnless]
  by_cases h : condition
  · simp [h]
  · simp [h, verdict]

theorem verdict_eq_ok_iff {found : List BuildError} : verdict found = .ok () ↔ found = [] := by
  cases found with
  | nil => simp [verdict]
  | cons fault rest => simp [verdict]

theorem verdict_eq_error_iff {found : List BuildError} {fault : BuildError} :
    verdict found = .error fault ↔ found.head? = some fault := by
  cases found with
  | nil => simp [verdict]
  | cons first rest => simp [verdict]

/-- Whether a computation succeeds, and its fault if not. -/
def outcome {α : Type} (result : Except BuildError α) : Except BuildError Unit :=
  result.map fun _ => ()

theorem outcome_eq_ok_iff {α : Type} {result : Except BuildError α} :
    outcome result = .ok () ↔ ∃ value, result = .ok value := by
  cases result with
  | error fault => simp [outcome, Except.map]
  | ok value => simp [outcome, Except.map]

theorem outcome_eq_error_iff {α : Type} {result : Except BuildError α} {fault : BuildError} :
    outcome result = .error fault ↔ result = .error fault := by
  cases result with
  | error fault => simp [outcome, Except.map]
  | ok value => simp [outcome, Except.map]

/-! ## Names -/

theorem insertAll_outcome (entries : List (String × Definition)) (definitions : List Definition) :
    outcome ((TypeTable.insertAll entries definitions).mapError .resolve) =
      verdict (repeatedNames (entries.map Prod.fst) definitions) := by
  induction definitions generalizing entries with
  | nil => rfl
  | cons definition rest ih =>
    have htaken : (entries.lookup definition.name).isSome = true ↔
        definition.name ∈ entries.map Prod.fst := TypeTable.isSome_lookup_iff
    rw [TypeTable.insertAll, repeatedNames, verdict_faultUnless_append]
    by_cases hmem : definition.name ∈ entries.map Prod.fst
    · rw [if_pos (htaken.mpr hmem), if_neg (not_not_intro hmem)]
      rfl
    · have hnext := ih (entries ++ [(definition.name, definition)])
      rw [if_neg (fun h => hmem (htaken.mp h)), if_pos hmem, hnext, List.map_append]
      rfl

/-! ## Attributes and fields -/

theorem attributesOf_outcome (owner : String) (attributes : List Field) :
    outcome (attributesOf owner attributes) =
      verdict (attributes.flatMap (attributeFaults owner)) := by
  induction attributes with
  | nil => rfl
  | cons field rest ih =>
    rw [attributesOf, List.flatMap_cons, attributeFaults, verdict_faultUnless_append]
    cases hbuiltin : field.builtin? with
    | none =>
      have hnone : ¬ field.HasBuiltin := by
        rw [field.hasBuiltin_iff, hbuiltin]
        exact Bool.false_ne_true
      rw [if_neg hnone]
      rfl
    | some builtin =>
      have hsome : field.HasBuiltin := by
        rw [field.hasBuiltin_iff, hbuiltin]
        rfl
      rw [if_pos hsome, ← ih]
      cases attributesOf owner rest <;> rfl

theorem enumerationOf_outcome (name : String) (sum : Sum) :
    outcome (enumerationOf name sum) =
      verdict (faultUnless (sum.variants.length ≤ 255)
        (.tooManyConstructors name sum.variants.length)) := by
  rw [enumerationOf, faultUnless, maxConstructors]
  by_cases hcount : sum.variants.length ≤ 255
  · rw [if_neg (Nat.not_lt.mpr hcount), if_pos hcount]
    rfl
  · rw [if_pos (Nat.lt_of_not_le hcount), if_neg hcount]
    rfl

section Resolved

variable {schema : Schema} {table : TypeTable}

theorem resolve_outcome (htable : TypeTable.ofSchema schema = .ok table) (owner : String)
    (field : Field) :
    outcome ((table.resolve owner field).mapError .resolve) =
      verdict (faultUnless (field.HasType schema)
        (.resolve (.unknownType owner field.name field.typeName))) := by
  rw [TypeTable.resolve, faultUnless]
  cases hbuiltin : field.builtin? with
  | some builtin =>
    have hsome : field.HasBuiltin := by
      rw [field.hasBuiltin_iff, hbuiltin]
      rfl
    have hknown : field.HasType schema := Or.inl hsome
    rw [if_pos hknown]
    rfl
  | none =>
    have hnone : ¬ field.HasBuiltin := by
      rw [field.hasBuiltin_iff, hbuiltin]
      exact Bool.false_ne_true
    cases hget : table.get? field.typeName with
    | none =>
      have hunknown : ¬ field.HasType schema := by
        rintro (h | h)
        · exact hnone h
        · obtain ⟨definition, hmem, hname⟩ := List.mem_map.mp h
          rw [(TypeTable.get?_eq_some_iff htable).mpr ⟨hmem, hname⟩] at hget
          cases hget
      rw [if_neg hunknown]
      rfl
    | some definition =>
      obtain ⟨hmem, hname⟩ := (TypeTable.get?_eq_some_iff htable).mp hget
      have hknown : field.HasType schema := Or.inr (List.mem_map.mpr ⟨definition, hmem, hname⟩)
      rw [if_pos hknown]
      -- an enumeration and a class are values of different kinds, and both are known
      by_cases hclass : definition.shape.isClass = true
      · simp only [hclass, if_true]
        rfl
      · simp only [hclass]
        rfl

theorem accessorOf_outcome (htable : TypeTable.ofSchema schema = .ok table)
    (encoding : Encoding) (owner : String) (field : Field) (offset : UInt32) :
    outcome (accessorOf table encoding owner field offset) =
      verdict (fieldFaults schema (owner, field)) := by
  rw [accessorOf, fieldFaults, verdict_faultUnless_append]
  by_cases hmarks : field.isSequence = true ∧ field.isOptional = true
  · rw [if_pos (by simpa using hmarks), if_neg (not_not_intro hmarks)]
    rfl
  · rw [if_neg (by simpa using hmarks), if_pos hmarks, ← resolve_outcome htable]
    cases table.resolve owner field <;> rfl

/-- **The fields of a class are checked in order**, wherever its slots stand and whatever is
queued. -/
theorem addAccessors_outcome (htable : TypeTable.ofSchema schema = .ok table)
    (encoding : Encoding) (ref : ClassRef) (owner : String) (offset : UInt32)
    (fields : List Field) (parts : Parts) :
    outcome (addAccessors table encoding ref owner offset fields parts).2 =
      verdict ((fields.map (owner, ·)).flatMap (fieldFaults schema)) := by
  induction fields generalizing offset parts with
  | nil => rfl
  | cons field rest ih =>
    have hfield := accessorOf_outcome htable encoding owner field offset
    rw [addAccessors, List.map_cons, List.flatMap_cons, verdict_append, ← hfield]
    cases accessorOf table encoding owner field offset with
    | error fault => rfl
    | ok accessor =>
      -- the next slot stands elsewhere and behind another queue, but its faults are the same
      have hrest := ih (offset + encoding.refWidth) (parts.enqueue ref accessor)
      dsimp only
      rcases hafter : addAccessors table encoding ref owner (offset + encoding.refWidth) rest
        (parts.enqueue ref accessor) with ⟨after, _ | accessors⟩ <;> rw [hafter] at hrest <;>
        exact hrest

theorem addClass_outcome (htable : TypeTable.ofSchema schema = .ok table) (encoding : Encoding)
    (ref : ClassRef) (owner : String) (fields : List Field) (offset : UInt32)
    (attributes : List Attribute) (parts : Parts) :
    (addClass table encoding ref owner fields offset attributes parts).2 =
      verdict ((fields.map (owner, ·)).flatMap (fieldFaults schema)) := by
  rw [← addAccessors_outcome htable encoding ref owner offset fields parts, addClass]
  rcases addAccessors table encoding ref owner offset fields parts with
    ⟨queued, _ | accessors⟩ <;> rfl

theorem addVariants_outcome (htable : TypeTable.ofSchema schema = .ok table)
    (encoding : Encoding) (sumName : String) (variants : List Constructor) (parts : Parts) :
    (addVariants table encoding sumName variants parts).2 =
      verdict ((variants.flatMap fun variant => variant.fields.map (variant.name, ·)).flatMap
        (fieldFaults schema)) := by
  induction variants generalizing parts with
  | nil => rfl
  | cons variant rest ih =>
    rw [addVariants, List.flatMap_cons, List.flatMap_append, verdict_append]
    by_cases hempty : variant.fields.isEmpty = true
    · -- a constructor without fields gets no class and has no faults
      rw [if_pos hempty, ih, List.isEmpty_iff.mp hempty]
      rfl
    · have hclass := addClass_outcome htable encoding (.variant sumName variant.name)
        variant.name variant.fields 1 [] parts
      rw [if_neg hempty, ← hclass]
      rcases addClass table encoding (.variant sumName variant.name) variant.name variant.fields 1
        [] parts with ⟨between, _ | _⟩
      · rfl
      · exact ih between

/-! ## Definitions -/

/-- The faults of a sum: those of its enumeration come first. -/
theorem definitionFaults_sum (name : String) (choice : Sum) :
    definitionFaults schema ⟨name, .sum choice⟩ =
      faultUnless (choice.variants.length ≤ 255)
          (.tooManyConstructors name choice.variants.length) ++
        (choice.attributes.flatMap (attributeFaults name) ++
          (choice.variants.flatMap fun variant =>
            variant.fields.map (variant.name, ·)).flatMap (fieldFaults schema)) := rfl

/-- A product has no constructors to count. -/
theorem definitionFaults_product (name : String) (record : Product) :
    definitionFaults schema ⟨name, .product record⟩ =
      record.attributes.flatMap (attributeFaults name) ++
        (record.fields.map (name, ·)).flatMap (fieldFaults schema) := rfl

theorem addSimpleSum_outcome {name : String} {choice : Sum} (hsimple : choice.isSimple = true)
    (parts : Parts) :
    (addSimpleSum name choice parts).2 = verdict (definitionFaults schema ⟨name, .sum choice⟩) := by
  have hfields : (choice.variants.flatMap fun variant =>
      variant.fields.map (variant.name, ·)) = [] := by
    rw [List.flatMap_eq_nil_iff]
    intro variant hmem
    rw [choice.isSimple_iff.mp hsimple variant hmem, List.map_nil]
  have hcount := enumerationOf_outcome name choice
  have hattributes := attributesOf_outcome name choice.attributes
  rw [definitionFaults_sum, hfields, List.flatMap_nil, List.append_nil, verdict_append, ← hcount,
    ← hattributes, addSimpleSum]
  cases enumerationOf name choice with
  | error fault => rfl
  | ok enumeration =>
    cases attributesOf name choice.attributes with
    | error fault => rfl
    | ok attributes => rfl

theorem addCompoundSum_outcome (htable : TypeTable.ofSchema schema = .ok table)
    (encoding : Encoding) (name : String) (choice : Sum) (parts : Parts) :
    (addCompoundSum table encoding name choice parts).2 =
      verdict (definitionFaults schema ⟨name, .sum choice⟩) := by
  have hcount := enumerationOf_outcome name choice
  have hattributes := attributesOf_outcome name choice.attributes
  rw [definitionFaults_sum, verdict_append, verdict_append, ← hcount, ← hattributes,
    addCompoundSum]
  cases enumerationOf name choice with
  | error fault => rfl
  | ok enumeration =>
    cases attributesOf name choice.attributes with
    | error fault => rfl
    | ok attributes => exact addVariants_outcome htable encoding name choice.variants _

theorem addProduct_outcome (htable : TypeTable.ofSchema schema = .ok table)
    (encoding : Encoding) (name : String) (record : Product) (parts : Parts) :
    (addProduct table encoding name record parts).2 =
      verdict (definitionFaults schema ⟨name, .product record⟩) := by
  have hattributes := attributesOf_outcome name record.attributes
  rw [definitionFaults_product, verdict_append, ← hattributes, addProduct]
  cases attributesOf name record.attributes with
  | error fault => rfl
  | ok attributes => exact addClass_outcome htable encoding _ name record.fields 0 attributes parts

/-- **A visit finds the first fault of its definition**, whatever has been built before. -/
theorem visit_outcome (htable : TypeTable.ofSchema schema = .ok table) (encoding : Encoding)
    (definition : Definition) (parts : Parts) :
    ((declarationBuilder encoding).visit table definition parts).2 =
      verdict (definitionFaults schema definition) := by
  obtain ⟨name, body⟩ := definition
  cases body with
  | product product => exact addProduct_outcome htable encoding name product parts
  | sum sum =>
    unfold Visitor.visit Definition.shape
    by_cases hsimple : sum.isSimple = true
    · simp only [hsimple, if_true]
      exact addSimpleSum_outcome hsimple parts
    · simp only [hsimple]
      exact addCompoundSum_outcome htable encoding name sum parts

/-- **A walk finds the first fault of its definitions.** -/
theorem walkFrom_outcome (htable : TypeTable.ofSchema schema = .ok table) (encoding : Encoding)
    (definitions : List Definition) (parts : Parts) :
    ((declarationBuilder encoding).walkFrom table definitions parts).2 =
      verdict (definitions.flatMap (definitionFaults schema)) := by
  induction definitions generalizing parts with
  | nil => rfl
  | cons definition rest ih =>
    have hvisit := visit_outcome htable encoding definition parts
    rw [Visitor.walkFrom, List.flatMap_cons, verdict_append, ← hvisit]
    rcases (declarationBuilder encoding).visit table definition parts with ⟨between, _ | _⟩
    · rfl
    · exact ih between

end Resolved

/-! ## The first fault -/

/-- **The builder gives the verdict on all faults of the schema.** The walk that collects
the names ahead cannot fail, so only the table and the walk of the builder are left. -/
theorem build_outcome (schema : Schema) (encoding : Encoding) :
    outcome (build schema encoding) = verdict (faults schema) := by
  have hnames := insertAll_outcome [] schema.types
  rw [List.map_nil] at hnames
  rw [faults, verdict_append, ← hnames, build]
  -- the table exists exactly if its insertions succeed, so the two cases are those of `hnames`
  cases htable : TypeTable.ofSchema schema with
  | error fault =>
    rw [TypeTable.ofSchema] at htable
    cases hinsert : TypeTable.insertAll [] schema.types with
    | error cause =>
      rw [hinsert] at htable
      cases htable
      rfl
    | ok entries =>
      rw [hinsert] at htable
      cases htable
  | ok table =>
    have hwalk := walkFrom_outcome htable encoding schema.types Parts.empty
    have hinserted : TypeTable.insertAll [] schema.types = .ok table.entries := by
      obtain ⟨hdistinct, rfl⟩ := TypeTable.ofSchema_eq_ok_iff.mp htable
      exact TypeTable.insertAll_eq_ok_iff.mpr ⟨rfl, hdistinct, fun _ _ => List.not_mem_nil⟩
    have hcollected := forwardCollector_walkFrom table schema.types []
    rw [hinserted]
    show outcome (ofTable table encoding) = verdict (schema.types.flatMap (definitionFaults schema))
    rw [← hwalk, ofTable, Visitor.walk, Visitor.walk, TypeTable.definitions_ofSchema htable,
      hcollected]
    rcases (declarationBuilder encoding).walkFrom table schema.types Parts.empty with
      ⟨parts, _ | _⟩ <;> rfl

end Layout

open Layout

/-- Renaming a fault changes no result. -/
theorem mapError_eq_ok_iff {ε ε' α : Type} {result : Except ε α} {f : ε → ε'} {value : α} :
    result.mapError f = .ok value ↔ result = .ok value := by
  cases result <;> simp [Except.mapError]

/-- A renamed fault was a fault before. -/
theorem mapError_eq_error_iff {ε ε' α : Type} {result : Except ε α} {f : ε → ε'} {fault : ε'} :
    result.mapError f = .error fault ↔ ∃ cause, result = .error cause ∧ fault = f cause := by
  cases result <;> simp [Except.mapError, eq_comm]

theorem layoutOf_eq_ok_iff {schema : Schema} {encoding : Encoding} {layout : Layout} :
    layoutOf schema encoding = .ok layout ↔ build schema encoding = .ok layout := by
  rw [layoutOf, mapError_eq_ok_iff]

theorem layoutOf_eq_error_iff {schema : Schema} {encoding : Encoding} {fault : ReaderError} :
    layoutOf schema encoding = .error fault ↔
      ∃ cause, build schema encoding = .error cause ∧ fault = .invalid schema.name cause := by
  rw [layoutOf, mapError_eq_error_iff]

/-- **A schema has a layout exactly when it is valid, whatever the encoding; otherwise the
first of its faults is reported**, with the name of the schema. -/
theorem layoutOf_exact (schema : Schema) (encoding : Encoding) :
    ((∃ layout, layoutOf schema encoding = .ok layout) ↔ schema.Valid) ∧
    (∀ fault, layoutOf schema encoding = .error fault ↔
      ∃ cause, (faults schema).head? = some cause ∧ fault = .invalid schema.name cause) := by
  have hverdict := build_outcome schema encoding
  refine ⟨?_, ?_⟩
  · rw [← faults_eq_nil_iff, ← verdict_eq_ok_iff, ← hverdict, outcome_eq_ok_iff]
    simp only [layoutOf_eq_ok_iff]
  · intro fault
    rw [layoutOf_eq_error_iff]
    simp only [← verdict_eq_error_iff, ← hverdict, outcome_eq_error_iff]

/-- Both marks of a field come before its unknown type, and a fault of an earlier definition
before a fault of a later one. -/
example :
    layoutOf
      ⟨"m", [⟨"p", .product ⟨[⟨"x", "q", true, true⟩], []⟩⟩,
        ⟨"s", .sum ⟨[⟨"A", []⟩], [⟨"at", "p", false, false⟩]⟩⟩]⟩ .standard =
      .error (.invalid "m" (.optionalSequence "p" "x")) := rfl

end ReaderGen
