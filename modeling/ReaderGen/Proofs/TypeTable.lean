import ReaderGen.TypeTable
import Mathlib.Data.List.Nodup

/-!
# ReaderGen.Proofs.TypeTable -- the table against the schema

The table is built by insertion and read by look-up. Here both are related to the
schema alone: **a table exists exactly for pairwise distinct names, and a look-up then
finds the one definition of that name**. What a field refers to is thereby said
without the table: the builtin of that name, else the definition of that name, as an
enumeration or as an object after its shape.
-/

namespace ReaderGen

/-! ## Enumerations among the definitions -/

/-- A definition that is represented by its enumeration alone: a sum in which no
constructor has a field. -/
def Definition.IsEnumeration (definition : Definition) : Prop :=
  ∃ sum, definition.body = .sum sum ∧ ∀ variant ∈ sum.variants, variant.fields = []

theorem Sum.isSimple_iff (sum : Sum) :
    sum.isSimple = true ↔ ∀ variant ∈ sum.variants, variant.fields = [] := by
  simp [Sum.isSimple]

theorem Definition.isClass_shape_eq_false_iff (definition : Definition) :
    definition.shape.isClass = false ↔ definition.IsEnumeration := by
  obtain ⟨name, body⟩ := definition
  cases body with
  | product product =>
    simp [Definition.shape, Shape.isClass, Definition.IsEnumeration]
  | sum sum =>
    have hshape : (Definition.shape ⟨name, .sum sum⟩).isClass = !sum.isSimple := by
      unfold Definition.shape
      cases hsimple : sum.isSimple <;> simp [hsimple, Shape.isClass]
    rw [hshape, Bool.not_eq_false', sum.isSimple_iff]
    constructor
    · intro h
      exact ⟨sum, rfl, h⟩
    · rintro ⟨_, hbody, h⟩
      cases hbody
      exact h

theorem Definition.isClass_shape_eq_true_iff (definition : Definition) :
    definition.shape.isClass = true ↔ ¬ definition.IsEnumeration := by
  rw [← definition.isClass_shape_eq_false_iff, Bool.not_eq_false]

/-- No builtin has this name. -/
def NamesNoBuiltin (name : String) : Prop := ∀ builtin : Builtin, builtin.name ≠ name

theorem Field.builtin?_eq_none_iff (field : Field) :
    field.builtin? = none ↔ NamesNoBuiltin field.typeName := by
  constructor
  · intro h builtin hname
    have hsome := Builtin.ofName?_eq_some_iff.mpr hname
    rw [Field.builtin?] at h
    rw [h] at hsome
    cases hsome
  · intro h
    rw [Field.builtin?, Option.eq_none_iff_forall_ne_some]
    intro builtin hsome
    exact h builtin (Builtin.ofName?_eq_some_iff.mp hsome)

namespace TypeTable

/-! ## Insertion -/

/-- The definitions of a list, each under its name. -/
def entriesOf (definitions : List Definition) : List (String × Definition) :=
  definitions.map fun definition => (definition.name, definition)

theorem isSome_lookup_iff {entries : List (String × Definition)} {name : String} :
    (entries.lookup name).isSome = true ↔ name ∈ entries.map Prod.fst := by
  simp only [List.lookup_isSome_iff, List.mem_map, beq_iff_eq]
  constructor
  · rintro ⟨entry, hentry, hname⟩
    exact ⟨entry, hentry, hname.symm⟩
  · rintro ⟨entry, hentry, hname⟩
    exact ⟨entry, hentry, hname.symm⟩

/-- Insertion succeeds exactly on names that are new and pairwise distinct, and keeps
the order. -/
theorem insertAll_eq_ok_iff {entries result : List (String × Definition)}
    {definitions : List Definition} :
    insertAll entries definitions = .ok result ↔
      result = entries ++ entriesOf definitions ∧
        (definitions.map Definition.name).Nodup ∧
          ∀ definition ∈ definitions, definition.name ∉ entries.map Prod.fst := by
  induction definitions generalizing entries with
  | nil => simp [insertAll, entriesOf, eq_comm]
  | cons definition rest ih =>
    have htaken : (entries.lookup definition.name).isSome = true ↔
        definition.name ∈ entries.map Prod.fst := isSome_lookup_iff
    rw [insertAll]
    by_cases hmem : definition.name ∈ entries.map Prod.fst
    · rw [if_pos (htaken.mpr hmem)]
      constructor
      · intro h
        cases h
      · rintro ⟨-, -, hnew⟩
        exact absurd hmem (hnew definition (List.mem_cons_self ..))
    · rw [if_neg (fun h => hmem (htaken.mp h)), ih]
      have hentries : entries ++ [(definition.name, definition)] ++ entriesOf rest =
          entries ++ entriesOf (definition :: rest) := by
        simp [entriesOf]
      have hfresh : (∀ other ∈ rest,
            other.name ∉ (entries ++ [(definition.name, definition)]).map Prod.fst) ↔
          (∀ other ∈ rest, other.name ∉ entries.map Prod.fst) ∧
            definition.name ∉ rest.map Definition.name := by
        simp only [List.map_append, List.mem_append, List.map_cons, List.map_nil,
          List.mem_singleton, not_or, List.mem_map]
        grind
      rw [hentries, hfresh, List.map_cons, List.nodup_cons, List.forall_mem_cons]
      tauto

/-- **A table exists exactly for pairwise distinct names.** -/
theorem ofSchema_eq_ok_iff {schema : Schema} {table : TypeTable} :
    ofSchema schema = .ok table ↔
      (schema.types.map Definition.name).Nodup ∧ table = ⟨schema, entriesOf schema.types⟩ := by
  rw [ofSchema]
  cases hinsert : insertAll [] schema.types with
  | error fault =>
    constructor
    · intro h
      cases h
    · rintro ⟨hnodup, -⟩
      have hok : insertAll [] schema.types = .ok ([] ++ entriesOf schema.types) :=
        insertAll_eq_ok_iff.mpr ⟨rfl, hnodup, by simp⟩
      rw [hinsert] at hok
      cases hok
  | ok entries =>
    obtain ⟨rfl, hnodup, -⟩ := insertAll_eq_ok_iff.mp hinsert
    simp [Except.map, hnodup, eq_comm]

theorem ofSchema_of_nodup {schema : Schema} (h : (schema.types.map Definition.name).Nodup) :
    ofSchema schema = .ok ⟨schema, entriesOf schema.types⟩ :=
  ofSchema_eq_ok_iff.mpr ⟨h, rfl⟩

/-! ## Look-up -/

/-- A look-up in the entries is a search in the definitions, repeated names or not. -/
theorem lookup_entriesOf_eq_find? (definitions : List Definition) (name : String) :
    (entriesOf definitions).lookup name =
      definitions.find? fun definition => definition.name = name := by
  induction definitions with
  | nil => rfl
  | cons head rest ih =>
    show List.lookup name ((head.name, head) :: entriesOf rest) = _
    rw [List.lookup_cons, List.find?_cons, ih]
    by_cases hname : head.name = name
    · simp [hname]
    · rw [show (name == head.name) = false from by simpa using Ne.symm hname,
        decide_eq_false hname]

/-- In a list of distinct names, a name is looked up by membership. -/
theorem lookup_entriesOf {definitions : List Definition}
    (hnodup : (definitions.map Definition.name).Nodup) {name : String} {definition : Definition} :
    (entriesOf definitions).lookup name = some definition ↔
      definition ∈ definitions ∧ definition.name = name := by
  induction definitions with
  | nil => simp [entriesOf]
  | cons head rest ih =>
    rw [List.map_cons, List.nodup_cons] at hnodup
    rw [entriesOf, List.map_cons, List.lookup_cons, List.mem_cons]
    by_cases hname : name = head.name
    · subst hname
      simp only [beq_self_eq_true, Option.some.injEq]
      constructor
      · rintro rfl
        exact ⟨Or.inl rfl, rfl⟩
      · rintro ⟨hdef | hdef, hsame⟩
        · exact hdef.symm
        · exact absurd (List.mem_map.mpr ⟨definition, hdef, hsame⟩) hnodup.1
    · rw [show (name == head.name) = false from by simpa using hname]
      rw [entriesOf] at ih
      rw [ih hnodup.2]
      constructor
      · rintro ⟨hdef, hsame⟩
        exact ⟨Or.inr hdef, hsame⟩
      · rintro ⟨rfl | hdef, hsame⟩
        · exact absurd hsame.symm hname
        · exact ⟨hdef, hsame⟩

variable {schema : Schema} {table : TypeTable}

theorem definitions_ofSchema (h : ofSchema schema = .ok table) :
    table.definitions = schema.types := by
  obtain ⟨-, rfl⟩ := ofSchema_eq_ok_iff.mp h
  simp [definitions, entriesOf, Function.comp_def]

theorem schema_ofSchema (h : ofSchema schema = .ok table) : table.schema = schema := by
  obtain ⟨-, rfl⟩ := ofSchema_eq_ok_iff.mp h
  rfl

/-- A look-up finds the one definition of that name. -/
theorem get?_eq_some_iff (h : ofSchema schema = .ok table) {name : String}
    {definition : Definition} :
    table.get? name = some definition ↔ definition ∈ schema.types ∧ definition.name = name := by
  obtain ⟨hnodup, rfl⟩ := ofSchema_eq_ok_iff.mp h
  exact lookup_entriesOf hnodup

/-- **The table finds what a search of the schema finds.** -/
theorem get?_eq (h : ofSchema schema = .ok table) (name : String) :
    table.get? name = schema.get? name := by
  obtain ⟨-, rfl⟩ := ofSchema_eq_ok_iff.mp h
  exact lookup_entriesOf_eq_find? schema.types name

end TypeTable

/-! ## References -/

/-- What a type name refers to in a schema: the builtin of that name, else the definition
of that name, after its shape. -/
inductive RefersTo (schema : Schema) (name : String) : Reference → Prop
  | builtin {builtin : Builtin} : builtin.name = name → RefersTo schema name (.builtin builtin)
  | enumeration {definition : Definition} : NamesNoBuiltin name → definition ∈ schema.types →
      definition.name = name → definition.IsEnumeration →
      RefersTo schema name (.enumeration definition)
  | object {definition : Definition} : NamesNoBuiltin name → definition ∈ schema.types →
      definition.name = name → ¬ definition.IsEnumeration →
      RefersTo schema name (.object definition)

/-- **The table resolves a field to what its type name refers to.** -/
theorem TypeTable.resolve_eq_ok_iff {schema : Schema} {table : TypeTable}
    (h : TypeTable.ofSchema schema = .ok table) {owner : String} {field : Field}
    {reference : Reference} :
    table.resolve owner field = .ok reference ↔ RefersTo schema field.typeName reference := by
  unfold TypeTable.resolve
  cases hbuiltin : field.builtin? with
  | some builtin =>
    have hname : builtin.name = field.typeName := Builtin.ofName?_eq_some_iff.mp hbuiltin
    simp only [Except.ok.injEq]
    constructor
    · rintro rfl
      exact .builtin hname
    · intro href
      cases href with
      | builtin hother =>
        have hsame := Builtin.ofName?_eq_some_iff.mpr hother
        rw [Field.builtin?] at hbuiltin
        rw [hbuiltin, Option.some.injEq] at hsame
        rw [hsame]
      | enumeration hnone => exact absurd hname (hnone builtin)
      | object hnone => exact absurd hname (hnone builtin)
  | none =>
    have hnone := field.builtin?_eq_none_iff.mp hbuiltin
    constructor
    · intro hok
      cases hget : table.get? field.typeName with
      | none =>
        rw [hget] at hok
        cases hok
      | some definition =>
        obtain ⟨hmem, hname⟩ := (TypeTable.get?_eq_some_iff h).mp hget
        rw [hget] at hok
        by_cases hclass : definition.shape.isClass = true
        · simp only [hclass, if_true, Except.ok.injEq] at hok
          rw [← hok]
          exact .object hnone hmem hname (definition.isClass_shape_eq_true_iff.mp hclass)
        · rw [Bool.not_eq_true] at hclass
          simp only [hclass, Bool.false_eq_true, if_false, Except.ok.injEq] at hok
          rw [← hok]
          exact .enumeration hnone hmem hname (definition.isClass_shape_eq_false_iff.mp hclass)
    · intro href
      cases href with
      | @builtin builtin hname => exact absurd hname (hnone builtin)
      | @enumeration definition _ hmem hname henum =>
        rw [(TypeTable.get?_eq_some_iff h).mpr ⟨hmem, hname⟩]
        simp [definition.isClass_shape_eq_false_iff.mpr henum]
      | @object definition _ hmem hname hobject =>
        rw [(TypeTable.get?_eq_some_iff h).mpr ⟨hmem, hname⟩]
        simp [definition.isClass_shape_eq_true_iff.mpr hobject]

/-- **A field is refused exactly if nothing has the name of its type.** -/
theorem TypeTable.resolve_eq_error_iff {schema : Schema} {table : TypeTable}
    (h : TypeTable.ofSchema schema = .ok table) {owner : String} {field : Field}
    {fault : ResolveError} :
    table.resolve owner field = .error fault ↔
      NamesNoBuiltin field.typeName ∧ schema.get? field.typeName = none ∧
        fault = .unknownType owner field.name field.typeName := by
  rw [← field.builtin?_eq_none_iff, ← TypeTable.get?_eq h, TypeTable.resolve]
  cases field.builtin? with
  | some builtin => simp
  | none =>
    cases table.get? field.typeName with
    | none => simp [eq_comm]
    | some definition => by_cases hclass : definition.shape.isClass = true <;> simp [hclass]

/-! ## Agreement with the schema -/

/-- The table says of the definitions what the schema says: they stand in the order of their
declaration, a look-up finds what a search finds, and a field refers to the builtin of its type
name, else to the definition that a search finds, after its shape, else to nothing. -/
structure TypeTable.Agrees (table : TypeTable) (schema : Schema) : Prop where
  schema_eq : table.schema = schema
  definitions_eq : table.definitions = schema.types
  get_eq : ∀ name, table.get? name = schema.get? name
  builtin_iff : ∀ owner field builtin,
    table.resolve owner field = .ok (.builtin builtin) ↔ builtin.name = field.typeName
  enumeration_iff : ∀ owner field definition,
    table.resolve owner field = .ok (.enumeration definition) ↔
      NamesNoBuiltin field.typeName ∧ schema.get? field.typeName = some definition ∧
        definition.IsEnumeration
  object_iff : ∀ owner field definition,
    table.resolve owner field = .ok (.object definition) ↔
      NamesNoBuiltin field.typeName ∧ schema.get? field.typeName = some definition ∧
        ¬ definition.IsEnumeration
  error_iff : ∀ owner field fault,
    table.resolve owner field = .error fault ↔
      NamesNoBuiltin field.typeName ∧ schema.get? field.typeName = none ∧
        fault = .unknownType owner field.name field.typeName

theorem TypeTable.agrees_ofSchema {schema : Schema} {table : TypeTable}
    (h : TypeTable.ofSchema schema = .ok table) : table.Agrees schema := by
  have hfound : ∀ name definition, schema.get? name = some definition ↔
      definition ∈ schema.types ∧ definition.name = name := by
    intro name definition
    rw [← TypeTable.get?_eq h]
    exact TypeTable.get?_eq_some_iff h
  refine ⟨TypeTable.schema_ofSchema h, TypeTable.definitions_ofSchema h, TypeTable.get?_eq h,
    ?_, ?_, ?_, fun owner field fault => TypeTable.resolve_eq_error_iff h⟩
  · intro owner field builtin
    rw [TypeTable.resolve_eq_ok_iff h]
    exact ⟨fun | .builtin hname => hname, .builtin⟩
  · intro owner field definition
    rw [TypeTable.resolve_eq_ok_iff h, hfound]
    exact ⟨fun | .enumeration hnone hmem hname henum => ⟨hnone, ⟨hmem, hname⟩, henum⟩,
      fun ⟨hnone, ⟨hmem, hname⟩, henum⟩ => .enumeration hnone hmem hname henum⟩
  · intro owner field definition
    rw [TypeTable.resolve_eq_ok_iff h, hfound]
    exact ⟨fun | .object hnone hmem hname hobject => ⟨hnone, ⟨hmem, hname⟩, hobject⟩,
      fun ⟨hnone, ⟨hmem, hname⟩, hobject⟩ => .object hnone hmem hname hobject⟩

end ReaderGen
