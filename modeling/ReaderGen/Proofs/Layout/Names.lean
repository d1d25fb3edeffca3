import ReaderGen.Proofs.Layout.Exact
import ReaderGen.Proofs.Notation.Names

/-!
# ReaderGen.Proofs.Layout.Names -- the names in a layout

A layout repeats the names of its schema and makes no new ones: **every name in a layout is
the name of a type, a constructor, a field or an attribute** (`names_subset_of_build`). What
is known of the names of a schema is thereby known of the names in the generated text.
-/

namespace ReaderGen

/-! ## The names of a layout -/

/-- The names that a class goes by. -/
def ClassRef.names : ClassRef → List String
  | .product typeName => [typeName]
  | .variant sumName constructor => [sumName, constructor]

/-- The names in the type of a value. -/
def ValueKind.names : ValueKind → List String
  | .enumeration typeName => [typeName]
  | .object typeName _ => [typeName]
  | _ => []

/-- The names in an accessor. -/
def Accessor.names (accessor : Accessor) : List String := accessor.field :: accessor.value.names

/-- The names in a declaration. -/
def Declaration.names : Declaration → List String
  | .enumeration body => body.typeName :: body.variants.map EnumVariant.name
  | .taggedBase body => body.typeName :: body.attributes.map Attribute.name
  | .accessorClass body =>
    body.ref.names ++ (body.accessors.flatMap Accessor.names ++
      body.attributes.map Attribute.name)

/-- The names in a deferred accessor. -/
def Deferred.names (deferred : Deferred) : List String :=
  deferred.owner.names ++ deferred.accessor.names

/-- The names in a layout. -/
def Layout.names (layout : Layout) : List String :=
  layout.forwards ++ (layout.declarations.flatMap Declaration.names ++
    layout.deferred.flatMap Deferred.names)

namespace Layout

section Names

variable {schema : Schema} {encoding : Encoding}

theorem name_mem_names {definition : Definition} (h : definition ∈ schema.types) :
    definition.name ∈ schema.names :=
  List.mem_flatMap.mpr ⟨definition, h, List.mem_cons_self ..⟩

theorem body_names_subset {definition : Definition} (h : definition ∈ schema.types) :
    definition.body.names ⊆ schema.names := by
  intro name hname
  exact List.mem_flatMap.mpr ⟨definition, h, List.mem_cons_of_mem _ hname⟩

/-- What an accessor returns is named after a definition. -/
theorem FieldValue.names_subset {field : Field} {value : ValueKind}
    (h : FieldValue schema field value) : value.names ⊆ schema.names := by
  cases h with
  | @builtin builtin _ => cases builtin <;> exact List.nil_subset _
  | @enumeration definition _ hmem hname _ =>
    intro name hin
    rw [List.mem_singleton.mp hin, ← hname]
    exact name_mem_names hmem
  | @object definition _ hmem hname _ =>
    intro name hin
    rw [List.mem_singleton.mp hin, ← hname]
    exact name_mem_names hmem

theorem Slots.names_subset {offset : UInt32} {fields : List Field} {accessors : List Accessor}
    (h : Slots schema encoding offset fields accessors)
    (hfields : fields.map Field.name ⊆ schema.names) :
    accessors.flatMap Accessor.names ⊆ schema.names := by
  intro name hname
  obtain ⟨accessor, haccessor, hin⟩ := List.mem_flatMap.mp hname
  obtain ⟨field, hfield, slot, hof⟩ := h.exists_field haccessor
  rcases List.mem_cons.mp hin with rfl | hvalue
  · rw [hof.field_eq]
    exact hfields (List.mem_map_of_mem hfield)
  · exact hof.value.names_subset hvalue

theorem attributes_names {fields : List Field} {attributes : List Attribute}
    (h : List.Forall₂ AttributeOf fields attributes) :
    attributes.map Attribute.name = fields.map Field.name := by
  induction h with
  | nil => rfl
  | cons hof _ ih => rw [List.map_cons, List.map_cons, hof.name_eq, ih]

theorem EnumerationOf.names_subset {name : String} {choice : Sum} {enumeration : Enumeration}
    (h : EnumerationOf name choice enumeration)
    (hmem : ⟨name, .sum choice⟩ ∈ schema.types) :
    (Declaration.enumeration enumeration).names ⊆ schema.names := by
  intro other hother
  rw [Declaration.names, h.typeName_eq, h.names] at hother
  rcases List.mem_cons.mp hother with rfl | hvariant
  · exact name_mem_names hmem
  · obtain ⟨variant, hin, rfl⟩ := List.mem_map.mp hvariant
    refine body_names_subset hmem (List.mem_append_left _ ?_)
    exact List.mem_flatMap.mpr ⟨variant, hin, List.mem_cons_self ..⟩

theorem ClassOf.names_subset {ref : ClassRef} {offset : UInt32} {fields attributes : List Field}
    {cls : AccessorClass} (h : ClassOf schema encoding ref offset fields attributes cls)
    (href : ref.names ⊆ schema.names) (hfields : fields.map Field.name ⊆ schema.names)
    (hattributes : attributes.map Field.name ⊆ schema.names) :
    (Declaration.accessorClass cls).names ⊆ schema.names := by
  intro name hname
  rw [Declaration.names, h.ref_eq, attributes_names h.attributes, List.mem_append,
    List.mem_append] at hname
  rcases hname with hclass | haccessor | hattribute
  · exact href hclass
  · exact h.slots.names_subset hfields haccessor
  · exact hattributes hattribute

/-- The declarations of a definition hold names of the schema only. -/
theorem Block.names_subset {definition : Definition} {block : List Declaration}
    (h : Block schema encoding definition block) (hmem : definition ∈ schema.types)
    {declaration : Declaration} (hin : declaration ∈ block) :
    declaration.names ⊆ schema.names := by
  cases h with
  | simpleSum _ henum _ =>
    rw [List.mem_singleton.mp hin]
    exact henum.names_subset hmem
  | @compoundSum name choice enumeration attributes classes _ henum hattributes hclasses =>
    have hbody := body_names_subset hmem
    rcases List.mem_cons.mp hin with rfl | hin
    · exact henum.names_subset hmem
    rcases List.mem_cons.mp hin with rfl | hin
    · intro other hother
      rw [Declaration.names, attributes_names hattributes] at hother
      rcases List.mem_cons.mp hother with rfl | hattribute
      · exact name_mem_names hmem
      · exact hbody (List.mem_append_right _ hattribute)
    · obtain ⟨cls, hcls, rfl⟩ := List.mem_map.mp hin
      obtain ⟨variant, hvariant, hof⟩ := exists_left_of_forall₂ hclasses hcls
      have hnames : variant.name :: variant.fields.map Field.name ⊆ schema.names := by
        intro other hother
        refine hbody (List.mem_append_left _ ?_)
        exact List.mem_flatMap.mpr ⟨variant, (mem_withFields.mp hvariant).1, hother⟩
      have href : (ClassRef.variant name variant.name).names ⊆ schema.names := by
        intro other hother
        rcases List.mem_cons.mp hother with rfl | hlast
        · exact name_mem_names hmem
        · rw [List.mem_singleton.mp hlast]
          exact hnames (List.mem_cons_self ..)
      exact ClassOf.names_subset hof href (fun _ h => hnames (List.mem_cons_of_mem _ h))
        (List.nil_subset _)
  | @product name record cls hcls =>
    have hbody := body_names_subset hmem
    have href : (ClassRef.product name).names ⊆ schema.names := by
      intro other hother
      rw [List.mem_singleton.mp hother]
      exact name_mem_names hmem
    rw [List.mem_singleton.mp hin]
    exact hcls.names_subset href (fun _ h => hbody (List.mem_append_left _ h))
      (fun _ h => hbody (List.mem_append_right _ h))

/-- **A layout holds names of its schema only.** -/
theorem names_subset_of_build {layout : Layout} (h : build schema encoding = .ok layout) :
    layout.names ⊆ schema.names := by
  obtain ⟨_, ⟨-, blocks, hblocks, rfl⟩, rfl⟩ := build_eq_ok_iff.mp h
  have hdeclarations : ∀ declaration ∈ blocks.flatten, declaration.names ⊆ schema.names := by
    intro declaration hin
    obtain ⟨block, hblock, hdeclaration⟩ := List.mem_flatten.mp hin
    obtain ⟨definition, hmem, hof⟩ := exists_left_of_forall₂ hblocks hblock
    exact hof.names_subset hmem hdeclaration
  intro name hname
  rw [Layout.names, List.mem_append, List.mem_append] at hname
  rcases hname with hforward | hdeclared | hdeferred
  · obtain ⟨definition, hdefinition, rfl⟩ := List.mem_map.mp hforward
    exact name_mem_names (List.mem_filter.mp hdefinition).1
  · obtain ⟨declaration, hin, hname⟩ := List.mem_flatMap.mp hdeclared
    exact hdeclarations declaration hin hname
  · -- a deferred accessor is one of the accessors of its class
    obtain ⟨deferred, hqueue, hname⟩ := List.mem_flatMap.mp hdeferred
    obtain ⟨cls, hcls, href, haccessor, -⟩ := exists_class_of_deferred hqueue
    refine hdeclarations _ hcls ?_
    rcases List.mem_append.mp hname with hclass | hread
    · exact List.mem_append_left _ (href ▸ hclass)
    · refine List.mem_append_right _ (List.mem_append_left _ ?_)
      exact List.mem_flatMap.mpr ⟨deferred.accessor, haccessor, hread⟩

end Names

end Layout

end ReaderGen
