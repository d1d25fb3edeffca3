import ReaderGen.Proofs.Layout.Faults
import ReaderGen.Proofs.Layout.Names
import ReaderGen.Proofs.Layout.Tiling

/-!
# ReaderGen.Proofs.Layout.Scopes -- where a layout declares a name twice

An enumeration is a scope of constructors, a class is a scope of fields and attributes. A
layout takes the names of its scopes over from the schema and changes none, so **no scope
declares a name twice exactly if none does in the schema** (`distinctScopes_iff_of_read`).

The builder does not look for such a name. The notation does, within one list of fields; it
lets a constructor of a sum come twice, and a field of a product come back as an attribute. A
schema in YAML is not looked at.
-/

namespace ReaderGen

/-! ## Scopes -/

/-- No scope among the declarations declares a name twice: no enumeration among its variants, and
no class among its accessors and attributes together. -/
structure DistinctScopes (declarations : List Declaration) : Prop where
  variants : ∀ enumeration : Enumeration, .enumeration enumeration ∈ declarations →
    (enumeration.variants.map EnumVariant.name).Nodup
  members : ∀ cls : AccessorClass, .accessorClass cls ∈ declarations →
    (cls.accessors.map Accessor.field ++ cls.attributes.map Attribute.name).Nodup

/-- No scope of a right-hand side gives a name twice: a sum is a scope of constructors, each
constructor is one of fields, and a product is one of fields and attributes. -/
def Body.DistinctScopes : Body → Prop
  | .sum choice => (choice.variants.map Constructor.name).Nodup ∧
      ∀ variant ∈ choice.variants, (variant.fields.map Field.name).Nodup
  | .product record => (record.fields.map Field.name ++ record.attributes.map Field.name).Nodup

/-- What the notation leaves open of that: whether the constructors of a sum differ, and whether a
product has a field and an attribute of one name. -/
def Body.ScopesApart : Body → Prop
  | .sum choice => (choice.variants.map Constructor.name).Nodup
  | .product record => (record.fields.map Field.name).Disjoint (record.attributes.map Field.name)

instance : (body : Body) → Decidable body.DistinctScopes
  | .sum _ => inferInstanceAs (Decidable (_ ∧ _))
  | .product _ => inferInstanceAs (Decidable (List.Nodup _))

/-- **The notation keeps each list of fields distinct**, and nothing more. -/
theorem Body.WellFormed.distinctScopes_iff {body : Body} (h : body.WellFormed) :
    body.DistinctScopes ↔ body.ScopesApart := by
  cases h with
  | sum _ hvariants _ =>
    rw [DistinctScopes, ScopesApart]
    exact and_iff_left fun variant hmem => (hvariants variant hmem).distinct
  | product _ hfields hattributes =>
    rw [DistinctScopes, ScopesApart, List.nodup_append', and_iff_right hfields.distinct,
      and_iff_right hattributes.distinct]

namespace Layout

variable {schema : Schema} {encoding : Encoding}

/-! ## Scopes of declarations -/

theorem distinctScopes_flatten_iff {blocks : List (List Declaration)} :
    DistinctScopes blocks.flatten ↔ ∀ block ∈ blocks, DistinctScopes block := by
  constructor
  · intro h block hblock
    exact ⟨fun enumeration hmem => h.variants enumeration (List.mem_flatten_of_mem hblock hmem),
      fun cls hmem => h.members cls (List.mem_flatten_of_mem hblock hmem)⟩
  · intro h
    constructor
    · intro enumeration hmem
      obtain ⟨block, hblock, hin⟩ := List.mem_flatten.mp hmem
      exact (h block hblock).variants enumeration hin
    · intro cls hmem
      obtain ⟨block, hblock, hin⟩ := List.mem_flatten.mp hmem
      exact (h block hblock).members cls hin

theorem distinctScopes_enumeration_cons_iff {enumeration : Enumeration} {rest : List Declaration} :
    DistinctScopes (.enumeration enumeration :: rest) ↔
      (enumeration.variants.map EnumVariant.name).Nodup ∧ DistinctScopes rest := by
  constructor
  · intro h
    exact ⟨h.variants _ (List.mem_cons_self ..),
      fun other hmem => h.variants other (List.mem_cons_of_mem _ hmem),
      fun cls hmem => h.members cls (List.mem_cons_of_mem _ hmem)⟩
  · rintro ⟨hnames, hrest⟩
    constructor
    · intro other hmem
      rcases List.mem_cons.mp hmem with heq | hin
      · cases heq
        exact hnames
      · exact hrest.variants other hin
    · intro cls hmem
      exact hrest.members cls ((List.mem_cons.mp hmem).resolve_left nofun)

/-- A tagged base is no scope here. -/
theorem distinctScopes_taggedBase_cons_iff {base : TaggedBase} {rest : List Declaration} :
    DistinctScopes (.taggedBase base :: rest) ↔ DistinctScopes rest := by
  constructor
  · intro h
    exact ⟨fun enumeration hmem => h.variants enumeration (List.mem_cons_of_mem _ hmem),
      fun cls hmem => h.members cls (List.mem_cons_of_mem _ hmem)⟩
  · intro h
    constructor
    · intro enumeration hmem
      exact h.variants enumeration ((List.mem_cons.mp hmem).resolve_left nofun)
    · intro cls hmem
      exact h.members cls ((List.mem_cons.mp hmem).resolve_left nofun)

theorem distinctScopes_classes_iff (classes : List AccessorClass) :
    DistinctScopes (classes.map Declaration.accessorClass) ↔ ∀ cls ∈ classes,
      (cls.accessors.map Accessor.field ++ cls.attributes.map Attribute.name).Nodup := by
  constructor
  · intro h cls hmem
    exact h.members cls (List.mem_map_of_mem hmem)
  · intro h
    constructor
    · intro enumeration hmem
      obtain ⟨_, -, heq⟩ := List.mem_map.mp hmem
      cases heq
    · intro cls hmem
      obtain ⟨_, hcls, heq⟩ := List.mem_map.mp hmem
      cases heq
      exact h cls hcls

/-! ## Scopes of a block -/

/-- The members of a class are its fields and attributes, under their own names. -/
theorem ClassOf.members_eq {ref : ClassRef} {offset : UInt32} {fields attributes : List Field}
    {cls : AccessorClass} (h : ClassOf schema encoding ref offset fields attributes cls) :
    cls.accessors.map Accessor.field ++ cls.attributes.map Attribute.name =
      fields.map Field.name ++ attributes.map Field.name := by
  rw [h.slots.fields_eq, attributes_names h.attributes]

/-- The classes of a compound sum are the scopes of its constructors. A constructor without fields
has no class, and no field to repeat. -/
theorem distinctScopes_variantClasses_iff {sumName : String} {choice : Sum}
    {classes : List AccessorClass}
    (h : List.Forall₂ (VariantClass schema encoding sumName) choice.withFields classes) :
    DistinctScopes (classes.map Declaration.accessorClass) ↔
      ∀ variant ∈ choice.variants, (variant.fields.map Field.name).Nodup := by
  have hmembers : ∀ {variant cls}, VariantClass schema encoding sumName variant cls →
      cls.accessors.map Accessor.field ++ cls.attributes.map Attribute.name =
        variant.fields.map Field.name :=
    fun hof => (ClassOf.members_eq hof).trans (List.append_nil _)
  rw [distinctScopes_classes_iff]
  constructor
  · intro hclasses variant hmem
    by_cases hfields : variant.fields = []
    · rw [hfields]
      exact List.nodup_nil
    · obtain ⟨cls, hcls, hof⟩ := exists_right_of_forall₂ h (mem_withFields.mpr ⟨hmem, hfields⟩)
      rw [← hmembers hof]
      exact hclasses cls hcls
  · intro hvariants cls hmem
    obtain ⟨variant, hvariant, hof⟩ := exists_left_of_forall₂ h hmem
    rw [hmembers hof]
    exact hvariants variant (mem_withFields.mp hvariant).1

/-- **The scopes of a block are those of its definition.** -/
theorem Block.distinctScopes_iff {definition : Definition} {block : List Declaration}
    (h : Block schema encoding definition block) :
    DistinctScopes block ↔ definition.body.DistinctScopes := by
  cases h with
  | @simpleSum name choice enumeration _ hsimple henum _ =>
    have hnone : ∀ variant ∈ choice.variants, (variant.fields.map Field.name).Nodup := by
      intro variant hmem
      rw [hsimple variant hmem]
      exact List.nodup_nil
    rw [distinctScopes_enumeration_cons_iff, henum.names, Body.DistinctScopes]
    exact and_congr_right fun _ => iff_of_true ⟨nofun, nofun⟩ hnone
  | @compoundSum name choice enumeration _ classes _ henum _ hclasses =>
    rw [distinctScopes_enumeration_cons_iff, distinctScopes_taggedBase_cons_iff, henum.names,
      distinctScopes_variantClasses_iff hclasses, Body.DistinctScopes]
  | @product name record cls hof =>
    have hclass := distinctScopes_classes_iff [cls]
    rw [List.forall_mem_singleton, ClassOf.members_eq hof] at hclass
    exact hclass

/-! ## Scopes of a layout -/

/-- **No scope of a layout declares a name twice exactly if no scope of the schema does.** Of a
schema that was read from the notation it is enough that the constructors of each sum differ, and
that no product has a field and an attribute of one name. -/
theorem distinctScopes_iff_of_read {explain : String → String} {format : SchemaFormat}
    {source : String} {layout : Layout} (hread : readSchema explain format source = .ok schema)
    (hbuild : build schema encoding = .ok layout) :
    (DistinctScopes layout.declarations ↔
      ∀ definition ∈ schema.types, definition.body.DistinctScopes) ∧
    (format = .asdl → (DistinctScopes layout.declarations ↔
      ∀ definition ∈ schema.types, definition.body.ScopesApart)) := by
  obtain ⟨_, ⟨-, blocks, hblocks, rfl⟩, rfl⟩ := build_eq_ok_iff.mp hbuild
  have hscopes : DistinctScopes blocks.flatten ↔
      ∀ definition ∈ schema.types, definition.body.DistinctScopes := by
    rw [distinctScopes_flatten_iff]
    constructor
    · intro h definition hmem
      obtain ⟨block, hblock, hof⟩ := exists_right_of_forall₂ hblocks hmem
      exact hof.distinctScopes_iff.mp (h block hblock)
    · intro h block hblock
      obtain ⟨definition, hmem, hof⟩ := exists_left_of_forall₂ hblocks hblock
      exact hof.distinctScopes_iff.mpr (h definition hmem)
  refine ⟨hscopes, ?_⟩
  rintro rfl
  have hwf := Notation.wellFormed_of_parse (mapError_eq_ok_iff.mp hread)
  refine hscopes.trans (forall₂_congr fun definition hmem => ?_)
  exact (hwf.bodies definition hmem).distinctScopes_iff

/-! ## A field and an attribute -/

/-- A product with the field `x`, and an attribute of the given name. -/
def attributedSchema (name : String) : Schema :=
  ⟨"m", [⟨"p", .product ⟨[⟨"x", "int", false, false⟩], [⟨name, "int", false, false⟩]⟩⟩]⟩

theorem distinctScopes_of_other_attribute :
    ∃ layout, readSchema (fun _ => "") .asdl "module m \x7b p = (int x) attributes (int y) \x7d" =
        .ok (attributedSchema "y") ∧
      build (attributedSchema "y") .standard = .ok layout ∧
      DistinctScopes layout.declarations := by
  have hread : readSchema (fun _ => "") .asdl "module m \x7b p = (int x) attributes (int y) \x7d" =
      .ok (attributedSchema "y") :=
    mapError_eq_ok_iff.mpr (Notation.parse_of_kinds (by cbv) (by decide))
  have hbuild : build (attributedSchema "y") .standard = .ok _ := rfl
  exact ⟨_, hread, hbuild, (distinctScopes_iff_of_read hread hbuild).1.mpr (by decide)⟩

/-- The class of `p` has the accessor `x` and the attribute `x`. -/
theorem not_distinctScopes_of_same_attribute :
    ∃ layout, readSchema (fun _ => "") .asdl "module m \x7b p = (int x) attributes (int x) \x7d" =
        .ok (attributedSchema "x") ∧
      build (attributedSchema "x") .standard = .ok layout ∧
      ¬ DistinctScopes layout.declarations := by
  refine ⟨_, mapError_eq_ok_iff.mpr (Notation.parse_of_kinds (by cbv) (by decide)), rfl, ?_⟩
  intro hdistinct
  exact absurd (hdistinct.members _ (List.mem_singleton_self _)) (by decide)

end Layout

end ReaderGen
