import ReaderGen.Proofs.Layout.Exact
import Mathlib.Tactic.Choose

/-!
# ReaderGen.Proofs.Layout.Locality -- what one definition contributes to a layout

The two walks carry the names, the declarations and the queue of all definitions so far, and
every field is resolved through the table of the whole schema. Neither leaks: **what a
definition contributes to a layout depends on the definition and on which of the types that
it mentions are enumerations**, not on where it stands nor on what else the schema defines
(`contributions_local`). A layout is its contributions one after another, so a permuted schema
has the permuted layout, or neither schema has one.

A contribution is read off the walks themselves (`Contributes`): it is what the visit of the
definition puts behind everything that was collected before.
-/

namespace ReaderGen

/-! ## Agreement on the types that are mentioned -/

/-- Some field of the definition has this type. -/
def Definition.Mentions (definition : Definition) (typeName : String) : Prop :=
  ∃ ref fields, definition.HasClass ref fields ∧ ∃ field ∈ fields, field.typeName = typeName

/-- The schema defines the name as an enumeration. -/
def Schema.DefinesEnumeration (schema : Schema) (name : String) : Prop :=
  ∃ definition ∈ schema.types, definition.name = name ∧ definition.IsEnumeration

/-- The schema defines the name as a type with classes. -/
def Schema.DefinesClasses (schema : Schema) (name : String) : Prop :=
  ∃ definition ∈ schema.types, definition.name = name ∧ ¬ definition.IsEnumeration

/-- Both schemas define the name as an enumeration, or both as a type with classes. -/
def Schema.AgreeOn (schema other : Schema) (name : String) : Prop :=
  (schema.DefinesEnumeration name ∧ other.DefinesEnumeration name) ∨
    (schema.DefinesClasses name ∧ other.DefinesClasses name)

instance (definition : Definition) : Decidable definition.IsEnumeration :=
  decidable_of_iff _ definition.isClass_shape_eq_false_iff

instance (schema : Schema) (name : String) : Decidable (schema.DefinesEnumeration name) :=
  inferInstanceAs (Decidable (∃ definition ∈ schema.types, _))

instance (schema : Schema) (name : String) : Decidable (schema.DefinesClasses name) :=
  inferInstanceAs (Decidable (∃ definition ∈ schema.types, _))

instance (schema other : Schema) (name : String) : Decidable (schema.AgreeOn other name) :=
  inferInstanceAs (Decidable (_ ∨ _))

/-! ## Contributions -/

/-- What a definition adds to a layout. -/
structure Contribution where
  forwards : List String
  declarations : List Declaration
  deferred : List Deferred
  deriving DecidableEq, Repr, Inhabited

namespace Layout

/-- The walks over the schema reach the definition with some names and some parts, and the
visits there put the contribution behind them. -/
def Contributes (schema : Schema) (encoding : Encoding) (definition : Definition)
    (added : Contribution) : Prop :=
  ∃ table front back names parts,
    TypeTable.ofSchema schema = .ok table ∧ schema.types = front ++ definition :: back ∧
      forwardCollector.walkFrom table front [] = (names, .ok ()) ∧
      forwardCollector.visit table definition names = (names ++ added.forwards, .ok ()) ∧
      (declarationBuilder encoding).walkFrom table front Parts.empty = (parts, .ok ()) ∧
      (declarationBuilder encoding).visit table definition parts =
        (parts.append ⟨added.declarations, added.deferred⟩, .ok ())

/-- The definition contributes this and nothing else. -/
def ContributesExactly (schema : Schema) (encoding : Encoding) (definition : Definition)
    (added : Contribution) : Prop :=
  ∀ other, Contributes schema encoding definition other ↔ other = added

/-- The layout is what the definitions add, one after another. -/
structure Joins (layout : Layout) (definitions : List Definition)
    (added : Definition → Contribution) : Prop where
  forwards_eq : layout.forwards = definitions.flatMap fun definition => (added definition).forwards
  declarations_eq : layout.declarations =
    definitions.flatMap fun definition => (added definition).declarations
  deferred_eq : layout.deferred = definitions.flatMap fun definition => (added definition).deferred

variable {schema other : Schema} {encoding : Encoding} {definition : Definition}

/-! ## One block for each definition -/

/-- A definition has at most one block. -/
theorem Block.unique (hdistinct : (schema.types.map Definition.name).Nodup)
    {block more : List Declaration} (h : Block schema encoding definition block)
    (hmore : Block schema encoding definition more) : block = more := by
  have htable := TypeTable.ofSchema_of_nodup hdistinct
  have hvisit : (declarationBuilder encoding).visit _ definition .empty =
      (Parts.empty.extend block, .ok ()) := (visit_eq_ok_iff htable).mpr ⟨block, h, rfl⟩
  have hagain : (declarationBuilder encoding).visit _ definition .empty =
      (Parts.empty.extend more, .ok ()) := (visit_eq_ok_iff htable).mpr ⟨more, hmore, rfl⟩
  have hsame := hvisit.symm.trans hagain
  simp only [Parts.extend, Parts.append, Parts.empty, Prod.mk.injEq, Parts.mk.injEq,
    List.nil_append, and_true] at hsame
  exact hsame.1

/-- A schema has a layout exactly if its names are distinct and each definition has a block. -/
theorem exists_build_iff :
    (∃ layout, build schema encoding = .ok layout) ↔
      (schema.types.map Definition.name).Nodup ∧
        ∀ definition ∈ schema.types, ∃ block, Block schema encoding definition block := by
  rw [← exists_forall₂_iff]
  constructor
  · rintro ⟨layout, hbuild⟩
    obtain ⟨_, ⟨hdistinct, blocks, hblocks, -⟩, -⟩ := build_eq_ok_iff.mp hbuild
    exact ⟨hdistinct, blocks, hblocks⟩
  · rintro ⟨hdistinct, blocks, hblocks⟩
    exact ⟨_, build_eq_ok_iff.mpr ⟨_, ⟨hdistinct, blocks, hblocks, rfl⟩, rfl⟩⟩

/-- The contribution of a definition with this block. -/
def contributionOf (definition : Definition) (block : List Declaration) : Contribution :=
  ⟨classNames [definition], block, block.flatMap Declaration.deferred⟩

/-- **The visit of a definition adds its block**, wherever the walk reaches it. -/
theorem contributes_iff {layout : Layout} (hbuild : build schema encoding = .ok layout)
    {added : Contribution} :
    Contributes schema encoding definition added ↔
      definition ∈ schema.types ∧
        ∃ block, Block schema encoding definition block ∧
          added = contributionOf definition block := by
  obtain ⟨_, ⟨hdistinct, blocks, hblocks, -⟩, -⟩ := build_eq_ok_iff.mp hbuild
  constructor
  · rintro ⟨table, front, back, names, parts, htable, htypes, -, hforwards, -, hvisit⟩
    obtain ⟨block, hblock, hafter⟩ := (visit_eq_ok_iff htable).mp hvisit
    simp only [Parts.extend, Parts.append, Parts.mk.injEq, List.append_cancel_left_eq] at hafter
    rw [forwardCollector_visit, Prod.mk.injEq, List.append_cancel_left_eq] at hforwards
    refine ⟨by simp [htypes], block, hblock, ?_⟩
    obtain ⟨forwards, declarations, deferred⟩ := added
    rw [contributionOf, Contribution.mk.injEq]
    exact ⟨hforwards.1.symm, hafter.1, hafter.2⟩
  · rintro ⟨hmem, block, hblock, rfl⟩
    obtain ⟨front, back, htypes⟩ := List.append_of_mem hmem
    have htable := TypeTable.ofSchema_of_nodup hdistinct
    rw [htypes] at hblocks
    obtain ⟨before, -, -, -, hbefore, -, -⟩ := forall₂_split_left hblocks
    exact ⟨_, front, back, _, _, htable, htypes, forwardCollector_walkFrom _ _ _,
      forwardCollector_visit _ _ _, (walkFrom_eq_ok_iff htable).mpr ⟨before, hbefore, rfl⟩,
      (visit_eq_ok_iff htable).mpr ⟨block, hblock, rfl⟩⟩

theorem contributesExactly_of_block {layout : Layout} (hbuild : build schema encoding = .ok layout)
    (hmem : definition ∈ schema.types) {block : List Declaration}
    (hblock : Block schema encoding definition block) :
    ContributesExactly schema encoding definition (contributionOf definition block) := by
  obtain ⟨_, ⟨hdistinct, -⟩, -⟩ := build_eq_ok_iff.mp hbuild
  intro added
  rw [contributes_iff hbuild]
  constructor
  · rintro ⟨-, more, hmore, rfl⟩
    rw [hblock.unique hdistinct hmore]
  · rintro rfl
    exact ⟨hmem, block, hblock, rfl⟩

theorem classNames_eq_flatMap (definitions : List Definition) :
    classNames definitions = definitions.flatMap fun definition => classNames [definition] := by
  induction definitions with
  | nil => rfl
  | cons definition rest ih => rw [classNames_cons, ih, List.flatMap_cons]

/-- **A layout is the contributions of its definitions, in order.** -/
theorem joins_of_build {layout : Layout} (hbuild : build schema encoding = .ok layout)
    {added : Definition → Contribution}
    (hadded : ∀ definition ∈ schema.types,
      ContributesExactly schema encoding definition (added definition)) :
    layout.Joins schema.types added := by
  obtain ⟨_, ⟨-, blocks, hblocks, rfl⟩, rfl⟩ := build_eq_ok_iff.mp hbuild
  have hof : ∀ definition ∈ schema.types, ∀ block, Block schema encoding definition block →
      added definition = contributionOf definition block := by
    intro definition hmem block hblock
    exact ((hadded definition hmem _).mp
      ((contributes_iff hbuild).mpr ⟨hmem, block, hblock, rfl⟩)).symm
  have hparts : ∀ definition ∈ schema.types,
      added definition = contributionOf definition (added definition).declarations := by
    intro definition hmem
    obtain ⟨block, -, hblock⟩ := exists_right_of_forall₂ hblocks hmem
    rw [hof definition hmem block hblock]
    rfl
  have hdeclared : blocks = schema.types.map fun definition => (added definition).declarations := by
    refine eq_map_of_forall₂ hblocks ?_
    intro definition hmem block hblock
    rw [hof definition hmem block hblock]
    rfl
  have hflatten : blocks.flatten =
      schema.types.flatMap fun definition => (added definition).declarations := by
    rw [hdeclared, List.flatMap_def]
  refine ⟨?_, hflatten, ?_⟩
  · rw [classNames_eq_flatMap]
    refine List.flatMap_congr fun definition hmem => ?_
    rw [hparts definition hmem]
    rfl
  · show blocks.flatten.flatMap Declaration.deferred = _
    rw [hflatten, List.flatMap_assoc]
    refine List.flatMap_congr fun definition hmem => ?_
    rw [hparts definition hmem]
    rfl

/-! ## The same block in another schema -/

/-- What a field is read as in one schema, it is read as in a schema with more definitions. -/
theorem FieldValue.mono (hsub : schema.types ⊆ other.types) {field : Field} {value : ValueKind}
    (h : FieldValue schema field value) : FieldValue other field value := by
  cases h with
  | builtin hname => exact .builtin hname
  | enumeration hnone hmem hname henum => exact .enumeration hnone (hsub hmem) hname henum
  | object hnone hmem hname hobject => exact .object hnone (hsub hmem) hname hobject

/-- Names are distinct, so a schema defines a name in one of the two ways only. -/
theorem not_definesClasses (hdistinct : (schema.types.map Definition.name).Nodup) {name : String}
    (h : schema.DefinesEnumeration name) : ¬ schema.DefinesClasses name := by
  rintro ⟨used, hused, hname, hclasses⟩
  obtain ⟨same, hsame, hsameName, henum⟩ := h
  rw [List.inj_on_of_nodup_map hdistinct hused hsame (hname.trans hsameName.symm)] at hclasses
  exact hclasses henum

/-- Schemas that agree on the type of a field read it as the same value. -/
theorem FieldValue.of_agreeOn (hdistinct : (schema.types.map Definition.name).Nodup)
    {field : Field} (hagree : NamesNoBuiltin field.typeName → schema.AgreeOn other field.typeName)
    {value : ValueKind} (h : FieldValue schema field value) : FieldValue other field value := by
  cases h with
  | builtin hname => exact .builtin hname
  | @enumeration used hnone hused hname henum =>
    have henumeration : schema.DefinesEnumeration field.typeName := ⟨used, hused, hname, henum⟩
    rcases hagree hnone with ⟨-, same, hsame, hsameName, hsameEnum⟩ | ⟨hclasses, -⟩
    · exact .enumeration hnone hsame hsameName hsameEnum
    · exact absurd hclasses (not_definesClasses hdistinct henumeration)
  | @object used hnone hused hname hobject =>
    have hclasses : schema.DefinesClasses field.typeName := ⟨used, hused, hname, hobject⟩
    rcases hagree hnone with ⟨henumeration, -⟩ | ⟨-, same, hsame, hsameName, hsameObject⟩
    · exact absurd hclasses (not_definesClasses hdistinct henumeration)
    · exact .object hnone hsame hsameName hsameObject

theorem Slots.transfer {offset : UInt32} {fields : List Field} {accessors : List Accessor}
    (h : Slots schema encoding offset fields accessors)
    (hfields : ∀ field ∈ fields, ∀ value, FieldValue schema field value →
      FieldValue other field value) :
    Slots other encoding offset fields accessors := by
  induction h with
  | nil => exact .nil
  | cons hof _ ih =>
    rw [List.forall_mem_cons] at hfields
    exact .cons ⟨hof.one_mark, hof.field_eq, hof.offset_eq, hfields.1 _ hof.value,
      hof.cardinality_eq⟩ (ih hfields.2)

/-- **A block reads its schema through the fields of its classes only.** -/
theorem Block.transfer {block : List Declaration} (h : Block schema encoding definition block)
    (hfields : ∀ ref fields, definition.HasClass ref fields → ∀ field ∈ fields, ∀ value,
      FieldValue schema field value → FieldValue other field value) :
    Block other encoding definition block := by
  cases h with
  | simpleSum hsimple henum hattributes => exact .simpleSum hsimple henum hattributes
  | @compoundSum name sum _ _ _ hcompound henum hattributes hclasses =>
    refine .compoundSum hcompound henum hattributes ?_
    have hvariants := (List.forall₂_and_left _ _).mpr
      ⟨fun variant (hmem : variant ∈ sum.withFields) => mem_withFields.mp hmem, hclasses⟩
    refine hvariants.imp fun variant cls hboth => ?_
    obtain ⟨⟨hmem, hne⟩, hof⟩ := hboth
    exact ⟨hof.ref_eq, hof.slots.transfer (hfields _ _ (.variant hmem hne)), hof.attributes⟩
  | product hof =>
    exact .product ⟨hof.ref_eq, hof.slots.transfer (hfields _ _ .product), hof.attributes⟩

/-! ## Locality -/

/-- **What a definition contributes is its own.** In two schemas that agree on every type that
it mentions it contributes the same, and nothing else. A permuted schema has a layout exactly
if the schema has one, and both layouts are the same contributions, each in its order. -/
theorem contributions_local (encoding : Encoding) :
    (∀ schema other layout layout' definition, build schema encoding = .ok layout →
      build other encoding = .ok layout' → definition ∈ schema.types → definition ∈ other.types →
      (∀ typeName, definition.Mentions typeName → NamesNoBuiltin typeName →
        schema.AgreeOn other typeName) →
      ∃ added, ContributesExactly schema encoding definition added ∧
        ContributesExactly other encoding definition added) ∧
    (∀ (schema : Schema) (types : List Definition), types.Perm schema.types →
      ((∃ layout, build schema encoding = .ok layout) ↔
        ∃ layout, build { schema with types := types } encoding = .ok layout) ∧
      ∀ layout permuted, build schema encoding = .ok layout →
        build { schema with types := types } encoding = .ok permuted →
        ∃ added : Definition → Contribution,
          (∀ definition ∈ schema.types,
            ContributesExactly schema encoding definition (added definition) ∧
              ContributesExactly { schema with types := types } encoding definition
                (added definition)) ∧
          layout.Joins schema.types added ∧ permuted.Joins types added) := by
  constructor
  · intro schema other layout layout' definition hbuild hother hmem hmem' hagree
    obtain ⟨_, ⟨hdistinct, blocks, hblocks, -⟩, -⟩ := build_eq_ok_iff.mp hbuild
    obtain ⟨block, -, hblock⟩ := exists_right_of_forall₂ hblocks hmem
    have hblock' : Block other encoding definition block := by
      refine hblock.transfer fun ref fields hclass field hfield value hvalue => ?_
      exact hvalue.of_agreeOn hdistinct (hagree _ ⟨ref, fields, hclass, field, hfield, rfl⟩)
    exact ⟨contributionOf definition block, contributesExactly_of_block hbuild hmem hblock,
      contributesExactly_of_block hother hmem' hblock'⟩
  · intro schema types hperm
    have htransfer : ∀ definition block, Block schema encoding definition block ↔
        Block { schema with types := types } encoding definition block := by
      intro definition block
      constructor
      · exact fun h => h.transfer fun _ _ _ _ _ _ hvalue => hvalue.mono hperm.symm.subset
      · exact fun h => h.transfer fun _ _ _ _ _ _ hvalue => hvalue.mono hperm.subset
    constructor
    · rw [exists_build_iff, exists_build_iff]
      show _ ↔ (types.map Definition.name).Nodup ∧ ∀ definition ∈ types, ∃ block,
        Block { schema with types := types } encoding definition block
      rw [(hperm.map Definition.name).nodup_iff]
      simp only [hperm.mem_iff, htransfer]
    · intro layout permuted hbuild hpermuted
      have hexists : ∀ definition ∈ schema.types, ∃ added,
          ContributesExactly schema encoding definition added ∧
            ContributesExactly { schema with types := types } encoding definition added := by
        intro definition hmem
        obtain ⟨block, hblock⟩ := (exists_build_iff.mp ⟨layout, hbuild⟩).2 definition hmem
        exact ⟨contributionOf definition block, contributesExactly_of_block hbuild hmem hblock,
          contributesExactly_of_block hpermuted (hperm.mem_iff.mpr hmem)
            ((htransfer definition block).mp hblock)⟩
      choose! added hadded using hexists
      refine ⟨added, hadded,
        joins_of_build hbuild fun definition hmem => (hadded definition hmem).1, ?_⟩
      exact joins_of_build hpermuted fun definition hmem =>
        (hadded definition (hperm.mem_iff.mp hmem)).2

/-- A product that mentions an enumeration, itself and another type with classes. -/
def sharedNode : Definition :=
  ⟨"node", .product ⟨[⟨"kind", "op", false, false⟩, ⟨"next", "node", false, true⟩,
    ⟨"rest", "leaf", true, false⟩], []⟩⟩

/-- The product above its types, of which one is a product. -/
def nodeAbove : Schema :=
  ⟨"m", [sharedNode, ⟨"op", .sum ⟨[⟨"Add", []⟩], []⟩⟩,
    ⟨"leaf", .product ⟨[⟨"n", "int", false, false⟩], []⟩⟩]⟩

/-- The product below its types, where the other type is a sum and the enumeration has other
constructors. -/
def nodeBelow : Schema :=
  ⟨"n", [⟨"leaf", .sum ⟨[⟨"Nil", []⟩, ⟨"One", [⟨"n", "int", false, false⟩]⟩], []⟩⟩,
    ⟨"op", .sum ⟨[⟨"Or", []⟩, ⟨"And", []⟩], []⟩⟩, sharedNode]⟩

theorem nodeAbove_agreeOn {typeName : String} (h : sharedNode.Mentions typeName) :
    nodeAbove.AgreeOn nodeBelow typeName := by
  obtain ⟨ref, fields, hclass, field, hfield, rfl⟩ := h
  cases hclass
  have hall : ∀ field ∈ [⟨"kind", "op", false, false⟩, ⟨"next", "node", false, true⟩,
      (⟨"rest", "leaf", true, false⟩ : Field)], nodeAbove.AgreeOn nodeBelow field.typeName := by
    decide
  exact hall field hfield

theorem contributions_of_sharedNode :
    (∃ added, ContributesExactly nodeAbove .standard sharedNode added ∧
      ContributesExactly nodeBelow .standard sharedNode added) ∧
    ∃ layout permuted added, build nodeAbove .standard = .ok layout ∧
      build { nodeAbove with types := nodeAbove.types.reverse } .standard = .ok permuted ∧
      layout.Joins nodeAbove.types added ∧ permuted.Joins nodeAbove.types.reverse added := by
  have habove : build nodeAbove .standard = .ok _ := rfl
  have hbelow : build nodeBelow .standard = .ok _ := rfl
  have hreversed : build { nodeAbove with types := nodeAbove.types.reverse } .standard =
      .ok _ := rfl
  refine ⟨(contributions_local .standard).1 _ _ _ _ _ habove hbelow (by simp [nodeAbove])
    (by simp [nodeBelow]) fun _ hmentions _ => nodeAbove_agreeOn hmentions, ?_⟩
  obtain ⟨added, -, hjoins, hpermuted⟩ := ((contributions_local .standard).2 nodeAbove
    nodeAbove.types.reverse nodeAbove.types.reverse_perm).2 _ _ habove hreversed
  exact ⟨_, _, added, habove, hreversed, hjoins, hpermuted⟩

end Layout

end ReaderGen
