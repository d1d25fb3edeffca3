import ReaderGen.Layout
import ReaderGen.Proofs.Lists
import ReaderGen.Proofs.TypeTable
import Mathlib.Data.List.Range

/-!
# ReaderGen.Proofs.Layout.Denotation -- what a schema means as declarations

This module says which declarations a schema stands for, relation by relation over the
data of the schema, without a table, a walk or any function of the builder:

* a definition denotes one block of declarations (`Block`);
* a schema with distinct names denotes the blocks of its definitions, in order
  (`Denotes`);
* declarations have one queue, the accessors of their classes that read an object
  (`Queues`).

The names that are declared ahead are a function of the definitions. That the builder
computes exactly these is the business of `ReaderGen.Proofs.Layout.Exact`.
-/

namespace ReaderGen

/-- The constructors that have a class. -/
def Sum.withFields (sum : Sum) : List Constructor :=
  sum.variants.filter fun variant => !variant.fields.isEmpty

/-- Which classes a definition has, each with the fields that it reads: a product has one,
a sum one for each constructor with fields. -/
inductive Definition.HasClass : Definition → ClassRef → List Field → Prop
  | product {name : String} {product : Product} :
      Definition.HasClass ⟨name, .product product⟩ (.product name) product.fields
  | variant {name : String} {sum : Sum} {variant : Constructor} : variant ∈ sum.variants →
      variant.fields ≠ [] →
      Definition.HasClass ⟨name, .sum sum⟩ (.variant name variant.name) variant.fields

/-- Where the slots of a class start: behind the tag byte in a constructor's class. -/
def ClassRef.firstOffset : ClassRef → UInt32
  | .product _ => 0
  | .variant _ _ => 1

/-- The accessor reads an object, one or many, present or perhaps not. -/
def Accessor.ReadsObject (accessor : Accessor) : Prop :=
  ∃ typeName isOptional, accessor.value = .object typeName isOptional

theorem Accessor.isDeferred_iff (accessor : Accessor) :
    accessor.isDeferred = true ↔ accessor.ReadsObject := by
  rw [isDeferred, ReadsObject]
  cases accessor.value with
  | object typeName isOptional => simp
  | _ => simp

/-- The deferred accessors of a class, in order. -/
def AccessorClass.deferred (cls : AccessorClass) : List Deferred :=
  (cls.accessors.filter Accessor.isDeferred).map (Deferred.mk cls.ref)

/-- The deferred accessors of a declaration; only a class has any. -/
def Declaration.deferred : Declaration → List Deferred
  | .accessorClass cls => cls.deferred
  | _ => []

namespace Layout

/-! ## What the parts of a definition denote -/

/-- Tags count from one in the order of the constructors. The values are compared as
numbers, so none is zero, none repeats and none wraps around. -/
structure EnumerationOf (name : String) (sum : Sum) (enumeration : Enumeration) : Prop where
  typeName_eq : enumeration.typeName = name
  names : enumeration.variants.map EnumVariant.name = sum.variants.map Constructor.name
  values : enumeration.variants.map (fun variant => variant.value.toNat) =
    List.range' 1 sum.variants.length

/-- An attribute keeps the name and the builtin type of its field. -/
structure AttributeOf (field : Field) (member : Attribute) : Prop where
  name_eq : member.name = field.name
  builtin_eq : member.builtin.name = field.typeName

/-- The values of a builtin type. -/
def builtinValue : Builtin → ValueKind
  | .string => .str
  | .int => .int
  | .bool => .bool
  | .id => .id

/-- What a field is read as: a builtin value, else the enumeration or the object of the
definition that its type name names. -/
inductive FieldValue (schema : Schema) (field : Field) : ValueKind → Prop
  | builtin {builtin : Builtin} : builtin.name = field.typeName →
      FieldValue schema field (builtinValue builtin)
  | enumeration {definition : Definition} : NamesNoBuiltin field.typeName →
      definition ∈ schema.types → definition.name = field.typeName →
      definition.IsEnumeration → FieldValue schema field (.enumeration field.typeName)
  | object {definition : Definition} : NamesNoBuiltin field.typeName →
      definition ∈ schema.types → definition.name = field.typeName →
      ¬ definition.IsEnumeration →
      FieldValue schema field (.object field.typeName field.isOptional)

/-- The accessor of a field whose slot stands at `offset`. -/
structure AccessorOf (schema : Schema) (encoding : Encoding) (offset : UInt32) (field : Field)
    (accessor : Accessor) : Prop where
  one_mark : ¬ (field.isSequence = true ∧ field.isOptional = true)
  field_eq : accessor.field = field.name
  offset_eq : accessor.offset = offset
  value : FieldValue schema field accessor.value
  cardinality_eq : accessor.cardinality =
    if field.isSequence = true then .repeated encoding.arrayStride else .single

/-- The accessors of fields whose slots stand one width apart from `offset` on. -/
inductive Slots (schema : Schema) (encoding : Encoding) :
    UInt32 → List Field → List Accessor → Prop
  | nil {offset : UInt32} : Slots schema encoding offset [] []
  | cons {offset : UInt32} {field : Field} {fields : List Field} {accessor : Accessor}
      {accessors : List Accessor} : AccessorOf schema encoding offset field accessor →
      Slots schema encoding (offset + encoding.refWidth) fields accessors →
      Slots schema encoding offset (field :: fields) (accessor :: accessors)

/-- The class of fields that start at `offset`, with its attributes. -/
structure ClassOf (schema : Schema) (encoding : Encoding) (ref : ClassRef) (offset : UInt32)
    (fields attributes : List Field) (cls : AccessorClass) : Prop where
  ref_eq : cls.ref = ref
  slots : Slots schema encoding offset fields cls.accessors
  attributes : List.Forall₂ AttributeOf attributes cls.attributes

/-- The class of a constructor: byte zero is the tag, and it has no attributes. -/
def VariantClass (schema : Schema) (encoding : Encoding) (sumName : String)
    (variant : Constructor) (cls : AccessorClass) : Prop :=
  ClassOf schema encoding (.variant sumName variant.name) 1 variant.fields [] cls

theorem VariantClass.exists_accessors {schema : Schema} {encoding : Encoding} {sumName : String}
    {variant : Constructor} {cls : AccessorClass}
    (h : VariantClass schema encoding sumName variant cls) :
    ∃ accessors, Slots schema encoding 1 variant.fields accessors ∧
      cls = ⟨.variant sumName variant.name, accessors, []⟩ := by
  obtain ⟨ref, accessors, attributes⟩ := cls
  have href : ref = .variant sumName variant.name := h.ref_eq
  have hnone : attributes = [] := List.forall₂_nil_left_iff.mp h.attributes
  subst href hnone
  exact ⟨accessors, h.slots, rfl⟩

/-- The declarations that one definition denotes. -/
inductive Block (schema : Schema) (encoding : Encoding) : Definition → List Declaration → Prop
  | simpleSum {name : String} {sum : Sum} {enumeration : Enumeration}
      {attributes : List Attribute} :
      (∀ variant ∈ sum.variants, variant.fields = []) →
      EnumerationOf name sum enumeration →
      List.Forall₂ AttributeOf sum.attributes attributes →
      Block schema encoding ⟨name, .sum sum⟩ [.enumeration enumeration]
  | compoundSum {name : String} {sum : Sum} {enumeration : Enumeration}
      {attributes : List Attribute} {classes : List AccessorClass} :
      ¬ (∀ variant ∈ sum.variants, variant.fields = []) →
      EnumerationOf name sum enumeration →
      List.Forall₂ AttributeOf sum.attributes attributes →
      List.Forall₂ (VariantClass schema encoding name) sum.withFields classes →
      Block schema encoding ⟨name, .sum sum⟩
        (.enumeration enumeration :: .taggedBase ⟨name, attributes⟩ ::
          classes.map .accessorClass)
  | product {name : String} {product : Product} {cls : AccessorClass} :
      ClassOf schema encoding (.product name) 0 product.fields product.attributes cls →
      Block schema encoding ⟨name, .product product⟩ [.accessorClass cls]

/-- The declarations that a schema denotes: the blocks of its definitions, in order. -/
structure Denotes (schema : Schema) (encoding : Encoding) (declarations : List Declaration) :
    Prop where
  distinct : (schema.types.map Definition.name).Nodup
  blocks : ∃ blocks : List (List Declaration),
    List.Forall₂ (Block schema encoding) schema.types blocks ∧ declarations = blocks.flatten

/-- The names that must be declared ahead: those of the definitions that have classes. -/
def classNames (definitions : List Definition) : List String :=
  (definitions.filter fun definition => definition.shape.isClass).map Definition.name

theorem classNames_cons (definition : Definition) (rest : List Definition) :
    classNames (definition :: rest) = classNames [definition] ++ classNames rest := by
  rw [classNames, classNames, classNames, ← List.map_append, ← List.filter_append,
    List.singleton_append]

/-! ## Classes in a block -/

theorem mem_withFields {sum : Sum} {variant : Constructor} :
    variant ∈ sum.withFields ↔ variant ∈ sum.variants ∧ variant.fields ≠ [] := by
  rw [Sum.withFields, List.mem_filter, Bool.not_eq_true', List.isEmpty_eq_false_iff]

section Classes

variable {schema : Schema} {encoding : Encoding} {definition : Definition}
  {block : List Declaration}

/-- A class in the block of a definition is one of the classes of that definition. -/
theorem Block.hasClass_of_mem (h : Block schema encoding definition block)
    {cls : AccessorClass} (hmem : .accessorClass cls ∈ block) :
    ∃ fields, definition.HasClass cls.ref fields ∧
      Slots schema encoding cls.ref.firstOffset fields cls.accessors := by
  cases h with
  | simpleSum _ _ _ =>
    rw [List.mem_singleton] at hmem
    cases hmem
  | @compoundSum name sum _ _ classes _ _ _ hclasses =>
    have hcls : cls ∈ classes := by
      simpa using hmem
    obtain ⟨variant, hvariant, hfrom⟩ := exists_left_of_forall₂ hclasses hcls
    obtain ⟨hmem, hfields⟩ := mem_withFields.mp hvariant
    refine ⟨variant.fields, ?_, ?_⟩
    · rw [hfrom.ref_eq]
      exact .variant hmem hfields
    · rw [hfrom.ref_eq]
      exact hfrom.slots
  | @product name product cls' hcls =>
    rw [List.mem_singleton] at hmem
    cases hmem
    refine ⟨product.fields, ?_, ?_⟩
    · rw [hcls.ref_eq]
      exact .product
    · rw [hcls.ref_eq]
      exact hcls.slots

/-- Each class of a definition stands in its block. -/
theorem Block.exists_class (h : Block schema encoding definition block) {ref : ClassRef}
    {fields : List Field} (hclass : definition.HasClass ref fields) :
    ∃ cls : AccessorClass, .accessorClass cls ∈ block ∧ cls.ref = ref ∧
      Slots schema encoding ref.firstOffset fields cls.accessors := by
  cases hclass with
  | @product name product =>
    cases h with
    | @product _ _ cls hcls =>
      exact ⟨cls, List.mem_singleton_self _, hcls.ref_eq, hcls.slots⟩
  | @variant name sum variant hvariant hfields =>
    cases h with
    | simpleSum hsimple _ _ => exact absurd (hsimple variant hvariant) hfields
    | @compoundSum _ _ _ _ classes _ _ _ hclasses =>
      obtain ⟨cls, hmem, hcls⟩ :=
        exists_right_of_forall₂ hclasses (mem_withFields.mpr ⟨hvariant, hfields⟩)
      exact ⟨cls, by simp [hmem], hcls.ref_eq, hcls.slots⟩

/-- An accessor of a class reads one of the fields of the class. -/
theorem Slots.exists_field {offset : UInt32} {fields : List Field} {accessors : List Accessor}
    (h : Slots schema encoding offset fields accessors) {accessor : Accessor}
    (hmem : accessor ∈ accessors) :
    ∃ field ∈ fields, ∃ slot, AccessorOf schema encoding slot field accessor := by
  induction h with
  | nil => cases hmem
  | @cons offset field fields first accessors hfirst _ ih =>
    rcases List.mem_cons.mp hmem with rfl | hrest
    · exact ⟨field, List.mem_cons_self .., offset, hfirst⟩
    · obtain ⟨other, hother, slot, hof⟩ := ih hrest
      exact ⟨other, List.mem_cons_of_mem _ hother, slot, hof⟩

/-- Each class among the declarations is a class of a definition of the schema. -/
theorem Denotes.hasClass_of_mem {declarations : List Declaration}
    (h : Denotes schema encoding declarations) {cls : AccessorClass}
    (hmem : .accessorClass cls ∈ declarations) :
    ∃ definition ∈ schema.types, ∃ fields, definition.HasClass cls.ref fields ∧
      Slots schema encoding cls.ref.firstOffset fields cls.accessors := by
  obtain ⟨-, blocks, hblocks, rfl⟩ := h
  obtain ⟨block, hblock, hcls⟩ := List.mem_flatten.mp hmem
  obtain ⟨definition, hdefinition, hof⟩ := exists_left_of_forall₂ hblocks hblock
  exact ⟨definition, hdefinition, hof.hasClass_of_mem hcls⟩

end Classes

/-! ## The queue of given declarations -/

/-- The queue of some accessors of a class: those that read an object, in order, each with
the class. -/
inductive QueueOf (owner : ClassRef) : List Accessor → List Deferred → Prop
  | nil : QueueOf owner [] []
  | object {accessor : Accessor} {accessors : List Accessor} {queue : List Deferred} :
      accessor.ReadsObject → QueueOf owner accessors queue →
      QueueOf owner (accessor :: accessors) (⟨owner, accessor⟩ :: queue)
  | other {accessor : Accessor} {accessors : List Accessor} {queue : List Deferred} :
      ¬ accessor.ReadsObject → QueueOf owner accessors queue →
      QueueOf owner (accessor :: accessors) queue

/-- The queue of some declarations: the queues of their classes, in order. -/
inductive Queues : List Declaration → List Deferred → Prop
  | nil : Queues [] []
  | enumeration {body : Enumeration} {rest : List Declaration} {queue : List Deferred} :
      Queues rest queue → Queues (.enumeration body :: rest) queue
  | taggedBase {body : TaggedBase} {rest : List Declaration} {queue : List Deferred} :
      Queues rest queue → Queues (.taggedBase body :: rest) queue
  | accessorClass {body : AccessorClass} {rest : List Declaration}
      {queue more : List Deferred} : QueueOf body.ref body.accessors queue → Queues rest more →
      Queues (.accessorClass body :: rest) (queue ++ more)

theorem queueOf_iff {owner : ClassRef} {accessors : List Accessor} {queue : List Deferred} :
    QueueOf owner accessors queue ↔
      queue = (accessors.filter Accessor.isDeferred).map (Deferred.mk owner) := by
  constructor
  · intro h
    induction h with
    | nil => rfl
    | object hobject _ ih =>
      rw [List.filter_cons_of_pos ((Accessor.isDeferred_iff _).mpr hobject), List.map_cons, ih]
    | other hother _ ih =>
      rw [List.filter_cons_of_neg (mt (Accessor.isDeferred_iff _).mp hother), ih]
  · rintro rfl
    induction accessors with
    | nil => exact .nil
    | cons accessor accessors ih =>
      by_cases hobject : accessor.ReadsObject
      · rw [List.filter_cons_of_pos (accessor.isDeferred_iff.mpr hobject)]
        exact .object hobject ih
      · rw [List.filter_cons_of_neg (mt accessor.isDeferred_iff.mp hobject)]
        exact .other hobject ih

theorem queues_iff {declarations : List Declaration} {queue : List Deferred} :
    Queues declarations queue ↔ queue = declarations.flatMap Declaration.deferred := by
  constructor
  · intro h
    induction h with
    | nil => rfl
    | enumeration _ ih => exact ih
    | taggedBase _ ih => exact ih
    | accessorClass hqueue _ ih =>
      rw [List.flatMap_cons, ← ih, queueOf_iff.mp hqueue]
      rfl
  · rintro rfl
    induction declarations with
    | nil => exact .nil
    | cons declaration rest ih =>
      cases declaration with
      | enumeration body => exact .enumeration ih
      | taggedBase body => exact .taggedBase ih
      | accessorClass body => exact .accessorClass (queueOf_iff.mpr rfl) ih

theorem Queues.append {declarations more : List Declaration} {queue added : List Deferred}
    (h : Queues declarations queue) (hmore : Queues more added) :
    Queues (declarations ++ more) (queue ++ added) := by
  rw [queues_iff] at h hmore ⊢
  rw [h, hmore, List.flatMap_append]

/-- A deferred accessor in a queue is one of the accessors of its class. -/
theorem exists_class_of_deferred {declarations : List Declaration} {deferred : Deferred}
    (h : deferred ∈ declarations.flatMap Declaration.deferred) :
    ∃ cls : AccessorClass, .accessorClass cls ∈ declarations ∧ cls.ref = deferred.owner ∧
      deferred.accessor ∈ cls.accessors ∧ deferred.accessor.isDeferred = true := by
  obtain ⟨declaration, hdeclaration, hof⟩ := List.mem_flatMap.mp h
  cases declaration with
  | enumeration body => cases hof
  | taggedBase body => cases hof
  | accessorClass cls =>
    obtain ⟨accessor, haccessor, rfl⟩ := List.mem_map.mp hof
    obtain ⟨hmem, hdeferred⟩ := List.mem_filter.mp haccessor
    exact ⟨cls, hdeclaration, rfl, hmem, hdeferred⟩

/-! ## Tags -/

/-- Tags fit in a byte, so an enumeration has at most 255 variants. -/
theorem EnumerationOf.length_le {name : String} {sum : Sum} {enumeration : Enumeration}
    (h : EnumerationOf name sum enumeration) : sum.variants.length ≤ 255 := by
  by_contra hmany
  rw [Nat.not_le] at hmany
  have hlast : 256 ∈ List.range' 1 sum.variants.length := by
    rw [List.mem_range'_1]
    omega
  rw [← h.values, List.mem_map] at hlast
  obtain ⟨variant, -, hvalue⟩ := hlast
  have hbound : variant.value.toNat < 256 := variant.value.toNat_lt
  omega

/-- The values of an enumeration are tags: none is the zero that means "no tag", and no two
are equal. -/
structure TagsFit (enumeration : Enumeration) : Prop where
  nonzero : ∀ variant ∈ enumeration.variants, variant.value ≠ 0
  distinct : (enumeration.variants.map EnumVariant.value).Nodup
  count_le : enumeration.variants.length ≤ 255

theorem EnumerationOf.tagsFit {name : String} {sum : Sum} {enumeration : Enumeration}
    (h : EnumerationOf name sum enumeration) : TagsFit enumeration := by
  have hlength : enumeration.variants.length = sum.variants.length := by
    rw [← List.length_map (f := EnumVariant.name), h.names, List.length_map]
  refine ⟨?_, ?_, ?_⟩
  · intro variant hmem hzero
    have hvalue : variant.value.toNat ∈ List.range' 1 sum.variants.length := by
      rw [← h.values]
      exact List.mem_map_of_mem hmem
    rw [hzero, List.mem_range'_1] at hvalue
    exact absurd hvalue.1 (by decide)
  · apply List.Nodup.of_map UInt8.toNat
    rw [List.map_map]
    have hvalues : enumeration.variants.map (UInt8.toNat ∘ EnumVariant.value) =
        List.range' 1 sum.variants.length := h.values
    rw [hvalues]
    exact List.nodup_range' ..
  · rw [hlength]
    exact h.length_le

theorem Block.tagsFit {schema : Schema} {encoding : Encoding} {definition : Definition}
    {block : List Declaration} (h : Block schema encoding definition block)
    {enumeration : Enumeration} (hmem : .enumeration enumeration ∈ block) :
    TagsFit enumeration := by
  cases h with
  | simpleSum _ henum _ =>
    rw [List.mem_singleton] at hmem
    cases hmem
    exact henum.tagsFit
  | compoundSum _ henum _ _ =>
    simp only [List.mem_cons, List.mem_map, reduceCtorEq, and_false, exists_false, or_false,
      Declaration.enumeration.injEq] at hmem
    rw [hmem]
    exact henum.tagsFit
  | product _ =>
    rw [List.mem_singleton] at hmem
    cases hmem

end Layout

end ReaderGen
