import ReaderGen.Proofs.Layout.DeclarationOrder

/-!
# ReaderGen.Proofs.Layout.References -- every name that a layout uses is declared in it

The names that are declared ahead are collected by one walk, the declarations by another,
and what an accessor returns is named by the table. **A layout is closed: the names ahead are
exactly those of its tagged bases and product classes, each once, and whatever an accessor
returns or a class is based on is declared where it is needed** (`closed_of_build`).

The order of an enumeration and the classes that read it is not promised here; it is that of
the schema, as `ReaderGen.Proofs.Layout.DeclarationOrder` says.
-/

namespace ReaderGen

/-! ## Names and their declarations -/

/-- The type whose class a declaration is, if that class is declared ahead: a tagged base or
the class of a product. A constructor's class goes by the name of the constructor. -/
def Declaration.aheadName? : Declaration → Option String
  | .enumeration _ => none
  | .taggedBase base => some base.typeName
  | .accessorClass cls =>
    match cls.ref with
    | .product typeName => some typeName
    | .variant _ _ => none

/-- The accessors of a declaration; only a class has any. -/
def Declaration.accessors : Declaration → List Accessor
  | .accessorClass cls => cls.accessors
  | _ => []

/-- Every accessor of a layout, in its class and in the queue of bodies. -/
def Layout.accessors (layout : Layout) : List Accessor :=
  layout.declarations.flatMap Declaration.accessors ++ layout.deferred.map Deferred.accessor

/-- One of these declarations is the enumeration of the type. -/
def DeclaresEnumeration (declarations : List Declaration) (typeName : String) : Prop :=
  ∃ enumeration : Enumeration, .enumeration enumeration ∈ declarations ∧
    enumeration.typeName = typeName

/-- One of these declarations is the tagged base of the type. -/
def DeclaresBase (declarations : List Declaration) (typeName : String) : Prop :=
  ∃ base : TaggedBase, .taggedBase base ∈ declarations ∧ base.typeName = typeName

/-- The names in a layout are declared in it. An object's name stands ahead, an enumeration's
among the declarations and never ahead. Above a constructor's class stands the tagged base of
its sum, and above a tagged base the enumeration of the sum. -/
structure Layout.Closed (layout : Layout) : Prop where
  forwards_eq : layout.forwards = layout.declarations.filterMap Declaration.aheadName?
  forwards_nodup : layout.forwards.Nodup
  object_ahead : ∀ accessor ∈ layout.accessors, ∀ typeName isOptional,
    accessor.value = .object typeName isOptional → typeName ∈ layout.forwards
  enumeration_declared : ∀ accessor ∈ layout.accessors, ∀ typeName,
    accessor.value = .enumeration typeName →
      DeclaresEnumeration layout.declarations typeName ∧ typeName ∉ layout.forwards
  base_above : ∀ (k : ℕ) (cls : AccessorClass) (sumName constructor : String),
    layout.declarations[k]? = some (.accessorClass cls) → cls.ref = .variant sumName constructor →
      DeclaresBase (layout.declarations.take k) sumName
  enumeration_above : ∀ (k : ℕ) (base : TaggedBase),
    layout.declarations[k]? = some (.taggedBase base) →
      DeclaresEnumeration (layout.declarations.take k) base.typeName

theorem DeclaresEnumeration.mono {declarations more : List Declaration} {typeName : String}
    (h : DeclaresEnumeration declarations typeName) (hsub : declarations ⊆ more) :
    DeclaresEnumeration more typeName := by
  obtain ⟨enumeration, hmem, hname⟩ := h
  exact ⟨enumeration, hsub hmem, hname⟩

theorem DeclaresBase.mono {declarations more : List Declaration} {typeName : String}
    (h : DeclaresBase declarations typeName) (hsub : declarations ⊆ more) :
    DeclaresBase more typeName := by
  obtain ⟨base, hmem, hname⟩ := h
  exact ⟨base, hsub hmem, hname⟩

namespace Layout

/-! ## Names ahead -/

theorem mem_classNames {definitions : List Definition} {name : String} :
    name ∈ classNames definitions ↔
      ∃ definition ∈ definitions, ¬ definition.IsEnumeration ∧ definition.name = name := by
  simp only [classNames, List.mem_map, List.mem_filter, Definition.isClass_shape_eq_true_iff,
    and_assoc]

theorem classNames_of_isEnumeration {definition : Definition} (h : definition.IsEnumeration) :
    classNames [definition] = [] := by
  rw [classNames, List.filter_singleton, definition.isClass_shape_eq_false_iff.mpr h]
  rfl

theorem classNames_of_not_isEnumeration {definition : Definition}
    (h : ¬ definition.IsEnumeration) : classNames [definition] = [definition.name] := by
  rw [classNames, List.filter_singleton, definition.isClass_shape_eq_true_iff.mpr h]
  rfl

variable {schema : Schema} {encoding : Encoding}

/-- A block has the name ahead that the collector adds for its definition. -/
theorem Block.aheadNames {definition : Definition} {block : List Declaration}
    (h : Block schema encoding definition block) :
    block.filterMap Declaration.aheadName? = classNames [definition] := by
  cases h with
  | @simpleSum name sum _ _ hsimple _ _ =>
    rw [classNames_of_isEnumeration ⟨sum, rfl, hsimple⟩]
    rfl
  | @compoundSum name sum _ _ classes hcompound _ _ hclasses =>
    have hnone : (classes.map Declaration.accessorClass).filterMap Declaration.aheadName? = [] := by
      rw [List.filterMap_eq_nil_iff]
      intro declaration hmem
      obtain ⟨cls, hcls, rfl⟩ := List.mem_map.mp hmem
      obtain ⟨variant, -, hof⟩ := exists_left_of_forall₂ hclasses hcls
      rw [Declaration.aheadName?, hof.ref_eq]
    have hclass : ¬ (Definition.mk name (.sum sum)).IsEnumeration := by
      rintro ⟨_, hbody, hsimple⟩
      cases hbody
      exact hcompound hsimple
    rw [classNames_of_not_isEnumeration hclass, List.filterMap_cons, List.filterMap_cons, hnone]
    rfl
  | @product name product cls hcls =>
    have hclass : ¬ (Definition.mk name (.product product)).IsEnumeration := by
      rintro ⟨_, hbody, -⟩
      cases hbody
    rw [classNames_of_not_isEnumeration hclass, List.filterMap_cons, Declaration.aheadName?,
      hcls.ref_eq]
    rfl

/-- **The collector and the builder agree on the names ahead**, block by block. -/
theorem aheadNames_of_blocks {definitions : List Definition} {blocks : List (List Declaration)}
    (h : List.Forall₂ (Block schema encoding) definitions blocks) :
    blocks.flatten.filterMap Declaration.aheadName? = classNames definitions := by
  induction h with
  | nil => rfl
  | @cons definition block rest _ hblock _ ih =>
    rw [List.flatten_cons, List.filterMap_append, hblock.aheadNames, ih]
    exact (classNames_cons definition rest).symm

/-! ## What accessors return -/

/-- A field that is read as an object names a definition that has classes. -/
theorem FieldValue.mem_classNames {field : Field} {typeName : String} {isOptional : Bool}
    (h : FieldValue schema field (.object typeName isOptional)) :
    typeName ∈ classNames schema.types := by
  generalize hvalue : ValueKind.object typeName isOptional = value at h
  cases h with
  | @builtin builtin _ => cases builtin <;> cases hvalue
  | enumeration => cases hvalue
  | @object used _ hused hname hobject =>
    cases hvalue
    exact Layout.mem_classNames.mpr ⟨used, hused, hobject, hname⟩

/-- The enumeration that an accessor returns is declared, and no class has its name. -/
theorem FieldValue.declared (hdistinct : (schema.types.map Definition.name).Nodup)
    {blocks : List (List Declaration)}
    (hblocks : List.Forall₂ (Block schema encoding) schema.types blocks) {field : Field}
    {typeName : String} (h : FieldValue schema field (.enumeration typeName)) :
    DeclaresEnumeration blocks.flatten typeName ∧ typeName ∉ classNames schema.types := by
  obtain ⟨used, hused, henum, -, -, rfl⟩ := h.definition
  refine ⟨?_, ?_⟩
  · obtain ⟨block, hblock, hof⟩ := exists_right_of_forall₂ hblocks hused
    obtain ⟨enumeration, hmem, hname⟩ := hof.exists_enumeration henum
    exact ⟨enumeration, List.mem_flatten_of_mem hblock hmem, hname⟩
  · intro hmem
    obtain ⟨other, hother, hclass, hname⟩ := Layout.mem_classNames.mp hmem
    rw [List.inj_on_of_nodup_map hdistinct hother hused hname] at hclass
    exact hclass henum

/-- The accessors of the queue are accessors of the classes. -/
theorem accessor_mem_of_deferred {declarations : List Declaration} {deferred : Deferred}
    (h : deferred ∈ declarations.flatMap Declaration.deferred) :
    deferred.accessor ∈ declarations.flatMap Declaration.accessors := by
  obtain ⟨cls, hcls, -, haccessor, -⟩ := exists_class_of_deferred h
  exact List.mem_flatMap.mpr ⟨_, hcls, haccessor⟩

/-- Each accessor of denoted declarations reads a field. -/
theorem Denotes.exists_fieldValue {declarations : List Declaration}
    (h : Denotes schema encoding declarations) {accessor : Accessor}
    (hmem : accessor ∈ declarations.flatMap Declaration.accessors) :
    ∃ field, FieldValue schema field accessor.value := by
  obtain ⟨declaration, hdeclaration, haccessor⟩ := List.mem_flatMap.mp hmem
  cases declaration with
  | enumeration body => cases haccessor
  | taggedBase body => cases haccessor
  | accessorClass cls =>
    obtain ⟨_, -, _, -, hslots⟩ := h.hasClass_of_mem hdeclaration
    obtain ⟨field, -, _, hof⟩ := hslots.exists_field haccessor
    exact ⟨field, hof.value⟩

/-! ## What stands above a class -/

/-- In a block, the tagged base stands above the classes of the constructors. -/
theorem Block.base_above {definition : Definition} {block : List Declaration}
    (h : Block schema encoding definition block) {p : ℕ} {cls : AccessorClass}
    {sumName constructor : String} (hp : block[p]? = some (.accessorClass cls))
    (href : cls.ref = .variant sumName constructor) : DeclaresBase (block.take p) sumName := by
  cases h with
  | simpleSum _ _ _ => cases List.mem_singleton.mp (List.mem_of_getElem? hp)
  | @compoundSum name sum enumeration attributes classes _ _ _ hclasses =>
    match p with
    | 0 => cases hp
    | 1 => cases hp
    | p + 2 =>
      have hcls : cls ∈ classes := by
        have hmem : Declaration.accessorClass cls ∈ classes.map Declaration.accessorClass :=
          List.mem_of_getElem? hp
        simpa using hmem
      obtain ⟨variant, -, hof⟩ := exists_left_of_forall₂ hclasses hcls
      have hname : name = sumName := by
        have hsame := hof.ref_eq.symm.trans href
        injection hsame
      exact ⟨⟨name, attributes⟩, List.mem_cons_of_mem _ (List.mem_cons_self ..), hname⟩
  | product hof =>
    -- the class of a product is no constructor's class
    cases List.mem_singleton.mp (List.mem_of_getElem? hp)
    cases hof.ref_eq.symm.trans href

/-- In a block, the enumeration stands above the tagged base. -/
theorem Block.enumeration_above {definition : Definition} {block : List Declaration}
    (h : Block schema encoding definition block) {p : ℕ} {base : TaggedBase}
    (hp : block[p]? = some (.taggedBase base)) :
    DeclaresEnumeration (block.take p) base.typeName := by
  cases h with
  | simpleSum _ _ _ => cases List.mem_singleton.mp (List.mem_of_getElem? hp)
  | @compoundSum name sum enumeration attributes classes _ henum _ _ =>
    match p with
    | 0 => cases hp
    | 1 =>
      cases hp
      exact ⟨enumeration, List.mem_cons_self .., henum.typeName_eq⟩
    | p + 2 =>
      have hmem : Declaration.taggedBase base ∈ classes.map Declaration.accessorClass :=
        List.mem_of_getElem? hp
      simp at hmem
  | product _ => cases List.mem_singleton.mp (List.mem_of_getElem? hp)

/-! ## Layouts -/

/-- **Every layout of a schema is closed.** -/
theorem closed_of_build {layout : Layout} (h : build schema encoding = .ok layout) :
    layout.Closed := by
  obtain ⟨declarations, hdenotes, rfl⟩ := build_eq_ok_iff.mp h
  obtain ⟨hdistinct, blocks, hblocks, rfl⟩ := hdenotes
  have hfields : ∀ accessor ∈ blocks.flatten.flatMap Declaration.accessors ++
      (blocks.flatten.flatMap Declaration.deferred).map Deferred.accessor,
      ∃ field, FieldValue schema field accessor.value := by
    intro accessor hmem
    have hin : accessor ∈ blocks.flatten.flatMap Declaration.accessors := by
      rcases List.mem_append.mp hmem with hclass | hqueue
      · exact hclass
      · obtain ⟨deferred, hdeferred, rfl⟩ := List.mem_map.mp hqueue
        exact accessor_mem_of_deferred hdeferred
    exact Denotes.exists_fieldValue ⟨hdistinct, blocks, hblocks, rfl⟩ hin
  refine ⟨(aheadNames_of_blocks hblocks).symm, ?_, ?_, ?_, ?_, ?_⟩
  · exact hdistinct.sublist (List.filter_sublist.map _)
  · intro accessor hmem typeName isOptional hvalue
    obtain ⟨field, hfield⟩ := hfields accessor hmem
    rw [hvalue] at hfield
    exact hfield.mem_classNames
  · intro accessor hmem typeName hvalue
    obtain ⟨field, hfield⟩ := hfields accessor hmem
    rw [hvalue] at hfield
    exact hfield.declared hdistinct hblocks
  · intro k cls sumName constructor hk href
    obtain ⟨before, block, after, p, rfl, hp, rfl⟩ := getElem?_flatten_split hk
    obtain ⟨definition, -, hof⟩ := exists_left_of_forall₂ hblocks
      (List.mem_append_right before (List.mem_cons_self ..))
    exact (hof.base_above hp href).mono (take_subset_take_flatten before after block p)
  · intro k base hk
    obtain ⟨before, block, after, p, rfl, hp, rfl⟩ := getElem?_flatten_split hk
    obtain ⟨definition, -, hof⟩ := exists_left_of_forall₂ hblocks
      (List.mem_append_right before (List.mem_cons_self ..))
    exact (hof.enumeration_above hp).mono (take_subset_take_flatten before after block p)

/-- A product named like a builtin, whose name no field reaches, and a sum that refers to
itself and to an enumeration defined below it. -/
def namesakeSchema : Schema :=
  ⟨"m", [⟨"int", .product ⟨[⟨"next", "expr", false, true⟩], []⟩⟩,
    ⟨"expr", .sum ⟨[⟨"Nil", []⟩, ⟨"Cons", [⟨"head", "int", false, false⟩,
      ⟨"tail", "expr", true, false⟩, ⟨"op", "op", false, false⟩]⟩], []⟩⟩,
    ⟨"op", .sum ⟨[⟨"Add", []⟩, ⟨"Sub", []⟩], []⟩⟩]⟩

theorem closed_of_builtin_namesake :
    ∃ layout, build namesakeSchema .standard = .ok layout ∧
      layout.forwards = ["int", "expr"] ∧ layout.Closed := by
  have hbuild : build namesakeSchema .standard = .ok _ := rfl
  exact ⟨_, hbuild, rfl, closed_of_build hbuild⟩

end Layout

end ReaderGen
