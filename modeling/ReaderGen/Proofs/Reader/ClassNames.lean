import Mathlib
import ReaderGen.Proofs.Layout.References
import ReaderGen.Proofs.Notation.Names
import ReaderGen.Reader.Unit

/-!
# ReaderGen.Proofs.Reader.ClassNames -- when two classes of a unit share a name

A unit defines its base class, a tagged base for each compound sum, and the classes of accessors.
A product's class and a tagged base are named after their type. The class of a constructor has the
bare name of the constructor, whatever sum it belongs to. **So the classes of a unit have different
names exactly if no two constructors with fields share a name in the whole schema, and none is
called `Obj` or like the class of a type** (`namedApart_iff`). The builder asks for none of this.

Where names differ, the name in front of a body outside the classes leads to one class.
-/

namespace ReaderGen

open Reader

/-! ## Names of classes -/

/-- The name of the class that a declaration defines; an enumeration defines none. -/
def Declaration.definedClass? : Declaration → Option String
  | .enumeration _ => none
  | .taggedBase base => some (className base.typeName)
  | .accessorClass cls => some (refName cls.ref)

/-- The reference to the class that a declaration defines, if there are references to it. -/
def Declaration.classRef? : Declaration → Option ClassRef
  | .accessorClass cls => some cls.ref
  | _ => none

/-- The names of the classes that a unit defines, its base class in front. -/
def Layout.definedClasses (layout : Layout) : List String :=
  "Obj" :: layout.declarations.filterMap Declaration.definedClass?

/-- The references to classes in a layout, in its declarations and in the queue of bodies. -/
def Layout.classRefs (layout : Layout) : List ClassRef :=
  layout.declarations.filterMap Declaration.classRef? ++ layout.deferred.map Deferred.owner

/-- The classes of a unit can be told apart by their names: no two share a name, no two references
lead to one name, and a body outside the classes belongs to the one class of its name. -/
structure Layout.NamedApart (layout : Layout) : Prop where
  classes : layout.definedClasses.Nodup
  refs : Set.InjOn refName { ref | ref ∈ layout.classRefs }
  owners : ∀ deferred ∈ layout.deferred, ∃ (k : ℕ) (cls : AccessorClass),
    layout.declarations[k]? = some (.accessorClass cls) ∧ cls.ref = deferred.owner ∧
      deferred.accessor ∈ cls.accessors ∧
      ∀ (j : ℕ) (declaration : Declaration), layout.declarations[j]? = some declaration →
        declaration.definedClass? = some (refName deferred.owner) → j = k

/-- The constructors of a definition that have classes. -/
def Definition.classConstructors (definition : Definition) : List Constructor :=
  match definition.body with
  | .sum choice => choice.withFields
  | .product _ => []

/-- The constructors of a schema that have classes. -/
def Schema.classConstructors (schema : Schema) : List Constructor :=
  schema.types.flatMap Definition.classConstructors

/-- The constructors with fields have different names in the whole schema, and none has the name
of another class. -/
structure Schema.ClassesApart (schema : Schema) : Prop where
  constructors : (schema.classConstructors.map Constructor.name).Nodup
  no_type : ∀ variant ∈ schema.classConstructors, ∀ definition ∈ schema.types,
    ¬ definition.IsEnumeration → variant.name ≠ className definition.name
  no_base : ∀ variant ∈ schema.classConstructors, variant.name ≠ "Obj"

namespace Reader

theorem className_injective : Function.Injective className := by
  intro these those h
  apply String.toList_injective
  have htext := congrArg String.toList h
  rw [className, className, String.toList_append, String.toList_append] at htext
  exact List.append_cancel_right htext

theorem className_ne_base (typeName : String) : className typeName ≠ "Obj" := by
  intro h
  have hlast := congrArg (fun text => text.toList.getLast?) h
  simp [className] at hlast

end Reader

namespace Layout

variable {schema : Schema} {encoding : Encoding}

/-! ## The classes of a block -/

theorem classConstructors_of_isEnumeration {definition : Definition}
    (h : definition.IsEnumeration) : definition.classConstructors = [] := by
  obtain ⟨choice, hbody, hsimple⟩ := h
  rw [Definition.classConstructors, hbody, List.eq_nil_iff_forall_not_mem]
  intro variant hmem
  obtain ⟨hvariant, hfields⟩ := mem_withFields.mp hmem
  exact hfields (hsimple variant hvariant)

/-- The classes of constructors go by the names of the constructors alone. -/
theorem definedClasses_of_variants {sumName : String} {variants : List Constructor}
    {classes : List AccessorClass}
    (h : List.Forall₂ (VariantClass schema encoding sumName) variants classes) :
    (classes.map Declaration.accessorClass).filterMap Declaration.definedClass? =
      variants.map Constructor.name := by
  induction h with
  | nil => rfl
  | @cons variant cls _ _ hof _ ih =>
    have hname : (Declaration.accessorClass cls).definedClass? = some variant.name := by
      rw [Declaration.definedClass?, hof.ref_eq, refName]
    rw [List.map_cons, List.filterMap_cons, hname, ih, List.map_cons]

/-- **A block defines the classes of its definition**: one for the type itself, unless it is an
enumeration, and one for each constructor with fields. -/
theorem Block.definedClasses {definition : Definition} {block : List Declaration}
    (h : Block schema encoding definition block) :
    block.filterMap Declaration.definedClass? =
      (classNames [definition]).map className ++
        definition.classConstructors.map Constructor.name := by
  cases h with
  | @simpleSum name choice _ _ hsimple _ _ =>
    have henum : (Definition.mk name (.sum choice)).IsEnumeration := ⟨choice, rfl, hsimple⟩
    rw [classNames_of_isEnumeration henum, classConstructors_of_isEnumeration henum]
    rfl
  | @compoundSum name choice _ _ classes hcompound _ _ hclasses =>
    have hclass : ¬ (Definition.mk name (.sum choice)).IsEnumeration := by
      rintro ⟨_, hbody, hsimple⟩
      cases hbody
      exact hcompound hsimple
    rw [classNames_of_not_isEnumeration hclass, List.filterMap_cons, List.filterMap_cons,
      definedClasses_of_variants hclasses]
    rfl
  | @product name record cls hcls =>
    have hclass : ¬ (Definition.mk name (.product record)).IsEnumeration := by
      rintro ⟨_, hbody, -⟩
      cases hbody
    rw [classNames_of_not_isEnumeration hclass, List.filterMap_cons, Declaration.definedClass?,
      hcls.ref_eq]
    rfl

/-- The classes of blocks are those of the types and those of the constructors. A block mixes the
two, so the order is another. -/
theorem definedClasses_of_blocks {definitions : List Definition}
    {blocks : List (List Declaration)}
    (h : List.Forall₂ (Block schema encoding) definitions blocks) :
    (blocks.flatten.filterMap Declaration.definedClass?).Perm
      ((classNames definitions).map className ++
        (definitions.flatMap Definition.classConstructors).map Constructor.name) := by
  have hblocks : blocks.flatten.filterMap Declaration.definedClass? =
      definitions.flatMap fun definition => (classNames [definition]).map className ++
        definition.classConstructors.map Constructor.name := by
    induction h with
    | nil => rfl
    | cons hblock _ ih =>
      rw [List.flatten_cons, List.filterMap_append, hblock.definedClasses, ih, List.flatMap_cons]
  have htypes : (classNames definitions).map className =
      definitions.flatMap fun definition => (classNames [definition]).map className := by
    clear h hblocks
    induction definitions with
    | nil => rfl
    | cons definition rest ih =>
      rw [classNames_cons, List.map_append, ih, List.flatMap_cons]
  rw [hblocks, htypes, List.map_flatMap]
  exact (List.flatMap_append_perm ..).symm

/-! ## The classes of a layout -/

/-- The names of all classes differ exactly if those of the constructors do, among themselves and
from all others. -/
theorem Denotes.nodup_definedClasses_iff {declarations : List Declaration}
    (h : Denotes schema encoding declarations) :
    ("Obj" :: declarations.filterMap Declaration.definedClass?).Nodup ↔ schema.ClassesApart := by
  obtain ⟨hdistinct, blocks, hblocks, rfl⟩ := h
  have hnames := definedClasses_of_blocks hblocks
  have htypes : ((classNames schema.types).map className).Nodup := by
    refine List.Nodup.map className_injective (hdistinct.sublist ?_)
    exact List.filter_sublist.map _
  have hbase : "Obj" ∉ (classNames schema.types).map className := by
    intro hmem
    obtain ⟨typeName, -, hname⟩ := List.mem_map.mp hmem
    exact className_ne_base typeName hname
  rw [List.nodup_cons, hnames.mem_iff, hnames.nodup_iff, List.mem_append, List.nodup_append',
    and_iff_right htypes, or_iff_right hbase]
  constructor
  · rintro ⟨hno, hconstructors, hapart⟩
    refine ⟨hconstructors, ?_, ?_⟩
    · intro variant hvariant definition hdefinition hclass hname
      refine hapart ?_ (List.mem_map_of_mem hvariant)
      rw [hname]
      exact List.mem_map_of_mem (mem_classNames.mpr ⟨definition, hdefinition, hclass, rfl⟩)
    · intro variant hvariant hname
      exact hno (hname ▸ List.mem_map_of_mem hvariant)
  · intro hapart
    refine ⟨?_, hapart.constructors, ?_⟩
    · intro hmem
      obtain ⟨variant, hvariant, hname⟩ := List.mem_map.mp hmem
      exact hapart.no_base variant hvariant hname
    · intro name htype hconstructor
      obtain ⟨typeName, hahead, rfl⟩ := List.mem_map.mp htype
      obtain ⟨definition, hdefinition, hclass, rfl⟩ := mem_classNames.mp hahead
      obtain ⟨variant, hvariant, hname⟩ := List.mem_map.mp hconstructor
      exact hapart.no_type variant hvariant definition hdefinition hclass hname

/-- Where the names of classes differ, one name is defined at one place. -/
theorem index_eq_of_definedClass {declarations : List Declaration}
    (h : (declarations.filterMap Declaration.definedClass?).Nodup) {j k : ℕ}
    {this that : Declaration} {name : String} (hj : declarations[j]? = some this)
    (hk : declarations[k]? = some that) (hthis : this.definedClass? = some name)
    (hthat : that.definedClass? = some name) : j = k := by
  have hordered : ∀ {i l : ℕ} {first second : Declaration}, declarations[i]? = some first →
      declarations[l]? = some second → first.definedClass? = some name →
      second.definedClass? = some name → ¬ i < l := by
    intro i l first second hi hl hfirst hsecond hlt
    obtain ⟨hil, rfl⟩ := List.getElem?_eq_some_iff.mp hi
    obtain ⟨hll, rfl⟩ := List.getElem?_eq_some_iff.mp hl
    rw [List.Nodup, List.pairwise_filterMap, List.pairwise_iff_getElem] at h
    exact h i l hil hll hlt name hfirst name hsecond rfl
  have := hordered hj hk hthis hthat
  have := hordered hk hj hthat hthis
  omega

/-- A reference to a class leads to a class among the declarations. -/
theorem exists_class_of_ref {declarations : List Declaration} {ref : ClassRef}
    (h : ref ∈ declarations.filterMap Declaration.classRef? ++
      (declarations.flatMap Declaration.deferred).map Deferred.owner) :
    ∃ cls : AccessorClass, .accessorClass cls ∈ declarations ∧ cls.ref = ref := by
  rcases List.mem_append.mp h with hdeclared | hdeferred
  · obtain ⟨declaration, hdeclaration, href⟩ := List.mem_filterMap.mp hdeclared
    cases declaration with
    | enumeration body => cases href
    | taggedBase body => cases href
    | accessorClass cls =>
      cases href
      exact ⟨cls, hdeclaration, rfl⟩
  · obtain ⟨deferred, hqueue, rfl⟩ := List.mem_map.mp hdeferred
    obtain ⟨cls, hcls, href, -⟩ := exists_class_of_deferred hqueue
    exact ⟨cls, hcls, href⟩

/-- **The classes of a unit can be told apart by their names exactly if the constructors with
fields have different names in the whole schema, and none the name of another class.** -/
theorem namedApart_iff {layout : Layout} (hbuild : build schema encoding = .ok layout) :
    layout.NamedApart ↔ schema.ClassesApart := by
  obtain ⟨declarations, hdenotes, rfl⟩ := build_eq_ok_iff.mp hbuild
  rw [← hdenotes.nodup_definedClasses_iff]
  constructor
  · intro h
    exact h.classes
  · intro hclasses
    have hnodup := (List.nodup_cons.mp hclasses).2
    refine ⟨hclasses, ?_, ?_⟩
    · intro this hthis that hthat hname
      obtain ⟨cls, hcls, rfl⟩ := exists_class_of_ref hthis
      obtain ⟨other, hother, rfl⟩ := exists_class_of_ref hthat
      obtain ⟨j, hj⟩ := List.mem_iff_getElem?.mp hcls
      obtain ⟨k, hk⟩ := List.mem_iff_getElem?.mp hother
      have hplace : j = k :=
        index_eq_of_definedClass hnodup hj hk (congrArg some hname) rfl
      rw [hplace, hk] at hj
      cases hj
      rfl
    · intro deferred hmem
      obtain ⟨cls, hcls, href, haccessor, -⟩ := exists_class_of_deferred hmem
      obtain ⟨k, hk⟩ := List.mem_iff_getElem?.mp hcls
      refine ⟨k, cls, hk, href, haccessor, ?_⟩
      intro j declaration hj hname
      exact index_eq_of_definedClass hnodup hj hk hname (congrArg (some ∘ refName) href)

/-! ## One constructor name in two sums -/

/-- Two sums of one constructor each; that of the second leads to the first. -/
def siblingSchema (first second : String) : Schema :=
  ⟨"m", [⟨"a", .sum ⟨[⟨first, [⟨"v", "int", false, false⟩]⟩], []⟩⟩,
    ⟨"b", .sum ⟨[⟨second, [⟨"w", "a", false, false⟩]⟩], []⟩⟩]⟩

theorem namedApart_of_other_constructor :
    ∃ layout, build (siblingSchema "X" "Y") .standard = .ok layout ∧ layout.NamedApart := by
  have hbuild : build (siblingSchema "X" "Y") .standard = .ok _ := rfl
  refine ⟨_, hbuild, (namedApart_iff hbuild).mpr ⟨by decide, ?_, by decide⟩⟩
  have hnames : ∀ variant ∈ (siblingSchema "X" "Y").classConstructors,
      ∀ definition ∈ (siblingSchema "X" "Y").types, variant.name ≠ className definition.name := by
    decide
  intro variant hvariant definition hdefinition _
  exact hnames variant hvariant definition hdefinition

/-- The constructors of both sums are called `X`, and so are both classes. -/
theorem not_namedApart_of_same_constructor :
    ∃ layout, Notation.parse "module m \x7b a = X(int v) b = X(a w) \x7d" =
        .ok (siblingSchema "X" "X") ∧
      build (siblingSchema "X" "X") .standard = .ok layout ∧ ¬ layout.NamedApart := by
  refine ⟨_, Notation.parse_of_kinds (by cbv) (by decide), rfl, ?_⟩
  intro hapart
  exact absurd hapart.classes (by decide)

end Layout

end ReaderGen
